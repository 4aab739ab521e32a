import CommandOntology.Proofs.Characters
import CommandOntology.Proofs.GrammarContinuations
import CommandOntology.Proofs.ScopeContents

set_option autoImplicit false

/-!
# Documents that are accepted

What the machine still demands of the lexemes that follow, given the constructs that are open: the rest
of each of them, from the innermost on. Settling the machine does not change its demands, and a token
that it takes is the first of what it demands. So the machine accepts what the grammar describes, and
where it refuses a token because of its kind, no document goes on like that.
-/

namespace CommandOntology.Turtle

open Grammar

def Use.IsSubject : Use → Prop
  | .subject => True
  | _ => False

mutual

def Context.Demands : Context → List Lexeme → Prop
  | .statement => StatementEnd
  | .brackets _ use => Expects .closeBracket fun ls => use.IsSubject ∧ StatementEnd ls ∨ use.Demands ls

def Use.Demands : Use → List Lexeme → Prop
  | .subject => AfterSubject
  | .object _ _ _ context => AfterObject context.Demands
  | .item _ use => AfterItem use.Demands

end

def Use.DemandsBracketed (use : Use) (ls : List Lexeme) : Prop :=
  use.IsSubject ∧ StatementEnd ls ∨ use.Demands ls

/-- What may follow from a control on. -/
def Control.Demands : Control → List Lexeme → Prop
  | .statement => Grammar.Document
  | .namespaceLabel isClosed _ => AfterDirective isClosed .namespaceLabel
  | .namespaceIri isClosed _ _ => AfterDirective isClosed .base
  | .baseIri isClosed => AfterDirective isClosed .base
  | .directiveEnd => StatementEnd
  | .predicateOrEnd _ => AfterBracketedSubject
  | .bracketStart _ use => AfterBracket use.DemandsBracketed
  | .predicate _ context => Then Properties context.Demands
  | .object _ _ context => Then Object (AfterObject context.Demands)
  | .objectEnd _ _ context => AfterObject context.Demands
  | .semicolon _ context => AfterSemicolon context.Demands
  | .contextEnd context => context.Demands
  | .item _ use => AfterItem use.Demands
  | .literalMark _ use => AfterText use.Demands
  | .datatype _ use => Then Iri use.Demands

theorem Use.demandsBracketed_object (subject predicate : Term) (line : Nat) (context : Context) :
    (Use.object subject predicate line context).DemandsBracketed = AfterObject context.Demands := by
  funext ls
  simp [DemandsBracketed, IsSubject, Use.Demands]

theorem Use.demandsBracketed_item (items : List Term) (use : Use) :
    (Use.item items use).DemandsBracketed = AfterItem use.Demands := by
  funext ls
  simp [DemandsBracketed, IsSubject, Use.Demands]

theorem Context.demands_cons (context : Context) (l : Lexeme) (ls : List Lexeme)
    (h : context.Demands (l :: ls)) : endsPredicates (some l) = true := by
  cases context with
  | statement =>
    obtain ⟨rfl, -⟩ := (expects_cons ..).1 h
    rfl
  | brackets node use =>
    obtain ⟨rfl, -⟩ := (expects_cons ..).1 h
    rfl

theorem Context.not_demands_nil (context : Context) : ¬context.Demands [] := by
  cases context with
  | statement => exact not_expects_nil _ _
  | brackets node use => exact not_expects_nil _ _

theorem continuesLiteral_of_isIri (l : Lexeme) (h : l = .word "a" ∨ IsIri l) :
    continuesLiteral (some l) = false := by
  obtain rfl | h := h
  · rfl
  · cases l with
    | iri => rfl
    | name => rfl
    | _ => cases h

theorem Use.demands_cons (use : Use) (l : Lexeme) (ls : List Lexeme) (h : use.Demands (l :: ls)) :
    continuesLiteral (some l) = false := by
  cases use with
  | subject => exact continuesLiteral_of_isIri l ((then_properties_cons l ls).1 h).1
  | object subject predicate line context =>
    obtain hc | ⟨rfl, -⟩ | ⟨rfl, -⟩ := (afterObject_cons l ls).1 h
    · have hend := context.demands_cons l ls hc
      cases l with
      | mark m => cases m <;> first | rfl | cases hend
      | _ => cases hend
    · rfl
    · rfl
  | item items use =>
    obtain hc | ho := (afterItem_iff (l :: ls)).1 h
    · obtain ⟨rfl, -⟩ := (expects_cons ..).1 hc
      rfl
    · have hstart := (then_object_cons l ls).1 ho
      cases l with
      | mark m => cases m <;> first | rfl | cases hstart
      | languageTag tag => cases hstart
      | _ => rfl

theorem deliver_demands (scope : Scope) (node : Term) (use : Use) :
    (deliver scope node use).1.Demands = use.Demands := by
  cases use <;> rfl

theorem deliverBrackets_demands (scope : Scope) (node : Term) (use : Use) :
    (deliverBrackets scope node use).1.Demands = use.DemandsBracketed := by
  cases use with
  | subject =>
    funext ls
    simp [deliverBrackets, Control.Demands, Use.DemandsBracketed, Use.IsSubject, Use.Demands,
      AfterBracketedSubject]
  | object subject predicate line context => rw [Use.demandsBracketed_object]; rfl
  | item items use => rw [Use.demandsBracketed_item]; rfl

theorem afterText_iff_of_not_continues {next : List Lexeme → Prop} (ls : List Lexeme)
    (h : continuesLiteral ls.head? = false) : AfterText next ls ↔ next ls := by
  constructor
  · rintro (hn | ⟨tag, rest, rfl, -⟩ | ⟨rest, rfl, -⟩)
    · exact hn
    · cases h
    · cases h
  · exact .inl

theorem afterObject_iff_of_not_continues {next : List Lexeme → Prop} (ls : List Lexeme)
    (h : continuesObjects ls.head? = false) : AfterObject next ls ↔ next ls := by
  cases ls with
  | nil => exact afterObject_nil
  | cons l ls =>
    rw [afterObject_cons]
    constructor
    · rintro (hn | ⟨rfl, -⟩ | ⟨rfl, -⟩)
      · exact hn
      · cases h
      · cases h
    · exact .inl

theorem not_then_properties_of_endsPredicates {next : List Lexeme → Prop} (ls : List Lexeme)
    (h : endsPredicates ls.head? = true) : ¬Then Properties next ls := by
  cases ls with
  | nil => exact not_then_properties_nil
  | cons l ls =>
    rw [then_properties_cons]
    rintro ⟨rfl | hi, -⟩
    · cases h
    · cases l with
      | iri => cases h
      | name => cases h
      | _ => cases hi

theorem afterSemicolon_iff_of_ends {next : List Lexeme → Prop} (ls : List Lexeme)
    (h : endsPredicates ls.head? = true) : AfterSemicolon next ls ↔ next ls := by
  rw [afterSemicolon_iff]
  constructor
  · rintro (hn | hp | ⟨rest, rfl, -⟩)
    · exact hn
    · exact absurd hp (not_then_properties_of_endsPredicates ls h)
    · cases h
  · exact .inl

theorem demands_settleLiteral (control : Control) (scope : Scope) (ls : List Lexeme) :
    (settleLiteral control scope ls.head?).1.Demands ls ↔ control.Demands ls := by
  cases control with
  | literalMark value use =>
    rw [settleLiteral]
    split_ifs with h
    · exact Iff.rfl
    · rw [deliver_demands]
      exact (afterText_iff_of_not_continues ls (by simpa using h)).symm
  | _ => exact Iff.rfl

theorem demands_settleList (control : Control) (ls : List Lexeme) :
    (settleList control ls.head?).Demands ls ↔ control.Demands ls := by
  cases control with
  | objectEnd subject predicate context =>
    rw [settleList]
    split_ifs with h
    · exact Iff.rfl
    · exact (afterObject_iff_of_not_continues ls (by simpa using h)).symm
  | semicolon subject context =>
    rw [settleList]
    split_ifs with h
    · exact (afterSemicolon_iff_of_ends ls h).symm
    · exact Iff.rfl
  | _ => exact Iff.rfl

/-- Closing what the next lexeme cannot continue does not change what is demanded. -/
theorem demands_settle (control : Control) (scope : Scope) (ls : List Lexeme) :
    (settle control scope ls.head?).1.Demands ls ↔ control.Demands ls := by
  rw [settle, demands_settleList, demands_settleLiteral]

def Control.IsSettled (next : Option Lexeme) : Control → Prop
  | .literalMark .. => continuesLiteral next = true
  | .objectEnd .. => continuesObjects next = true
  | .semicolon .. => endsPredicates next = false
  | _ => True

theorem isSettled_settleList (control : Control) (next : Option Lexeme)
    (h : ∀ value use, control = .literalMark value use → continuesLiteral next = true) :
    (settleList control next).IsSettled next := by
  cases control with
  | objectEnd subject predicate context =>
    rw [settleList]
    split_ifs with hc
    · exact hc
    · trivial
  | semicolon subject context =>
    rw [settleList]
    split_ifs with hc
    · trivial
    · exact Bool.eq_false_iff.2 hc
  | literalMark value use => exact h value use rfl
  | _ => trivial

theorem continues_of_settleLiteral (control : Control) (scope : Scope) (next : Option Lexeme)
    (value : String) (use : Use)
    (h : (settleLiteral control scope next).1 = .literalMark value use) :
    continuesLiteral next = true := by
  cases control with
  | literalMark value' use' =>
    unfold settleLiteral at h
    dsimp only at h
    split_ifs at h with hc
    · exact hc
    · cases use' <;> cases h
  | _ => cases h

theorem isSettled_settle (control : Control) (scope : Scope) (next : Option Lexeme) :
    (settle control scope next).1.IsSettled next :=
  isSettled_settleList (settleLiteral control scope next).1 next
    (continues_of_settleLiteral control scope next)

/-- How what is demanded before a token goes together with what came of it. An error about what the
document denotes leaves it open. -/
def Matches (demanded : Prop) (outcome : Option (Except ParseError (Control × Scope)))
    (ls : List Lexeme) : Prop :=
  match outcome with
  | none => ¬demanded
  | some (.ok r) => demanded ↔ r.1.Demands ls
  | some (.error _) => True

variable {scope : Scope} {token : Token} {ls : List Lexeme}

theorem Matches.congr {p q : Prop} {outcome : Option (Except ParseError (Control × Scope))}
    (h : Matches p outcome ls) (hq : q ↔ p) : Matches q outcome ls := by
  match outcome, h with
  | none, h => exact fun hn => h (hq.1 hn)
  | some (.ok r), h => exact hq.trans h
  | some (.error e), h => exact h

theorem resolveIri?_eq_none_iff : scope.resolveIri? token = none ↔ ¬IsIri token.lexeme := by
  unfold Scope.resolveIri?
  split <;> simp_all [IsIri]

theorem matches_resolveIri? {demanded : Prop} (f : String → Control × Scope)
    (hiri : IsIri token.lexeme → ∀ iri, demanded ↔ (f iri).1.Demands ls)
    (hnot : ¬IsIri token.lexeme → ¬demanded) :
    Matches demanded ((scope.resolveIri? token).map fun iri => iri.map f) ls := by
  cases h : scope.resolveIri? token with
  | none => exact hnot (resolveIri?_eq_none_iff.1 h)
  | some result =>
    have hi : IsIri token.lexeme := by
      refine Classical.not_not.1 fun hi => ?_
      rw [resolveIri?_eq_none_iff.2 hi] at h
      cases h
    cases result with
    | ok iri => exact hiri hi iri
    | error e => trivial

theorem takeNode_matches (use : Use) :
    Matches (AfterNodeStart use.Demands use.DemandsBracketed token.lexeme ls)
      (takeNode scope token use) ls := by
  have hiri : Matches (AfterNodeStart use.Demands use.DemandsBracketed token.lexeme ls)
      ((scope.resolveIri? token).map fun iri => iri.map fun iri => deliver scope (.iri iri) use)
      ls ∨ ¬IsIri token.lexeme := by
    by_cases hi : IsIri token.lexeme
    · refine .inl (matches_resolveIri? _ (fun _ iri => ?_) fun hn => absurd hi hn)
      rw [deliver_demands, afterNodeStart_of_isIri _ _ _ hi]
    · exact .inr hi
  unfold takeNode
  cases hl : token.lexeme with
  | blankNode label =>
    change _ ↔ (deliver _ _ _).1.Demands ls
    rw [deliver_demands]
    exact Iff.rfl
  | mark m =>
    cases m with
    | openBracket => exact Iff.rfl
    | openParenthesis => exact Iff.rfl
    | _ => simp [Scope.resolveIri?, hl, Matches, AfterNodeStart]
  | iri reference => simpa [hl, IsIri] using hiri
  | name label name => simpa [hl, IsIri] using hiri
  | _ => simp [Scope.resolveIri?, hl, Matches, AfterNodeStart]

theorem takeObject_matches (use : Use) (h : use.DemandsBracketed = use.Demands) :
    Matches (Then Object use.Demands (token.lexeme :: ls)) (takeObject scope token use) ls := by
  rw [then_object_cons]
  have hnode : Matches _ (takeNode scope token use) ls := takeNode_matches use
  rw [h] at hnode
  unfold takeObject
  cases hl : token.lexeme with
  | text value => exact Iff.rfl
  | number kind digits =>
    change _ ↔ (deliver _ _ _).1.Demands ls
    rw [deliver_demands]
    exact Iff.rfl
  | word word =>
    dsimp only
    split_ifs with hw
    · change _ ↔ (deliver _ _ _).1.Demands ls
      rw [deliver_demands]
      exact and_iff_right hw
    · exact fun hn => hw hn.1
  | _ =>
    rw [hl] at hnode
    exact hnode

theorem takePredicate_matches (subject : Term) (context : Context) :
    Matches (Then Properties context.Demands (token.lexeme :: ls))
      (takePredicate scope token subject context) ls := by
  have hiri (hw : token.lexeme ≠ .word "a") :
      Matches (Then Properties context.Demands (token.lexeme :: ls))
        ((scope.resolveIri? token).map fun iri =>
          iri.map fun iri => (.object subject (.iri iri) context, scope)) ls := by
    refine matches_resolveIri? _ (fun hi iri => ?_) fun hi => ?_
    · rw [then_properties_cons]
      exact and_iff_right (.inr hi)
    · rw [then_properties_cons]
      rintro ⟨hl | hl, -⟩
      · exact hw hl
      · exact hi hl
  unfold takePredicate
  cases hl : token.lexeme with
  | word word =>
    dsimp only
    split_ifs with hw
    · subst hw
      rw [Matches, then_properties_cons]
      exact and_iff_right (.inl rfl)
    · rw [Matches, then_properties_cons]
      rintro ⟨hl | hl, -⟩
      · exact hw (Lexeme.word.inj hl)
      · exact hl
  | _ => simpa [hl] using hiri

theorem wordDirective?_eq_some_iff (word : String) (d : Directive) :
    wordDirective? word = some d ↔ IsDirectiveWord word d := by
  have hlower : String.ofList (word.toList.map Text.asciiLower) = word.toLower := by
    have hmap : word.toLower = word.map Char.toLower := rfl
    rw [← String.toList_inj, hmap, String.toList_ofList, String.toList_map]
    exact List.map_congr_left fun c _ => Text.asciiLower_eq_toLower c
  rw [wordDirective?, hlower, Directive.ofText?]
  cases d with
  | namespaceLabel =>
    rw [IsDirectiveWord]
    split_ifs with h h' <;> simp_all
  | base =>
    rw [IsDirectiveWord]
    split_ifs with h h' <;> simp_all

theorem afterDirective_demands (d : Directive) (isClosed : Bool) (line : Nat) :
    (afterDirective d isClosed line).Demands = AfterDirective isClosed d := by
  cases d <;> rfl

theorem afterDeclaration_demands (isClosed : Bool) :
    (afterDeclaration isClosed).Demands = AfterDeclaration isClosed := by
  cases isClosed <;> rfl

theorem takeStatement_matches :
    Matches (Grammar.Document (token.lexeme :: ls)) (takeStatement scope token) ls := by
  rw [document_cons]
  have hnode : Matches _ (takeNode scope token .subject) ls := takeNode_matches .subject
  have hbracketed : Use.subject.DemandsBracketed = AfterBracketedSubject := by
    funext ls
    simp [Use.DemandsBracketed, Use.IsSubject, Use.Demands, AfterBracketedSubject]
  unfold takeStatement
  cases hl : token.lexeme with
  | directive d =>
    change _ ↔ (afterDirective _ _ _).Demands ls
    rw [afterDirective_demands]
    exact Iff.rfl
  | word word =>
    dsimp only
    cases hd : wordDirective? word with
    | none =>
      rintro ⟨d, hw, -⟩
      rw [(wordDirective?_eq_some_iff word d).2 hw] at hd
      cases hd
    | some d =>
      change _ ↔ (afterDirective _ _ _).Demands ls
      rw [afterDirective_demands]
      constructor
      · rintro ⟨d', hw, h⟩
        rw [(wordDirective?_eq_some_iff word d').2 hw] at hd
        obtain rfl := Option.some.inj hd
        exact h
      · exact fun h => ⟨d, (wordDirective?_eq_some_iff word d).1 hd, h⟩
  | _ =>
    rw [hl] at hnode
    refine hnode.congr ?_
    simp [AfterStatementStart, Use.Demands, hbracketed]

theorem Context.not_demands_cons (context : Context) (l : Lexeme) (ls : List Lexeme)
    (h : endsPredicates (some l) = false) : ¬context.Demands (l :: ls) := by
  intro hd
  rw [context.demands_cons l ls hd] at h
  cases h

theorem not_expects_cons {m : Mark} {next : List Lexeme → Prop} {l : Lexeme} (h : l ≠ .mark m) :
    ¬Expects m next (l :: ls) :=
  fun hd => h ((expects_cons ..).1 hd).1

theorem statementEnd_dot : StatementEnd (.mark .dot :: ls) ↔ Grammar.Document ls :=
  (expects_cons ..).trans (and_iff_right rfl)

theorem afterText_tag (use : Use) (tag : String) :
    AfterText use.Demands (.languageTag tag :: ls) ↔ use.Demands ls := by
  constructor
  · rintro (h | ⟨tag, rest, he, hd⟩ | ⟨rest, he, -⟩)
    · cases use.demands_cons _ ls h
    · obtain ⟨-, rfl⟩ := List.cons_eq_cons.1 he
      exact hd
    · cases he
  · exact fun h => .inr (.inl ⟨tag, ls, rfl, h⟩)

theorem afterText_datatype (use : Use) :
    AfterText use.Demands (.mark .datatype :: ls) ↔ Then Iri use.Demands ls := by
  constructor
  · rintro (h | ⟨tag, rest, he, -⟩ | ⟨rest, he, hd⟩)
    · cases use.demands_cons _ ls h
    · cases he
    · obtain ⟨-, rfl⟩ := List.cons_eq_cons.1 he
      exact hd
  · exact fun h => .inr (.inr ⟨ls, rfl, h⟩)

theorem matches_declaration (isClosed : Bool) (reference : String) (outcome)
    (hok : ∀ r, outcome = .ok r → r.1 = afterDeclaration isClosed) :
    Matches (AfterDirective isClosed .base (.iri reference :: ls)) (some outcome) ls := by
  cases ho : outcome with
  | error e => trivial
  | ok r =>
    rw [Matches, hok r ho, afterDeclaration_demands]
    constructor
    · rintro ⟨iri, rest, he, hd⟩
      obtain ⟨-, rfl⟩ := List.cons_eq_cons.1 he
      exact hd
    · exact fun hd => ⟨reference, ls, rfl, hd⟩

theorem take_namespaceLabel_matches (isClosed : Bool) (line : Nat) :
    Matches ((Control.namespaceLabel isClosed line).Demands (token.lexeme :: ls))
      (take (.namespaceLabel isClosed line) scope token) ls := by
  unfold take
  cases hl : token.lexeme with
  | name label rest =>
    by_cases hrest : rest = ""
    · subst hrest
      constructor
      · rintro ⟨label, iri, rest, he, hd⟩
        obtain ⟨-, rfl⟩ := List.cons_eq_cons.1 he
        exact ⟨iri, rest, rfl, hd⟩
      · rintro ⟨iri, rest, rfl, hd⟩
        exact ⟨label, iri, rest, rfl, hd⟩
    · simp [hrest, Matches, Control.Demands, AfterDirective]
  | _ =>
    rintro ⟨label, iri, rest, he, -⟩
    cases he

theorem take_namespaceIri_matches (isClosed : Bool) (line : Nat) (label : String) :
    Matches ((Control.namespaceIri isClosed line label).Demands (token.lexeme :: ls))
      (take (.namespaceIri isClosed line label) scope token) ls := by
  unfold take
  cases hl : token.lexeme with
  | iri reference =>
    refine matches_declaration isClosed reference _ fun r hr => ?_
    obtain ⟨iri, -, hr⟩ := (bind_eq_ok_iff _ _ _).1 hr
    obtain ⟨scope', -, hr⟩ := (bind_eq_ok_iff _ _ _).1 hr
    cases hr
    rfl
  | _ =>
    rintro ⟨reference, rest, he, -⟩
    cases he

theorem take_baseIri_matches (isClosed : Bool) :
    Matches ((Control.baseIri isClosed).Demands (token.lexeme :: ls)) (take (.baseIri isClosed) scope token) ls := by
  unfold take
  cases hl : token.lexeme with
  | iri reference =>
    refine matches_declaration isClosed reference _ fun r hr => ?_
    obtain ⟨iri, -, hr⟩ := (bind_eq_ok_iff _ _ _).1 hr
    cases hr
    rfl
  | _ =>
    rintro ⟨reference, rest, he, -⟩
    cases he

theorem take_predicateOrEnd_matches (subject : Term) :
    Matches ((Control.predicateOrEnd subject).Demands (token.lexeme :: ls))
      (take (.predicateOrEnd subject) scope token) ls := by
  by_cases hl : token.lexeme = .mark .dot
  · simp only [take, hl]
    have hno : ¬AfterSubject (.mark .dot :: ls) := not_then_properties_of_endsPredicates _ rfl
    exact (or_iff_left hno).trans statementEnd_dot
  · simp only [take]
    exact (takePredicate_matches subject .statement).congr (or_iff_right (not_expects_cons hl))

theorem take_bracketStart_matches (node : Term) (use : Use) :
    Matches ((Control.bracketStart node use).Demands (token.lexeme :: ls))
      (take (.bracketStart node use) scope token) ls := by
  by_cases hl : token.lexeme = .mark .closeBracket
  · have hno (next : List Lexeme → Prop) : ¬Then Properties next (.mark .closeBracket :: ls) :=
      not_then_properties_of_endsPredicates _ rfl
    simp only [take, hl]
    rw [Matches, deliverBrackets_demands]
    simp [Control.Demands, AfterBracket, hno]
  · simp only [take]
    exact (takePredicate_matches node (.brackets node use)).congr (or_iff_right (not_expects_cons hl))

theorem take_objectEnd_matches (subject predicate : Term) (context : Context)
    (h : continuesObjects (some token.lexeme) = true) :
    Matches ((Control.objectEnd subject predicate context).Demands (token.lexeme :: ls))
      (take (.objectEnd subject predicate context) scope token) ls := by
  unfold take
  cases hl : token.lexeme with
  | mark m =>
    rw [hl] at h
    cases m with
    | comma =>
      have hno := context.not_demands_cons (.mark .comma) ls rfl
      simp [Matches, Control.Demands, afterObject_cons, hno]
    | semicolon =>
      have hno := context.not_demands_cons (.mark .semicolon) ls rfl
      simp [Matches, Control.Demands, afterObject_cons, hno]
    | _ => cases h
  | _ =>
    rw [hl] at h
    cases h

theorem take_semicolon_matches (subject : Term) (context : Context)
    (h : endsPredicates (some token.lexeme) = false) :
    Matches ((Control.semicolon subject context).Demands (token.lexeme :: ls))
      (take (.semicolon subject context) scope token) ls := by
  have hno := context.not_demands_cons token.lexeme ls h
  by_cases hl : token.lexeme = .mark .semicolon
  · rw [hl] at hno
    simp only [take, hl]
    simp [Matches, Control.Demands, afterSemicolon_cons, then_properties_cons, hno, IsIri]
  · simp only [take]
    refine (takePredicate_matches subject context).congr ?_
    simp [Control.Demands, afterSemicolon_cons, hno, hl]

theorem take_directiveEnd_matches :
    Matches (Control.directiveEnd.Demands (token.lexeme :: ls)) (take .directiveEnd scope token) ls := by
  unfold take
  cases hl : token.lexeme with
  | mark m =>
    cases m with
    | dot => exact statementEnd_dot
    | _ => exact not_expects_cons (by simp)
  | _ => exact not_expects_cons (by simp)

theorem take_contextEnd_matches (context : Context) :
    Matches ((Control.contextEnd context).Demands (token.lexeme :: ls))
      (take (.contextEnd context) scope token) ls := by
  unfold take
  cases context with
  | statement =>
    cases hl : token.lexeme with
    | mark m =>
      cases m with
      | dot => exact statementEnd_dot
      | _ => exact not_expects_cons (by simp)
    | _ => exact not_expects_cons (by simp)
  | brackets node use =>
    cases hl : token.lexeme with
    | mark m =>
      cases m with
      | closeBracket =>
        change _ ↔ (deliverBrackets _ _ _).1.Demands ls
        rw [deliverBrackets_demands]
        exact (expects_cons ..).trans (and_iff_right rfl)
      | _ => exact not_expects_cons (by simp)
    | _ => exact not_expects_cons (by simp)

theorem take_item_matches (items : List Term) (use : Use) :
    Matches ((Control.item items use).Demands (token.lexeme :: ls)) (take (.item items use) scope token) ls := by
  by_cases hl : token.lexeme = .mark .closeParenthesis
  · simp only [take, hl]
    rw [Matches, deliver_demands]
    simp [Control.Demands, afterItem_iff, then_object_cons, AfterObjectStart, AfterNodeStart]
  · simp only [take]
    refine (takeObject_matches _ (Use.demandsBracketed_item items use)).congr ?_
    exact (afterItem_iff _).trans (or_iff_right (not_expects_cons hl))

theorem take_literalMark_matches (value : String) (use : Use)
    (h : continuesLiteral (some token.lexeme) = true) :
    Matches ((Control.literalMark value use).Demands (token.lexeme :: ls))
      (take (.literalMark value use) scope token) ls := by
  unfold take
  cases hl : token.lexeme with
  | languageTag tag =>
    change _ ↔ (deliver _ _ _).1.Demands ls
    rw [deliver_demands]
    exact afterText_tag use tag
  | mark m =>
    rw [hl] at h
    cases m with
    | datatype => exact afterText_datatype use
    | _ => cases h
  | _ =>
    rw [hl] at h
    cases h

theorem take_datatype_matches (value : String) (use : Use) :
    Matches ((Control.datatype value use).Demands (token.lexeme :: ls))
      (take (.datatype value use) scope token) ls := by
  refine matches_resolveIri? _ (fun hi iri => ?_) fun hi => ?_
  · rw [deliver_demands]
    exact (then_iri_cons ..).trans (and_iff_right hi)
  · exact fun hd => hi ((then_iri_cons ..).1 hd).1

/-- What a settled control demands names the tokens that it takes, and no others. -/
theorem take_matches (control : Control) (h : control.IsSettled (some token.lexeme)) :
    Matches (control.Demands (token.lexeme :: ls)) (take control scope token) ls := by
  cases control with
  | statement => exact takeStatement_matches
  | namespaceLabel isClosed line => exact take_namespaceLabel_matches isClosed line
  | namespaceIri isClosed line label => exact take_namespaceIri_matches isClosed line label
  | baseIri isClosed => exact take_baseIri_matches isClosed
  | directiveEnd => exact take_directiveEnd_matches
  | predicateOrEnd subject => exact take_predicateOrEnd_matches subject
  | bracketStart node use => exact take_bracketStart_matches node use
  | predicate subject context => exact takePredicate_matches subject context
  | object subject predicate context => exact takeObject_matches _ (Use.demandsBracketed_object _ _ _ _)
  | objectEnd subject predicate context => exact take_objectEnd_matches subject predicate context h
  | semicolon subject context => exact take_semicolon_matches subject context h
  | contextEnd context => exact take_contextEnd_matches context
  | item items use => exact take_item_matches items use
  | literalMark value use => exact take_literalMark_matches value use h
  | datatype value use => exact take_datatype_matches value use

theorem demands_nil (control : Control) (h : control.IsSettled none) :
    control.Demands [] ↔ control = .statement := by
  have hcontext (context : Context) := context.not_demands_nil
  cases control with
  | statement => exact iff_of_true .nil rfl
  | objectEnd => cases h
  | semicolon => cases h
  | literalMark => cases h
  | namespaceLabel isClosed line => simp [Control.Demands, AfterDirective]
  | namespaceIri isClosed line label => simp [Control.Demands, AfterDirective]
  | baseIri isClosed => simp [Control.Demands, AfterDirective]
  | directiveEnd => simp [Control.Demands, StatementEnd, not_expects_nil]
  | predicateOrEnd subject =>
    simp [Control.Demands, AfterBracketedSubject, StatementEnd, AfterSubject, not_expects_nil,
      not_then_properties_nil]
  | bracketStart node use =>
    simp [Control.Demands, AfterBracket, not_expects_nil, not_then_properties_nil]
  | predicate subject context => simp [Control.Demands, not_then_properties_nil]
  | object subject predicate context => simp [Control.Demands, not_then_object_nil]
  | contextEnd context => simp [Control.Demands, hcontext]
  | item items use =>
    simp [Control.Demands, afterItem_iff, not_expects_nil, not_then_object_nil]
  | datatype value use => simp [Control.Demands, not_then_iri_nil]

theorem finish_demands (control : Control) (scope : Scope) (stop : Position) :
    (finish control scope stop).2 = none ↔ control.Demands [] := by
  have hnil := demands_nil _ (isSettled_settle control scope none)
  rw [← demands_settle control scope [], List.head?_nil, hnil]
  unfold finish
  dsimp only
  split
  · next h => simpa using h
  · next h => simpa using h

theorem ParseError.not_isGrammatical {e : ParseError} (h : e.IsDenotational) : ¬e.IsGrammatical := by
  cases e with
  | unexpected => exact fun _ => h
  | _ => exact id

abbrev Control.IsOpen (control : Control) (scope : Scope) : Prop :=
  StateAllIris (fun _ => True) (fun _ => True) True (control, scope)

theorem step_demands {control : Control} {scope : Scope} (hopen : control.IsOpen scope) (token : Token)
    (ls : List Lexeme) :
    match (step control scope token).2 with
    | .ok state => control.Demands (token.lexeme :: ls) ↔ state.1.Demands ls
    | .error e => e.IsGrammatical → ¬control.Demands (token.lexeme :: ls) := by
  have hsettle := demands_settle control scope (token.lexeme :: ls)
  have hmatches : Matches _ (take _ (settle control scope (some token.lexeme)).2 token) ls :=
    take_matches _ (isSettled_settle control scope (some token.lexeme))
  have hsettled := settle_allIris hopen.1 hopen.2 (some token.lexeme)
  have hkeeps := take_keeps inherited_true _ token (hsettled.1.mono fun _ _ _ => trivial) hsettled.2
  rw [List.head?_cons] at hsettle
  unfold step
  dsimp only
  cases ht : take (settle control scope (some token.lexeme)).1
      (settle control scope (some token.lexeme)).2 token with
  | none =>
    rw [ht] at hmatches
    exact fun _ hd => hmatches (hsettle.2 hd)
  | some outcome =>
    rw [ht] at hmatches
    cases outcome with
    | ok state => exact hsettle.symm.trans hmatches
    | error e => exact fun hg _ => ParseError.not_isGrammatical (hkeeps _ ht) hg

/-- A run ends well just if the lexemes are what the control demands, unless it stops because of what
they denote. -/
theorem run_demands (stop : Position) (tokens : List Token) {control : Control} {scope : Scope}
    (hopen : control.IsOpen scope) :
    match (run stop control scope tokens).2 with
    | none => control.Demands (tokens.map (·.lexeme))
    | some e => e.IsGrammatical → ¬control.Demands (tokens.map (·.lexeme)) := by
  induction tokens generalizing control scope with
  | nil =>
    have hiff := finish_demands control scope stop
    unfold run
    cases hf : (finish control scope stop).2 with
    | none => exact hiff.1 hf
    | some e =>
      rw [hf] at hiff
      exact fun _ hd => by cases hiff.2 hd
  | cons token tokens ih =>
    have hkeeps := (step_keeps inherited_true control token
      (hopen.1.mono fun _ _ _ => trivial) hopen.2).2
    have hstep := step_demands hopen token (tokens.map (·.lexeme))
    unfold run
    cases hs : step control scope token with
    | mk scope₁ outcome =>
      rw [hs] at hstep hkeeps
      cases outcome with
      | error e => exact hstep
      | ok state =>
        obtain ⟨e, he, -⟩ | hstate := hkeeps
        · cases he
        · have hrest := ih ⟨hstate.1.mono fun _ => trivial, hstate.2⟩
          dsimp only at hstep ⊢
          rwa [List.map_cons, hstep]

theorem documentRun_demands (options : ParserOptions) (tokens : Tokens) :
    match (documentRun options tokens).2 with
    | none => Grammar.Document (tokens.tokens.map (·.lexeme))
    | some e => e.IsGrammatical → ¬Grammar.Document (tokens.tokens.map (·.lexeme)) :=
  run_demands tokens.stop tokens.tokens (show Control.statement.IsOpen _ from
    ⟨trivial, Scope.allIris_initial _ _ fun _ _ => trivial⟩)

/-- Tokens that are not refused because of what they denote are read as a document just if they are one
by the grammar. If they are not, the error names what the grammar wants instead. -/
theorem parseTokens_iff_document (options : ParserOptions) (size : Nat) (tokens : Tokens)
    (h : ∀ e, parseTokens options size tokens = .error e → ¬e.IsDenotational) :
    ((∃ d, parseTokens options size tokens = .ok d) ↔
      Grammar.Document (tokens.tokens.map (·.lexeme))) ∧
    (¬Grammar.Document (tokens.tokens.map (·.lexeme)) →
      ∃ expected found p, parseTokens options size tokens = .error (.unexpected expected found p)) := by
  have hrun := documentRun_demands options tokens
  cases hp : parseTokens options size tokens with
  | ok d =>
    rw [(parseTokens_ok hp).1] at hrun
    exact ⟨iff_of_true ⟨d, rfl⟩ hrun, fun hn => absurd hrun hn⟩
  | error e =>
    have hg := (parseTokens_error_kind hp).resolve_right (h e hp)
    obtain hrecord | hstopped := parseTokens_error hp
    · exact absurd (record_error hrecord) (h e hp)
    · rw [hstopped] at hrun
      refine ⟨iff_of_false (by simp) (hrun hg), fun _ => ?_⟩
      cases e with
      | unexpected expected found p => exact ⟨expected, found, p, rfl⟩
      | _ => cases hg

/-- Lexemes as the tokens of one line; where they stand plays no role in whether they are accepted. -/
def tokensOf (lexemes : List Lexeme) : Tokens :=
  ⟨lexemes.map fun l => ⟨l, .start⟩, .start⟩

/-- `@prefix p: <x:> . [] p:a (1 "t"@en) ;; .` -/
def nestedLexemes : List Lexeme :=
  [.directive .namespaceLabel, .name "p" "", .iri "x:", .mark .dot, .mark .openBracket,
    .mark .closeBracket, .name "p" "a", .mark .openParenthesis, .number .integer "1", .text "t",
    .languageTag "en", .mark .closeParenthesis, .mark .semicolon, .mark .semicolon, .mark .dot]

theorem parseTokens_iff_document_nested :
    (∀ e, parseTokens {} 0 (tokensOf nestedLexemes) = .error e → ¬e.IsDenotational) ∧
      Grammar.Document nestedLexemes := by
  have hok : (parseTokens {} 0 (tokensOf nestedLexemes)).isOk = true := by decide
  have h (e : ParseError) (he : parseTokens {} 0 (tokensOf nestedLexemes) = .error e) :
      ¬e.IsDenotational := by
    rw [he] at hok
    cases hok
  refine ⟨h, (parseTokens_iff_document {} 0 (tokensOf nestedLexemes) h).1.1 ?_⟩
  cases hp : parseTokens {} 0 (tokensOf nestedLexemes) with
  | ok d => exact ⟨d, rfl⟩
  | error e =>
    rw [hp] at hok
    cases hok

/-- `@base <http://[> . <a> <b:c> <d:e> .` -/
def bracketedBaseLexemes : List Lexeme :=
  [.directive .base, .iri "http://[", .mark .dot, .iri "a", .iri "b:c", .iri "d:e", .mark .dot]

/-- The grammar admits a base that cannot be taken apart. Resolving against it fails. -/
theorem parseTokens_bracketedBase :
    Grammar.Document bracketedBaseLexemes ∧
      parseTokens {} 0 (tokensOf bracketedBaseLexemes) =
        .error (.unresolvable .unbalancedBrackets) := by
  refine ⟨?_, rfl⟩
  refine .cons (.base _ _) (.cons (.triples ?_) .nil)
  exact .iri (.reference _ _) (.one (.iri (.reference _ _)) (.one (.iri (.reference _ _))))

end CommandOntology.Turtle
