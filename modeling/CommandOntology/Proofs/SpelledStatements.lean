import CommandOntology.Proofs.RecordedStatements
import CommandOntology.Turtle.Prefixes

set_option autoImplicit false

namespace CommandOntology.Turtle

open CommandOntology.Text

structure IsCanonicalIri (iri : String) : Prop where
  isAbsolute : Iri.isAbsolute iri.toList = true
  isLegal : ∀ c ∈ iri.toList, Scope.isIllegalInIri c = false

theorem IsCanonicalIri.not_mem {iri : String} (h : IsCanonicalIri iri) {c : Char}
    (hc : Scope.isIllegalInIri c = true) : c ∉ iri.toList := by
  intro hmem
  rw [h.isLegal c hmem] at hc
  cases hc

theorem isWritable_of_isCanonicalIri {iri : String} (h : IsCanonicalIri iri) : isWritable iri = true := by
  have hclass (c : Char) (hc : isForbiddenInIri c = true) : Scope.isIllegalInIri c = true := by
    simp only [isForbiddenInIri, List.contains_eq_mem, decide_eq_true_eq] at hc
    rw [Scope.isIllegalInIri, Bool.or_eq_true]
    refine .inr ?_
    revert hc
    simp
    grind
  rw [isWritable, Bool.not_eq_true', List.any_eq_false]
  intro c hc hforbidden
  exact h.not_mem (hclass c hforbidden) hc

theorem lexemes?_canonicalIri {iri : String} (h : IsCanonicalIri iri) (rest : List Char) :
    lexemes? ('<' :: (iri.toList ++ '>' :: rest)) = (lexemes? rest).map (.iri iri :: ·) := by
  have hclose : '>' ∉ iri.toList := h.not_mem (by decide)
  have hline : '\n' ∉ iri.toList := h.not_mem (by decide)
  rw [lexemes?_iri iri.toList rest hclose, if_neg hline, String.ofList_toList]

def readTerm : Term → Term
  | .blank label => .blank (Scope.writtenLabel label)
  | t => t

def readTriple (t : Triple) : Triple :=
  ⟨readTerm t.subject, readTerm t.predicate, readTerm t.object⟩

inductive SpellsIri (namespaces : Namespaces) : Lexeme → String → Prop
  | reference {iri : String} (h : IsCanonicalIri iri) : SpellsIri namespaces (.iri iri) iri
  | name {label namespaceIri : String} (rest : String)
      (h : namespaces.resolve label = some namespaceIri) :
      SpellsIri namespaces (.name label rest) (namespaceIri ++ rest)

inductive Spells (namespaces : Namespaces) : List Lexeme → Term → Prop
  | iri {l : Lexeme} {iri : String} (h : SpellsIri namespaces l iri) : Spells namespaces [l] (.iri iri)
  | blank (label : String) : Spells namespaces [.blankNode label] (.blank (Scope.writtenLabel label))
  | plain (lexical : String) : Spells namespaces [.text lexical] (.plain lexical)
  | tagged (lexical : String) {tag : String} (h : tag.toList.map asciiLower = tag.toList) :
      Spells namespaces [.text lexical, .languageTag tag] (.literal lexical none (some tag))
  | typed (lexical : String) {l : Lexeme} {datatype : String} (h : SpellsIri namespaces l datatype)
      (hs : datatype ≠ Xsd.string) :
      Spells namespaces [.text lexical, .mark .datatype, l] (.typed lexical datatype)
  | number (kind : NumberKind) (digits : String) :
      Spells namespaces [.number kind digits] (.typed digits kind.datatype)
  | truth {word : String} (h : word = "true" ∨ word = "false") :
      Spells namespaces [.word word] (.typed word Xsd.boolean)

inductive SpellsPredicate (namespaces : Namespaces) : List Lexeme → Term → Prop
  | type : SpellsPredicate namespaces [.word "a"] (.iri Rdf.type)
  | iri {l : Lexeme} {iri : String} (h : SpellsIri namespaces l iri) :
      SpellsPredicate namespaces [l] (.iri iri)

variable {scope scope' : Scope} {stop : Position} {control : Control} {tokens : List Token}
  {ls : List Lexeme}

def GoesOn (stop : Position) (control : Control) (scope : Scope) (tokens : List Token) (ls : List Lexeme)
    (control' : Control) (scope' : Scope) : Prop :=
  ∃ rest, rest.map (·.lexeme) = ls ∧ run stop control scope tokens = run stop control' scope' rest

theorem GoesOn.of_run {control₁ control₂ : Control} {scope₁ scope₂ : Scope} {rest : List Token}
    (hrun : run stop control scope tokens = run stop control₁ scope₁ rest)
    (h : GoesOn stop control₁ scope₁ rest ls control₂ scope₂) :
    GoesOn stop control scope tokens ls control₂ scope₂ := by
  obtain ⟨rest', hrest', hrun'⟩ := h
  exact ⟨rest', hrest', hrun.trans hrun'⟩

theorem GoesOn.trans {control₁ control₂ : Control} {scope₁ scope₂ : Scope} {ls₁ ls₂ : List Lexeme}
    (h : GoesOn stop control scope tokens ls₁ control₁ scope₁)
    (hnext : ∀ rest, rest.map (·.lexeme) = ls₁ → GoesOn stop control₁ scope₁ rest ls₂ control₂ scope₂) :
    GoesOn stop control scope tokens ls₂ control₂ scope₂ := by
  obtain ⟨rest, hrest, hrun⟩ := h
  exact (hnext rest hrest).of_run hrun

theorem goesOn_of_step {l : Lexeme} (control' : Position → Control) (scope' : Position → Scope)
    (ht : tokens.map (·.lexeme) = l :: ls)
    (h : ∀ p, (step control scope ⟨l, p⟩).2 = .ok (control' p, scope' p)) :
    ∃ p, GoesOn stop control scope tokens ls (control' p) (scope' p) := by
  obtain ⟨⟨l', p⟩, rest, rfl, hl, hrest⟩ := List.map_eq_cons_iff.1 ht
  cases hl
  refine ⟨p, rest, hrest, ?_⟩
  have hp := h p
  rw [run]
  cases hs : step control scope ⟨l', p⟩ with
  | mk scope₁ outcome =>
    rw [hs] at hp
    cases hp
    rfl

theorem resolveReference_canonical {iri : String} (h : IsCanonicalIri iri) (line : Nat) :
    scope.resolveReference iri line = .ok iri := by
  have hlegal : iri.toList.find? Scope.isIllegalInIri = none := by
    simpa [List.find?_eq_none] using h.isLegal
  rw [Scope.resolveReference, hlegal]
  exact if_pos h.isAbsolute

theorem resolveIri?_of_spellsIri {l : Lexeme} {iri : String} (h : SpellsIri scope.namespaces l iri)
    (p : Position) : scope.resolveIri? ⟨l, p⟩ = some (.ok iri) := by
  cases h with
  | reference h => simp [Scope.resolveIri?, resolveReference_canonical h]
  | name rest h => simp [Scope.resolveIri?, Scope.resolveName, h]

theorem takeNode_of_spellsIri {l : Lexeme} {iri : String} (h : SpellsIri scope.namespaces l iri)
    (p : Position) (use : Use) : takeNode scope ⟨l, p⟩ use = some (.ok (deliver scope (.iri iri) use)) := by
  have hiri := resolveIri?_of_spellsIri h p
  cases h <;> simp [takeNode, hiri, Except.map]

theorem goesOn_subject {spelled : List Lexeme} {t : Term} (ht : Spells scope.namespaces spelled t)
    (hr : t.isResource = true) (hl : tokens.map (·.lexeme) = spelled ++ ls) :
    GoesOn stop .statement scope tokens ls (.predicate t .statement) scope := by
  cases ht with
  | @iri l iri h =>
    have hstep (p : Position) : (step .statement scope ⟨l, p⟩).2 =
        .ok (.predicate (.iri iri) .statement, scope) := by
      have htake := takeNode_of_spellsIri h p .subject
      cases h <;>
        simp [step, settle, settleLiteral, settleList, take, takeStatement, htake, deliver]
    obtain ⟨-, h⟩ := goesOn_of_step _ _ hl hstep
    exact h
  | blank label =>
    have hstep (p : Position) : (step .statement scope ⟨.blankNode label, p⟩).2 =
        .ok (.predicate (.blank (Scope.writtenLabel label)) .statement, scope) := rfl
    obtain ⟨-, h⟩ := goesOn_of_step _ _ hl hstep
    exact h
  | plain => cases hr
  | tagged => cases hr
  | typed => cases hr
  | number => cases hr
  | truth => cases hr

def AwaitsPredicate (subject : Term) (control : Control) : Prop :=
  control = .predicate subject .statement ∨ control = .semicolon subject .statement

theorem goesOn_predicate {spelled : List Lexeme} {subject p : Term}
    (hcontrol : AwaitsPredicate subject control) (hp : SpellsPredicate scope.namespaces spelled p)
    (hl : tokens.map (·.lexeme) = spelled ++ ls) :
    GoesOn stop control scope tokens ls (.object subject p .statement) scope := by
  cases hp with
  | type =>
    have hstep (q : Position) : (step control scope ⟨.word "a", q⟩).2 =
        .ok (.object subject (.iri Rdf.type) .statement, scope) := by
      obtain rfl | rfl := hcontrol <;> rfl
    obtain ⟨-, h⟩ := goesOn_of_step _ _ hl hstep
    exact h
  | @iri l iri h =>
    have hstep (q : Position) : (step control scope ⟨l, q⟩).2 =
        .ok (.object subject (.iri iri) .statement, scope) := by
      have hiri := resolveIri?_of_spellsIri h q
      obtain rfl | rfl := hcontrol <;> cases h <;>
        simp [step, settle, settleLiteral, settleList, endsPredicates, take, takePredicate, hiri,
          Except.map]
    obtain ⟨-, h⟩ := goesOn_of_step _ _ hl hstep
    exact h

inductive Divider
  | dot | semicolon | comma

def Divider.mark : Divider → Mark
  | dot => .dot
  | semicolon => .semicolon
  | comma => .comma

def Divider.next (subject predicate : Term) : Divider → Control
  | dot => .statement
  | semicolon => .semicolon subject .statement
  | comma => .object subject predicate .statement

theorem goesOn_divider {subject p : Term} (divider : Divider)
    (hl : tokens.map (·.lexeme) = .mark divider.mark :: ls) :
    GoesOn stop (.objectEnd subject p .statement) scope tokens ls (divider.next subject p) scope := by
  have hstep (q : Position) : (step (.objectEnd subject p .statement) scope ⟨.mark divider.mark, q⟩).2 =
      .ok (divider.next subject p, scope) := by
    cases divider <;> rfl
  obtain ⟨-, h⟩ := goesOn_of_step _ _ hl hstep
  exact h

theorem goesOn_text {subject p : Term} {lexical : String}
    (hl : tokens.map (·.lexeme) = .text lexical :: ls) :
    ∃ q : Position, GoesOn stop (.object subject p .statement) scope tokens ls
      (.literalMark lexical (.object subject p q.line .statement)) scope := by
  have hstep (q : Position) : (step (.object subject p .statement) scope ⟨.text lexical, q⟩).2 =
      .ok (.literalMark lexical (.object subject p q.line .statement), scope) := rfl
  exact goesOn_of_step _ _ hl hstep

theorem goesOn_languageTag {subject p : Term} {lexical tag small : String} {line : Nat}
    (hsmall : tag.toList.map asciiLower = small.toList)
    (hl : tokens.map (·.lexeme) = .languageTag tag :: ls) :
    GoesOn stop (.literalMark lexical (.object subject p line .statement)) scope tokens ls
      (.objectEnd subject p .statement) (scope.emit subject p (.literal lexical none (some small)) line) := by
  have hstep (q : Position) : (step (.literalMark lexical (.object subject p line .statement)) scope
      ⟨.languageTag tag, q⟩).2 = .ok (.objectEnd subject p .statement,
        scope.emit subject p (.literal lexical none (some small)) line) := by
    simp [step, settle, settleLiteral, settleList, continuesLiteral, take, deliver, hsmall]
  obtain ⟨-, h⟩ := goesOn_of_step _ _ hl hstep
  exact h

theorem goesOn_datatypeSign {lexical : String} {use : Use}
    (hl : tokens.map (·.lexeme) = .mark .datatype :: ls) :
    GoesOn stop (.literalMark lexical use) scope tokens ls (.datatype lexical use) scope := by
  have hstep (q : Position) : (step (.literalMark lexical use) scope ⟨.mark .datatype, q⟩).2 =
      .ok (.datatype lexical use, scope) := rfl
  obtain ⟨-, h⟩ := goesOn_of_step _ _ hl hstep
  exact h

theorem goesOn_object_of_step {l : Lexeme} {subject p t : Term} (divider : Divider)
    (hl : tokens.map (·.lexeme) = l :: .mark divider.mark :: ls)
    (h : ∀ q, (step (.object subject p .statement) scope ⟨l, q⟩).2 =
      .ok (.objectEnd subject p .statement, scope.emit subject p t q.line)) :
    ∃ line, GoesOn stop (.object subject p .statement) scope tokens ls (divider.next subject p)
      (scope.emit subject p t line) := by
  obtain ⟨q, hq⟩ := goesOn_of_step _ _ hl h
  exact ⟨q.line, hq.trans fun rest hrest => goesOn_divider divider hrest⟩

theorem goesOn_object {spelled : List Lexeme} {subject p t : Term} (divider : Divider)
    (ht : Spells scope.namespaces spelled t)
    (hl : tokens.map (·.lexeme) = spelled ++ .mark divider.mark :: ls) :
    ∃ line, GoesOn stop (.object subject p .statement) scope tokens ls (divider.next subject p)
      (scope.emit subject p t line) := by
  -- A quoted text is followed up to its last mark before the divider is reached; the other objects are one
  -- token.
  cases ht with
  | iri h =>
    refine goesOn_object_of_step divider hl fun q => ?_
    have htake := takeNode_of_spellsIri h q (.object subject p q.line .statement)
    cases h <;> simp [step, settle, settleLiteral, settleList, take, takeObject, htake, deliver]
  | blank label => exact goesOn_object_of_step divider hl fun _ => rfl
  | number kind digits => exact goesOn_object_of_step divider hl fun _ => rfl
  | truth h =>
    refine goesOn_object_of_step divider hl fun q => ?_
    obtain rfl | rfl := h <;> rfl
  | plain lexical =>
    obtain ⟨q, h⟩ := goesOn_text hl
    have hend (r : Position) : (step (.literalMark lexical (.object subject p q.line .statement)) scope
        ⟨.mark divider.mark, r⟩).2 =
          .ok (divider.next subject p, scope.emit subject p (.plain lexical) q.line) := by
      cases divider <;> rfl
    refine ⟨q.line, h.trans fun rest hrest => ?_⟩
    obtain ⟨-, hdivider⟩ := goesOn_of_step _ _ hrest hend
    exact hdivider
  | @tagged lexical tag hsmall =>
    obtain ⟨q, h⟩ := goesOn_text hl
    exact ⟨q.line, h.trans fun rest hrest => (goesOn_languageTag hsmall hrest).trans fun rest hrest =>
      goesOn_divider divider hrest⟩
  | @typed lexical l datatype hiri hs =>
    obtain ⟨q, h⟩ := goesOn_text hl
    have htype (r : Position) :
        (step (.datatype lexical (.object subject p q.line .statement)) scope ⟨l, r⟩).2 =
          .ok (.objectEnd subject p .statement,
            scope.emit subject p (.typed lexical datatype) q.line) := by
      have hresolve := resolveIri?_of_spellsIri hiri r
      simp [step, settle, settleLiteral, settleList, take, hresolve, Except.map, deliver, typedLiteral,
        hs, Term.typed]
    refine ⟨q.line, h.trans fun rest hrest => (goesOn_datatypeSign hrest).trans fun rest hrest => ?_⟩
    obtain ⟨-, hiri⟩ := goesOn_of_step _ _ hrest htype
    exact hiri.trans fun rest hrest => goesOn_divider divider hrest

structure Block where
  subject : Term
  properties : List (Term × List Term)

def Block.triples (b : Block) : List Triple :=
  b.properties.flatMap fun entry => entry.2.map fun o => ⟨b.subject, entry.1, o⟩

structure Spelling where
  node : Term → List Lexeme
  predicate : Term → List Lexeme

namespace Spelling

def objects (sp : Spelling) (os : List Term) : List Lexeme :=
  [.mark .comma].intercalate (os.map sp.node)

def property (sp : Spelling) (entry : Term × List Term) : List Lexeme :=
  sp.predicate entry.1 ++ sp.objects entry.2

def properties (sp : Spelling) (entries : List (Term × List Term)) : List Lexeme :=
  [.mark .semicolon].intercalate (entries.map sp.property)

/-- The lexemes of a block: semicolons between its predicates, commas between their objects. -/
def block (sp : Spelling) (b : Block) : List Lexeme :=
  sp.node b.subject ++ (sp.properties b.properties ++ [.mark .dot])

end Spelling

structure IsSpelledProperty (namespaces : Namespaces) (sp : Spelling) (entry : Term × List Term) :
    Prop where
  predicate : SpellsPredicate namespaces (sp.predicate entry.1) (readTerm entry.1)
  nonempty : entry.2 ≠ []
  objects : ∀ o ∈ entry.2, Spells namespaces (sp.node o) (readTerm o)

structure IsSpelledBlock (namespaces : Namespaces) (sp : Spelling) (b : Block) : Prop where
  isResource : b.subject.isResource = true
  subject : Spells namespaces (sp.node b.subject) (readTerm b.subject)
  nonempty : b.properties ≠ []
  properties : ∀ entry ∈ b.properties, IsSpelledProperty namespaces sp entry

structure Gets (scope : Scope) (ts : List Triple) (scope' : Scope) : Prop where
  namespaces : scope'.namespaces = scope.namespaces
  emitted : scope'.emitted.reverse.map (·.triple) = scope.emitted.reverse.map (·.triple) ++ ts

theorem Gets.trans {scope'' : Scope} {ts us : List Triple} (h : Gets scope ts scope')
    (h' : Gets scope' us scope'') : Gets scope (ts ++ us) scope'' :=
  ⟨h'.namespaces.trans h.namespaces, by rw [h'.emitted, h.emitted, List.append_assoc]⟩

theorem gets_emit (subject p o : Term) (line : Nat) :
    Gets scope [⟨subject, p, o⟩] (scope.emit subject p o line) :=
  ⟨rfl, by simp [Scope.emit]⟩

variable {sp : Spelling}

/-- The objects of a predicate, up to the divider behind the last of them. -/
theorem goesOn_objects {subject p : Term} (divider : Divider) (os : List Term) (hne : os ≠ [])
    (hos : ∀ o ∈ os, Spells scope.namespaces (sp.node o) (readTerm o))
    (hl : tokens.map (·.lexeme) = sp.objects os ++ .mark divider.mark :: ls) :
    ∃ scope', Gets scope (os.map fun o => ⟨subject, p, readTerm o⟩) scope' ∧
      GoesOn stop (.object subject p .statement) scope tokens ls (divider.next subject p) scope' := by
  induction os generalizing scope tokens with
  | nil => exact absurd rfl hne
  | cons o os ih =>
    have ho := hos o List.mem_cons_self
    cases os with
    | nil =>
      obtain ⟨line, h⟩ : ∃ line, GoesOn stop _ scope tokens ls _ _ :=
        goesOn_object divider ho (by simpa [Spelling.objects] using hl)
      exact ⟨_, gets_emit subject p (readTerm o) line, h⟩
    | cons o' os =>
      have hcomma : tokens.map (·.lexeme) = sp.node o ++ .mark Divider.comma.mark ::
          (sp.objects (o' :: os) ++ .mark divider.mark :: ls) := by
        rw [hl]
        simp [Spelling.objects, Divider.mark, List.intercalate_cons_cons]
      obtain ⟨line, rest, hrest, hrun⟩ : ∃ line, GoesOn stop _ scope tokens _ _ _ :=
        goesOn_object .comma ho hcomma
      have hgets : Gets scope _ (scope.emit subject p (readTerm o) line) :=
        gets_emit subject p (readTerm o) line
      have hrestos : ∀ x ∈ o' :: os,
          Spells (scope.emit subject p (readTerm o) line).namespaces (sp.node x) (readTerm x) :=
        fun x hx => hos x (List.mem_cons_of_mem o hx)
      obtain ⟨scope', hgets', h⟩ := ih (List.cons_ne_nil o' os) hrestos hrest
      exact ⟨scope', hgets.trans hgets', h.of_run hrun⟩

theorem goesOn_properties {subject : Term} (entries : List (Term × List Term)) (hne : entries ≠ [])
    (hcontrol : AwaitsPredicate subject control)
    (hentries : ∀ entry ∈ entries, IsSpelledProperty scope.namespaces sp entry)
    (hl : tokens.map (·.lexeme) = sp.properties entries ++ .mark .dot :: ls) :
    ∃ scope', Gets scope (entries.flatMap fun entry => entry.2.map fun o =>
        ⟨subject, readTerm entry.1, readTerm o⟩) scope' ∧
      GoesOn stop control scope tokens ls .statement scope' := by
  induction entries generalizing scope tokens control with
  | nil => exact absurd rfl hne
  | cons entry entries ih =>
    have hentry := hentries entry List.mem_cons_self
    have hproperty (divider : Divider) (ls : List Lexeme)
        (hl : tokens.map (·.lexeme) = sp.property entry ++ .mark divider.mark :: ls) :
        ∃ scope', Gets scope (entry.2.map fun o => ⟨subject, readTerm entry.1, readTerm o⟩) scope' ∧
          GoesOn stop control scope tokens ls (divider.next subject (readTerm entry.1)) scope' := by
      rw [Spelling.property, List.append_assoc] at hl
      obtain ⟨rest, hrest, hrun⟩ : GoesOn stop control scope tokens _ _ _ :=
        goesOn_predicate hcontrol hentry.predicate hl
      obtain ⟨scope', hgets, h⟩ := goesOn_objects divider entry.2 hentry.nonempty hentry.objects hrest
      exact ⟨scope', hgets, h.of_run hrun⟩
    cases entries with
    | nil =>
      obtain ⟨scope', hgets, h⟩ := hproperty .dot ls (by simpa [Spelling.properties, Divider.mark] using hl)
      exact ⟨scope', by simpa using hgets, h⟩
    | cons entry' entries =>
      have hsemicolon : tokens.map (·.lexeme) = sp.property entry ++ .mark Divider.semicolon.mark ::
          (sp.properties (entry' :: entries) ++ .mark .dot :: ls) := by
        rw [hl]
        simp [Spelling.properties, Divider.mark, List.intercalate_cons_cons]
      obtain ⟨scope₁, hgets, rest, hrest, hrun⟩ := hproperty .semicolon _ hsemicolon
      obtain ⟨scope', hgets', h⟩ := ih (List.cons_ne_nil entry' entries) (.inr rfl)
        (fun x hx => hgets.namespaces ▸ hentries x (List.mem_cons_of_mem entry hx)) hrest
      exact ⟨scope', hgets.trans hgets', h.of_run hrun⟩

theorem goesOn_block (b : Block) (hb : IsSpelledBlock scope.namespaces sp b)
    (hl : tokens.map (·.lexeme) = sp.block b ++ ls) :
    ∃ scope', Gets scope (b.triples.map readTriple) scope' ∧
      GoesOn stop .statement scope tokens ls .statement scope' := by
  rw [Spelling.block, List.append_assoc, List.append_assoc] at hl
  have hr : (readTerm b.subject).isResource = true := by
    have hresource := hb.isResource
    cases hs : b.subject <;> rw [hs] at hresource
    · rfl
    · rfl
    · cases hresource
  obtain ⟨rest, hrest, hrun⟩ : GoesOn stop .statement scope tokens _ _ _ :=
    goesOn_subject hb.subject hr hl
  obtain ⟨scope', hgets, h⟩ :=
    goesOn_properties b.properties hb.nonempty (.inl rfl) hb.properties hrest
  refine ⟨scope', ?_, h.of_run hrun⟩
  simpa [Block.triples, readTriple, List.map_flatMap, Function.comp_def] using hgets

/-- A run over blocks gives out all their statements, in order. -/
theorem run_blocks (stop : Position) (scope : Scope) (bs : List Block)
    (hbs : ∀ b ∈ bs, IsSpelledBlock scope.namespaces sp b)
    (hl : tokens.map (·.lexeme) = bs.flatMap sp.block) :
    (run stop .statement scope tokens).2 = none ∧
      (run stop .statement scope tokens).1.emitted.reverse.map (·.triple) =
        scope.emitted.reverse.map (·.triple) ++ (bs.flatMap Block.triples).map readTriple := by
  induction bs generalizing tokens scope with
  | nil =>
    obtain rfl := List.map_eq_nil_iff.1 hl
    simp [run, finish, settle, settleLiteral, settleList]
  | cons b bs ih =>
    rw [List.flatMap_cons] at hl
    obtain ⟨scope', hgets, rest, hrest, hrun⟩ := goesOn_block b (hbs b List.mem_cons_self) hl
    obtain ⟨hnone, hall⟩ := ih scope'
      (fun x hx => hgets.namespaces ▸ hbs x (List.mem_cons_of_mem b hx)) hrest
    rw [hrun]
    exact ⟨hnone, by simp [hall, hgets.emitted]⟩

def declarationLexemes (entry : String × String) : List Lexeme :=
  [.directive .namespaceLabel, .name entry.1 "", .iri entry.2, .mark .dot]

theorem goesOn_declaration {entry : String × String} (hiri : IsCanonicalIri entry.2)
    {namespaces : Namespaces} (hdeclare : scope.namespaces.declare entry.1 entry.2 = .ok namespaces)
    (hl : tokens.map (·.lexeme) = declarationLexemes entry ++ ls) :
    GoesOn stop .statement scope tokens ls .statement { scope with namespaces } := by
  have hdirective (p : Position) : (step .statement scope ⟨.directive .namespaceLabel, p⟩).2 =
      .ok (.namespaceLabel true p.line, scope) := rfl
  obtain ⟨p, h⟩ := goesOn_of_step _ _ hl hdirective
  refine h.trans fun rest hrest => ?_
  have hlabel (q : Position) : (step (.namespaceLabel true p.line) scope ⟨.name entry.1 "", q⟩).2 =
      .ok (.namespaceIri true p.line entry.1, scope) := rfl
  obtain ⟨-, h⟩ := goesOn_of_step _ _ hrest hlabel
  refine h.trans fun rest hrest => ?_
  have hreference (q : Position) :
      (step (.namespaceIri true p.line entry.1) scope ⟨.iri entry.2, q⟩).2 =
        .ok (.directiveEnd, { scope with namespaces }) := by
    simp [step, settle, settleLiteral, settleList, take, resolveReference_canonical hiri, Scope.declare,
      hdeclare, bind, Except.bind, pure, Except.pure, afterDeclaration]
  obtain ⟨-, h⟩ := goesOn_of_step _ _ hrest hreference
  refine h.trans fun rest hrest => ?_
  have hdot (q : Position) : (step .directiveEnd { scope with namespaces } ⟨.mark .dot, q⟩).2 =
      .ok (.statement, { scope with namespaces }) := rfl
  obtain ⟨-, h⟩ := goesOn_of_step _ _ hrest hdot
  exact h

end CommandOntology.Turtle
