import CommandOntology.Proofs.GroundStatements
import CommandOntology.Proofs.ReadBackQueries

set_option autoImplicit false

namespace CommandOntology.Turtle

open CommandOntology.Text

/-- What queries ask of a lexeme of a document. White space of any script ends their references, and the
signs of variables and comparisons start none. Their prefixes start with a letter of ASCII, and the local
parts of their names hold neither colons nor percent signs. -/
def Lexeme.IsPortable : Lexeme → Prop
  | .iri reference => (∀ c ∈ reference.toList, isBlank c = false) ∧
      ∀ c ∈ reference.toList.head?, c ≠ '?' ∧ c ≠ '$' ∧ c ≠ '='
  | .name label rest => (∀ c ∈ label.toList.head?, isAsciiLetter c = true) ∧
      ∀ c ∈ rest.toList, c ≠ ':' ∧ c ≠ '%'
  | _ => True

/-- A statement that queries read as documents do. They take the point right behind an integer for a part
of it. -/
structure GroundStatement.IsPortable (st : GroundStatement) : Prop where
  lexemes : ∀ l ∈ st.lexemes, l.IsPortable
  integer : ∀ digits, st.object.lexemes = [.number .integer digits] → st.afterObject ≠ []

end CommandOntology.Turtle

namespace CommandOntology.Query

open CommandOntology.Text

section

variable {scope : Turtle.Scope} {s : Scope} {l : Turtle.Lexeme} {written : List Turtle.Lexeme}
  {lexemes : List Lexeme} {t : Term} {iri : String}

/-- A reference that can be resolved holds no character that no IRI may hold. -/
theorem isLegal_of_names {reference : String} (h : scope.Names (.iri reference) iri) :
    ∀ c ∈ reference.toList, Turtle.Scope.isIllegalInIri c = false := by
  have hresolve := Option.some.inj (h .start)
  rw [Turtle.Scope.resolveReference] at hresolve
  split at hresolve
  · cases hresolve
  · next hlegal => simpa [List.find?_eq_none] using hlegal

theorem isShared_of_names (h : scope.Names l iri) (hportable : l.IsPortable) : IsShared l := by
  cases l with
  | iri reference =>
    have hlegal := isLegal_of_names h
    have hchar (c : Char) (hc : c ∈ reference.toList) : isReferenceChar c = true := by
      have hillegal := hlegal c hc
      rw [Turtle.Scope.isIllegalInIri, Bool.or_eq_false_iff] at hillegal
      rw [isReferenceChar, hportable.1 c hc]
      have hsigns := hillegal.2
      simp at hsigns ⊢
      tauto
    cases hreference : reference.toList with
    | nil => exact .inl (String.toList_eq_nil_iff.1 hreference)
    | cons c rest =>
      obtain ⟨hvariable, hparameter, hequals⟩ := hportable.2 c (by rw [hreference]; rfl)
      rw [hreference] at hchar
      refine .inr ⟨c, rest, hreference, ?_, fun d hd => hchar d (List.mem_cons_of_mem c hd)⟩
      simp [isReferenceStart, hchar c List.mem_cons_self, hvariable, hparameter, hequals]
  | name label name => exact hportable
  | _ => cases h .start

theorem Lexes.gap {gap more : List Char} (hgap : Turtle.IsGap gap) (h : Lexes more lexemes) :
    Lexes (gap ++ more) lexemes := by
  have hblank {c : Char} (hc : Turtle.isSpace c = true) : isBlank c = true := by
    have hall : ∀ c ∈ Turtle.breakChars, c = '.' ∨ isBlank c = true := by decide
    obtain rfl | hc' := hall c (Turtle.mem_breakChars_of_isSpace hc)
    · cases hc
    · exact hc'
  induction gap with
  | nil => exact h
  | cons c gap ih =>
    exact (ih fun d hd => hgap d (List.mem_cons_of_mem c hd)).blank (hblank (hgap c List.mem_cons_self))

/-- A text is cut into tokens that are written like some lexemes and mean the same, where it ends. -/
def IsCut (text : List Char) (written : List Turtle.Lexeme) (lexemes : List Lexeme) : Prop :=
  List.Forall₂ Matches written lexemes ∧ ∀ more others, Turtle.Breaks more →
    (∀ digits, written = [.number .integer digits] → more.head? ≠ some '.') → Lexes more others →
      Lexes (text ++ more) (lexemes ++ others)

theorem exists_isCut_of_isWord {word : List Char} (h : Turtle.IsWord word l) (hl : IsShared l) :
    ∃ lexemes, IsCut word [l] lexemes := by
  obtain ⟨kind, hmatches, hlexes⟩ := exists_matches_of_isWord h hl
  exact ⟨_, .cons hmatches .nil, fun more others hmore hpoint hothers =>
    hlexes more others ⟨Turtle.endsBefore_of_breaks l hmore, fun digits hl => hpoint digits (by rw [hl])⟩
      hothers⟩

/-- The text of a term is cut into tokens that are written like its lexemes and mean the same. -/
theorem exists_isCut_of_isTermText {text : List Char} (hw : Turtle.IsTermText text written)
    (hdenotes : Turtle.Denotes scope written t) (hportable : ∀ l ∈ written, l.IsPortable) :
    ∃ lexemes, IsCut text written lexemes := by
  cases hw with
  | @name word l h hl =>
    cases hdenotes with
    | name hnames =>
      exact exists_isCut_of_isWord h (isShared_of_names hnames (hportable l List.mem_cons_self))
    | _ => exact hl.elim
  | plain h => exact exists_isCut_of_isWord h trivial
  | number h => exact exists_isCut_of_isWord h trivial
  | truth h hw => exact exists_isCut_of_isWord h hw
  | @tagged word gap tagWord value tag h hgap htag =>
    obtain ⟨kind, hmatches, hlexes⟩ := exists_matches_of_isWord h trivial
    obtain ⟨lexemes, htags, hcut⟩ := exists_isCut_of_isWord htag trivial
    refine ⟨_ :: lexemes, .cons hmatches htags, fun more others hmore _ hothers => ?_⟩
    have hend : (Turtle.Lexeme.text value).EndsBefore (gap ++ (tagWord ++ more)) := by
      obtain ⟨rest, rfl⟩ := Turtle.exists_cons_of_tag htag
      exact Turtle.endsBefore_text value hgap (by decide)
    have hrest := (hcut more others hmore (fun _ hl => by cases hl) hothers).gap hgap
    rw [List.append_assoc, List.append_assoc]
    exact hlexes _ _ ⟨hend, fun _ hl => by cases hl⟩ hrest
  | @typed word gap gap' typeWord value l h hgap hgap' htype hl =>
    cases hdenotes with
    | typed _ hnames =>
      have hshared := isShared_of_names hnames (hportable l (by simp))
      obtain ⟨kind, hmatches, hlexes⟩ := exists_matches_of_isWord h trivial
      obtain ⟨lexemes, hnamed, hcut⟩ := exists_isCut_of_isWord htype hshared
      refine ⟨_ :: ⟨.operator, "^^"⟩ :: lexemes, .cons hmatches (.cons .datatype hnamed),
        fun more others hmore _ hothers => ?_⟩
      have hend : (Turtle.Lexeme.text value).EndsBefore (gap ++ '^' :: '^' :: (gap' ++ (typeWord ++ more))) :=
        Turtle.endsBefore_text value hgap (by decide)
      have hname := (hcut more others hmore (fun digits hl' => by cases hl'; exact hl.elim) hothers).gap hgap'
      have hrest := (lexes_datatypeSign hname).gap hgap
      simp only [List.append_assoc, List.cons_append] at hrest ⊢
      exact hlexes _ _ ⟨hend, fun _ hl => by cases hl⟩ hrest

def Sees (s : Scope) (scope : Turtle.Scope) : Prop :=
  s.declared = [] ∧ s.visible = scope.namespaces.entries ∧ s.base = scope.base

/-- A token that is written like a name of a document is read as the same IRI. -/
theorem resolveIri?_of_matches {k : Lexeme} (hs : Sees s scope) (hnames : scope.Names l iri)
    (hmatches : Matches l k) (position : Nat) :
    (k.kind = .iri ∨ k.kind = .name) ∧ s.resolveIri? ⟨k.kind, k.text, position⟩ = some (.ok iri) := by
  obtain ⟨hdeclared, hvisible, hbase⟩ := hs
  cases hmatches with
  | iri reference =>
    refine ⟨.inl rfl, congrArg some ?_⟩
    have hresolve := Option.some.inj (hnames .start)
    have hraw : ((referenceText reference).toList.drop 1).dropLast = reference.toList := by
      simp [referenceText]
    rw [Turtle.Scope.resolveReference] at hresolve
    split at hresolve
    · cases hresolve
    · simp only [Scope.resolveReference, hraw, hbase]
      split_ifs at hresolve ⊢ with habsolute
      · cases hresolve
        rw [String.ofList_toList]
      · cases hb : scope.base with
        | none =>
          rw [hb] at hresolve
          cases hresolve
        | some base =>
          rw [hb, mapError_eq_ok_iff] at hresolve
          dsimp only
          rw [String.ofList_toList, hresolve]
          rfl
  | name label name hcolon =>
    refine ⟨.inr rfl, congrArg some ?_⟩
    have hresolve := Option.some.inj (hnames .start)
    rw [Turtle.Scope.resolveName, Namespaces.resolve] at hresolve
    have hnamespace : s.namespace? label = findField scope.namespaces.entries label := by
      rw [Scope.namespace?, hdeclared, hvisible]
      rfl
    rw [Scope.resolveName, Turtle.splitName_of_not_mem hcolon, Option.getD_some]
    dsimp only
    rw [hnamespace]
    cases hfound : findField scope.namespaces.entries label with
    | none =>
      rw [hfound] at hresolve
      cases hresolve
    | some namespaceIri =>
      rw [hfound] at hresolve
      cases hresolve
      rfl
  | _ => cases hnames .start

section

variable {token : Token} {expected : Expectation} {place : Place} {onSlot : Slot → Control × Scope}
  {onLiteral : Term → Outcome}

theorem takeSlot_name (hkind : token.kind = .iri ∨ token.kind = .name)
    (hiri : s.resolveIri? token = some (.ok iri)) :
    takeSlot s token expected place onSlot onLiteral = .ok (onSlot (.term (.iri iri))) := by
  rcases hkind with h | h <;> simp [takeSlot, h, hiri, Except.map]

theorem take_subject (hkind : token.kind = .iri ∨ token.kind = .name)
    (hiri : s.resolveIri? token = some (.ok iri)) :
    take .item s token = .ok (.predicate (.term (.iri iri)), s) := by
  rw [take_item_eq (.inr hkind), takeSubject, takeSlot_name hkind hiri]

theorem take_predicate {subject : Slot} (hkind : token.kind = .iri ∨ token.kind = .name)
    (hiri : s.resolveIri? token = some (.ok iri)) :
    take (.predicate subject) s token = .ok (.object subject (.term (.iri iri)), s) := by
  have hword : ¬(token.kind = .word ∧ token.text = "a") := by
    rcases hkind with h | h <;> simp [h]
  change takePredicate subject s token = _
  rw [takePredicate, if_neg hword, takeSlot_name hkind hiri]

theorem take_objectName {subject predicate : Slot} (hkind : token.kind = .iri ∨ token.kind = .name)
    (hiri : s.resolveIri? token = some (.ok iri)) : take (.object subject predicate) s token =
      .ok (.objectEnd subject predicate, s.addPattern ⟨subject, predicate, .term (.iri iri)⟩) := by
  rw [take_object_eq, takeSlot_name hkind hiri]

end

theorem lowerAfter_ascii (before : List Char) {text : List Char} (h : ∀ c ∈ text, c.toNat < 128) :
    lowerAfter before text = text.map asciiLower := by
  induction text generalizing before with
  | nil => rfl
  | cons c text ih =>
    obtain ⟨hc, htext⟩ := List.forall_mem_cons.1 h
    have hlower := forall_ascii (fun c => lowerChar c == asciiLower c) (by decide) c hc
    rw [lowerAfter_cons, lowerImage, if_neg (by omega), if_neg (by omega), beq_iff_eq.1 hlower, ih _ htext]
    rfl

def pointLexeme : Lexeme :=
  ⟨.punctuation, "."⟩

theorem run_point {subject predicate : Slot} {point : Token} (rest : List Token)
    (hpoint : point.lexeme = pointLexeme) :
    run (.objectEnd subject predicate) s (point :: rest) = run .item s rest := by
  refine run_cons rest ?_
  rw [Token.eq_of_lexeme hpoint]
  rfl

/-- A literal is the object of a pattern at the point behind its last token. -/
theorem run_literal {control : Control} {subject predicate : Slot} {literal : Term} {token point : Token}
    (rest : List Token) (hpoint : point.lexeme = pointLexeme) (htake : take control s token =
      deliverLiteral s literal token.position (.object subject predicate)) :
    run control s (token :: point :: rest) =
      run .item (s.addPattern ⟨subject, predicate, .term literal⟩) rest :=
  (run_cons _ htake).trans (run_point rest hpoint)

theorem run_text {subject predicate : Slot} {value : String} {token : Token} (rest : List Token)
    (h : Matches (.text value) token.lexeme) : run (.object subject predicate) s (token :: rest) =
      run (.literalMark value token.position (.object subject predicate)) s rest := by
  refine run_cons rest ?_
  generalize htoken : token.lexeme = k at h
  cases h with
  | text hvalue =>
    rw [Token.eq_of_lexeme htoken, take_object_eq]
    simp only [takeSlot, hvalue]
    rfl

section

variable {subject predicate : Slot} {value : String} {token point : Token} (rest : List Token)
  (hpoint : point.lexeme = pointLexeme)

include hpoint

theorem run_plainObject (htoken : Matches (.text value) token.lexeme) :
    run (.object subject predicate) s (token :: point :: rest) =
      run .item (s.addPattern ⟨subject, predicate, .term (.plain value)⟩) rest := by
  have hmark : point.lexeme.isMark = false := by rw [hpoint]; rfl
  have htake := takeLiteralMark_plain token.position (s := s) hmark
    (fun _ => (rfl : deliverLiteral s (.plain value) _ (.object subject predicate) = _))
  have hplain : run (.literalMark value token.position (.object subject predicate)) s (point :: rest) =
      run (.objectEnd subject predicate) (s.addPattern ⟨subject, predicate, .term (.plain value)⟩)
        (point :: rest) := by
    rw [run, run]
    exact congrArg (· >>= _) htake
  exact (run_text _ htoken).trans (hplain.trans (run_point rest hpoint))

theorem run_taggedObject {tag : String} {mark : Token} (htoken : Matches (.text value) token.lexeme)
    (hmark : Matches (.languageTag tag) mark.lexeme) :
    run (.object subject predicate) s (token :: mark :: point :: rest) =
      run .item (s.addPattern ⟨subject, predicate,
        .term (.literal value none (some (String.ofList (tag.toList.map asciiLower))))⟩) rest := by
  refine (run_text _ htoken).trans (run_literal rest hpoint ?_)
  generalize hlexeme : mark.lexeme = k at hmark
  cases hmark with
  | languageTag hascii =>
    rw [take_languageTag s value token.position _ hlexeme, lower, lowerAfter_ascii [] hascii]

theorem run_typedObject (hs : Sees s scope) {l : Turtle.Lexeme} {iri : String} {sign name : Token}
    (hnames : scope.Names l iri) (htoken : Matches (.text value) token.lexeme)
    (hsign : Matches (.mark .datatype) sign.lexeme) (hname : Matches l name.lexeme) :
    run (.object subject predicate) s (token :: sign :: name :: point :: rest) =
      run .item (s.addPattern ⟨subject, predicate, .term (typedLiteral value iri)⟩) rest := by
  have hsign' : sign.lexeme = ⟨.operator, "^^"⟩ := by
    generalize sign.lexeme = k at hsign
    cases hsign
    rfl
  obtain ⟨-, hiri⟩ := resolveIri?_of_matches hs hnames hname name.position
  have htake := take_datatypeSign s value token.position (.object subject predicate) hsign'
  exact (run_text _ htoken).trans ((run_cons _ htake).trans (run_literal rest hpoint (take_datatype value _ hiri)))

end

/-- The object of a pattern is the term that the same words denote in a document. -/
theorem run_object (hs : Sees s scope) (hdenotes : Turtle.Denotes scope written t) {tokens : List Token}
    (hmatches : List.Forall₂ Matches written (tokens.map Token.lexeme)) {point : Token} (rest : List Token)
    (hpoint : point.lexeme = pointLexeme) (subject predicate : Slot) :
    run (.object subject predicate) s (tokens ++ point :: rest) =
      run .item (s.addPattern ⟨subject, predicate, .term t⟩) rest := by
  rw [List.forall₂_map_right_iff] at hmatches
  -- One case for each form of a term. The point behind it shows that nothing of the literal is left open.
  cases hdenotes with
  | name hnames =>
    obtain _ | @⟨_, token, _, _, htoken, ⟨⟩⟩ := hmatches
    obtain ⟨hkind, hiri⟩ := resolveIri?_of_matches hs hnames htoken token.position
    exact (run_cons _ (take_objectName hkind hiri)).trans (run_point rest hpoint)
  | plain value =>
    obtain _ | @⟨_, token, _, _, htoken, ⟨⟩⟩ := hmatches
    exact run_plainObject rest hpoint htoken
  | tagged value tag =>
    obtain _ | @⟨_, token, _, _, htoken, hmarks⟩ := hmatches
    obtain _ | @⟨_, mark, _, _, hmark, ⟨⟩⟩ := hmarks
    exact run_taggedObject rest hpoint htoken hmark
  | typed value hnames =>
    obtain _ | @⟨_, token, _, _, htoken, hmarks⟩ := hmatches
    obtain _ | @⟨_, sign, _, _, hsign, htypes⟩ := hmarks
    obtain _ | @⟨_, name, _, _, hname, ⟨⟩⟩ := htypes
    exact run_typedObject rest hpoint hs hnames htoken hsign hname
  | number kind digits =>
    obtain _ | @⟨_, token, _, _, htoken, ⟨⟩⟩ := hmatches
    refine run_literal rest hpoint ?_
    generalize hlexeme : token.lexeme = k at htoken
    cases htoken with
    | number hdatatype => rw [take_object_eq, Token.eq_of_lexeme hlexeme, takeSlot, hdatatype]
  | @truth w hw =>
    obtain _ | @⟨_, token, _, _, htoken, ⟨⟩⟩ := hmatches
    refine run_literal rest hpoint ?_
    generalize hlexeme : token.lexeme = k at htoken
    cases htoken with
    | word => rw [take_object_eq, Token.eq_of_lexeme hlexeme, takeSlot, if_pos hw]

theorem Matches.isMark_eq_false {k : Lexeme} (hnames : scope.Names l iri) (h : Matches l k) :
    k.isMark = false := by
  cases h with
  | iri => rfl
  | name => rfl
  | _ => cases hnames .start

/-- A statement that queries know is cut into the tokens of its terms and a point. -/
theorem standsFor_statement {st : Turtle.GroundStatement} (hportable : st.IsPortable)
    {ks ks' ks'' : List Lexeme} (hsubject : IsCut st.subject.chars st.subject.lexemes ks)
    (hpredicate : IsCut st.predicate.chars st.predicate.lexemes ks')
    (hobject : IsCut st.object.chars st.object.lexemes ks'') :
    StandsFor st.text (ks ++ (ks' ++ (ks'' ++ [pointLexeme]))) := by
  intro more others hmore hothers
  have hgap {gap : List Char} (hgap : gap ≠ []) (hspace : Turtle.IsGap gap) (rest : List Char) :
      (gap ++ rest).head? ≠ some '.' := by
    obtain ⟨c, gap, rfl⟩ := List.exists_cons_of_ne_nil hgap
    rintro ⟨⟩
    exact absurd (hspace '.' List.mem_cons_self) (by decide)
  have hpoint : Lexes ('.' :: more) (pointLexeme :: others) :=
    @standsFor_punctuation "." (by simp) more others hmore hothers
  have hend : ∀ c ∈ more.head?, Turtle.isSpace c = true := by
    intro c hc
    rw [hmore c hc]
    decide
  have hlast := hobject.2 _ _ (Turtle.breaks_end st.isGap_afterObject hend)
    (fun digits hdigits => hgap (hportable.integer digits hdigits) st.isGap_afterObject _)
    (hpoint.gap st.isGap_afterObject)
  have hmiddle := hpredicate.2 _ _ (Turtle.breaks_gap st.isGap_afterPredicate.1 st.isGap_afterPredicate.2 _)
    (fun _ _ => hgap st.isGap_afterPredicate.2 st.isGap_afterPredicate.1 _)
    (hlast.gap st.isGap_afterPredicate.1)
  have hfirst := hsubject.2 _ _ (Turtle.breaks_gap st.isGap_afterSubject.1 st.isGap_afterSubject.2 _)
    (fun _ _ => hgap st.isGap_afterSubject.2 st.isGap_afterSubject.1 _)
    (hmiddle.gap st.isGap_afterSubject.1)
  simpa [Turtle.GroundStatement.text, Turtle.GroundStatement.chars] using hfirst

theorem takes_statement {st : Turtle.GroundStatement} {subject predicate : String} {l' : Turtle.Lexeme}
    (hs : Sees s scope) (hportable : st.IsPortable) (hsubject : st.subject.lexemes = [l])
    (hpredicate : st.predicate.lexemes = [l']) (hnames : scope.Names l subject)
    (hnames' : scope.Names l' predicate) (hdenotes : Turtle.Denotes scope st.object.lexemes t) :
    Takes .item s [st.text] .item
      (s.addPattern ⟨.term (.iri subject), .term (.iri predicate), .term t⟩) := by
  have hwords : ∀ l ∈ st.subject.lexemes ++ (st.predicate.lexemes ++ st.object.lexemes), l.IsPortable :=
    fun l hl => hportable.lexemes l (by simp [Turtle.GroundStatement.lexemes] at hl ⊢; tauto)
  simp only [List.forall_mem_append] at hwords
  have hdenotes' : Turtle.Denotes scope st.subject.lexemes (.iri subject) := hsubject ▸ .name hnames
  have hdenotes'' : Turtle.Denotes scope st.predicate.lexemes (.iri predicate) := hpredicate ▸ .name hnames'
  obtain ⟨ks, hks⟩ := exists_isCut_of_isTermText st.subject.isWritten hdenotes' hwords.1
  obtain ⟨ks', hks'⟩ := exists_isCut_of_isTermText st.predicate.isWritten hdenotes'' hwords.2.1
  obtain ⟨ks'', hks''⟩ := exists_isCut_of_isTermText st.object.isWritten hdenotes hwords.2.2
  have hstands := standsFor_statement hportable hks hks' hks''
  have hmatches := hks.1
  have hmatches' := hks'.1
  rw [hsubject] at hmatches
  rw [hpredicate] at hmatches'
  obtain _ | @⟨_, k, _, _, hk, ⟨⟩⟩ := hmatches
  obtain _ | @⟨_, k', _, _, hk', ⟨⟩⟩ := hmatches'
  refine ⟨by simpa using hstands.stands, ?_, fun tokens next rest htokens _ => ?_⟩
  · rw [List.flatMap_singleton, hstands.lexemesOf]
    rintro l ⟨⟩
    exact hk.isMark_eq_false hnames
  · rw [List.flatMap_singleton, hstands.lexemesOf, List.singleton_append, List.singleton_append] at htokens
    obtain ⟨token, tokens, rfl, rfl, htail⟩ := List.map_eq_cons_iff.1 htokens
    obtain ⟨token', tokens, rfl, rfl, hobjects⟩ := List.map_eq_cons_iff.1 htail
    obtain ⟨object, points, rfl, rfl, hpoints⟩ := List.map_eq_append_iff.1 hobjects
    obtain ⟨point, rest', rfl, hpoint, hnil⟩ := List.map_eq_cons_iff.1 hpoints
    obtain rfl := List.map_eq_nil_iff.1 hnil
    obtain ⟨hkind, hiri⟩ := resolveIri?_of_matches hs hnames hk token.position
    obtain ⟨hkind', hiri'⟩ := resolveIri?_of_matches hs hnames' hk' token'.position
    have hobject := run_object hs hdenotes hks''.1 (next :: rest) hpoint (.term (.iri subject))
      (.term (.iri predicate))
    simp only [List.cons_append, List.append_assoc, List.nil_append]
    exact (run_cons _ (take_subject hkind hiri)).trans
      ((run_cons _ (take_predicate hkind' hiri')).trans hobject)

end

def SelectQuery.ofTriple (t : Triple) : SelectQuery where
  projection := []
  distinct := false
  patterns := [⟨.term t.subject, .term t.predicate, .term t.object⟩]
  optionals := []
  filters := []
  order := []
  limit := none
  offset := 0
  prefixes := []

def statementQuery (st : Turtle.GroundStatement) : String :=
  Text.join " " ["SELECT", "*", "WHERE", "\x7b", st.text, "\x7d"]

/-- A query for what a statement says has the pattern that the statement is taken as. -/
theorem parse_statementQuery {st : Turtle.GroundStatement} {visible : List (String × String)}
    {base : Option String} {t : Triple} (h : Takes .item (.initial visible base) [st.text] .item
      ((Scope.initial visible base).addPattern ⟨.term t.subject, .term t.predicate, .term t.object⟩)) :
    parse visible base (statementQuery st) = .ok (.ofTriple t) := by
  have hselect : Takes .prologue (.initial visible base) ["SELECT"] (.selection true) (.initial visible base) :=
    Takes.keyword (by simp [keywords]) fun t _ hkeyword => by simp [take, takePrologue, hkeyword]
  have hall : Takes (.selection true) (.initial visible base) ["*"] .moreVariables (.initial visible base) :=
    Takes.word (standsFor_token rfl (by decide) (forall_end rfl fun _ => rfl)) rfl fun _ => rfl
  have hwhere : Takes .moreVariables (.initial visible base) ["WHERE"] .groupOpen (.initial visible base) :=
    Takes.keyword (by simp [keywords]) fun t hkind hkeyword => by
      simp [take, takeMoreVariables, hkind, hkeyword]
  have hopen : Takes .groupOpen (.initial visible base) ["\x7b"] .item (.initial visible base) :=
    Takes.punctuation (by simp) fun _ => rfl
  have hclose : Takes .item
      ((Scope.initial visible base).addPattern ⟨.term t.subject, .term t.predicate, .term t.object⟩) ["\x7d"]
      .modifiers _ :=
    Takes.punctuation (by simp) fun _ => rfl
  have hwhole := ((hselect.append (hall.append (hwhere.append hopen))).append h).append hclose
  refine (parse_of_takes hwhole fun t _ horder _ _ => ?_).trans rfl
  simp [take, takeModifiers, horder]

/-- Where a document ends with a statement that queries know, a query over the document reads the text of
the statement as the triple that the document makes of it. -/
theorem parse_groundStatement {options : Turtle.ParserOptions} {text : String} {st : Turtle.GroundStatement}
    {d d' : Turtle.Document} (h : Turtle.parse options text = .ok d) (hfollows : st.Follows text)
    (h' : Turtle.parse options (text ++ st.text) = .ok d') (hportable : st.IsPortable) :
    ∃ t, Turtle.statements options (text ++ st.text) = Turtle.statements options text ++ [t] ∧
      t ∈ d'.triples ∧
      parse d'.namespaces.entries d'.base (statementQuery st) = .ok (.ofTriple t) := by
  obtain ⟨scope, hnamespaces, hbase, l, l', subject, predicate, object, hl, hl', hnames, hnames', hobject,
    hstatements⟩ := Turtle.exists_denotes_of_parse h hfollows h'
  have hsees : Sees (.initial d'.namespaces.entries d'.base) scope := ⟨rfl, hnamespaces.symm, hbase.symm⟩
  refine ⟨⟨.iri subject, .iri predicate, object⟩, hstatements, ?_,
    parse_statementQuery (takes_statement hsees hportable hl hl' hnames hnames' hobject)⟩
  obtain ⟨_, -, -, htriples, -⟩ := Turtle.exists_run_of_parse h'
  rw [htriples, mem_distinct, hstatements]
  simp

def prefixText : String :=
  "@prefix e: <http://e/> .\n"

def ageStatement (gap : List Char) (hgap : Turtle.IsGap gap) : Turtle.GroundStatement where
  subject := ⟨['e', ':', 'a'], [.name "e" "a"],
    .name ⟨'e', _, rfl, by decide, rfl, by decide⟩ trivial⟩
  predicate := ⟨['<', 'a', ':', 'p', '>'], [.iri "a:p"], .name ⟨'<', _, rfl, rfl, rfl, rfl⟩ trivial⟩
  object := ⟨['5'], [.number .integer "5"], .number ⟨'5', _, rfl, rfl, rfl, by decide⟩⟩
  afterSubject := [' ']
  afterPredicate := [' ']
  afterObject := gap
  isGap_afterSubject := ⟨List.forall_mem_singleton.2 rfl, List.cons_ne_nil _ _⟩
  isGap_afterPredicate := ⟨List.forall_mem_singleton.2 rfl, List.cons_ne_nil _ _⟩
  isGap_afterObject := hgap

def spacedAge : Turtle.GroundStatement :=
  ageStatement [' '] (List.forall_mem_singleton.2 rfl)

def closeAge : Turtle.GroundStatement :=
  ageStatement [] (by simp [Turtle.IsGap])

theorem follows_prefixText (st : Turtle.GroundStatement) : st.Follows prefixText := by
  let declaration : String := "@prefix e: <http://e/> ."
  have hchars : declaration.toList = _ := String.toList_ofList
  have hlex : (Turtle.lex declaration.toList).map (fun _ => ()) = .ok () := by
    rw [hchars]
    decide
  obtain ⟨tokens, htokens, -⟩ := (map_eq_ok_iff _ _ _).1 hlex
  have hindent : Turtle.IsGap [] := by simp [Turtle.IsGap]
  have hfollows : st.Follows (declaration ++ "\n" ++ String.ofList []) :=
    st.follows_line htokens hindent
  exact hfollows

theorem parse_prefixText :
    (Turtle.parse {} prefixText).map (fun d => (d.namespaces.entries, d.base)) =
      .ok ([("e", "http://e/")], none) := by
  have hchars : prefixText.toList = _ := String.toList_ofList
  rw [Turtle.parse, hchars]
  decide

theorem parse_spacedAge : (Turtle.parse {} (prefixText ++ spacedAge.text)).map
    (fun d => (d.namespaces.entries, d.base)) = .ok ([("e", "http://e/")], none) := by
  have hchars : prefixText.toList = _ := String.toList_ofList
  rw [Turtle.parse, String.toList_append, hchars, Turtle.GroundStatement.text, String.toList_ofList]
  decide

theorem parse_closeAge : (Turtle.parse {} (prefixText ++ closeAge.text)).map
    (fun d => (d.namespaces.entries, d.base)) = .ok ([("e", "http://e/")], none) := by
  have hchars : prefixText.toList = _ := String.toList_ofList
  rw [Turtle.parse, String.toList_append, hchars, Turtle.GroundStatement.text, String.toList_ofList]
  decide

theorem parse_groundStatement_spacedAge :
    ∃ d d', Turtle.parse {} prefixText = .ok d ∧ spacedAge.Follows prefixText ∧
      Turtle.parse {} (prefixText ++ spacedAge.text) = .ok d' ∧ spacedAge.IsPortable ∧
      ∃ t, Turtle.statements {} (prefixText ++ spacedAge.text) = Turtle.statements {} prefixText ++ [t] ∧
        t ∈ d'.triples ∧
        parse d'.namespaces.entries d'.base (statementQuery spacedAge) = .ok (.ofTriple t) := by
  have hportable : spacedAge.IsPortable := by
    constructor
    · simp [Turtle.GroundStatement.lexemes, spacedAge, ageStatement, Turtle.Lexeme.IsPortable]
      decide
    · simp [spacedAge, ageStatement]
  obtain ⟨d, hd, -⟩ := (map_eq_ok_iff _ _ _).1 parse_prefixText
  obtain ⟨d', hd', -⟩ := (map_eq_ok_iff _ _ _).1 parse_spacedAge
  have hfollows := follows_prefixText spacedAge
  exact ⟨d, d', hd, hfollows, hd', hportable, parse_groundStatement hd hfollows hd' hportable⟩

/-- Queries take the point right behind an integer for a part of a decimal. -/
theorem parse_groundStatement_closeAge :
    ∃ d d' t, Turtle.parse {} prefixText = .ok d ∧ closeAge.Follows prefixText ∧
      Turtle.parse {} (prefixText ++ closeAge.text) = .ok d' ∧
      Turtle.statements {} (prefixText ++ closeAge.text) = Turtle.statements {} prefixText ++ [t] ∧
      parse d'.namespaces.entries d'.base (statementQuery closeAge) ≠ .ok (.ofTriple t) := by
  obtain ⟨d, hd, -⟩ := (map_eq_ok_iff _ _ _).1 parse_prefixText
  obtain ⟨d', hd', hnames⟩ := (map_eq_ok_iff _ _ _).1 parse_closeAge
  obtain ⟨hentries, hbase⟩ := Prod.mk.inj hnames
  have hfollows := follows_prefixText closeAge
  obtain ⟨scope, -, -, _, _, subject, predicate, object, -, -, -, -, hobject, hstatements⟩ :=
    Turtle.exists_denotes_of_parse hd hfollows hd'
  have hinteger : object = .typed "5" Xsd.integer := by
    generalize hlexemes : closeAge.object.lexemes = written at hobject
    cases hobject with
    | name hnames =>
      cases hlexemes
      cases hnames .start
    | number =>
      cases hlexemes
      rfl
    | _ => cases hlexemes
  refine ⟨d, d', _, hd, hfollows, hd', hstatements, ?_⟩
  have hread : (parse [("e", "http://e/")] none (statementQuery closeAge)).map (·.patterns) =
      .ok [⟨.term (.iri "http://e/a"), .term (.iri "a:p"), .term (.typed "5." Xsd.decimal)⟩] := by
    decide
  rw [hentries, hbase]
  intro hsame
  rw [hsame, hinteger] at hread
  simp only [Except.map, SelectQuery.ofTriple, Except.ok.injEq, List.cons.injEq, Pattern.mk.injEq,
    Slot.term.injEq] at hread
  exact absurd hread.1.2.2 (by decide)

end CommandOntology.Query
