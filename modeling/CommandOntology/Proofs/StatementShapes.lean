import CommandOntology.Proofs.ContainedErrors
import CommandOntology.Proofs.TypeTags

set_option autoImplicit false

namespace CommandOntology

def IsSmallTag (tag : String) : Prop :=
  tag ≠ "" ∧ Text.lower tag = tag

/-- A term that a document can write as a value. -/
def Term.IsWritten : Term → Prop
  | .literal _ datatype language =>
    (datatype = none ∨ language = none) ∧ datatype ≠ some Xsd.string ∧ ∀ tag ∈ language, IsSmallTag tag
  | _ => True

structure Triple.IsWritten (t : Triple) : Prop where
  subject : t.subject.isResource = true
  predicate : ∃ iri, t.predicate = .iri iri
  object : t.object.IsWritten

namespace Term

theorem isWritten_of_isResource (t : Term) (h : t.isResource = true) : t.IsWritten := by
  cases t with
  | iri value => trivial
  | blank label => trivial
  | literal lexical datatype language => cases h

theorem isWritten_plain (lexical : String) : (plain lexical).IsWritten :=
  ⟨.inl rfl, by simp, by simp⟩

theorem isWritten_tagged (lexical : String) {tag : String} (h : IsSmallTag tag) :
    (literal lexical none (some tag)).IsWritten :=
  ⟨.inl rfl, by simp, by simpa using h⟩

theorem isWritten_typed (lexical : String) {datatype : String} (h : datatype ≠ Xsd.string) :
    (typed lexical datatype).IsWritten :=
  ⟨.inr rfl, by simpa using h, by simp⟩

end Term

namespace Turtle

open Text

def IsTagText (tag : String) : Prop :=
  tag ≠ "" ∧ ∀ c ∈ tag.toList, c.toNat < 128

theorem isSmall_asciiLower {c : Char} (h : c.toNat < 128) : IsSmall (asciiLower c) := by
  have htest := forall_ascii (fun c => lowerChar (asciiLower c) == asciiLower c &&
    decide ((asciiLower c).toNat < 128)) (by decide) c h
  rw [Bool.and_eq_true, beq_iff_eq, decide_eq_true_eq] at htest
  exact ⟨htest.1, by omega, by omega⟩

theorem isSmallTag_asciiLower {tag : String} (h : IsTagText tag) :
    IsSmallTag (String.ofList (tag.toList.map asciiLower)) := by
  have hsmall : ∀ c ∈ tag.toList.map asciiLower, IsSmall c := by
    intro c hc
    obtain ⟨d, hd, rfl⟩ := List.mem_map.1 hc
    exact isSmall_asciiLower (h.2 d hd)
  constructor
  · intro hempty
    refine h.1 (String.toList_inj.1 ?_)
    simpa using congrArg String.toList hempty
  · rw [Text.lower, String.toList_ofList, lowerAfter_eq_self [] _ hsmall]

theorem forall_take_subtagLength (text : List Char) :
    ∀ c ∈ text.take (subtagLength text), c.toNat < 128 := by
  induction text with
  | nil => simp
  | cons c rest ih =>
    unfold subtagLength
    split_ifs with hc
    · rw [List.take_succ_cons, List.forall_mem_cons]
      refine ⟨?_, ih⟩
      simp only [Bool.or_eq_true, Bool.and_eq_true, beq_iff_eq] at hc
      obtain hc | ⟨rfl, -⟩ := hc
      · exact isAsciiAlphanumeric_lt c hc
      · decide
    · simp

theorem isTagText_of_tagLength? {text : List Char} {n : Nat} (h : tagLength? text = some n) :
    IsTagText (lexemeText text n) := by
  unfold tagLength? at h
  dsimp only at h
  split at h
  · cases h
  next hzero =>
  obtain rfl := Option.some.inj h
  have hspan : text.take (spanLength isAsciiLetter text) = text.takeWhile isAsciiLetter :=
    (List.prefix_iff_eq_take.1 (List.takeWhile_prefix isAsciiLetter)).symm
  have hne : text.takeWhile isAsciiLetter ≠ [] := fun hnil => hzero (by rw [spanLength, hnil]; rfl)
  rw [IsTagText, lexemeText, List.take_add, hspan, String.toList_ofList]
  constructor
  · intro hempty
    have hnil := congrArg String.toList hempty
    rw [String.toList_ofList] at hnil
    exact hne (List.append_eq_nil_iff.1 hnil).1
  · intro c hc
    obtain hc | hc := List.mem_append.1 hc
    · exact isAsciiAlphanumeric_lt c (by simp [isAsciiAlphanumeric, List.mem_takeWhile_imp hc])
    · split_ifs at hc
      · exact forall_take_subtagLength _ c hc
      · simp at hc

theorem isTagText_of_scan {c : Char} {rest : List Char} {tag : String} {n : Nat}
    (h : scan c rest = .ok (.languageTag tag, n)) : IsTagText tag := by
  revert h
  fun_cases scan c rest with
  | case1 =>
    unfold scanIri
    dsimp only
    split_ifs <;> simp
  | case2 =>
    simp [scanText, map_eq_ok_iff]
  | case3 =>
    unfold scanTag
    split
    · simp
    next m hm =>
      dsimp only
      split
      · simp
      · intro h
        cases h
        exact isTagText_of_tagLength? hm
  | case4 =>
    unfold scanBlankNode
    split <;> simp
  | case5 => simp
  | case6 => simp
  | case7 => simp
  | case8 =>
    unfold scanNumber
    split <;> simp
  | case9 =>
    unfold scanName
    dsimp only
    split
    · simp
    · split_ifs <;> simp

/-- Every lexeme of a text has a property that all lexemes have which can start at a place. -/
theorem forall_lexFrom {P : Lexeme → Prop}
    (hP : ∀ c rest lexeme n, scan c rest = .ok (lexeme, n) → P lexeme) {state : LexerState}
    {p : Position} {text : List Char} {tokens : Tokens} (h : lexFrom state p text = .ok tokens) :
    ∀ t ∈ tokens.tokens, P t.lexeme := by
  fun_induction lexFrom state p text generalizing tokens with
  | case1 =>
    cases h
    simp
  | case2 p c rest left ih => exact ih h
  | case3 p c rest ih => exact ih h
  | case4 state p c rest _ _ _ ih => exact ih h
  | case5 state p rest _ _ _ ih => exact ih h
  | case6 state p c rest _ _ fault hscan => cases h
  | case7 state p c rest _ _ lexeme n hscan _ _ ih =>
    obtain ⟨tokens, htokens, rfl⟩ := (map_eq_ok_iff _ _ _).1 h
    exact List.forall_mem_cons.2 ⟨hP c rest lexeme n hscan, ih htokens⟩

def Lexeme.IsTagged (l : Lexeme) : Prop :=
  ∀ tag, l = .languageTag tag → IsTagText tag

theorem isTagged_of_lex {text : List Char} {tokens : Tokens} (h : lex text = .ok tokens) :
    ∀ t ∈ tokens.tokens, t.lexeme.IsTagged :=
  forall_lexFrom (fun _ _ _ _ hscan _ hl => isTagText_of_scan (hl ▸ hscan)) h

mutual

def Context.IsFormed : Context → Prop
  | .statement => True
  | .brackets node use => node.isResource = true ∧ use.IsFormed

def Use.IsFormed : Use → Prop
  | .subject => True
  | .object subject predicate _ context =>
    subject.isResource = true ∧ (∃ iri, predicate = .iri iri) ∧ context.IsFormed
  | .item items use => (∀ x ∈ items, x.IsWritten) ∧ use.IsFormed

end

def Use.Admits (node : Term) : Use → Prop
  | .subject => node.isResource = true
  | _ => node.IsWritten

def Use.AdmitsValues : Use → Prop
  | .subject => False
  | _ => True

def Control.IsFormed : Control → Prop
  | .statement => True
  | .namespaceLabel _ _ => True
  | .namespaceIri _ _ _ => True
  | .baseIri _ => True
  | .directiveEnd => True
  | .predicateOrEnd subject => subject.isResource = true
  | .bracketStart node use => node.isResource = true ∧ use.IsFormed
  | .predicate subject context => subject.isResource = true ∧ context.IsFormed
  | .object subject verb context =>
    subject.isResource = true ∧ (∃ iri, verb = .iri iri) ∧ context.IsFormed
  | .objectEnd subject verb context =>
    subject.isResource = true ∧ (∃ iri, verb = .iri iri) ∧ context.IsFormed
  | .semicolon subject context => subject.isResource = true ∧ context.IsFormed
  | .contextEnd context => context.IsFormed
  | .item items use => (∀ x ∈ items, x.IsWritten) ∧ use.IsFormed
  | .literalMark _ use => use.AdmitsValues ∧ use.IsFormed
  | .datatype _ use => use.AdmitsValues ∧ use.IsFormed

def Scope.IsFormed (s : Scope) : Prop :=
  ∀ e ∈ s.emitted, e.triple.IsWritten

def StateIsFormed (state : Control × Scope) : Prop :=
  state.1.IsFormed ∧ state.2.IsFormed

def Forms (outcome : Option (Except ParseError (Control × Scope))) : Prop :=
  ∀ state, outcome = some (.ok state) → StateIsFormed state

theorem Use.admits_of_isResource {node : Term} (h : node.isResource = true) (use : Use) :
    use.Admits node := by
  cases use with
  | subject => exact h
  | object subject predicate line context => exact Term.isWritten_of_isResource node h
  | item items use => exact Term.isWritten_of_isResource node h

theorem Use.AdmitsValues.admits {use : Use} (hu : use.AdmitsValues) {node : Term} (h : node.IsWritten) :
    use.Admits node := by
  cases use with
  | subject => exact hu.elim
  | object subject predicate line context => exact h
  | item items use => exact h

variable {scope : Scope}

namespace Scope.IsFormed

theorem emit (h : scope.IsFormed) {subject predicate object : Term} (line : Nat)
    (ht : Triple.IsWritten ⟨subject, predicate, object⟩) :
    (scope.emit subject predicate object line).IsFormed :=
  List.forall_mem_cons.2 ⟨ht, h⟩

theorem emitChain (h : scope.IsFormed) (line : Nat) (items : List Term) (node : Term)
    (hn : node.isResource = true) (hitems : ∀ x ∈ items, x.IsWritten) :
    (scope.emitChain line node items).IsFormed := by
  induction items generalizing scope node with
  | nil => exact h
  | cons x items ih =>
    obtain ⟨hx, hrest⟩ := List.forall_mem_cons.1 hitems
    have hfirst : (scope.emit node (.iri Rdf.first) x line).IsFormed := h.emit line ⟨hn, ⟨_, rfl⟩, hx⟩
    have hvalue (value : Term) (hv : value.isResource = true) :
        Triple.IsWritten ⟨node, .iri Rdf.rest, value⟩ :=
      ⟨hn, ⟨_, rfl⟩, Term.isWritten_of_isResource value hv⟩
    cases items with
    | nil => exact hfirst.emit line (hvalue _ rfl)
    | cons y items =>
      have hfresh : (scope.emit node (.iri Rdf.first) x line).freshNode.2.IsFormed := hfirst
      exact ih (hfresh.emit line (hvalue _ rfl)) _ rfl hrest

theorem emitCollection (h : scope.IsFormed) (line : Nat) {items : List Term}
    (hitems : ∀ x ∈ items, x.IsWritten) :
    (scope.emitCollection line items).1.isResource = true ∧
      (scope.emitCollection line items).2.IsFormed := by
  unfold Scope.emitCollection
  split_ifs
  · exact ⟨rfl, h⟩
  · have hfresh : scope.freshNode.2.IsFormed := h
    exact ⟨rfl, hfresh.emitChain line items _ rfl hitems⟩

end Scope.IsFormed

theorem deliver_isFormed (h : scope.IsFormed) {node : Term} {use : Use} (hn : use.Admits node)
    (hu : use.IsFormed) : StateIsFormed (deliver scope node use) := by
  cases use with
  | subject => exact ⟨⟨hn, trivial⟩, h⟩
  | object subject predicate line context => exact ⟨hu, h.emit line ⟨hu.1, hu.2.1, hn⟩⟩
  | item items use => exact ⟨⟨List.forall_mem_cons.2 ⟨hn, hu.1⟩, hu.2⟩, h⟩

theorem deliverBrackets_isFormed (h : scope.IsFormed) {node : Term} (hn : node.isResource = true)
    {use : Use} (hu : use.IsFormed) : StateIsFormed (deliverBrackets scope node use) := by
  cases use with
  | subject => exact ⟨hn, h⟩
  | object subject predicate line context =>
    exact deliver_isFormed h (Use.admits_of_isResource hn _) hu
  | item items use => exact deliver_isFormed h (Use.admits_of_isResource hn _) hu

theorem settleLiteral_isFormed {control : Control} (hc : control.IsFormed) (h : scope.IsFormed)
    (next : Option Lexeme) : StateIsFormed (settleLiteral control scope next) := by
  unfold settleLiteral
  split
  next value use =>
    split_ifs
    · exact ⟨hc, h⟩
    · exact deliver_isFormed h (hc.1.admits (Term.isWritten_plain value)) hc.2
  · exact ⟨hc, h⟩

theorem settleList_isFormed {control : Control} (hc : control.IsFormed) (next : Option Lexeme) :
    (settleList control next).IsFormed := by
  unfold settleList
  split
  · split_ifs
    · exact hc
    · exact hc.2.2
  · split_ifs
    · exact hc.2
    · exact hc
  · exact hc

theorem settle_isFormed {control : Control} (hc : control.IsFormed) (h : scope.IsFormed)
    (next : Option Lexeme) : StateIsFormed (settle control scope next) :=
  have hliteral := settleLiteral_isFormed hc h next
  ⟨settleList_isFormed hliteral.1 next, hliteral.2⟩

theorem forms_none : Forms none :=
  fun _ h => by cases h

theorem forms_ok {state : Control × Scope} (h : StateIsFormed state) : Forms (some (.ok state)) :=
  fun _ ho => by
    cases ho
    exact h

/-- An IRI that a token denotes is used as a node or a predicate, or marks a literal. -/
theorem forms_resolveIri? (token : Token) (f : String → Control × Scope)
    (hf : ∀ iri, StateIsFormed (f iri)) :
    Forms ((scope.resolveIri? token).map fun iri => iri.map f) := by
  intro state h
  obtain ⟨resolved, -, hstate⟩ := Option.map_eq_some_iff.1 h
  obtain ⟨iri, -, rfl⟩ := (map_eq_ok_iff _ _ _).1 hstate
  exact hf iri

theorem takeNode_forms (h : scope.IsFormed) (token : Token) {use : Use} (hu : use.IsFormed) :
    Forms (takeNode scope token use) := by
  unfold takeNode
  split
  · exact forms_ok (deliver_isFormed h (Use.admits_of_isResource rfl use) hu)
  · exact forms_ok ⟨⟨rfl, hu⟩, h⟩
  · exact forms_ok ⟨⟨by simp, hu⟩, h⟩
  · exact forms_resolveIri? token _ fun iri =>
      deliver_isFormed h (Use.admits_of_isResource rfl use) hu

theorem takeObject_forms (h : scope.IsFormed) (token : Token) {use : Use} (hv : use.AdmitsValues)
    (hu : use.IsFormed) : Forms (takeObject scope token use) := by
  unfold takeObject
  split
  · exact forms_ok ⟨⟨hv, hu⟩, h⟩
  next kind digits _ =>
    have hkind : kind.datatype ≠ Xsd.string := by cases kind <;> decide
    exact forms_ok (deliver_isFormed h (hv.admits (Term.isWritten_typed digits hkind)) hu)
  next word _ =>
    split_ifs
    · exact forms_ok (deliver_isFormed h (hv.admits (Term.isWritten_typed word (by decide))) hu)
    · exact forms_none
  · exact takeNode_forms h token hu

theorem takePredicate_forms (h : scope.IsFormed) (token : Token) {subject : Term}
    (hs : subject.isResource = true) {context : Context} (hc : context.IsFormed) :
    Forms (takePredicate scope token subject context) := by
  unfold takePredicate
  split
  · split_ifs
    · exact forms_ok ⟨⟨hs, ⟨_, rfl⟩, hc⟩, h⟩
    · exact forms_none
  · exact forms_resolveIri? token _ fun iri => ⟨⟨hs, ⟨iri, rfl⟩, hc⟩, h⟩

theorem takeStatement_forms (h : scope.IsFormed) (token : Token) :
    Forms (takeStatement scope token) := by
  have hdirective (d : Directive) (isClosed : Bool) (line : Nat) :
      (afterDirective d isClosed line).IsFormed := by
    cases d <;> trivial
  unfold takeStatement
  split
  · exact forms_ok ⟨hdirective _ _ _, h⟩
  next word _ =>
    cases wordDirective? word with
    | none => exact forms_none
    | some d => exact forms_ok ⟨hdirective d _ _, h⟩
  · exact takeNode_forms h token (show Use.subject.IsFormed from trivial)

theorem isWritten_typedLiteral (value datatype : String) : (typedLiteral value datatype).IsWritten := by
  unfold typedLiteral
  split_ifs with hstring
  · exact Term.isWritten_plain value
  · exact Term.isWritten_typed value hstring

theorem afterDeclaration_isFormed (isClosed : Bool) : (afterDeclaration isClosed).IsFormed := by
  cases isClosed <;> trivial

theorem isFormed_declare {label iri : String} {line : Nat} {scope' : Scope} (h : scope.IsFormed)
    (hd : scope.declare label iri line = .ok scope') : scope'.IsFormed := by
  unfold Scope.declare at hd
  split at hd
  · cases hd
    exact h
  · cases hd
  · cases hd

theorem take_forms (control : Control) (token : Token) (hl : token.lexeme.IsTagged)
    (hc : control.IsFormed) (h : scope.IsFormed) : Forms (take control scope token) := by
  -- A step hands on a term that the control holds already, or one that the token spells.
  fun_cases take control scope token with
  | case1 => exact takeStatement_forms h token
  | case2 => exact forms_ok ⟨trivial, h⟩
  | case3 line isClosed directiveLine label reference =>
    intro state hstate
    obtain ⟨iri, -, hstate⟩ := (bind_eq_ok_iff _ _ _).1 (Option.some.inj hstate)
    obtain ⟨scope', hdeclare, hstate⟩ := (bind_eq_ok_iff _ _ _).1 hstate
    cases hstate
    exact ⟨afterDeclaration_isFormed isClosed, isFormed_declare h hdeclare⟩
  | case4 line isClosed reference =>
    intro state hstate
    obtain ⟨iri, -, hstate⟩ := (bind_eq_ok_iff _ _ _).1 (Option.some.inj hstate)
    cases hstate
    exact ⟨afterDeclaration_isFormed isClosed, h⟩
  | case5 => exact forms_ok ⟨trivial, h⟩
  | case6 => exact forms_ok ⟨trivial, h⟩
  | case7 subject => exact takePredicate_forms h token hc trivial
  | case8 node use => exact forms_ok (deliverBrackets_isFormed h hc.1 hc.2)
  | case9 node use => exact takePredicate_forms h token hc.1 hc
  | case10 subject context => exact takePredicate_forms h token hc.1 hc.2
  | case11 line subject predicate context => exact takeObject_forms h token trivial hc
  | case12 subject predicate context => exact forms_ok ⟨hc, h⟩
  | case13 subject predicate context => exact forms_ok ⟨⟨hc.1, hc.2.2⟩, h⟩
  | case14 subject context => exact forms_ok ⟨hc, h⟩
  | case15 subject context => exact takePredicate_forms h token hc.1 hc.2
  | case16 => exact forms_ok ⟨trivial, h⟩
  | case17 node use => exact forms_ok (deliverBrackets_isFormed h hc.1 hc.2)
  | case18 line items use _ head scope' hcollection =>
    have hitems : ∀ x ∈ items.reverse, x.IsWritten := fun x hx => hc.1 x (List.mem_reverse.1 hx)
    have hformed := h.emitCollection line hitems
    rw [hcollection] at hformed
    exact forms_ok (deliver_isFormed hformed.2 (Use.admits_of_isResource hformed.1 use) hc.2)
  | case19 items use => exact takeObject_forms h token trivial hc
  | case20 value use tag hlexeme =>
    have htag := isSmallTag_asciiLower (hl tag hlexeme)
    exact forms_ok (deliver_isFormed h (hc.1.admits (Term.isWritten_tagged value htag)) hc.2)
  | case21 value use => exact forms_ok ⟨hc, h⟩
  | case22 value use =>
    exact forms_resolveIri? token _ fun iri =>
      deliver_isFormed h (hc.1.admits (isWritten_typedLiteral value iri)) hc.2
  | case23 => exact forms_none

theorem step_isFormed {control : Control} {token : Token} (hl : token.lexeme.IsTagged)
    (hc : control.IsFormed) (h : scope.IsFormed) :
    (step control scope token).1.IsFormed ∧
      ∀ state, (step control scope token).2 = .ok state → StateIsFormed state := by
  have hs := settle_isFormed hc h (some token.lexeme)
  have htake := take_forms _ token hl hs.1 hs.2
  unfold step
  dsimp only
  cases ht : take (settle control scope (some token.lexeme)).1
      (settle control scope (some token.lexeme)).2 token with
  | some outcome => exact ⟨hs.2, fun state hstate => htake state (ht.trans (congrArg some hstate))⟩
  | none => exact ⟨hs.2, by simp⟩

/-- Whatever a run comes to, it has given out statements only that a document can make. -/
theorem run_isFormed (stop : Position) (tokens : List Token) {control : Control}
    (hl : ∀ t ∈ tokens, t.lexeme.IsTagged) (hc : control.IsFormed) (h : scope.IsFormed) :
    (run stop control scope tokens).1.IsFormed := by
  induction tokens generalizing control scope with
  | nil =>
    have hs := settle_isFormed hc h none
    unfold run finish
    dsimp only
    split
    · exact hs.2
    · exact hs.2
  | cons token tokens ih =>
    obtain ⟨htoken, hrest⟩ := List.forall_mem_cons.1 hl
    obtain ⟨hscope, hstate⟩ := step_isFormed htoken hc h
    unfold run
    cases hstep : step control scope token with
    | mk scope₁ outcome =>
      rw [hstep] at hscope hstate
      cases outcome with
      | ok state => exact ih hrest (hstate state rfl).1 (hstate state rfl).2
      | error e => exact hscope

/-- A document makes no other statements. -/
theorem parse_isWritten {options : ParserOptions} {text : String} {d : Document}
    (h : parse options text = .ok d) : ∀ t ∈ d.triples, t.IsWritten := by
  unfold parse at h
  split_ifs at h
  split at h
  · cases h
  next tokens hlex =>
  have hformed : (documentRun options tokens).1.IsFormed :=
    run_isFormed tokens.stop tokens.tokens (isTagged_of_lex hlex) trivial
      (by simp [Scope.IsFormed, Scope.initial])
  obtain ⟨-, triples, hrecord, rfl⟩ := parseTokens_ok h
  intro t ht
  obtain ht | ⟨e, he, rfl⟩ := mem_of_record hrecord t ht
  · cases ht
  · exact hformed e (List.mem_reverse.1 he)

end Turtle

end CommandOntology
