import CommandOntology.Proofs.QueryTokens
import CommandOntology.Proofs.StatementShapes

set_option autoImplicit false

namespace CommandOntology

open Text

theorem WritesTooLarge.of_part {value : Nat} {part whole : List Char} (h : WritesTooLarge value part)
    (hp : part <:+: whole) : WritesTooLarge value whole := by
  obtain ⟨rest, ⟨front, hrest⟩, digits, hdigits, hnumber⟩ := h
  obtain ⟨before, after, rfl⟩ := hp
  refine ⟨rest ++ after, ⟨before ++ front, ?_⟩, digits, ?_, hnumber⟩
  · rw [← hrest]
    simp
  · exact hdigits.trans (List.prefix_append rest after)

namespace Query

def WritesUncountable (error : NumberError) (text : List Char) : Prop :=
  ∃ digits : String, digits.toList <:+: text ∧ digits ≠ "" ∧ digits.toList.all isDigitLike = true ∧
    Reading.integer digits = .error error

def WritesUnresolvable (fault : Iri.ReferenceError) (text : List Char) : Prop :=
  ∃ base reference : String, reference.toList <:+: text ∧ Iri.resolve base reference = .error fault

def IsUnusable (error : Regex.PatternError) : Prop :=
  error.isMalformed = false ∧ ∃ mode source, Regex.parse mode source = .error error

def QueryError.ArisesFrom (text : List Char) : QueryError → Prop
  | .malformed .. => True
  | .unknownVariable .. => True
  | .timeout .. => False
  | .codePointTooLarge value => WritesTooLarge value text
  | .unresolvable fault => WritesUnresolvable fault text
  | .uncountable error => WritesUncountable error text
  | .unusablePattern error => IsUnusable error

/-- An outcome of reading a text: a value of some kind, or an error with its reason in the text. -/
def Reads {α : Type} (text : List Char) (P : α → Prop) : Except QueryError α → Prop
  | .ok a => P a
  | .error e => e.ArisesFrom text

section

variable {α β : Type} {text : List Char} {P : α → Prop} {Q : β → Prop}

theorem Reads.bind {x : Except QueryError α} {f : α → Except QueryError β} (hx : Reads text P x)
    (hf : ∀ a, P a → Reads text Q (f a)) : Reads text Q (x >>= f) := by
  cases x with
  | ok a => exact hf a hx
  | error e => exact hx

theorem Reads.map {x : Except QueryError α} {f : α → β} (hx : Reads text P x)
    (hf : ∀ a, P a → Q (f a)) : Reads text Q (x.map f) := by
  cases x with
  | ok a => exact hf a hx
  | error e => exact hx

end

def Slot.IsWritten : Slot → Prop
  | var _ => True
  | term t => t.IsWritten

structure Pattern.IsWritten (p : Pattern) : Prop where
  subject : p.subject.IsWritten
  predicate : p.predicate.IsWritten
  object : p.object.IsWritten

theorem isWritten_typedLiteral (lexical datatype : String) : (typedLiteral lexical datatype).IsWritten := by
  unfold typedLiteral
  split_ifs with hstring
  · exact Term.isWritten_plain lexical
  · exact Term.isWritten_typed lexical hstring

theorem isWritten_number (lexical : String) : (Term.typed lexical (numberDatatype lexical)).IsWritten := by
  refine Term.isWritten_typed lexical ?_
  unfold numberDatatype
  split_ifs <;> decide

theorem isSmallTag_lower {tag : String} (h : tag ≠ "") : IsSmallTag (Text.lower tag) := by
  constructor
  · intro hempty
    rw [← String.toList_eq_nil_iff, Text.lower, String.toList_ofList] at hempty
    obtain ⟨c, rest, he⟩ := List.exists_cons_of_ne_nil (mt String.toList_eq_nil_iff.1 h)
    rw [he] at hempty
    exact lowerAfter_cons_ne_nil [] c rest hempty
  · rw [Text.lower, Text.lower, String.toList_ofList,
      lowerAfter_eq_self [] _ (isSmall_of_mem_lowerAfter [] _)]

def Token.IsFrom (text : List Char) (t : Token) : Prop :=
  t.kind ≠ .endOfQuery → t.StandsIn text

section

variable {text : List Char}

theorem unescapeFrom_tooLarge {skip value : Nat} {part : List Char}
    (h : unescapeFrom skip part = .error (.tooLarge value)) : WritesTooLarge value part := by
  fun_induction unescapeFrom skip part with
  | case1 => cases h
  | case2 c rest skip ih => exact (ih h).cons c
  | case3 c rest hescape ih =>
    obtain ⟨rfl, -⟩ := hescape
    cases hread : Text.readEscape rest with
    | error e =>
      rw [hread] at h
      cases h
      exact ⟨rest, List.suffix_rfl, readEscape_tooLarge hread⟩
    | ok escaped =>
      rw [hread] at h
      exact (ih escaped.2 ((map_eq_error_iff _ _ _).1 h)).cons _
  | case4 c rest hescape ih => exact (ih ((map_eq_error_iff _ _ _).1 h)).cons c

theorem stripQuotes_isInfix (raw : List Char) : stripQuotes raw <:+: raw :=
  (List.drop_suffix _ _).isInfix.trans (List.take_prefix _ _).isInfix

theorem reads_unescape {part : List Char} (h : part <:+: text) (position : Nat) :
    Reads text (fun _ => True) (unescape part position) := by
  unfold unescape
  split
  · trivial
  · trivial
  next value hescape => exact (unescapeFrom_tooLarge hescape).of_part h

theorem reads_resolveReference (s : Scope) {t : Token} (ht : t.StandsIn text) :
    Reads text (fun _ => True) (s.resolveReference t) := by
  have hreference : (t.text.toList.drop 1).dropLast <:+: text :=
    ((List.dropLast_prefix _).isInfix.trans (List.drop_suffix 1 _).isInfix).trans ht.isInfix
  unfold Scope.resolveReference
  dsimp only
  split_ifs
  · trivial
  · split
    · trivial
    next base _ =>
      cases hresolve : Iri.resolve base (String.ofList (t.text.toList.drop 1).dropLast) with
      | ok iri => trivial
      | error fault => exact ⟨base, _, by rwa [String.toList_ofList], hresolve⟩

theorem reads_resolveName (s : Scope) (t : Token) : Reads text (fun _ => True) (s.resolveName t) := by
  unfold Scope.resolveName
  dsimp only
  split <;> trivial

theorem reads_of_resolveIri? {s : Scope} {t : Token} (ht : t.IsFrom text)
    {iri : Except QueryError String} (h : s.resolveIri? t = some iri) :
    Reads text (fun _ => True) iri := by
  unfold Scope.resolveIri? at h
  split at h
  next hkind =>
    cases h
    exact reads_resolveReference s (ht (by simp [hkind]))
  · cases h
    exact reads_resolveName s t
  · cases h

def Place.IsFormed : Place → Prop
  | .subject => True
  | .predicate x => x.IsWritten
  | .object x y => x.IsWritten ∧ y.IsWritten
  | .operand _ _ => True

def Control.IsFormed : Control → Prop
  | .predicate x => x.IsWritten
  | .object x y => x.IsWritten ∧ y.IsWritten
  | .objectEnd x y => x.IsWritten ∧ y.IsWritten
  | .semicolon x => x.IsWritten
  | .literalMark _ _ place => place.IsFormed
  | .datatype _ place => place.IsFormed
  | _ => True

structure Scope.IsFormed (s : Scope) : Prop where
  patterns : ∀ p ∈ s.patterns, p.IsWritten
  optionals : ∀ group ∈ s.optionals, ∀ p ∈ group.patterns, p.IsWritten
  inner : ∀ group ∈ s.inner, ∀ p ∈ group.patterns, p.IsWritten

def StateIsFormed (state : Control × Scope) : Prop :=
  state.1.IsFormed ∧ state.2.IsFormed

/-- Taking a token keeps a machine formed, or leads to an error with its reason in the text. -/
abbrev Keeps (text : List Char) (outcome : Outcome) : Prop :=
  Reads text StateIsFormed outcome

variable {s : Scope}

theorem Scope.IsFormed.addPattern (h : s.IsFormed) {p : Pattern} (hp : p.IsWritten) :
    (s.addPattern p).IsFormed := by
  have happend (patterns : List Pattern) (hall : ∀ q ∈ patterns, q.IsWritten) :
      ∀ q ∈ patterns ++ [p], q.IsWritten :=
    List.forall_mem_append.2 ⟨hall, List.forall_mem_singleton.2 hp⟩
  unfold Scope.addPattern
  split
  next group hinner =>
    refine ⟨h.patterns, h.optionals, fun g hg => ?_⟩
    cases hg
    exact happend _ (h.inner group hinner)
  next hinner => exact ⟨happend _ h.patterns, h.optionals, h.inner⟩

theorem Scope.IsFormed.addFilter (h : s.IsFormed) (e : Expression) : (s.addFilter e).IsFormed := by
  unfold Scope.addFilter
  split
  next group hinner =>
    refine ⟨h.patterns, h.optionals, fun g hg => ?_⟩
    cases hg
    exact h.inner group hinner
  next hinner => exact ⟨h.patterns, h.optionals, h.inner⟩

theorem Scope.IsFormed.cut (h : s.IsFormed) (slice : Slice) (n : Nat) : (s.cut slice n).IsFormed := by
  cases slice <;> exact ⟨h.patterns, h.optionals, h.inner⟩

theorem afterOperand_isFormed (before : Partial) (operand : Expression) (enclosing : Enclosing) :
    (afterOperand before operand enclosing).IsFormed := by
  unfold afterOperand
  dsimp only
  split <;> trivial

theorem deliver_isFormed (h : s.IsFormed) (e : Expression) (use : Use) :
    StateIsFormed (deliver s e use) := by
  cases use with
  | filter => exact ⟨trivial, h.addFilter e⟩
  | operand before enclosing => exact ⟨afterOperand_isFormed before e enclosing, h⟩

theorem closeGroup_isFormed (h : s.IsFormed) : StateIsFormed (closeGroup s) := by
  unfold closeGroup
  split
  · exact ⟨trivial, h⟩
  next group hinner =>
    split_ifs
    · exact ⟨trivial, h⟩
    · refine ⟨trivial, h.patterns, ?_, by simp⟩
      exact List.forall_mem_append.2 ⟨h.optionals, List.forall_mem_singleton.2 (h.inner group hinner)⟩

variable {t : Token}

theorem deliverLiteral_keeps (h : s.IsFormed) {literal : Term} (hl : literal.IsWritten) (position : Nat)
    {place : Place} (hp : place.IsFormed) : Keeps text (deliverLiteral s literal position place) := by
  cases place with
  | subject => trivial
  | predicate subject => trivial
  | object subject predicate => exact ⟨hp, h.addPattern ⟨hp.1, hp.2, hl⟩⟩
  | operand before enclosing => exact ⟨afterOperand_isFormed before _ enclosing, h⟩

theorem takeSlot_keeps (h : s.IsFormed) (ht : t.IsFrom text) (expected : Expectation) (place : Place)
    (hp : place.IsFormed) {onSlot : Slot → Control × Scope} {onLiteral : Term → Outcome}
    (hslot : ∀ slot : Slot, slot.IsWritten → StateIsFormed (onSlot slot))
    (hliteral : ∀ literal : Term, literal.IsWritten → Keeps text (onLiteral literal)) :
    Keeps text (takeSlot s t expected place onSlot onLiteral) := by
  unfold takeSlot
  split
  next => exact hslot (.var t.variableName) trivial
  next => trivial
  next hkind =>
    have hpart := (stripQuotes_isInfix t.text.toList).trans (ht (by simp [hkind])).isInfix
    exact (reads_unescape hpart t.position).bind fun lexical _ => ⟨hp, h⟩
  next => exact hliteral _ (isWritten_number t.text)
  next =>
    split_ifs
    · exact hliteral _ (Term.isWritten_typed t.text (by decide))
    · trivial
  next =>
    split
    next iri hiri => exact (reads_of_resolveIri? ht hiri).map fun iri _ => hslot (.term (.iri iri)) trivial
    · trivial

theorem takeSubject_keeps (h : s.IsFormed) (ht : t.IsFrom text) : Keeps text (takeSubject s t) :=
  takeSlot_keeps h ht .subject .subject trivial (fun _ hslot => ⟨hslot, h⟩)
    fun _ hl => deliverLiteral_keeps h hl t.position trivial

theorem takePredicate_keeps (h : s.IsFormed) (ht : t.IsFrom text) {subject : Slot}
    (hs : subject.IsWritten) : Keeps text (takePredicate subject s t) := by
  unfold takePredicate
  split_ifs
  · exact ⟨⟨hs, trivial⟩, h⟩
  · exact takeSlot_keeps h ht .predicate (.predicate subject) hs (fun _ hslot => ⟨⟨hs, hslot⟩, h⟩)
      fun _ hl => deliverLiteral_keeps h hl t.position hs

theorem takeObject_keeps (h : s.IsFormed) (ht : t.IsFrom text) {subject predicate : Slot}
    (hplace : subject.IsWritten ∧ predicate.IsWritten) :
    Keeps text (takeObject subject predicate s t) :=
  takeSlot_keeps h ht .object (.object subject predicate) hplace
    (fun _ hslot => ⟨hplace, h.addPattern ⟨hplace.1, hplace.2, hslot⟩⟩)
    fun _ hl => deliverLiteral_keeps h hl t.position hplace

theorem takeItem_keeps (h : s.IsFormed) (ht : t.IsFrom text) : Keeps text (takeItem s t) := by
  unfold takeItem
  split_ifs
  · exact closeGroup_isFormed h
  · trivial
  · trivial
  · refine ⟨trivial, h.patterns, h.optionals, fun group hg => ?_⟩
    cases hg
    simp
  · exact ⟨trivial, h⟩
  · exact takeSubject_keeps h ht

theorem takePatternEnd_keeps (h : s.IsFormed) (ht : t.IsFrom text) : Keeps text (takePatternEnd s t) := by
  unfold takePatternEnd
  split_ifs
  · exact ⟨trivial, h⟩
  · exact takeItem_keeps h ht
  · trivial

theorem takeObjectEnd_keeps (h : s.IsFormed) (ht : t.IsFrom text) {subject predicate : Slot}
    (hplace : subject.IsWritten ∧ predicate.IsWritten) :
    Keeps text (takeObjectEnd subject predicate s t) := by
  unfold takeObjectEnd
  split_ifs
  · exact ⟨hplace, h⟩
  · exact ⟨hplace.1, h⟩
  · exact takePatternEnd_keeps h ht

theorem reads_checkPattern (call : Call) (e : Expression) :
    Reads text (fun _ => True) (call.checkPattern e) := by
  unfold Call.checkPattern
  split
  next value =>
    split
    · trivial
    next error hparse =>
      split_ifs with hmalformed
      · trivial
      · exact ⟨Bool.eq_false_iff.2 hmalformed, _, _, hparse⟩
  · trivial

theorem reads_checkFlags (call : Call) (e : Expression) :
    Reads text (fun _ => True) (call.checkFlags e) := by
  unfold Call.checkFlags
  split
  · dsimp only
    split_ifs <;> trivial
  · trivial

theorem reads_callExpression (call : Call) (arguments : List Expression) :
    Reads text (fun _ => True) (call.expression arguments) := by
  unfold Call.expression
  split
  · trivial
  · trivial
  · trivial
  · trivial
  · exact (reads_checkPattern call _).bind fun _ _ => trivial
  · exact (reads_checkFlags call _).bind fun _ _ => (reads_checkPattern call _).bind fun _ _ => trivial
  · trivial

theorem closeCall_keeps (h : s.IsFormed) (call : Call) (arguments : List Expression) (use : Use) :
    Keeps text (closeCall call arguments use s) :=
  (reads_callExpression call arguments).bind fun e _ => deliver_isFormed h e use

theorem takeOperand_keeps (h : s.IsFormed) (ht : t.IsFrom text) (before : Partial)
    (enclosing : Enclosing) : Keeps text (takeOperand before enclosing s t) := by
  unfold takeOperand
  dsimp only
  split_ifs
  · exact ⟨trivial, h⟩
  · exact ⟨trivial, h⟩
  · split
    · exact ⟨trivial, h⟩
    · trivial
  · split
    · exact ⟨trivial, h⟩
    · exact takeSlot_keeps h ht .expression (.operand before enclosing) trivial
        (fun slot _ => ⟨afterOperand_isFormed before slot.expression enclosing, h⟩)
        fun _ hl => deliverLiteral_keeps h hl t.position trivial

theorem takeConditionEnd_keeps (h : s.IsFormed) (condition : Expression) (enclosing : Enclosing) :
    Keeps text (takeConditionEnd condition enclosing s t) := by
  unfold takeConditionEnd
  split
  · split_ifs
    · exact deliver_isFormed h condition _
    · trivial
  · split_ifs
    · exact ⟨trivial, h⟩
    · exact closeCall_keeps h _ _ _
    · trivial

theorem takeOperandEnd_keeps (h : s.IsFormed) (before : Partial) (value : Expression)
    (mayCompare : Bool) (enclosing : Enclosing) :
    Keeps text (takeOperandEnd before value mayCompare enclosing s t) := by
  unfold takeOperandEnd
  split
  · exact ⟨trivial, h⟩
  · split_ifs
    · exact ⟨trivial, h⟩
    · exact ⟨trivial, h⟩
    · exact takeConditionEnd_keeps h _ enclosing

theorem takeLiteralEnd_keeps (h : s.IsFormed) (ht : t.IsFrom text) {literal : Term}
    (hl : literal.IsWritten) (position : Nat) {place : Place} (hp : place.IsFormed) :
    Keeps text (takeLiteralEnd literal position place s t) := by
  cases place with
  | subject => trivial
  | predicate subject => trivial
  | object subject predicate =>
    have hpattern : Pattern.IsWritten ⟨subject, predicate, .term literal⟩ := ⟨hp.1, hp.2, hl⟩
    exact takeObjectEnd_keeps (h.addPattern hpattern) ht hp
  | operand before enclosing =>
    have hafter := afterOperand_isFormed before (.constant literal) enclosing
    unfold takeLiteralEnd
    dsimp only
    split
    · exact takeOperandEnd_keeps h _ _ _ _
    · exact ⟨hafter, h⟩

theorem takeLiteralMark_keeps (h : s.IsFormed) (ht : t.IsFrom text) (lexical : String) (position : Nat)
    {place : Place} (hp : place.IsFormed) : Keeps text (takeLiteralMark lexical position place s t) := by
  unfold takeLiteralMark
  dsimp only
  split_ifs with htag
  · have hne := (ht (by simp [htag])).variableName_ne htag
    exact deliverLiteral_keeps h (Term.isWritten_tagged lexical (isSmallTag_lower hne)) t.position hp
  · exact ⟨hp, h⟩
  · exact takeLiteralEnd_keeps h ht (Term.isWritten_plain lexical) position hp

theorem takeDatatype_keeps (h : s.IsFormed) (ht : t.IsFrom text) (lexical : String) {place : Place}
    (hp : place.IsFormed) : Keeps text (takeDatatype lexical place s t) := by
  unfold takeDatatype
  split
  next iri hiri =>
    exact (reads_of_resolveIri? ht hiri).bind fun iri _ =>
      deliverLiteral_keeps h (isWritten_typedLiteral lexical iri) t.position hp
  · trivial

theorem takeSlices_keeps (h : s.IsFormed) : Keeps text (takeSlices s t) := by
  unfold takeSlices
  split_ifs
  · exact ⟨trivial, h⟩
  · exact ⟨trivial, h⟩
  · exact ⟨trivial, h⟩
  · trivial

theorem takeCount_keeps (h : s.IsFormed) (ht : t.IsFrom text) (slice : Slice) :
    Keeps text (takeCount slice s t) := by
  unfold takeCount
  split_ifs with hkind hdigits
  · trivial
  · trivial
  · rw [Decidable.not_not] at hkind
    have hstands := ht (by simp [hkind])
    split
    next n _ => exact ⟨trivial, h.cut slice n.toNat⟩
    next e he => exact ⟨t.text, hstands.isInfix, hstands.text_ne hkind, by simpa using hdigits, he⟩

theorem takePrologue_keeps (h : s.IsFormed) : Keeps text (takePrologue s t) := by
  unfold takePrologue
  split_ifs
  · exact ⟨trivial, h⟩
  · exact ⟨trivial, h⟩
  · exact ⟨trivial, h⟩
  · trivial

theorem takeLabel_keeps (h : s.IsFormed) : Keeps text (takeLabel s t) := by
  unfold takeLabel
  split_ifs
  · split
    · exact ⟨trivial, h⟩
    · trivial
  · trivial

theorem takeLabelIri_keeps (h : s.IsFormed) (ht : t.IsFrom text) (label : String) :
    Keeps text (takeLabelIri label s t) := by
  unfold takeLabelIri
  split_ifs with hkind
  · exact (reads_resolveReference s (ht (by simp [hkind]))).bind fun iri _ =>
      ⟨trivial, h.patterns, h.optionals, h.inner⟩
  · trivial

theorem takeBaseIri_keeps (h : s.IsFormed) (ht : t.IsFrom text) : Keeps text (takeBaseIri s t) := by
  unfold takeBaseIri
  split_ifs with hkind
  · exact (reads_resolveReference s (ht (by simp [hkind]))).bind fun iri _ =>
      ⟨trivial, h.patterns, h.optionals, h.inner⟩
  · trivial

theorem takeSelection_keeps (h : s.IsFormed) (mayBeDistinct : Bool) :
    Keeps text (takeSelection mayBeDistinct s t) := by
  unfold takeSelection
  split_ifs
  · exact ⟨trivial, h.patterns, h.optionals, h.inner⟩
  · exact ⟨trivial, h⟩
  · exact ⟨trivial, h.patterns, h.optionals, h.inner⟩
  · trivial

theorem takeGroupOpen_keeps (h : s.IsFormed) : Keeps text (takeGroupOpen s t) := by
  unfold takeGroupOpen
  split_ifs
  · exact ⟨trivial, h⟩
  · trivial

theorem takeMoreVariables_keeps (h : s.IsFormed) : Keeps text (takeMoreVariables s t) := by
  unfold takeMoreVariables
  split_ifs
  · exact ⟨trivial, h.patterns, h.optionals, h.inner⟩
  · exact ⟨trivial, h⟩
  · exact takeGroupOpen_keeps h

theorem takeItemEnd_keeps (h : s.IsFormed) (ht : t.IsFrom text) : Keeps text (takeItemEnd s t) := by
  unfold takeItemEnd
  split_ifs
  · exact ⟨trivial, h⟩
  · exact takeItem_keeps h ht

theorem takeSemicolon_keeps (h : s.IsFormed) (ht : t.IsFrom text) {subject : Slot} (hs : subject.IsWritten) :
    Keeps text (takeSemicolon subject s t) := by
  unfold takeSemicolon
  split_ifs
  · exact ⟨hs, h⟩
  · exact takePatternEnd_keeps h ht
  · exact takePredicate_keeps h ht hs

theorem takeFilter_keeps (h : s.IsFormed) : Keeps text (takeFilter s t) := by
  unfold takeFilter
  split_ifs
  · exact ⟨trivial, h⟩
  · split
    · exact ⟨trivial, h⟩
    · trivial

theorem takeCallOpen_keeps (h : s.IsFormed) (call : Call) (use : Use) :
    Keeps text (takeCallOpen call use s t) := by
  unfold takeCallOpen
  split_ifs
  · exact ⟨trivial, h⟩
  · trivial

theorem takeFirstArgument_keeps (h : s.IsFormed) (ht : t.IsFrom text) (call : Call) (use : Use) :
    Keeps text (takeFirstArgument call use s t) := by
  unfold takeFirstArgument
  split_ifs
  · exact closeCall_keeps h call [] use
  · exact takeOperand_keeps h ht _ _

theorem takeModifiers_keeps (h : s.IsFormed) : Keeps text (takeModifiers s t) := by
  unfold takeModifiers
  split_ifs
  · exact ⟨trivial, h⟩
  · exact takeSlices_keeps h

theorem takeOrderBy_keeps (h : s.IsFormed) : Keeps text (takeOrderBy s t) := by
  unfold takeOrderBy
  split_ifs
  · exact ⟨trivial, h⟩
  · trivial

theorem takeOrderConditions_keeps (h : s.IsFormed) : Keeps text (takeOrderConditions s t) := by
  unfold takeOrderConditions
  split_ifs
  · exact ⟨trivial, h⟩
  · exact ⟨trivial, h⟩
  · exact ⟨trivial, h.patterns, h.optionals, h.inner⟩
  · trivial
  · exact takeSlices_keeps h

theorem takeOrderOpen_keeps (h : s.IsFormed) (descending : Bool) :
    Keeps text (takeOrderOpen descending s t) := by
  unfold takeOrderOpen
  split_ifs
  · exact ⟨trivial, h⟩
  · trivial

theorem takeOrderVariable_keeps (h : s.IsFormed) (descending : Bool) :
    Keeps text (takeOrderVariable descending s t) := by
  unfold takeOrderVariable
  split_ifs
  · exact ⟨trivial, h.patterns, h.optionals, h.inner⟩
  · trivial

theorem takeOrderClose_keeps (h : s.IsFormed) : Keeps text (takeOrderClose s t) := by
  unfold takeOrderClose
  split_ifs
  · exact ⟨trivial, h⟩
  · trivial

/-- Whatever the machine waits for, a token keeps it formed or has a reason for an error. -/
theorem take_keeps (control : Control) (hc : control.IsFormed) (h : s.IsFormed) (ht : t.IsFrom text) :
    Keeps text (take control s t) := by
  cases control with
  | prologue => exact takePrologue_keeps h
  | label => exact takeLabel_keeps h
  | labelIri label => exact takeLabelIri_keeps h ht label
  | baseIri => exact takeBaseIri_keeps h ht
  | selection mayBeDistinct => exact takeSelection_keeps h mayBeDistinct
  | moreVariables => exact takeMoreVariables_keeps h
  | groupOpen => exact takeGroupOpen_keeps h
  | item => exact takeItem_keeps h ht
  | itemEnd => exact takeItemEnd_keeps h ht
  | emptyOptional => trivial
  | predicate subject => exact takePredicate_keeps h ht hc
  | object subject predicate => exact takeObject_keeps h ht hc
  | objectEnd subject predicate => exact takeObjectEnd_keeps h ht hc
  | semicolon subject => exact takeSemicolon_keeps h ht hc
  | literalMark lexical position place => exact takeLiteralMark_keeps h ht lexical position hc
  | datatype lexical place => exact takeDatatype_keeps h ht lexical hc
  | filter => exact takeFilter_keeps h
  | callOpen call use => exact takeCallOpen_keeps h call use
  | firstArgument call use => exact takeFirstArgument_keeps h ht call use
  | operand before enclosing => exact takeOperand_keeps h ht before enclosing
  | operandEnd before value mayCompare enclosing =>
    exact takeOperandEnd_keeps h before value mayCompare enclosing
  | modifiers => exact takeModifiers_keeps h
  | orderBy => exact takeOrderBy_keeps h
  | orderConditions => exact takeOrderConditions_keeps h
  | orderOpen descending => exact takeOrderOpen_keeps h descending
  | orderVariable descending => exact takeOrderVariable_keeps h descending
  | orderClose => exact takeOrderClose_keeps h
  | slices => exact takeSlices_keeps h
  | count slice => exact takeCount_keeps h ht slice
  | finished => trivial

theorem run_reads (control : Control) (hc : control.IsFormed) (h : s.IsFormed) (tokens : List Token)
    (ht : ∀ t ∈ tokens, t.IsFrom text) : Reads text Scope.IsFormed (run control s tokens) := by
  induction tokens generalizing control s with
  | nil => exact h
  | cons t rest ih =>
    obtain ⟨hfirst, hrest⟩ := List.forall_mem_cons.1 ht
    exact (take_keeps control hc h hfirst).bind fun state hstate => ih state.1 hstate.1 hstate.2 hrest

end

structure SelectQuery.IsWritten (q : SelectQuery) : Prop where
  patterns : ∀ p ∈ q.patterns, p.IsWritten
  optionals : ∀ group ∈ q.optionals, ∀ p ∈ group.patterns, p.IsWritten

theorem reads_checkKnown (text : List Char) (names known : List String) (clause : Clause) :
    Reads text (fun _ => True) (checkKnown names known clause) := by
  unfold checkKnown
  split <;> trivial

theorem reads_query {text : List Char} {s : Scope} (h : s.IsFormed) :
    Reads text SelectQuery.IsWritten s.query :=
  (reads_checkKnown text _ _ _).bind fun _ _ => (reads_checkKnown text _ _ _).bind fun _ _ =>
    (reads_checkKnown text _ _ _).bind fun _ _ => (reads_checkKnown text _ _ _).bind fun _ _ =>
      ⟨h.patterns, h.optionals⟩

theorem isFrom_endToken (text : List Char) (size : Nat) : (endToken size).IsFrom text :=
  fun h => absurd rfl h

theorem reads_tokens (text : String) :
    Reads text.toList (fun tokens => ∀ t ∈ tokens, t.IsFrom text.toList) (tokens text) := by
  unfold tokens
  split
  next tokens hlex =>
    exact List.forall_mem_append.2 ⟨fun t ht _ => standsIn_of_lexFrom hlex t ht,
      List.forall_mem_singleton.2 (isFrom_endToken _ _)⟩
  · trivial

/-- A query that is read holds what a document could write; a text that is not read has the reason. -/
theorem reads_parse (visible : List (String × String)) (base : Option String) (text : String) :
    Reads text.toList SelectQuery.IsWritten (parse visible base text) :=
  (reads_tokens text).bind fun tokens htokens =>
    (run_reads .prologue trivial ⟨by simp [Scope.initial], by simp [Scope.initial], by simp [Scope.initial]⟩
      tokens htokens).bind fun _ hs => reads_query hs

end Query

end CommandOntology
