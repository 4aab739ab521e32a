import CommandOntology.Proofs.AbsoluteIris
import CommandOntology.Proofs.LineForms
import CommandOntology.Proofs.QueryTokens

set_option autoImplicit false

/-!
# Queries as they are written

A query is written as words with blanks between them: terms in their line form, and conditions with no
more parentheses than they need. The words of a query that could have been read are its tokens.
-/

namespace CommandOntology.Query

open Text

def variableText (name : String) : String :=
  "?" ++ name

def referenceText (iri : String) : String :=
  "<" ++ iri ++ ">"

def Slot.text : Slot → String
  | .var name => variableText name
  | .term t => t.lineForm

def Pattern.words (p : Pattern) : List String :=
  [p.subject.text, p.predicate.text, p.object.text, "."]

def inParentheses (words : List String) : List String :=
  "(" :: words ++ [")"]

def callWords (function : FunctionName) (arguments : List (List String)) : List String :=
  function.text :: inParentheses ([","].intercalate arguments)

namespace Expression

/-- How tightly a condition holds together. Disjunctions come apart first, then conjunctions and
comparisons; everything else stays together. -/
def level : Expression → Nat
  | or .. => 0
  | and .. => 1
  | compare .. => 2
  | _ => 3

def wordsAt (least : Nat) (e : Expression) : List String :=
  let words :=
    match e with
    | var name => [variableText name]
    | constant value => [value.lineForm]
    | not operand => "!" :: operand.wordsAt 3
    | compare operator left right => left.wordsAt 3 ++ operator.text :: right.wordsAt 3
    | and left right => left.wordsAt 1 ++ "&&" :: right.wordsAt 2
    | or left right => left.wordsAt 0 ++ "||" :: right.wordsAt 1
    | bound name => callWords .bound [[variableText name]]
    | apply function operand => callWords (.apply function) [operand.wordsAt 0]
    | test kind text part => callWords (.test kind) [text.wordsAt 0, part.wordsAt 0]
    | regex text pattern => callWords .regex [text.wordsAt 0, pattern.wordsAt 0]
    | regexFlags text pattern flags =>
      callWords .regex [text.wordsAt 0, pattern.wordsAt 0, flags.wordsAt 0]
  if e.level < least then inParentheses words else words

def call? : Expression → Option (FunctionName × List Expression)
  | bound name => some (.bound, [var name])
  | apply function operand => some (.apply function, [operand])
  | test kind text part => some (.test kind, [text, part])
  | regex text pattern => some (.regex, [text, pattern])
  | regexFlags text pattern flags => some (.regex, [text, pattern, flags])
  | _ => none

def filterWords (e : Expression) : List String :=
  "FILTER" :: if e.call?.isSome then e.wordsAt 0 else inParentheses (e.wordsAt 0)

end Expression

def OptionalGroup.words (group : OptionalGroup) : List String :=
  "OPTIONAL" :: "\x7b" ::
    (group.patterns.flatMap Pattern.words ++ group.filters.flatMap Expression.filterWords ++ ["\x7d"])

def OrderCondition.words (condition : OrderCondition) : List String :=
  if condition.descending then "DESC" :: inParentheses [variableText condition.name]
  else [variableText condition.name]

def prefixWords (entry : String × String) : List String :=
  ["PREFIX", entry.1 ++ ":", referenceText entry.2]

namespace SelectQuery

def orderWords (q : SelectQuery) : List String :=
  if q.order.isEmpty then [] else "ORDER" :: "BY" :: q.order.flatMap OrderCondition.words

def sliceWords (q : SelectQuery) : List String :=
  (match q.limit with
    | some n => ["LIMIT", toString n]
    | none => []) ++
    if q.offset = 0 then [] else ["OFFSET", toString q.offset]

def bodyWords (q : SelectQuery) : List String :=
  q.prefixes.flatMap prefixWords ++ "SELECT" :: (if q.distinct then ["DISTINCT"] else []) ++
    q.projection.map variableText ++ "WHERE" :: "\x7b" :: (q.patterns.flatMap Pattern.words ++
      q.optionals.flatMap OptionalGroup.words ++ q.filters.flatMap Expression.filterWords ++ ["\x7d"]) ++
    q.orderWords

def text (q : SelectQuery) : String :=
  Text.join " " (q.bodyWords ++ q.sliceWords)

end SelectQuery

structure IsReference (iri : String) : Prop where
  isAbsolute : Iri.isAbsolute iri.toList = true
  isLegal : ∀ c ∈ iri.toList, isReferenceChar c = true

structure IsTag (tag : String) : Prop where
  isTag : Turtle.tagLength? tag.toList = some tag.toList.length
  isSmall : Text.lower tag = tag

/-- A term of the shape that queries give to terms. A text has a datatype or a language tag or neither,
and that of plain strings is left out. -/
def IsConstant : Term → Prop
  | .iri value => IsReference value
  | .blank _ => False
  | .literal _ none none => True
  | .literal _ (some datatype) none => IsReference datatype ∧ datatype ≠ Xsd.string
  | .literal _ none (some tag) => IsTag tag
  | .literal _ (some _) (some _) => False

def Slot.IsWellFormed : Slot → Prop
  | .var name => IsVariableName name.toList
  | .term t => IsConstant t

def Slot.isResource : Slot → Bool
  | .var _ => true
  | .term t => t.isResource

structure Pattern.IsWellFormed (p : Pattern) : Prop where
  subject : p.subject.IsWellFormed
  predicate : p.predicate.IsWellFormed
  object : p.object.IsWellFormed
  subjectIsResource : p.subject.isResource = true
  predicateIsResource : p.predicate.isResource = true

def Expression.IsUsablePattern (e : Expression) : Prop :=
  ∀ value, e = .constant value → ∃ pattern, Regex.parse {} value.text = .ok pattern

def Expression.IsKnownFlags (e : Expression) : Prop :=
  ∀ value, e = .constant value → ∀ c ∈ value.text.toList, isFlag c = true

def Expression.IsWellFormed : Expression → Prop
  | var name => IsVariableName name.toList
  | constant value => IsConstant value
  | not operand => operand.IsWellFormed
  | compare _ left right => left.IsWellFormed ∧ right.IsWellFormed
  | and left right => left.IsWellFormed ∧ right.IsWellFormed
  | or left right => left.IsWellFormed ∧ right.IsWellFormed
  | bound name => IsVariableName name.toList
  | apply _ operand => operand.IsWellFormed
  | test _ text part => text.IsWellFormed ∧ part.IsWellFormed
  | regex text pattern => text.IsWellFormed ∧ pattern.IsWellFormed ∧ pattern.IsUsablePattern
  | regexFlags text pattern flags => text.IsWellFormed ∧ pattern.IsWellFormed ∧ flags.IsWellFormed ∧
      pattern.IsUsablePattern ∧ flags.IsKnownFlags

structure OptionalGroup.IsWellFormed (group : OptionalGroup) : Prop where
  isNonempty : group.patterns ≠ []
  patterns : ∀ p ∈ group.patterns, p.IsWellFormed
  filters : ∀ e ∈ group.filters, e.IsWellFormed

def SelectQuery.usedNames (q : SelectQuery) : List String :=
  q.projection ++ q.filters.flatMap (·.varNames) ++
    q.optionals.flatMap (fun g => g.filters.flatMap (·.varNames)) ++ q.order.map (·.name)

/-- A query that could have been read: some variables are selected and none twice, and each that is
used occurs in a pattern. -/
structure SelectQuery.IsWellFormed (q : SelectQuery) : Prop where
  isNonempty : q.projection ≠ []
  isDistinct : q.projection.Nodup
  patterns : ∀ p ∈ q.patterns, p.IsWellFormed
  optionals : ∀ group ∈ q.optionals, group.IsWellFormed
  filters : ∀ e ∈ q.filters, e.IsWellFormed
  names : ∀ name ∈ q.usedNames,
    IsVariableName name.toList ∧ name ∈ patternVariables q.patterns q.optionals
  labels : (q.prefixes.map (·.1)).Nodup
  prefixes : ∀ entry ∈ q.prefixes, IsLabel entry.1.toList ∧ IsReference entry.2

def StandsFor (word : String) (lexemes : List Lexeme) : Prop :=
  ∀ rest others, (∀ c ∈ rest.head?, c = ' ') → Lexes rest others →
    Lexes (word.toList ++ rest) (lexemes ++ others)

def lexemesOf (word : String) : List Lexeme :=
  match lexFrom 0 0 word.toList with
  | .ok tokens => tokens.map Token.lexeme
  | .error _ => []

def Stands (word : String) : Prop :=
  StandsFor word (lexemesOf word)

theorem StandsFor.lexemesOf {word : String} {lexemes : List Lexeme} (h : StandsFor word lexemes) :
    lexemesOf word = lexemes := by
  obtain ⟨tokens, hlex, hmap⟩ := h [] [] (by simp) lexes_nil 0
  rw [List.append_nil] at hlex hmap
  rw [Query.lexemesOf, hlex, ← hmap]

theorem StandsFor.stands {word : String} {lexemes : List Lexeme} (h : StandsFor word lexemes) :
    Stands word := by
  rw [Stands, h.lexemesOf]
  exact h

/-- Words with blanks between them are cut into what each of them stands for. -/
theorem lexes_join {words : List String} (h : ∀ word ∈ words, Stands word) :
    Lexes (Text.join " " words).toList (words.flatMap lexemesOf) := by
  induction words with
  | nil => exact lexes_nil
  | cons word words ih =>
    have hword := h word List.mem_cons_self
    have hrest := ih fun w hw => h w (List.mem_cons_of_mem word hw)
    cases words with
    | nil =>
      have halone := hword [] [] (by simp) lexes_nil
      simpa [Text.join] using halone
    | cons next words =>
      have hnext := hword _ _ (by simp) (hrest.blank (c := ' ') (by decide))
      simpa [Text.join] using hnext

theorem standsFor_token {kind : TokenKind} {word : String} {c : Char} {tail : List Char}
    (hword : word.toList = c :: tail) (hlayout : isBlank c = false ∧ c ≠ '#')
    (htoken : ∀ rest : List Char, (∀ c ∈ rest.head?, c = ' ') →
      tokenLength? (c :: (tail ++ rest)) = some (kind, tail.length + 1)) :
    StandsFor word [⟨kind, word⟩] := by
  intro rest others hrest h
  have hcut := h.token (layoutLength?_eq_none _ hlayout.1 hlayout.2) (htoken rest hrest)
  rw [← hword, String.ofList_toList] at hcut
  rw [hword]
  exact hcut

theorem forall_end {P : List Char → Prop} (hend : P []) (hblank : ∀ rest, P (' ' :: rest))
    (rest : List Char) (h : ∀ c ∈ rest.head?, c = ' ') : P rest := by
  cases rest with
  | nil => exact hend
  | cons c rest => exact h c rfl ▸ hblank rest

theorem standsFor_sign : ∀ sign ∈ [(TokenKind.punctuation, "("), (.punctuation, ")"),
    (.punctuation, "\x7b"), (.punctuation, "\x7d"), (.punctuation, "."), (.punctuation, ","),
    (.operator, "!"), (.operator, "&&"), (.operator, "||"), (.operator, "="), (.operator, "!="),
    (.operator, "<"), (.operator, ">"), (.operator, "<="), (.operator, ">=")],
    StandsFor sign.2 [⟨sign.1, sign.2⟩] := by
  simp only [List.forall_mem_cons, List.not_mem_nil, false_imp_iff, implies_true, and_true]
  refine ⟨?_, ?_, ?_, ?_, ?_, ?_, ?_, ?_, ?_, ?_, ?_, ?_, ?_, ?_, ?_⟩
  all_goals exact standsFor_token rfl (by decide) (forall_end rfl fun _ => rfl)

theorem isWordChar_space : isWordChar ' ' = false := by
  decide

theorem standsFor_variable {name : String} (h : IsVariableName name.toList) :
    StandsFor (variableText name) [⟨.var, variableText name⟩] := by
  have hword : (variableText name).toList = '?' :: name.toList := by simp [variableText]
  refine standsFor_token hword (by decide) ?_
  intro rest hrest
  refine tokenLength?_of_mem_startKinds (by decide) (variableLength?_append h fun c hc => ?_)
  rw [hrest c hc, isWordChar_space]

theorem IsReference.isReferenceBody {iri : String} (h : IsReference iri) :
    IsReferenceBody iri.toList := by
  obtain ⟨scheme, rest, htext, hscheme⟩ := (Iri.isAbsolute_iff _).1 h.isAbsolute
  cases scheme with
  | nil => cases hscheme
  | cons c scheme =>
    have hletter : isAsciiLetter c = true := hscheme.1
    have hne (d : Char) (hd : isAsciiLetter d = false) : c ≠ d := by
      rintro rfl
      rw [hletter] at hd
      cases hd
    have hlegal := h.isLegal
    rw [htext] at hlegal ⊢
    refine ⟨c, scheme ++ ':' :: rest, rfl, ?_, fun d hd => hlegal d (List.mem_cons_of_mem c hd)⟩
    simp [isReferenceStart, hlegal c List.mem_cons_self, hne '?' (by decide), hne '$' (by decide),
      hne '=' (by decide)]

theorem lexes_reference {iri : String} (h : IsReference iri) (rest : List Char)
    (others : List Lexeme) (hrest : Lexes rest others) :
    Lexes ((referenceText iri).toList ++ rest) (⟨.iri, referenceText iri⟩ :: others) := by
  have htext : (referenceText iri).toList = '<' :: (iri.toList ++ ['>']) := by
    simp [referenceText]
  have htoken : tokenLength? ('<' :: ((iri.toList ++ ['>']) ++ rest)) =
      some (.iri, (iri.toList ++ ['>']).length + 1) := by
    refine tokenLength?_of_mem_startKinds (by decide) ?_
    rw [List.append_assoc, List.length_append]
    exact referenceLength?_append rest h.isReferenceBody
  have hcut := hrest.token (layoutLength?_eq_none (c := '<') _ (by decide) (by decide)) htoken
  rw [← htext, String.ofList_toList] at hcut
  rw [htext]
  exact hcut

theorem standsFor_iri {iri : String} (h : IsReference iri) :
    StandsFor (referenceText iri) [⟨.iri, referenceText iri⟩] :=
  fun rest others _ hrest => lexes_reference h rest others hrest

theorem standsFor_letters {word : String} (hne : word ≠ "")
    (h : ∀ c ∈ word.toList, isAsciiLetter c = true) : StandsFor word [⟨.word, word⟩] := by
  obtain ⟨c, tail, hword⟩ := List.exists_cons_of_ne_nil (mt String.toList_eq_nil_iff.1 hne)
  rw [hword] at h
  have hc := h c List.mem_cons_self
  have hclass (d : Char) (hd : d ∈ c :: tail) : isLabelChar d = true ∧ isWordChar d = true := by
    have halpha : isAsciiAlphanumeric d = true := by simp [isAsciiAlphanumeric, h d hd]
    have hlt := isAsciiAlphanumeric_lt d halpha
    simp [isLabelChar, isWordChar, isAlphanumeric, hlt, halpha]
  have hlt : c.toNat < 128 := isAsciiAlphanumeric_lt c (by simp [isAsciiAlphanumeric, hc])
  have hstarts : TokenKind.word.starts c = true := by simp [TokenKind.starts, isVariableStart, hc]
  refine standsFor_token hword (isBlank_of_starts hlt hstarts) fun rest hrest => ?_
  have hend : ∀ d ∈ rest.head?, isWordChar d = false ∧ isLabelChar d = false ∧ d ≠ ':' := by
    intro d hd
    rw [hrest d hd]
    decide
  refine tokenLength?_word hc (fun d hd => (hclass d (List.mem_cons_of_mem c hd)).2)
    (fun d hd => (hend d hd).1) ?_
  have hspan : spanLength isLabelChar (c :: (tail ++ rest)) = (c :: tail).length :=
    @spanLength_append_of_stop isLabelChar (c :: tail) rest (fun d hd => (hclass d hd).1) fun d hd => (hend d hd).2.1
  have hdrop : (c :: (tail ++ rest)).drop (c :: tail).length = rest := List.drop_left
  simp only [nameLength?, List.head?_cons, Option.any_some, hc, if_true, hspan, hdrop]
  refine if_neg fun hcolon => (hend ':' hcolon).2.2 rfl

theorem standsFor_label {label : String} (h : IsLabel label.toList) :
    StandsFor (label ++ ":") [⟨.name, label ++ ":"⟩] := by
  obtain ⟨c, tail, hword⟩ : ∃ c tail, label.toList ++ [':'] = c :: tail :=
    List.exists_cons_of_ne_nil (by simp)
  have hstarts : TokenKind.name.starts c = true := by
    cases hlabel : label.toList with
    | nil =>
      rw [hlabel] at hword
      obtain ⟨rfl, -⟩ := List.cons_eq_cons.1 hword
      rfl
    | cons d rest =>
      have hd := h.1 d (by rw [hlabel]; rfl)
      rw [hlabel] at hword
      obtain ⟨rfl, -⟩ := List.cons_eq_cons.1 hword
      simp [TokenKind.starts, hd]
  have hlayout := isBlank_of_starts (toNat_lt_of_starts (by decide) hstarts) hstarts
  refine standsFor_token (by simpa using hword) hlayout fun rest hrest => ?_
  have hlocal : localLength rest = 0 := by
    cases rest with
    | nil => rfl
    | cons d rest =>
      have hspace : isLocalChar ' ' = false := by decide
      simp [hrest d rfl, localLength, hspace]
  refine tokenLength?_of_mem_startKinds (by decide) ?_
  have hlength := @nameLength?_append label.toList [] rest h hlocal
  have hsize : label.toList.length = tail.length := by
    have := congrArg List.length hword
    simpa using this
  rw [← List.cons_append, ← hword, List.append_assoc]
  change nameLength? _ = _
  simpa [hsize] using hlength

theorem toList_toString_nat (n : Nat) : (toString n).toList = Nat.toDigits 10 n := by
  change (Nat.repr n).toList = _
  simp

theorem numberLength?_digits {digits rest : List Char} (hne : digits ≠ [])
    (hdigits : ∀ c ∈ digits, isAsciiDigit c = true) (hrest : ∀ c ∈ rest.head?, c = ' ') :
    numberLength? (digits ++ rest) = some digits.length := by
  have hspan : spanLength isDecimalDigit (digits ++ rest) = digits.length :=
    spanLength_append_of_stop (fun c hc => isDecimalDigit_of_isAsciiDigit c (hdigits c hc)) fun c hc => by
      rw [hrest c hc]
      rfl
  have hsign : signLength (digits ++ rest) = 0 := by
    obtain ⟨c, tail, rfl⟩ := List.exists_cons_of_ne_nil hne
    have hc := hdigits c List.mem_cons_self
    refine if_neg ?_
    rintro (h | h)
    all_goals
      cases h
      cases hc
  have hpoint : rest.head? ≠ some '.' := by
    intro h
    exact absurd (hrest '.' h) (by decide)
  have hexponent : exponentLength rest = 0 := by
    refine if_neg ?_
    rintro (h | h)
    all_goals exact absurd (hrest _ h) (by decide)
  have hlength : digits.length ≠ 0 := by simpa using hne
  simp only [numberLength?, hsign, List.drop_zero, hspan, Nat.zero_add, List.drop_left, hpoint, if_false,
    hlength, false_and, hexponent, Nat.add_zero]

theorem standsFor_count (n : Nat) : StandsFor (toString n) [⟨.number, toString n⟩] := by
  have hne : Nat.toDigits 10 n ≠ [] := Nat.toDigits_ne_nil
  have hdigits : ∀ c ∈ Nat.toDigits 10 n, isAsciiDigit c = true :=
    isAsciiDigit_of_mem_integerDigits n
  obtain ⟨c, tail, hcons⟩ := List.exists_cons_of_ne_nil hne
  have hword : (toString n).toList = c :: tail := (toList_toString_nat n).trans hcons
  rw [hcons] at hdigits
  have hc := hdigits c List.mem_cons_self
  have hlt : c.toNat < 128 := isAsciiAlphanumeric_lt c (by simp [isAsciiAlphanumeric, hc])
  have hstarts : TokenKind.number.starts c = true := by
    simp [TokenKind.starts, isDecimalDigit_of_isAsciiDigit c hc]
  refine standsFor_token hword (isBlank_of_starts hlt hstarts) fun rest hrest => ?_
  exact tokenLength?_of_mem_startKinds (by decide) (numberLength?_digits (by simp) hdigits hrest)

def markLexemes : (datatype language : Option String) → List Lexeme
  | _, some tag => [⟨.languageTag, "@" ++ tag⟩]
  | some datatype, none => [⟨.operator, "^^"⟩, ⟨.iri, referenceText datatype⟩]
  | none, none => []

theorem lexes_quotedLiteral (lexical : String) {rest : List Char} {others : List Lexeme}
    (hrest : rest.head? ≠ some '"') (h : Lexes rest others) :
    Lexes ((Term.quotedLiteral lexical).toList ++ rest)
      (⟨.string, Term.quotedLiteral lexical⟩ :: others) := by
  have hescape := Turtle.isEscaping_literalChar lexical.toList
  have htext : (Term.quotedLiteral lexical).toList =
      '"' :: (lexical.toList.flatMap Term.literalChar ++ ['"']) := by
    simp [Term.quotedLiteral]
  have htoken : tokenLength? ('"' :: ((lexical.toList.flatMap Term.literalChar ++ ['"']) ++ rest)) =
      some (.string, (lexical.toList.flatMap Term.literalChar ++ ['"']).length + 1) := by
    refine tokenLength?_of_mem_startKinds (by decide) ?_
    rw [List.append_assoc, List.length_append]
    exact textLength?_escaping hescape hrest
  have hcut := h.token (layoutLength?_eq_none (c := '"') _ (by decide) (by decide)) htoken
  rw [← htext, String.ofList_toList] at hcut
  rw [htext]
  exact hcut

theorem lexes_tag {tag : String} (htag : IsTag tag) {rest : List Char} {others : List Lexeme}
    (hrest : ∀ c ∈ rest.head?, c = ' ') (h : Lexes rest others) :
    Lexes ('@' :: (tag.toList ++ rest)) (⟨.languageTag, "@" ++ tag⟩ :: others) := by
  have hlength : Turtle.tagLength? (tag.toList ++ rest) = some tag.toList.length := by
    cases rest with
    | nil => rw [List.append_nil, htag.isTag]
    | cons c rest =>
      rw [hrest c rfl, Turtle.tagLength?_append _ _ _ Turtle.endsToken_space, htag.isTag]
  have htoken : tokenLength? ('@' :: (tag.toList ++ rest)) =
      some (.languageTag, tag.toList.length + 1) := by
    refine tokenLength?_of_mem_startKinds (by decide) ?_
    change languageTagLength? ('@' :: (tag.toList ++ rest)) = _
    rw [languageTagLength?_eq, hlength]
    rfl
  have hcut := h.token (layoutLength?_eq_none (c := '@') _ (by decide) (by decide)) htoken
  have htext : String.ofList ('@' :: tag.toList) = "@" ++ tag := by
    rw [← String.toList_inj]
    simp
  rwa [htext] at hcut

theorem lexes_datatypeSign {rest : List Char} {others : List Lexeme} (h : Lexes rest others) :
    Lexes ('^' :: '^' :: rest) (⟨.operator, "^^"⟩ :: others) := by
  have htoken : tokenLength? ('^' :: (['^'] ++ rest)) = some (.operator, 2) := rfl
  exact h.token (layoutLength?_eq_none _ (by decide) (by decide)) htoken

theorem standsFor_literal {lexical : String} {datatype language : Option String}
    (h : IsConstant (.literal lexical datatype language)) :
    StandsFor (Term.literal lexical datatype language).lineForm
      (⟨.string, Term.quotedLiteral lexical⟩ :: markLexemes datatype language) := by
  intro rest others hrest hothers
  rw [Term.lineForm, String.toList_append, List.append_assoc, List.cons_append]
  cases datatype with
  | none =>
    cases language with
    | none =>
      rw [Term.literalMark_none]
      refine lexes_quotedLiteral lexical (fun hq => ?_) hothers
      exact absurd (hrest '"' hq) (by decide)
    | some tag =>
      have htag : IsTag tag := h
      have hne : tag ≠ "" := by
        rintro rfl
        exact absurd htag.isTag (by decide)
      rw [Term.literalMark_tag none tag hne]
      refine lexes_quotedLiteral lexical (by simp) ?_
      simpa [markLexemes] using lexes_tag htag hrest hothers
  | some datatype =>
    cases language with
    | none =>
      obtain ⟨hreference, hplain⟩ : IsReference datatype ∧ datatype ≠ Xsd.string := h
      have hne : datatype ≠ "" := by
        rintro rfl
        exact absurd hreference.isAbsolute (by decide)
      rw [Term.literalMark_type datatype hne hplain]
      refine lexes_quotedLiteral lexical (by simp) ?_
      have hsign := lexes_datatypeSign (lexes_reference hreference rest others hothers)
      simpa [markLexemes, referenceText] using hsign
    | some tag => cases h

end CommandOntology.Query
