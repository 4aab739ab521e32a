import CommandOntology.Proofs.EnclosedTexts
import CommandOntology.Proofs.ScopeContents

set_option autoImplicit false

/-!
# Texts that go on

A token ends where white space follows, or the point at the end of a statement: it is read as if the
text ended there. So what stands on a line of its own behind a text does not change how the text is cut
into tokens.
-/

namespace CommandOntology.Turtle

open CommandOntology.Text

def isSpace (c : Char) : Bool :=
  c == ' ' || c == '\t' || c == '\r' || c == '\n'

theorem isLayout_of_isSpace {c : Char} (h : isSpace c = true) : isLayout c = true := by
  rw [isSpace] at h
  rw [isLayout, h, Bool.true_or]

def Breaks : List Char → Prop
  | [] => True
  | c :: rest => isSpace c = true ∨ (c = '.' ∧ ∀ d ∈ rest.head?, isSpace d = true)

def breakChars : List Char :=
  [' ', '\t', '\r', '\n', '.']

theorem mem_breakChars_of_isSpace {c : Char} (h : isSpace c = true) : c ∈ breakChars := by
  simp only [isSpace, Bool.or_eq_true, beq_iff_eq] at h
  rcases h with ((rfl | rfl) | rfl) | rfl <;> decide

theorem Breaks.mem_breakChars {more : List Char} (h : Breaks more) :
    ∀ c ∈ more.head?, c ∈ breakChars := by
  cases more with
  | nil => simp
  | cons c more =>
    rintro _ ⟨⟩
    obtain hc | ⟨rfl, -⟩ := h
    · exact mem_breakChars_of_isSpace hc
    · decide

section

variable {more : List Char} {p : Char → Bool} {c : Char}

theorem spanLength_append_of_breaks (h : Breaks more) (hp : ∀ c ∈ breakChars, p c = false)
    (text : List Char) : spanLength p (text ++ more) = spanLength p text := by
  have hnone : more.takeWhile p = [] := by
    cases more with
    | nil => rfl
    | cons c more => exact List.takeWhile_cons_of_neg (by simp [hp c (h.mem_breakChars c rfl)])
  rw [spanLength, spanLength, List.takeWhile_append]
  split_ifs with hall
  · rw [hnone, List.append_nil, hall]
  · rfl

/-- A character that starts no break stands first in what goes on if it did before. -/
theorem head?_append_of_breaks (h : Breaks more) (hc : c ∉ breakChars) (text : List Char) :
    (text ++ more).head? = some c ↔ text.head? = some c := by
  cases text with
  | nil => exact ⟨fun hhead => absurd (h.mem_breakChars c hhead) hc, fun hhead => by cases hhead⟩
  | cons d text => exact Iff.rfl

theorem any_head?_append_of_breaks (h : Breaks more) (hp : ∀ c ∈ breakChars, p c = false)
    (text : List Char) : (text ++ more).head?.any p = text.head?.any p := by
  cases text with
  | nil =>
    cases more with
    | nil => rfl
    | cons c more => simp [hp c (h.mem_breakChars c rfl)]
  | cons d text => rfl

theorem Breaks.tail {more : List Char} (h : Breaks ('.' :: more)) : Breaks more := by
  obtain h | ⟨-, h⟩ := h
  · exact absurd h (by decide)
  · cases more with
    | nil => trivial
    | cons c more => exact .inl (h c rfl)

theorem Breaks.tail_head_ne {more : List Char} (h : Breaks ('.' :: more)) {c : Char}
    (hc : isSpace c = false) : more.head? ≠ some c := by
  obtain h | ⟨-, h⟩ := h
  · exact absurd h (by decide)
  · intro hhead
    rw [h c hhead] at hc
    cases hc

theorem spanLength_le (p : Char → Bool) (text : List Char) : spanLength p text ≤ text.length :=
  (List.takeWhile_prefix p).length_le

theorem take_spanLength (p : Char → Bool) (text : List Char) :
    text.take (spanLength p text) = text.takeWhile p :=
  (List.prefix_iff_eq_take.1 (List.takeWhile_prefix p)).symm

theorem signLength_append (h : Breaks more) (text : List Char) :
    signLength (text ++ more) = signLength text := by
  simp only [signLength, head?_append_of_breaks h (c := '+') (by decide),
    head?_append_of_breaks h (c := '-') (by decide)]

theorem signLength_le (text : List Char) : signLength text ≤ text.length := by
  cases text with
  | nil => simp [signLength]
  | cons c text =>
    rw [signLength]
    split_ifs <;> simp

theorem isDecimalDigit_of_mem_breakChars : ∀ c ∈ breakChars, isDecimalDigit c = false := by
  decide

theorem digitsLength?_append_of_breaks (h : Breaks more) (text : List Char) :
    digitsLength? (text ++ more) = digitsLength? text := by
  simp only [digitsLength?, spanLength_append_of_breaks h isDecimalDigit_of_mem_breakChars]

theorem exponentLength?_append (h : Breaks more) (text : List Char) :
    exponentLength? (text ++ more) = exponentLength? text := by
  cases text with
  | nil =>
    have hnone (c : Char) (hc : c ∉ breakChars) : more.head? ≠ some c := fun hhead =>
      hc (h.mem_breakChars c hhead)
    simp [exponentLength?, hnone 'e' (by decide), hnone 'E' (by decide)]
  | cons c text =>
    have hdrop : (c :: text ++ more).drop (1 + signLength text) =
        (c :: text).drop (1 + signLength text) ++ more :=
      List.drop_append_of_le_length (by rw [List.length_cons, Nat.add_comm]; exact Nat.succ_le_succ (signLength_le text))
    simp only [exponentLength?, List.cons_append, List.head?_cons, List.drop_succ_cons, List.drop_zero,
      signLength_append h] at hdrop ⊢
    rw [hdrop, digitsLength?_append_of_breaks h]

def wholeLength (text : List Char) : Nat :=
  signLength text + spanLength isDecimalDigit (text.drop (signLength text))

theorem wholeLength_le (text : List Char) : wholeLength text ≤ text.length := by
  have hspan := spanLength_le isDecimalDigit (text.drop (signLength text))
  have hsign := signLength_le text
  rw [List.length_drop] at hspan
  rw [wholeLength]
  omega

theorem spanLength_drop_append (h : Breaks more) (text : List Char) :
    spanLength isDecimalDigit ((text ++ more).drop (signLength text)) =
      spanLength isDecimalDigit (text.drop (signLength text)) := by
  rw [List.drop_append_of_le_length (signLength_le text),
    spanLength_append_of_breaks h isDecimalDigit_of_mem_breakChars]

def fractionLength? (rest : List Char) : Option Nat :=
  if rest.head? = some '.' then (digitsLength? (rest.drop 1)).map (1 + ·) else none

/-- The length of what follows the digits before the point of a double, given whether there are any. -/
def powerLength? (hasWhole : Bool) (rest : List Char) : Option Nat :=
  if rest.head? = some '.' then
    let part := spanLength isDecimalDigit (rest.drop 1)
    if hasWhole = false ∧ part = 0 then none else (exponentLength? (rest.drop (1 + part))).map (1 + part + ·)
  else if hasWhole = false then none
  else exponentLength? rest

theorem decimalLength?_eq (text : List Char) :
    decimalLength? text = (fractionLength? (text.drop (wholeLength text))).map (wholeLength text + ·) := by
  simp only [decimalLength?, fractionLength?, ← List.drop_drop, wholeLength]
  split_ifs
  · simp only [Option.map_map]
    congr 1
    funext n
    simp only [Function.comp]
    omega
  · rfl

theorem doubleLength?_eq (text : List Char) :
    doubleLength? text =
      (powerLength? (spanLength isDecimalDigit (text.drop (signLength text)) != 0)
        (text.drop (wholeLength text))).map (wholeLength text + ·) := by
  simp only [doubleLength?, powerLength?, ← List.drop_drop, wholeLength, bne_eq_false_iff_eq]
  split_ifs
  · rfl
  · simp only [Option.map_map]
    congr 1
    funext n
    simp only [Function.comp]
    omega
  · rfl
  · rfl

theorem fractionLength?_append (h : Breaks more) (rest : List Char) :
    fractionLength? (rest ++ more) = fractionLength? rest := by
  cases rest with
  | nil =>
    cases more with
    | nil => rfl
    | cons c more =>
      by_cases hc : c = '.'
      · subst hc
        have hdigits : digitsLength? more = none := digitsLength?_append_of_breaks h.tail []
        simp only [fractionLength?, List.nil_append, List.drop_succ_cons, List.drop_zero, hdigits,
          Option.map_none, ite_self]
        rfl
      · simp [fractionLength?, hc]
  | cons c rest =>
    simp only [fractionLength?, List.cons_append, List.head?_cons, List.drop_succ_cons, List.drop_zero,
      digitsLength?_append_of_breaks h]

theorem powerLength?_append (h : Breaks more) (hasWhole : Bool) (rest : List Char) :
    powerLength? hasWhole (rest ++ more) = powerLength? hasWhole rest := by
  have hspan {more : List Char} (h : Breaks more) (rest : List Char) :=
    spanLength_append_of_breaks h isDecimalDigit_of_mem_breakChars rest
  cases rest with
  | nil =>
    cases more with
    | nil => rfl
    | cons c more =>
      by_cases hc : c = '.'
      · subst hc
        have hpart : spanLength isDecimalDigit more = 0 := hspan h.tail []
        have hexponent : exponentLength? more = none := exponentLength?_append h.tail []
        simp only [powerLength?, List.nil_append, List.drop_succ_cons, List.drop_zero, hpart, Nat.add_zero,
          hexponent, Option.map_none, ite_self]
        cases hasWhole <;> rfl
      · have hexponent : exponentLength? (c :: more) = none := exponentLength?_append h []
        have hpoint : ([] ++ c :: more).head? ≠ some '.' := by simpa using hc
        rw [powerLength?, if_neg hpoint, List.nil_append, hexponent, ite_self]
        cases hasWhole <;> rfl
  | cons c rest =>
    have hdrop : (rest ++ more).drop (spanLength isDecimalDigit rest) =
        rest.drop (spanLength isDecimalDigit rest) ++ more :=
      List.drop_append_of_le_length (spanLength_le _ rest)
    have hwhole := exponentLength?_append h (c :: rest)
    simp only [List.cons_append] at hwhole
    simp only [powerLength?, List.cons_append, List.head?_cons, List.drop_succ_cons, List.drop_zero,
      hspan h, Nat.add_comm 1, hdrop, exponentLength?_append h, hwhole]

theorem wholeLength_append (h : Breaks more) (text : List Char) :
    wholeLength (text ++ more) = wholeLength text := by
  rw [wholeLength, signLength_append h, spanLength_drop_append h]
  rfl

theorem numberLength?_append_of_breaks (h : Breaks more) (text : List Char) :
    numberLength? (text ++ more) = numberLength? text := by
  have hrest : (text ++ more).drop (wholeLength text) = text.drop (wholeLength text) ++ more :=
    List.drop_append_of_le_length (wholeLength_le text)
  have hdouble : doubleLength? (text ++ more) = doubleLength? text := by
    rw [doubleLength?_eq, doubleLength?_eq, wholeLength_append h, signLength_append h,
      spanLength_drop_append h, hrest, powerLength?_append h]
  have hdecimal : decimalLength? (text ++ more) = decimalLength? text := by
    rw [decimalLength?_eq, decimalLength?_eq, wholeLength_append h, hrest, fractionLength?_append h]
  have hinteger : integerLength? (text ++ more) = integerLength? text := by
    simp only [integerLength?, signLength_append h, List.drop_append_of_le_length (signLength_le text),
      digitsLength?_append_of_breaks h]
  rw [numberLength?, hdouble, hdecimal, hinteger, numberLength?]

/-- The length of a run of members of a class, and of separators that each stand before a member. -/
def joinedLength (p : Char → Bool) (separator : Char) : List Char → Nat
  | [] => 0
  | c :: rest =>
    if p c || (c == separator && rest.head?.any p) then joinedLength p separator rest + 1 else 0

theorem localLength_eq_joinedLength (text : List Char) : localLength text = joinedLength isLocalChar '.' text := by
  induction text with
  | nil => rfl
  | cons c text ih => rw [localLength, joinedLength, ih]

theorem subtagLength_eq_joinedLength (text : List Char) :
    subtagLength text = joinedLength isAsciiAlphanumeric '-' text := by
  induction text with
  | nil => rfl
  | cons c text ih => rw [subtagLength, joinedLength, ih]

theorem joinedLength_append_of_breaks {separator : Char} (h : Breaks more) (hp : ∀ c ∈ breakChars, p c = false)
    (hpoint : separator ∈ breakChars → separator = '.') (text : List Char) :
    joinedLength p separator (text ++ more) = joinedLength p separator text := by
  induction text with
  | nil =>
    cases more with
    | nil => rfl
    | cons c more =>
      have hmem := h.mem_breakChars c rfl
      by_cases hc : c = separator
      · subst hc
        obtain rfl := hpoint hmem
        have hnext : more.head?.any p = false := any_head?_append_of_breaks h.tail hp []
        simp [joinedLength, hp _ hmem, hnext]
      · simp [joinedLength, hp c hmem, hc]
  | cons c text ih =>
    rw [List.cons_append, joinedLength, joinedLength, ih, any_head?_append_of_breaks h hp]

theorem subtagLength_append_of_breaks (h : Breaks more) (text : List Char) :
    subtagLength (text ++ more) = subtagLength text := by
  simp only [subtagLength_eq_joinedLength]
  exact joinedLength_append_of_breaks h (by decide) (by decide) text

theorem tagLength?_append_of_breaks (h : Breaks more) (text : List Char) :
    tagLength? (text ++ more) = tagLength? text := by
  have hspan := spanLength_append_of_breaks h (p := isAsciiLetter) (by decide) text
  rw [tagLength?, tagLength?, hspan, List.drop_append_of_le_length (spanLength_le _ text)]
  simp only [head?_append_of_breaks h (c := '-') (by decide), subtagLength_append_of_breaks h]

theorem localLength_append_of_breaks (h : Breaks more) (text : List Char) :
    localLength (text ++ more) = localLength text := by
  simp only [localLength_eq_joinedLength]
  exact joinedLength_append_of_breaks h (by decide) (fun _ => rfl) text

theorem takeWhile_append_of_breaks (h : Breaks more) (hp : ∀ c ∈ breakChars, c ≠ '.' → p c = false)
    (text : List Char) : (text ++ more).takeWhile p = text.takeWhile p ∨
      (text.takeWhile p = text ∧ (text ++ more).takeWhile p = text ++ ['.'] ∧ more.head? = some '.') := by
  rw [List.takeWhile_append]
  split_ifs with hall
  · have htext : text.takeWhile p = text := (List.takeWhile_prefix p).eq_of_length hall
    rw [htext]
    match more, h with
    | [], _ => exact .inl (by simp)
    | c :: more, h =>
      by_cases hc : p c = true
      · have hpoint : c = '.' := not_not.1 fun hne => by
          rw [hp c (h.mem_breakChars c rfl) hne] at hc
          cases hc
        subst hpoint
        have hstop : more.takeWhile p = [] := by
          obtain h | ⟨-, h⟩ := h
          · exact absurd h (by decide)
          · cases more with
            | nil => rfl
            | cons d more =>
              have hd := h d rfl
              refine List.takeWhile_cons_of_neg ?_
              rw [hp d (mem_breakChars_of_isSpace hd) (by rintro rfl; exact absurd hd (by decide))]
              simp
        exact .inr ⟨rfl, by rw [List.takeWhile_cons_of_pos hc, hstop], rfl⟩
      · exact .inl (by rw [List.takeWhile_cons_of_neg hc, List.append_nil])
  · exact .inl rfl

theorem isNameChar_of_mem_breakChars : ∀ c ∈ breakChars, c ≠ '.' → isNameChar c = false := by
  decide

theorem labelLength?_cons (c : Char) (text : List Char) :
    labelLength? (c :: text) =
      if isNameStart c then
        if ((c :: text).drop (spanLength isNameChar (c :: text))).head? = some ':' then
          some (spanLength isNameChar (c :: text))
        else none
      else if c = ':' then some 0 else none := by
  by_cases hc : isNameStart c = true
  · simp only [labelLength?, List.head?_cons, Option.any_some, hc, if_true]
  · simp [labelLength?, hc]

theorem labelLength?_append_of_breaks (h : Breaks more) (c : Char) (text : List Char) :
    labelLength? (c :: (text ++ more)) = labelLength? (c :: text) := by
  rw [labelLength?_cons, labelLength?_cons]
  congr 1
  rw [← List.cons_append]
  obtain hsame | ⟨hall, hmore, hhead⟩ :=
      takeWhile_append_of_breaks h isNameChar_of_mem_breakChars (c :: text)
  · have hle := spanLength_le isNameChar (c :: text)
    have hspan : spanLength isNameChar (c :: text ++ more) = spanLength isNameChar (c :: text) := by
      rw [spanLength, spanLength, hsame]
    rw [hspan, List.drop_append_of_le_length hle]
    simp only [head?_append_of_breaks h (c := ':') (by decide)]
  · -- A point at the end goes on with the name, but no colon comes after it.
    obtain ⟨tail, rfl⟩ : ∃ tail, more = '.' :: tail := by
      cases more with
      | nil => cases hhead
      | cons d tail =>
        cases hhead
        exact ⟨tail, rfl⟩
    have hlong : spanLength isNameChar (c :: text ++ '.' :: tail) = (c :: text ++ ['.']).length := by
      rw [spanLength, hmore]
    have hshort : spanLength isNameChar (c :: text) = (c :: text).length := by
      rw [spanLength, hall]
    have hdrop : (c :: text ++ '.' :: tail).drop (c :: text ++ ['.']).length = tail := by
      simp [List.drop_append]
    rw [hlong, hshort, hdrop, List.drop_length, if_neg (h.tail_head_ne (by decide))]
    rfl

theorem blankLabelLength?_append_of_breaks (h : Breaks more) (text : List Char) :
    blankLabelLength? (text ++ more) = blankLabelLength? text := by
  cases text with
  | nil =>
    cases more with
    | nil => rfl
    | cons c more =>
      have hall : ∀ c ∈ breakChars, isWordChar c = false := by decide
      simp [blankLabelLength?, hall c (h.mem_breakChars c rfl)]
  | cons c text =>
    rw [List.cons_append, blankLabelLength?, blankLabelLength?]
    obtain hsame | ⟨hall, hmore, -⟩ :=
        takeWhile_append_of_breaks h isNameChar_of_mem_breakChars text
    · rw [hsame]
    · rw [hmore, hall]
      simp

theorem digitsLength?_le {text : List Char} {n : Nat} (h : digitsLength? text = some n) :
    n ≤ text.length := by
  rw [digitsLength?] at h
  split_ifs at h
  cases h
  exact spanLength_le _ text

theorem exponentLength?_le {text : List Char} {n : Nat} (h : exponentLength? text = some n) :
    n ≤ text.length := by
  rw [exponentLength?] at h
  split_ifs at h with hhead
  obtain ⟨k, hk, rfl⟩ := Option.map_eq_some_iff.1 h
  have hne : text.length ≠ 0 := by
    rintro hnil
    simp [List.length_eq_zero_iff.1 hnil] at hhead
  have hle := digitsLength?_le hk
  have hsign := signLength_le (text.drop 1)
  rw [List.length_drop] at hle hsign
  omega

theorem length_of_head? {text : List Char} {c : Char} (h : text.head? = some c) : 1 ≤ text.length := by
  cases text with
  | nil => cases h
  | cons d text => simp

theorem fractionLength?_le {rest : List Char} {n : Nat} (h : fractionLength? rest = some n) :
    n ≤ rest.length := by
  rw [fractionLength?] at h
  split_ifs at h with hhead
  obtain ⟨k, hk, rfl⟩ := Option.map_eq_some_iff.1 h
  have hle := digitsLength?_le hk
  have hone := length_of_head? hhead
  rw [List.length_drop] at hle
  omega

theorem powerLength?_le {hasWhole : Bool} {rest : List Char} {n : Nat}
    (h : powerLength? hasWhole rest = some n) : n ≤ rest.length := by
  rw [powerLength?] at h
  by_cases hhead : rest.head? = some '.'
  · rw [if_pos hhead] at h
    dsimp only at h
    split_ifs at h
    obtain ⟨k, hk, rfl⟩ := Option.map_eq_some_iff.1 h
    have hle := exponentLength?_le hk
    have hone := length_of_head? hhead
    have hspan := spanLength_le isDecimalDigit (rest.drop 1)
    rw [List.length_drop] at hle hspan
    omega
  · rw [if_neg hhead] at h
    split_ifs at h
    exact exponentLength?_le h

theorem numberLength?_le {text : List Char} {kind : NumberKind} {n : Nat}
    (h : numberLength? text = some (kind, n)) : n ≤ text.length := by
  have hwhole := wholeLength_le text
  have hrest {k : Nat} (hk : k ≤ (text.drop (wholeLength text)).length) :
      wholeLength text + k ≤ text.length := by
    rw [List.length_drop] at hk
    omega
  rw [numberLength?] at h
  split at h
  · next hdouble =>
    cases h
    rw [doubleLength?_eq] at hdouble
    obtain ⟨k, hk, rfl⟩ := Option.map_eq_some_iff.1 hdouble
    exact hrest (powerLength?_le hk)
  · split at h
    · next hdecimal =>
      cases h
      rw [decimalLength?_eq] at hdecimal
      obtain ⟨k, hk, rfl⟩ := Option.map_eq_some_iff.1 hdecimal
      exact hrest (fractionLength?_le hk)
    · obtain ⟨k, hk, hpair⟩ := Option.map_eq_some_iff.1 h
      cases hpair
      obtain ⟨m, hm, rfl⟩ := Option.map_eq_some_iff.1 hk
      have hle := digitsLength?_le hm
      have hsign := signLength_le text
      rw [List.length_drop] at hle
      omega

theorem joinedLength_le (p : Char → Bool) (separator : Char) (text : List Char) :
    joinedLength p separator text ≤ text.length := by
  induction text with
  | nil => exact Nat.le_refl 0
  | cons c text ih =>
    rw [joinedLength]
    split_ifs
    · exact Nat.succ_le_succ ih
    · exact Nat.zero_le _

theorem subtagLength_le (text : List Char) : subtagLength text ≤ text.length := by
  rw [subtagLength_eq_joinedLength]
  exact joinedLength_le _ _ text

theorem localLength_le (text : List Char) : localLength text ≤ text.length := by
  rw [localLength_eq_joinedLength]
  exact joinedLength_le _ _ text

theorem tagLength?_le {text : List Char} {n : Nat} (h : tagLength? text = some n) : n ≤ text.length := by
  rw [tagLength?] at h
  have hspan := spanLength_le isAsciiLetter text
  have hsubtag := subtagLength_le (text.drop (spanLength isAsciiLetter text))
  rw [List.length_drop] at hsubtag
  split_ifs at h
  cases h
  split_ifs <;> omega

theorem blankLabelLength?_le {text : List Char} {n : Nat} (h : blankLabelLength? text = some n) :
    n ≤ text.length := by
  cases text with
  | nil => cases h
  | cons c text =>
    rw [blankLabelLength?] at h
    split_ifs at h
    cases h
    have hdrop := (List.dropWhile_suffix (· == '.') (l := (text.takeWhile isNameChar).reverse)).length_le
    have htake := (List.takeWhile_prefix isNameChar (l := text)).length_le
    rw [List.length_reverse] at hdrop
    simp only [List.length_cons]
    omega

theorem labelLength?_le {c : Char} {text : List Char} {n : Nat} (h : labelLength? (c :: text) = some n) :
    n ≤ text.length := by
  rw [labelLength?_cons] at h
  split_ifs at h with hstart hcolon
  · cases h
    have hlt : 1 ≤ ((c :: text).drop (spanLength isNameChar (c :: text))).length := length_of_head? hcolon
    rw [List.length_drop, List.length_cons] at hlt
    omega
  · cases h
    exact Nat.zero_le _

theorem lexemeText_append_of_le {text : List Char} {n : Nat} (h : n ≤ text.length) :
    lexemeText (text ++ more) n = lexemeText text n := by
  rw [lexemeText, lexemeText, List.take_append_of_le_length h]

def Stays (more rest : List Char) (scan : List Char → Except LexicalFault (Lexeme × Nat)) : Prop :=
  ∀ l n, scan rest = .ok (l, n) → n ≤ rest.length ∧ scan (rest ++ more) = .ok (l, n)

variable {rest : List Char}

theorem stays_scanIri (more rest : List Char) : Stays more rest scanIri := by
  intro l n h
  rw [scanIri] at h
  split_ifs at h with hclose
  cases h
  obtain ⟨tail, htail⟩ : ∃ tail, rest.drop (spanLength (fun c => c != '>' && c != '\n') rest) = '>' :: tail := by
    cases hdrop : rest.drop (spanLength (fun c => c != '>' && c != '\n') rest) with
    | nil => simp [hdrop] at hclose
    | cons c tail =>
      rw [hdrop] at hclose
      cases hclose
      exact ⟨tail, rfl⟩
  have hlen := congrArg List.length htail
  rw [List.length_drop, List.length_cons] at hlen
  have hle : spanLength (fun c => c != '>' && c != '\n') rest ≤ rest.length := spanLength_le _ rest
  have hspan : spanLength (fun c => c != '>' && c != '\n') (rest ++ more) =
      spanLength (fun c => c != '>' && c != '\n') rest := by
    rw [spanLength, spanLength, List.takeWhile_append, if_neg]
    intro hall
    rw [spanLength] at hlen
    omega
  refine ⟨by omega, ?_⟩
  rw [scanIri, hspan, List.drop_append_of_le_length hle, htail, lexemeText_append_of_le hle]
  rfl

theorem Breaks.head_ne_quote (h : Breaks more) {quote : Char} (hquote : quote = '"' ∨ quote = '\'') :
    more.head? ≠ some quote := by
  intro hhead
  have hmem := h.mem_breakChars quote hhead
  obtain rfl | rfl := hquote <;> exact absurd hmem (by decide)

theorem stays_scanText {quote : Char} (hquote : quote = '"' ∨ quote = '\'')
    (hmore : more.head? ≠ some quote) (rest : List Char) : Stays more rest (scanText quote) := by
  intro l n h
  obtain ⟨written, tail, chars, hrest, rfl, rfl, hquoted⟩ := exists_of_scanText h
  have hlong : [quote, quote].isPrefixOf (written ++ (tail ++ more)) = [quote, quote].isPrefixOf rest := by
    rw [← List.append_assoc, ← hrest, isPrefixOf_append_of_head quote rest hmore]
  have hscan := scanText_of_isQuoted hquoted (Query.quote_cases hquote).2 hlong
  rw [← List.append_assoc, ← hrest] at hscan
  exact ⟨by rw [hrest, List.length_append]; exact Nat.le_add_right _ _, hscan⟩

theorem stays_scanTag (h : Breaks more) (rest : List Char) : Stays more rest scanTag := by
  intro l n hscan
  rw [scanTag] at hscan ⊢
  rw [tagLength?_append_of_breaks h]
  split at hscan
  · cases hscan
  · next m hm =>
    dsimp only at hscan ⊢
    rw [lexemeText_append_of_le (tagLength?_le hm)]
    refine ⟨?_, hscan⟩
    split at hscan
    all_goals
      cases hscan
      exact tagLength?_le hm

theorem stays_scanBlankNode (h : Breaks more) (rest : List Char) (hrest : rest.head? = some ':') :
    Stays more rest scanBlankNode := by
  intro l n hscan
  obtain ⟨tail, rfl⟩ : ∃ tail, rest = ':' :: tail := by
    cases rest with
    | nil => cases hrest
    | cons c tail =>
      cases hrest
      exact ⟨tail, rfl⟩
  simp only [scanBlankNode, List.cons_append, List.drop_succ_cons, List.drop_zero,
    blankLabelLength?_append_of_breaks h] at hscan ⊢
  cases hlabel : blankLabelLength? tail with
  | none =>
    rw [hlabel] at hscan
    cases hscan
  | some m =>
    have hle := blankLabelLength?_le hlabel
    rw [hlabel] at hscan
    cases hscan
    dsimp only
    rw [lexemeText_append_of_le hle]
    exact ⟨Nat.succ_le_succ hle, rfl⟩

theorem stays_scanNumber (h : Breaks more) (c : Char) (rest : List Char) :
    Stays more rest (scanNumber c) := by
  intro l n hscan
  rw [scanNumber] at hscan ⊢
  rw [← List.cons_append, numberLength?_append_of_breaks h]
  split at hscan
  · next kind m hm =>
    have hle := numberLength?_le hm
    cases hscan
    rw [lexemeText_append_of_le hle]
    exact ⟨by rw [List.length_cons] at hle; omega, rfl⟩
  · cases hscan

theorem stays_scanName (h : Breaks more) (c : Char) (rest : List Char) :
    Stays more rest (scanName c) := by
  intro l n hscan
  rw [scanName] at hscan ⊢
  rw [labelLength?_append_of_breaks h]
  split at hscan
  · next m hm =>
    have hle := labelLength?_le hm
    have hlocal := localLength_le (rest.drop m)
    cases hscan
    dsimp only
    rw [List.drop_append_of_le_length hle, localLength_append_of_breaks h, lexemeText_append_of_le hlocal,
      ← List.cons_append, lexemeText_append_of_le (Nat.le_succ_of_le hle)]
    rw [List.length_drop] at hlocal
    exact ⟨by omega, rfl⟩
  · dsimp only at hscan ⊢
    split_ifs at hscan with hstart
    cases hscan
    have hle := spanLength_le isWordPart rest
    rw [if_pos hstart, spanLength_append_of_breaks h (by decide), ← List.cons_append,
      lexemeText_append_of_le (Nat.succ_le_succ hle)]
    exact ⟨hle, rfl⟩

/-- A token that is read in a text is read where the text goes on behind a break. -/
theorem stays_scan (h : Breaks more) (c : Char) (rest : List Char) : Stays more rest (scan c) := by
  intro l n hscan
  rw [scan] at hscan ⊢
  by_cases hiri : c = '<'
  · rw [if_pos hiri] at hscan ⊢
    exact stays_scanIri more rest l n hscan
  rw [if_neg hiri] at hscan ⊢
  by_cases hquote : c = '"' ∨ c = '\''
  · rw [if_pos hquote] at hscan ⊢
    exact stays_scanText hquote (h.head_ne_quote hquote) rest l n hscan
  rw [if_neg hquote] at hscan ⊢
  by_cases htag : c = '@'
  · rw [if_pos htag] at hscan ⊢
    exact stays_scanTag h rest l n hscan
  rw [if_neg htag] at hscan ⊢
  simp only [head?_append_of_breaks h (c := ':') (by decide), head?_append_of_breaks h (c := '^') (by decide)]
  by_cases hblank : c = '_' ∧ rest.head? = some ':'
  · rw [if_pos hblank] at hscan ⊢
    exact stays_scanBlankNode h rest hblank.2 l n hscan
  rw [if_neg hblank] at hscan ⊢
  by_cases htype : c = '^'
  · rw [if_pos htype] at hscan ⊢
    split_ifs at hscan ⊢ with hnext
    cases hscan
    exact ⟨length_of_head? hnext, rfl⟩
  rw [if_neg htype] at hscan ⊢
  cases hmark : Mark.ofChar? c with
  | some m =>
    rw [hmark] at hscan
    cases hscan
    exact ⟨Nat.zero_le _, rfl⟩
  | none =>
    rw [hmark] at hscan
    dsimp only at hscan ⊢
    split_ifs at hscan ⊢
    · exact stays_scanNumber h c rest l n hscan
    · exact stays_scanName h c rest l n hscan

end

def LexerState.Fits (state : LexerState) (text : List Char) : Prop :=
  ∀ left, state = .inside left → left ≤ text.length

theorem breaks_line (rest : List Char) : Breaks ('\n' :: rest) :=
  .inl (by decide)

/-- A text that goes on with a line of its own is cut into its own tokens and those of the line. -/
theorem lexFrom_append_line (rest : List Char) {state : LexerState} {p stop : Position} {text : List Char}
    {tokens : List Token} (hstate : state.Fits text) (h : lexFrom state p text = .ok ⟨tokens, stop⟩) :
    lexFrom state p (text ++ '\n' :: rest) =
      (lexFrom .between (stop.next '\n') rest).map fun r => { r with tokens := tokens ++ r.tokens } := by
  have hid {x : Except (LexicalFault × Position) Tokens} :
      x = x.map fun r => { r with tokens := [] ++ r.tokens } := by
    cases x <;> rfl
  -- Where a token starts, it is the same one in the longer text, since the line end breaks it off.
  induction text generalizing state p tokens with
  | nil =>
    cases h
    match state, hstate with
    | .between, _ => exact hid
    | .comment, _ => exact hid
    | .inside 0, _ => exact hid
    | .inside (left + 1), hstate => exact absurd (hstate _ rfl) (by simp)
  | cons c text ih =>
    have hready (hs : state = .between ∨ state = .inside 0) :
        lexFrom state p (c :: text ++ '\n' :: rest) =
          (lexFrom .between (stop.next '\n') rest).map fun r => { r with tokens := tokens ++ r.tokens } := by
      have hlex (text : List Char) : lexFrom state p (c :: text) = lexFrom .between p (c :: text) := by
        obtain rfl | rfl := hs <;> rfl
      rw [hlex, lexFrom_between_cons] at h
      rw [List.cons_append, hlex, lexFrom_between_cons]
      split_ifs at h ⊢
      · exact ih (fun _ hs => by cases hs) h
      · exact ih (fun _ hs => by cases hs) h
      · cases hscan : scan c text with
        | error fault =>
          rw [hscan] at h
          cases h
        | ok found =>
          obtain ⟨hle, hmore⟩ := stays_scan (breaks_line rest) c text found.1 found.2 hscan
          rw [hscan] at h
          rw [hmore]
          obtain ⟨tail, htail, hfound⟩ := (map_eq_ok_iff _ _ _).1 h
          cases hfound
          dsimp only
          rw [ih (fun _ hs => by cases hs; exact hle) htail]
          generalize lexFrom .between (tail.stop.next '\n') rest = last
          cases last <;> rfl
    match state, hstate, h, hready with
    | .between, _, _, hready => exact hready (.inl rfl)
    | .inside 0, _, _, hready => exact hready (.inr rfl)
    | .inside (left + 1), hstate, h, _ =>
      exact ih (fun _ hs => by cases hs; exact Nat.le_of_succ_le_succ (hstate _ rfl)) h
    | .comment, _, h, _ =>
      refine ih (fun _ hs => ?_) h
      split_ifs at hs

end CommandOntology.Turtle
