import Mathlib.Tactic.SplitIfs
import CommandOntology.Proofs.WrittenIntegers
import CommandOntology.Turtle.Document

set_option autoImplicit false

namespace CommandOntology.Turtle

open CommandOntology.Text

def Tokens.lexemes (r : Tokens) : List Lexeme :=
  r.tokens.map (·.lexeme)

def lexemesFrom (state : LexerState) : List Char → Option (List Lexeme)
  | [] => some []
  | c :: rest =>
    match state with
    | .inside (left + 1) => lexemesFrom (.inside left) rest
    | .comment => lexemesFrom (if c = '\n' then .between else .comment) rest
    | _ =>
      if isLayout c then lexemesFrom .between rest
      else if c = '#' then lexemesFrom .comment rest
      else
        match scan c rest with
        | .error _ => none
        | .ok (lexeme, n) => (lexemesFrom (.inside n) rest).map (lexeme :: ·)

def lexemes? (text : List Char) : Option (List Lexeme) :=
  lexemesFrom .between text

theorem lexemes?_cons (c : Char) (rest : List Char) : lexemes? (c :: rest) =
    if isLayout c then lexemes? rest
    else if c = '#' then lexemesFrom .comment rest
    else
      match scan c rest with
      | .error _ => none
      | .ok (lexeme, n) => (lexemesFrom (.inside n) rest).map (lexeme :: ·) :=
  rfl

theorem lexFrom_between_cons (p : Position) (c : Char) (rest : List Char) :
    lexFrom .between p (c :: rest) =
      if isLayout c then lexFrom .between (p.next c) rest
      else if c = '#' then lexFrom .comment (p.next c) rest
      else
        match scan c rest with
        | .error fault => .error (fault, p)
        | .ok (lexeme, n) =>
          (lexFrom (.inside n) (p.next c) rest).map fun r => { r with tokens := ⟨lexeme, p⟩ :: r.tokens } :=
  rfl

/-- The lexemes of a text do not depend on its place. -/
theorem lexFrom_lexemes (state : LexerState) (p : Position) (text : List Char) :
    (lexFrom state p text).toOption.map Tokens.lexemes = lexemesFrom state text := by
  induction text generalizing state p with
  | nil => rfl
  | cons c rest ih =>
    have hready (hs : state = .between ∨ state = .inside 0) :
        (lexFrom state p (c :: rest)).toOption.map Tokens.lexemes =
          lexemesFrom state (c :: rest) := by
      have hlex : lexFrom state p (c :: rest) = lexFrom .between p (c :: rest) := by
        obtain rfl | rfl := hs <;> rfl
      have hlexemes : lexemesFrom state (c :: rest) = lexemes? (c :: rest) := by
        obtain rfl | rfl := hs <;> rfl
      rw [hlex, hlexemes, lexFrom_between_cons, lexemes?_cons]
      split_ifs
      · exact ih _ _
      · exact ih _ _
      · cases scan c rest with
        | error fault => rfl
        | ok found =>
          dsimp only
          rw [← ih (.inside found.2) (p.next c)]
          cases lexFrom (.inside found.2) (p.next c) rest <;> rfl
    match state with
    | .between => exact hready (.inl rfl)
    | .inside 0 => exact hready (.inr rfl)
    | .inside (left + 1) => exact ih _ _
    | .comment => exact ih _ _

theorem lexemes?_eq_some_iff (text : List Char) (ls : List Lexeme) :
    lexemes? text = some ls ↔ ∃ r, lex text = .ok r ∧ r.tokens.map (·.lexeme) = ls := by
  rw [lexemes?, ← lexFrom_lexemes .between .start text, lex]
  cases lexFrom .between .start text <;> simp [Except.toOption, Tokens.lexemes]

theorem lexemes?_nil : lexemes? [] = some [] :=
  rfl

theorem lexemes?_layout (c : Char) (rest : List Char) (h : isLayout c = true) :
    lexemes? (c :: rest) = lexemes? rest := by
  rw [lexemes?_cons, if_pos h]

theorem lexemesFrom_inside (text rest : List Char) :
    lexemesFrom (.inside text.length) (text ++ rest) = lexemes? rest := by
  induction text with
  | nil =>
    cases rest with
    | nil => rfl
    | cons c rest => rfl
  | cons c text ih => exact ih

def startsToken (c : Char) : Bool :=
  !isLayout c && c != '#'

theorem lexemes?_token (c : Char) (text rest : List Char) (l : Lexeme) (hc : startsToken c = true)
    (h : scan c (text ++ rest) = .ok (l, text.length)) :
    lexemes? (c :: (text ++ rest)) = (lexemes? rest).map (l :: ·) := by
  simp only [startsToken, Bool.and_eq_true, Bool.not_eq_true', bne_iff_ne, ne_eq] at hc
  rw [lexemes?_cons, if_neg (by simp [hc.1]), if_neg hc.2, h]
  dsimp only
  rw [lexemesFrom_inside]

theorem lexemes?_fault (c : Char) (rest : List Char) (fault : LexicalFault) (hc : startsToken c = true)
    (h : scan c rest = .error fault) : lexemes? (c :: rest) = none := by
  simp only [startsToken, Bool.and_eq_true, Bool.not_eq_true', bne_iff_ne, ne_eq] at hc
  rw [lexemes?_cons, if_neg (by simp [hc.1]), if_neg hc.2, h]

theorem takeWhile_append_of_pos {α : Type} (p : α → Bool) (xs : List α) (y : α) (ys : List α)
    (hx : ∀ x ∈ xs, p x = true) (hy : p y = false) : (xs ++ y :: ys).takeWhile p = xs := by
  rw [List.takeWhile_append_of_pos hx, List.takeWhile_cons_of_neg (by simp [hy]), List.append_nil]

theorem spanLength_append (p : Char → Bool) (xs : List Char) (y : Char) (ys : List Char)
    (hx : ∀ x ∈ xs, p x = true) (hy : p y = false) : spanLength p (xs ++ y :: ys) = xs.length := by
  rw [spanLength, takeWhile_append_of_pos p xs y ys hx hy]

theorem lexemeText_append (text rest : List Char) :
    lexemeText (text ++ rest) text.length = String.ofList text := by
  rw [lexemeText, List.take_left]

theorem lexemes?_iri (iri rest : List Char) (h : '>' ∉ iri) :
    lexemes? ('<' :: (iri ++ '>' :: rest)) =
      if '\n' ∈ iri then none else (lexemes? rest).map (.iri (String.ofList iri) :: ·) := by
  split_ifs with hline
  · refine lexemes?_fault _ _ .unterminatedIri (by decide) ?_
    obtain ⟨before, after, rfl, hbefore⟩ := List.eq_append_cons_of_mem hline
    have hall : ∀ c ∈ before, (c != '>' && c != '\n') = true := by
      intro c hc
      simp only [Bool.and_eq_true, bne_iff_ne, ne_eq]
      exact ⟨fun he => h (he ▸ List.mem_append_left _ hc), fun he => hbefore (he ▸ hc)⟩
    change scanIri _ = _
    rw [List.append_assoc, List.cons_append, scanIri,
      spanLength_append _ before '\n' _ hall (by decide), List.drop_left]
    rfl
  · have hall : ∀ c ∈ iri, (c != '>' && c != '\n') = true := by
      intro c hc
      simp only [Bool.and_eq_true, bne_iff_ne, ne_eq]
      exact ⟨fun he => h (he ▸ hc), fun he => hline (he ▸ hc)⟩
    have hspan := spanLength_append _ iri '>' rest hall (by decide)
    have hscan : scan '<' ((iri ++ ['>']) ++ rest) =
        .ok (.iri (String.ofList iri), (iri ++ ['>']).length) := by
      rw [List.append_assoc, List.singleton_append]
      change scanIri _ = _
      rw [scanIri, hspan, List.drop_left, lexemeText_append]
      simp
    have htoken := lexemes?_token '<' _ rest _ (by decide) hscan
    rwa [List.append_assoc, List.singleton_append] at htoken

/-- A prefix that can be read: it starts with a letter, and goes on with characters of names. -/
def IsLabel (label : List Char) : Prop :=
  ∃ c rest, label = c :: rest ∧ isNameStart c = true ∧ isDigitLike c = false ∧
    ∀ d ∈ rest, isNameChar d = true

def EndsToken (c : Char) : Prop :=
  c = ' ' ∨ c = ','

theorem isNameStart_ne (c : Char) (h : isNameStart c = true) (d : Char) (hd : isNameStart d = false) :
    c ≠ d := by
  rintro rfl
  rw [h] at hd
  cases hd

theorem isNameChar_of_isNameStart (c : Char) (h : isNameStart c = true) : isNameChar c = true := by
  simp only [isNameStart, Bool.and_eq_true] at h
  simp [isNameChar, h.1.1]

theorem startsToken_of_isNameStart (c : Char) (h : isNameStart c = true) : startsToken c = true := by
  have hne := isNameStart_ne c h
  simp [startsToken, isLayout, hne ' ' (by decide), hne '\t' (by decide), hne '\r' (by decide),
    hne '\n' (by decide), hne byteOrderMark (by decide), hne '#' (by decide)]

theorem scan_eq_scanName (c : Char) (rest : List Char) (hc : isNameStart c = true)
    (hd : isDigitLike c = false) : scan c rest = scanName c rest := by
  have hne := isNameStart_ne c hc
  have hmark : Mark.ofChar? c = none := by
    unfold Mark.ofChar?
    split <;> first | rfl | exact absurd rfl (hne _ (by decide))
  rw [scan, if_neg (hne '<' (by decide)),
    if_neg (by simp [hne '"' (by decide), hne '\'' (by decide)]), if_neg (hne '@' (by decide)),
    if_neg (by simp [hne '_' (by decide)]), if_neg (hne '^' (by decide)), hmark]
  exact if_neg (by simp [hd, hne '+' (by decide), hne '-' (by decide)])

theorem localLength_append (text rest : List Char) (ht : ∀ c ∈ text, isLocalChar c = true)
    (hr : localLength rest = 0) : localLength (text ++ rest) = text.length := by
  induction text with
  | nil => exact hr
  | cons c text ih =>
    rw [List.cons_append, localLength, if_pos (by simp [ht c List.mem_cons_self]),
      ih fun d hd => ht d (List.mem_cons_of_mem c hd)]
    rfl

theorem localLength_ends (c : Char) (rest : List Char) (h : EndsToken c) :
    localLength (c :: rest) = 0 := by
  rw [localLength, if_neg]
  obtain rfl | rfl := h <;> simp [isLocalChar, isWordChar, isAlphanumeric] <;> decide

theorem labelLength?_append (label rest : List Char) (h : IsLabel label) :
    labelLength? (label ++ ':' :: rest) = some label.length := by
  obtain ⟨c, tail, rfl, hc, -, htail⟩ := h
  have hspan : spanLength isNameChar (c :: tail ++ ':' :: rest) = (c :: tail).length := by
    refine spanLength_append _ _ _ _ ?_ (by decide)
    simpa [isNameChar_of_isNameStart c hc] using htail
  simp only [labelLength?, List.cons_append, List.head?_cons, Option.any_some, hc, if_true]
  rw [← List.cons_append, hspan, List.drop_left]
  rfl

/-- A prefixed name is read if its prefix can be read and its end does not go on. -/
theorem lexemes?_name (label name rest : List Char) (hl : IsLabel label)
    (hn : ∀ c ∈ name, isLocalChar c = true) (hr : localLength rest = 0) :
    lexemes? (label ++ ':' :: (name ++ rest)) =
      (lexemes? rest).map (.name (String.ofList label) (String.ofList name) :: ·) := by
  have hlabel := labelLength?_append label (name ++ rest) hl
  obtain ⟨c, tail, rfl, hc, hdigit, htail⟩ := hl
  have hscan : scan c ((tail ++ ':' :: name) ++ rest) =
      .ok (.name (String.ofList (c :: tail)) (String.ofList name), (tail ++ ':' :: name).length) := by
    have hafter : ((tail ++ ':' :: name) ++ rest).drop (c :: tail).length = name ++ rest := by
      simp [List.drop_append]
    have hwhole : c :: ((tail ++ ':' :: name) ++ rest) = (c :: tail) ++ ':' :: (name ++ rest) := by
      simp
    rw [scan_eq_scanName c _ hc hdigit, scanName, hwhole, hlabel]
    dsimp only
    rw [hafter, localLength_append name rest hn hr, lexemeText_append, lexemeText_append]
    simp only [List.length_cons, List.length_append]
    congr 2
    omega
  have htoken := lexemes?_token c _ rest _ (startsToken_of_isNameStart c hc) hscan
  simpa using htoken

theorem lexemes?_word (c d : Char) (word rest : List Char) (hc : isAsciiLetter c = true)
    (hw : ∀ x ∈ word, isAsciiLetter x = true) (hd : EndsToken d) :
    lexemes? (c :: (word ++ d :: rest)) =
      (lexemes? (d :: rest)).map (.word (String.ofList (c :: word)) :: ·) := by
  have hletter (x : Char) (hx : isAsciiLetter x = true) :
      isNameStart x = true ∧ isDigitLike x = false ∧ isWordPart x = true := by
    have hlt : x.toNat < 128 := by
      have := (isAsciiLetter_iff x).1 hx
      omega
    have hall := forall_ascii (fun x => !isAsciiLetter x ||
      isNameStart x && !isDigitLike x && isWordPart x) (by decide) x hlt
    simpa [hx, and_assoc] using hall
  have hend : isNameChar d = false ∧ d ≠ ':' ∧ isWordPart d = false := by
    obtain rfl | rfl := hd <;> decide
  obtain ⟨hstart, hdigit, -⟩ := hletter c hc
  have hlabel : labelLength? (c :: (word ++ d :: rest)) = none := by
    have hspan : spanLength isNameChar (c :: (word ++ d :: rest)) = (c :: word).length := by
      refine spanLength_append isNameChar (c :: word) d rest ?_ hend.1
      simpa [isNameChar_of_isNameStart c hstart] using
        fun x hx => isNameChar_of_isNameStart x (hletter x (hw x hx)).1
    simp only [labelLength?, List.head?_cons, Option.any_some, hstart, if_true, hspan]
    rw [← List.cons_append, List.drop_left, List.head?_cons, if_neg (by simp [hend.2.1])]
  have hscan : scan c (word ++ d :: rest) = .ok (.word (String.ofList (c :: word)), word.length) := by
    have hpart : spanLength isWordPart (word ++ d :: rest) = word.length :=
      spanLength_append _ word d rest (fun x hx => (hletter x (hw x hx)).2.2) hend.2.2
    have htext : lexemeText (c :: (word ++ d :: rest)) (word.length + 1) = String.ofList (c :: word) :=
      lexemeText_append (c :: word) (d :: rest)
    rw [scan_eq_scanName c _ hstart hdigit, scanName, hlabel]
    simp only [isWordStart, hc, if_true, hpart, htext]
  exact lexemes?_token c word (d :: rest) _ (startsToken_of_isNameStart c hstart) hscan

theorem takeWhile_append_stop {α : Type} (p : α → Bool) (xs : List α) (y : α) (ys : List α)
    (hy : p y = false) : (xs ++ y :: ys).takeWhile p = xs.takeWhile p := by
  induction xs with
  | nil => exact List.takeWhile_cons_of_neg (by simp [hy])
  | cons x xs ih =>
    rw [List.cons_append, List.takeWhile_cons, List.takeWhile_cons, ih]

/-- A label is read if it could be read at the end of a text. -/
theorem lexemes?_blankNode (label : List Char) (d : Char) (rest : List Char)
    (h : blankLabelLength? label = some label.length) (hd : EndsToken d) :
    lexemes? ('_' :: ':' :: (label ++ d :: rest)) =
      (lexemes? (d :: rest)).map (.blankNode (String.ofList label) :: ·) := by
  have hend : isNameChar d = false := by obtain rfl | rfl := hd <;> decide
  have hlength : blankLabelLength? (label ++ d :: rest) = some label.length := by
    cases label with
    | nil => cases h
    | cons c label =>
      simpa only [blankLabelLength?, List.cons_append, takeWhile_append_stop isNameChar label d rest hend]
        using h
  have hscan : scan '_' ((':' :: label) ++ d :: rest) =
      .ok (.blankNode (String.ofList label), (':' :: label).length) := by
    change scanBlankNode (':' :: (label ++ d :: rest)) = _
    rw [scanBlankNode, List.drop_one, List.tail_cons, hlength]
    dsimp only
    rw [lexemeText_append]
    rfl
  exact lexemes?_token '_' (':' :: label) (d :: rest) _ (by decide) hscan

theorem subtagLength_append (text : List Char) (d : Char) (rest : List Char) (hd : EndsToken d) :
    subtagLength (text ++ d :: rest) = subtagLength text := by
  have hend : isAsciiAlphanumeric d = false ∧ d ≠ '-' := by obtain rfl | rfl := hd <;> decide
  induction text with
  | nil => simp [subtagLength, hend]
  | cons c text ih =>
    have hhead : ((text ++ d :: rest).head?.any isAsciiAlphanumeric) =
        (text.head?.any isAsciiAlphanumeric) := by
      cases text with
      | nil => simp [hend]
      | cons e text => rfl
    rw [List.cons_append, subtagLength, subtagLength, ih, hhead]

theorem tagLength?_append (tag : List Char) (d : Char) (rest : List Char) (hd : EndsToken d) :
    tagLength? (tag ++ d :: rest) = tagLength? tag := by
  have hend : isAsciiLetter d = false ∧ d ≠ '-' := by obtain rfl | rfl := hd <;> decide
  have hspan : spanLength isAsciiLetter (tag ++ d :: rest) = spanLength isAsciiLetter tag := by
    rw [spanLength, takeWhile_append_stop isAsciiLetter tag d rest hend.1, spanLength]
  have hle : spanLength isAsciiLetter tag ≤ tag.length := (List.takeWhile_prefix _).length_le
  rw [tagLength?, tagLength?, hspan, List.drop_append_of_le_length hle]
  have hhead : ((tag.drop (spanLength isAsciiLetter tag) ++ d :: rest).head? = some '-') =
      ((tag.drop (spanLength isAsciiLetter tag)).head? = some '-') := by
    cases tag.drop (spanLength isAsciiLetter tag) with
    | nil => simp [hend.2]
    | cons e text => rfl
  simp only [hhead, subtagLength_append _ d rest hd]

/-- A language tag is read if it could be read at the end of a text, and is no directive. -/
theorem lexemes?_languageTag (tag : List Char) (d : Char) (rest : List Char)
    (h : tagLength? tag = some tag.length) (hdirective : Directive.ofText? (String.ofList tag) = none)
    (hd : EndsToken d) : lexemes? ('@' :: (tag ++ d :: rest)) =
      (lexemes? (d :: rest)).map (.languageTag (String.ofList tag) :: ·) := by
  have hscan : scan '@' (tag ++ d :: rest) = .ok (.languageTag (String.ofList tag), tag.length) := by
    change scanTag _ = _
    rw [scanTag, tagLength?_append tag d rest hd, h]
    dsimp only
    rw [lexemeText_append, hdirective]
  exact lexemes?_token '@' tag (d :: rest) _ (by decide) hscan

theorem lexemes?_mark (c : Char) (rest : List Char) (m : Mark) (h : Mark.ofChar? c = some m) :
    lexemes? (c :: rest) = (lexemes? rest).map (.mark m :: ·) := by
  unfold Mark.ofChar? at h
  split at h
  all_goals cases h
  all_goals exact lexemes?_token _ [] rest _ (by decide) rfl

theorem lexemes?_datatype (rest : List Char) :
    lexemes? ('^' :: '^' :: rest) = (lexemes? rest).map (.mark .datatype :: ·) :=
  lexemes?_token '^' ['^'] rest _ (by decide) rfl

theorem lexemes?_prefix (rest : List Char) :
    lexemes? ("@prefix ".toList ++ rest) =
      (lexemes? rest).map (.directive .namespaceLabel :: ·) := by
  have hscan : scan '@' ("prefix".toList ++ ' ' :: rest) = .ok (.directive .namespaceLabel, 6) := by
    rfl
  rw [← lexemes?_layout ' ' rest (by decide)]
  exact lexemes?_token '@' "prefix".toList _ _ (by decide) hscan

theorem digitsLength?_append (digits : List Char) (d : Char) (rest : List Char)
    (hne : digits ≠ []) (h : ∀ c ∈ digits, isDecimalDigit c = true) (hd : isDecimalDigit d = false) :
    digitsLength? (digits ++ d :: rest) = some digits.length := by
  rw [digitsLength?, spanLength_append _ digits d rest h hd]
  exact if_neg (by simpa using hne)

/-- Digits after a sign are an integer if no point and no exponent follows. -/
theorem numberLength?_append (sign digits : List Char) (d : Char) (rest : List Char)
    (hs : sign = [] ∨ sign = ['-']) (hne : digits ≠ [])
    (h : ∀ c ∈ digits, isAsciiDigit c = true) (hd : EndsToken d) :
    numberLength? (sign ++ digits ++ d :: rest) = some (.integer, (sign ++ digits).length) := by
  have hend : isDecimalDigit d = false ∧ d ≠ '.' ∧ d ≠ 'e' ∧ d ≠ 'E' := by
    obtain rfl | rfl := hd <;> decide
  have hdecimal (c : Char) (hc : c ∈ digits) : isDecimalDigit c = true :=
    isDecimalDigit_of_isAsciiDigit c (h c hc)
  have hsign : signLength (sign ++ digits ++ d :: rest) = sign.length := by
    obtain rfl | rfl := hs
    · obtain ⟨c, tail, rfl⟩ := List.exists_cons_of_ne_nil hne
      have hc := (isAsciiDigit_iff c).1 (h c List.mem_cons_self)
      have hplus : c ≠ '+' := by rintro rfl; revert hc; decide
      have hminus : c ≠ '-' := by rintro rfl; revert hc; decide
      simp [signLength, hplus, hminus]
    · simp [signLength]
  have hdrop : (sign ++ digits ++ d :: rest).drop sign.length = digits ++ d :: rest := by
    rw [List.append_assoc, List.drop_left]
  have hspan : spanLength isDecimalDigit (digits ++ d :: rest) = digits.length :=
    spanLength_append _ digits d rest hdecimal hend.1
  have hafter : (sign ++ digits ++ d :: rest).drop (sign.length + digits.length) = d :: rest := by
    rw [← List.length_append, List.drop_left]
  have hlength : digits.length ≠ 0 := by simpa using hne
  have hdigits := digitsLength?_append digits d rest hne hdecimal hend.1
  rw [List.length_append]
  generalize sign ++ digits ++ d :: rest = text at hsign hdrop hafter
  have hdouble : doubleLength? text = none := by
    simp only [doubleLength?, hsign, hdrop, hspan, hafter, List.head?_cons, Option.some.injEq, hend,
      hlength, exponentLength?, or_self, if_false, Option.map_none]
  have hdec : decimalLength? text = none := by
    simp only [decimalLength?, hsign, hdrop, hspan, hafter, List.head?_cons, Option.some.injEq, hend,
      if_false]
  have hint : integerLength? text = some (sign.length + digits.length) := by
    rw [integerLength?, hsign, hdrop, hdigits]
    rfl
  rw [numberLength?, hdouble, hdec, hint]
  rfl

theorem scan_eq_scanNumber (c : Char) (rest : List Char) (hc : isDecimalDigit c = true ∨ c = '+' ∨ c = '-') :
    startsToken c = true ∧ scan c rest = scanNumber c rest := by
  have hne (d : Char) (hd : isDecimalDigit d = false ∧ d ≠ '+' ∧ d ≠ '-') : c ≠ d := by
    rintro rfl
    simp [hd] at hc
  have hmark : Mark.ofChar? c = none := by
    unfold Mark.ofChar?
    split <;> first | rfl | exact absurd rfl (hne _ (by decide))
  have hnumber : isDigitLike c = true ∨ c = '+' ∨ c = '-' :=
    hc.imp_left fun h => by rw [isDigitLike, h, Bool.true_or]
  refine ⟨by simp [startsToken, isLayout, hne ' ' (by decide), hne '\t' (by decide), hne '\r' (by decide),
    hne '\n' (by decide), hne byteOrderMark (by decide), hne '#' (by decide)], ?_⟩
  rw [scan, if_neg (hne '<' (by decide)), if_neg (by simp [hne '"' (by decide), hne '\'' (by decide)]),
    if_neg (hne '@' (by decide)), if_neg (by simp [hne '_' (by decide)]), if_neg (hne '^' (by decide)), hmark]
  exact if_pos hnumber

theorem lexemes?_integer (n : Int) (d : Char) (rest : List Char) (hd : EndsToken d) :
    lexemes? ((toString n).toList ++ d :: rest) =
      (lexemes? (d :: rest)).map (.number .integer (toString n) :: ·) := by
  obtain ⟨sign, hs, htext⟩ : ∃ sign, (sign = [] ∨ sign = ['-']) ∧
      (toString n).toList = sign ++ integerDigits n := by
    rw [toList_toString_int]
    split_ifs
    · exact ⟨['-'], .inr rfl, rfl⟩
    · exact ⟨[], .inl rfl, rfl⟩
  have hnumber := numberLength?_append sign (integerDigits n) d rest hs (integerDigits_ne_nil n)
    (isAsciiDigit_of_mem_integerDigits n) hd
  rw [← htext] at hnumber
  have hne : (toString n).toList ≠ [] := by
    rw [htext]
    exact List.append_ne_nil_of_right_ne_nil _ (integerDigits_ne_nil n)
  obtain ⟨c, tail, hcons⟩ := List.exists_cons_of_ne_nil hne
  have hc : isDecimalDigit c = true ∨ c = '+' ∨ c = '-' := by
    have hmem : c ∈ sign ++ integerDigits n := by rw [← htext, hcons]; exact List.mem_cons_self
    obtain h | h := List.mem_append.1 hmem
    · obtain rfl | rfl := hs
      · exact absurd h List.not_mem_nil
      · exact .inr (.inr (List.mem_singleton.1 h))
    · exact .inl (isDecimalDigit_of_isAsciiDigit c (isAsciiDigit_of_mem_integerDigits n c h))
  have hofList : String.ofList (c :: tail) = toString n := by rw [← hcons, String.ofList_toList]
  rw [hcons] at hnumber ⊢
  obtain ⟨hstart, hscan⟩ := scan_eq_scanNumber c (tail ++ d :: rest) hc
  refine lexemes?_token c tail (d :: rest) _ hstart ?_
  rw [hscan, scanNumber, ← List.cons_append, hnumber]
  dsimp only
  rw [lexemeText_append, hofList]
  rfl

end CommandOntology.Turtle
