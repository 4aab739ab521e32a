import CommandOntology.Proofs.ContainedErrors
import CommandOntology.Proofs.QuotedTexts
import CommandOntology.Proofs.TypeTags
import CommandOntology.Proofs.WrittenIntegers
import CommandOntology.Query.Parser

set_option autoImplicit false

namespace CommandOntology.Query

open Text

def TokenKind.length? : TokenKind → List Char → Option Nat
  | var => variableLength?
  | iri => referenceLength?
  | string => textLength?
  | languageTag => languageTagLength?
  | number => numberLength?
  | name => nameLength?
  | blankNode => blankNodeLength?
  | operator => operatorLength?
  | word => wordLength?
  | punctuation => punctuationLength?
  | endOfQuery => fun _ => none

theorem matchers_length? : ∀ m ∈ matchers, m.2 = m.1.length? := by
  simp [matchers, TokenKind.length?]

theorem length?_of_tokenLength? {text : List Char} {kind : TokenKind} {n : Nat}
    (h : tokenLength? text = some (kind, n)) : kind.length? text = some n := by
  obtain ⟨m, hm, hmap⟩ := List.exists_of_findSome?_eq_some h
  obtain ⟨k, hk, he⟩ := Option.map_eq_some_iff.1 hmap
  cases he
  rwa [← matchers_length? m hm]

def Token.StandsIn (text : List Char) (t : Token) : Prop :=
  ∃ rest n, rest <:+ text ∧ t.kind.length? rest = some n ∧ t.text = String.ofList (rest.take n)

theorem Token.StandsIn.cons {text : List Char} {t : Token} (h : t.StandsIn text) (c : Char) :
    t.StandsIn (c :: text) :=
  have ⟨rest, n, hrest, hn, ht⟩ := h
  ⟨rest, n, hrest.trans (List.suffix_cons c text), hn, ht⟩

theorem standsIn_of_lexFrom {skip position : Nat} {text : List Char} {tokens : List Token}
    (h : lexFrom skip position text = .ok tokens) : ∀ t ∈ tokens, t.StandsIn text := by
  fun_induction lexFrom skip position text generalizing tokens with
  | case1 =>
    cases h
    simp
  | case2 position c rest skip ih => exact fun t ht => (ih h t ht).cons c
  | case3 position c rest n _ ih => exact fun t ht => (ih h t ht).cons c
  | case4 position c rest _ kind n hlength ih =>
    obtain ⟨tokens, htokens, rfl⟩ := (map_eq_ok_iff _ _ _).1 h
    refine List.forall_mem_cons.2 ⟨?_, fun t ht => (ih htokens t ht).cons c⟩
    exact ⟨c :: rest, n, List.suffix_rfl, length?_of_tokenLength? hlength, rfl⟩
  | case5 => cases h

theorem Token.StandsIn.isInfix {text : List Char} {t : Token} (h : t.StandsIn text) :
    t.text.toList <:+: text := by
  obtain ⟨rest, n, hrest, -, ht⟩ := h
  rw [ht, String.toList_ofList]
  exact (List.take_prefix n rest).isInfix.trans hrest.isInfix

theorem languageTagLength?_spec {text : List Char} {n : Nat} (h : languageTagLength? text = some n) :
    ∃ c rest m, text = '@' :: c :: rest ∧ n = m + 2 := by
  unfold languageTagLength? at h
  split at h
  next rest =>
    dsimp only at h
    split at h
    · cases h
    next hspan =>
    cases rest with
    | nil => exact absurd rfl hspan
    | cons c rest => exact ⟨c, rest, n - 2, rfl, by have := Option.some.inj h; omega⟩
  · cases h

theorem Token.StandsIn.variableName_ne {text : List Char} {t : Token} (h : t.StandsIn text)
    (hkind : t.kind = .languageTag) : t.variableName ≠ "" := by
  obtain ⟨rest, n, -, hn, ht⟩ := h
  rw [hkind] at hn
  obtain ⟨c, rest, m, rfl, rfl⟩ := languageTagLength?_spec hn
  intro hempty
  have hnil := congrArg String.toList hempty
  simp [Token.variableName, ht] at hnil

theorem numberLength?_spec {text : List Char} {n : Nat} (h : numberLength? text = some n) :
    text ≠ [] ∧ 0 < n := by
  constructor
  · rintro rfl
    cases h
  · unfold numberLength? at h
    dsimp only at h
    split_ifs at h with hpoint hnone hnone
    · have hn := Option.some.inj h
      omega
    · have hn := Option.some.inj h
      simp only [and_true] at hnone
      omega

theorem Token.StandsIn.text_ne {text : List Char} {t : Token} (h : t.StandsIn text)
    (hkind : t.kind = .number) : t.text ≠ "" := by
  obtain ⟨rest, n, -, hn, ht⟩ := h
  rw [hkind] at hn
  obtain ⟨hrest, hpos⟩ := numberLength?_spec hn
  intro hempty
  have hnil := congrArg String.toList (ht.symm.trans hempty)
  rw [String.toList_ofList, String.toList_empty, List.take_eq_nil_iff] at hnil
  exact hnil.elim (by omega) hrest

structure Lexeme where
  kind : TokenKind
  text : String
  deriving DecidableEq, Repr

def Token.lexeme (t : Token) : Lexeme :=
  ⟨t.kind, t.text⟩

def Lexes (text : List Char) (lexemes : List Lexeme) : Prop :=
  ∀ position, ∃ tokens, lexFrom 0 position text = .ok tokens ∧ tokens.map Token.lexeme = lexemes

theorem lexes_nil : Lexes [] [] :=
  fun _ => ⟨[], rfl, rfl⟩

theorem lexFrom_skip (word rest : List Char) (position : Nat) :
    lexFrom word.length position (word ++ rest) = lexFrom 0 (position + word.length) rest := by
  induction word generalizing position with
  | nil => rfl
  | cons c word ih =>
    have hstep := ih (position + 1)
    rw [Nat.add_right_comm, Nat.add_assoc] at hstep
    exact hstep

def TokenKind.starts : TokenKind → Char → Bool
  | var, c => c == '?' || c == '$'
  | iri, c => c == '<'
  | string, c => c == '"' || c == '\''
  | languageTag, c => c == '@'
  | number, c => c == '+' || c == '-' || c == '.' || isDecimalDigit c
  | name, c => isAsciiLetter c || c == ':'
  | blankNode, c => c == '_'
  | operator, c => "^&|!=<>".toList.contains c
  | word, c => isVariableStart c
  | punctuation, c => "\x7b\x7d().;,*".toList.contains c
  | endOfQuery, _ => false

theorem numberLength?_eq_none {c : Char} (rest : List Char) (h : TokenKind.number.starts c = false) :
    numberLength? (c :: rest) = none := by
  simp only [TokenKind.starts, Bool.or_eq_false_iff, beq_eq_false_iff_ne, ne_eq] at h
  obtain ⟨⟨⟨hplus, hminus⟩, hpoint⟩, hdigit⟩ := h
  simp [numberLength?, signLength, spanLength, hplus, hminus, hpoint, hdigit]

theorem nameLength?_eq_none {c : Char} (rest : List Char) (h : TokenKind.name.starts c = false) :
    nameLength? (c :: rest) = none := by
  simp only [TokenKind.starts, Bool.or_eq_false_iff, beq_eq_false_iff_ne, ne_eq] at h
  simp [nameLength?, h]

theorem referenceLength?_eq_none {c : Char} (rest : List Char) (h : TokenKind.iri.starts c = false) :
    referenceLength? (c :: rest) = none := by
  simp only [TokenKind.starts, beq_eq_false_iff_ne, ne_eq] at h
  unfold referenceLength?
  split
  next heq => exact absurd (List.cons.inj heq).1 h
  next heq => exact absurd (List.cons.inj heq).1 h
  next => rfl

theorem operatorLength?_eq_none {c : Char} (rest : List Char) (h : TokenKind.operator.starts c = false) :
    operatorLength? (c :: rest) = none := by
  have hne : c ≠ '^' ∧ c ≠ '&' ∧ c ≠ '|' ∧ c ≠ '!' ∧ c ≠ '=' ∧ c ≠ '<' ∧ c ≠ '>' := by
    simpa [TokenKind.starts] using h
  obtain ⟨hcaret, hand, hor, hnot, hequal, hless, hgreater⟩ := hne
  unfold operatorLength?
  split
  next heq => exact absurd (List.cons.inj heq).1 hcaret
  next heq => exact absurd (List.cons.inj heq).1 hand
  next heq => exact absurd (List.cons.inj heq).1 hor
  next heq => exact absurd (List.cons.inj heq).1 hnot
  next heq => exact absurd (List.cons.inj heq).1 hless
  next heq => exact absurd (List.cons.inj heq).1 hgreater
  next heq =>
    obtain ⟨rfl, rfl⟩ := List.cons.inj heq
    exact if_neg (by simp [hequal, hless, hgreater, hnot])
  next heq => cases heq

theorem length?_eq_none {kind : TokenKind} {c : Char} (rest : List Char) (h : kind.starts c = false) :
    kind.length? (c :: rest) = none := by
  cases kind with
  | number => exact numberLength?_eq_none rest h
  | name => exact nameLength?_eq_none rest h
  | var =>
    simp only [TokenKind.starts, Bool.or_eq_false_iff, beq_eq_false_iff_ne, ne_eq] at h
    cases rest <;> simp [TokenKind.length?, variableLength?, h]
  | iri => exact referenceLength?_eq_none rest h
  | string =>
    simp only [TokenKind.starts, Bool.or_eq_false_iff, beq_eq_false_iff_ne, ne_eq] at h
    simp [TokenKind.length?, textLength?, h]
  | languageTag =>
    simp only [TokenKind.starts, beq_eq_false_iff_ne, ne_eq] at h
    simp [TokenKind.length?, languageTagLength?, h]
  | blankNode =>
    simp only [TokenKind.starts, beq_eq_false_iff_ne, ne_eq] at h
    simp [TokenKind.length?, blankNodeLength?, h]
  | operator => exact operatorLength?_eq_none rest h
  | word =>
    simp only [TokenKind.starts] at h
    simp [TokenKind.length?, wordLength?, h]
  | punctuation =>
    simp only [TokenKind.starts] at h
    simp only [TokenKind.length?, punctuationLength?, h]
    rfl
  | endOfQuery => rfl

def TokenKind.earlier (kind : TokenKind) : List TokenKind :=
  (matchers.map (·.1)).takeWhile (· != kind)

theorem tokenLength?_of_length? {kind : TokenKind} {text : List Char} {n : Nat}
    (h : kind.length? text = some n) (hearlier : ∀ k ∈ kind.earlier, k.length? text = none) :
    tokenLength? text = some (kind, n) := by
  cases kind with
  | endOfQuery => cases h
  | _ =>
    simp [TokenKind.earlier, matchers, TokenKind.length?] at h hearlier
    simp [tokenLength?, matchers, h, hearlier]

theorem toNat_lt_of_starts {kind : TokenKind} {c : Char} (hkind : kind ≠ .number)
    (h : kind.starts c = true) : c.toNat < 128 := by
  have hletter (h : isAsciiLetter c = true) : c.toNat < 128 := by
    rw [isAsciiLetter_iff] at h
    omega
  cases kind with
  | number => exact absurd rfl hkind
  | endOfQuery => cases h
  | name =>
    obtain h | h := Bool.or_eq_true_iff.1 h
    · exact hletter h
    · exact beq_iff_eq.1 h ▸ by decide
  | word =>
    obtain h | h := Bool.or_eq_true_iff.1 h
    · exact hletter h
    · exact beq_iff_eq.1 h ▸ by decide
  | operator =>
    have hall : ∀ d ∈ "^&|!=<>".toList, d.toNat < 128 := by decide
    exact hall c (List.contains_iff_mem.1 h)
  | punctuation =>
    have hall : ∀ d ∈ "\x7b\x7d().;,*".toList, d.toNat < 128 := by decide
    exact hall c (List.contains_iff_mem.1 h)
  | _ =>
    simp only [TokenKind.starts, Bool.or_eq_true, beq_iff_eq] at h
    rcases h with rfl | rfl <;> decide

def startKinds : List TokenKind :=
  [.var, .iri, .string, .languageTag, .number, .name]

theorem starts_inj {c : Char} {k l : TokenKind} (hk : k ∈ startKinds) (hl : l ∈ startKinds)
    (hck : k.starts c = true) (hcl : l.starts c = true) : k = l := by
  by_cases hc : c.toNat < 128
  · have hall := forall_ascii (fun c => startKinds.all fun k => startKinds.all fun l =>
      !k.starts c || !l.starts c || k == l) (by decide +kernel) c hc
    simp only [List.all_eq_true, Bool.or_eq_true, Bool.not_eq_true', beq_iff_eq] at hall
    simpa [hck, hcl] using hall k hk l hl
  · have hnumber (k : TokenKind) (hck : k.starts c = true) : k = .number :=
      not_not.1 fun hne => hc (toNat_lt_of_starts hne hck)
    rw [hnumber k hck, hnumber l hcl]

theorem tokenLength?_of_mem_startKinds {kind : TokenKind} {c : Char} {rest : List Char} {n : Nat}
    (hkind : kind ∈ startKinds) (h : kind.length? (c :: rest) = some n) :
    tokenLength? (c :: rest) = some (kind, n) := by
  have hstarts : kind.starts c = true := by
    by_contra hne
    rw [length?_eq_none rest (Bool.not_eq_true _ ▸ hne)] at h
    cases h
  have hearlier : ∀ k ∈ startKinds, ∀ l ∈ k.earlier, l ∈ startKinds ∧ l ≠ k := by decide
  refine tokenLength?_of_length? h fun k hk => length?_eq_none rest ?_
  obtain ⟨hmem, hne⟩ := hearlier kind hkind k hk
  exact Bool.not_eq_true _ ▸ fun hck => hne (starts_inj hmem hkind hck hstarts)

theorem layoutLength?_eq_none {c : Char} (rest : List Char) (hblank : isBlank c = false)
    (hcomment : c ≠ '#') : layoutLength? (c :: rest) = none := by
  simp [layoutLength?, blankLength?, commentLength?, spanLength, hblank, hcomment]

theorem isBlank_of_starts {kind : TokenKind} {c : Char} (hc : c.toNat < 128)
    (h : kind.starts c = true) : isBlank c = false ∧ c ≠ '#' := by
  have hall (kind : TokenKind) : ∀ n < 128, (!kind.starts (Char.ofNat n) ||
      !isBlank (Char.ofNat n) && Char.ofNat n != '#') = true := by
    cases kind <;> decide +kernel
  have hc := forall_ascii (fun c => !kind.starts c || !isBlank c && c != '#') (hall kind) c hc
  simpa [h] using hc

theorem Lexes.token {kind : TokenKind} {c : Char} {word rest : List Char} {lexemes : List Lexeme}
    (hlayout : layoutLength? (c :: (word ++ rest)) = none)
    (htoken : tokenLength? (c :: (word ++ rest)) = some (kind, word.length + 1))
    (h : Lexes rest lexemes) :
    Lexes (c :: (word ++ rest)) (⟨kind, String.ofList (c :: word)⟩ :: lexemes) := by
  intro position
  obtain ⟨tokens, hlex, hmap⟩ := h (position + 1 + word.length)
  refine ⟨⟨kind, String.ofList (c :: word), position⟩ :: tokens, ?_, by simp [Token.lexeme, hmap]⟩
  rw [lexFrom, hlayout]
  dsimp only
  rw [htoken]
  dsimp only
  rw [Nat.add_sub_cancel, lexFrom_skip, hlex, List.take_succ_cons, List.take_left]
  rfl

theorem spanLength_append_of_stop {p : Char → Bool} {text rest : List Char}
    (htext : ∀ c ∈ text, p c = true) (hrest : ∀ c ∈ rest.head?, p c = false) :
    spanLength p (text ++ rest) = text.length := by
  cases rest with
  | nil => rw [spanLength, List.takeWhile_append_of_pos htext, List.takeWhile_nil, List.append_nil]
  | cons c rest => exact Turtle.spanLength_append p text c rest htext (hrest c rfl)

theorem lexFrom_blank {c : Char} (position : Nat) (rest : List Char) (hc : isBlank c = true) :
    lexFrom 0 position (c :: rest) = lexFrom 0 (position + 1) rest := by
  have hlayout (c : Char) (rest : List Char) (hc : isBlank c = true) :
      layoutLength? (c :: rest) = some (spanLength isBlank rest + 1) := by
    simp [layoutLength?, blankLength?, spanLength, hc]
  have hskip (rest : List Char) (position : Nat) :
      lexFrom (spanLength isBlank rest) position rest = lexFrom 0 position rest := by
    cases rest with
    | nil => rfl
    | cons d rest =>
      by_cases hd : isBlank d = true
      · have hspan : spanLength isBlank (d :: rest) = spanLength isBlank rest + 1 := by
          simp [spanLength, hd]
        rw [hspan, lexFrom, lexFrom, hlayout d rest hd]
        rfl
      · rw [spanLength, List.takeWhile_cons_of_neg hd]
        rfl
  rw [lexFrom, hlayout c rest hc]
  exact hskip rest (position + 1)

theorem Lexes.blank {c : Char} {rest : List Char} {lexemes : List Lexeme} (hc : isBlank c = true)
    (h : Lexes rest lexemes) : Lexes (c :: rest) lexemes := by
  intro position
  rw [lexFrom_blank position rest hc]
  exact h (position + 1)

def IsVariableName (name : List Char) : Prop :=
  ∃ c rest, name = c :: rest ∧ isVariableStart c = true ∧ ∀ d ∈ rest, isWordChar d = true

theorem variableLength?_append {name rest : List Char} (hname : IsVariableName name)
    (hrest : ∀ c ∈ rest.head?, isWordChar c = false) :
    variableLength? ('?' :: (name ++ rest)) = some (name.length + 1) := by
  obtain ⟨c, tail, rfl, hc, htail⟩ := hname
  simp [variableLength?, hc, spanLength_append_of_stop htail hrest]

def IsReferenceBody (body : List Char) : Prop :=
  ∃ c rest, body = c :: rest ∧ isReferenceStart c = true ∧ ∀ d ∈ rest, isReferenceChar d = true

theorem isReferenceChar_close : isReferenceChar '>' = false := by
  decide

theorem referenceLength?_append {body : List Char} (rest : List Char) (hbody : IsReferenceBody body) :
    referenceLength? ('<' :: (body ++ '>' :: rest)) = some (body.length + 2) := by
  obtain ⟨c, tail, rfl, hc, htail⟩ := hbody
  have hclose : c ≠ '>' := by
    rintro rfl
    revert hc
    decide
  have hspan : spanLength isReferenceChar (tail ++ '>' :: rest) = tail.length :=
    spanLength_append_of_stop htail (by simp [isReferenceChar_close])
  rw [List.cons_append]
  unfold referenceLength?
  split
  next heq => exact absurd (List.cons.inj (List.cons.inj heq).2).1 hclose
  next heq =>
    obtain ⟨rfl, rfl⟩ := List.cons.inj (List.cons.inj heq).2
    simp [hc, hspan]
  next hother => exact absurd rfl (hother c (tail ++ '>' :: rest))

theorem shortTextLength?_quote (quote : Char) (rest : List Char) :
    shortTextLength? quote (quote :: rest) = some 1 := by
  rw [shortTextLength?.eq_def]
  exact if_pos rfl

theorem shortTextLength?_plain {quote c : Char} (rest : List Char) (hquote : c ≠ quote)
    (hline : c ≠ '\n') (hslash : c ≠ '\\') :
    shortTextLength? quote (c :: rest) = (shortTextLength? quote rest).map (· + 1) := by
  rw [shortTextLength?.eq_def]
  dsimp only
  rw [if_neg hquote, if_neg hline, if_neg hslash]

theorem shortTextLength?_escape {quote d : Char} (rest : List Char) (hquote : quote ≠ '\\')
    (hline : d ≠ '\n') :
    shortTextLength? quote ('\\' :: d :: rest) = (shortTextLength? quote rest).map (· + 2) := by
  rw [shortTextLength?, if_neg (Ne.symm hquote), if_neg (by decide), if_pos rfl, if_neg hline]

theorem shortTextLength?_escaping {escape : Char → List Char} {text : List Char} (rest : List Char)
    (h : Turtle.IsEscaping escape text) : shortTextLength? '"' (text.flatMap escape ++ '"' :: rest) =
      some ((text.flatMap escape).length + 1) := by
  induction text with
  | nil => exact shortTextLength?_quote '"' rest
  | cons c text ih =>
    have hrest := ih fun d hd => h d (List.mem_cons_of_mem c hd)
    obtain ⟨he, hslash, hquote, hline⟩ | ⟨code, he, hcode⟩ := h c List.mem_cons_self
    · rw [List.flatMap_cons, he, List.singleton_append, List.cons_append,
        shortTextLength?_plain _ hquote hline hslash, hrest]
      rfl
    · have hline : code ≠ '\n' := by
        rintro rfl
        cases hcode
      rw [List.flatMap_cons, he, List.cons_append, List.singleton_append, List.cons_append,
        List.cons_append, shortTextLength?_escape _ (by decide) hline, hrest]
      rfl

/-- A text on one line is cut off if no quote follows it. -/
theorem textLength?_escaping {escape : Char → List Char} {text rest : List Char}
    (h : Turtle.IsEscaping escape text) (hr : rest.head? ≠ some '"') :
    textLength? ('"' :: (text.flatMap escape ++ '"' :: rest)) =
      some ((text.flatMap escape).length + 2) := by
  rw [textLength?, if_pos (.inl rfl), Turtle.isPrefixOf_escaping h hr, shortTextLength?_escaping rest h]
  rfl

theorem unescapeFrom_escaping {escape : Char → List Char} {text : List Char}
    (h : Turtle.IsEscaping escape text) : unescapeFrom 0 (text.flatMap escape) = .ok text := by
  induction text with
  | nil => rfl
  | cons c text ih =>
    have hrest := ih fun d hd => h d (List.mem_cons_of_mem c hd)
    obtain ⟨he, hslash, hquote, hline⟩ | ⟨code, he, hcode⟩ := h c List.mem_cons_self
    · rw [List.flatMap_cons, he, List.singleton_append, unescapeFrom, if_neg (fun h => hslash h.1), hrest]
      rfl
    · have hline : code ≠ '\n' := by
        rintro rfl
        cases hcode
      have hread (rest : List Char) : readEscape (code :: rest) = .ok (c, 1) := by
        rw [readEscape, hcode]
      rw [List.flatMap_cons, he, List.cons_append, unescapeFrom,
        if_pos ⟨rfl, by simp, by simpa using hline⟩, List.cons_append, hread]
      change (do return c :: (← unescapeFrom 1 (code :: text.flatMap escape))) = _
      rw [unescapeFrom, hrest]
      rfl

/-- The quotes around a text are taken for single ones if it does not start with two. -/
theorem stripQuotes_short {quote : Char} {body : List Char}
    (hshort : [quote, quote].isPrefixOf (body ++ [quote]) = false) :
    stripQuotes (quote :: (body ++ [quote])) = body := by
  have hlong (other : Char) : (quote :: (body ++ [quote])).take 3 ≠ [other, other, other] := by
    intro htake
    obtain ⟨rfl, htail⟩ := List.cons_eq_cons.1 htake
    have hprefix : [quote, quote] <+: body ++ [quote] := htail ▸ List.take_prefix 2 _
    rw [List.isPrefixOf_iff_prefix.2 hprefix] at hshort
    cases hshort
  have hnot := not_or.2 ⟨hlong '"', hlong '\''⟩
  have hlength : (quote :: (body ++ [quote])).length - 1 = body.length + 1 := by simp
  simp only [stripQuotes, if_neg hnot, hlength]
  simp

theorem stripQuotes_escaping {escape : Char → List Char} {text : List Char}
    (h : Turtle.IsEscaping escape text) :
    stripQuotes ('"' :: (text.flatMap escape ++ ['"'])) = text.flatMap escape :=
  stripQuotes_short (Turtle.isPrefixOf_escaping h (by simp))

theorem subtagLength_eq (text : List Char) : subtagLength text = Turtle.subtagLength text := by
  induction text with
  | nil => rfl
  | cons c text ih => rw [subtagLength, Turtle.subtagLength, ih]

theorem languageTagLength?_eq (text : List Char) :
    languageTagLength? ('@' :: text) = (Turtle.tagLength? text).map (· + 1) := by
  simp only [languageTagLength?, Turtle.tagLength?, subtagLength_eq]
  split_ifs
  all_goals simp only [Option.map_none, Option.map_some]
  all_goals congr 1
  all_goals omega

def IsLabel (label : List Char) : Prop :=
  (∀ c ∈ label.head?, isAsciiLetter c = true) ∧ ∀ c ∈ label, isLabelChar c = true

theorem isLabelChar_colon : isLabelChar ':' = false := by
  decide

theorem nameLength?_append {label name rest : List Char} (hlabel : IsLabel label)
    (hname : localLength (name ++ rest) = name.length) :
    nameLength? (label ++ ':' :: (name ++ rest)) = some (label.length + 1 + name.length) := by
  have hspan : spanLength isLabelChar (label ++ ':' :: (name ++ rest)) = label.length :=
    spanLength_append_of_stop hlabel.2 (by simp [isLabelChar_colon])
  have hstart : (if (label ++ ':' :: (name ++ rest)).head?.any isAsciiLetter then
      spanLength isLabelChar (label ++ ':' :: (name ++ rest)) else 0) = label.length := by
    cases label with
    | nil => rfl
    | cons c label => rw [hspan]; simp [hlabel.1 c rfl]
  have hdrop : (label ++ ':' :: (name ++ rest)).drop (label.length + 1) = name ++ rest := by
    simp [List.drop_append]
  simp only [nameLength?, hstart, hdrop, hname]
  rw [List.drop_left, List.head?_cons, if_pos rfl]

theorem tokenLength?_word {c : Char} {word rest : List Char} (hc : isAsciiLetter c = true)
    (hword : ∀ d ∈ word, isWordChar d = true) (hrest : ∀ d ∈ rest.head?, isWordChar d = false)
    (hname : nameLength? (c :: (word ++ rest)) = none) :
    tokenLength? (c :: (word ++ rest)) = some (.word, word.length + 1) := by
  have hlength : wordLength? (c :: (word ++ rest)) = some (word.length + 1) := by
    simp [wordLength?, isVariableStart, hc, spanLength_append_of_stop hword hrest]
  refine tokenLength?_of_length? hlength fun k hk => ?_
  by_cases hkname : k = .name
  · exact hkname ▸ hname
  · refine length?_eq_none _ ?_
    have hlt : c.toNat < 128 := by
      rw [isAsciiLetter_iff] at hc
      omega
    have hall := forall_ascii (fun c => !isAsciiLetter c || TokenKind.word.earlier.all fun k =>
      k == .name || !k.starts c) (by decide +kernel) c hlt
    simp only [hc, Bool.not_true, Bool.false_or, List.all_eq_true, Bool.or_eq_true, beq_iff_eq,
      Bool.not_eq_true'] at hall
    exact (hall k hk).resolve_left hkname

end CommandOntology.Query
