import CommandOntology.Proofs.QueryTokens
import CommandOntology.Query.Machine

set_option autoImplicit false

namespace CommandOntology.Text

inductive IsEscape : List Char → Char → Prop
  | letter {code c : Char} (h : escapedChar? code = some c) : IsEscape [code] c
  | numeric {code : Char} {digits : List Char} {value : Nat} (hcode : escapedChar? code = none)
      (hlength : numericEscapeLength? code = some digits.length)
      (hvalue : numericEscape? digits.length digits = some value) (hle : value ≤ 0x10ffff) :
      IsEscape (code :: digits) (Char.ofNat value)

theorem numericEscape?_append (digits rest : List Char) :
    numericEscape? digits.length (digits ++ rest) = numericEscape? digits.length digits := by
  rw [numericEscape?, numericEscape?, List.take_left, List.take_length]

theorem IsEscape.readEscape {written : List Char} {c : Char} (h : IsEscape written c)
    (rest : List Char) : readEscape (written ++ rest) = .ok (c, written.length) := by
  cases h with
  | letter h => simp [Text.readEscape, h]
  | numeric hcode hlength hvalue hle =>
    rw [List.cons_append, Text.readEscape, hcode, hlength]
    simp [numericEscape?_append, hvalue, Nat.not_lt.2 hle]

theorem exists_of_readEscape {text : List Char} {c : Char} {n : Nat} (h : readEscape text = .ok (c, n)) :
    ∃ written rest, text = written ++ rest ∧ IsEscape written c ∧ n = written.length := by
  cases text with
  | nil => cases h
  | cons code rest =>
    rw [readEscape] at h
    split at h
    · next hcode =>
      cases h
      exact ⟨[code], rest, rfl, .letter hcode, rfl⟩
    · next hcode =>
      split at h
      · next value length hvalue =>
        split_ifs at h with hlarge
        cases h
        obtain ⟨_, hlength, hvalue⟩ := Option.bind_eq_some_iff.1 hvalue
        obtain ⟨_, hvalue, hpair⟩ := Option.map_eq_some_iff.1 hvalue
        cases hpair
        obtain ⟨digits, tail, rfl, rfl⟩ : ∃ digits tail, rest = digits ++ tail ∧ digits.length = length := by
          refine ⟨rest.take length, rest.drop length, (List.take_append_drop ..).symm, ?_⟩
          rw [numericEscape?] at hvalue
          split_ifs at hvalue with hall
          exact hall.1
        rw [numericEscape?_append] at hvalue
        exact ⟨code :: digits, tail, rfl, .numeric hcode hlength hvalue (Nat.not_lt.1 hlarge), rfl⟩
      · cases h

theorem IsEscape.exists_cons {written : List Char} {c : Char} (h : IsEscape written c) :
    ∃ code digits, written = code :: digits ∧ code ≠ '\n' ∧ ∀ d ∈ digits, isHexDigit d = true := by
  cases h with
  | @letter code c h =>
    refine ⟨code, [], rfl, ?_, by simp⟩
    rintro rfl
    cases h
  | @numeric code digits value hcode hlength hvalue =>
    refine ⟨code, digits, rfl, ?_, ?_⟩
    · rintro rfl
      cases hlength
    · rw [numericEscape?] at hvalue
      split_ifs at hvalue with hall
      simpa using hall.2

/-- The code points that escapes give by digits, in what a quoted text is written as. A backslash that is escaped
opens no escape. -/
def codePoints : List Char → List Nat
  | '\\' :: '\\' :: rest => codePoints rest
  | '\\' :: code :: rest =>
    ((numericEscapeLength? code).bind fun n => numericEscape? n rest).toList ++ codePoints rest
  | _ :: rest => codePoints rest
  | [] => []

theorem codePoints_eq_nil {text : List Char} (h : '\\' ∉ text) : codePoints text = [] := by
  fun_induction codePoints text with
  | case1 => simp at h
  | case2 => simp at h
  | case3 c rest _ _ ih => exact ih (List.not_mem_of_not_mem_cons h)
  | case4 => rfl

end CommandOntology.Text

namespace CommandOntology.Turtle

open CommandOntology.Text

def closingQuotes (quote : Char) (isLong : Bool) : List Char :=
  if isLong then [quote, quote, quote] else [quote]

/-- What stands between quotes, and the characters that it stands for. -/
inductive IsBody (quote : Char) (isLong : Bool) : List Char → List Char → Prop
  | nil : IsBody quote isLong [] []
  | plain {c : Char} {body chars : List Char}
      (hend : endsText quote isLong (c :: (body ++ closingQuotes quote isLong)) = false)
      (hline : c = '\n' → isLong = true) (hslash : c ≠ '\\') (h : IsBody quote isLong body chars) :
      IsBody quote isLong (c :: body) (c :: chars)
  | escape {written : List Char} {c : Char} {body chars : List Char} (hescape : IsEscape written c)
      (h : IsBody quote isLong body chars) :
      IsBody quote isLong ('\\' :: (written ++ body)) (c :: chars)

section

variable {quote : Char} {isLong : Bool} {body chars : List Char}

theorem endsText_closingQuotes (rest : List Char) :
    endsText quote isLong (closingQuotes quote isLong ++ rest) = true := by
  cases isLong <;> simp [endsText, closingQuotes]

/-- Whether a text ends at a place is told by what stands before the end. -/
theorem endsText_append (c : Char) (rest : List Char) :
    endsText quote isLong (c :: (body ++ closingQuotes quote isLong ++ rest)) =
      endsText quote isLong (c :: (body ++ closingQuotes quote isLong)) := by
  have hprefix {start text : List Char} (h : start.length ≤ text.length) :
      start.isPrefixOf (text ++ rest) = start.isPrefixOf text := by
    rw [Bool.eq_iff_iff, List.isPrefixOf_iff_prefix, List.isPrefixOf_iff_prefix]
    exact ⟨fun hs => List.prefix_of_prefix_length_le hs (List.prefix_append text rest) h,
      fun hs => hs.trans (List.prefix_append text rest)⟩
  rw [← List.cons_append]
  refine hprefix ?_
  cases isLong <;> simp [closingQuotes]

theorem endsText_of_ne_quote {c : Char} (rest : List Char) (h : c ≠ quote) :
    endsText quote isLong (c :: rest) = false := by
  cases isLong <;> exact isPrefixOf_cons_of_ne _ _ _ _ h

theorem readText_skip (skip offset : Nat) (text : List Char) :
    readText quote isLong skip offset text = readText quote isLong 0 (offset + skip) (text.drop skip) := by
  induction text generalizing skip offset with
  | nil => cases skip <;> rfl
  | cons c text ih =>
    cases skip with
    | zero => rfl
    | succ skip =>
      rw [List.drop_succ_cons, ← Nat.add_assoc, Nat.add_right_comm]
      exact ih skip (offset + 1)

theorem length_closingQuotes :
    (closingQuotes quote isLong).length = if isLong then 3 else 1 := by
  cases isLong <;> rfl

theorem readText_closingQuotes (offset : Nat) (rest : List Char) :
    readText quote isLong 0 offset (closingQuotes quote isLong ++ rest) =
      .ok ([], offset + (closingQuotes quote isLong).length) := by
  have hend : endsText quote isLong (closingQuotes quote isLong ++ rest) = true :=
    endsText_closingQuotes rest
  cases isLong
  all_goals
    rw [length_closingQuotes]
    simp only [closingQuotes] at hend ⊢
    exact if_pos hend

theorem IsBody.readText (h : IsBody quote isLong body chars) (hquote : quote ≠ '\\') (offset : Nat)
    (rest : List Char) :
    readText quote isLong 0 offset (body ++ closingQuotes quote isLong ++ rest) =
      .ok (chars, offset + body.length + (closingQuotes quote isLong).length) := by
  induction h generalizing offset with
  | nil => exact readText_closingQuotes offset rest
  | @plain c body chars hend hline hslash h ih =>
    have hbreak : ¬(c = '\n' ∧ (!isLong) = true) := by
      rintro ⟨hc, hl⟩
      simp [hline hc] at hl
    have hstep := ih (offset + 1)
    rw [List.cons_append, List.cons_append, Turtle.readText, endsText_append, hend, if_neg (by simp),
      if_neg hbreak, if_neg hslash, hstep, List.length_cons, Nat.add_right_comm offset 1, Nat.add_assoc offset]
    rfl
  | @escape written c body chars hescape h ih =>
    have hstep := ih (offset + 1 + written.length)
    have hread : Turtle.readEscape offset (written ++ (body ++ closingQuotes quote isLong ++ rest)) =
        .ok (c, written.length) := by
      rw [Turtle.readEscape, hescape.readEscape]
    rw [List.cons_append, List.cons_append, List.append_assoc, List.append_assoc, ← List.append_assoc body,
      Turtle.readText, endsText_of_ne_quote _ hquote.symm, if_neg (by simp), if_neg (by simp), if_pos rfl,
      hread]
    dsimp only
    rw [readText_skip, List.drop_left, hstep]
    simp only [Except.map, List.length_cons, List.length_append]
    congr 2
    omega

theorem exists_of_readText (quote : Char) (isLong : Bool) (offset reach : Nat) (text chars : List Char)
    (h : readText quote isLong 0 offset text = .ok (chars, reach)) :
    ∃ body rest, text = body ++ closingQuotes quote isLong ++ rest ∧ IsBody quote isLong body chars ∧
      reach = offset + body.length + (closingQuotes quote isLong).length := by
  match text with
  | [] => cases h
  | c :: text =>
    rw [readText] at h
    by_cases hend : endsText quote isLong (c :: text) = true
    · rw [if_pos hend] at h
      cases h
      obtain ⟨rest, hrest⟩ := List.isPrefixOf_iff_prefix.1 hend
      exact ⟨[], rest, hrest.symm, .nil, by simp [length_closingQuotes]⟩
    rw [if_neg hend] at h
    by_cases hbreak : c = '\n' ∧ (!isLong) = true
    · rw [if_pos hbreak] at h
      cases h
    rw [if_neg hbreak] at h
    by_cases hslash : c = '\\'
    · subst hslash
      rw [if_pos rfl] at h
      split at h
      · cases h
      · next escaped n hread =>
        have hescape : Text.readEscape text = .ok (escaped, n) := by
          rw [readEscape] at hread
          split at hread <;> cases hread
          assumption
        obtain ⟨written, tail, rfl, hwritten, rfl⟩ := exists_of_readEscape hescape
        rw [readText_skip, List.drop_left] at h
        obtain ⟨found, hrest, hfound⟩ := (map_eq_ok_iff _ _ _).1 h
        cases hfound
        obtain ⟨body, rest, htail, hbody, hreach⟩ := exists_of_readText quote isLong _ _ _ _ hrest
        refine ⟨'\\' :: (written ++ body), rest, by simp [htail], .escape hwritten hbody, ?_⟩
        simp only [hreach, List.length_cons, List.length_append]
        omega
    · rw [if_neg hslash] at h
      obtain ⟨found, hrest, hfound⟩ := (map_eq_ok_iff _ _ _).1 h
      cases hfound
      obtain ⟨body, rest, htail, hbody, hreach⟩ := exists_of_readText quote isLong _ _ _ _ hrest
      rw [htail, endsText_append] at hend
      have hline : c = '\n' → isLong = true := fun hc => by simpa [hc] using hbreak
      refine ⟨c :: body, rest, by simp [htail], .plain (Bool.not_eq_true _ ▸ hend) hline hslash hbody, ?_⟩
      simp only [hreach, List.length_cons]
      omega
termination_by text.length

/-- The characters after the first quote of a text up to its last. -/
def IsQuoted (quote : Char) (isLong : Bool) (written chars : List Char) : Prop :=
  ∃ body, written = (if isLong then [quote, quote] else []) ++ (body ++ closingQuotes quote isLong) ∧
    IsBody quote isLong body chars

/-- Three quotes open a text if two follow the first, whatever comes after the text. -/
theorem isPrefixOf_append_of_head (quote : Char) (text : List Char) {more : List Char}
    (h : more.head? ≠ some quote) :
    [quote, quote].isPrefixOf (text ++ more) = [quote, quote].isPrefixOf text := by
  match text with
  | [] =>
    cases more with
    | nil => rfl
    | cons c more => exact isPrefixOf_cons_of_ne _ _ _ _ (by simpa using h)
  | [c] =>
    cases more with
    | nil => rfl
    | cons d more =>
      have hd : d ≠ quote := by simpa using h
      simp [List.isPrefixOf, Ne.symm hd]
  | c :: d :: text => simp [List.isPrefixOf]

theorem scanText_of_isQuoted {written more : List Char} (h : IsQuoted quote isLong written chars)
    (hquote : quote ≠ '\\') (hlong : [quote, quote].isPrefixOf (written ++ more) = isLong) :
    scanText quote (written ++ more) = .ok (.text (String.ofList chars), written.length) := by
  obtain ⟨body, rfl, hbody⟩ := h
  rw [scanText, hlong]
  have hread := hbody.readText hquote (if isLong then 3 else 1) more
  cases isLong
  all_goals
    simp only [Bool.false_eq_true, if_false, if_true, List.nil_append, List.append_assoc,
      List.cons_append, Nat.sub_self, Nat.add_one_sub_one, List.drop_zero, List.drop_succ_cons] at hread ⊢
    rw [hread]
    simp only [Except.map, List.length_append, List.length_cons]
    congr 2
    omega

theorem exists_of_scanText {rest : List Char} {l : Lexeme} {n : Nat}
    (h : scanText quote rest = .ok (l, n)) :
    ∃ written more chars, rest = written ++ more ∧ l = .text (String.ofList chars) ∧
      n = written.length ∧ IsQuoted quote ([quote, quote].isPrefixOf rest) written chars := by
  rw [scanText] at h
  obtain ⟨⟨chars, reach⟩, hread, hfound⟩ := (map_eq_ok_iff _ _ _).1 h
  cases hfound
  obtain ⟨body, more, hdrop, hbody, hreach⟩ := exists_of_readText _ _ _ _ _ _ hread
  have hrest : rest = (if [quote, quote].isPrefixOf rest then [quote, quote] else []) ++
      (body ++ closingQuotes quote ([quote, quote].isPrefixOf rest)) ++ more := by
    rw [List.append_assoc, ← hdrop]
    split
    · next hlong =>
      obtain ⟨tail, rfl⟩ := List.isPrefixOf_iff_prefix.1 hlong
      rfl
    · rfl
  refine ⟨_, more, chars, hrest, rfl, ?_, body, rfl, hbody⟩
  rw [hreach, List.length_append, List.length_append]
  split
  all_goals
    simp only [List.length_cons, List.length_nil]
    omega

end

end CommandOntology.Turtle

namespace CommandOntology.Query

open CommandOntology.Text CommandOntology.Turtle

variable {quote : Char} {isLong : Bool} {written body chars : List Char}

def closeLength? (quote : Char) (isLong : Bool) (text : List Char) : Option Nat :=
  if isLong then longTextLength? quote text else shortTextLength? quote text

theorem closeLength?_closingQuotes (rest : List Char) :
    closeLength? quote isLong (closingQuotes quote isLong ++ rest) =
      some (closingQuotes quote isLong).length := by
  cases isLong
  · exact shortTextLength?_quote quote rest
  · simp [closeLength?, closingQuotes, longTextLength?]

theorem closeLength?_plain {c : Char} {text : List Char} (hend : endsText quote isLong (c :: text) = false)
    (hline : c = '\n' → isLong = true) (hslash : c ≠ '\\') :
    closeLength? quote isLong (c :: text) = (closeLength? quote isLong text).map (· + 1) := by
  cases isLong with
  | false =>
    have hquote : c ≠ quote := by
      rintro rfl
      simp [endsText] at hend
    exact shortTextLength?_plain text hquote (fun hc => by simpa using hline hc) hslash
  | true =>
    change longTextLength? quote (c :: text) = (longTextLength? quote text).map (· + 1)
    rw [longTextLength?.eq_def]
    dsimp only
    split_ifs with hquote hclose
    · subst hquote
      simp [endsText, hclose] at hend
    · rfl
    · rfl

theorem closeLength?_escape {d : Char} (text : List Char) (hquote : quote ≠ '\\') (hline : d ≠ '\n') :
    closeLength? quote isLong ('\\' :: d :: text) = (closeLength? quote isLong text).map (· + 2) := by
  cases isLong with
  | false => exact shortTextLength?_escape text hquote hline
  | true =>
    change longTextLength? quote ('\\' :: d :: text) = (longTextLength? quote text).map (· + 2)
    rw [longTextLength?, if_neg hquote.symm, if_pos rfl, if_neg hline]

theorem closeLength?_hexDigits {digits : List Char} (text : List Char)
    (hquote : isHexDigit quote = false) (h : ∀ d ∈ digits, isHexDigit d = true) :
    closeLength? quote isLong (digits ++ text) =
      (closeLength? quote isLong text).map (· + digits.length) := by
  induction digits with
  | nil => simp
  | cons d digits ih =>
    have hd := h d List.mem_cons_self
    have hne (c : Char) (hc : isHexDigit c = false) : d ≠ c := by
      rintro rfl
      rw [hd] at hc
      cases hc
    rw [List.cons_append, closeLength?_plain (endsText_of_ne_quote _ (hne quote hquote))
      (fun hc => absurd hc (hne '\n' (by decide))) (hne '\\' (by decide)),
      ih fun e he => h e (List.mem_cons_of_mem d he), Option.map_map]
    rfl

/-- Queries find the closing quotes where documents do. -/
theorem closeLength?_of_isBody (h : IsBody quote isLong body chars)
    (hquote : isHexDigit quote = false) (hslash : quote ≠ '\\') (rest : List Char) :
    closeLength? quote isLong (body ++ closingQuotes quote isLong ++ rest) =
      some (body.length + (closingQuotes quote isLong).length) := by
  induction h with
  | nil => simp [closeLength?_closingQuotes]
  | @plain c body chars hend hline hc h ih =>
    rw [← endsText_append c rest] at hend
    rw [List.cons_append, List.cons_append, closeLength?_plain hend hline hc, ih]
    simp only [Option.map_some, List.length_cons]
    congr 1
    omega
  | @escape written c body chars hescape h ih =>
    obtain ⟨code, digits, rfl, hline, hdigits⟩ := hescape.exists_cons
    have htail : digits ++ body ++ closingQuotes quote isLong ++ rest =
        digits ++ (body ++ closingQuotes quote isLong ++ rest) := by simp
    simp only [List.cons_append]
    rw [closeLength?_escape _ hslash hline, htail, closeLength?_hexDigits _ hquote hdigits, ih]
    simp only [Option.map_some, List.length_cons, List.length_append]
    congr 1
    omega

theorem unescapeFrom_skip (text rest : List Char) :
    unescapeFrom text.length (text ++ rest) = unescapeFrom 0 rest := by
  induction text with
  | nil => rfl
  | cons c text ih => exact ih

/-- The characters that a text stands for are those that documents read. -/
theorem unescapeFrom_of_isBody (h : IsBody quote isLong body chars) :
    unescapeFrom 0 body = .ok chars := by
  induction h with
  | nil => rfl
  | plain hend hline hslash h ih =>
    rw [unescapeFrom, if_neg (fun hc => hslash hc.1), ih]
    rfl
  | @escape written c body chars hescape h ih =>
    have hread := hescape.readEscape body
    obtain ⟨code, digits, rfl, hline, -⟩ := hescape.exists_cons
    rw [unescapeFrom, if_pos ⟨rfl, by simp, by simpa using hline⟩, hread]
    change (do return c :: (← unescapeFrom (code :: digits).length (code :: digits ++ body))) = _
    rw [unescapeFrom_skip, ih]
    rfl

theorem quote_cases (h : quote = '"' ∨ quote = '\'') : isHexDigit quote = false ∧ quote ≠ '\\' := by
  obtain rfl | rfl := h <;> decide

theorem textLength?_of_isQuoted {more : List Char} (h : IsQuoted quote isLong written chars)
    (hquote : quote = '"' ∨ quote = '\'')
    (hlong : [quote, quote].isPrefixOf (written ++ more) = isLong) :
    textLength? (quote :: (written ++ more)) = some (written.length + 1) := by
  obtain ⟨body, rfl, hbody⟩ := h
  have hclose := closeLength?_of_isBody hbody (quote_cases hquote).1 (quote_cases hquote).2 more
  rw [textLength?, if_pos hquote, hlong]
  cases isLong
  all_goals
    simp only [closeLength?, Bool.false_eq_true, if_false, if_true, List.nil_append, List.append_assoc,
      List.cons_append, List.drop_succ_cons, List.drop_zero] at hclose ⊢
    rw [hclose]
    simp only [Option.map_some, List.length_append, List.length_cons]

theorem stripQuotes_long (hquote : quote = '"' ∨ quote = '\'') :
    stripQuotes (quote :: quote :: quote :: (body ++ [quote, quote, quote])) = body := by
  have htake : (quote :: quote :: quote :: (body ++ [quote, quote, quote])).take 3 =
      [quote, quote, quote] := rfl
  obtain rfl | rfl := hquote
  all_goals
    simp only [stripQuotes, htake]
    simp

/-- A text is taken for what documents take it for. -/
theorem unescape_of_isQuoted (h : IsQuoted quote isLong written chars)
    (hquote : quote = '"' ∨ quote = '\'') (hlong : [quote, quote].isPrefixOf written = isLong)
    (position : Nat) :
    unescape (stripQuotes (quote :: written)) position = .ok (String.ofList chars) := by
  obtain ⟨body, rfl, hbody⟩ := h
  have hstrip : stripQuotes (quote :: ((if isLong then [quote, quote] else []) ++
      (body ++ closingQuotes quote isLong))) = body := by
    cases isLong with
    | false => exact stripQuotes_short hlong
    | true => exact stripQuotes_long hquote
  rw [hstrip, unescape, unescapeFrom_of_isBody hbody]

end CommandOntology.Query
