import Mathlib.Algebra.Group.Nat.Defs
import CommandOntology.Proofs.Characters
import CommandOntology.Text.Escape
import CommandOntology.Text.Quoted

set_option autoImplicit false

namespace CommandOntology.Text

/-- The letters that are escaped by themselves, and those that stand for a control. -/
def sourceEscapedChar? : Char → Option Char
  | '\\' => some '\\'
  | '\'' => some '\''
  | '"' => some '"'
  | 'n' => some '\n'
  | 'r' => some '\r'
  | 't' => some '\t'
  | _ => none

def sourceEscapeLength? : Char → Option Nat
  | 'x' => some 2
  | 'u' => some 4
  | 'U' => some 8
  | _ => none

def readSourceEscape? : List Char → Option (Char × Nat)
  | [] => none
  | code :: rest =>
    match sourceEscapedChar? code with
    | some c => some (c, 1)
    | none => do
      let length ← sourceEscapeLength? code
      let value ← numericEscape? length rest
      if value.isValidChar then some (Char.ofNat value, length + 1) else none

/-- Reads a text up to its quote, `skip` characters of an escape aside. Gives the text and what follows
the quote. A text does not go on in another line. -/
def readQuoted? (quote : Char) : (skip : Nat) → List Char → Option (List Char × List Char)
  | _, [] => none
  | skip + 1, _ :: rest => readQuoted? quote skip rest
  | 0, c :: rest =>
    if c = quote then some ([], rest)
    else if c = '\n' ∨ c = '\r' then none
    else if c = '\\' then
      match readSourceEscape? rest with
      | some (escaped, length) => (readQuoted? quote length rest).map fun r => (escaped :: r.1, r.2)
      | none => none
    else (readQuoted? quote 0 rest).map fun r => (c :: r.1, r.2)

theorem hexDigit_spec : ∀ value < 16, isHexDigit (hexDigit value) = true ∧
    hexValue (hexDigit value) = value := by
  decide

theorem length_hexDigits (width value : Nat) : (hexDigits width value).length = width := by
  induction width generalizing value with
  | zero => rfl
  | succ width ih => rw [hexDigits, List.length_append, ih, List.length_singleton]

theorem isHexDigit_of_mem_hexDigits (width value : Nat) :
    ∀ c ∈ hexDigits width value, isHexDigit c = true := by
  induction width generalizing value with
  | zero => simp [hexDigits]
  | succ width ih =>
    intro c hc
    obtain hc | hc := List.mem_append.1 hc
    · exact ih _ c hc
    · rw [List.mem_singleton.1 hc]
      exact (hexDigit_spec _ (Nat.mod_lt _ (by decide))).1

theorem foldl_hexDigits (width value : Nat) (h : value < 16 ^ width) :
    (hexDigits width value).foldl (fun n c => 16 * n + hexValue c) 0 = value := by
  induction width generalizing value with
  | zero =>
    obtain rfl : value = 0 := by omega
    rfl
  | succ width ih =>
    rw [hexDigits, List.foldl_append, ih _ (by omega)]
    simp only [List.foldl_cons, List.foldl_nil, (hexDigit_spec _ (Nat.mod_lt value (by decide))).2]
    omega

theorem numericEscape?_hexDigits (width value : Nat) (rest : List Char) (h : value < 16 ^ width) :
    numericEscape? width (hexDigits width value ++ rest) = some value := by
  have htake : (hexDigits width value ++ rest).take width = hexDigits width value :=
    List.take_left' (length_hexDigits width value)
  have hall : (hexDigits width value).all isHexDigit = true :=
    List.all_eq_true.2 (isHexDigit_of_mem_hexDigits width value)
  unfold numericEscape?
  dsimp only
  rw [htake, if_pos ⟨length_hexDigits width value, hall⟩, foldl_hexDigits width value h]

def IsQuote (quote : Char) : Prop :=
  quote = '\'' ∨ quote = '"'

theorem isQuote_quoteFor (text : List Char) : IsQuote (quoteFor text) := by
  unfold quoteFor
  split_ifs
  · exact .inr rfl
  · exact .inl rfl

theorem readQuoted?_skip (quote : Char) (skipped rest : List Char) :
    readQuoted? quote skipped.length (skipped ++ rest) = readQuoted? quote 0 rest := by
  induction skipped with
  | nil => rfl
  | cons c skipped ih => exact ih

theorem readQuoted?_escape {quote : Char} (hquote : IsQuote quote) {code c : Char} {digits rest : List Char}
    (h : readSourceEscape? (code :: (digits ++ rest)) = some (c, digits.length + 1)) :
    readQuoted? quote 0 ('\\' :: code :: digits ++ rest) =
      (readQuoted? quote 0 rest).map fun r => (c :: r.1, r.2) := by
  have hslash : '\\' ≠ quote := by
    obtain rfl | rfl := hquote <;> decide
  have hskip := readQuoted?_skip quote (code :: digits) rest
  rw [List.length_cons, List.cons_append] at hskip
  rw [List.cons_append, List.cons_append, readQuoted?, if_neg hslash, if_neg (by decide), if_pos rfl, h]
  dsimp only
  rw [hskip]

theorem readSourceEscape?_numeric {code : Char} {width : Nat} (hchar : sourceEscapedChar? code = none)
    (hwidth : sourceEscapeLength? code = some width) (c : Char) (hc : c.toNat < 16 ^ width)
    (rest : List Char) :
    readSourceEscape? (code :: (hexDigits width c.toNat ++ rest)) =
      some (c, (hexDigits width c.toNat).length + 1) := by
  have hvalid : c.toNat.isValidChar := c.valid
  simp [readSourceEscape?, hchar, hwidth, numericEscape?_hexDigits width c.toNat rest hc, hvalid,
    length_hexDigits]

theorem readQuoted?_quotedChar {quote : Char} (hquote : IsQuote quote) (c : Char) (rest : List Char) :
    readQuoted? quote 0 (quotedChar quote c ++ rest) =
      (readQuoted? quote 0 rest).map fun r => (c :: r.1, r.2) := by
  have hnumeric {code : Char} {width : Nat} (hchar : sourceEscapedChar? code = none)
      (hwidth : sourceEscapeLength? code = some width) (hc : c.toNat < 16 ^ width) :=
    readQuoted?_escape hquote (readSourceEscape?_numeric hchar hwidth c hc rest)
  have hletter (code : Char) (h : sourceEscapedChar? code = some c) :
      readQuoted? quote 0 (['\\', code] ++ rest) =
        (readQuoted? quote 0 rest).map fun r => (c :: r.1, r.2) := by
    have hread : readSourceEscape? (code :: ([] ++ rest)) = some (c, 1) := by simp [readSourceEscape?, h]
    exact readQuoted?_escape hquote hread
  unfold quotedChar
  split_ifs with hown hline hreturn htab hprintable hshort hmiddle
  · refine hletter c ?_
    rw [Bool.or_eq_true, decide_eq_true_eq, decide_eq_true_eq] at hown
    obtain rfl | rfl := hown
    · obtain rfl | rfl := hquote <;> rfl
    · rfl
  · exact hletter 'n' (hline ▸ rfl)
  · exact hletter 'r' (hreturn ▸ rfl)
  · exact hletter 't' (htab ▸ rfl)
  · rw [Bool.or_eq_true, decide_eq_true_eq, decide_eq_true_eq, not_or] at hown
    rw [List.singleton_append, readQuoted?, if_neg hown.1, if_neg (not_or.2 ⟨hline, hreturn⟩),
      if_neg hown.2]
  · exact hnumeric rfl rfl hshort
  · exact hnumeric rfl rfl hmiddle
  · have hvalid : c.toNat.isValidChar := c.valid
    unfold Nat.isValidChar at hvalid
    exact hnumeric rfl rfl (by omega)

/-- A quoted text is read as itself, whatever follows it. -/
theorem readQuoted?_quotedChars (text rest : List Char) : ∃ quote body, quotedChars text = quote :: body ∧
    IsQuote quote ∧ readQuoted? quote 0 (body ++ rest) = some (text, rest) := by
  have hquote := isQuote_quoteFor text
  refine ⟨_, text.flatMap (quotedChar (quoteFor text)) ++ [quoteFor text], rfl, hquote, ?_⟩
  generalize quoteFor text = quote at hquote ⊢
  rw [List.append_assoc]
  induction text with
  | nil => simp [readQuoted?]
  | cons c text ih =>
    rw [List.flatMap_cons, List.append_assoc, readQuoted?_quotedChar hquote, ih]
    rfl

end CommandOntology.Text
