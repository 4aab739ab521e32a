import Mathlib.Data.List.Induction
import Mathlib.Tactic.SplitIfs
import CommandOntology.Number.Reading
import CommandOntology.Proofs.Characters

set_option autoImplicit false

namespace CommandOntology

def integerDigits (n : Int) : List Char :=
  Nat.toDigits 10 n.natAbs

theorem toList_toString_int (n : Int) :
    (toString n).toList = if n < 0 then '-' :: integerDigits n else integerDigits n := by
  cases n with
  | ofNat n =>
    rw [Int.ofNat_eq_natCast, if_neg (Int.not_lt.2 (Int.natCast_nonneg n))]
    change (Nat.repr n).toList = _
    simp [integerDigits]
  | negSucc n =>
    rw [if_pos (Int.negSucc_lt_zero n)]
    change ("-" ++ Nat.repr (n + 1)).toList = _
    simp [integerDigits]

theorem integerText_eq_ok_iff (n : Int) (text : String) : integerText n = .ok text ↔
    (integerDigits n).length ≤ integerDigitLimit ∧ text = toString n := by
  rw [integerText, ← integerDigits]
  split_ifs with hlong
  · simp [Nat.not_le.2 hlong]
  · simp [Nat.not_lt.1 hlong, eq_comm]

theorem isAsciiDigit_of_mem_integerDigits (n : Int) :
    ∀ c ∈ integerDigits n, Text.isAsciiDigit c = true := by
  intro c hc
  have hd := Nat.isDigit_of_mem_toDigits (by omega) (by omega) hc
  rw [Text.isAsciiDigit_iff]
  simp only [Char.isDigit, Bool.and_eq_true, decide_eq_true_eq, ge_iff_le,
    UInt32.le_iff_toNat_le] at hd
  exact hd

theorem integerDigits_ne_nil (n : Int) : integerDigits n ≠ [] :=
  Nat.toDigits_ne_nil

theorem isDecimalDigit_of_isAsciiDigit (c : Char) (h : Text.isAsciiDigit c = true) :
    Text.isDecimalDigit c = true := by
  have hd := (Text.isAsciiDigit_iff c).1 h
  rw [Text.isDecimalDigit, if_pos (by omega)]
  exact h

namespace Reading

theorem trimBy_eq_self (drops : Char → Bool) (text : List Char) (h : ∀ c ∈ text, drops c = false) :
    Text.trimBy drops text = text := by
  have hdrop (xs : List Char) (hx : ∀ c ∈ xs, drops c = false) : xs.dropWhile drops = xs := by
    cases xs with
    | nil => rfl
    | cons c xs => rw [List.dropWhile_cons_of_neg (by simp [hx c List.mem_cons_self])]
  rw [Text.trimBy, hdrop text h, hdrop _ (by simpa using h), List.reverse_reverse]

theorem readDigits_of_digits (digits : List Char)
    (h : ∀ c ∈ digits, Text.isDecimalDigit c = true) (expectsDigit : Bool)
    (hne : expectsDigit = true → digits ≠ []) :
    readDigits expectsDigit digits = some (digits, []) := by
  induction digits generalizing expectsDigit with
  | nil =>
    cases expectsDigit with
    | false => rfl
    | true => exact absurd rfl (hne rfl)
  | cons c digits ih =>
    rw [readDigits, if_pos (h c List.mem_cons_self),
      ih (fun d hd => h d (List.mem_cons_of_mem c hd)) false (by simp)]
    rfl

theorem number_eq_ofDigitChars (digits : List Char)
    (h : ∀ c ∈ digits, Text.isAsciiDigit c = true) (init : Nat) :
    digits.foldl (fun n c => 10 * n + Text.digitValue c) init = Nat.ofDigitChars 10 digits init := by
  induction digits generalizing init with
  | nil => rfl
  | cons c digits ih =>
    have hc := (Text.isAsciiDigit_iff c).1 (h c List.mem_cons_self)
    have hvalue : Text.digitValue c = c.toNat - '0'.toNat := by
      rw [Text.digitValue, if_pos (by omega)]
    rw [List.foldl_cons, Nat.ofDigitChars_cons, hvalue,
      ih fun d hd => h d (List.mem_cons_of_mem c hd)]

theorem number_integerDigits (n : Int) : number (integerDigits n) = n.natAbs := by
  rw [number, number_eq_ofDigitChars _ (isAsciiDigit_of_mem_integerDigits n), integerDigits,
    Nat.ofDigitChars_toDigits (by omega) (by omega)]

theorem isBlankAround_eq_false {c : Char} (hc : Text.isAsciiDigit c = true ∨ c = '-') :
    isBlankAround c = false := by
  have hlt : c.toNat < 128 := by
    obtain h | rfl := hc
    · have := (Text.isAsciiDigit_iff c).1 h
      omega
    · decide
  have hall := Text.forall_ascii
    (fun c => !(Text.isAsciiDigit c || c == '-') || !isBlankAround c) (by decide) c hlt
  simp only [Bool.or_eq_true, Bool.not_eq_true'] at hall
  obtain h | h := hall
  · obtain hd | rfl := hc <;> simp_all
  · exact h

theorem readSign_of_digits {digits : List Char} (h : ∀ c ∈ digits, Text.isAsciiDigit c = true) :
    readSign digits = (false, digits) := by
  cases digits with
  | nil => rfl
  | cons c rest =>
    have hc := (Text.isAsciiDigit_iff c).1 (h c List.mem_cons_self)
    rw [readSign]
    · rintro rest' he
      rw [(List.cons_eq_cons.1 he).1] at hc
      simp at hc
    · rintro rest' he
      rw [(List.cons_eq_cons.1 he).1] at hc
      simp at hc

theorem readDigits_of_asciiDigits {digits : List Char} (h : ∀ c ∈ digits, Text.isAsciiDigit c = true)
    (hne : digits ≠ []) : readDigits true digits = some (digits, []) :=
  readDigits_of_digits _ (fun c hc => isDecimalDigit_of_isAsciiDigit c (h c hc)) true fun _ => hne

theorem integer?_of_digits {digits : List Char} (h : ∀ c ∈ digits, Text.isAsciiDigit c = true)
    (hne : digits ≠ []) : integer? digits = some (false, digits) := by
  rw [integer?, trimBy_eq_self _ _ fun c hc => isBlankAround_eq_false (.inl (h c hc)),
    readSign_of_digits h]
  simp [readDigits_of_asciiDigits h hne]

theorem integer_of_digits {digits : List Char} (h : ∀ c ∈ digits, Text.isAsciiDigit c = true)
    (hne : digits ≠ []) : integer (String.ofList digits) =
      if integerDigitLimit < digits.length then .error (.tooManyDigits digits.length)
      else .ok (number digits) := by
  rw [integer, String.toList_ofList, integer?_of_digits h hne]
  rfl

theorem integer?_toString (n : Int) :
    integer? (toString n).toList = some (decide (n < 0), integerDigits n) := by
  have hdigits := isAsciiDigit_of_mem_integerDigits n
  have hne := integerDigits_ne_nil n
  rw [toList_toString_int]
  split_ifs with hn
  · rw [integer?, trimBy_eq_self _ _ (by simpa using ⟨isBlankAround_eq_false (.inr rfl), fun c hc =>
      isBlankAround_eq_false (.inl (hdigits c hc))⟩)]
    simp [readSign, readDigits_of_asciiDigits hdigits hne, hn]
  · rw [integer?_of_digits hdigits hne]
    simp [hn]

/-- An integer that is written is read as itself if it does not have too many digits. -/
theorem integer_toString (n : Int) : integer (toString n) =
    if integerDigitLimit < (integerDigits n).length then .error (.tooManyDigits (integerDigits n).length)
    else .ok n := by
  rw [integer, integer?_toString]
  split_ifs with hl
  · exact if_pos hl
  · simp only [number_integerDigits, decide_eq_true_eq, if_neg hl, Except.ok.injEq]
    split_ifs with hn
    · omega
    · omega

theorem integer_toString_eq_ok_iff (n : Int) :
    integer (toString n) = .ok n ↔ (integerDigits n).length ≤ integerDigitLimit := by
  rw [integer_toString]
  split_ifs with hlong
  · simp [Nat.not_le.2 hlong]
  · simp [Nat.not_lt.1 hlong]

theorem digitValue_le (c : Char) (h : Text.isDecimalDigit c = true) : Text.digitValue c ≤ 9 := by
  unfold Text.isDecimalDigit at h
  unfold Text.digitValue
  split_ifs at h ⊢ with hlt
  · have hc := (Text.isAsciiDigit_iff c).1 h
    have hzero : '0'.toNat = 48 := rfl
    omega
  · omega

theorem isDecimalDigit_of_readDigits (expectsDigit : Bool) (text digits rest : List Char)
    (h : readDigits expectsDigit text = some (digits, rest)) :
    ∀ c ∈ digits, Text.isDecimalDigit c = true := by
  induction text generalizing expectsDigit digits with
  | nil =>
    unfold readDigits at h
    split_ifs at h
    cases h
    simp
  | cons c text ih =>
    unfold readDigits at h
    split_ifs at h with hdigit
    · rw [Option.map_eq_some_iff] at h
      obtain ⟨⟨digits', rest'⟩, hread, heq⟩ := h
      cases heq
      exact List.forall_mem_cons.2 ⟨hdigit, ih false digits' hread⟩
    · exact ih true digits h
    · cases h
      simp

theorem length_toDigits_number (digits : List Char) (h : ∀ c ∈ digits, Text.isDecimalDigit c = true) :
    (Nat.toDigits 10 (number digits)).length ≤ max 1 digits.length := by
  induction digits using List.reverseRecOn with
  | nil => decide
  | append_singleton digits d ih =>
    have hdigits := ih fun c hc => h c (List.mem_append_left _ hc)
    have hd := digitValue_le d (h d (by simp))
    have hnumber : number (digits ++ [d]) = 10 * number digits + Text.digitValue d := by
      simp [number]
    rw [hnumber, List.length_append, List.length_singleton]
    by_cases hlt : 10 * number digits + Text.digitValue d < 10
    · rw [Nat.toDigits_of_lt_base hlt, List.length_singleton]
      omega
    · have hdiv : (10 * number digits + Text.digitValue d) / 10 = number digits := by omega
      have hne : digits ≠ [] := by
        rintro rfl
        exact hlt (by simp [number]; omega)
      have hpos := List.length_pos_iff.2 hne
      rw [Nat.toDigits_of_base_le (by omega) (by omega), hdiv, List.length_append, List.length_singleton]
      omega

/-- An integer that is read from any text is read from its own digits. -/
theorem integer_toString_of_integer (text : String) (n : Int) (h : integer text = .ok n) :
    integer (toString n) = .ok n := by
  obtain ⟨negative, digits, hread, hlimit, hn⟩ : ∃ negative digits,
      integer? text.toList = some (negative, digits) ∧ ¬integerDigitLimit < digits.length ∧
        n = if negative then -(number digits : Int) else number digits := by
    unfold integer at h
    split at h
    · cases h
    next negative digits hread =>
      by_cases hlimit : integerDigitLimit < digits.length
      · rw [if_pos hlimit] at h
        cases h
      · rw [if_neg hlimit] at h
        exact ⟨negative, digits, hread, hlimit, (Except.ok.inj h).symm⟩
  have hdecimal : ∀ c ∈ digits, Text.isDecimalDigit c = true := by
    simp only [integer?] at hread
    split at hread
    next digits' hdigits =>
      cases hread
      exact isDecimalDigit_of_readDigits true _ _ _ hdigits
    · cases hread
  have hlength := length_toDigits_number digits hdecimal
  have habs : n.natAbs = number digits := by
    rw [hn]
    split_ifs <;> simp
  have hone : 1 ≤ integerDigitLimit := by decide
  rw [integer_toString, integerDigits, habs, if_neg (by omega)]

end Reading

end CommandOntology
