import Mathlib.Data.List.TakeWhile
import CommandOntology.Text.Layout

set_option autoImplicit false

namespace CommandOntology

/-- What is claimed of the characters of a list is checked for these alone. -/
instance decidableForallMemChars (l : List Char) (p : Char → Prop) [DecidablePred p] :
    Decidable (∀ c ∈ l, p c) :=
  List.decidableBAll p l

namespace Text

theorem le_iff_toNat_le (c d : Char) : c ≤ d ↔ c.toNat ≤ d.toNat := by
  rw [Char.le_def, UInt32.le_iff_toNat_le]
  rfl

theorem isAsciiLetter_iff (c : Char) : isAsciiLetter c = true ↔
    (97 ≤ c.toNat ∧ c.toNat ≤ 122) ∨ (65 ≤ c.toNat ∧ c.toNat ≤ 90) := by
  simp only [isAsciiLetter, Bool.or_eq_true, Bool.and_eq_true, decide_eq_true_eq, le_iff_toNat_le]
  exact Iff.rfl

theorem isAsciiDigit_iff (c : Char) : isAsciiDigit c = true ↔ 48 ≤ c.toNat ∧ c.toNat ≤ 57 := by
  simp only [isAsciiDigit, Bool.and_eq_true, decide_eq_true_eq, le_iff_toNat_le]
  exact Iff.rfl

theorem isAsciiAlphanumeric_lt (c : Char) (h : isAsciiAlphanumeric c = true) : c.toNat < 128 := by
  rw [isAsciiAlphanumeric, Bool.or_eq_true, isAsciiLetter_iff, isAsciiDigit_iff] at h
  omega

/-- What holds of every ASCII character by its number holds of every ASCII character. -/
theorem forall_ascii (test : Char → Bool) (h : ∀ n < 128, test (Char.ofNat n) = true) (c : Char)
    (hc : c.toNat < 128) : test c = true := by
  have ht := h c.toNat hc
  rwa [Char.ofNat_toNat] at ht

theorem asciiLower_eq_toLower (c : Char) : asciiLower c = c.toLower := by
  by_cases hc : c.toNat < 128
  · have h := forall_ascii (fun c => asciiLower c == c.toLower) (by decide) c hc
    exact beq_iff_eq.1 h
  · have hZ : ¬c ≤ 'Z' := fun h => hc (Nat.lt_of_le_of_lt ((le_iff_toNat_le c _).1 h) (by decide))
    have hsmall : c.toLower = c := dif_neg fun h => hZ h.2
    rw [asciiLower, if_neg (by simp [hZ]), hsmall]

end Text

theorem trim_isEmpty_iff (text : List Char) :
    (Text.trim text).isEmpty = true ↔ ∀ c ∈ text, Text.isBlank c = true := by
  rw [Text.trim, Text.trimBy, List.isEmpty_reverse, List.isEmpty_iff, List.dropWhile_eq_nil_iff]
  simp only [List.mem_reverse]
  constructor
  · intro h
    have hnil : text.dropWhile Text.isBlank = [] := by
      by_contra hdrop
      have hhead := List.head_dropWhile_not Text.isBlank hdrop
      have hall := h _ (List.head_mem hdrop)
      simp [hhead] at hall
    exact List.dropWhile_eq_nil_iff.1 hnil
  · exact fun h c hc => h c ((List.dropWhile_sublist _).mem hc)

end CommandOntology
