import Mathlib.Algebra.Order.Field.Power
import Mathlib.Tactic.Linarith
import Mathlib.Tactic.NormNum
import Mathlib.Tactic.Positivity
import Mathlib.Tactic.Ring
import CommandOntology.Number.Shortest

set_option autoImplicit false

namespace CommandOntology

theorem roundHalfEven_eq {num den k : Nat} (hden : 0 < den) (hlow : 2 * k * den ≤ 2 * num + den)
    (hhigh : 2 * num ≤ (2 * k + 1) * den)
    (htie : k % 2 = 0 ∨ 2 * k * den < 2 * num + den ∧ 2 * num < (2 * k + 1) * den) :
    roundHalfEven num den = k := by
  have hnum : den * (num / den) + num % den = num := Nat.div_add_mod num den
  have hrest : num % den < den := Nat.mod_lt num hden
  have hlower : 2 * k * den = 2 * (den * k) := by ring
  have hupper : (2 * k + 1) * den = 2 * (den * k) + den := by ring
  rw [hlower] at hlow htie
  rw [hupper] at hhigh htie
  unfold roundHalfEven
  dsimp only
  generalize num / den = q at *
  generalize num % den = r at *
  -- The quotient is the integer or the one before it.
  have hle : q ≤ k := by
    by_contra hlt
    have hmul : den * (k + 1) ≤ den * q := Nat.mul_le_mul_left den (not_le.1 hlt)
    rw [Nat.mul_succ] at hmul
    omega
  have hge : k ≤ q + 1 := by
    by_contra hlt
    have hmul : den * (q + 1 + 1) ≤ den * k := Nat.mul_le_mul_left den (not_le.1 hlt)
    rw [Nat.mul_succ, Nat.mul_succ] at hmul
    omega
  obtain rfl | rfl : k = q ∨ k = q + 1 := by omega
  · split_ifs <;> omega
  · rw [Nat.mul_succ] at hlow hhigh htie
    split_ifs <;> omega

theorem le_roundHalfEven {num den k : Nat} (hden : 0 < den) (h : k * den ≤ num) :
    k ≤ roundHalfEven num den := by
  have hk : k ≤ num / den := (Nat.le_div_iff_mul_le hden).2 h
  unfold roundHalfEven
  dsimp only
  split_ifs <;> omega

theorem roundHalfEven_le {num den k : Nat} (hden : 0 < den) (h : num ≤ k * den) :
    roundHalfEven num den ≤ k := by
  have hnum : den * (num / den) + num % den = num := Nat.div_add_mod num den
  unfold roundHalfEven
  dsimp only
  generalize num / den = q at *
  generalize num % den = r at *
  rw [Nat.mul_comm] at h
  have hle : q ≤ k := by
    by_contra hlt
    have hmul : den * (k + 1) ≤ den * q := Nat.mul_le_mul_left den (not_le.1 hlt)
    rw [Nat.mul_succ] at hmul
    omega
  obtain rfl | hlt := hle.eq_or_lt
  · rw [if_pos (by omega)]
  · split_ifs <;> omega

theorem pow_toNat {base : ℚ} (h : base ≠ 0) (n : Int) :
    base ^ n.toNat = base ^ n * base ^ (-n).toNat := by
  obtain hn | hn := Int.le_total 0 n
  · have hzero : (-n).toNat = 0 := by omega
    rw [hzero, pow_zero, mul_one, ← zpow_natCast, Int.toNat_of_nonneg hn]
  · have hzero : n.toNat = 0 := by omega
    have hneg : ((-n).toNat : Int) = -n := Int.toNat_of_nonneg (by omega)
    rw [hzero, pow_zero, ← zpow_natCast, hneg, ← zpow_add₀ h, add_neg_cancel, zpow_zero]

theorem cast_nat_pow (base n : Nat) : (Nat.pow base n : ℚ) = (base : ℚ) ^ n := by
  rw [Nat.pow_eq, Nat.cast_pow]

namespace Binary64

theorem two_zpow_pos (n : Int) : (0 : ℚ) < 2 ^ n :=
  zpow_pos two_pos n

theorem two_zpow_le_iff (m n : Int) : (2 : ℚ) ^ m ≤ 2 ^ n ↔ m ≤ n :=
  zpow_le_zpow_iff_right₀ one_lt_two

theorem two_zpow_lt_iff (m n : Int) : (2 : ℚ) ^ m < 2 ^ n ↔ m < n :=
  zpow_lt_zpow_iff_right₀ one_lt_two

theorem lt_two_zpow_add_iff (q : ℚ) (m n : Int) : q < 2 ^ (m + n) ↔ q / 2 ^ m < 2 ^ n := by
  rw [zpow_add₀ two_ne_zero, div_lt_iff₀' (two_zpow_pos m)]

theorem two_zpow_add_le_iff (q : ℚ) (m n : Int) : 2 ^ (m + n) ≤ q ↔ 2 ^ n ≤ q / 2 ^ m := by
  rw [zpow_add₀ two_ne_zero, le_div_iff₀' (two_zpow_pos m)]

theorem ratio_mul_pow_eq (num den : Nat) (exponent : Int) :
    ((num * Nat.pow 2 (-exponent).toNat : Nat) : ℚ) / (den * Nat.pow 2 exponent.toNat : Nat) =
      num / den / 2 ^ exponent := by
  have hpow : (2 : ℚ) ^ (-exponent).toNat ≠ 0 := pow_ne_zero _ two_ne_zero
  rw [Nat.cast_mul, Nat.cast_mul, cast_nat_pow, cast_nat_pow, Nat.cast_ofNat, pow_toNat two_ne_zero exponent,
    ← mul_assoc, mul_div_mul_right _ _ hpow, div_div]

/-- The exponent puts a quotient below two to the 53, and no smaller one that there is does so. -/
theorem unitExponent_spec {num den : Nat} (hnum : 0 < num) (hden : 0 < den) :
    -1074 ≤ unitExponent num den ∧ (num : ℚ) / den < 2 ^ (unitExponent num den + 53) ∧
      (unitExponent num den = -1074 ∨ 2 ^ (unitExponent num den + 52) ≤ (num : ℚ) / den) := by
  have hdenPos : (0 : ℚ) < den := Nat.cast_pos.2 hden
  have hnumLow : (2 : ℚ) ^ num.log2 ≤ num := by exact_mod_cast Nat.log2_self_le hnum.ne'
  have hnumHigh : (num : ℚ) < 2 ^ (num.log2 + 1) := by exact_mod_cast Nat.lt_log2_self
  have hdenLow : (2 : ℚ) ^ den.log2 ≤ den := by exact_mod_cast Nat.log2_self_le hden.ne'
  have hdenHigh : (den : ℚ) < 2 ^ (den.log2 + 1) := by exact_mod_cast Nat.lt_log2_self
  -- The lengths of both numbers tell the exponent up to one; the comparison decides between the two.
  have hestimate : ∃ estimate : Int, estimate = (num.log2 : Int) - den.log2 - 52 := ⟨_, rfl⟩
  obtain ⟨estimate, hestimate⟩ := hestimate
  have hlow : (2 : ℚ) ^ (estimate + 51) ≤ num / den := by
    rw [le_div_iff₀ hdenPos]
    calc (2 : ℚ) ^ (estimate + 51) * den
        ≤ 2 ^ (estimate + 51) * 2 ^ (den.log2 + 1) := by gcongr
      _ = 2 ^ num.log2 := by
        rw [← zpow_natCast, ← zpow_natCast, ← zpow_add₀ two_ne_zero]
        congr 1
        push_cast
        omega
      _ ≤ num := hnumLow
  have hhigh : (num : ℚ) / den < 2 ^ (estimate + 53) := by
    rw [div_lt_iff₀ hdenPos]
    calc (num : ℚ) < 2 ^ (num.log2 + 1) := hnumHigh
      _ = 2 ^ (estimate + 53) * 2 ^ den.log2 := by
        rw [← zpow_natCast, ← zpow_natCast, ← zpow_add₀ two_ne_zero]
        congr 1
        push_cast
        omega
      _ ≤ 2 ^ (estimate + 53) * den := by gcongr
  have hbelow : num * Nat.pow 2 (-estimate).toNat < den * Nat.pow 2 estimate.toNat * Nat.pow 2 52 ↔
      (num : ℚ) / den < 2 ^ (estimate + 52) := by
    have hpow : (0 : ℚ) < 2 ^ (-estimate).toNat := by positivity
    rw [div_lt_iff₀ hdenPos, ← Nat.cast_lt (α := ℚ), zpow_add₀ two_ne_zero]
    push_cast [Nat.pow_eq]
    rw [pow_toNat two_ne_zero estimate, ← mul_lt_mul_iff_left₀ hpow (b := (num : ℚ))]
    refine iff_of_eq (congrArg _ ?_)
    ring
  unfold unitExponent
  rw [← hestimate]
  dsimp only
  simp only [decide_eq_true_eq, hbelow]
  split_ifs with h
  · refine ⟨le_max_right _ _, h.trans_le ((two_zpow_le_iff _ _).2 (by omega)), ?_⟩
    obtain hmax | hmax := max_choice (estimate - 1) (-1074)
    · refine .inr ?_
      rw [hmax]
      exact ((two_zpow_le_iff _ _).2 (by omega)).trans hlow
    · exact .inl hmax
  · refine ⟨le_max_right _ _, hhigh.trans_le ((two_zpow_le_iff _ _).2 (by omega)), ?_⟩
    obtain hmax | hmax := max_choice estimate (-1074)
    · rw [hmax]
      exact .inr (not_lt.1 h)
    · exact .inl hmax

theorem unitExponent_eq {num den : Nat} (hnum : 0 < num) (hden : 0 < den) {exponent : Int}
    (hleast : -1074 ≤ exponent) (hhigh : (num : ℚ) / den < 2 ^ (exponent + 53))
    (hlow : exponent = -1074 ∨ 2 ^ (exponent + 52) ≤ (num : ℚ) / den) :
    unitExponent num den = exponent := by
  obtain ⟨hleast', hhigh', hlow'⟩ := unitExponent_spec hnum hden
  refine le_antisymm ?_ ?_
  · obtain heq | hbelow := hlow'
    · omega
    · have := (two_zpow_lt_iff _ _).1 (hbelow.trans_lt hhigh)
      omega
  · obtain heq | hbelow := hlow
    · omega
    · have := (two_zpow_lt_iff _ _).1 (hbelow.trans_lt hhigh')
      omega

/-- The mantissas and exponents of finite numbers. The mantissa has 53 bits unless the exponent is the
least. -/
structure FitsFormat (mantissa : Nat) (exponent : Int) : Prop where
  mantissa_lt : mantissa < 2 ^ 53
  least_le : -1074 ≤ exponent
  le_greatest : exponent ≤ 971
  isFull : 2 ^ 52 ≤ mantissa ∨ exponent = -1074

def IsOfFormat : Binary64 → Prop
  | .finite _ mantissa exponent => FitsFormat mantissa exponent
  | _ => True

theorem fitsFormat_zero : FitsFormat 0 (-1074) :=
  ⟨by decide, by decide, by decide, .inr rfl⟩

def unitMantissa (num den : Nat) : Nat :=
  roundHalfEven (num * Nat.pow 2 (-unitExponent num den).toNat)
    (den * Nat.pow 2 (unitExponent num den).toNat)

theorem ofRatio_of_pos (negative : Bool) {num den : Nat} (hnum : 0 < num) : ofRatio negative num den =
    if unitMantissa num den = 2 ^ 53 then
      if 971 < unitExponent num den + 1 then .infinite negative
      else .finite negative (2 ^ 52) (unitExponent num den + 1)
    else if 971 < unitExponent num den then .infinite negative
    else .finite negative (unitMantissa num den) (unitExponent num den) := by
  have hcarried : Nat.pow 2 53 = 2 ^ 53 := rfl
  have hleast : Nat.pow 2 52 = 2 ^ 52 := rfl
  unfold ofRatio unitMantissa
  rw [if_neg hnum.ne', hcarried, hleast]
  dsimp only
  split_ifs <;> simp_all

section

variable {num den : Nat} (hden : 0 < den)

include hden

theorem den_pos (exponent : Int) : 0 < den * Nat.pow 2 exponent.toNat :=
  Nat.mul_pos hden (Nat.pow_pos two_pos)

theorem den_cast_pos (exponent : Int) : (0 : ℚ) < (den * Nat.pow 2 exponent.toNat : Nat) :=
  Nat.cast_pos.2 (den_pos hden exponent)

/-- The mantissa is full unless the exponent is the least, and it may have to be carried. -/
theorem unitMantissa_spec (hnum : 0 < num) : unitMantissa num den ≤ 2 ^ 53 ∧
    (unitExponent num den = -1074 ∨ 2 ^ 52 ≤ unitMantissa num den) := by
  obtain ⟨-, hhigh, hlow⟩ := unitExponent_spec hnum hden
  have hratio := ratio_mul_pow_eq num den (unitExponent num den)
  have hdenPos := den_cast_pos hden (unitExponent num den)
  constructor
  · refine roundHalfEven_le (den_pos hden _) ?_
    rw [lt_two_zpow_add_iff, ← hratio, div_lt_iff₀ hdenPos] at hhigh
    exact_mod_cast hhigh.le
  · refine hlow.imp_right fun hfull => le_roundHalfEven (den_pos hden _) ?_
    rw [two_zpow_add_le_iff, ← hratio, le_div_iff₀ hdenPos] at hfull
    exact_mod_cast hfull

theorem isOfFormat_ofRatio (negative : Bool) : (ofRatio negative num den).IsOfFormat := by
  obtain rfl | hnum := num.eq_zero_or_pos
  · exact fitsFormat_zero
  obtain ⟨hleast, -⟩ := unitExponent_spec hnum hden
  obtain ⟨hle, hfull⟩ := unitMantissa_spec hden hnum
  rw [ofRatio_of_pos negative hnum]
  split_ifs with hcarried hlarge hlarge
  · trivial
  · exact ⟨by decide, by omega, by omega, .inl le_rfl⟩
  · trivial
  · exact ⟨by omega, hleast, by omega, hfull.symm⟩

/-- A quotient that is near enough to an integer, in units of two to its exponent, has this for its
mantissa. -/
theorem unitMantissa_eq {k : Nat} {units : ℚ} (hunits : units = num / den / 2 ^ unitExponent num den)
    (hlow : 2 * k - 1 ≤ 2 * units) (hhigh : 2 * units ≤ 2 * k + 1)
    (htie : k % 2 = 0 ∨ 2 * k - 1 < 2 * units ∧ 2 * units < 2 * k + 1) : unitMantissa num den = k := by
  have hdenPos := den_cast_pos hden (unitExponent num den)
  have hd := den_pos hden (unitExponent num den)
  rw [← ratio_mul_pow_eq, eq_div_iff hdenPos.ne'] at hunits
  unfold unitMantissa
  generalize den * Nat.pow 2 (unitExponent num den).toNat = d at *
  generalize num * Nat.pow 2 (-unitExponent num den).toNat = n at *
  have hlower : (2 * k * d : ℚ) ≤ 2 * n + d := by
    have := mul_le_mul_of_nonneg_right hlow hdenPos.le
    linarith
  have hupper : (2 * n : ℚ) ≤ (2 * k + 1) * d := by
    have := mul_le_mul_of_nonneg_right hhigh hdenPos.le
    linarith
  refine roundHalfEven_eq hd (by exact_mod_cast hlower) (by exact_mod_cast hupper)
    (htie.imp_right fun ⟨hless, hgreater⟩ => ?_)
  have hlower : (2 * k * d : ℚ) < 2 * n + d := by
    have := mul_lt_mul_of_pos_right hless hdenPos
    linarith
  have hupper : (2 * n : ℚ) < (2 * k + 1) * d := by
    have := mul_lt_mul_of_pos_right hgreater hdenPos
    linarith
  exact ⟨by exact_mod_cast hlower, by exact_mod_cast hupper⟩

end

def Neighbourhood.Contains (area : Neighbourhood) (units : ℚ) : Prop :=
  if area.closed then (area.low : ℚ) ≤ 4 * units ∧ 4 * units ≤ area.high
  else (area.low : ℚ) < 4 * units ∧ 4 * units < area.high

theorem Neighbourhood.Contains.spec {area : Neighbourhood} {units : ℚ} (h : area.Contains units) :
    (area.low : ℚ) ≤ 4 * units ∧ 4 * units ≤ area.high ∧
      (area.closed = true ∨ (area.low : ℚ) < 4 * units ∧ 4 * units < area.high) := by
  unfold Contains at h
  split_ifs at h with hclosed
  · exact ⟨h.1, h.2, .inl hclosed⟩
  · exact ⟨h.1.le, h.2.le, .inr h⟩

/-- The neighbourhood of a number reaches half a unit to both sides, and a fourth below the numbers of
an exponent. -/
theorem cast_low {mantissa : Nat} (hpos : 0 < mantissa) (exponent : Int) :
    ((neighbourhood mantissa exponent).low : ℚ) =
      if mantissa = 2 ^ 52 ∧ -1074 < exponent then (4 * mantissa - 1 : ℚ) else (4 * mantissa - 2 : ℚ) := by
  have hleast : Nat.pow 2 52 = 2 ^ 52 := rfl
  unfold neighbourhood
  rw [hleast]
  dsimp only
  split_ifs
  · rw [Nat.cast_sub (by omega)]
    push_cast
    rfl
  · rw [Nat.cast_sub (by omega)]
    push_cast
    rfl

theorem cast_high (mantissa : Nat) (exponent : Int) :
    ((neighbourhood mantissa exponent).high : ℚ) = 4 * mantissa + 2 := by
  simp [neighbourhood]

section

variable {mantissa : Nat} {exponent : Int} (hfits : FitsFormat mantissa exponent) (hpos : 0 < mantissa)
  {num den : Nat} (hnum : 0 < num) (hden : 0 < den) {units : ℚ} (hunits : units = num / den / 2 ^ exponent)
  (h : (neighbourhood mantissa exponent).Contains units)

include hfits hpos hnum hden hunits h

theorem ofRatio_of_contains_full (negative : Bool) (hfull : exponent = -1074 ∨ 2 ^ 52 ≤ units) :
    ofRatio negative num den = .finite negative mantissa exponent := by
  obtain ⟨hlow, hhigh, htie⟩ := h.spec
  rw [cast_low hpos] at hlow htie
  rw [cast_high] at hhigh htie
  have hlt : (mantissa : ℚ) + 1 ≤ 2 ^ 53 := by exact_mod_cast hfits.mantissa_lt
  have hbelow : 4 * (mantissa : ℚ) - 2 ≤ 4 * units := by
    split_ifs at hlow <;> linarith
  have hexponent : unitExponent num den = exponent := by
    refine unitExponent_eq hnum hden hfits.least_le ?_ (hfull.imp_right fun hle => ?_)
    · rw [lt_two_zpow_add_iff, ← hunits, zpow_ofNat]
      linarith
    · rwa [two_zpow_add_le_iff, ← hunits, zpow_ofNat]
  have hrounded : unitMantissa num den = mantissa := by
    refine unitMantissa_eq hden (hexponent ▸ hunits) (by linarith) (by linarith) ?_
    refine htie.imp (fun hclosed => by simpa [neighbourhood] using hclosed) fun ⟨hless, hgreater⟩ => ?_
    split_ifs at hless <;> constructor <;> linarith
  have hgreatest := hfits.le_greatest
  rw [ofRatio_of_pos negative hnum, hrounded, hexponent, if_neg hfits.mantissa_lt.ne, if_neg (by omega)]

/-- A quotient below the numbers of an exponent is near just the least of them, to which it is carried. -/
theorem ofRatio_of_contains_below (negative : Bool) (hexponent : exponent ≠ -1074)
    (hunder : units < 2 ^ 52) : ofRatio negative num den = .finite negative mantissa exponent := by
  obtain ⟨hlow, hhigh, -⟩ := h.spec
  rw [cast_low hpos] at hlow
  rw [cast_high] at hhigh
  have hleast := hfits.least_le
  have hgreatest := hfits.le_greatest
  have hmin : mantissa = 2 ^ 52 := by
    have hfull := hfits.isFull.resolve_right hexponent
    have hlt : (mantissa : ℚ) < 2 ^ 52 + 1 := by
      split_ifs at hlow <;> linarith
    have : mantissa < 2 ^ 52 + 1 := by exact_mod_cast hlt
    omega
  have hcast : (mantissa : ℚ) = 2 ^ 52 := by exact_mod_cast hmin
  rw [if_pos ⟨hmin, by omega⟩, hcast] at hlow
  rw [hcast] at hhigh
  have htwice : 2 * units = num / den / 2 ^ (exponent - 1) := by
    rw [hunits, zpow_sub_one₀ two_ne_zero, ← div_div _ _ (2⁻¹ : ℚ), div_inv_eq_mul, mul_comm]
  have hlower : unitExponent num den = exponent - 1 := by
    refine unitExponent_eq hnum hden (by omega) ?_ (.inr ?_)
    · rw [lt_two_zpow_add_iff, ← htwice, zpow_ofNat]
      linarith
    · rw [two_zpow_add_le_iff, ← htwice, zpow_ofNat]
      linarith
  have hrounded : unitMantissa num den = 2 ^ 53 := by
    refine unitMantissa_eq hden (hlower ▸ htwice) ?_ ?_ (.inl (by decide)) <;> push_cast <;> linarith
  rw [ofRatio_of_pos negative hnum, if_pos hrounded, hlower, sub_add_cancel, if_neg (by omega), hmin]

end

/-- Everything in the neighbourhood of a number is rounded to it. -/
theorem ofRatio_of_contains (negative : Bool) {mantissa : Nat} {exponent : Int}
    (hfits : FitsFormat mantissa exponent) (hpos : 0 < mantissa) {num den : Nat} (hden : 0 < den)
    (h : (neighbourhood mantissa exponent).Contains (num / den / 2 ^ exponent)) :
    ofRatio negative num den = .finite negative mantissa exponent := by
  have hnum : 0 < num := by
    refine Nat.pos_of_ne_zero fun hzero => ?_
    have hlow := h.spec.1
    have hmantissa : (1 : ℚ) ≤ mantissa := by exact_mod_cast hpos
    rw [cast_low hpos, hzero, Nat.cast_zero, zero_div, zero_div] at hlow
    split_ifs at hlow <;> linarith
  by_cases hfull : exponent = -1074 ∨ 2 ^ 52 ≤ (num : ℚ) / den / 2 ^ exponent
  · exact ofRatio_of_contains_full hfits hpos hnum hden rfl h negative hfull
  · obtain ⟨hexponent, hunder⟩ := not_or.1 hfull
    exact ofRatio_of_contains_below hfits hpos hnum hden rfl h negative hexponent (not_le.1 hunder)

end Binary64

end CommandOntology
