import Mathlib.Data.Nat.Cast.Order.Field
import Mathlib.Tactic.FieldSimp
import CommandOntology.Proofs.RoundedNumbers

set_option autoImplicit false

namespace CommandOntology.Binary64

theorem lt_pow_decimalLength (n : Nat) : n < 10 ^ decimalLength n :=
  (Nat.length_toDigits_le_iff (by decide) Nat.length_toDigits_pos).1 le_rfl

theorem pow_decimalLength_le {n : Nat} (h : 0 < n) : 10 ^ (decimalLength n - 1) ≤ n := by
  obtain hone | hmore := (Nat.succ_le_of_lt (Nat.length_toDigits_pos (b := 10) (n := n))).eq_or_lt
  · rw [decimalLength, ← hone]
    exact h
  · by_contra hlt
    have := (Nat.length_toDigits_le_iff (k := decimalLength n - 1) (by decide)
      (Nat.sub_pos_of_lt hmore)).2 (not_le.1 hlt)
    exact absurd this (by unfold decimalLength; omega)

theorem ten_zpow_pos (n : Int) : (0 : ℚ) < 10 ^ n :=
  zpow_pos (by norm_num) n

theorem ten_zpow_le {m n : Int} (h : m ≤ n) : (10 : ℚ) ^ m ≤ 10 ^ n :=
  zpow_le_zpow_right₀ (by norm_num) h

theorem two_pow_lt_ten_pow {m n : Nat} (h : m < 3 * n) : (2 : ℚ) ^ m < 10 ^ n :=
  calc (2 : ℚ) ^ m < 2 ^ (3 * n) := pow_lt_pow_right₀ one_lt_two h
    _ = (2 ^ 3) ^ n := pow_mul 2 3 n
    _ ≤ 10 ^ n := pow_le_pow_left₀ (by norm_num) (by norm_num) n

theorem ten_zpow_leadingExponent_le {num den : Nat} (hnum : 0 < num) (hden : 0 < den) :
    (10 : ℚ) ^ leadingExponent num den ≤ num / den := by
  have hdenPos : (0 : ℚ) < den := Nat.cast_pos.2 hden
  have hnumPos : (0 : ℚ) < num := Nat.cast_pos.2 hnum
  unfold leadingExponent
  split_ifs with hle
  · have hquotient : 0 < num / den := Nat.div_pos hle hden
    have hlength := Nat.length_toDigits_pos (b := 10) (n := num / den)
    have hpred : (decimalLength (num / den) : Int) - 1 = (decimalLength (num / den) - 1 : Nat) := by
      unfold decimalLength
      omega
    rw [hpred, zpow_natCast]
    calc (10 : ℚ) ^ (decimalLength (num / den) - 1)
        ≤ (num / den : Nat) := by exact_mod_cast pow_decimalLength_le hquotient
      _ ≤ num / den := Nat.cast_div_le
  · have hup : den ≤ (den + num - 1) / num * num := by
      have := Nat.div_add_mod (den + num - 1) num
      have := Nat.mod_lt (den + num - 1) hnum
      rw [Nat.mul_comm]
      omega
    have hlt := lt_pow_decimalLength ((den + num - 1) / num - 1)
    have hden : (den : ℚ) ≤ 10 ^ decimalLength ((den + num - 1) / num - 1) * num := by
      have : den ≤ 10 ^ decimalLength ((den + num - 1) / num - 1) * num :=
        hup.trans (Nat.mul_le_mul_right num (by omega))
      exact_mod_cast this
    rw [zpow_neg, zpow_natCast, le_div_iff₀ hdenPos, inv_mul_le_iff₀ (by positivity)]
    exact hden

theorem ratio_eq (mantissa : Nat) (exponent : Int) :
    ((ratio mantissa exponent).1 : ℚ) / (ratio mantissa exponent).2 = mantissa * 2 ^ exponent := by
  have hpow : (2 : ℚ) ^ (-exponent).toNat ≠ 0 := pow_ne_zero _ two_ne_zero
  unfold ratio
  dsimp only
  rw [Nat.cast_mul, cast_nat_pow, cast_nat_pow, Nat.cast_ofNat, pow_toNat two_ne_zero exponent, ← mul_assoc,
    mul_div_cancel_right₀ _ hpow]

theorem ratio_pos {mantissa : Nat} (h : 0 < mantissa) (exponent : Int) :
    0 < (ratio mantissa exponent).1 ∧ 0 < (ratio mantissa exponent).2 :=
  ⟨Nat.mul_pos h (Nat.pow_pos two_pos), Nat.pow_pos two_pos⟩

def gridPoint (exponent power : Int) (digits : Nat) : ℚ :=
  digits * 10 ^ power / 2 ^ exponent

/-- The comparisons of a neighbourhood are those of its bounds with the point. -/
theorem holds_iff (area : Neighbourhood) (exponent power : Int) (digits : Nat) :
    area.holds exponent power digits = true ↔ area.Contains (gridPoint exponent power digits) := by
  obtain ⟨value, hvalue⟩ : ∃ value, value =
    digits * Nat.pow 10 power.toNat * Nat.pow 2 (2 - exponent).toNat := ⟨_, rfl⟩
  obtain ⟨scale, hscale⟩ : ∃ scale, scale =
    Nat.pow 10 (-power).toNat * Nat.pow 2 (exponent - 2).toNat := ⟨_, rfl⟩
  have hpos : 0 < scale := hscale ▸ Nat.mul_pos (Nat.pow_pos (by decide)) (Nat.pow_pos two_pos)
  have hpos : (0 : ℚ) < scale := Nat.cast_pos.2 hpos
  have heq : (value : ℚ) = 4 * gridPoint exponent power digits * scale := by
    have hunit := (two_zpow_pos exponent).ne'
    have hneg : -(exponent - 2) = 2 - exponent := by omega
    rw [hvalue, hscale, gridPoint]
    push_cast [Nat.pow_eq]
    rw [pow_toNat (by norm_num) power, pow_toNat two_ne_zero (exponent - 2), hneg, zpow_sub₀ two_ne_zero,
      zpow_ofNat]
    field_simp
    norm_num
  have hle (bound : Nat) : bound * scale ≤ value ↔ (bound : ℚ) ≤ 4 * gridPoint exponent power digits := by
    rw [← Nat.cast_le (α := ℚ), Nat.cast_mul, heq, mul_le_mul_iff_left₀ hpos]
  have hge (bound : Nat) : value ≤ bound * scale ↔ 4 * gridPoint exponent power digits ≤ bound := by
    rw [← Nat.cast_le (α := ℚ), Nat.cast_mul, heq, mul_le_mul_iff_left₀ hpos]
  unfold Neighbourhood.holds Neighbourhood.Contains
  rw [← hvalue, ← hscale]
  dsimp only
  split_ifs
  · rw [Bool.and_eq_true, decide_eq_true_eq, decide_eq_true_eq, hle, hge]
  · rw [Bool.and_eq_true, decide_eq_true_eq, decide_eq_true_eq, ← not_le, ← not_le, hge, hle, not_le, not_le]

theorem contains_of_onGrid? {mantissa digits : Nat} {exponent power : Int}
    (h : onGrid? mantissa exponent power = some digits) :
    (neighbourhood mantissa exponent).Contains (gridPoint exponent power digits) := by
  rw [← holds_iff]
  unfold onGrid? at h
  dsimp only at h
  generalize (ratio mantissa exponent).1 * Nat.pow 10 (-power).toNat = num at h
  generalize (ratio mantissa exponent).2 * Nat.pow 10 power.toNat = den at h
  cases hlow : (neighbourhood mantissa exponent).holds exponent power (num / den) <;>
    cases hhigh : (neighbourhood mantissa exponent).holds exponent power (num / den + 1) <;>
    rw [hlow, hhigh] at h
  · cases h
  · cases h
    exact hhigh
  · cases h
    exact hlow
  · dsimp only at h
    split_ifs at h
    · cases h
      exact hlow
    · cases h
      exact hhigh
    · cases h
      obtain heven | hodd := Nat.mod_two_eq_zero_or_one (num / den)
      · rw [heven]
        exact hlow
      · rw [hodd]
        exact hhigh

theorem contains_of_between {area : Neighbourhood} {units : ℚ} (hlow : (area.low : ℚ) < 4 * units)
    (hhigh : 4 * units < area.high) : area.Contains units := by
  unfold Neighbourhood.Contains
  split_ifs
  · exact ⟨hlow.le, hhigh.le⟩
  · exact ⟨hlow, hhigh⟩

theorem gridPoint_eq (exponent power : Int) (digits : Nat) :
    gridPoint exponent power digits = digits * gridPoint exponent power 1 := by
  rw [gridPoint, gridPoint, Nat.cast_one, one_mul, mul_div_assoc]

theorem gridPoint_one_pos (exponent power : Int) : 0 < gridPoint exponent power 1 := by
  rw [gridPoint, Nat.cast_one, one_mul]
  exact div_pos (ten_zpow_pos power) (two_zpow_pos exponent)

theorem exists_neighbours {mantissa : Nat} (hpos : 0 < mantissa) (exponent power : Int) : ∃ below : Nat,
    gridPoint exponent power below ≤ mantissa ∧ mantissa < gridPoint exponent power (below + 1) ∧
      (onGrid? mantissa exponent power = none →
        ¬(neighbourhood mantissa exponent).Contains (gridPoint exponent power below) ∧
          ¬(neighbourhood mantissa exponent).Contains (gridPoint exponent power (below + 1))) := by
  obtain ⟨num, hnum⟩ : ∃ num, num = (ratio mantissa exponent).1 * Nat.pow 10 (-power).toNat := ⟨_, rfl⟩
  obtain ⟨den, hden⟩ : ∃ den, den = (ratio mantissa exponent).2 * Nat.pow 10 power.toNat := ⟨_, rfl⟩
  have hratio := ratio_pos hpos exponent
  have hgrid := gridPoint_one_pos exponent power
  have hdenPos : 0 < den := hden ▸ Nat.mul_pos hratio.2 (Nat.pow_pos (by decide))
  have hdenCast : (0 : ℚ) < den := Nat.cast_pos.2 hdenPos
  have hscaled : (num : ℚ) * gridPoint exponent power 1 = mantissa * den := by
    have hnumber := ratio_eq mantissa exponent
    have hunit := (two_zpow_pos exponent).ne'
    rw [div_eq_iff (Nat.cast_ne_zero.2 hratio.2.ne')] at hnumber
    rw [hnum, hden, gridPoint]
    push_cast [Nat.pow_eq]
    rw [hnumber, pow_toNat (by norm_num) power]
    field_simp
  refine ⟨num / den, ?_, ?_, fun hnone => ?_⟩
  · have hle : ((num / den : Nat) : ℚ) * den ≤ num := by exact_mod_cast Nat.div_mul_le_self num den
    rw [gridPoint_eq, ← mul_le_mul_iff_left₀ hdenCast, ← hscaled, mul_right_comm]
    exact mul_le_mul_of_nonneg_right hle hgrid.le
  · have hlt : (num : ℚ) < (num / den + 1 : Nat) * den := by
      exact_mod_cast (Nat.mul_comm _ _).trans_gt (Nat.lt_mul_div_succ num hdenPos)
    rw [gridPoint_eq, ← mul_lt_mul_iff_left₀ hdenCast, ← hscaled, mul_right_comm]
    exact mul_lt_mul_of_pos_right hlt hgrid
  · rw [← holds_iff, ← holds_iff]
    unfold onGrid? at hnone
    dsimp only at hnone
    rw [← hnum, ← hden] at hnone
    split at hnone
    · split_ifs at hnone
    · cases hnone
    · cases hnone
    next hlow hhigh => simp [hlow, hhigh]

/-- A grid that is finer than the neighbourhood has a point there. -/
theorem exists_onGrid? {mantissa : Nat} (hpos : 0 < mantissa) {exponent power : Int}
    (hfine : 4 * gridPoint exponent power 1 <
      (neighbourhood mantissa exponent).high - (neighbourhood mantissa exponent).low) :
    ∃ digits, onGrid? mantissa exponent power = some digits := by
  obtain ⟨below, hle, hlt, hnone⟩ := exists_neighbours hpos exponent power
  refine Option.ne_none_iff_exists'.1 fun hempty => ?_
  obtain ⟨hlow, hhigh⟩ := hnone hempty
  have hmantissa : (1 : ℚ) ≤ mantissa := by exact_mod_cast hpos
  have hbelow : 4 * gridPoint exponent power below ≤ (neighbourhood mantissa exponent).low := by
    by_contra hinside
    exact hlow (contains_of_between (not_le.1 hinside) (by rw [cast_high]; linarith))
  have habove : (neighbourhood mantissa exponent).high ≤ 4 * gridPoint exponent power (below + 1) := by
    by_contra hinside
    refine hhigh (contains_of_between ?_ (not_le.1 hinside))
    rw [cast_low hpos]
    split_ifs <;> linarith
  rw [gridPoint_eq] at hbelow habove
  push_cast at habove
  linarith

def Decimal.value (d : Decimal) : ℚ :=
  d.digits * 10 ^ d.exponent

def Decimal.IsNear (d : Decimal) (mantissa : Nat) (exponent : Int) : Prop :=
  (neighbourhood mantissa exponent).Contains (d.value / 2 ^ exponent)

theorem Decimal.value_strip (count : Nat) (d : Decimal) : (d.strip count).value = d.value := by
  induction count generalizing d with
  | zero => rfl
  | succ count ih =>
    unfold Decimal.strip
    split_ifs with hzeros
    · have hdigits : (d.digits : ℚ) = (d.digits / 10 : Nat) * 10 := by
        exact_mod_cast (Nat.div_mul_cancel (Nat.dvd_of_mod_eq_zero hzeros.2)).symm
      rw [ih, value, value, hdigits, zpow_add_one₀ (by norm_num)]
      ring
    · rfl

/-- The search ends in the neighbourhood if one of the grids has a point there. -/
theorem shortestFrom_isNear {mantissa : Nat} {exponent leading : Int} (count length : Nat)
    (h : ∃ k, length ≤ k ∧ k ≤ length + count ∧
      ∃ digits, onGrid? mantissa exponent (leading - k + 1) = some digits) :
    (shortestFrom mantissa exponent leading count length).IsNear mantissa exponent := by
  induction count generalizing length with
  | zero =>
    obtain ⟨k, hle, hge, digits, hdigits⟩ := h
    obtain rfl : k = length := by omega
    unfold shortestFrom
    dsimp only
    rw [hdigits]
    exact contains_of_onGrid? hdigits
  | succ count ih =>
    unfold shortestFrom
    dsimp only
    split
    next digits hdigits =>
      rw [Decimal.IsNear, Decimal.value_strip]
      exact contains_of_onGrid? hdigits
    next hnone =>
      refine ih (length + 1) ?_
      obtain ⟨k, hle, hge, digits, hdigits⟩ := h
      obtain rfl | hlt := hle.eq_or_lt
      · rw [hnone] at hdigits
        cases hdigits
      · exact ⟨k, hlt, by omega, digits, hdigits⟩

/-- A grid of seventeen digits is finer than the neighbourhood. -/
theorem exists_onGrid?_seventeen {mantissa : Nat} {exponent : Int} (hfits : FitsFormat mantissa exponent)
    (hpos : 0 < mantissa) {leading : Int} (hleading : (10 : ℚ) ^ leading ≤ mantissa * 2 ^ exponent) :
    ∃ digits, onGrid? mantissa exponent (leading - 17 + 1) = some digits := by
  have hunit := two_zpow_pos exponent
  have hgrid : gridPoint exponent (leading - 17 + 1) 1 * 10 ^ 16 ≤ mantissa := by
    have hpower : (10 : ℚ) ^ (leading - 17 + 1) * 10 ^ 16 = 10 ^ leading := by
      rw [← zpow_natCast, ← zpow_add₀ (by norm_num)]
      congr 1
      omega
    rw [gridPoint, Nat.cast_one, one_mul, div_mul_eq_mul_div, hpower, div_le_iff₀ hunit]
    exact hleading
  have hlt : (mantissa : ℚ) < 2 ^ 53 := by exact_mod_cast hfits.mantissa_lt
  refine exists_onGrid? hpos ?_
  rw [cast_high, cast_low hpos]
  split_ifs with hmin
  · have hcast : (mantissa : ℚ) = 2 ^ 52 := by exact_mod_cast hmin.1
    rw [hcast] at hgrid ⊢
    norm_num at hgrid ⊢
    linarith
  · norm_num at hgrid ⊢
    linarith

/-- The shortest decimal of a number lies in its neighbourhood. -/
theorem shortest_isNear {mantissa : Nat} {exponent : Int} (hfits : FitsFormat mantissa exponent)
    (hpos : 0 < mantissa) : (shortest mantissa exponent).IsNear mantissa exponent := by
  obtain ⟨hnum, hden⟩ := ratio_pos hpos exponent
  have hleading := ten_zpow_leadingExponent_le hnum hden
  rw [ratio_eq] at hleading
  unfold shortest
  rw [if_neg hpos.ne']
  exact shortestFrom_isNear 17 1 ⟨17, by decide, by decide, exists_onGrid?_seventeen hfits hpos hleading⟩

theorem Decimal.IsNear.bounds {d : Decimal} {mantissa : Nat} {exponent : Int} (hpos : 0 < mantissa)
    (hfits : FitsFormat mantissa exponent) (h : d.IsNear mantissa exponent) :
    (2 : ℚ) ^ (-1075 : Int) ≤ d.value ∧ d.value < 2 ^ (1024 : Int) := by
  obtain ⟨hlow, hhigh, -⟩ := Neighbourhood.Contains.spec h
  rw [cast_low hpos] at hlow
  rw [cast_high] at hhigh
  have hmantissa : (1 : ℚ) ≤ mantissa := by exact_mod_cast hpos
  have hlt : (mantissa : ℚ) + 1 ≤ 2 ^ 53 := by exact_mod_cast hfits.mantissa_lt
  constructor
  · calc (2 : ℚ) ^ (-1075 : Int) ≤ 2 ^ (exponent + -1) := (two_zpow_le_iff _ _).2 (by
          have := hfits.least_le
          omega)
      _ ≤ d.value := by
        rw [two_zpow_add_le_iff]
        split_ifs at hlow <;> norm_num <;> linarith
  · calc d.value < 2 ^ (exponent + 53) := by
          rw [lt_two_zpow_add_iff, zpow_ofNat]
          linarith
      _ ≤ 2 ^ (1024 : Int) := (two_zpow_le_iff _ _).2 (by
          have := hfits.le_greatest
          omega)

theorem Decimal.value_bounds {d : Decimal} (h : 0 < d.digits) :
    (10 : ℚ) ^ ((decimalLength d.digits : Int) + d.exponent - 1) ≤ d.value ∧
      d.value < 10 ^ ((decimalLength d.digits : Int) + d.exponent) := by
  have hten := ten_zpow_pos d.exponent
  have hlength : 0 < decimalLength d.digits := Nat.length_toDigits_pos
  have hlow : (10 : ℚ) ^ (decimalLength d.digits - 1) ≤ d.digits := by exact_mod_cast pow_decimalLength_le h
  have hhigh : (d.digits : ℚ) < 10 ^ decimalLength d.digits := by exact_mod_cast lt_pow_decimalLength d.digits
  constructor
  · have hexponent : (decimalLength d.digits : Int) + d.exponent - 1 =
        (decimalLength d.digits - 1 : Nat) + d.exponent := by omega
    rw [hexponent, zpow_add₀ (by norm_num), zpow_natCast]
    exact mul_le_mul_of_nonneg_right hlow hten.le
  · rw [zpow_add₀ (by norm_num), zpow_natCast]
    exact mul_lt_mul_of_pos_right hhigh hten

/-- The decimals near numbers are among those that are computed with. -/
theorem Decimal.IsNear.magnitude {d : Decimal} {mantissa : Nat} {exponent : Int} (hpos : 0 < mantissa)
    (hfits : FitsFormat mantissa exponent) (h : d.IsNear mantissa exponent) : 0 < d.digits ∧
      -400 ≤ (decimalLength d.digits : Int) + d.exponent ∧
      (decimalLength d.digits : Int) + d.exponent ≤ 400 := by
  obtain ⟨hlow, hhigh⟩ := h.bounds hpos hfits
  have hdigits : 0 < d.digits := by
    refine Nat.pos_of_ne_zero fun hzero => ?_
    rw [Decimal.value, hzero, Nat.cast_zero, zero_mul] at hlow
    exact absurd (two_zpow_pos _) (not_lt.2 hlow)
  obtain ⟨habove, hbelow⟩ := Decimal.value_bounds hdigits
  refine ⟨hdigits, ?_, ?_⟩
  · by_contra hsmall
    have hten : (10 : ℚ) ^ ((decimalLength d.digits : Int) + d.exponent) ≤ 10 ^ (-401 : Int) :=
      ten_zpow_le (by omega)
    have hpowers : (10 : ℚ) ^ (-401 : Int) < 2 ^ (-1075 : Int) := by
      rw [zpow_neg, zpow_neg, zpow_ofNat, zpow_ofNat, inv_lt_inv₀ (by positivity) (by positivity)]
      exact two_pow_lt_ten_pow (by decide)
    exact absurd (hlow.trans_lt hbelow) (not_lt.2 (hten.trans hpowers.le))
  · by_contra hlarge
    have hten : (10 : ℚ) ^ (400 : Int) ≤ 10 ^ ((decimalLength d.digits : Int) + d.exponent - 1) :=
      ten_zpow_le (by omega)
    have hpowers : (2 : ℚ) ^ (1024 : Int) < 10 ^ (400 : Int) := by
      rw [zpow_ofNat, zpow_ofNat]
      exact two_pow_lt_ten_pow (by decide)
    exact absurd hhigh (not_lt.2 (hpowers.le.trans (hten.trans habove)))

/-- A decimal near a number is rounded to it. -/
theorem ofDecimal_of_isNear (negative : Bool) {mantissa : Nat} {exponent : Int}
    (hfits : FitsFormat mantissa exponent) (hpos : 0 < mantissa) {d : Decimal}
    (h : d.IsNear mantissa exponent) :
    ofDecimal negative d.digits d.exponent = .finite negative mantissa exponent := by
  obtain ⟨hdigits, hsmall, hlarge⟩ := h.magnitude hpos hfits
  have hvalue : ((d.digits * Nat.pow 10 d.exponent.toNat : Nat) : ℚ) / (Nat.pow 10 (-d.exponent).toNat : Nat) =
      d.value := by
    have hpow : (10 : ℚ) ^ (-d.exponent).toNat ≠ 0 := pow_ne_zero _ (by norm_num)
    push_cast [Nat.pow_eq]
    rw [Decimal.value, pow_toNat (by norm_num) d.exponent, ← mul_assoc, mul_div_cancel_right₀ _ hpow]
  unfold ofDecimal
  dsimp only
  rw [if_neg hdigits.ne', if_neg (by omega), if_neg (by omega)]
  refine ofRatio_of_contains negative hfits hpos (Nat.pow_pos (by decide)) ?_
  rw [hvalue]
  exact h

theorem isOfFormat_ofDecimal (negative : Bool) (digits : Nat) (exponent : Int) :
    (ofDecimal negative digits exponent).IsOfFormat := by
  unfold ofDecimal
  dsimp only
  split_ifs
  · exact fitsFormat_zero
  · trivial
  · exact fitsFormat_zero
  · exact isOfFormat_ofRatio (Nat.pow_pos (by decide)) negative

end CommandOntology.Binary64
