import CommandOntology.Proofs.NumberOrder
import CommandOntology.Proofs.WrittenNumbers

set_option autoImplicit false

namespace CommandOntology

/-- The integer is at most a half away from the quotient, and even if it is a half away. -/
theorem roundHalfEven_spec (num : Nat) {den : Nat} (hden : 0 < den) :
    2 * (roundHalfEven num den : ℚ) - 1 ≤ 2 * (num / den) ∧
      2 * (num / den : ℚ) ≤ 2 * roundHalfEven num den + 1 ∧
      (roundHalfEven num den % 2 = 0 ∨ 2 * (roundHalfEven num den : ℚ) - 1 < 2 * (num / den) ∧
        2 * (num / den : ℚ) < 2 * roundHalfEven num den + 1) := by
  have hnum : den * (num / den) + num % den = num := Nat.div_add_mod num den
  have hrest : num % den < den := Nat.mod_lt num hden
  have hpos : (0 : ℚ) < den := Nat.cast_pos.2 hden
  have hquotient : (num : ℚ) / den = (num / den : Nat) + (num % den : Nat) / den := by
    rw [div_eq_iff hpos.ne', add_mul, div_mul_cancel₀ _ hpos.ne', mul_comm]
    exact_mod_cast hnum.symm
  have hnonneg : (0 : ℚ) ≤ (num % den : Nat) / den := by positivity
  unfold roundHalfEven
  dsimp only
  rw [hquotient]
  generalize num / den = q at *
  generalize num % den = r at *
  split_ifs with hbelow habove
  · have hless : (r : ℚ) / den < 1 / 2 := by
      rw [div_lt_div_iff₀ hpos two_pos]
      exact_mod_cast (by omega : r * 2 < 1 * den)
    exact ⟨by linarith, by linarith, .inr ⟨by linarith, by linarith⟩⟩
  · have hgreater : 1 / 2 < (r : ℚ) / den := by
      rw [div_lt_div_iff₀ two_pos hpos]
      exact_mod_cast (by omega : 1 * den < r * 2)
    have hone : (r : ℚ) / den < 1 := by
      rw [div_lt_one hpos]
      exact_mod_cast hrest
    push_cast
    exact ⟨by linarith, by linarith, .inr ⟨by linarith, by linarith⟩⟩
  · -- The quotient is half way between two integers, of which the even one is taken.
    have hhalf : (r : ℚ) / den = 1 / 2 := by
      rw [div_eq_div_iff hpos.ne' two_ne_zero]
      exact_mod_cast (by omega : r * 2 = 1 * den)
    rw [hhalf]
    obtain heven | hodd := Nat.mod_two_eq_zero_or_one q
    · rw [heven, Nat.add_zero]
      exact ⟨by linarith, by linarith, .inl heven⟩
    · rw [hodd]
      push_cast
      exact ⟨by linarith, by linarith, .inl (by omega)⟩

theorem roundHalfEven_mono {num den num' den' : Nat} (hden : 0 < den) (hden' : 0 < den')
    (h : (num : ℚ) / den ≤ num' / den') : roundHalfEven num den ≤ roundHalfEven num' den' := by
  obtain ⟨hlow, -, htie⟩ := roundHalfEven_spec num hden
  obtain ⟨-, hhigh, htie'⟩ := roundHalfEven_spec num' hden'
  generalize roundHalfEven num den = k at *
  generalize roundHalfEven num' den' = k' at *
  by_contra hlt
  have hnext : (k' : ℚ) + 1 ≤ k := by exact_mod_cast not_le.1 hlt
  have hk : k = k' + 1 := by
    have hle : (k : ℚ) ≤ k' + 1 := by linarith
    exact le_antisymm (by exact_mod_cast hle) (not_le.1 hlt)
  -- Both quotients are half way between the two integers, so that both of them would be even.
  have heven := htie.resolve_right fun hstrict => by linarith [hstrict.1]
  have heven' := htie'.resolve_right fun hstrict => by linarith [hstrict.2]
  omega

namespace Binary64

section

variable {num den num' den' : Nat} (hden : 0 < den) (hden' : 0 < den') (hnum : 0 < num)
  (h : (num : ℚ) / den ≤ num' / den')

include hden hden' hnum h

omit hden' in
theorem num_pos_of_le : 0 < num' := by
  have hpos : (0 : ℚ) < num / den := div_pos (Nat.cast_pos.2 hnum) (Nat.cast_pos.2 hden)
  refine Nat.pos_of_ne_zero fun hzero => ?_
  rw [hzero, Nat.cast_zero, zero_div] at h
  exact absurd hpos (not_lt.2 h)

theorem unitExponent_mono : unitExponent num den ≤ unitExponent num' den' := by
  obtain ⟨-, -, hlow⟩ := unitExponent_spec hnum hden
  obtain ⟨hleast, hhigh, -⟩ := unitExponent_spec (num_pos_of_le hden hnum h) hden'
  obtain heq | hlow := hlow
  · exact heq ▸ hleast
  · have := (two_zpow_lt_iff _ _).1 ((hlow.trans h).trans_lt hhigh)
    omega

end

def rounded (num den : Nat) : ℚ :=
  unitMantissa num den * 2 ^ unitExponent num den

theorem rounded_zero (den : Nat) : rounded 0 den = 0 := by
  have hzero (d : Nat) : roundHalfEven 0 d = 0 := by
    unfold roundHalfEven
    simp
  rw [rounded, unitMantissa, Nat.zero_mul, hzero, Nat.cast_zero, zero_mul]

theorem rounded_nonneg (num den : Nat) : 0 ≤ rounded num den :=
  mul_nonneg (Nat.cast_nonneg _) (two_zpow_pos _).le

theorem two_zpow_le_rounded {num den : Nat} (hnum : 0 < num) (hden : 0 < den)
    (h : unitExponent num den ≠ -1074) : (2 : ℚ) ^ (unitExponent num den + 52) ≤ rounded num den := by
  have hfull := (unitMantissa_spec hden hnum).2.resolve_left h
  have hcast : (2 : ℚ) ^ (52 : Int) ≤ unitMantissa num den := by exact_mod_cast hfull
  rw [add_comm, zpow_add₀ two_ne_zero]
  exact mul_le_mul_of_nonneg_right hcast (two_zpow_pos _).le

theorem rounded_le_two_zpow {num den : Nat} (hnum : 0 < num) (hden : 0 < den) :
    rounded num den ≤ 2 ^ (unitExponent num den + 53) := by
  have hle := (unitMantissa_spec hden hnum).1
  have hcast : (unitMantissa num den : ℚ) ≤ 2 ^ (53 : Int) := by exact_mod_cast hle
  rw [add_comm, zpow_add₀ two_ne_zero]
  exact mul_le_mul_of_nonneg_right hcast (two_zpow_pos _).le

theorem rounded_mono {num den num' den' : Nat} (hden : 0 < den) (hden' : 0 < den')
    (h : (num : ℚ) / den ≤ num' / den') : rounded num den ≤ rounded num' den' := by
  obtain rfl | hnum := num.eq_zero_or_pos
  · rw [rounded_zero]
    exact rounded_nonneg num' den'
  have hnum' := num_pos_of_le hden hnum h
  obtain heq | hlt := (unitExponent_mono hden hden' hnum h).eq_or_lt
  · have hunits : ((num * Nat.pow 2 (-unitExponent num den).toNat : Nat) : ℚ) /
        (den * Nat.pow 2 (unitExponent num den).toNat : Nat) ≤
          ((num' * Nat.pow 2 (-unitExponent num den).toNat : Nat) : ℚ) /
            (den' * Nat.pow 2 (unitExponent num den).toNat : Nat) := by
      rw [ratio_mul_pow_eq, ratio_mul_pow_eq]
      exact div_le_div_of_nonneg_right h (two_zpow_pos _).le
    have hmantissa : unitMantissa num den ≤ unitMantissa num' den' := by
      unfold unitMantissa
      rw [← heq]
      exact roundHalfEven_mono (den_pos hden _) (den_pos hden' _) hunits
    unfold rounded
    rw [← heq]
    exact mul_le_mul_of_nonneg_right (by exact_mod_cast hmantissa) (two_zpow_pos _).le
  · -- Between the numbers of two exponents there is a power of two.
    obtain ⟨hleast, -⟩ := unitExponent_spec hnum hden
    calc rounded num den ≤ 2 ^ (unitExponent num den + 53) := rounded_le_two_zpow hnum hden
      _ ≤ 2 ^ (unitExponent num' den' + 52) := (two_zpow_le_iff _ _).2 (by omega)
      _ ≤ rounded num' den' := two_zpow_le_rounded hnum' hden' (by omega)

@[irreducible]
def limit : ℚ :=
  2 ^ (1024 : Int)

theorem limit_le_iff (n : Int) : limit ≤ 2 ^ n ↔ 1024 ≤ n := by
  rw [limit, two_zpow_le_iff]

theorem two_zpow_le_limit {n : Int} (h : n ≤ 1024) : 2 ^ n ≤ limit := by
  rwa [limit, two_zpow_le_iff]

theorem limit_pos : 0 < limit := by
  rw [limit]
  exact two_zpow_pos 1024

def signed (negative : Bool) (q : ℚ) : ℚ :=
  if negative then -q else q

theorem signed_true (q : ℚ) : signed true q = -q :=
  if_pos rfl

theorem signed_false (q : ℚ) : signed false q = q :=
  if_neg Bool.false_ne_true

def toRat : Binary64 → ℚ
  | nan => 0
  | infinite negative => signed negative limit
  | finite negative mantissa exponent =>
    Scaled.value ⟨if negative then -(mantissa : Int) else mantissa, exponent⟩

theorem toRat_infinite (negative : Bool) : (infinite negative).toRat = signed negative limit := by
  rw [toRat]

theorem toRat_finite (negative : Bool) (mantissa : Nat) (exponent : Int) :
    (finite negative mantissa exponent).toRat = signed negative ((mantissa : ℚ) * 2 ^ exponent) := by
  cases negative <;> simp [toRat, Scaled.value, signed]

theorem signed_zero (negative : Bool) : signed negative 0 = 0 := by
  cases negative <;> simp [signed]

theorem toRat_zero (negative : Bool) : (zero negative).toRat = 0 := by
  rw [zero, toRat_finite, Nat.cast_zero, zero_mul, signed_zero]

theorem FitsFormat.value_lt {mantissa : Nat} {exponent : Int} (h : FitsFormat mantissa exponent) :
    (mantissa : ℚ) * 2 ^ exponent < limit := by
  have hmantissa : (mantissa : ℚ) < 2 ^ (53 : Int) := by exact_mod_cast h.mantissa_lt
  calc (mantissa : ℚ) * 2 ^ exponent < 2 ^ (53 : Int) * 2 ^ exponent :=
        mul_lt_mul_of_pos_right hmantissa (two_zpow_pos exponent)
    _ = 2 ^ (53 + exponent) := (zpow_add₀ two_ne_zero _ _).symm
    _ ≤ limit := two_zpow_le_limit (by
        have := h.le_greatest
        omega)

theorem toRat_finite_bounds {mantissa : Nat} {exponent : Int} (h : FitsFormat mantissa exponent)
    (negative : Bool) : -limit < (finite negative mantissa exponent).toRat ∧
      (finite negative mantissa exponent).toRat < limit := by
  have hnonneg : (0 : ℚ) ≤ (mantissa : ℚ) * 2 ^ exponent :=
    mul_nonneg (Nat.cast_nonneg _) (two_zpow_pos _).le
  have hpos := limit_pos
  have hlt := h.value_lt
  rw [toRat_finite, signed]
  split_ifs
  · exact ⟨by linarith, by linarith⟩
  · exact ⟨by linarith, hlt⟩

theorem toRat_bounds {x : Binary64} (h : x.IsOfFormat) : -limit ≤ x.toRat ∧ x.toRat ≤ limit := by
  have hpos := limit_pos
  cases x with
  | nan =>
    rw [toRat]
    exact ⟨(neg_lt_zero.2 hpos).le, hpos.le⟩
  | infinite negative =>
    rw [toRat_infinite]
    cases negative with
    | true =>
      rw [signed_true]
      exact ⟨le_rfl, by linarith⟩
    | false =>
      rw [signed_false]
      exact ⟨by linarith, le_rfl⟩
  | finite negative mantissa exponent =>
    obtain ⟨hlow, hhigh⟩ := toRat_finite_bounds h negative
    exact ⟨hlow.le, hhigh.le⟩

theorem order?_eq_compare {x y : Binary64} (hx : x.IsOfFormat) (hy : y.IsOfFormat) (hx' : x ≠ nan)
    (hy' : y ≠ nan) : x.order? y = some (compare x.toRat y.toRat) := by
  have hless : -limit < limit := by linarith [limit_pos]
  cases x with
  | nan => exact absurd rfl hx'
  | infinite a =>
    cases y with
    | nan => exact absurd rfl hy'
    | infinite b =>
      rw [toRat_infinite, toRat_infinite]
      cases a <;> cases b
      · rw [compare_eq_iff_eq.2 rfl, order?]
        rfl
      · rw [signed_true, signed_false, compare_gt_iff_gt.2 hless, order?]
        rfl
      · rw [signed_true, signed_false, compare_lt_iff_lt.2 hless, order?]
        rfl
      · rw [compare_eq_iff_eq.2 rfl, order?]
        rfl
    | finite b n f =>
      obtain ⟨hlow, hhigh⟩ := toRat_finite_bounds hy b
      rw [toRat_infinite]
      cases a
      · rw [signed_false, compare_gt_iff_gt.2 hhigh, order?]
        simp
      · rw [signed_true, compare_lt_iff_lt.2 hlow, order?]
        simp
  | finite a m e =>
    cases y with
    | nan => exact absurd rfl hy'
    | infinite b =>
      obtain ⟨hlow, hhigh⟩ := toRat_finite_bounds hx a
      rw [toRat_infinite]
      cases b
      · rw [signed_false, compare_lt_iff_lt.2 hhigh, order?]
        simp
      · rw [signed_true, compare_gt_iff_gt.2 hlow, order?]
        simp
    | finite b n f => rw [order?, Scaled.order_eq_compare, toRat, toRat]

theorem orderInt?_finite (n : Int) (negative : Bool) (mantissa : Nat) (exponent : Int) :
    orderInt? n (finite negative mantissa exponent) =
      some (compare (n : ℚ) (finite negative mantissa exponent).toRat) := by
  have hvalue : Scaled.value ⟨n, 0⟩ = n := by simp [Scaled.value]
  rw [orderInt?, Scaled.order_eq_compare, hvalue, toRat]

/-- What is rounded to an infinite number would be rounded to the limit or beyond. -/
theorem toRat_ofRatio (negative : Bool) (num : Nat) {den : Nat} (hden : 0 < den) :
    (ofRatio negative num den).toRat = signed negative (min (rounded num den) limit) := by
  obtain rfl | hnum := num.eq_zero_or_pos
  · rw [ofRatio, if_pos rfl, toRat_zero, rounded_zero, min_eq_left limit_pos.le, signed_zero]
  have hinfinite (h : limit ≤ rounded num den) :
      (infinite negative).toRat = signed negative (min (rounded num den) limit) := by
    rw [min_eq_right h, toRat]
  have hfinite {mantissa : Nat} {exponent : Int} (hfits : FitsFormat mantissa exponent)
      (h : rounded num den = mantissa * 2 ^ exponent) :
      (finite negative mantissa exponent).toRat = signed negative (min (rounded num den) limit) := by
    rw [toRat_finite, h, min_eq_left hfits.value_lt.le]
  obtain ⟨hleast, -, -⟩ := unitExponent_spec hnum hden
  obtain ⟨hle, hfull⟩ := unitMantissa_spec hden hnum
  have hcarry (hcarried : unitMantissa num den = 2 ^ 53) :
      rounded num den = 2 ^ (53 + unitExponent num den) := by
    rw [rounded, hcarried, zpow_add₀ two_ne_zero]
    norm_cast
  rw [ofRatio_of_pos negative hnum]
  split_ifs with hcarried hlarge hlarge
  · refine hinfinite ?_
    rw [hcarry hcarried, limit_le_iff]
    omega
  · refine hfinite ⟨by decide, by omega, by omega, .inl le_rfl⟩ ?_
    have hexponent : 53 + unitExponent num den = 52 + (unitExponent num den + 1) := by omega
    rw [hcarry hcarried, hexponent, zpow_add₀ two_ne_zero]
    norm_cast
  · refine hinfinite (le_trans ?_ (two_zpow_le_rounded hnum hden (by omega)))
    rw [limit_le_iff]
    omega
  · exact hfinite ⟨by omega, hleast, by omega, hfull.symm⟩ rfl

section

variable {num den num' den' : Nat} (hden : 0 < den) (hden' : 0 < den')

include hden hden'

theorem toRat_ofRatio_mono (h : (num : ℚ) / den ≤ num' / den') :
    (ofRatio false num den).toRat ≤ (ofRatio false num' den').toRat := by
  rw [toRat_ofRatio false num hden, toRat_ofRatio false num' hden', signed_false, signed_false]
  exact min_le_min_right limit (rounded_mono hden hden' h)

theorem toRat_ofRatio_congr (negative : Bool) (h : (num : ℚ) / den = num' / den') :
    (ofRatio negative num den).toRat = (ofRatio negative num' den').toRat := by
  have heq := le_antisymm (rounded_mono hden hden' h.le) (rounded_mono hden' hden h.ge)
  rw [toRat_ofRatio negative num hden, toRat_ofRatio negative num' hden', heq]

end

theorem toRat_ofRatio_nonneg (num : Nat) {den : Nat} (hden : 0 < den) :
    0 ≤ (ofRatio false num den).toRat := by
  rw [toRat_ofRatio false num hden, signed_false]
  exact le_min (rounded_nonneg num den) limit_pos.le

theorem toRat_ofRatio_true (num : Nat) {den : Nat} (hden : 0 < den) :
    (ofRatio true num den).toRat = -(ofRatio false num den).toRat := by
  rw [toRat_ofRatio true num hden, toRat_ofRatio false num hden, signed_true, signed_false]

def nearest (q : ℚ) : Binary64 :=
  ofRatio (decide (q < 0)) q.num.natAbs q.den

theorem natAbs_num_div_den (q : ℚ) : ((q.num.natAbs : Nat) : ℚ) / q.den = |q| := by
  have hden : (0 : ℚ) < q.den := Nat.cast_pos.2 q.den_pos
  conv_rhs => rw [← Rat.num_div_den q, abs_div, abs_of_pos hden]
  rw [Nat.cast_natAbs, Int.cast_abs]

theorem toRat_nearest_mono {p q : ℚ} (h : p ≤ q) : (nearest p).toRat ≤ (nearest q).toRat := by
  have hmagnitude {p q : ℚ} (h : |p| ≤ |q|) :
      (ofRatio false p.num.natAbs p.den).toRat ≤ (ofRatio false q.num.natAbs q.den).toRat :=
    toRat_ofRatio_mono p.den_pos q.den_pos (by rwa [natAbs_num_div_den, natAbs_num_div_den])
  unfold nearest
  by_cases hp : p < 0
  · have hnonneg := toRat_ofRatio_nonneg p.num.natAbs p.den_pos
    rw [decide_eq_true hp, toRat_ofRatio_true _ p.den_pos]
    by_cases hq : q < 0
    · rw [decide_eq_true hq, toRat_ofRatio_true _ q.den_pos]
      refine neg_le_neg (hmagnitude ?_)
      rw [abs_of_neg hp, abs_of_neg hq]
      exact neg_le_neg h
    · rw [decide_eq_false hq]
      exact (neg_nonpos.2 hnonneg).trans (toRat_ofRatio_nonneg _ q.den_pos)
  · have hq : ¬q < 0 := fun hq => hp (h.trans_lt hq)
    rw [decide_eq_false hp, decide_eq_false hq]
    refine hmagnitude ?_
    rwa [abs_of_nonneg (not_lt.1 hp), abs_of_nonneg (not_lt.1 hq)]

/-- A quotient with its sign is rounded as the rational number that it is. -/
theorem toRat_ofRatio_eq (negative : Bool) (num : Nat) {den : Nat} (hden : 0 < den) :
    (ofRatio negative num den).toRat =
      (nearest (signed negative ((num : ℚ) / den))).toRat := by
  have hnonneg : (0 : ℚ) ≤ num / den := by positivity
  have habs (q : ℚ) (hq : |q| = num / den) (sign : Bool) :
      (ofRatio sign num den).toRat = (ofRatio sign q.num.natAbs q.den).toRat :=
    toRat_ofRatio_congr hden q.den_pos sign (by rw [natAbs_num_div_den, hq])
  obtain rfl | hnum := num.eq_zero_or_pos
  · have hzero (sign : Bool) : (ofRatio sign 0 den).toRat = 0 := by rw [ofRatio, if_pos rfl, toRat_zero]
    rw [Nat.cast_zero, zero_div, signed_zero, hzero, nearest, ← habs 0 (by simp), hzero]
  have hpos : (0 : ℚ) < num / den := div_pos (Nat.cast_pos.2 hnum) (Nat.cast_pos.2 hden)
  cases negative with
  | false =>
    rw [signed_false, nearest, decide_eq_false (not_lt.2 hnonneg)]
    exact habs _ (abs_of_nonneg hnonneg) false
  | true =>
    rw [signed_true, nearest, decide_eq_true (neg_lt_zero.2 hpos)]
    exact habs _ (by rw [abs_neg, abs_of_nonneg hnonneg]) true

theorem toRat_nearest_toRat {negative : Bool} {mantissa : Nat} {exponent : Int}
    (h : FitsFormat mantissa exponent) :
    (nearest (finite negative mantissa exponent).toRat).toRat =
      (finite negative mantissa exponent).toRat := by
  have hden : 0 < (ratio mantissa exponent).2 := Nat.pow_pos two_pos
  rw [toRat_finite, ← ratio_eq, ← toRat_ofRatio_eq negative _ hden, ratio_eq, ← toRat_finite]
  obtain rfl | hpos := mantissa.eq_zero_or_pos
  · have hnum : (ratio 0 exponent).1 = 0 := Nat.zero_mul _
    rw [hnum, ofRatio, if_pos rfl, toRat_zero, toRat_finite, Nat.cast_zero, zero_mul, signed_zero]
  · rw [ofRatio_of_contains negative h hpos hden]
    rw [ratio_eq, mul_div_cancel_right₀ _ (two_zpow_pos exponent).ne']
    unfold Neighbourhood.Contains
    rw [cast_low hpos, cast_high]
    split_ifs <;> constructor <;> linarith

theorem ofInt_eq_nearest (n : Int) : ofInt n = nearest n := by
  simp [ofInt, nearest]

theorem toRat_ofInt_mono {m n : Int} (h : m ≤ n) : (ofInt m).toRat ≤ (ofInt n).toRat := by
  rw [ofInt_eq_nearest, ofInt_eq_nearest]
  exact toRat_nearest_mono (Int.cast_le.2 h)

theorem isOfFormat_ofInt (n : Int) : (ofInt n).IsOfFormat :=
  isOfFormat_ofRatio Nat.one_pos _

theorem toRat_ofInt_le {n : Int} {x : Binary64} (hx : x.IsOfFormat) (h : orderInt? n x = some .lt) :
    (ofInt n).toRat ≤ x.toRat := by
  cases x with
  | nan => cases h
  | infinite negative =>
    cases negative with
    | true => cases h
    | false => exact (toRat_bounds (isOfFormat_ofInt n)).2
  | finite negative mantissa exponent =>
    rw [orderInt?_finite, Option.some.injEq, compare_lt_iff_lt] at h
    rw [ofInt_eq_nearest, ← toRat_nearest_toRat hx]
    exact toRat_nearest_mono h.le

theorem le_toRat_ofInt {n : Int} {x : Binary64} (hx : x.IsOfFormat) (h : orderInt? n x = some .gt) :
    x.toRat ≤ (ofInt n).toRat := by
  cases x with
  | nan => cases h
  | infinite negative =>
    cases negative with
    | true => exact (toRat_bounds (isOfFormat_ofInt n)).1
    | false => cases h
  | finite negative mantissa exponent =>
    rw [orderInt?_finite, Option.some.injEq, compare_gt_iff_gt] at h
    rw [ofInt_eq_nearest, ← toRat_nearest_toRat hx]
    exact toRat_nearest_mono h.le

/-- An integer with so many digits is not computed with: it is beyond all finite numbers. -/
theorem limit_le_rounded {digits : Nat} (hpos : 0 < digits) (h : 400 < decimalLength digits) :
    limit ≤ rounded digits 1 := by
  obtain ⟨-, hhigh, -⟩ := unitExponent_spec hpos Nat.one_pos
  rw [Nat.cast_one, div_one] at hhigh
  have hpowers : (2 : ℚ) ^ (1024 : Int) < 2 ^ (unitExponent digits 1 + 53) :=
    calc (2 : ℚ) ^ (1024 : Int) = 2 ^ 1024 := zpow_ofNat 2 1024
      _ < 10 ^ 400 := two_pow_lt_ten_pow (by decide)
      _ ≤ 10 ^ (decimalLength digits - 1) := pow_le_pow_right₀ (by norm_num) (by omega)
      _ ≤ digits := by exact_mod_cast pow_decimalLength_le hpos
      _ < 2 ^ (unitExponent digits 1 + 53) := hhigh
  have hexponent := (two_zpow_lt_iff _ _).1 hpowers
  exact ((limit_le_iff _).2 (by omega)).trans (two_zpow_le_rounded hpos Nat.one_pos (by omega))

/-- Digits are read as the number that is nearest to them, also where they are too many to be computed
with. -/
theorem toRat_ofDecimal_zero (negative : Bool) (digits : Nat) :
    (ofDecimal negative digits 0).toRat = (ofRatio negative digits 1).toRat := by
  unfold ofDecimal
  dsimp only
  split_ifs with hzero hlarge hsmall
  · rw [hzero, ofRatio, if_pos rfl]
  · rw [toRat_infinite, toRat_ofRatio negative digits Nat.one_pos,
      min_eq_right (limit_le_rounded (Nat.pos_of_ne_zero hzero) (by omega))]
  · omega
  · have hnum : digits * Nat.pow 10 (0 : Int).toNat = digits := Nat.mul_one digits
    have hden : Nat.pow 10 (-(0 : Int)).toNat = 1 := rfl
    rw [hnum, hden]

end Binary64

end CommandOntology
