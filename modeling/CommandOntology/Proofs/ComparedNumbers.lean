import CommandOntology.Proofs.SolutionModifiers

set_option autoImplicit false

/-!
# Numbers that are compared and sorted

A filter compares integers exactly, and the order of solutions compares the numbers of the format that they
are rounded to, and then their texts. Rounding keeps the order, so that the two agree unless numbers that a
filter tells apart are rounded to one number, and their texts are in the opposite order.
-/

namespace CommandOntology

namespace Binary64

theorem ofRatio_ne_nan (negative : Bool) (num den : Nat) : ofRatio negative num den ≠ nan := by
  obtain rfl | hnum := num.eq_zero_or_pos
  · simp [ofRatio, zero]
  · rw [ofRatio_of_pos negative hnum]
    split_ifs <;> simp

theorem ofDecimal_ne_nan (negative : Bool) (digits : Nat) (exponent : Int) :
    ofDecimal negative digits exponent ≠ nan := by
  unfold ofDecimal
  dsimp only
  split_ifs
  · simp [zero]
  · simp
  · simp [zero]
  · exact ofRatio_ne_nan _ _ _

end Binary64

namespace Reading

theorem readDecimal_of_readDigits {text digits : List Char} (h : readDigits true text = some (digits, [])) :
    ∃ c rest, text = c :: rest ∧ Text.isDecimalDigit c = true ∧
      readDecimal text = some ⟨digits, [], 0⟩ := by
  cases text with
  | nil => cases h
  | cons c rest =>
    have hc : Text.isDecimalDigit c = true := by
      by_contra hc
      simp [readDigits, hc] at h
    refine ⟨c, rest, rfl, hc, ?_⟩
    have hne : digits ≠ [] := by
      rw [readDigits, if_pos hc] at h
      obtain ⟨r, -, hr⟩ := Option.map_eq_some_iff.1 h
      rw [← (Prod.mk.inj hr).1]
      exact List.cons_ne_nil _ _
    simp [readDecimal, readOptionalDigits, hc, h, readExponent, hne]

theorem integer_eq_ok {text : String} {n : Int} (h : integer text = .ok n) :
    ∃ negative digits, integer? text.toList = some (negative, digits) ∧
      n = if negative then -(number digits : Int) else number digits := by
  unfold integer at h
  split at h
  · cases h
  next negative digits hread =>
    split at h
    · cases h
    · exact ⟨negative, digits, hread, (Except.ok.inj h).symm⟩

/-- A text that is read as an integer is also read as the number that is nearest to it. -/
theorem float_of_integer {text : String} {n : Int} (h : integer text = .ok n) :
    ∃ x, float text = .ok x ∧ x ≠ .nan ∧ x.toRat = (Binary64.ofInt n).toRat := by
  obtain ⟨negative, digits, hread, rfl⟩ := integer_eq_ok h
  unfold integer? at hread
  dsimp only at hread
  cases hsign : readSign (Text.trimBy isBlankAround text.toList) with
  | mk sign rest =>
    rw [hsign] at hread
    dsimp only at hread
    split at hread
    next digits hdigits =>
      cases hread
      obtain ⟨c, tail, rfl, hc, hdecimal⟩ := readDecimal_of_readDigits hdigits
      refine ⟨Binary64.ofDecimal negative (number digits) 0, ?_, Binary64.ofDecimal_ne_nan _ _ _, ?_⟩
      · rw [float, float?_of_readSign hsign hc, hdecimal]
        simp [DecimalParts.decimal]
      · have hvalue : Binary64.signed negative ((number digits : ℚ) / (1 : Nat)) =
            ((if negative then -(number digits : Int) else number digits : Int) : ℚ) := by
          cases negative <;> simp [Binary64.signed]
        rw [Binary64.toRat_ofDecimal_zero, Binary64.toRat_ofRatio_eq _ _ Nat.one_pos,
          Binary64.ofInt_eq_nearest, hvalue]
    · cases hread

end Reading

namespace Query

namespace Comparand

def IsRoundedTo (x : Binary64) : Comparand → Prop
  | integer n => x ≠ .nan ∧ x.toRat = (Binary64.ofInt n).toRat
  | real y => y = x
  | _ => False

theorem exists_isRoundedTo {lexical : String} {datatype : Option String} {a : Comparand}
    (hd : isNumeric datatype = true) (h : ofLiteral lexical datatype = .ok a) :
    ∃ x, Reading.float lexical = .ok x ∧ a.IsRoundedTo x ∧ (datatype ≠ some Xsd.integer → a = real x) := by
  unfold ofLiteral at h
  split_ifs at h with hinteger
  · obtain ⟨n, hn, rfl⟩ := (map_eq_ok_iff _ _ _).1 h
    obtain ⟨x, hx, hnan, hvalue⟩ := Reading.float_of_integer ((mapError_eq_ok_iff _ _ _).1 hn)
    exact ⟨x, hx, ⟨hnan, hvalue⟩, fun hother => absurd hinteger hother⟩
  · obtain ⟨x, hx, rfl⟩ := (map_eq_ok_iff _ _ _).1 h
    exact ⟨x, (mapError_eq_ok_iff _ _ _).1 hx, rfl, fun _ => rfl⟩

section

variable {a b : Comparand} {x y : Binary64} (ha : a.IsRoundedTo x) (hb : b.IsRoundedTo y)

include ha hb

theorem order?_eq_numberOrder? : order? a b = some (numberOrder? a b) := by
  cases a <;> cases b <;> first | rfl | exact ha.elim | exact hb.elim

/-- Of two numbers the less one is not rounded to the greater number. -/
theorem toRat_le_of_numberOrder? (hx : x.IsOfFormat) (hy : y.IsOfFormat)
    (h : numberOrder? a b = some .lt) : x ≠ .nan ∧ y ≠ .nan ∧ x.toRat ≤ y.toRat := by
  -- Rounding is monotone, so that an order of the rounded numbers is one of the numbers.
  cases a with
  | integer m =>
    obtain ⟨hxnan, hxvalue⟩ := ha
    cases b with
    | integer n =>
      obtain ⟨hynan, hyvalue⟩ := hb
      have hlt : m < n := compare_lt_iff_lt.1 (Option.some.inj h)
      exact ⟨hxnan, hynan, hxvalue ▸ hyvalue ▸ Binary64.toRat_ofInt_mono hlt.le⟩
    | real z =>
      obtain rfl : z = y := hb
      refine ⟨hxnan, ?_, hxvalue ▸ Binary64.toRat_ofInt_le hy h⟩
      rintro rfl
      cases h
    | _ => exact hb.elim
  | real z =>
    obtain rfl : z = x := ha
    cases b with
    | integer n =>
      obtain ⟨hynan, hyvalue⟩ := hb
      have hgt : Binary64.orderInt? n z = some .gt := by
        obtain ⟨order, horder, hswap⟩ := Option.map_eq_some_iff.1 h
        cases order with
        | gt => exact horder
        | _ => cases hswap
      refine ⟨?_, hynan, hyvalue ▸ Binary64.le_toRat_ofInt hx hgt⟩
      rintro rfl
      cases hgt
    | real w =>
      obtain rfl : w = y := hb
      have hxnan : z ≠ .nan := by
        rintro rfl
        cases h
      have hynan : w ≠ .nan := by
        rintro rfl
        cases z <;> cases h
      refine ⟨hxnan, hynan, ?_⟩
      have hcompare := (Binary64.order?_eq_compare hx hy hxnan hynan).symm.trans h
      exact (compare_lt_iff_lt.1 (Option.some.inj hcompare)).le
    | _ => exact hb.elim
  | _ => exact ha.elim

end

end Comparand

theorem passes_eq_true_iff (binding : Binding) (e : Expression) :
    e.passes binding = .ok true ↔ (e.eval binding >>= Answer.truth?) = .ok true := by
  unfold Expression.passes
  split
  next b h => simp [h]
  next h => simp [h]
  next e h => simp [h]

/-- What a filter has found of two literals when it says that one is less. -/
theorem order?_of_passes {a b : String} {d e l m : Option String} {binding : Binding}
    (h : (Expression.compare .lt (.constant (.literal a d l)) (.constant (.literal b e m))).passes binding =
      .ok true) :
    ∃ p q, Comparand.ofLiteral a d = .ok p ∧ Comparand.ofLiteral b e = .ok q ∧
      Comparand.order? p q = some (some .lt) := by
  obtain ⟨answer, heval, htruth⟩ := (bind_eq_ok_iff _ _ _).1 ((passes_eq_true_iff _ _).1 h)
  obtain ⟨_, ⟨⟩, hright⟩ := (bind_eq_ok_iff _ _ _).1 heval
  obtain ⟨_, ⟨⟩, hcompare⟩ := (bind_eq_ok_iff _ _ _).1 hright
  obtain ⟨isLess, happly, ⟨⟩⟩ := (bind_eq_ok_iff _ _ _).1 hcompare
  obtain ⟨order, horder, hagrees⟩ := (map_eq_ok_iff _ _ _).1 happly
  obtain ⟨p, hp, hsecond⟩ := (bind_eq_ok_iff _ _ _).1 horder
  obtain ⟨q, hq, hcompared⟩ := (bind_eq_ok_iff _ _ _).1 hsecond
  refine ⟨p, q, hp, hq, ?_⟩
  cases htruth
  cases hpq : Comparand.order? p q with
  | none =>
    rw [hpq] at hcompared
    cases hcompared
  | some found =>
    rw [hpq] at hcompared
    obtain rfl : found = order := Except.ok.inj hcompared
    match found with
    | some .lt => rfl
    | some .eq => cases hagrees
    | some .gt => cases hagrees
    | none => cases hagrees

def PlacesBefore (name : String) (x y : Term) (rows : List Row) : Prop :=
  rows.Pairwise fun r s => ¬(findField r name = some y ∧ findField s name = some x)

theorem SelectQuery.rows_sublist (q : SelectQuery) (solutions : List Binding) :
    (q.rows solutions).Sublist ((orderAll q.order solutions).map (project q.projection)) := by
  have hslice {α : Type} (limit : Option Nat) (offset : Nat) (xs : List α) :
      (slice limit offset xs).Sublist xs := by
    cases limit with
    | none => exact List.drop_sublist _ _
    | some n => exact (List.take_sublist _ _).trans (List.drop_sublist _ _)
  unfold rows
  refine (hslice _ _ _).trans ?_
  split_ifs
  · exact distinctByFrom_sublist _ _ _
  · exact .refl _

/-- A term with a lesser key is placed before another in a column that is sorted by. -/
theorem placesBefore_rows {x y : Term}
    (hless : (SortKey.ofTerm (some x)).less (SortKey.ofTerm (some y)) = true) {q : SelectQuery}
    {name : String} {rest : List OrderCondition} (horder : q.order = ⟨name, false⟩ :: rest)
    (hname : name ∈ q.projection) {solutions : List Binding}
    (hall : OrderCondition.OrdersAll ⟨name, false⟩ solutions) :
    PlacesBefore name x y (q.rows solutions) := by
  let c : OrderCondition := ⟨name, false⟩
  have hsolutions : c.OrdersAll (orderAll rest solutions) := fun b hb =>
    hall b ((orderAll_perm rest solutions).mem_iff.1 hb)
  have hsorted : (orderAll q.order solutions).Pairwise fun a b => c.before b a = false := by
    rw [horder]
    exact (c.isStablyOrdered_sort hsolutions).ordered
  refine List.Pairwise.sublist (q.rows_sublist solutions) (List.pairwise_map.2 (hsorted.imp ?_))
  rintro a b hnot ⟨ha, hb⟩
  rw [findField_project, if_pos hname] at ha hb
  rw [OrderCondition.before, if_neg Bool.false_ne_true, OrderCondition.key, OrderCondition.key, ha, hb,
    hless] at hnot
  cases hnot

/-- In every result that is sorted by a column without NaN, the rows with one term in this column stand
before those with another. -/
def IsSortedBefore (x y : Term) : Prop :=
  ∀ (q : SelectQuery) (name : String) (rest : List OrderCondition) (solutions : List Binding),
    q.order = ⟨name, false⟩ :: rest → name ∈ q.projection →
      OrderCondition.OrdersAll ⟨name, false⟩ solutions → PlacesBefore name x y (q.rows solutions)

/-- Terms are sorted by their keys. If a key is not less, there is a result that has the terms in the
opposite order. -/
theorem isSortedBefore_iff {x y : Term} (hx : (SortKey.ofTerm (some x)).isNan = false)
    (hy : (SortKey.ofTerm (some y)).isNan = false) :
    IsSortedBefore x y ↔ (SortKey.ofTerm (some x)).less (SortKey.ofTerm (some y)) = true := by
  refine ⟨fun h => ?_, fun hless q name rest solutions horder hname hall =>
    placesBefore_rows hless horder hname hall⟩
  by_contra hnot
  let c : OrderCondition := ⟨"x", false⟩
  let q : SelectQuery := ⟨["x"], false, [], [], [], [c], none, 0, []⟩
  let solutions : List Binding := [[("x", y)], [("x", x)]]
  have hall : c.OrdersAll solutions :=
    List.forall_mem_cons.2 ⟨hy, List.forall_mem_singleton.2 hx⟩
  have hstays : IsStablyOrdered (comesBefore [c]) solutions solutions := by
    refine .of_pairwise (List.pairwise_pair.2 ?_)
    have hbefore : c.before [("x", x)] [("x", y)] = false := Bool.eq_false_iff.2 hnot
    simp [comesBefore, thenBefore, hbefore]
  have hrows : q.rows solutions = solutions := by
    rw [SelectQuery.rows_eq_slice, ← (isStablyOrdered_iff (List.forall_mem_singleton.2 hall) _).1 hstays]
    rfl
  have hplaced := h q "x" [] solutions rfl List.mem_cons_self hall
  rw [hrows] at hplaced
  exact List.pairwise_pair.1 hplaced ⟨rfl, rfl⟩

-- NaN comes neither before nor after the numbers around it, which stay as they stand.
example :
    let column (texts : List String) : List Binding :=
      texts.map fun text => [("x", .literal text (some Xsd.double) none)]
    orderAll [⟨"x", false⟩] (column ["2", "nan", "1"]) = column ["2", "nan", "1"] := by
  decide

/-- Of two numbers of which a filter says that one is less, this one is sorted before the other unless the
two are rounded to one number and their texts are not in this order. Only integers are rounded. -/
theorem isSortedBefore_iff_of_lt {a b : String} {d e l m : Option String} (hd : isNumeric d = true)
    (he : isNumeric e = true) {binding : Binding}
    (hlt : (Expression.compare .lt (.constant (.literal a d l)) (.constant (.literal b e m))).passes
      binding = .ok true) :
    ∃ x y, Reading.float a = .ok x ∧ Reading.float b = .ok y ∧
      (IsSortedBefore (.literal a d l) (.literal b e m) ↔ x.order? y = some .lt ∨ a < b) ∧
      (d ≠ some Xsd.integer → e ≠ some Xsd.integer → x.order? y = some .lt) := by
  obtain ⟨p, q, hp, hq, hcompared⟩ := order?_of_passes hlt
  obtain ⟨x, hx, hpx, hpreal⟩ := Comparand.exists_isRoundedTo hd hp
  obtain ⟨y, hy, hqy, hqreal⟩ := Comparand.exists_isRoundedTo he hq
  rw [Comparand.order?_eq_numberOrder? hpx hqy, Option.some.injEq] at hcompared
  have hxformat := Reading.isOfFormat_of_float hx
  have hyformat := Reading.isOfFormat_of_float hy
  obtain ⟨hxnan, hynan, hle⟩ := Comparand.toRat_le_of_numberOrder? hpx hqy hxformat hyformat hcompared
  have hxkey : SortKey.ofTerm (some (.literal a d l)) = .number x a := by
    simp [SortKey.ofTerm, SortKey.ofLiteral, hd, hx]
  have hykey : SortKey.ofTerm (some (.literal b e m)) = .number y b := by
    simp [SortKey.ofTerm, SortKey.ofLiteral, he, hy]
  refine ⟨x, y, hx, hy, ?_, fun hdreal hereal => ?_⟩
  · rw [isSortedBefore_iff (by simpa [hxkey, SortKey.isNan] using hxnan)
      (by simpa [hykey, SortKey.isNan] using hynan), hxkey, hykey, SortKey.less,
      Binary64.order?_eq_compare hxformat hyformat hxnan hynan]
    obtain hlt | heq := hle.lt_or_eq
    · simp [compare_lt_iff_lt.2 hlt]
    · simp [heq]
  · rw [hpreal hdreal, hqreal hereal] at hcompared
    exact hcompared

/-- The number of the longer text is greater. -/
theorem isSortedBefore_two_ten :
    (Expression.compare .lt (.constant (.literal "2" (some Xsd.integer) none))
        (.constant (.literal "10" (some Xsd.double) none))).passes [] = .ok true ∧
      IsSortedBefore (.literal "2" (some Xsd.integer) none) (.literal "10" (some Xsd.double) none) := by
  have hlt : (Expression.compare .lt (.constant (.literal "2" (some Xsd.integer) none))
      (.constant (.literal "10" (some Xsd.double) none))).passes [] = .ok true := by decide
  refine ⟨hlt, ?_⟩
  obtain ⟨x, y, hx, hy, hiff, -⟩ := isSortedBefore_iff_of_lt (by decide) (by decide) hlt
  have htwo : Reading.float "2" = .ok (.ofInt 2) := by decide
  have hten : Reading.float "10" = .ok (.ofInt 10) := by decide
  obtain rfl := Except.ok.inj (htwo.symm.trans hx)
  obtain rfl := Except.ok.inj (hten.symm.trans hy)
  exact hiff.2 (.inl (by decide))

/-- Two integers that are rounded to one number, sorted by their texts. -/
theorem not_isSortedBefore_rounded :
    (Expression.compare .lt (.constant (.literal "-9007199254740993" (some Xsd.integer) none))
        (.constant (.literal "-9007199254740992" (some Xsd.integer) none))).passes [] = .ok true ∧
      ¬IsSortedBefore (.literal "-9007199254740993" (some Xsd.integer) none)
        (.literal "-9007199254740992" (some Xsd.integer) none) := by
  refine ⟨by decide, ?_⟩
  rw [isSortedBefore_iff (by decide) (by decide)]
  decide

end Query

end CommandOntology
