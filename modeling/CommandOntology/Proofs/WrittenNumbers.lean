import CommandOntology.Proofs.ShortestDecimals
import CommandOntology.Proofs.WrittenIntegers

set_option autoImplicit false

namespace CommandOntology

open Binary64

namespace Reading

theorem number_append (xs ys : List Char) : number (xs ++ ys) = number xs * 10 ^ ys.length + number ys := by
  have hfold (ys : List Char) (start : Nat) : ys.foldl (fun n c => 10 * n + Text.digitValue c) start =
      start * 10 ^ ys.length + number ys := by
    induction ys using List.reverseRecOn with
    | nil => simp [number]
    | append_singleton ys y ih =>
      rw [number, List.foldl_append, List.foldl_append, ih, List.length_append, List.length_singleton, number]
      simp only [List.foldl_cons, List.foldl_nil]
      ring
  rw [number, List.foldl_append, hfold]
  rfl

theorem number_zero_cons (digits : List Char) : number ('0' :: digits) = number digits :=
  rfl

theorem number_replicate_zero (n : Nat) : number (List.replicate n '0') = 0 := by
  induction n with
  | zero => rfl
  | succ n ih => rw [List.replicate_succ, number_zero_cons, ih]

theorem number_digitChars (n : Nat) : number (digitChars n) = n :=
  number_integerDigits n

structure AreDigits (digits : List Char) : Prop where
  isDigit : ∀ c ∈ digits, Text.isAsciiDigit c = true
  ne_nil : digits ≠ []

theorem areDigits_digitChars (n : Nat) : AreDigits (digitChars n) :=
  ⟨isAsciiDigit_of_mem_integerDigits n, integerDigits_ne_nil n⟩

theorem areDigits_zero : AreDigits ['0'] :=
  ⟨by decide, by decide⟩

def EndsDigits (rest : List Char) : Prop :=
  ∀ c ∈ rest.head?, Text.isDecimalDigit c = false ∧ c ≠ '_'

theorem readDigits_append {digits rest : List Char} (h : ∀ c ∈ digits, Text.isDecimalDigit c = true)
    (hrest : EndsDigits rest) (expectsDigit : Bool) (hne : expectsDigit = true → digits ≠ []) :
    readDigits expectsDigit (digits ++ rest) = some (digits, rest) := by
  induction digits generalizing expectsDigit with
  | nil =>
    obtain rfl : expectsDigit = false := by simpa using hne
    cases rest with
    | nil => rfl
    | cons c rest =>
      obtain ⟨hdigit, hunderscore⟩ := hrest c rfl
      simp [readDigits, hdigit, hunderscore]
  | cons c digits ih =>
    rw [List.cons_append, readDigits, if_pos (h c List.mem_cons_self),
      ih (fun d hd => h d (List.mem_cons_of_mem c hd)) false (by simp)]
    rfl

theorem readOptionalDigits_append {digits rest : List Char} (h : AreDigits digits) (hrest : EndsDigits rest) :
    readOptionalDigits (digits ++ rest) = some (digits, rest) := by
  have hdecimal : ∀ c ∈ digits, Text.isDecimalDigit c = true := fun c hc =>
    isDecimalDigit_of_isAsciiDigit c (h.isDigit c hc)
  have hread := readDigits_append hdecimal hrest true fun _ => h.ne_nil
  obtain ⟨c, tail, hdigits⟩ := List.exists_cons_of_ne_nil h.ne_nil
  rw [hdigits] at hread hdecimal ⊢
  rw [List.cons_append] at hread ⊢
  rw [readOptionalDigits, if_pos (hdecimal c List.mem_cons_self), hread]

def DecimalParts.decimal (parts : DecimalParts) : Decimal :=
  ⟨number (parts.whole ++ parts.fraction), parts.exponent - parts.fraction.length⟩

def fractionValue (digits : List Char) : ℚ :=
  number digits * 10 ^ (-(digits.length : Int))

/-- The whole digits count as they stand, and those of the fraction after the point. -/
theorem DecimalParts.value_decimal (whole fraction : List Char) (exponent : Int) :
    (decimal ⟨whole, fraction, exponent⟩).value =
      (number whole + fractionValue fraction) * 10 ^ exponent := by
  have hten : (10 : ℚ) ^ fraction.length ≠ 0 := pow_ne_zero _ (by norm_num)
  rw [Decimal.value, decimal, number_append, fractionValue, zpow_sub₀ (by norm_num), zpow_neg, zpow_natCast]
  push_cast
  field_simp

theorem readDecimal_point {whole fraction : List Char} (hwhole : AreDigits whole)
    (hfraction : AreDigits fraction) :
    readDecimal (whole ++ '.' :: fraction) = some ⟨whole, fraction, 0⟩ := by
  have hpoint : EndsDigits ('.' :: fraction) := by
    rintro c ⟨⟩
    decide
  have hend : EndsDigits [] := by rintro c ⟨⟩
  have hread := readOptionalDigits_append hfraction hend
  rw [List.append_nil] at hread
  simp [readDecimal, readOptionalDigits_append hwhole hpoint, hread, hwhole.ne_nil, readExponent]

theorem readExponent_exponentChars (exponent : Int) :
    readExponent ('e' :: exponentChars exponent) = some exponent := by
  have hdigits := areDigits_digitChars exponent.natAbs
  obtain ⟨digits, hdef⟩ : ∃ digits, digits = if (digitChars exponent.natAbs).length < 2
      then '0' :: digitChars exponent.natAbs else digitChars exponent.natAbs := ⟨_, rfl⟩
  have hread : readDigits true digits = some (digits, []) := by
    refine readDigits_of_asciiDigits ?_ ?_ <;> rw [hdef] <;> split_ifs
    · exact List.forall_mem_cons.2 ⟨by decide, hdigits.isDigit⟩
    · exact hdigits.isDigit
    · simp
    · exact hdigits.ne_nil
  have hnumber : number digits = exponent.natAbs := by
    rw [hdef]
    split_ifs
    · rw [number_zero_cons, number_digitChars]
    · exact number_digitChars _
  rw [exponentChars, ← hdef, readExponent, if_pos (.inl rfl)]
  have habs : ((exponent.natAbs : Nat) : Int) = if exponent < 0 then -exponent else exponent := by
    split_ifs <;> omega
  split_ifs at habs ⊢ with hnegative <;> simp [readSign, hread, hnumber, habs]

theorem endsDigits_exponent (rest : List Char) : EndsDigits ('e' :: rest) := by
  rintro c ⟨⟩
  decide

theorem readDecimal_scientificChars {d : Char} {rest : List Char} (h : AreDigits (d :: rest))
    (exponent : Int) :
    readDecimal (scientificChars (d :: rest) exponent) = some ⟨[d], rest, exponent⟩ := by
  obtain ⟨hd, hrest⟩ := List.forall_mem_cons.1 h.isDigit
  have hfirst : AreDigits [d] := ⟨by simpa using hd, by simp⟩
  have hexponent := readExponent_exponentChars exponent
  have hends := endsDigits_exponent (exponentChars exponent)
  by_cases hnil : rest = []
  · have hread := readOptionalDigits_append hfirst hends
    rw [List.singleton_append] at hread
    simp [readDecimal, scientificChars, hnil, hread, hexponent]
  · have hpoint : EndsDigits ('.' :: (rest ++ 'e' :: exponentChars exponent)) := by
      rintro c ⟨⟩
      decide
    have hwhole := readOptionalDigits_append hfirst hpoint
    rw [List.singleton_append] at hwhole
    have hfraction := readOptionalDigits_append ⟨hrest, hnil⟩ hends
    simp [readDecimal, scientificChars, hnil, hwhole, hfraction, hexponent]

theorem value_scientific {d : Char} {rest : List Char} (exponent : Int) :
    DecimalParts.decimal ⟨[d], rest, exponent⟩ =
      ⟨number (d :: rest), exponent - (rest.length : Int)⟩ :=
  rfl

def filled (digits : List Char) : List Char :=
  if digits.isEmpty then ['0'] else digits

def wholeDigits (digits : List Char) (point : Int) : List Char :=
  digits.take point.toNat ++ List.replicate (point.toNat - digits.length) '0'

def partDigits (digits : List Char) (point : Int) : List Char :=
  List.replicate (-point).toNat '0' ++ digits.drop point.toNat

theorem positionalChars_eq (digits : List Char) (point : Int) : positionalChars digits point =
    filled (wholeDigits digits point) ++ '.' :: filled (partDigits digits point) :=
  rfl

theorem areDigits_filled {digits : List Char} (h : ∀ c ∈ digits, Text.isAsciiDigit c = true) :
    AreDigits (filled digits) := by
  unfold filled
  split_ifs with hempty
  · exact areDigits_zero
  · exact ⟨h, by simpa using hempty⟩

theorem isAsciiDigit_of_mem_zeros {n : Nat} {c : Char} (h : c ∈ List.replicate n '0') :
    Text.isAsciiDigit c = true := by
  rw [List.eq_of_mem_replicate h]
  decide

theorem areDigits_wholeDigits {digits : List Char} (h : AreDigits digits) (point : Int) :
    AreDigits (filled (wholeDigits digits point)) :=
  areDigits_filled fun c hc => (List.mem_append.1 hc).elim
    (fun hc => h.isDigit c (List.mem_of_mem_take hc)) isAsciiDigit_of_mem_zeros

theorem areDigits_partDigits {digits : List Char} (h : AreDigits digits) (point : Int) :
    AreDigits (filled (partDigits digits point)) :=
  areDigits_filled fun c hc => (List.mem_append.1 hc).elim isAsciiDigit_of_mem_zeros
    (fun hc => h.isDigit c (List.mem_of_mem_drop hc))

theorem number_filled (digits : List Char) : number (filled digits) = number digits := by
  unfold filled
  split_ifs with hempty
  · rw [List.isEmpty_iff.1 hempty]
    rfl
  · rfl

theorem fractionValue_filled (digits : List Char) : fractionValue (filled digits) = fractionValue digits := by
  unfold filled
  split_ifs with hempty
  · have hzero : number ['0'] = 0 := rfl
    have hnil : number [] = 0 := rfl
    rw [List.isEmpty_iff.1 hempty, fractionValue, fractionValue, hzero, hnil, Nat.cast_zero, zero_mul, zero_mul]
  · rfl

/-- Putting a point among digits divides their number by a power of ten. -/
theorem number_wholeDigits_add (digits : List Char) (point : Int) :
    (number (wholeDigits digits point) : ℚ) + fractionValue (partDigits digits point) =
      number digits * 10 ^ (point - digits.length) := by
  have hten : (10 : ℚ) ≠ 0 := by norm_num
  have hpart : fractionValue (partDigits digits point) = number (digits.drop point.toNat) *
      10 ^ (-(((-point).toNat + (digits.length - point.toNat) : Nat) : Int)) := by
    rw [fractionValue, partDigits, number_append, number_replicate_zero, zero_mul, zero_add, List.length_append,
      List.length_replicate, List.length_drop]
  have hsplit : number digits = number (digits.take point.toNat) * 10 ^ (digits.length - point.toNat) +
      number (digits.drop point.toNat) := by
    rw [← List.length_drop, ← number_append, List.take_append_drop]
  rw [hpart, wholeDigits, number_append, number_replicate_zero, add_zero, List.length_replicate]
  obtain hinside | houtside := Nat.lt_or_ge digits.length point.toNat
  · have hdrop : digits.drop point.toNat = [] := List.drop_eq_nil_of_le hinside.le
    have htake : digits.take point.toNat = digits := List.take_of_length_le hinside.le
    have hexponent : point - digits.length = (point.toNat - digits.length : Nat) := by omega
    rw [hdrop, htake, hexponent, zpow_natCast]
    simp [number]
  · have hzeros : point.toNat - digits.length = 0 := by omega
    have hexponent : -(((-point).toNat + (digits.length - point.toNat) : Nat) : Int) =
        point - digits.length := by omega
    rw [hexponent, hzeros, pow_zero, mul_one, hsplit]
    push_cast
    rw [add_mul, mul_assoc]
    congr 1
    obtain hnegative | hpositive := Int.lt_or_le point 0
    · have hnone : point.toNat = 0 := by omega
      simp [hnone, number]
    · have hcancel : ((digits.length - point.toNat : Nat) : Int) + (point - digits.length) = 0 := by omega
      rw [← zpow_natCast, ← zpow_add₀ hten, hcancel, zpow_zero, mul_one]

/-- Digits with the point after the first of them, or zeros filled in, count as they stand. -/
theorem readDecimal_positionalChars {digits : List Char} (h : AreDigits digits) (point : Int) :
    ∃ parts, readDecimal (positionalChars digits point) = some parts ∧
      parts.decimal.value = number digits * 10 ^ (point - digits.length) := by
  refine ⟨⟨filled (wholeDigits digits point), filled (partDigits digits point), 0⟩,
    readDecimal_point (areDigits_wholeDigits h point) (areDigits_partDigits h point), ?_⟩
  rw [DecimalParts.value_decimal, ← number_wholeDigits_add, zpow_zero, mul_one, number_filled,
    fractionValue_filled]

/-- The text of a number without a sign: it begins with a digit, and has a point or an exponent. -/
structure IsFloatText (text : List Char) : Prop where
  starts : ∃ c rest, text = c :: rest ∧ Text.isAsciiDigit c = true
  isMarked : ∃ c ∈ text, c = '.' ∨ c = 'e'
  chars : ∀ c ∈ text, Text.isAsciiDigit c = true ∨ c ∈ ['.', 'e', '+', '-']

theorem isFloatText_positionalChars {digits : List Char} (h : AreDigits digits) (point : Int) :
    IsFloatText (positionalChars digits point) := by
  have hwhole := areDigits_wholeDigits h point
  have hpart := areDigits_partDigits h point
  obtain ⟨c, rest, hfirst⟩ := List.exists_cons_of_ne_nil hwhole.ne_nil
  rw [positionalChars_eq]
  refine ⟨⟨c, _, by rw [hfirst, List.cons_append], hwhole.isDigit c (hfirst ▸ .head _)⟩,
    ⟨'.', by simp, .inl rfl⟩, fun c hc => ?_⟩
  simp only [List.mem_append, List.mem_cons] at hc
  obtain hc | rfl | hc := hc
  · exact .inl (hwhole.isDigit c hc)
  · exact .inr (by decide)
  · exact .inl (hpart.isDigit c hc)

theorem isFloatText_scientificChars {d : Char} {rest : List Char} (h : AreDigits (d :: rest))
    (exponent : Int) : IsFloatText (scientificChars (d :: rest) exponent) := by
  obtain ⟨hd, hrest⟩ := List.forall_mem_cons.1 h.isDigit
  have hexponent := areDigits_digitChars exponent.natAbs
  refine ⟨⟨d, _, rfl, hd⟩, ⟨'e', by simp [scientificChars], .inr rfl⟩, fun c hc => ?_⟩
  simp only [scientificChars, exponentChars, List.cons_append, List.mem_append, List.mem_cons] at hc
  obtain rfl | hc | rfl | hc | hc := hc
  · exact .inl hd
  · split_ifs at hc
    · cases hc
    · obtain rfl | hc := List.mem_cons.1 hc
      · exact .inr (by decide)
      · exact .inl (hrest c hc)
  · exact .inr (by decide)
  · split_ifs at hc <;> subst hc <;> exact .inr (by decide)
  · split_ifs at hc
    · obtain rfl | hc := List.mem_cons.1 hc
      · exact .inl (by decide)
      · exact .inl (hexponent.isDigit c hc)
    · exact .inl (hexponent.isDigit c hc)

theorem readSign_of_isFloatText {text : List Char} (h : IsFloatText text) (negative : Bool) :
    readSign ((if negative then ['-'] else []) ++ text) = (negative, text) := by
  cases negative with
  | true => rfl
  | false =>
    obtain ⟨c, rest, rfl, hc⟩ := h.starts
    rw [if_neg Bool.false_ne_true, List.nil_append]
    unfold readSign
    split
    next heq => exact absurd hc (by rw [(List.cons.inj heq).1]; decide)
    next heq => exact absurd hc (by rw [(List.cons.inj heq).1]; decide)
    next => rfl

theorem ofList_lower_ne {c : Char} (hc : Text.isDecimalDigit c = true) (rest : List Char) (word : String)
    (hword : (word.toList.head?.any Text.isDecimalDigit) = false) :
    String.ofList ((c :: rest).map Text.asciiLower) ≠ word := by
  have hlower : Text.asciiLower c = c := by
    refine if_neg fun hcapital => ?_
    rw [Bool.and_eq_true, decide_eq_true_eq, decide_eq_true_eq, Text.le_iff_toNat_le,
      Text.le_iff_toNat_le] at hcapital
    have hA : 'A'.toNat = 65 := rfl
    have hZ : 'Z'.toNat = 90 := rfl
    rw [Text.isDecimalDigit, if_pos (by omega), Text.isAsciiDigit_iff] at hc
    omega
  rintro rfl
  rw [String.toList_ofList, List.map_cons, List.head?_cons, hlower, Option.any_some, hc] at hword
  cases hword

theorem float?_of_readSign {text rest : List Char} {c : Char} {negative : Bool}
    (hsign : readSign text = (negative, c :: rest)) (hc : Text.isDecimalDigit c = true) :
    float? text = (readDecimal (c :: rest)).map fun parts =>
      ofDecimal negative parts.decimal.digits parts.decimal.exponent := by
  unfold float?
  rw [hsign]
  dsimp only
  split
  next heq => exact absurd heq (ofList_lower_ne hc rest _ (by decide))
  next heq => exact absurd heq (ofList_lower_ne hc rest _ (by decide))
  next heq => exact absurd heq (ofList_lower_ne hc rest _ (by decide))
  next => rfl

theorem float?_of_isFloatText {text : List Char} (h : IsFloatText text) (negative : Bool) :
    float? ((if negative then ['-'] else []) ++ text) =
      (readDecimal text).map fun parts =>
        ofDecimal negative parts.decimal.digits parts.decimal.exponent := by
  have hsign := readSign_of_isFloatText h negative
  obtain ⟨c, rest, rfl, hc⟩ := h.starts
  exact float?_of_readSign hsign (isDecimalDigit_of_isAsciiDigit c hc)

end Reading

namespace Binary64

open Reading

def magnitudeChars (mantissa : Nat) (exponent : Int) : List Char :=
  chars (.finite false mantissa exponent)

theorem chars_finite (negative : Bool) (mantissa : Nat) (exponent : Int) :
    chars (.finite negative mantissa exponent) =
      (if negative then ['-'] else []) ++ magnitudeChars mantissa exponent :=
  rfl

theorem magnitudeChars_spec (mantissa : Nat) (exponent : Int) :
    IsFloatText (magnitudeChars mantissa exponent) ∧
      ∃ parts, readDecimal (magnitudeChars mantissa exponent) = some parts ∧
        parts.decimal.value = (shortest mantissa exponent).value := by
  unfold magnitudeChars chars
  dsimp only
  rw [if_neg Bool.false_ne_true, List.nil_append]
  generalize shortest mantissa exponent = d
  have hdigits := areDigits_digitChars d.digits
  have hnumber := number_digitChars d.digits
  generalize digitChars d.digits = digits at hdigits hnumber ⊢
  split_ifs with hpositional
  · obtain ⟨parts, hparts, hvalue⟩ := readDecimal_positionalChars hdigits (d.exponent + digits.length - 1 + 1)
    refine ⟨isFloatText_positionalChars hdigits _, parts, hparts, ?_⟩
    rw [hvalue, hnumber, Decimal.value, sub_add_cancel, add_sub_cancel_right]
  · obtain ⟨c, rest, rfl⟩ := List.exists_cons_of_ne_nil hdigits.ne_nil
    refine ⟨isFloatText_scientificChars hdigits _, _, readDecimal_scientificChars hdigits _, ?_⟩
    have hexponent : d.exponent + ((c :: rest).length : Int) - 1 - rest.length = d.exponent := by
      rw [List.length_cons]
      omega
    rw [value_scientific, hnumber, hexponent]

/-- Every number is read from its own text. -/
theorem float?_chars {x : Binary64} (h : x.IsOfFormat) : float? x.chars = some x := by
  cases x with
  | nan => decide
  | infinite negative => cases negative <;> decide
  | finite negative mantissa exponent =>
    obtain ⟨htext, parts, hparts, hvalue⟩ := magnitudeChars_spec mantissa exponent
    rw [chars_finite, float?_of_isFloatText htext, hparts, Option.map_some]
    obtain rfl | hpos := mantissa.eq_zero_or_pos
    · have hleast : exponent = -1074 := h.isFull.resolve_left (by decide)
      have hzero : parts.decimal.digits = 0 := by
        have hten := (ten_zpow_pos parts.decimal.exponent).ne'
        have hshortest : (shortest 0 exponent).value = 0 := by simp [shortest, Decimal.value]
        rw [hshortest, Decimal.value, mul_eq_zero] at hvalue
        exact_mod_cast hvalue.resolve_right hten
      rw [hzero, hleast]
      rfl
    · have hnear := shortest_isNear h hpos
      rw [Decimal.IsNear, ← hvalue] at hnear
      rw [ofDecimal_of_isNear negative h hpos hnear]

end Binary64

namespace Reading

theorem isOfFormat_of_float {text : String} {x : Binary64} (h : float text = .ok x) : x.IsOfFormat := by
  unfold float at h
  split at h
  next y hread =>
    cases h
    unfold float? at hread
    dsimp only at hread
    split at hread
    · cases hread
      trivial
    · cases hread
      trivial
    · cases hread
      trivial
    · obtain ⟨parts, -, rfl⟩ := Option.map_eq_some_iff.1 hread
      exact isOfFormat_ofDecimal _ _ _
  · cases h

end Reading

end CommandOntology
