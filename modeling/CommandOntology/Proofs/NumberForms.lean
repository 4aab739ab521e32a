import CommandOntology.Proofs.ErrorPlaces

set_option autoImplicit false

namespace CommandOntology.Turtle

open CommandOntology.Text

def IsSign (text : List Char) : Prop :=
  text = [] ∨ text = ['+'] ∨ text = ['-']

def IsDigits (text : List Char) : Prop :=
  ∀ c ∈ text, isDecimalDigit c = true

instance (text : List Char) : Decidable (IsDigits text) :=
  inferInstanceAs (Decidable (∀ c ∈ text, isDecimalDigit c = true))

inductive IsExponent : List Char → Prop
  | intro {mark : Char} {sign digits : List Char} (hmark : mark = 'e' ∨ mark = 'E') (hsign : IsSign sign)
    (hdigits : IsDigits digits) (hne : digits ≠ []) : IsExponent (mark :: (sign ++ digits))

/-- The forms of numbers. A double has an exponent, and digits before the exponent. -/
inductive IsNumeral : NumberKind → List Char → Prop
  | integer {sign whole : List Char} (hsign : IsSign sign) (hwhole : IsDigits whole) (hne : whole ≠ []) :
    IsNumeral .integer (sign ++ whole)
  | decimal {sign whole part : List Char} (hsign : IsSign sign) (hwhole : IsDigits whole)
    (hpart : IsDigits part) (hne : part ≠ []) : IsNumeral .decimal (sign ++ whole ++ '.' :: part)
  | wholeDouble {sign whole exponent : List Char} (hsign : IsSign sign) (hwhole : IsDigits whole)
    (hne : whole ≠ []) (hexponent : IsExponent exponent) : IsNumeral .double (sign ++ whole ++ exponent)
  | pointDouble {sign whole part exponent : List Char} (hsign : IsSign sign) (hwhole : IsDigits whole)
    (hne : whole ≠ []) (hpart : IsDigits part) (hexponent : IsExponent exponent) :
    IsNumeral .double (sign ++ whole ++ '.' :: (part ++ exponent))
  | partDouble {sign part exponent : List Char} (hsign : IsSign sign) (hpart : IsDigits part)
    (hne : part ≠ []) (hexponent : IsExponent exponent) : IsNumeral .double (sign ++ '.' :: (part ++ exponent))

inductive Completes (hasWhole : Bool) : NumberKind → List Char → Prop
  | integer (h : hasWhole = true) : Completes hasWhole .integer []
  | decimal {part : List Char} (hpart : IsDigits part) (hne : part ≠ []) : Completes hasWhole .decimal ('.' :: part)
  | exponent {exponent : List Char} (h : hasWhole = true) (hexponent : IsExponent exponent) :
    Completes hasWhole .double exponent
  | pointExponent {part exponent : List Char} (h : hasWhole = true ∨ part ≠ []) (hpart : IsDigits part)
    (hexponent : IsExponent exponent) : Completes hasWhole .double ('.' :: (part ++ exponent))

theorem isNumeral_iff {kind : NumberKind} {text : List Char} : IsNumeral kind text ↔
    ∃ sign whole rest, text = sign ++ whole ++ rest ∧ IsSign sign ∧ IsDigits whole ∧
      Completes (!whole.isEmpty) kind rest := by
  constructor
  · rintro (⟨hsign, hwhole, hne⟩ | ⟨hsign, hwhole, hpart, hne⟩ | ⟨hsign, hwhole, hne, hexponent⟩ |
      ⟨hsign, hwhole, hne, hpart, hexponent⟩ | ⟨hsign, hpart, hne, hexponent⟩)
    · exact ⟨_, _, [], by simp, hsign, hwhole, .integer (by simpa using hne)⟩
    · exact ⟨_, _, _, rfl, hsign, hwhole, .decimal hpart hne⟩
    · exact ⟨_, _, _, rfl, hsign, hwhole, .exponent (by simpa using hne) hexponent⟩
    · exact ⟨_, _, _, rfl, hsign, hwhole, .pointExponent (.inl (by simpa using hne)) hpart hexponent⟩
    · exact ⟨_, [], _, by simp, hsign, by simp [IsDigits], .pointExponent (.inr hne) hpart hexponent⟩
  · rintro ⟨sign, whole, rest, rfl, hsign, hwhole, hrest⟩
    cases hrest with
    | integer h => simpa using IsNumeral.integer hsign hwhole (by simpa using h)
    | decimal hpart hne => exact .decimal hsign hwhole hpart hne
    | exponent h hexponent => exact .wholeDouble hsign hwhole (by simpa using h) hexponent
    | pointExponent h hpart hexponent =>
      by_cases hne : whole = []
      · subst hne
        simpa using IsNumeral.partDouble hsign hpart (by simpa using h) hexponent
      · exact .pointDouble hsign hwhole hne hpart hexponent

theorem isSign_take (text : List Char) : IsSign (text.take (signLength text)) := by
  cases text with
  | nil => exact .inl rfl
  | cons c rest =>
    simp only [signLength, List.head?_cons, Option.some.injEq]
    split_ifs with hc
    · obtain rfl | rfl := hc
      · exact .inr (.inl rfl)
      · exact .inr (.inr rfl)
    · exact .inl rfl

theorem isDigits_takeWhile (text : List Char) : IsDigits (text.takeWhile isDecimalDigit) :=
  fun _ hc => List.mem_takeWhile_imp hc

theorem digitsLength?_eq_some_iff {text : List Char} {n : Nat} :
    digitsLength? text = some n ↔ n = spanLength isDecimalDigit text ∧ n ≠ 0 := by
  rw [digitsLength?]
  grind

theorem ne_nil_of_digitsLength? {text : List Char} {n : Nat} (h : digitsLength? text = some n) :
    text.take n = text.takeWhile isDecimalDigit ∧ text.takeWhile isDecimalDigit ≠ [] := by
  obtain ⟨rfl, hne⟩ := digitsLength?_eq_some_iff.1 h
  exact ⟨take_spanLength _ _, fun hnil => hne (by rw [spanLength, hnil, List.length_nil])⟩

theorem isExponent_take {text : List Char} {n : Nat} (h : exponentLength? text = some n) :
    IsExponent (text.take n) := by
  rw [exponentLength?] at h
  split_ifs at h with hmark
  obtain ⟨k, hk, rfl⟩ := Option.map_eq_some_iff.1 h
  obtain ⟨mark, rest, rfl⟩ : ∃ mark rest, text = mark :: rest := by
    cases text with
    | nil => simp at hmark
    | cons c rest => exact ⟨c, rest, rfl⟩
  rw [List.drop_succ_cons, List.drop_zero, Nat.add_comm 1, List.drop_succ_cons] at hk
  obtain ⟨htake, hne⟩ := ne_nil_of_digitsLength? hk
  rw [List.drop_succ_cons, List.drop_zero, Nat.add_assoc, Nat.add_comm 1, List.take_succ_cons, List.take_add, htake]
  exact .intro (by simpa using hmark) (isSign_take rest) (isDigits_takeWhile _) hne

/-- The kind of a number and the length of what follows its digits before the point, given whether there are
any. -/
def endLength? (hasWhole : Bool) (rest : List Char) : Option (NumberKind × Nat) :=
  match powerLength? hasWhole rest with
  | some n => some (.double, n)
  | none =>
    match fractionLength? rest with
    | some n => some (.decimal, n)
    | none => if hasWhole then some (.integer, 0) else none

theorem numberLength?_eq_endLength? (text : List Char) :
    numberLength? text =
      (endLength? (!((text.drop (signLength text)).takeWhile isDecimalDigit).isEmpty)
        (text.drop (wholeLength text))).map fun r => (r.1, wholeLength text + r.2) := by
  have hsome : (spanLength isDecimalDigit (text.drop (signLength text)) != 0) =
      !((text.drop (signLength text)).takeWhile isDecimalDigit).isEmpty := by
    rw [spanLength]
    cases (text.drop (signLength text)).takeWhile isDecimalDigit <;> rfl
  have hinteger : integerLength? text =
      if (!((text.drop (signLength text)).takeWhile isDecimalDigit).isEmpty) = true then
        some (wholeLength text) else none := by
    rw [integerLength?, digitsLength?, ← hsome, wholeLength]
    by_cases hzero : spanLength isDecimalDigit (text.drop (signLength text)) = 0 <;> simp [hzero]
  rw [numberLength?, endLength?, doubleLength?_eq, decimalLength?_eq, hinteger, hsome]
  cases powerLength? _ (text.drop (wholeLength text)) with
  | some n => rfl
  | none =>
    cases fractionLength? (text.drop (wholeLength text)) with
    | some n => rfl
    | none => simp only [Option.map_none]; split_ifs <;> rfl

theorem completes_take {hasWhole : Bool} {rest : List Char} {kind : NumberKind} {n : Nat}
    (h : endLength? hasWhole rest = some (kind, n)) : Completes hasWhole kind (rest.take n) := by
  rw [endLength?] at h
  split at h
  · next hpower =>
    cases h
    rw [powerLength?] at hpower
    split_ifs at hpower with hpoint hnone
    · obtain ⟨tail, rfl⟩ := List.head?_eq_some_iff.1 hpoint
      simp only [List.drop_succ_cons, List.drop_zero, Nat.add_comm 1] at hpower
      split_ifs at hpower with hempty
      obtain ⟨k, hk, rfl⟩ := Option.map_eq_some_iff.1 hpower
      rw [Nat.add_right_comm, List.take_succ_cons, List.take_add, take_spanLength]
      refine .pointExponent ?_ (isDigits_takeWhile _) (isExponent_take hk)
      rw [spanLength, List.length_eq_zero_iff, not_and_or, Bool.not_eq_false] at hempty
      exact hempty
    · exact .exponent (by simpa using hnone) (isExponent_take hpower)
  · split at h
    · next hfraction =>
      cases h
      rw [fractionLength?] at hfraction
      split_ifs at hfraction with hpoint
      obtain ⟨tail, rfl⟩ := List.head?_eq_some_iff.1 hpoint
      obtain ⟨k, hk, rfl⟩ := Option.map_eq_some_iff.1 hfraction
      rw [List.drop_succ_cons, List.drop_zero] at hk
      obtain ⟨htake, hne⟩ := ne_nil_of_digitsLength? hk
      rw [Nat.add_comm, List.take_succ_cons, htake]
      exact .decimal (isDigits_takeWhile _) hne
    · split_ifs at h with hwhole
      cases h
      exact .integer hwhole

theorem isNumeral_take {text : List Char} {kind : NumberKind} {n : Nat}
    (h : numberLength? text = some (kind, n)) : IsNumeral kind (text.take n) := by
  rw [numberLength?_eq_endLength?] at h
  obtain ⟨⟨kind, k⟩, hk, hfound⟩ := Option.map_eq_some_iff.1 h
  cases hfound
  rw [isNumeral_iff, List.take_add, wholeLength, List.take_add, take_spanLength]
  exact ⟨_, _, _, rfl, isSign_take text, isDigits_takeWhile _, completes_take hk⟩

theorem spanLength_append_of_all {p : Char → Bool} {text : List Char} (h : ∀ c ∈ text, p c = true)
    (more : List Char) : spanLength p (text ++ more) = text.length + spanLength p more := by
  rw [spanLength, List.takeWhile_append_of_pos h, List.length_append, spanLength]

theorem signLength_append_of_isSign {sign : List Char} (h : IsSign sign) {rest : List Char}
    (hrest : ∀ c ∈ rest.head?, c ≠ '+' ∧ c ≠ '-') : signLength (sign ++ rest) = sign.length := by
  obtain rfl | rfl | rfl := h
  · cases rest with
    | nil => rfl
    | cons c rest => simp [signLength, hrest c rfl]
  · simp [signLength]
  · simp [signLength]

theorem ne_of_isDecimalDigit {c : Char} (h : isDecimalDigit c = true) {d : Char} (hd : isDecimalDigit d = false) :
    c ≠ d := by
  rintro rfl
  rw [h] at hd
  cases hd

theorem IsDigits.head_ne {digits : List Char} (h : IsDigits digits) (hne : digits ≠ []) (rest : List Char) :
    ∀ c ∈ (digits ++ rest).head?, c ≠ '+' ∧ c ≠ '-' := by
  obtain ⟨d, digits, rfl⟩ := List.exists_cons_of_ne_nil hne
  rintro _ ⟨⟩
  have hd := h d List.mem_cons_self
  exact ⟨ne_of_isDecimalDigit hd (by decide), ne_of_isDecimalDigit hd (by decide)⟩

theorem IsDigits.exists_digitsLength? {digits : List Char} (h : IsDigits digits) (hne : digits ≠ [])
    (more : List Char) : ∃ n, digitsLength? (digits ++ more) = some n ∧ digits.length ≤ n := by
  have hlength : digits.length ≠ 0 := by simpa using hne
  rw [digitsLength?, spanLength_append_of_all h, if_neg (by omega)]
  exact ⟨_, rfl, Nat.le_add_right _ _⟩

theorem IsExponent.exists_exponentLength? {exponent : List Char} (h : IsExponent exponent) (more : List Char) :
    ∃ n, exponentLength? (exponent ++ more) = some n ∧ exponent.length ≤ n := by
  obtain ⟨hmark, hsign, hdigits, hne⟩ := h
  rename_i mark sign digits
  obtain ⟨n, hn, hle⟩ := hdigits.exists_digitsLength? hne more
  have hlength := signLength_append_of_isSign hsign (hdigits.head_ne hne more)
  refine ⟨1 + sign.length + n, ?_, by simp only [List.length_cons, List.length_append]; omega⟩
  rw [exponentLength?, if_pos (by simpa using hmark)]
  simp only [List.cons_append, List.append_assoc, List.drop_succ_cons, List.drop_zero, hlength, Nat.add_comm 1,
    List.drop_left, hn, Option.map_some]

theorem powerLength?_point (hasWhole : Bool) (tail : List Char) :
    powerLength? hasWhole ('.' :: tail) =
      if hasWhole = false ∧ spanLength isDecimalDigit tail = 0 then none
      else (exponentLength? (tail.drop (spanLength isDecimalDigit tail))).map
        (1 + spanLength isDecimalDigit tail + ·) := by
  simp only [powerLength?, List.head?_cons, if_true, List.drop_succ_cons, List.drop_zero, Nat.add_comm 1]

theorem fractionLength?_point (tail : List Char) :
    fractionLength? ('.' :: tail) = (digitsLength? tail).map (1 + ·) := by
  simp only [fractionLength?, List.head?_cons, if_true, List.drop_succ_cons, List.drop_zero]

theorem IsExponent.exists_cons {exponent : List Char} (h : IsExponent exponent) :
    ∃ mark rest, exponent = mark :: rest ∧ (mark = 'e' ∨ mark = 'E') := by
  obtain ⟨hmark, -, -, -⟩ := h
  exact ⟨_, _, rfl, hmark⟩

theorem IsExponent.head_ne {exponent : List Char} (h : IsExponent exponent) (more : List Char) :
    ∀ c ∈ (exponent ++ more).head?, isDecimalDigit c = false ∧ c ≠ '.' ∧ c ≠ '+' ∧ c ≠ '-' := by
  obtain ⟨mark, rest, rfl, rfl | rfl⟩ := h.exists_cons <;> rintro _ ⟨⟩ <;> decide

theorem spanLength_eq_zero {p : Char → Bool} {text : List Char} (h : ∀ c ∈ text.head?, p c = false) :
    spanLength p text = 0 := by
  cases text with
  | nil => rfl
  | cons c text => rw [spanLength, List.takeWhile_cons_of_neg (by simp [h c rfl]), List.length_nil]

theorem Completes.exists_endLength? {hasWhole : Bool} {kind : NumberKind} {rest : List Char}
    (h : Completes hasWhole kind rest) (more : List Char) :
    ∃ kind' n, endLength? hasWhole (rest ++ more) = some (kind', n) ∧ rest.length ≤ n := by
  have hpower {text : List Char} {n : Nat} (hn : powerLength? hasWhole text = some n) :
      endLength? hasWhole text = some (.double, n) := by
    rw [endLength?, hn]
  -- Behind an integer or a decimal the text may go on to a double, which is then found and is longer.
  cases h with
  | integer h =>
    subst h
    rw [endLength?]
    split
    · exact ⟨_, _, rfl, Nat.zero_le _⟩
    · split <;> exact ⟨_, _, rfl, Nat.zero_le _⟩
  | @decimal part hpart hne =>
    obtain ⟨n, hn, hle⟩ := hpart.exists_digitsLength? hne more
    cases hdouble : powerLength? hasWhole ('.' :: part ++ more) with
    | none =>
      refine ⟨.decimal, 1 + n, ?_, by rw [List.length_cons]; omega⟩
      rw [endLength?, hdouble, List.cons_append, fractionLength?_point, hn]
      rfl
    | some k =>
      refine ⟨.double, k, hpower hdouble, ?_⟩
      rw [List.cons_append, powerLength?_point, spanLength_append_of_all hpart] at hdouble
      split_ifs at hdouble
      obtain ⟨e, -, rfl⟩ := Option.map_eq_some_iff.1 hdouble
      rw [List.length_cons]
      omega
  | exponent h hexponent =>
    obtain ⟨n, hn, hle⟩ := hexponent.exists_exponentLength? more
    have hpoint : (rest ++ more).head? ≠ some '.' := fun hpoint => (hexponent.head_ne more _ hpoint).2.1 rfl
    refine ⟨.double, n, hpower ?_, hle⟩
    rw [powerLength?, if_neg hpoint, if_neg (by simp [h]), hn]
  | @pointExponent part exponent h hpart hexponent =>
    obtain ⟨n, hn, hle⟩ := hexponent.exists_exponentLength? more
    have hspan : spanLength isDecimalDigit (part ++ (exponent ++ more)) = part.length := by
      rw [spanLength_append_of_all hpart, spanLength_eq_zero fun c hc => (hexponent.head_ne more c hc).1,
        Nat.add_zero]
    refine ⟨.double, 1 + part.length + n, hpower ?_, by rw [List.length_cons, List.length_append]; omega⟩
    rw [List.cons_append, List.append_assoc, powerLength?_point, hspan, List.drop_left, hn, if_neg]
    · rfl
    · rintro ⟨hnone, hempty⟩
      rw [List.length_eq_zero_iff] at hempty
      simp [hnone, hempty] at h

theorem Completes.head_ne {hasWhole : Bool} {kind : NumberKind} {rest : List Char}
    (h : Completes hasWhole kind rest) {more : List Char} (hne : rest ≠ []) :
    ∀ c ∈ (rest ++ more).head?, isDecimalDigit c = false ∧ c ≠ '+' ∧ c ≠ '-' := by
  cases h with
  | integer h => exact absurd rfl hne
  | decimal hpart hne => rintro _ ⟨⟩; decide
  | exponent h hexponent =>
    intro c hc
    obtain ⟨hdigit, -, hsigns⟩ := hexponent.head_ne more c hc
    exact ⟨hdigit, hsigns⟩
  | pointExponent h hpart hexponent => rintro _ ⟨⟩; decide

theorem exists_numberLength?_of_completes {sign whole rest : List Char} {kind : NumberKind}
    (hsign : IsSign sign) (hwhole : IsDigits whole) (hrest : Completes (!whole.isEmpty) kind rest)
    (more : List Char) (hmore : ∀ c ∈ (rest ++ more).head?, isDecimalDigit c = false)
    (hstart : ∀ c ∈ (whole ++ (rest ++ more)).head?, c ≠ '+' ∧ c ≠ '-') :
    ∃ kind' n, numberLength? (sign ++ (whole ++ (rest ++ more))) = some (kind', n) ∧
      (sign ++ whole ++ rest).length ≤ n := by
  have hlength := signLength_append_of_isSign hsign hstart
  have htake : (whole ++ (rest ++ more)).takeWhile isDecimalDigit = whole := by
    rw [List.takeWhile_append_of_pos hwhole, List.length_eq_zero_iff.1 (spanLength_eq_zero hmore), List.append_nil]
  have hwholeLength : wholeLength (sign ++ (whole ++ (rest ++ more))) = sign.length + whole.length := by
    rw [wholeLength, hlength, List.drop_left, spanLength, htake]
  obtain ⟨kind', n, hn, hle⟩ := hrest.exists_endLength? more
  refine ⟨kind', sign.length + whole.length + n, ?_, ?_⟩
  · rw [numberLength?_eq_endLength?, hwholeLength, hlength, List.drop_left, htake, ← List.drop_drop,
      List.drop_left, List.drop_left, hn]
    rfl
  · simp only [List.length_append]
    omega

theorem IsNumeral.exists_numberLength? {kind : NumberKind} {text : List Char} (h : IsNumeral kind text)
    (more : List Char) : ∃ kind' n, numberLength? (text ++ more) = some (kind', n) ∧ text.length ≤ n := by
  obtain ⟨sign, whole, rest, rfl, hsign, hwhole, hrest⟩ := isNumeral_iff.1 h
  by_cases hne : rest = []
  · -- The digits may go on behind an integer.
    subst hne
    have hsome : (!whole.isEmpty) = true := by cases hrest <;> assumption
    have hne : whole ≠ [] := by simpa using hsome
    have hall : IsDigits (whole ++ more.takeWhile isDecimalDigit) := fun c hc =>
      (List.mem_append.1 hc).elim (hwhole c) (isDigits_takeWhile more c)
    have hstop : ∀ c ∈ (more.dropWhile isDecimalDigit).head?, isDecimalDigit c = false := by
      intro c hc
      have hnot := List.head?_dropWhile_not isDecimalDigit more
      rw [hc] at hnot
      exact hnot
    have hsplit : whole ++ more.takeWhile isDecimalDigit ++ more.dropWhile isDecimalDigit = whole ++ more := by
      rw [List.append_assoc, List.takeWhile_append_dropWhile]
    have hstart : ∀ c ∈ (whole ++ more.takeWhile isDecimalDigit ++ ([] ++ more.dropWhile isDecimalDigit)).head?,
        c ≠ '+' ∧ c ≠ '-' := by
      rw [List.nil_append, hsplit]
      exact hwhole.head_ne hne more
    obtain ⟨kind', n, hn, hle⟩ := exists_numberLength?_of_completes hsign hall
      (Completes.integer (by simp [hne])) (more.dropWhile isDecimalDigit) hstop hstart
    refine ⟨kind', n, ?_, ?_⟩
    · rw [List.nil_append, hsplit] at hn
      simpa using hn
    · simp only [List.length_append] at hle ⊢
      omega
  · have hstart : ∀ c ∈ (whole ++ (rest ++ more)).head?, c ≠ '+' ∧ c ≠ '-' := by
      cases whole with
      | nil => exact fun c hc => (hrest.head_ne hne c hc).2
      | cons d whole => exact hwhole.head_ne (List.cons_ne_nil d whole) _
    obtain ⟨kind', n, hn, hle⟩ := exists_numberLength?_of_completes hsign hwhole hrest more
      (fun c hc => (hrest.head_ne hne c hc).1) hstart
    exact ⟨kind', n, by simpa using hn, hle⟩

def IsNumeralChar (c : Char) : Prop :=
  isDecimalDigit c = true ∨ c ∈ ['+', '-', '.', 'e', 'E']

theorem IsSign.isNumeralChar {sign : List Char} (h : IsSign sign) : ∀ c ∈ sign, IsNumeralChar c := by
  obtain rfl | rfl | rfl := h <;> simp [IsNumeralChar]

theorem IsExponent.isNumeralChar {exponent : List Char} (h : IsExponent exponent) :
    ∀ c ∈ exponent, IsNumeralChar c := by
  obtain ⟨hmark, hsign, hdigits, -⟩ := h
  intro c hc
  obtain rfl | hc := List.mem_cons.1 hc
  · obtain rfl | rfl := hmark <;> simp [IsNumeralChar]
  · exact (List.mem_append.1 hc).elim (hsign.isNumeralChar c) fun hc => .inl (hdigits c hc)

theorem Completes.isNumeralChar {hasWhole : Bool} {kind : NumberKind} {rest : List Char}
    (h : Completes hasWhole kind rest) : ∀ c ∈ rest, IsNumeralChar c := by
  have hpoint : IsNumeralChar '.' := by simp [IsNumeralChar]
  cases h with
  | integer h => simp
  | decimal hpart hne => exact List.forall_mem_cons.2 ⟨hpoint, fun c hc => .inl (hpart c hc)⟩
  | exponent h hexponent => exact hexponent.isNumeralChar
  | pointExponent h hpart hexponent =>
    refine List.forall_mem_cons.2 ⟨hpoint, fun c hc => ?_⟩
    exact (List.mem_append.1 hc).elim (fun hc => .inl (hpart c hc)) (hexponent.isNumeralChar c)

theorem IsNumeral.isNumeralChar {kind : NumberKind} {text : List Char} (h : IsNumeral kind text) :
    ∀ c ∈ text, IsNumeralChar c := by
  obtain ⟨sign, whole, rest, rfl, hsign, hwhole, hrest⟩ := isNumeral_iff.1 h
  intro c hc
  rw [List.mem_append, List.mem_append] at hc
  obtain (hc | hc) | hc := hc
  · exact hsign.isNumeralChar c hc
  · exact .inl (hwhole c hc)
  · exact hrest.isNumeralChar c hc

/-- The kind of a number can be told from its marks. -/
theorem IsNumeral.kind_eq {kind : NumberKind} {text : List Char} (h : IsNumeral kind text) :
    kind = if 'e' ∈ text ∨ 'E' ∈ text then .double else if '.' ∈ text then .decimal else .integer := by
  obtain ⟨sign, whole, rest, rfl, hsign, hwhole, hrest⟩ := isNumeral_iff.1 h
  have hdigits {digits : List Char} (h : IsDigits digits) {c : Char} (hc : c ∈ ['e', 'E', '.']) : c ∉ digits := by
    intro hmem
    have hnone : ∀ c ∈ ['e', 'E', '.'], isDecimalDigit c = false := by decide
    exact ne_of_isDecimalDigit (h c hmem) (hnone c hc) rfl
  have hstart {c : Char} (hc : c ∈ ['e', 'E', '.']) : c ∉ sign ∧ c ∉ whole := by
    refine ⟨?_, hdigits hwhole hc⟩
    obtain rfl | rfl | rfl := hsign
    · exact List.not_mem_nil
    all_goals
      simp only [List.mem_cons, List.not_mem_nil, or_false] at hc ⊢
      rintro rfl
      simp at hc
  have hexponent {exponent : List Char} (h : IsExponent exponent) : 'e' ∈ exponent ∨ 'E' ∈ exponent := by
    obtain ⟨mark, rest, rfl, rfl | rfl⟩ := h.exists_cons <;> simp
  have hnone : ('e' ∉ sign ∧ 'e' ∉ whole) ∧ ('E' ∉ sign ∧ 'E' ∉ whole) ∧ '.' ∉ sign ∧ '.' ∉ whole :=
    ⟨hstart (by simp), hstart (by simp), hstart (by simp)⟩
  cases hrest with
  | integer h => simp [hnone]
  | decimal hpart hne =>
    rw [if_neg, if_pos (by simp)]
    simp [hnone, hdigits hpart (c := 'e') (by simp), hdigits hpart (c := 'E') (by simp)]
  | exponent h hform =>
    rw [if_pos]
    exact (hexponent hform).imp (List.mem_append_right _) (List.mem_append_right _)
  | pointExponent h hpart hform =>
    rw [if_pos]
    refine (hexponent hform).imp ?_ ?_ <;> exact fun h => List.mem_append_right _ (.tail _ (List.mem_append_right _ h))

/-- The reader takes the longest beginning of a text that has the form of a number. -/
theorem numberLength?_eq_some_iff {text : List Char} {kind : NumberKind} {n : Nat} :
    numberLength? text = some (kind, n) ↔ n ≤ text.length ∧ IsNumeral kind (text.take n) ∧
      ∀ m kind', m ≤ text.length → IsNumeral kind' (text.take m) → m ≤ n := by
  have hlonger {m : Nat} {kind : NumberKind} (hm : m ≤ text.length) (h : IsNumeral kind (text.take m)) :
      ∃ kind' n, numberLength? text = some (kind', n) ∧ m ≤ n := by
    obtain ⟨kind', n, hn, hle⟩ := h.exists_numberLength? (text.drop m)
    rw [List.take_append_drop] at hn
    rw [List.length_take_of_le hm] at hle
    exact ⟨kind', n, hn, hle⟩
  constructor
  · intro h
    refine ⟨numberLength?_le h, isNumeral_take h, fun m kind' hm hnumeral => ?_⟩
    obtain ⟨_, _, hfound, hle⟩ := hlonger hm hnumeral
    rw [h] at hfound
    cases hfound
    exact hle
  · rintro ⟨hle, hnumeral, hlongest⟩
    obtain ⟨kind', n', hfound, hless⟩ := hlonger hle hnumeral
    obtain rfl := Nat.le_antisymm hless (hlongest n' kind' (numberLength?_le hfound) (isNumeral_take hfound))
    rw [hfound, (isNumeral_take hfound).kind_eq, hnumeral.kind_eq]

theorem IsNumeral.ne_nil {kind : NumberKind} {text : List Char} (h : IsNumeral kind text) : text ≠ [] := by
  rintro rfl
  obtain ⟨kind', n, hn, -⟩ := h.exists_numberLength? []
  cases hn

theorem IsNumeral.numberLength?_space {kind : NumberKind} {text : List Char} (h : IsNumeral kind text) :
    numberLength? (text ++ [' ']) = some (kind, text.length) := by
  refine numberLength?_eq_some_iff.2 ⟨by simp, by rwa [List.take_left], fun m kind' hm hm' => ?_⟩
  by_contra hlt
  have hlength : (text ++ [' ']).length ≤ m := by
    rw [List.length_append, List.length_singleton]
    omega
  rw [List.take_of_length_le hlength] at hm'
  have hspace := hm'.isNumeralChar ' ' (by simp)
  revert hspace
  simp only [IsNumeralChar]
  decide

/-- A number starts with a digit, with a sign, or with a point that is followed by a number without a point in
front. -/
theorem IsNumeral.head_cases {kind : NumberKind} {c : Char} {rest : List Char} (h : IsNumeral kind (c :: rest)) :
    (isDecimalDigit c = true ∨ c = '+' ∨ c = '-') ∨
      c = '.' ∧ ∃ kind' d tail, rest = d :: tail ∧ isDecimalDigit d = true ∧ IsNumeral kind' rest := by
  have hpoint {part : List Char} (hpart : IsDigits part) (hne : part ≠ []) (more : List Char) :
      ∃ d tail, part ++ more = d :: tail ∧ isDecimalDigit d = true := by
    obtain ⟨d, tail, rfl⟩ := List.exists_cons_of_ne_nil hne
    exact ⟨d, _, rfl, hpart d List.mem_cons_self⟩
  obtain ⟨sign, whole, tail, heq, hsign, hwhole, htail⟩ := isNumeral_iff.1 h
  obtain rfl | rfl | rfl := hsign
  · cases whole with
    | cons d whole =>
      cases heq
      exact .inl (.inl (hwhole c List.mem_cons_self))
    | nil =>
      rw [List.nil_append, List.nil_append] at heq
      cases htail with
      | integer hwhole => cases hwhole
      | exponent hwhole => cases hwhole
      | decimal hpart hne =>
        cases heq
        obtain ⟨d, tail, heq, hd⟩ := hpoint hpart hne []
        rw [List.append_nil] at heq
        exact .inr ⟨rfl, .integer, d, tail, heq, hd, .integer (.inl rfl) hpart hne⟩
      | pointExponent hne hpart hexponent =>
        cases heq
        have hne : _ ≠ [] := hne.resolve_left (by decide)
        obtain ⟨d, tail, heq, hd⟩ := hpoint hpart hne _
        exact .inr ⟨rfl, .double, d, tail, heq, hd, .wholeDouble (.inl rfl) hpart hne hexponent⟩
  · cases heq
    exact .inl (.inr (.inl rfl))
  · cases heq
    exact .inl (.inr (.inr rfl))

theorem IsNumeral.newline_not_mem {kind : NumberKind} {text : List Char} (h : IsNumeral kind text) : '\n' ∉ text := by
  intro hmem
  have hline := h.isNumeralChar '\n' hmem
  revert hline
  simp only [IsNumeralChar]
  decide

theorem IsNumeral.lexFrom {kind : NumberKind} {c : Char} {rest : List Char} (h : IsNumeral kind (c :: rest))
    (hc : isDecimalDigit c = true ∨ c = '+' ∨ c = '-') (p : Position) :
    lexFrom .between p (c :: rest ++ [' ']) =
      .ok ⟨[⟨.number kind (String.ofList (c :: rest)), p⟩], ⟨p.line, p.column + (rest.length + 2)⟩⟩ := by
  obtain ⟨hstart, hscan⟩ := scan_eq_scanNumber c (rest ++ [' ']) hc
  simp only [startsToken, Bool.and_eq_true, Bool.not_eq_true', bne_iff_ne, ne_eq] at hstart
  have hnumber : scan c (rest ++ [' ']) = .ok (.number kind (String.ofList (c :: rest)), rest.length) := by
    rw [hscan, scanNumber, ← List.cons_append, h.numberLength?_space]
    dsimp only
    rw [lexemeText_append]
    rfl
  have hstop : (p.next c).after rest = ⟨p.line, p.column + (rest.length + 1)⟩ :=
    after_of_not_mem p h.newline_not_mem
  rw [List.cons_append, lexFrom_between_cons, if_neg (by simp [hstart.1]), if_neg hstart.2, hnumber]
  dsimp only
  rw [lexFrom_inside, hstop]
  rfl

/-- In front of white space, a number is one token, of the kind whose form it has. Only where its first character
is a point, this is a token of its own, and what follows it is a number again. -/
theorem lex_numeral {kind : NumberKind} {text : List Char} (h : IsNumeral kind text) :
    (text.head? ≠ some '.' → lex (text ++ [' ']) =
      .ok ⟨[⟨.number kind (String.ofList text), 1, 1⟩], 1, text.length + 2⟩) ∧
    ∀ rest, text = '.' :: rest → ∃ kind', IsNumeral kind' rest ∧ lex (text ++ [' ']) =
      .ok ⟨[⟨.mark .dot, 1, 1⟩, ⟨.number kind' (String.ofList rest), 1, 2⟩], 1, text.length + 2⟩ := by
  obtain ⟨c, rest, rfl⟩ := List.exists_cons_of_ne_nil h.ne_nil
  constructor
  · intro hpoint
    have hc := h.head_cases.resolve_right fun hpoint' => hpoint (congrArg some hpoint'.1)
    rw [lex, h.lexFrom hc]
    simp only [Position.start, List.length_cons, Nat.add_comm 1]
  · rintro _ ⟨⟩
    obtain hc | ⟨-, kind', d, tail, rfl, hd, hrest⟩ := h.head_cases
    · exact absurd hc (by decide)
    · refine ⟨kind', hrest, ?_⟩
      have hread := hrest.lexFrom (.inl hd) (Position.start.next '.')
      have hpoint : lex ('.' :: (d :: tail ++ [' '])) =
          (lexFrom .between (Position.start.next '.') (d :: tail ++ [' '])).map fun r =>
            { r with tokens := ⟨.mark .dot, .start⟩ :: r.tokens } := rfl
      rw [List.cons_append, hpoint, hread]
      simp only [Except.map, Position.start, Position.next, List.length_cons, Char.reduceEq, if_false]
      rw [show 1 + 1 + (tail.length + 2) = tail.length + 1 + 1 + 2 by omega]

theorem lex_numeral_signedDouble : IsNumeral .double "-1.5e+3".toList ∧
    lex ("-1.5e+3".toList ++ [' ']) = .ok ⟨[⟨.number .double "-1.5e+3", 1, 1⟩], 1, 9⟩ := by
  have h : IsNumeral .double (['-'] ++ ['1'] ++ '.' :: (['5'] ++ 'e' :: (['+'] ++ ['3']))) :=
    .pointDouble (.inr (.inr rfl)) (by decide) (by decide) (by decide)
      (.intro (.inl rfl) (.inr (.inl rfl)) (by decide) (by decide))
  exact ⟨h, (lex_numeral h).1 (by decide)⟩

/-- A decimal that starts with its point is read as a point and an integer. -/
theorem lex_leadingPoint : IsNumeral .decimal ".5".toList ∧
    lex ".5 ".toList = .ok ⟨[⟨.mark .dot, 1, 1⟩, ⟨.number .integer "5", 1, 2⟩], 1, 4⟩ := by
  have h : IsNumeral .decimal ([] ++ [] ++ '.' :: ['5']) := .decimal (.inl rfl) (by decide) (by decide) (by decide)
  exact ⟨h, by decide⟩

end CommandOntology.Turtle
