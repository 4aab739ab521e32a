import CommandOntology.Command.TypeTag
import CommandOntology.Proofs.Characters

set_option autoImplicit false

namespace CommandOntology

namespace Text

def CaseRun.sources (run : CaseRun) : List Nat :=
  (List.range run.count).map fun k => run.first + run.step * k

def CaseRun.targets (run : CaseRun) : List Nat :=
  run.sources.map fun code : Nat => (code + run.shift).toNat

def codesOf (ranges : List (Nat × Nat)) : List Nat :=
  ranges.flatMap fun range => List.range' range.1 (range.2 + 1 - range.1)

theorem mem_codesOf_of_inRanges (ranges : List (Nat × Nat)) (code : Nat)
    (h : inRanges ranges code = true) : code ∈ codesOf ranges := by
  simp only [inRanges, List.any_eq_true, Bool.and_eq_true, decide_eq_true_eq] at h
  obtain ⟨range, hr, hlow, hhigh⟩ := h
  rw [codesOf, List.mem_flatMap]
  exact ⟨range, hr, List.mem_range'_1.2 ⟨hlow, by omega⟩⟩

def bitSet (numbers : List Nat) : Nat :=
  numbers.foldr (fun n set => 1 <<< n ||| set) 0

theorem testBit_bitSet (numbers : List Nat) (n : Nat) :
    (bitSet numbers).testBit n = true ↔ n ∈ numbers := by
  induction numbers with
  | nil => simp [bitSet]
  | cons m numbers ih =>
    change (1 <<< m ||| bitSet numbers).testBit n = true ↔ _
    rw [Nat.testBit_or, Bool.or_eq_true, ih, Nat.one_shiftLeft, Nat.testBit_two_pow, decide_eq_true_eq, List.mem_cons,
      eq_comm]

theorem not_mem_of_bitSet (a b : List Nat) (h : bitSet a &&& bitSet b = 0) (n : Nat) (ha : n ∈ a) :
    n ∉ b := by
  intro hb
  have hbit := congrArg (fun set => Nat.testBit set n) h
  simp [Nat.testBit_and, (testBit_bitSet a n).2 ha, (testBit_bitSet b n).2 hb] at hbit

def movedCodes : List Nat :=
  lowerRuns.toList.flatMap CaseRun.sources

def smallCodes : List Nat :=
  0x3c2 :: 0x307 :: lowerRuns.toList.flatMap CaseRun.targets

def blankCodes : List Nat :=
  codesOf [(0x9, 0xd), (0x1c, 0x20), (0x85, 0x85), (0xa0, 0xa0), (0x1680, 0x1680), (0x2000, 0x200a),
    (0x2028, 0x2029), (0x202f, 0x202f), (0x205f, 0x205f), (0x3000, 0x3000)]

-- The tables are too long for a comparison of each code point with each other one.
theorem bitSet_smallCodes : bitSet smallCodes &&& bitSet (movedCodes ++ blankCodes) = 0 := by
  decide +kernel

theorem isValidChar_of_mem_smallCodes : ∀ n ∈ smallCodes, n.isValidChar := by
  decide +kernel

theorem mem_movedCodes (run : CaseRun) (h : run ∈ lowerRuns.toList) (k : Nat) (hk : k < run.count) :
    run.first + run.step * k ∈ movedCodes :=
  List.mem_flatMap.2 ⟨run, h, List.mem_map.2 ⟨k, List.mem_range.2 hk, rfl⟩⟩

theorem sigma_mem_lowerRuns : ⟨0x3a3, 9, 1, 32⟩ ∈ lowerRuns.toList :=
  List.mem_of_getElem? (i := 71) rfl

theorem mem_movedCodes_of (n : Nat) (h : n = 0x3a3 ∨ n = 0x130 ∨ 0x41 ≤ n ∧ n ≤ 0x5a) :
    n ∈ movedCodes := by
  have hdotted : (⟨0x130, 1, 1, -199⟩ : CaseRun) ∈ lowerRuns.toList :=
    List.mem_of_getElem? (i := 4) rfl
  have hcapital : (⟨0x41, 26, 1, 32⟩ : CaseRun) ∈ lowerRuns.toList := List.mem_cons_self
  obtain rfl | rfl | ⟨hlow, hhigh⟩ := h
  · exact mem_movedCodes _ sigma_mem_lowerRuns 0 (by decide)
  · exact mem_movedCodes _ hdotted 0 (by decide)
  · have hmem := mem_movedCodes _ hcapital (n - 0x41) (by change _ < 26; omega)
    have he : 0x41 + 1 * (n - 0x41) = n := by omega
    rwa [he] at hmem

/-- The character of a code point that lower case moves others to is such a code point. -/
theorem toNat_ofNat_of_mem_smallCodes (n : Nat) (h : n ∈ smallCodes) : (Char.ofNat n).toNat = n := by
  rw [Char.ofNat, dif_pos (isValidChar_of_mem_smallCodes n h)]
  rfl

theorem mem_smallCodes (run : CaseRun) (h : run ∈ lowerRuns.toList) (code : Nat)
    (hc : code ∈ run.sources) : (code + run.shift).toNat ∈ smallCodes := by
  have htarget : (code + run.shift).toNat ∈ run.targets := List.mem_map.2 ⟨code, hc, rfl⟩
  rw [smallCodes, List.mem_cons, List.mem_cons, List.mem_flatMap]
  exact .inr (.inr ⟨run, h, htarget⟩)

theorem getD_lowerRuns (i : Nat) :
    lowerRuns.getD i default ∈ lowerRuns.toList ∨ lowerRuns.getD i default = default := by
  by_cases hi : i < lowerRuns.size
  · rw [Array.getD, dif_pos hi]
    exact .inl (Array.getElem_mem_toList hi)
  · rw [Array.getD, dif_neg hi]
    exact .inr rfl

/-- A character that is moved lies in a run, and is moved to a small letter. -/
theorem shiftCase_lowerRuns (c : Char) : shiftCase lowerRuns c = c ∨
    c.toNat ∈ movedCodes ∧ ∃ n ∈ smallCodes, shiftCase lowerRuns c = Char.ofNat n := by
  unfold shiftCase
  dsimp only
  have hrun := getD_lowerRuns
    (lastStart (fun i => (lowerRuns.getD i default).first) c.toNat 0 lowerRuns.size)
  generalize lowerRuns.getD (lastStart (fun i => (lowerRuns.getD i default).first) c.toNat 0
    lowerRuns.size) default = run at hrun ⊢
  split
  next h =>
    simp only [Bool.and_eq_true, decide_eq_true_eq] at h
    obtain ⟨⟨hle, hmod⟩, hlt⟩ := h
    have hin : run ∈ lowerRuns.toList := by
      refine hrun.resolve_right ?_
      rintro rfl
      exact Nat.not_lt_zero _ hlt
    have hcode : run.first + run.step * ((c.toNat - run.first) / run.step) = c.toNat := by
      have hdiv := Nat.div_add_mod (c.toNat - run.first) run.step
      omega
    have hsource : c.toNat ∈ run.sources := List.mem_map.2 ⟨_, List.mem_range.2 hlt, hcode⟩
    exact .inr ⟨List.mem_flatMap.2 ⟨run, hin, hsource⟩, _, mem_smallCodes run hin _ hsource, rfl⟩
  next => exact .inl rfl

def IsSmall (c : Char) : Prop :=
  lowerChar c = c ∧ c.toNat ≠ 0x3a3 ∧ c.toNat ≠ 0x130

theorem isSmall_of_not_moved (c : Char) (h : c.toNat ∉ movedCodes) : IsSmall c := by
  refine ⟨?_, fun he => h (mem_movedCodes_of _ (.inl he)),
    fun he => h (mem_movedCodes_of _ (.inr (.inl he)))⟩
  rw [lowerChar]
  split
  · rw [asciiLower, if_neg]
    simp only [Bool.and_eq_true, decide_eq_true_eq, le_iff_toNat_le]
    exact fun hc => h (mem_movedCodes_of _ (.inr (.inr hc)))
  · exact (shiftCase_lowerRuns c).resolve_right fun hm => h hm.1

/-- The characters that others are moved to stay, and are no white space. -/
theorem isSmall_ofNat (n : Nat) (h : n ∈ smallCodes) :
    IsSmall (Char.ofNat n) ∧ isBlank (Char.ofNat n) = false := by
  have hout := not_mem_of_bitSet _ _ bitSet_smallCodes n h
  rw [← toNat_ofNat_of_mem_smallCodes n h, List.mem_append, not_or] at hout
  refine ⟨isSmall_of_not_moved _ hout.1, ?_⟩
  exact Bool.eq_false_iff.2 fun hb => hout.2 (mem_codesOf_of_inRanges _ _ hb)

theorem isSmall_lowerChar (c : Char) (hs : c.toNat ≠ 0x3a3) (hd : c.toNat ≠ 0x130) :
    IsSmall (lowerChar c) ∧ (isBlank c = false → isBlank (lowerChar c) = false) := by
  by_cases hc : c.toNat < 128
  · have hcheck := forall_ascii (fun c =>
      lowerChar (lowerChar c) == lowerChar c && (lowerChar c).toNat < 128 &&
        (isBlank c || !isBlank (lowerChar c))) (by decide) c hc
    simp only [Bool.and_eq_true, beq_iff_eq, decide_eq_true_eq, Bool.or_eq_true,
      Bool.not_eq_true'] at hcheck
    obtain ⟨⟨hfix, hlt⟩, hblank⟩ := hcheck
    refine ⟨⟨hfix, by omega, by omega⟩, fun hb => ?_⟩
    exact hblank.resolve_left (by simp [hb])
  · have hshift : lowerChar c = shiftCase lowerRuns c := by rw [lowerChar, if_neg hc]
    obtain he | ⟨-, n, hn, he⟩ := shiftCase_lowerRuns c
    · rw [hshift, he]
      exact ⟨⟨hshift.trans he, hs, hd⟩, id⟩
    · rw [hshift, he]
      exact ⟨(isSmall_ofNat n hn).1, fun _ => (isSmall_ofNat n hn).2⟩

/-- What a character becomes in lower case, after some text and before some other. -/
def lowerImage (before : List Char) (c : Char) (rest : List Char) : List Char :=
  if c.toNat = 0x3a3 then
    if meetsCased before && !meetsCased rest then [Char.ofNat 0x3c2] else [Char.ofNat 0x3c3]
  else if c.toNat = 0x130 then ['i', Char.ofNat 0x307]
  else [lowerChar c]

theorem lowerAfter_cons (before : List Char) (c : Char) (rest : List Char) :
    lowerAfter before (c :: rest) = lowerImage before c rest ++ lowerAfter (c :: before) rest :=
  rfl

theorem lowerImage_ne_nil (before : List Char) (c : Char) (rest : List Char) :
    lowerImage before c rest ≠ [] := by
  unfold lowerImage
  split
  · split <;> simp
  · split <;> simp

theorem mem_lowerImage (before : List Char) (c : Char) (rest : List Char) :
    ∀ d ∈ lowerImage before c rest, IsSmall d ∧ (isBlank c = false → isBlank d = false) := by
  have hsmall (n : Nat) (h : n ∈ smallCodes) : IsSmall (Char.ofNat n) ∧
      (isBlank c = false → isBlank (Char.ofNat n) = false) :=
    ⟨(isSmall_ofNat n h).1, fun _ => (isSmall_ofNat n h).2⟩
  have hsigma : 0x3c3 ∈ smallCodes :=
    mem_smallCodes _ sigma_mem_lowerRuns 0x3a3 (by decide)
  have hi : IsSmall 'i' ∧ (isBlank c = false → isBlank 'i' = false) :=
    ⟨⟨by decide, by decide, by decide⟩, fun _ => by decide⟩
  intro d hd
  unfold lowerImage at hd
  split at hd
  · split at hd
    · rw [List.mem_singleton.1 hd]
      exact hsmall _ List.mem_cons_self
    · rw [List.mem_singleton.1 hd]
      exact hsmall _ hsigma
  · split at hd
    · simp only [List.mem_cons, List.not_mem_nil, or_false] at hd
      obtain rfl | rfl := hd
      · exact hi
      · exact hsmall _ (List.mem_cons_of_mem _ List.mem_cons_self)
    · rw [List.mem_singleton.1 hd]
      exact isSmall_lowerChar c ‹_› ‹_›

theorem isSmall_of_mem_lowerAfter (before text : List Char) :
    ∀ d ∈ lowerAfter before text, IsSmall d := by
  induction text generalizing before with
  | nil => exact fun d hd => absurd hd List.not_mem_nil
  | cons c rest ih =>
    intro d hd
    rw [lowerAfter_cons, List.mem_append] at hd
    obtain hd | hd := hd
    · exact (mem_lowerImage before c rest d hd).1
    · exact ih _ d hd

theorem lowerAfter_eq_self (before text : List Char) (h : ∀ c ∈ text, IsSmall c) :
    lowerAfter before text = text := by
  induction text generalizing before with
  | nil => rfl
  | cons c rest ih =>
    obtain ⟨hlower, hs, hd⟩ := h c List.mem_cons_self
    rw [lowerAfter_cons, lowerImage, if_neg hs, if_neg hd, hlower,
      ih _ fun d hd => h d (List.mem_cons_of_mem c hd)]
    rfl

def IsTrimmed (text : List Char) : Prop :=
  (∀ c ∈ text.head?, isBlank c = false) ∧ ∀ c ∈ text.getLast?, isBlank c = false

theorem trim_eq_self (text : List Char) (h : IsTrimmed text) : trim text = text := by
  have hdrop (xs : List Char) (hx : ∀ c ∈ xs.head?, isBlank c = false) :
      xs.dropWhile isBlank = xs := by
    cases xs with
    | nil => rfl
    | cons c xs => rw [List.dropWhile_cons_of_neg (by simp [hx c rfl])]
  rw [trim, trimBy, hdrop text h.1, hdrop _ (by simpa using h.2), List.reverse_reverse]

theorem isBlank_head_dropWhile (text : List Char) :
    ∀ c ∈ (text.dropWhile isBlank).head?, isBlank c = false := by
  intro c hc
  have h := List.head?_dropWhile_not isBlank text
  rw [Option.mem_def.1 hc] at h
  simpa using h

theorem isTrimmed_trim (text : List Char) : IsTrimmed (trim text) := by
  obtain ⟨front, hfront⟩ := List.dropWhile_suffix isBlank (l := (text.dropWhile isBlank).reverse)
  refine ⟨fun c hc => isBlank_head_dropWhile text c ?_, fun c hc => ?_⟩
  · rw [trim, trimBy, List.head?_reverse, Option.mem_def] at hc
    have hlast := congrArg List.getLast? hfront
    rw [List.getLast?_append, hc, List.getLast?_reverse, Option.some_or] at hlast
    exact hlast.symm
  · rw [trim, trimBy, List.getLast?_reverse] at hc
    exact isBlank_head_dropWhile _ c hc

theorem lowerAfter_cons_ne_nil (before : List Char) (c : Char) (rest : List Char) :
    lowerAfter before (c :: rest) ≠ [] := by
  simp [lowerAfter_cons, lowerImage_ne_nil]

theorem isBlank_getLast_lowerAfter (before text : List Char)
    (h : ∀ c ∈ text.getLast?, isBlank c = false) :
    ∀ d ∈ (lowerAfter before text).getLast?, isBlank d = false := by
  induction text generalizing before with
  | nil => exact h
  | cons c rest ih =>
    intro d hd
    rw [lowerAfter_cons, List.getLast?_append] at hd
    cases rest with
    | nil =>
      have hin : d ∈ lowerImage before c [] := List.mem_of_getLast? (by simpa [lowerAfter] using hd)
      exact (mem_lowerImage before c [] d hin).2 (h c rfl)
    | cons e rest =>
      have hx := List.getLast?_eq_some_getLast (lowerAfter_cons_ne_nil (c :: before) e rest)
      rw [hx, Option.some_or] at hd
      refine ih (c :: before) (by simpa using h) d ?_
      rw [hx]
      exact hd

theorem isTrimmed_lowerAfter (text : List Char) (h : IsTrimmed text) :
    IsTrimmed (lowerAfter [] text) := by
  refine ⟨?_, isBlank_getLast_lowerAfter [] text h.2⟩
  cases text with
  | nil => exact h.1
  | cons c rest =>
    intro d hd
    have hx := List.head?_eq_some_head (lowerImage_ne_nil [] c rest)
    rw [lowerAfter_cons, List.head?_append, hx, Option.some_or, ← hx] at hd
    exact (mem_lowerImage [] c rest d (List.mem_of_mem_head? hd)).2 (h.1 c rfl)

theorem lower_strip_lower_strip (text : String) :
    lower (strip (lower (strip text))) = lower (strip text) := by
  have htrim : trim (lowerAfter [] (trim text.toList)) = lowerAfter [] (trim text.toList) :=
    trim_eq_self _ (isTrimmed_lowerAfter _ (isTrimmed_trim _))
  simp only [lower, strip, String.toList_ofList, htrim,
    lowerAfter_eq_self [] _ (isSmall_of_mem_lowerAfter [] (trim text.toList))]

end Text

namespace TypeTag

theorem ofLocalName_eq (raw : String) (name : List Char) :
    ofLocalName raw name = raw ∨ ofLocalName raw name ∈ datatypeTags.map (·.2) := by
  unfold ofLocalName
  cases h : datatypeTags.find? fun tag => tag.1 == String.ofList name with
  | none => exact .inl rfl
  | some tag => exact .inr (List.mem_map.2 ⟨tag, List.mem_of_find?_eq_some h, rfl⟩)

theorem normalize_of_mem_datatypeTags (tag : String) (h : tag ∈ datatypeTags.map (·.2)) :
    normalize tag = tag := by
  have hall : ∀ tag ∈ datatypeTags.map (·.2), normalize tag = tag := by
    decide
  exact hall tag h

/-- A tag that has been read as a datatype stays; another one has been trimmed and put in lower case. -/
theorem normalize_normalize_of_datatype (raw : String) :
    normalize (normalize raw) = normalize raw ∨ normalize raw = Text.lower (Text.strip raw) := by
  have hlocal (name : List Char) (h : normalize raw = ofLocalName raw name) :
      normalize (normalize raw) = normalize raw := by
    obtain he | hm := ofLocalName_eq raw name
    · rw [h, he, h, he]
    · exact normalize_of_mem_datatypeTags _ (h ▸ hm)
  cases hxsd : Text.dropBeginning? Xsd.namespaceIri.toList raw.toList with
  | some name => exact .inl (hlocal name (by simp only [normalize, hxsd]))
  | none =>
    cases hshort : Text.dropBeginning? "xsd:".toList raw.toList with
    | some name => exact .inl (hlocal name (by simp only [normalize, hxsd, hshort]))
    | none => exact .inr (by simp only [normalize, hxsd, hshort])

/-- A tag that is normalized a second time stays or becomes the tag of a datatype. -/
theorem normalize_normalize (raw : String) : normalize (normalize raw) = normalize raw ∨
    normalize (normalize raw) ∈ datatypeTags.map (·.2) := by
  obtain h | hraw := normalize_normalize_of_datatype raw
  · exact .inl h
  · generalize normalize raw = tag at hraw ⊢
    have hsmall : Text.lower (Text.strip tag) = tag := by rw [hraw, Text.lower_strip_lower_strip]
    unfold normalize
    split
    · exact ofLocalName_eq tag _
    · split
      · exact ofLocalName_eq tag _
      · exact .inl hsmall

/-- A tag that is normalized a third time stays. -/
theorem normalize_normalize_normalize (raw : String) :
    normalize (normalize (normalize raw)) = normalize (normalize raw) := by
  obtain h | h := normalize_normalize raw
  · rw [h, h]
  · exact normalize_of_mem_datatypeTags _ h

end TypeTag

end CommandOntology
