import CommandOntology.Json.Reader
import CommandOntology.Json.Writer
import CommandOntology.Proofs.PrefixTables
import CommandOntology.Proofs.QuotedLiterals
import Mathlib.Tactic.SplitIfs

set_option autoImplicit false

namespace CommandOntology.Json

open CommandOntology.Text

theorem readUnit_hexDigits {unit : Nat} (h : unit < 0x10000) {rest : List Char} (hrest : rest ≠ []) :
    readUnit (hexDigits 4 unit ++ rest) = some (unit, rest) := by
  obtain ⟨e, rest, rfl⟩ := List.exists_cons_of_ne_nil hrest
  have hlength := length_hexDigits 4 unit
  have hall := isHexDigit_of_mem_hexDigits 4 unit
  have hvalue := foldl_hexDigits 4 unit h
  generalize hexDigits 4 unit = digits at hlength hall hvalue
  match digits, hlength with
  | [a, b, c, d], _ =>
    simp only [List.forall_mem_cons] at hall
    simp only [List.foldl_cons, List.foldl_nil] at hvalue
    simp only [List.cons_append, List.nil_append, readUnit, hall, Bool.and_self, if_true]
    congr 2
    omega

theorem readPair_single {unit : Nat} (h : unit < 0xd800 ∨ 0xdc00 ≤ unit) (rest : List Char) :
    readPair unit rest = .ok (Char.ofNat unit, rest) := by
  unfold readPair
  rw [if_neg]
  rw [Bool.and_eq_true, decide_eq_true_eq, decide_eq_true_eq]
  omega

theorem readPair_pair {offset : Nat} (h : offset < 0x100000) {rest : List Char} (hrest : rest ≠ []) :
    readPair (0xd800 + offset / 0x400) (unitEscape (0xdc00 + offset % 0x400) ++ rest) =
      .ok (Char.ofNat (0x10000 + offset), rest) := by
  have hlow : readUnit (hexDigits 4 (0xdc00 + offset % 0x400) ++ rest) = _ := readUnit_hexDigits (by omega) hrest
  have hlength : ¬(hexDigits 4 (0xdc00 + offset % 0x400) ++ rest).length < 5 := by
    have hpos := List.length_pos_iff.2 hrest
    rw [List.length_append, length_hexDigits]
    omega
  unfold readPair
  rw [if_pos (by rw [Bool.and_eq_true, decide_eq_true_eq, decide_eq_true_eq]; omega)]
  simp only [unitEscape, List.cons_append]
  rw [if_neg hlength, hlow]
  dsimp only
  rw [if_pos (by rw [Bool.and_eq_true, decide_eq_true_eq, decide_eq_true_eq]; omega)]
  have hsum : 0x10000 + (0xd800 + offset / 0x400 - 0xd800) * 0x400 + (0xdc00 + offset % 0x400 - 0xdc00) =
      0x10000 + offset := by omega
  rw [hsum]

theorem readString_unitEscape {unit : Nat} (h : unit < 0xd800 ∨ 0xdc00 ≤ unit) (hunit : unit < 0x10000)
    (start : List Char) (fuel : Nat) (read : List Char) {rest : List Char} (hrest : rest ≠ []) :
    readString start (fuel + 1) read (unitEscape unit ++ rest) =
      readString start fuel (Char.ofNat unit :: read) rest := by
  rw [unitEscape, List.cons_append, List.cons_append, readString, if_neg (by decide), if_pos rfl]
  rw [readUnit_hexDigits hunit hrest]
  dsimp only
  rw [readPair_single h]

theorem readString_unitPair {offset : Nat} (h : offset < 0x100000) (start : List Char) (fuel : Nat)
    (read : List Char) {rest : List Char} (hrest : rest ≠ []) :
    readString start (fuel + 1) read
        (unitEscape (0xd800 + offset / 0x400) ++ unitEscape (0xdc00 + offset % 0x400) ++ rest) =
      readString start fuel (Char.ofNat (0x10000 + offset) :: read) rest := by
  have hlow : unitEscape (0xdc00 + offset % 0x400) ++ rest ≠ [] := List.append_ne_nil_of_right_ne_nil _ hrest
  rw [List.append_assoc, unitEscape, List.cons_append, List.cons_append, readString, if_neg (by decide), if_pos rfl,
    readUnit_hexDigits (by omega) hlow]
  dsimp only
  rw [readPair_pair h hrest]

/-- A letter behind a backslash is read as the character that it stands for. -/
theorem readString_letter {e c : Char} (hunit : e ≠ 'u') (h : escapedChar? e = some c) (start : List Char) (fuel : Nat)
    (read rest : List Char) :
    readString start (fuel + 1) read ('\\' :: e :: rest) = readString start fuel (c :: read) rest := by
  rw [readString, if_neg (by decide), if_pos rfl, h]
  exact hunit

inductive Spells (c : Char) : List Char → Prop
  | letter {e : Char} (hunit : e ≠ 'u') (h : escapedChar? e = some c) : Spells c ['\\', e]
  | unit (h : c.toNat < 0x10000) : Spells c (unitEscape c.toNat)
  | pair {offset : Nat} (h : c.toNat = 0x10000 + offset) :
    Spells c (unitEscape (0xd800 + offset / 0x400) ++ unitEscape (0xdc00 + offset % 0x400))
  | self (hquote : c ≠ '"') (hslash : c ≠ '\\') (hcontrol : ¬c.toNat < 0x20) : Spells c [c]

theorem spells_stringChar (asciiOnly : Bool) (c : Char) : Spells c (stringChar asciiOnly c) := by
  have hletter {e d : Char} (hunit : e ≠ 'u') (he : escapedChar? e = some d) (h : c.toNat = d.toNat) :
      Spells c ['\\', e] := by
    rw [Char.toNat_inj] at h
    exact .letter hunit (h ▸ he)
  unfold stringChar
  -- one condition at a time, as simplifying the nested conditions takes long
  refine iteInduction (motive := Spells c) (fun h => hletter (by decide) rfl (congrArg _ h)) fun hquote => ?_
  refine iteInduction (motive := Spells c) (fun h => hletter (by decide) rfl (congrArg _ h)) fun hslash => ?_
  refine iteInduction (motive := Spells c) (fun h => hletter (by decide) rfl (congrArg _ h)) fun _ => ?_
  refine iteInduction (motive := Spells c) (fun h => hletter (by decide) rfl (congrArg _ h)) fun _ => ?_
  refine iteInduction (motive := Spells c) (fun h => hletter (by decide) rfl (congrArg _ h)) fun _ => ?_
  refine iteInduction (motive := Spells c) (fun h => hletter (by decide) rfl h) fun _ => ?_
  refine iteInduction (motive := Spells c) (fun h => hletter (by decide) rfl h) fun _ => ?_
  refine iteInduction (motive := Spells c) (fun h => .unit (by omega)) fun hcontrol => ?_
  refine iteInduction (motive := Spells c) (fun _ => ?_) fun _ => .self hquote hslash hcontrol
  exact iteInduction (motive := Spells c) .unit fun _ => .pair (by omega)

/-- A character is read from how it is spelled, in front of whatever ends the string. -/
theorem Spells.readString {c : Char} {cs : List Char} (h : Spells c cs) (start : List Char) (fuel : Nat)
    (read : List Char) {rest : List Char} (hrest : rest ≠ []) :
    Json.readString start (fuel + 1) read (cs ++ rest) = Json.readString start fuel (c :: read) rest := by
  have hvalid : c.toNat < 0xd800 ∨ 0xdfff < c.toNat ∧ c.toNat < 0x110000 := c.valid
  have hc := Char.ofNat_toNat c
  cases h with
  | letter hunit h => exact readString_letter hunit h start fuel read rest
  | unit h =>
    have hsingle : c.toNat < 0xd800 ∨ 0xdc00 ≤ c.toNat := by omega
    rw [readString_unitEscape hsingle h start fuel read hrest, hc]
  | pair h => rw [readString_unitPair (by omega) start fuel read hrest, ← h, hc]
  | self hquote hslash hcontrol =>
    rw [List.singleton_append, readString.eq_def]
    dsimp only
    rw [if_neg hquote, if_neg hslash, if_neg hcontrol]

theorem Spells.length_pos {c : Char} {cs : List Char} (h : Spells c cs) : 0 < cs.length := by
  cases h <;> simp [unitEscape]

theorem readString_stringChars (asciiOnly : Bool) (cs : List Char) (start : List Char) (fuel : Nat)
    (read rest : List Char) (hfuel : cs.length < fuel) :
    readString start fuel read (cs.flatMap (stringChar asciiOnly) ++ '"' :: rest) =
      .ok (String.ofList (read.reverse ++ cs), rest) := by
  induction cs generalizing fuel read with
  | nil =>
    obtain ⟨fuel, rfl⟩ := Nat.exists_eq_succ_of_ne_zero (Nat.ne_zero_of_lt hfuel)
    rw [List.append_nil]
    rfl
  | cons c cs ih =>
    obtain ⟨fuel, rfl⟩ := Nat.exists_eq_succ_of_ne_zero (Nat.ne_zero_of_lt hfuel)
    rw [List.flatMap_cons, List.append_assoc, (spells_stringChar asciiOnly c).readString start fuel read (by simp),
      ih fuel (c :: read) (Nat.lt_of_succ_lt_succ hfuel)]
    simp

theorem length_le_flatMap_stringChar (asciiOnly : Bool) (cs : List Char) :
    cs.length ≤ (cs.flatMap (stringChar asciiOnly)).length := by
  induction cs with
  | nil => exact Nat.le_refl 0
  | cons c cs ih =>
    have hpos := (spells_stringChar asciiOnly c).length_pos
    rw [List.flatMap_cons, List.length_append, List.length_cons]
    omega

theorem readString_body (asciiOnly : Bool) (text : String) (start rest : List Char) :
    readString start ((text.toList.flatMap (stringChar asciiOnly) ++ '"' :: rest).length + 1) []
      (text.toList.flatMap (stringChar asciiOnly) ++ '"' :: rest) = .ok (text, rest) := by
  rw [readString_stringChars]
  · simp
  · have hle := length_le_flatMap_stringChar asciiOnly text.toList
    rw [List.length_append]
    omega

theorem stringChars_append (asciiOnly : Bool) (text : String) (rest : List Char) :
    stringChars asciiOnly text ++ rest = '"' :: (text.toList.flatMap (stringChar asciiOnly) ++ '"' :: rest) := by
  simp [stringChars]

theorem skipSpace_append {gap : List Char} (hgap : ∀ c ∈ gap, isSpace c = true) {c : Char} (hc : isSpace c = false)
    (rest : List Char) : skipSpace (gap ++ c :: rest) = c :: rest := by
  rw [skipSpace, List.dropWhile_append_of_pos hgap, List.dropWhile_cons_of_neg (by simp [hc])]

theorem isSpace_of_mem_lineStart (style : Style) (level : Nat) : ∀ c ∈ lineStart style level, isSpace c = true := by
  unfold lineStart
  split_ifs
  · refine List.forall_mem_cons.2 ⟨by decide, fun c hc => ?_⟩
    rw [(List.mem_replicate.1 hc).2]
    decide
  · exact fun _ h => absurd h List.not_mem_nil

theorem exists_separator (style : Style) (level : Nat) :
    ∃ gap, separator style level = ',' :: gap ∧ ∀ c ∈ gap, isSpace c = true := by
  unfold separator
  split_ifs
  · exact ⟨_, rfl, isSpace_of_mem_lineStart style level⟩
  · exact ⟨_, rfl, by decide⟩

/-- Texts, and lists and records of such values, where no key of a record occurs twice. -/
inductive IsTextual : Value → Prop
  | text (s : String) : IsTextual (.text s)
  | list {items : List Value} (h : ∀ item ∈ items, IsTextual item) : IsTextual (.list items)
  | record {fields : List (String × Value)} (hkeys : (fields.map (·.1)).Nodup)
    (h : ∀ field ∈ fields, IsTextual field.2) : IsTextual (.record fields)

/-- A value that is read from its text, whatever follows, in as many steps as the text has characters. -/
def IsReadBack (style : Style) (value : Value) : Prop :=
  ∀ level fuel rest, (valueChars style level value).length ≤ fuel →
    readValue fuel (valueChars style level value ++ rest) = .ok (value, rest)

section

variable {style : Style} {value : Value}

/-- What a textual value starts with is no white space, and closes nothing. -/
theorem IsTextual.exists_cons (style : Style) (h : IsTextual value) (level : Nat) :
    ∃ c rest, valueChars style level value = c :: rest ∧ (c = '"' ∨ c = '[' ∨ c = '\x7b') := by
  have hbracketed (opening closing : Char) (members : List (List Char)) :
      ∃ rest, bracketed style level opening closing members = opening :: rest := by
    unfold bracketed
    split_ifs <;> exact ⟨_, rfl⟩
  cases h with
  | text s => exact ⟨'"', _, by rw [valueChars, stringChars]; rfl, .inl rfl⟩
  | list =>
    obtain ⟨rest, hrest⟩ := hbracketed '[' ']' (itemChars style (level + 1) _)
    exact ⟨'[', rest, by rw [valueChars, hrest], .inr (.inl rfl)⟩
  | record =>
    obtain ⟨rest, hrest⟩ := hbracketed '\x7b' '\x7d' (fieldChars style (level + 1) _)
    exact ⟨'\x7b', rest, by rw [valueChars, hrest], .inr (.inr rfl)⟩

theorem isReadBack_text (s : String) : IsReadBack style (.text s) := by
  intro level fuel rest hfuel
  rw [valueChars] at hfuel ⊢
  obtain ⟨fuel, rfl⟩ := Nat.exists_eq_succ_of_ne_zero (by rintro rfl; simp [stringChars] at hfuel : fuel ≠ 0)
  rw [stringChars_append, readValue, readString_body]

theorem readItems_last {fuel : Nat} {text gap rest : List Char} {item : Value}
    (h : readValue fuel text = .ok (item, gap ++ ']' :: rest)) (hgap : ∀ c ∈ gap, isSpace c = true) :
    readItems (fuel + 1) text = .ok ([item], rest) := by
  rw [readItems, h]
  dsimp only
  rw [skipSpace_append hgap (by decide)]
  rfl

theorem readItems_more {fuel : Nat} {text gap rest more : List Char} {item : Value} {items : List Value} {c : Char}
    (h : readValue fuel text = .ok (item, ',' :: (gap ++ c :: rest))) (hgap : ∀ c ∈ gap, isSpace c = true)
    (hc : isSpace c = false) (hrest : readItems fuel (c :: rest) = .ok (items, more)) :
    readItems (fuel + 1) text = .ok (item :: items, more) := by
  have hcomma : skipSpace (',' :: (gap ++ c :: rest)) = ',' :: (gap ++ c :: rest) := rfl
  simp only [readItems, h, hcomma, skipSpace_append hgap hc, hrest]

def itemsText (style : Style) (level : Nat) (items : List Value) : List Char :=
  (separator style level).intercalate (itemChars style level items)

theorem itemsText_singleton (level : Nat) (item : Value) :
    itemsText style level [item] = valueChars style level item := by
  simp [itemsText, itemChars]

theorem itemsText_cons_cons (level : Nat) (item other : Value) (items : List Value) :
    itemsText style level (item :: other :: items) =
      valueChars style level item ++ (separator style level ++ itemsText style level (other :: items)) := by
  rw [itemsText, itemChars, itemChars, List.intercalate_cons_cons, List.append_assoc]
  rfl

theorem exists_itemsText (style : Style) {items : List Value} (h : ∀ item ∈ items, IsTextual item) (hne : items ≠ [])
    (level : Nat) :
    ∃ c rest, itemsText style level items = c :: rest ∧ isSpace c = false ∧ c ≠ ']' := by
  obtain ⟨item, items, rfl⟩ := List.exists_cons_of_ne_nil hne
  obtain ⟨c, rest, hchars, hc⟩ := (h item List.mem_cons_self).exists_cons style level
  have hplain : isSpace c = false ∧ c ≠ ']' := by
    obtain rfl | rfl | rfl := hc <;> decide
  cases items with
  | nil => exact ⟨c, rest, (itemsText_singleton level item).trans hchars, hplain⟩
  | cons other items => exact ⟨c, _, by rw [itemsText_cons_cons, hchars, List.cons_append], hplain⟩

theorem readItems_itemsText {items : List Value} (htextual : ∀ item ∈ items, IsTextual item)
    (hread : ∀ item ∈ items, IsReadBack style item) (hne : items ≠ []) (level : Nat) {gap : List Char}
    (hgap : ∀ c ∈ gap, isSpace c = true) (fuel : Nat) (rest : List Char)
    (hfuel : (itemsText style level items).length < fuel) :
    readItems fuel (itemsText style level items ++ (gap ++ ']' :: rest)) = .ok (items, rest) := by
  obtain ⟨between, hseparator, hbetween⟩ := exists_separator style level
  induction items generalizing fuel with
  | nil => exact absurd rfl hne
  | cons item items ih =>
    obtain ⟨fuel, rfl⟩ := Nat.exists_eq_succ_of_ne_zero (Nat.ne_zero_of_lt hfuel)
    obtain ⟨hitem, hothers⟩ := List.forall_mem_cons.1 hread
    cases items with
    | nil =>
      rw [itemsText_singleton] at hfuel ⊢
      exact readItems_last (hitem level fuel _ (Nat.le_of_lt_succ hfuel)) hgap
    | cons other items =>
      have htail := (List.forall_mem_cons.1 htextual).2
      obtain ⟨c, more, hmore, hc, -⟩ := exists_itemsText style htail (by simp) level
      rw [itemsText_cons_cons] at hfuel ⊢
      simp only [List.length_append, hseparator, List.length_cons] at hfuel
      have hnext := ih htail hothers (by simp) fuel (by omega)
      have hfirst := hitem level fuel
        (separator style level ++ (itemsText style level (other :: items) ++ (gap ++ ']' :: rest))) (by omega)
      rw [hmore] at hnext hfirst ⊢
      rw [List.append_assoc, List.append_assoc]
      rw [hseparator] at hfirst ⊢
      exact readItems_more hfirst hbetween hc hnext

theorem readValue_list {fuel : Nat} {gap rest more : List Char} {items : List Value} {c : Char}
    (hgap : ∀ c ∈ gap, isSpace c = true) (hc : isSpace c = false) (hclose : c ≠ ']')
    (h : readItems fuel (c :: rest) = .ok (items, more)) :
    readValue (fuel + 1) ('[' :: (gap ++ c :: rest)) = .ok (.list items, more) := by
  rw [readValue, skipSpace_append hgap hc]
  split
  · next heq =>
    cases heq
    exact absurd rfl hclose
  · rw [h]

theorem bracketed_of_ne_nil (level : Nat) (opening closing : Char) {members : List (List Char)} (hne : members ≠ []) :
    bracketed style level opening closing members =
      opening :: (lineStart style (level + 1) ++ ((separator style (level + 1)).intercalate members ++
        (lineStart style level ++ [closing]))) := by
  rw [bracketed, if_neg (by simpa using hne)]
  simp

theorem isReadBack_list {items : List Value} (htextual : ∀ item ∈ items, IsTextual item)
    (hread : ∀ item ∈ items, IsReadBack style item) : IsReadBack style (.list items) := by
  intro level fuel rest hfuel
  rw [valueChars] at hfuel ⊢
  by_cases hne : items = []
  · subst hne
    obtain ⟨fuel, rfl⟩ : ∃ n, fuel = n + 1 := Nat.exists_eq_succ_of_ne_zero (by rintro rfl; cases hfuel)
    rfl
  · have hmembers : itemChars style (level + 1) items ≠ [] := by
      obtain ⟨item, items, rfl⟩ := List.exists_cons_of_ne_nil hne
      rw [itemChars]
      exact List.cons_ne_nil _ _
    obtain ⟨c, more, hmore, hc, hclose⟩ := exists_itemsText style htextual hne (level + 1)
    rw [bracketed_of_ne_nil level _ _ hmembers, ← itemsText] at hfuel ⊢
    simp only [List.length_cons, List.length_append] at hfuel
    obtain ⟨fuel, rfl⟩ := Nat.exists_eq_succ_of_ne_zero (by omega : fuel ≠ 0)
    have hitems := readItems_itemsText htextual hread hne (level + 1) (isSpace_of_mem_lineStart style level) fuel rest
      (by omega)
    rw [hmore, List.cons_append] at hitems
    rw [hmore]
    have hvalue := readValue_list (isSpace_of_mem_lineStart style (level + 1)) hc hclose hitems
    simpa only [List.cons_append, List.append_assoc, List.nil_append] using hvalue

def memberText (style : Style) (level : Nat) (field : String × Value) : List Char :=
  stringChars style.asciiOnly field.1 ++ ':' :: ' ' :: valueChars style level field.2

/-- What is read behind a member: the end of the record, or the members from the next one on. -/
def readOn (fuel : Nat) (fields : List (String × Value)) (text : List Char) : Result (List (String × Value)) :=
  match skipSpace text with
  | '\x7d' :: rest => .ok (fields, rest)
  | ',' :: rest => readMembers fuel fields (skipSpace rest)
  | rest => fail .commaExpected rest

theorem readOn_last (fuel : Nat) (fields : List (String × Value)) {gap : List Char}
    (hgap : ∀ c ∈ gap, isSpace c = true) (rest : List Char) :
    readOn fuel fields (gap ++ '\x7d' :: rest) = .ok (fields, rest) := by
  unfold readOn
  rw [skipSpace_append hgap (by decide)]
  rfl

theorem readOn_more (fuel : Nat) (fields : List (String × Value)) {gap : List Char}
    (hgap : ∀ c ∈ gap, isSpace c = true) {c : Char} (hc : isSpace c = false) (rest : List Char) :
    readOn fuel fields (',' :: (gap ++ c :: rest)) = readMembers fuel fields (c :: rest) := by
  have hcomma : skipSpace (',' :: (gap ++ c :: rest)) = ',' :: (gap ++ c :: rest) := rfl
  unfold readOn
  rw [hcomma]
  exact congrArg (readMembers fuel fields) (skipSpace_append hgap hc rest)

theorem readMembers_member {fuel : Nat} {fields : List (String × Value)} {field : String × Value} {level : Nat}
    (htextual : IsTextual field.2) (hread : IsReadBack style field.2)
    (hfuel : (memberText style level field).length ≤ fuel) (rest : List Char) :
    readMembers (fuel + 1) fields (memberText style level field ++ rest) =
      readOn fuel (putField fields field.1 field.2) rest := by
  obtain ⟨c, more, hmore, hc⟩ := htextual.exists_cons style level
  have hplain : isSpace c = false := by
    obtain rfl | rfl | rfl := hc <;> decide
  have hcolon (text : List Char) : skipSpace (':' :: text) = ':' :: text := rfl
  have hblank (text : List Char) : skipSpace (' ' :: c :: text) = c :: text := by
    have hgap : ∀ c ∈ [' '], isSpace c = true := by decide
    exact skipSpace_append hgap hplain text
  rw [memberText, List.length_append, List.length_cons, List.length_cons] at hfuel
  have hvalue := hread level fuel rest (by omega)
  rw [hmore, List.cons_append] at hvalue
  rw [memberText, List.append_assoc, stringChars_append, readMembers, readString_body]
  simp only [List.cons_append, hcolon, hmore, hblank, hvalue]
  rfl

def membersText (style : Style) (level : Nat) (fields : List (String × Value)) : List Char :=
  (separator style level).intercalate (fieldChars style level fields)

theorem membersText_singleton (level : Nat) (field : String × Value) :
    membersText style level [field] = memberText style level field := by
  simp [membersText, fieldChars, memberText]

theorem membersText_cons_cons (level : Nat) (field other : String × Value) (fields : List (String × Value)) :
    membersText style level (field :: other :: fields) =
      memberText style level field ++ (separator style level ++ membersText style level (other :: fields)) := by
  rw [membersText, fieldChars, fieldChars, List.intercalate_cons_cons, List.append_assoc]
  rfl

theorem exists_membersText (style : Style) {fields : List (String × Value)} (hne : fields ≠ []) (level : Nat) :
    ∃ rest, membersText style level fields = '"' :: rest := by
  obtain ⟨field, fields, rfl⟩ := List.exists_cons_of_ne_nil hne
  have hfield : ∃ rest, memberText style level field = '"' :: rest := ⟨_, stringChars_append _ _ _⟩
  obtain ⟨rest, hrest⟩ := hfield
  cases fields with
  | nil => exact ⟨rest, (membersText_singleton level field).trans hrest⟩
  | cons other fields => exact ⟨_, by rw [membersText_cons_cons, hrest, List.cons_append]⟩

theorem readMembers_membersText {fields : List (String × Value)} (htextual : ∀ field ∈ fields, IsTextual field.2)
    (hread : ∀ field ∈ fields, IsReadBack style field.2) (hne : fields ≠ []) (level : Nat) {gap : List Char}
    (hgap : ∀ c ∈ gap, isSpace c = true) (fuel : Nat) (first : List (String × Value))
    (hkeys : ((first ++ fields).map (·.1)).Nodup) (rest : List Char)
    (hfuel : (membersText style level fields).length < fuel) :
    readMembers fuel first (membersText style level fields ++ (gap ++ '\x7d' :: rest)) = .ok (first ++ fields, rest) := by
  obtain ⟨between, hseparator, hbetween⟩ := exists_separator style level
  induction fields generalizing fuel first with
  | nil => exact absurd rfl hne
  | cons field fields ih =>
    obtain ⟨fuel, rfl⟩ := Nat.exists_eq_succ_of_ne_zero (Nat.ne_zero_of_lt hfuel)
    obtain ⟨hfield, hothers⟩ := List.forall_mem_cons.1 hread
    obtain ⟨hvalue, htail⟩ := List.forall_mem_cons.1 htextual
    have hput : putField first field.1 field.2 = first ++ [field] := by
      refine Turtle.putField_eq_append _ _ _ fun hmem => ?_
      rw [List.map_append, List.map_cons] at hkeys
      exact (List.nodup_append.1 hkeys).2.2 _ hmem _ List.mem_cons_self rfl
    cases fields with
    | nil =>
      rw [membersText_singleton] at hfuel ⊢
      rw [readMembers_member hvalue hfield (Nat.le_of_lt_succ hfuel), hput]
      exact readOn_last fuel _ hgap rest
    | cons other fields =>
      rw [membersText_cons_cons] at hfuel ⊢
      simp only [List.length_append, hseparator, List.length_cons] at hfuel
      rw [List.append_cons] at hkeys
      have hnext := ih htail hothers (by simp) fuel (first ++ [field]) hkeys (by omega)
      obtain ⟨more, hmore⟩ := exists_membersText style (by simp : other :: fields ≠ []) level
      rw [hmore, List.cons_append] at hnext
      rw [List.append_assoc, List.append_assoc, readMembers_member hvalue hfield (by omega), hput, hseparator, hmore,
        List.cons_append, List.cons_append, readOn_more fuel _ hbetween (by decide), hnext, ← List.append_cons]

theorem readValue_record {fuel : Nat} {gap rest more : List Char} {fields : List (String × Value)}
    (hgap : ∀ c ∈ gap, isSpace c = true) (h : readMembers fuel [] ('"' :: rest) = .ok (fields, more)) :
    readValue (fuel + 1) ('\x7b' :: (gap ++ '"' :: rest)) = .ok (.record fields, more) := by
  rw [readValue, skipSpace_append hgap (by decide)]
  split
  · next heq => cases heq
  · rw [h]

theorem isReadBack_record {fields : List (String × Value)} (hkeys : (fields.map (·.1)).Nodup)
    (htextual : ∀ field ∈ fields, IsTextual field.2) (hread : ∀ field ∈ fields, IsReadBack style field.2) :
    IsReadBack style (.record fields) := by
  intro level fuel rest hfuel
  rw [valueChars] at hfuel ⊢
  by_cases hne : fields = []
  · subst hne
    obtain ⟨fuel, rfl⟩ : ∃ n, fuel = n + 1 := Nat.exists_eq_succ_of_ne_zero (by rintro rfl; cases hfuel)
    rfl
  · have hmembers : fieldChars style (level + 1) fields ≠ [] := by
      obtain ⟨field, fields, rfl⟩ := List.exists_cons_of_ne_nil hne
      rw [fieldChars]
      exact List.cons_ne_nil _ _
    obtain ⟨more, hmore⟩ := exists_membersText style hne (level + 1)
    rw [bracketed_of_ne_nil level _ _ hmembers, ← membersText] at hfuel ⊢
    simp only [List.length_cons, List.length_append] at hfuel
    obtain ⟨fuel, rfl⟩ := Nat.exists_eq_succ_of_ne_zero (by omega : fuel ≠ 0)
    have hfields := readMembers_membersText htextual hread hne (level + 1) (isSpace_of_mem_lineStart style level) fuel
      [] hkeys rest (by omega)
    rw [hmore, List.cons_append] at hfields
    rw [hmore]
    have hvalue := readValue_record (isSpace_of_mem_lineStart style (level + 1)) hfields
    simpa only [List.cons_append, List.append_assoc, List.nil_append] using hvalue

theorem IsTextual.isReadBack (style : Style) (h : IsTextual value) : IsReadBack style value := by
  induction h with
  | text s => exact isReadBack_text s
  | list h ih => exact isReadBack_list h ih
  | record hkeys h ih => exact isReadBack_record hkeys h ih

/-- A textual value is read back from its JSON text in every style. -/
theorem read_write (style : Style) (h : IsTextual value) : read (write style value) = .ok value := by
  obtain ⟨c, rest, hchars, hc⟩ := h.exists_cons style 0
  have hplain : isSpace c = false ∧ c.toNat ≠ 0xfeff := by
    obtain rfl | rfl | rfl := hc <;> decide
  have hread := h.isReadBack style 0 (2 * (c :: rest).length + 2) [] (by rw [hchars]; omega)
  rw [hchars, List.append_nil] at hread
  have hskip : skipSpace (c :: rest) = c :: rest := List.dropWhile_cons_of_neg (by simp [hplain.1])
  rw [read, write, String.toList_ofList, hchars, readAll, if_neg hplain.2, readAll.readWhole, hskip, hread]
  rfl

end

end CommandOntology.Json
