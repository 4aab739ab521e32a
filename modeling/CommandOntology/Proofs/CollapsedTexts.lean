import CommandOntology.Proofs.TypeTags
import CommandOntology.Text.Layout

set_option autoImplicit false

namespace CommandOntology.Text

/-- Each run of white space becomes one space. `inRun` says whether one is being read. -/
def squeeze (inRun : Bool) : List Char → List Char
  | [] => []
  | c :: rest =>
    if isBlank c then if inRun then squeeze true rest else ' ' :: squeeze true rest
    else c :: squeeze false rest

def IsWord (word : List Char) : Prop :=
  word ≠ [] ∧ ∀ c ∈ word, isBlank c = false

theorem wordsFrom_nil (word : List Char) :
    wordsFrom word [] = if word.isEmpty then [] else [word.reverse] :=
  rfl

theorem wordsFrom_blank (word : List Char) {c : Char} (h : isBlank c = true) (rest : List Char) :
    wordsFrom word (c :: rest) = (if word.isEmpty then [] else [word.reverse]) ++ wordsFrom [] rest := by
  rw [wordsFrom, if_pos h]
  split <;> rfl

theorem wordsFrom_append (word : List Char) {part : List Char} (h : ∀ c ∈ part, isBlank c = false)
    (rest : List Char) : wordsFrom word (part ++ rest) = wordsFrom (part.reverse ++ word) rest := by
  induction part generalizing word with
  | nil => rfl
  | cons c part ih =>
    obtain ⟨hc, hpart⟩ := List.forall_mem_cons.1 h
    rw [List.cons_append, wordsFrom, if_neg (by simp [hc]), ih (c :: word) hpart]
    simp

theorem wordsFrom_eq_nil {word text : List Char} (h : wordsFrom word text = []) :
    word = [] ∧ ∀ c ∈ text, isBlank c = true := by
  induction text generalizing word with
  | nil => simpa [wordsFrom] using h
  | cons c rest ih =>
    cases hc : isBlank c with
    | true =>
      rw [wordsFrom_blank word hc, List.append_eq_nil_iff] at h
      exact ⟨by simpa using h.1, List.forall_mem_cons.2 ⟨hc, (ih h.2).2⟩⟩
    | false =>
      rw [wordsFrom, if_neg (by simp [hc])] at h
      exact absurd (ih h).1 (List.cons_ne_nil c word)

theorem isWord_of_mem_wordsFrom {word text : List Char} (hword : ∀ c ∈ word, isBlank c = false) :
    ∀ w ∈ wordsFrom word text, IsWord w := by
  have hread (word : List Char) (hword : ∀ c ∈ word, isBlank c = false) :
      ∀ w ∈ (if word.isEmpty then [] else [word.reverse]), IsWord w := by
    cases word with
    | nil => simp
    | cons c word =>
      rintro w hw
      obtain rfl : w = (c :: word).reverse := by simpa using hw
      exact ⟨by simp, fun d hd => hword d (List.mem_reverse.1 hd)⟩
  induction text generalizing word with
  | nil => exact hread word hword
  | cons c rest ih =>
    cases hc : isBlank c with
    | true =>
      rw [wordsFrom_blank word hc]
      exact List.forall_mem_append.2 ⟨hread word hword, ih (by simp)⟩
    | false =>
      rw [wordsFrom, if_neg (by simp [hc])]
      exact ih (List.forall_mem_cons.2 ⟨hc, hword⟩)

theorem isWord_of_mem_words (text : List Char) : ∀ w ∈ words text, IsWord w :=
  isWord_of_mem_wordsFrom (by simp)

theorem words_dropWhile (text : List Char) : words (text.dropWhile isBlank) = words text := by
  induction text with
  | nil => rfl
  | cons c rest ih =>
    cases hc : isBlank c with
    | true =>
      rw [List.dropWhile_cons_of_pos hc, ih, words, words, wordsFrom_blank [] hc]
      rfl
    | false => rw [List.dropWhile_cons_of_neg (by simp [hc])]

theorem wordsFrom_append_blanks (word text : List Char) {blanks : List Char}
    (h : ∀ c ∈ blanks, isBlank c = true) : wordsFrom word (text ++ blanks) = wordsFrom word text := by
  induction text generalizing word with
  | nil =>
    rw [List.nil_append]
    induction blanks generalizing word with
    | nil => rfl
    | cons c blanks ih =>
      obtain ⟨hc, hblanks⟩ := List.forall_mem_cons.1 h
      rw [wordsFrom_blank word hc, ih hblanks, wordsFrom_nil, wordsFrom_nil]
      simp
  | cons c rest ih =>
    rw [List.cons_append, wordsFrom, wordsFrom, ih, ih]

theorem words_trim (text : List Char) : words (trim text) = words text := by
  have hends : trim text ++ ((text.dropWhile isBlank).reverse.takeWhile isBlank).reverse =
      text.dropWhile isBlank := by
    rw [trim, trimBy, ← List.reverse_append, List.takeWhile_append_dropWhile, List.reverse_reverse]
  have hblanks : ∀ c ∈ ((text.dropWhile isBlank).reverse.takeWhile isBlank).reverse, isBlank c = true :=
    fun c hc => List.mem_takeWhile_imp (List.mem_reverse.1 hc)
  rw [← words_dropWhile text, ← hends, words, words, wordsFrom_append_blanks [] _ hblanks]

theorem words_intercalate {ws : List (List Char)} (h : ∀ w ∈ ws, IsWord w) :
    words ([' '].intercalate ws) = ws := by
  have hfirst (w rest : List Char) (hw : IsWord w) : words (w ++ ' ' :: rest) = w :: words rest := by
    obtain ⟨hne, hword⟩ := hw
    rw [words, wordsFrom_append [] hword, List.append_nil, wordsFrom_blank _ (by decide)]
    simp [hne, words]
  induction ws with
  | nil => rfl
  | cons w rest ih =>
    obtain ⟨hw, hrest⟩ := List.forall_mem_cons.1 h
    cases rest with
    | nil =>
      obtain ⟨hne, hword⟩ := hw
      have hlast := wordsFrom_append [] hword []
      rw [List.append_nil, List.append_nil] at hlast
      rw [List.intercalate_singleton, words, hlast, wordsFrom_nil]
      simp [hne]
    | cons w' rest =>
      rw [List.intercalate_cons_cons, List.append_assoc, List.singleton_append, hfirst w _ hw, ih hrest]

theorem toList_collapse (text : String) : (collapse text).toList = [' '].intercalate (words text.toList) := by
  rw [collapse, String.toList_ofList]

theorem intercalate_wordsFrom (word : List Char) {text : List Char}
    (h : ∀ c ∈ text.getLast?, isBlank c = false) :
    [' '].intercalate (wordsFrom word text) = word.reverse ++ squeeze word.isEmpty text := by
  induction text generalizing word with
  | nil => cases word <;> simp [wordsFrom, squeeze]
  | cons c rest ih =>
    cases hc : isBlank c with
    | false =>
      have hrest : ∀ d ∈ rest.getLast?, isBlank d = false := by
        intro d hd
        refine h d ?_
        rw [List.getLast?_cons, Option.mem_def.1 hd]
        rfl
      rw [wordsFrom, if_neg (by simp [hc]), ih _ hrest]
      simp [squeeze, hc]
    | true =>
      -- White space is followed by a further word, for the text does not end with it.
      cases rest with
      | nil => exact absurd (h c rfl) (by simp [hc])
      | cons d rest =>
        have hrest : ∀ x ∈ (d :: rest).getLast?, isBlank x = false := by simpa [List.getLast?_cons] using h
        have hnext := ih [] hrest
        rw [wordsFrom_blank word hc]
        cases word with
        | nil => simpa [squeeze, hc] using hnext
        | cons x word =>
          have hlast : (d :: rest).getLast (by simp) ∈ (d :: rest).getLast? :=
            List.getLast?_eq_some_getLast (by simp)
          have hne : wordsFrom [] (d :: rest) ≠ [] := fun hnil => by
            have hblank := (wordsFrom_eq_nil hnil).2 _ (List.getLast_mem (by simp))
            rw [hrest _ hlast] at hblank
            cases hblank
          obtain ⟨w, ws, hws⟩ := List.exists_cons_of_ne_nil hne
          rw [hws] at hnext ⊢
          simp only [List.isEmpty_cons, Bool.false_eq_true, if_false, List.singleton_append,
            List.intercalate_cons_cons, hnext]
          simp [squeeze, hc]

/-- Where no word is being read, white space at the start goes on like white space. -/
theorem squeeze_true_eq_false {text : List Char} (h : ∀ c ∈ text.head?, isBlank c = false) :
    squeeze true text = squeeze false text := by
  cases text with
  | nil => rfl
  | cons c rest => simp [squeeze, h c rfl]

/-- A collapsed text is the text without the white space around it, where each run of white space is one
space. -/
theorem toList_collapse_eq_squeeze (text : String) :
    (collapse text).toList = squeeze false (trim text.toList) := by
  obtain ⟨hhead, hlast⟩ := isTrimmed_trim text.toList
  rw [toList_collapse, ← words_trim, words, intercalate_wordsFrom [] hlast]
  exact squeeze_true_eq_false hhead

theorem eq_space_of_mem_squeeze {inRun : Bool} {text : List Char} :
    ∀ c ∈ squeeze inRun text, isBlank c = true → c = ' ' := by
  induction text generalizing inRun with
  | nil => simp [squeeze]
  | cons d rest ih =>
    intro c hc hblank
    rw [squeeze] at hc
    split_ifs at hc with hd hin
    · exact ih c hc hblank
    · obtain rfl | hc := List.mem_cons.1 hc
      · rfl
      · exact ih c hc hblank
    · obtain rfl | hc := List.mem_cons.1 hc
      · exact absurd hblank hd
      · exact ih c hc hblank

theorem eq_space_of_mem_collapse {text : String} {c : Char} (h : c ∈ (collapse text).toList)
    (hc : isBlank c = true) : c = ' ' := by
  rw [toList_collapse_eq_squeeze] at h
  exact eq_space_of_mem_squeeze c h hc

theorem not_mem_collapse {text : String} {c : Char} (hc : isBlank c = true) (hspace : c ≠ ' ') :
    c ∉ (collapse text).toList :=
  fun h => hspace (eq_space_of_mem_collapse h hc)

theorem mem_squeeze_iff {c : Char} (hc : isBlank c = false) {inRun : Bool} {text : List Char} :
    c ∈ squeeze inRun text ↔ c ∈ text := by
  have hne {d : Char} (hd : isBlank d = true) : c ≠ d := by
    rintro rfl
    rw [hc] at hd
    cases hd
  induction text generalizing inRun with
  | nil => rw [squeeze]
  | cons d rest ih =>
    rw [squeeze, List.mem_cons]
    split_ifs with hd hin
    · rw [or_iff_right (hne hd)]
      exact ih
    · rw [List.mem_cons, or_iff_right (hne hd), or_iff_right (hne (by decide))]
      exact ih
    · rw [List.mem_cons]
      exact or_congr_right ih

theorem mem_dropWhile_iff {c : Char} (hc : isBlank c = false) (text : List Char) :
    c ∈ text.dropWhile isBlank ↔ c ∈ text := by
  have hparts := List.takeWhile_append_dropWhile (p := isBlank) (l := text)
  refine ⟨fun h => hparts ▸ List.mem_append_right _ h, fun h => ?_⟩
  rw [← hparts] at h
  refine (List.mem_append.1 h).resolve_left fun htake => ?_
  have hblank := List.mem_takeWhile_imp htake
  rw [hc] at hblank
  cases hblank

theorem mem_collapse_iff {c : Char} (hc : isBlank c = false) (text : String) :
    c ∈ (collapse text).toList ↔ c ∈ text.toList := by
  rw [toList_collapse_eq_squeeze, mem_squeeze_iff hc, trim, trimBy, List.mem_reverse, mem_dropWhile_iff hc,
    List.mem_reverse, mem_dropWhile_iff hc]

theorem collapse_intercalate {ws : List (List Char)} (h : ∀ w ∈ ws, IsWord w) :
    collapse (String.ofList ([' '].intercalate ws)) = String.ofList ([' '].intercalate ws) := by
  rw [collapse, String.toList_ofList, words_intercalate h]

theorem flatMap_intercalate {escape : Char → List Char} (hspace : escape ' ' = [' '])
    (ws : List (List Char)) :
    ([' '].intercalate ws).flatMap escape = [' '].intercalate (ws.map (·.flatMap escape)) := by
  induction ws with
  | nil => rfl
  | cons w rest ih =>
    cases rest with
    | nil => simp
    | cons w' rest =>
      rw [List.map_cons, List.map_cons, List.intercalate_cons_cons, List.intercalate_cons_cons,
        List.flatMap_append, List.flatMap_append, ih, List.flatMap_singleton, hspace, List.map_cons]

theorem isWord_flatMap {escape : Char → List Char} (h : ∀ c, isBlank c = false → IsWord (escape c))
    {word : List Char} (hword : IsWord word) : IsWord (word.flatMap escape) := by
  obtain ⟨hne, hchars⟩ := hword
  obtain ⟨c, rest, rfl⟩ := List.exists_cons_of_ne_nil hne
  refine ⟨fun hnil => (h c (hchars c List.mem_cons_self)).1 ?_, fun d hd => ?_⟩
  · exact List.flatMap_eq_nil_iff.1 hnil c List.mem_cons_self
  · obtain ⟨e, he, hd⟩ := List.mem_flatMap.1 hd
    exact (h e (hchars e he)).2 d hd

/-- A text that has been collapsed and then escaped has collapsed, as long as escapes keep a space and write
any other character without white space. -/
theorem collapse_flatMap {escape : Char → List Char} (hspace : escape ' ' = [' '])
    (h : ∀ c, isBlank c = false → IsWord (escape c)) (text : String) :
    collapse (String.ofList ((collapse text).toList.flatMap escape)) =
      String.ofList ((collapse text).toList.flatMap escape) := by
  rw [toList_collapse, flatMap_intercalate hspace]
  refine collapse_intercalate fun w hw => ?_
  obtain ⟨word, hword, rfl⟩ := List.mem_map.1 hw
  exact isWord_flatMap h (isWord_of_mem_words _ word hword)

end CommandOntology.Text
