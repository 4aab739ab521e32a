import CommandOntology.Proofs.NumberForms
import CommandOntology.Proofs.UnplacedDocuments

set_option autoImplicit false

/-!
# Layout between tokens

Where one token has ended and the next one has not begun, white space and comments may be put in: a token is read
without looking beyond the white space or the sign of a comment behind it, so the text is cut into the same
tokens, and is the same document.
-/

namespace CommandOntology.Turtle

open CommandOntology.Text

def partingChars : List Char :=
  [' ', '\t', '\r', '\n', '#']

/-- A text that starts with white space or a comment, or is empty. -/
def Parts (text : List Char) : Prop :=
  ∀ c ∈ text.head?, c ∈ partingChars

section

variable {start rest more : List Char} {p : Char → Bool} {c : Char}

theorem Parts.head?_ne (h : Parts more) (hc : c ∉ partingChars) : more.head? ≠ some c :=
  fun hhead => hc (h c hhead)

theorem Parts.not_mem_head? (h : Parts more) (hp : ∀ c ∈ partingChars, p c = false) : ∀ c ∈ more.head?, p c = false :=
  fun c hc => hp c (h c hc)

theorem any_head?_eq_false {text : List Char} (h : ∀ c ∈ text.head?, p c = false) : text.head?.any p = false := by
  cases text with
  | nil => rfl
  | cons c text => exact h c rfl

theorem spanLength_cons (p : Char → Bool) (c : Char) (text : List Char) :
    spanLength p (c :: text) = if p c then spanLength p text + 1 else 0 := by
  rw [spanLength, List.takeWhile_cons]
  split_ifs <;> rfl

/-- A class reaches as far in front of another text if it does not reach into it. -/
theorem spanLength_cut (h : spanLength p (start ++ rest) ≤ start.length)
    (hmore : spanLength p (start ++ rest) = start.length → ∀ c ∈ more.head?, p c = false) :
    spanLength p (start ++ more) = spanLength p (start ++ rest) := by
  induction start with
  | nil => exact (spanLength_eq_zero (hmore (Nat.le_zero.1 h))).trans (Nat.le_zero.1 h).symm
  | cons c start ih =>
    rw [List.cons_append, spanLength_cons] at h hmore
    rw [List.cons_append, List.cons_append, spanLength_cons, spanLength_cons]
    split_ifs at h hmore ⊢
    · rw [ih (Nat.le_of_succ_le_succ h) fun heq => hmore (congrArg (· + 1) heq)]
    · rfl

theorem joinedLength_eq_zero {separator : Char} {text : List Char}
    (h : ∀ c ∈ text.head?, p c = false ∧ c ≠ separator) : joinedLength p separator text = 0 := by
  cases text with
  | nil => rfl
  | cons c text => simp [joinedLength, h c rfl]

theorem one_le_joinedLength {separator : Char} {text : List Char} (h : text.head?.any p = true) :
    1 ≤ joinedLength p separator text := by
  cases text with
  | nil => cases h
  | cons c text =>
    have hc : p c = true := h
    rw [joinedLength, if_pos (by rw [hc, Bool.true_or])]
    exact Nat.le_add_left 1 _

theorem joinedLength_cut {separator : Char} (hmore : ∀ c ∈ more.head?, p c = false ∧ c ≠ separator)
    (h : joinedLength p separator (start ++ rest) ≤ start.length) :
    joinedLength p separator (start ++ more) = joinedLength p separator (start ++ rest) := by
  induction start with
  | nil => exact (joinedLength_eq_zero hmore).trans (Nat.le_zero.1 h).symm
  | cons c start ih =>
    rw [List.cons_append, joinedLength] at h
    -- A separator at the end is not joined, for the run does not reach beyond it.
    have hnext : (p c || (c == separator && (start ++ more).head?.any p)) =
        (p c || (c == separator && (start ++ rest).head?.any p)) := by
      cases start with
      | cons d start => rfl
      | nil =>
        have hnone : more.head?.any p = false := any_head?_eq_false fun c hc => (hmore c hc).1
        rw [List.nil_append, List.nil_append, hnone, Bool.and_false, Bool.or_false]
        by_cases hrest : rest.head?.any p = true
        · have hone : 1 ≤ joinedLength p separator rest := one_le_joinedLength hrest
          rw [List.nil_append] at h
          split_ifs at h with hjoined
          · rw [List.length_singleton] at h
            omega
          · have hc : p c = false ∧ (c == separator) = false := by simpa [hrest] using hjoined
            simp [hc]
        · simp [hrest]
    rw [List.cons_append, List.cons_append, joinedLength, joinedLength, hnext]
    split_ifs at h ⊢
    · rw [ih (Nat.le_of_succ_le_succ h)]
    · rfl

variable {n : Nat}

theorem numberLength?_cut {kind : NumberKind} (hmore : Parts more)
    (h : numberLength? (start ++ rest) = some (kind, n)) (hn : n ≤ start.length) :
    numberLength? (start ++ more) = some (kind, n) := by
  obtain ⟨-, hnumeral, hlongest⟩ := numberLength?_eq_some_iff.1 h
  rw [List.take_append_of_le_length hn] at hnumeral
  refine numberLength?_eq_some_iff.2 ⟨?_, ?_, fun m kind' hm hm' => ?_⟩
  · rw [List.length_append]
    omega
  · rwa [List.take_append_of_le_length hn]
  · -- A number that reached into the layout would hold its first character.
    have hle : m ≤ start.length := by
      by_contra hlt
      obtain ⟨c, more, rfl⟩ := List.exists_cons_of_ne_nil (l := more) (by rintro rfl; simp at hm; omega)
      have hmem : c ∈ (start ++ c :: more).take m := by
        rw [List.take_append]
        obtain ⟨k, hk⟩ := Nat.exists_eq_add_of_lt (Nat.lt_of_not_le hlt)
        rw [show m - start.length = k + 1 by omega]
        simp
      have hall : ∀ c ∈ partingChars, ¬IsNumeralChar c := by
        simp only [IsNumeralChar]
        decide
      exact hall c (hmore c rfl) (hm'.isNumeralChar c hmem)
    rw [List.take_append_of_le_length hle] at hm'
    exact hlongest m kind' (by rw [List.length_append]; omega) (by rwa [List.take_append_of_le_length hle])

theorem localLength_cut (hmore : Parts more) (h : localLength (start ++ rest) ≤ start.length) :
    localLength (start ++ more) = localLength (start ++ rest) := by
  simp only [localLength_eq_joinedLength] at h ⊢
  have hall : ∀ c ∈ partingChars, isLocalChar c = false ∧ c ≠ '.' := by decide
  exact joinedLength_cut (fun c hc => hall c (hmore c hc)) h

theorem subtagLength_cut (hmore : Parts more) (h : subtagLength (start ++ rest) ≤ start.length) :
    subtagLength (start ++ more) = subtagLength (start ++ rest) := by
  simp only [subtagLength_eq_joinedLength] at h ⊢
  have hall : ∀ c ∈ partingChars, isAsciiAlphanumeric c = false ∧ c ≠ '-' := by decide
  exact joinedLength_cut (fun c hc => hall c (hmore c hc)) h

theorem tagLength?_cut (hmore : Parts more) (h : tagLength? (start ++ rest) = some n) (hn : n ≤ start.length) :
    tagLength? (start ++ more) = some n := by
  have hsubtags {tail : List Char}
      (h : (if (tail ++ rest).head? = some '-' then subtagLength (tail ++ rest) else 0) ≤ tail.length) :
      (if (tail ++ more).head? = some '-' then subtagLength (tail ++ more) else 0) =
        if (tail ++ rest).head? = some '-' then subtagLength (tail ++ rest) else 0 := by
    cases tail with
    | nil => exact (if_neg (hmore.head?_ne (by decide))).trans (Nat.le_zero.1 h).symm
    | cons c tail =>
      by_cases hc : c = '-'
      · have hhead (text : List Char) : (c :: tail ++ text).head? = some '-' := congrArg some hc
        rw [if_pos (hhead _)] at h
        rw [if_pos (hhead _), if_pos (hhead _), subtagLength_cut hmore h]
      · have hhead (text : List Char) : (c :: tail ++ text).head? ≠ some '-' := fun h => hc (Option.some.inj h)
        rw [if_neg (hhead _), if_neg (hhead _)]
  rw [tagLength?] at h
  split_ifs at h with hzero
  cases h
  have hspan : spanLength isAsciiLetter (start ++ more) = spanLength isAsciiLetter (start ++ rest) :=
    spanLength_cut (Nat.le_trans (Nat.le_add_right _ _) hn) fun _ => hmore.not_mem_head? (by decide)
  rw [tagLength?, hspan, if_neg hzero]
  generalize spanLength isAsciiLetter (start ++ rest) = k at hn
  have hk : k ≤ start.length := Nat.le_trans (Nat.le_add_right _ _) hn
  rw [List.drop_append_of_le_length hk] at hn ⊢
  dsimp only
  rw [List.drop_append_of_le_length hk, hsubtags]
  rw [List.length_drop]
  omega

theorem blankLabelLength?_cut (hmore : Parts more) (h : blankLabelLength? (start ++ rest) = some n)
    (hn : n ≤ start.length) : blankLabelLength? (start ++ more) = some n := by
  cases start with
  | nil =>
    cases rest with
    | nil => cases h
    | cons c rest =>
      rw [List.nil_append, blankLabelLength?] at h
      split_ifs at h
      cases h
      cases hn
  | cons c start =>
    rw [List.cons_append, blankLabelLength?] at h ⊢
    split_ifs at h ⊢
    have hnone : more.takeWhile isNameChar = [] :=
      List.length_eq_zero_iff.1 (spanLength_eq_zero (hmore.not_mem_head? (by decide)))
    rw [List.takeWhile_append] at h ⊢
    split_ifs at h ⊢
    · -- What is read of the rest are points, which the label drops.
      rw [List.reverse_append, List.dropWhile_append] at h
      rw [hnone, List.append_nil]
      split_ifs at h with hpoints
      · exact h
      · cases h
        have hpos := List.length_pos_of_ne_nil (mt List.isEmpty_iff.2 hpoints)
        simp only [List.length_append, List.length_reverse, List.length_cons] at hn
        omega
    · exact h

theorem labelLength?_cut (more : List Char) (h : labelLength? (c :: (start ++ rest)) = some n)
    (hn : n ≤ start.length) : labelLength? (c :: (start ++ more)) = some n := by
  have hlt : n < (c :: start).length := Nat.lt_succ_of_le hn
  rw [labelLength?_cons] at h ⊢
  by_cases hstart : isNameStart c = true
  · rw [if_pos hstart] at h ⊢
    split_ifs at h with hcolon
    cases h
    rw [← List.cons_append] at hlt hcolon ⊢
    have hspan : spanLength isNameChar (c :: start ++ more) = spanLength isNameChar (c :: start ++ rest) :=
      spanLength_cut hlt.le fun heq => absurd heq hlt.ne
    rw [List.head?_drop, List.getElem?_append_left hlt] at hcolon
    rw [hspan, List.head?_drop, List.getElem?_append_left hlt, if_pos hcolon]
    rfl
  · rw [if_neg hstart] at h ⊢
    exact h

theorem spanLength_append_le (hmore : ∀ c ∈ more.head?, p c = false) : spanLength p (start ++ more) ≤ start.length := by
  rw [spanLength, List.takeWhile_append]
  split_ifs
  · rw [List.length_append]
    exact (congrArg (start.length + ·) (spanLength_eq_zero hmore)).le
  · exact spanLength_le p start

theorem labelLength?_eq_none_cut (hmore : Parts more) (h : labelLength? (c :: (start ++ rest)) = none) :
    labelLength? (c :: (start ++ more)) = none := by
  by_contra hsome
  obtain ⟨n, hn⟩ := Option.ne_none_iff_exists'.1 hsome
  have hle : n ≤ start.length := by
    have hlabel := hn
    rw [labelLength?_cons] at hlabel
    split_ifs at hlabel with hstart hcolon
    · cases hlabel
      rw [← List.cons_append] at hcolon ⊢
      have hspan : spanLength isNameChar (c :: start ++ more) ≤ (c :: start).length :=
        spanLength_append_le (hmore.not_mem_head? (by decide))
      have hne : spanLength isNameChar (c :: start ++ more) ≠ (c :: start).length := by
        intro heq
        rw [heq, List.drop_left] at hcolon
        exact hmore.head?_ne (by decide) hcolon
      exact Nat.le_of_lt_succ (lt_of_le_of_ne hspan hne)
    · cases hlabel
      exact Nat.zero_le _
  rw [labelLength?_cut rest hn hle] at h
  cases h

/-- A token that is read in front of a text is read in front of layout. -/
def Cuts (start rest more : List Char) (scan : List Char → Except LexicalFault (Lexeme × Nat)) : Prop :=
  ∀ l n, scan (start ++ rest) = .ok (l, n) → n ≤ start.length → scan (start ++ more) = .ok (l, n)

theorem lexemeText_cut (more : List Char) (hn : n ≤ start.length) :
    lexemeText (start ++ more) n = lexemeText (start ++ rest) n := by
  rw [lexemeText_append_of_le hn, lexemeText_append_of_le hn]

theorem cuts_scanIri : Cuts start rest more scanIri := by
  intro l n h hn
  rw [scanIri] at h
  split_ifs at h with hclose
  cases h
  have hlt := Nat.lt_of_succ_le hn
  have hspan : spanLength (fun c => c != '>' && c != '\n') (start ++ more) = _ :=
    spanLength_cut hlt.le fun heq => absurd heq hlt.ne
  rw [List.head?_drop, List.getElem?_append_left hlt] at hclose
  rw [scanIri, hspan, List.head?_drop, List.getElem?_append_left hlt, if_pos hclose, lexemeText_cut more hlt.le]

theorem cuts_scanText (hmore : Parts more) (hquote : c = '"' ∨ c = '\'') : Cuts start rest more (scanText c) := by
  intro l n h hn
  obtain ⟨written, tail, chars, hrest, rfl, rfl, hquoted⟩ := exists_of_scanText h
  obtain ⟨behind, rfl⟩ : ∃ behind, start = written ++ behind := by
    have hprefix : written <+: start ++ rest := hrest ▸ List.prefix_append written tail
    obtain ⟨behind, h⟩ := List.prefix_of_prefix_length_le hprefix (List.prefix_append start rest) hn
    exact ⟨behind, h.symm⟩
  have hhead : more.head? ≠ some c := by
    obtain rfl | rfl := hquote <;> exact hmore.head?_ne (by decide)
  -- The quotes that open a long text are among the characters read.
  have hlong : [c, c].isPrefixOf (written ++ behind ++ more) = [c, c].isPrefixOf (written ++ behind ++ rest) := by
    rw [isPrefixOf_append_of_head c _ hhead, Bool.eq_iff_iff, List.isPrefixOf_iff_prefix, List.isPrefixOf_iff_prefix]
    refine ⟨fun h => h.trans (List.prefix_append _ _), fun h => ?_⟩
    obtain ⟨body, hwritten, -⟩ := hquoted
    rw [if_pos (List.isPrefixOf_iff_prefix.2 h)] at hwritten
    rw [hwritten]
    exact ⟨_, rfl⟩
  rw [List.append_assoc] at hlong ⊢
  exact scanText_of_isQuoted hquoted (Query.quote_cases hquote).2 hlong

theorem cuts_scanTag (hmore : Parts more) : Cuts start rest more scanTag := by
  intro l n h hn
  rw [scanTag] at h
  split at h
  · cases h
  · next m hm =>
    have hmn : m = n := by
      dsimp only at h
      split at h <;> cases h <;> rfl
    subst hmn
    rw [scanTag, tagLength?_cut hmore hm hn]
    dsimp only
    rwa [lexemeText_cut more hn]

theorem cuts_scanBlankNode (hmore : Parts more) : Cuts (':' :: start) rest more scanBlankNode := by
  intro l n h hn
  simp only [scanBlankNode, List.cons_append, List.drop_succ_cons, List.drop_zero] at h ⊢
  split at h
  · next m hm =>
    cases h
    have hle := Nat.le_of_succ_le_succ hn
    rw [blankLabelLength?_cut hmore hm hle]
    dsimp only
    rw [lexemeText_cut more hle]
  · cases h

theorem cuts_scanNumber (hmore : Parts more) : Cuts start rest more (scanNumber c) := by
  intro l n h hn
  rw [scanNumber] at h
  split at h
  · next kind m hm =>
    cases h
    have hle : m ≤ (c :: start).length := by
      rw [List.length_cons]
      omega
    rw [← List.cons_append] at hm
    have htext : lexemeText (c :: start ++ more) m = lexemeText (c :: start ++ rest) m := lexemeText_cut more hle
    rw [scanNumber, ← List.cons_append, numberLength?_cut hmore hm hle]
    dsimp only
    rw [htext]
    rfl
  · cases h

theorem cuts_scanName (hmore : Parts more) : Cuts start rest more (scanName c) := by
  intro l n h hn
  rw [scanName] at h
  split at h
  · next m hm =>
    cases h
    have hm' : m ≤ start.length := Nat.le_trans (Nat.le_add_right _ _) hn
    rw [scanName, labelLength?_cut more hm hm']
    dsimp only at hn ⊢
    rw [List.drop_append_of_le_length hm'] at hn ⊢
    have hle : localLength (start.drop m ++ rest) ≤ (start.drop m).length := by
      rw [List.length_drop]
      omega
    rw [localLength_cut hmore hle, List.drop_append_of_le_length hm', lexemeText_cut more hle,
      ← List.cons_append, ← List.cons_append, lexemeText_cut more (Nat.le_succ_of_le hm')]
  · next hnone =>
    split_ifs at h with hword
    cases h
    have hspan := spanLength_cut hn fun _ => hmore.not_mem_head? (p := isWordPart) (by decide)
    rw [scanName, labelLength?_eq_none_cut hmore hnone]
    dsimp only
    rw [if_pos hword, hspan, ← List.cons_append, ← List.cons_append, lexemeText_cut more (Nat.succ_le_succ hn)]

/-- What token is read does not depend on what comes behind layout. -/
theorem cuts_scan (hmore : Parts more) (c : Char) : Cuts start rest more (scan c) := by
  intro l n h hn
  rw [scan] at h ⊢
  -- In the order in which the scanner asks for the first character. Only a blank node is told by the
  -- second one, which layout does not change.
  by_cases hiri : c = '<'
  · rw [if_pos hiri] at h ⊢
    exact cuts_scanIri l n h hn
  rw [if_neg hiri] at h ⊢
  by_cases hquote : c = '"' ∨ c = '\''
  · rw [if_pos hquote] at h ⊢
    exact cuts_scanText hmore hquote l n h hn
  rw [if_neg hquote] at h ⊢
  by_cases htag : c = '@'
  · rw [if_pos htag] at h ⊢
    exact cuts_scanTag hmore l n h hn
  rw [if_neg htag] at h ⊢
  have hhead {d : Char} (hd : d ∉ partingChars) (h : (start ++ more).head? = some d) :
      (start ++ rest).head? = some d := by
    cases start with
    | nil => exact absurd h (hmore.head?_ne hd)
    | cons e start => exact h
  by_cases hblank : c = '_' ∧ (start ++ rest).head? = some ':'
  · obtain ⟨rfl, hcolon⟩ := hblank
    rw [if_pos ⟨rfl, hcolon⟩] at h
    cases start with
    | nil =>
      rw [scanBlankNode] at h
      split at h <;> cases h
      cases hn
    | cons d start =>
      cases hcolon
      exact (if_pos ⟨rfl, rfl⟩).trans (cuts_scanBlankNode hmore l n h hn)
  rw [if_neg hblank] at h
  rw [if_neg fun hblank' => hblank (hblank'.imp_right (hhead (by decide)))]
  by_cases htype : c = '^'
  · rw [if_pos htype] at h ⊢
    split_ifs at h with hnext
    cases h
    cases start with
    | nil => cases hn
    | cons d start => exact if_pos hnext
  rw [if_neg htype] at h ⊢
  cases hmark : Mark.ofChar? c with
  | some m =>
    rw [hmark] at h
    exact h
  | none =>
    rw [hmark] at h
    dsimp only at h ⊢
    split_ifs at h ⊢
    · exact cuts_scanNumber hmore l n h hn
    · exact cuts_scanName hmore l n h hn

end

inductive IsSpacing : List Char → Prop
  | nil : IsSpacing []
  | blank {c : Char} {rest : List Char} : isSpace c = true → IsSpacing rest → IsSpacing (c :: rest)
  | comment {words rest : List Char} : '\n' ∉ words → IsSpacing rest → IsSpacing ('#' :: (words ++ '\n' :: rest))

/-- A place of a text that is read behind whole tokens, white space and whole comments, given what stands before
it and behind it. -/
inductive IsBoundary : List Char → List Char → Prop
  | start {rest : List Char} : IsBoundary [] rest
  | blank {c : Char} {before rest : List Char} (hc : isLayout c = true) (h : IsBoundary before rest) :
    IsBoundary (c :: before) rest
  | comment {words before rest : List Char} (hwords : '\n' ∉ words) (h : IsBoundary before rest) :
    IsBoundary ('#' :: (words ++ '\n' :: before)) rest
  | token {c : Char} {word before rest : List Char} {l : Lexeme} (hc : startsToken c = true)
    (hscan : scan c (word ++ before ++ rest) = .ok (l, word.length)) (h : IsBoundary before rest) :
    IsBoundary (c :: (word ++ before)) rest

variable {gap before rest : List Char}

theorem mem_partingChars_of_isSpace {c : Char} (h : isSpace c = true) : c ∈ partingChars := by
  simp only [isSpace, Bool.or_eq_true, beq_iff_eq] at h
  rcases h with ((rfl | rfl) | rfl) | rfl <;> decide

theorem IsSpacing.parts (h : IsSpacing gap) (hne : gap ≠ []) (rest : List Char) : Parts (gap ++ rest) := by
  cases h with
  | nil => exact absurd rfl hne
  | blank hc =>
    rintro _ ⟨⟩
    exact mem_partingChars_of_isSpace hc
  | comment =>
    rintro _ ⟨⟩
    decide

theorem lexemesFrom_comment {words : List Char} (hwords : '\n' ∉ words) (rest : List Char) :
    lexemesFrom .comment (words ++ '\n' :: rest) = lexemes? rest := by
  induction words with
  | nil => rfl
  | cons c words ih =>
    obtain ⟨hc, hrest⟩ := not_or.1 (List.mem_cons.not.1 hwords)
    rw [List.cons_append, lexemesFrom, if_neg (Ne.symm hc)]
    exact ih hrest

theorem lexemes?_comment {words : List Char} (hwords : '\n' ∉ words) (rest : List Char) :
    lexemes? ('#' :: (words ++ '\n' :: rest)) = lexemes? rest := by
  rw [lexemes?_cons, if_neg (by decide), if_pos rfl, lexemesFrom_comment hwords]

theorem IsSpacing.lexemes?_append (h : IsSpacing gap) (rest : List Char) : lexemes? (gap ++ rest) = lexemes? rest := by
  induction h with
  | nil => rfl
  | blank hc _ ih => exact (lexemes?_layout _ _ (isLayout_of_isSpace hc)).trans ih
  | comment hwords _ ih =>
    rw [List.cons_append, List.append_assoc]
    exact (lexemes?_comment hwords _).trans ih

/-- Layout between two tokens does not change the lexemes of a text. -/
theorem IsBoundary.lexemes?_inserted (h : IsBoundary before rest) (hgap : IsSpacing gap) :
    lexemes? (before ++ gap ++ rest) = lexemes? (before ++ rest) := by
  induction h with
  | start => exact hgap.lexemes?_append _
  | blank hc _ ih => exact (lexemes?_layout _ _ hc).trans (ih.trans (lexemes?_layout _ _ hc).symm)
  | @comment words before rest hwords _ ih =>
    have hsplit (more : List Char) :
        '#' :: (words ++ '\n' :: before) ++ more = '#' :: (words ++ '\n' :: (before ++ more)) := by
      simp
    rw [List.append_assoc, hsplit, hsplit, lexemes?_comment hwords, lexemes?_comment hwords, ← List.append_assoc, ih]
  | @token c word before rest l hc hscan _ ih =>
    by_cases hne : gap = []
    · rw [hne, List.append_nil]
    have hcut : scan c (word ++ (before ++ gap ++ rest)) = .ok (l, word.length) := by
      have hcut := cuts_scan (hgap.parts hne rest) c l word.length hscan (by simp)
      simpa using hcut
    have hsplit (more : List Char) : c :: (word ++ before) ++ more = c :: (word ++ (before ++ more)) := by simp
    rw [List.append_assoc] at hscan
    rw [List.append_assoc, hsplit, ← List.append_assoc before, lexemes?_token c word _ l hc hcut, ih, hsplit,
      lexemes?_token c word _ l hc hscan]

theorem IsBoundary.append {a b : List Char} (ha : IsBoundary a (b ++ rest)) (hb : IsBoundary b rest) :
    IsBoundary (a ++ b) rest := by
  generalize hbehind : b ++ rest = behind at ha
  induction ha with
  | start => exact hb
  | blank hc _ ih => exact .blank hc (ih hbehind)
  | comment hwords _ ih =>
    rw [List.cons_append, List.append_assoc]
    exact .comment hwords (ih hbehind)
  | token hc hscan _ ih =>
    subst hbehind
    rw [List.cons_append, List.append_assoc]
    exact .token hc (by simpa only [List.append_assoc] using hscan) (ih rfl)

/-- A token that is what is read at its place, between two places that layout can be put in at. -/
def Token.StandsBetween (text : List Char) (t : Token) : Prop :=
  ∃ before c word rest, text = before ++ c :: (word ++ rest) ∧ t.position = placeAfter before ∧
    scan c (word ++ rest) = .ok (t.lexeme, word.length) ∧
    IsBoundary before (c :: (word ++ rest)) ∧ IsBoundary (before ++ c :: word) rest

theorem standsBetween_of_lexFrom {r : Tokens} (hplace : IsBoundary before rest)
    (h : lexFrom .between (placeAfter before) rest = .ok r) : ∀ t ∈ r.tokens, t.StandsBetween (before ++ rest) := by
  induction hn : rest.length using Nat.strong_induction_on generalizing before rest r with
  | h n ih =>
    subst hn
    -- Reading goes on behind what comes first in the rest.
    have hbehind {first more : List Char} {r : Tokens} (hsplit : rest = first ++ more) (hne : first ≠ [])
        (hfirst : IsBoundary first more) (hmore : lexFrom .between (placeAfter (before ++ first)) more = .ok r) :
        IsBoundary (before ++ first) more ∧ ∀ t ∈ r.tokens, t.StandsBetween (before ++ rest) := by
      subst hsplit
      have hstop := hplace.append hfirst
      have hless : more.length < (first ++ more).length := by
        have hpos := List.length_pos_of_ne_nil hne
        rw [List.length_append]
        omega
      have hrest := ih _ hless hstop hmore rfl
      rw [List.append_assoc] at hrest
      exact ⟨hstop, hrest⟩
    cases rest with
    | nil =>
      cases h
      simp
    | cons c rest =>
      rw [lexFrom_between_cons, ← placeAfter_concat] at h
      split_ifs at h with hlayout hcomment
      · have hsplit : c :: rest = [c] ++ rest := rfl
        exact (hbehind hsplit (by simp) (.blank hlayout .start) h).2
      · subst hcomment
        by_cases hline : '\n' ∈ rest
        · obtain ⟨words, more, rfl, hwords⟩ := List.eq_append_cons_of_mem hline
          have hsplit : '#' :: (words ++ '\n' :: more) = '#' :: (words ++ ['\n']) ++ more := by simp
          refine (hbehind hsplit (by simp) (.comment hwords .start) ?_).2
          rw [lexFrom_comment _ hwords, ← placeAfter_append] at h
          rw [List.append_cons, ← List.append_assoc, placeAfter_concat]
          exact h
        · rw [← List.append_nil rest, lexFrom_comment _ hline] at h
          cases h
          simp
      · cases hscan : scan c rest with
        | error fault =>
          rw [hscan] at h
          cases h
        | ok found =>
          obtain ⟨l, n⟩ := found
          have hle := scan_length_le hscan
          obtain ⟨word, more, rfl, rfl⟩ : ∃ word more, rest = word ++ more ∧ n = word.length :=
            ⟨rest.take n, rest.drop n, (List.take_append_drop n rest).symm, by simp [hle]⟩
          rw [hscan] at h
          obtain ⟨tail, htail, rfl⟩ := (map_eq_ok_iff _ _ _).1 h
          have hc : startsToken c = true := by simp [startsToken, hlayout, hcomment]
          have hword : IsBoundary (c :: word) more := by
            have htoken : IsBoundary (c :: (word ++ [])) more := .token hc (by rwa [List.append_nil]) .start
            rwa [List.append_nil] at htoken
          have hread : lexFrom .between (placeAfter (before ++ c :: word)) more = .ok tail := by
            rw [lexFrom_inside, ← placeAfter_append] at htail
            rwa [List.append_cons]
          have hsplit : c :: (word ++ more) = c :: word ++ more := rfl
          obtain ⟨hstop, hrest⟩ := hbehind hsplit (by simp) hword hread
          refine List.forall_mem_cons.2 ⟨⟨before, c, word, more, rfl, rfl, hscan, hplace, hstop⟩, hrest⟩

/-- Texts with the same lexemes, which are read as the same document, or for the same error. The size of the text and
the places of errors may differ. -/
def AreReadAlike (text other : String) : Prop :=
  (∃ r r', lex text.toList = .ok r ∧ lex other.toList = .ok r' ∧
      r'.tokens.map (·.lexeme) = r.tokens.map (·.lexeme)) ∧
    ∀ options, unplacedResult Document.unsized (parse options other) =
      unplacedResult Document.unsized (parse options text)

theorem IsBoundary.areReadAlike {text other : String} {r : Tokens} (hplace : IsBoundary before rest)
    (hgap : IsSpacing gap) (htext : text.toList = before ++ rest) (hother : other.toList = before ++ gap ++ rest)
    (h : lex text.toList = .ok r) : AreReadAlike text other := by
  have hlexemes := hplace.lexemes?_inserted hgap
  rw [← htext, ← hother, (lexemes?_eq_some_iff text.toList _).2 ⟨r, h, rfl⟩, lexemes?_eq_some_iff] at hlexemes
  obtain ⟨r', hr', hsame⟩ := hlexemes
  refine ⟨⟨r, r', h, hr', hsame⟩, fun options => ?_⟩
  unfold parse
  split_ifs
  · rfl
  · rw [h, hr']
    exact parseTokens_unplaced_eq hsame options _ _

/-- Every token of a text that can be cut into tokens is what is read at its place, and layout can be put in in front
of it and behind it. -/
theorem areReadAlike_of_lex {text : String} {r : Tokens} (h : lex text.toList = .ok r) :
    ∀ t ∈ r.tokens, ∃ before c word rest, text.toList = before ++ c :: (word ++ rest) ∧
      t.position = placeAfter before ∧ scan c (word ++ rest) = .ok (t.lexeme, word.length) ∧
      ∀ gap, IsSpacing gap →
        AreReadAlike text (String.ofList (before ++ gap ++ c :: (word ++ rest))) ∧
        AreReadAlike text (String.ofList (before ++ c :: word ++ gap ++ rest)) := by
  have hread : lexFrom .between (placeAfter []) text.toList = .ok r := h
  intro t ht
  obtain ⟨before, c, word, rest, htext, hposition, hscan, hfront, hbehind⟩ :=
    standsBetween_of_lexFrom .start hread t ht
  rw [List.nil_append] at htext
  refine ⟨before, c, word, rest, htext, hposition, hscan, fun gap hgap =>
    ⟨hfront.areReadAlike hgap htext String.toList_ofList h,
      hbehind.areReadAlike hgap ?_ String.toList_ofList h⟩⟩
  rw [htext, List.append_assoc, List.cons_append]

/-- Layout that is put in between two tokens changes neither the tokens, apart from their places, nor what the
text is read as, apart from the size of the text and the places of errors. -/
theorem parse_insertedLayout (before gap rest : String) {r : Tokens}
    (hplace : IsBoundary before.toList rest.toList) (hgap : IsSpacing gap.toList)
    (h : lex (before ++ rest).toList = .ok r) :
    (∃ r', lex (before ++ gap ++ rest).toList = .ok r' ∧
      r'.tokens.map (·.lexeme) = r.tokens.map (·.lexeme)) ∧
    ∀ options, unplacedResult Document.unsized (parse options (before ++ gap ++ rest)) =
      unplacedResult Document.unsized (parse options (before ++ rest)) := by
  have hinserted : (before ++ gap ++ rest).toList = before.toList ++ gap.toList ++ rest.toList := by
    rw [String.toList_append, String.toList_append]
  obtain ⟨⟨r₀, r', hr₀, hr', hsame⟩, hparse⟩ := hplace.areReadAlike hgap String.toList_append hinserted h
  obtain rfl := Except.ok.inj (h.symm.trans hr₀)
  exact ⟨⟨r', hr', hsame⟩, hparse⟩

theorem parse_insertedLayout_comment :
    let before := "<a:s> <a:p> 5"
    let r : Tokens := ⟨[⟨.iri "a:s", 1, 1⟩, ⟨.iri "a:p", 1, 7⟩, ⟨.number .integer "5", 1, 13⟩, ⟨.mark .dot, 1, 14⟩], 1, 15⟩
    IsBoundary before.toList ".".toList ∧ IsSpacing "# five\n\t".toList ∧ lex (before ++ ".").toList = .ok r ∧
    (∃ r', lex (before ++ "# five\n\t" ++ ".").toList = .ok r' ∧
      r'.tokens.map (·.lexeme) = r.tokens.map (·.lexeme)) ∧
    ∀ options, unplacedResult Document.unsized (parse options (before ++ "# five\n\t" ++ ".")) =
      unplacedResult Document.unsized (parse options (before ++ ".")) := by
  intro before r
  have hnumber : IsBoundary ('5' :: ([] ++ [])) ".".toList := .token rfl rfl .start
  have hpredicate : IsBoundary ('<' :: ("a:p>".toList ++ [' ', '5'])) ".".toList :=
    .token rfl rfl (.blank rfl hnumber)
  have hplace : IsBoundary before.toList ".".toList := by
    have hbefore : before.toList = '<' :: ("a:s>".toList ++ ' ' :: '<' :: ("a:p>".toList ++ [' ', '5'])) := by decide
    rw [hbefore]
    exact .token rfl rfl (.blank rfl hpredicate)
  have hgap : IsSpacing "# five\n\t".toList := by
    have hcomment : "# five\n\t".toList = '#' :: (" five".toList ++ '\n' :: ['\t']) := by decide
    rw [hcomment]
    exact .comment (by decide) (.blank rfl .nil)
  have hlex : lex (before ++ ".").toList = .ok r := by decide
  exact ⟨hplace, hgap, hlex, parse_insertedLayout before _ "." hplace hgap hlex⟩

end CommandOntology.Turtle
