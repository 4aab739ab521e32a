import CommandOntology.Proofs.TokenReading
import CommandOntology.Rdf.Lines
import CommandOntology.Turtle.Writer

set_option autoImplicit false

namespace CommandOntology.Turtle

open CommandOntology.Text

theorem isPrefixOf_cons_of_ne (a b : Char) (as bs : List Char) (h : b ≠ a) :
    (a :: as).isPrefixOf (b :: bs) = false := by
  simp [List.isPrefixOf, Ne.symm h]

theorem endsText_of_ne (isLong : Bool) (c : Char) (rest : List Char) (h : c ≠ '"') :
    endsText '"' isLong (c :: rest) = false := by
  cases isLong <;> exact isPrefixOf_cons_of_ne _ _ _ _ h

theorem readText_closing (isLong : Bool) (offset : Nat) (rest : List Char) :
    readText '"' isLong 0 offset ((if isLong then ['"', '"', '"'] else ['"']) ++ rest) =
      .ok ([], offset + if isLong then 3 else 1) := by
  cases isLong <;> simp [readText, endsText]

theorem readText_plain (isLong : Bool) (offset : Nat) (c : Char) (rest : List Char)
    (he : endsText '"' isLong (c :: rest) = false) (hline : c = '\n' → isLong = true)
    (hc : c ≠ '\\') : readText '"' isLong 0 offset (c :: rest) =
      (readText '"' isLong 0 (offset + 1) rest).map fun r => (c :: r.1, r.2) := by
  have hbreak : ¬(c = '\n' ∧ (!isLong) = true) := by
    rintro ⟨h, hl⟩
    simp [hline h] at hl
  rw [readText, he, if_neg (by simp), if_neg hbreak, if_neg hc]

theorem readText_escape (isLong : Bool) (offset : Nat) (code c : Char) (rest : List Char)
    (h : escapedChar? code = some c) : readText '"' isLong 0 offset ('\\' :: code :: rest) =
      (readText '"' isLong 0 (offset + 2) rest).map fun r => (c :: r.1, r.2) := by
  have he : endsText '"' isLong ('\\' :: code :: rest) = false :=
    endsText_of_ne isLong _ _ (by decide)
  have hread : readEscape offset (code :: rest) = .ok (c, 1) := by
    rw [readEscape, Text.readEscape, h]
  rw [readText, he, if_neg (by simp), if_neg (by simp), if_pos rfl, hread]
  rfl

def IsEscaping (escape : Char → List Char) (text : List Char) : Prop :=
  ∀ c ∈ text, (escape c = [c] ∧ c ≠ '\\' ∧ c ≠ '"' ∧ c ≠ '\n') ∨
    ∃ code, escape c = ['\\', code] ∧ escapedChar? code = some c

theorem readText_escaping (escape : Char → List Char) (text rest : List Char) (offset : Nat)
    (h : IsEscaping escape text) :
    readText '"' false 0 offset (text.flatMap escape ++ '"' :: rest) =
      .ok (text, offset + (text.flatMap escape).length + 1) := by
  induction text generalizing offset with
  | nil => exact readText_closing false offset rest
  | cons c text ih =>
    have hrest := fun offset => ih offset fun d hd => h d (List.mem_cons_of_mem c hd)
    obtain ⟨he, hslash, hquote, hline⟩ | ⟨code, he, hcode⟩ := h c List.mem_cons_self
    · rw [List.flatMap_cons, he, List.append_assoc, List.singleton_append,
        readText_plain false offset c _ (endsText_of_ne false c _ hquote) (fun h => absurd h hline)
          hslash, hrest]
      simp only [Except.map, List.length_append, List.length_singleton]
      congr 2
      omega
    · rw [List.flatMap_cons, he, List.append_assoc, List.cons_append, List.singleton_append,
        readText_escape false offset code c _ hcode, hrest]
      simp only [Except.map, List.length_append, List.length_cons, List.length_nil]
      congr 2
      omega

/-- A text on one line is not taken for one between three quotes if no quote follows it. -/
theorem isPrefixOf_escaping {escape : Char → List Char} {text rest : List Char}
    (h : IsEscaping escape text) (hr : rest.head? ≠ some '"') :
    ['"', '"'].isPrefixOf (text.flatMap escape ++ '"' :: rest) = false := by
  cases text with
  | nil =>
    cases rest with
    | nil => rfl
    | cons d rest =>
      have hd : d ≠ '"' := by simpa using hr
      simp [List.isPrefixOf, Ne.symm hd]
  | cons c text =>
    obtain ⟨he, -, hquote, -⟩ | ⟨code, he, -⟩ := h c List.mem_cons_self
    · rw [List.flatMap_cons, he]
      exact isPrefixOf_cons_of_ne _ _ _ _ hquote
    · rw [List.flatMap_cons, he]
      exact isPrefixOf_cons_of_ne _ _ _ _ (by decide)

theorem lexemes?_shortText (escape : Char → List Char) (text rest : List Char)
    (h : IsEscaping escape text) (hr : rest.head? ≠ some '"') :
    lexemes? ('"' :: (text.flatMap escape ++ '"' :: rest)) =
      (lexemes? rest).map (.text (String.ofList text) :: ·) := by
  have hshort := isPrefixOf_escaping h hr
  have hscan : scan '"' ((text.flatMap escape ++ ['"']) ++ rest) =
      .ok (.text (String.ofList text), (text.flatMap escape ++ ['"']).length) := by
    rw [List.append_assoc, List.singleton_append]
    change scanText '"' _ = _
    rw [scanText, hshort]
    have hread := readText_escaping escape text rest 1 h
    simp only [Bool.false_eq_true, if_false, Nat.sub_self, List.drop_zero, hread, Except.map,
      List.length_append, List.length_singleton]
    congr 2
    omega
  have htoken := lexemes?_token '"' _ rest _ (by decide) hscan
  rwa [List.append_assoc, List.singleton_append] at htoken

def longChar (c : Char) : List Char :=
  if c = '\\' then ['\\', '\\'] else if c = '\r' then ['\\', 'r'] else [c]

/-- A text that spans lines as it stands between its quotes: three quotes in a row are escaped, and so is
a quote at the end. -/
def longBody : List Char → List Char
  | '"' :: '"' :: '"' :: rest => ['\\', '"', '\\', '"', '\\', '"'] ++ longBody rest
  | ['"'] => ['\\', '"']
  | c :: rest => longChar c ++ longBody rest
  | [] => []

theorem longBody_cons (c : Char) (rest : List Char)
    (h : c = '"' → rest ≠ [] ∧ ¬['"', '"'].isPrefixOf rest = true) :
    longBody (c :: rest) = longChar c ++ longBody rest := by
  rw [longBody]
  · rintro rest' rfl rfl
    exact (h rfl).2 (by simp [List.isPrefixOf])
  · rintro rfl rfl
    exact (h rfl).1 rfl

/-- How a character is written between three quotes: as it is, or escaped. -/
theorem longChar_eq (c : Char) : (longChar c = [c] ∧ c ≠ '\\') ∨
    ∃ code, longChar c = ['\\', code] ∧ escapedChar? code = some c := by
  unfold longChar
  split_ifs with hslash hreturn
  · exact .inr ⟨'\\', rfl, by rw [hslash]; rfl⟩
  · exact .inr ⟨'r', rfl, by rw [hreturn]; rfl⟩
  · exact .inl ⟨rfl, hslash⟩

theorem head_longBody (c : Char) (rest : List Char) (h : c ≠ '"') :
    ∃ d tail, longBody (c :: rest) = d :: tail ∧ d ≠ '"' := by
  rw [longBody_cons c rest fun hc => absurd hc h]
  obtain ⟨he, -⟩ | ⟨code, he, -⟩ := longChar_eq c
  · exact ⟨c, longBody rest, by rw [he]; rfl, h⟩
  · exact ⟨'\\', code :: longBody rest, by rw [he]; rfl, by decide⟩

/-- A text that does not start with two quotes is not written with two quotes at its start. -/
theorem isPrefixOf_longBody (text rest : List Char) (hne : text ≠ [])
    (h : ¬['"', '"'].isPrefixOf text = true) :
    ['"', '"'].isPrefixOf (longBody text ++ rest) = false := by
  obtain ⟨c, tail, rfl⟩ := List.exists_cons_of_ne_nil hne
  by_cases hc : c = '"'
  · subst hc
    cases tail with
    | nil => exact isPrefixOf_cons_of_ne _ _ _ _ (by decide)
    | cons d tail =>
      have hd : d ≠ '"' := fun hd => h (by simp [List.isPrefixOf, hd])
      obtain ⟨e, rest', he, hquote⟩ := head_longBody d tail hd
      rw [longBody_cons '"' (d :: tail) fun _ => ⟨by simp, by simp [List.isPrefixOf, Ne.symm hd]⟩, he]
      simp [longChar, List.isPrefixOf, Ne.symm hquote]
  · obtain ⟨e, rest', he, hquote⟩ := head_longBody c tail hc
    rw [he]
    exact isPrefixOf_cons_of_ne _ _ _ _ hquote

/-- A text that spans lines is read up to the quotes that close it. -/
theorem readText_longBody (text rest : List Char) (offset : Nat) :
    readText '"' true 0 offset (longBody text ++ (['"', '"', '"'] ++ rest)) =
      .ok (text, offset + (longBody text).length + 3) := by
  have hquote : escapedChar? '"' = some '"' := rfl
  -- By the cases of the writer: three quotes, a quote at the end, any other character, the end.
  induction text using longBody.induct generalizing offset with
  | case1 text ih =>
    simp only [longBody, List.cons_append, List.nil_append] at ih ⊢
    rw [readText_escape _ _ _ _ _ hquote, readText_escape _ _ _ _ _ hquote,
      readText_escape _ _ _ _ _ hquote, ih]
    simp only [Except.map, List.length_cons]
    congr 2
    omega
  | case2 =>
    have hclose := readText_closing true (offset + 2) rest
    simp only [if_true] at hclose
    simp only [longBody, List.cons_append, List.nil_append] at hclose ⊢
    rw [readText_escape _ _ _ _ _ hquote, hclose]
    rfl
  | case3 c text hthree hone ih =>
    have hbody : longBody (c :: text) = longChar c ++ longBody text := by
      rw [longBody]
      · exact hthree
      · exact hone
    rw [hbody, List.append_assoc]
    obtain ⟨he, hslash⟩ | ⟨code, he, hcode⟩ := longChar_eq c
    · have hends : endsText '"' true (c :: (longBody text ++ (['"', '"', '"'] ++ rest))) = false := by
        by_cases hc : c = '"'
        · subst hc
          have hne : text ≠ [] := fun hnil => hone rfl hnil
          have hpair : ¬['"', '"'].isPrefixOf text = true := by
            intro hp
            obtain ⟨tail, rfl⟩ := List.isPrefixOf_iff_prefix.1 hp
            exact hthree tail rfl rfl
          have htail := isPrefixOf_longBody text (['"', '"', '"'] ++ rest) hne hpair
          simpa [endsText, List.isPrefixOf] using htail
        · exact endsText_of_ne true c _ hc
      rw [he, List.singleton_append, readText_plain true offset c _ hends (fun _ => rfl) hslash, ih]
      simp only [Except.map, List.length_cons, List.singleton_append]
      congr 2
      omega
    · rw [he, List.cons_append, List.singleton_append, readText_escape true offset code c _ hcode, ih]
      simp only [Except.map, List.length_cons, List.cons_append, List.nil_append]
      congr 2
      omega
  | case4 => exact readText_closing true offset rest

/-- A text between three quotes is read, and what follows is read after it. -/
theorem lexemes?_longText (text rest : List Char) :
    lexemes? (['"', '"', '"'] ++ longBody text ++ (['"', '"', '"'] ++ rest)) =
      (lexemes? rest).map (.text (String.ofList text) :: ·) := by
  have hscan : scan '"' ((['"', '"'] ++ longBody text ++ ['"', '"', '"']) ++ rest) =
      .ok (.text (String.ofList text), (['"', '"'] ++ longBody text ++ ['"', '"', '"']).length) := by
    change scanText '"' _ = _
    have hlong : ['"', '"'].isPrefixOf ((['"', '"'] ++ longBody text ++ ['"', '"', '"']) ++ rest) =
        true := rfl
    have hdrop : ((['"', '"'] ++ longBody text ++ ['"', '"', '"']) ++ rest).drop 2 =
        longBody text ++ (['"', '"', '"'] ++ rest) := by simp
    have hread := readText_longBody text rest 3
    rw [scanText, hlong, if_pos rfl]
    simp only [Nat.add_one_sub_one, hdrop, hread, Except.map, List.length_append]
    congr 2
    simp
    omega
  have htoken := lexemes?_token '"' _ rest _ (by decide) hscan
  simpa using htoken

def shortChar (c : Char) : List Char :=
  if c = '\\' then ['\\', '\\'] else if c = '"' then ['\\', '"'] else if c = '\r' then ['\\', 'r']
  else [c]

theorem isEscaping_shortChar (text : List Char) (h : '\n' ∉ text) : IsEscaping shortChar text := by
  intro c hc
  have hline : c ≠ '\n' := fun he => h (he ▸ hc)
  unfold shortChar
  split_ifs with hslash hquote hreturn
  · exact .inr ⟨'\\', rfl, by rw [hslash]; rfl⟩
  · exact .inr ⟨'"', rfl, by rw [hquote]; rfl⟩
  · exact .inr ⟨'r', rfl, by rw [hreturn]; rfl⟩
  · exact .inl ⟨rfl, hslash, hquote, hline⟩

theorem quotedText_short (text : String) (h : '\n' ∉ text.toList) :
    quotedText text = '"' :: (text.toList.flatMap shortChar ++ ['"']) := by
  have hchar : shortChar = fun c => replaceChar '\r' ['\\', 'r']
      (replaceChar '"' ['\\', '"'] (replaceChar '\\' ['\\', '\\'] [c])) := by
    funext c
    unfold shortChar
    split_ifs with hslash hquote hreturn <;> simp_all [replaceChar]
  have hall : replaceChar '\r' ['\\', 'r'] (replaceChar '"' ['\\', '"']
      (replaceChar '\\' ['\\', '\\'] text.toList)) = text.toList.flatMap shortChar := by
    rw [hchar]
    simp [replaceChar, List.flatMap_assoc]
  rw [quotedText, if_neg (by simpa using h)]
  dsimp only
  rw [hall]
  rfl

def slashChar (c : Char) : List Char :=
  if c = '\\' then ['\\', '\\'] else [c]

def tripleEscaped : List Char → List Char
  | '"' :: '"' :: '"' :: rest => ['\\', '"', '\\', '"', '\\', '"'] ++ tripleEscaped rest
  | c :: rest => slashChar c ++ tripleEscaped rest
  | [] => []

def closeQuote (text : List Char) : List Char :=
  match text.reverse with
  | '"' :: c :: rest => if c ≠ '\\' then ('"' :: '\\' :: c :: rest).reverse else text
  | _ => text

def IsClosed (text : List Char) : Prop :=
  text.getLast? ≠ some '"' ∨ ['\\', '"'] <:+ text

theorem isPrefixOf_slashChar (n : Nat) (text : List Char) :
    (List.replicate n '"').isPrefixOf (text.flatMap slashChar) =
      (List.replicate n '"').isPrefixOf text := by
  induction n generalizing text with
  | zero => simp
  | succ n ih =>
    cases text with
    | nil => rfl
    | cons c text =>
      rw [List.flatMap_cons, slashChar]
      split_ifs with hslash
      · rw [hslash, List.replicate_succ]
        rfl
      · rw [List.singleton_append, List.replicate_succ, List.isPrefixOf_cons_cons, ih,
          List.isPrefixOf_cons_cons]

theorem tripleEscaped_cons {c : Char} {rest : List Char}
    (h : ∀ tail, c = '"' → rest = '"' :: '"' :: tail → False) :
    tripleEscaped (c :: rest) = slashChar c ++ tripleEscaped rest := by
  rw [tripleEscaped]
  exact h

theorem replaceText_slashChar (text : List Char) :
    replaceText "\"\"\"" "\\\"\\\"\\\"" (text.flatMap slashChar) = tripleEscaped text := by
  have hstep (c : Char) (rest : List Char) (h : ['"', '"', '"'].isPrefixOf (c :: rest) = false) :
      replaceText "\"\"\"" "\\\"\\\"\\\"" (c :: rest) =
        c :: replaceText "\"\"\"" "\\\"\\\"\\\"" rest := by
    change replaceFrom ['"', '"', '"'] _ 0 _ = _
    rw [replaceFrom, h]
    rfl
  induction text using tripleEscaped.induct with
  | case1 rest ih =>
    rw [tripleEscaped, ← ih]
    rfl
  | case2 c rest h ih =>
    have hthree : ['"', '"', '"'].isPrefixOf (c :: rest) = false := by
      rw [← Bool.not_eq_true, List.isPrefixOf_iff_prefix]
      rintro ⟨tail, htail⟩
      cases htail
      exact h tail rfl rfl
    rw [tripleEscaped_cons h, ← ih, List.flatMap_cons, slashChar]
    split_ifs with hslash
    · exact (hstep _ _ rfl).trans (congrArg _ (hstep _ _ rfl))
    · refine hstep c _ ?_
      have hquotes := isPrefixOf_slashChar 3 (c :: rest)
      rw [List.flatMap_cons, slashChar, if_neg hslash] at hquotes
      exact hquotes.trans hthree
  | case3 => rfl

theorem closeQuote_of_isClosed {text : List Char} (h : IsClosed text) : closeQuote text = text := by
  unfold closeQuote
  split
  · next c rest hreverse =>
    have htext : text = rest.reverse ++ [c, '"'] := by
      rw [← List.reverse_reverse text, hreverse]
      simp
    obtain hlast | ⟨start, hstart⟩ := h
    · exact absurd (by simp [htext]) hlast
    · rw [← hstart] at hreverse
      simp at hreverse
      rw [if_neg (by simp [← hreverse.1])]
  · rfl

theorem closeQuote_open {start : List Char} (hne : start ≠ []) (hslash : start.getLast? ≠ some '\\') :
    closeQuote (start ++ ['"']) = start ++ ['\\', '"'] := by
  obtain ⟨init, c, rfl⟩ : ∃ init c, start = init ++ [c] :=
    ⟨_, _, (List.dropLast_concat_getLast hne).symm⟩
  have hc : c ≠ '\\' := by simpa using hslash
  simp [closeQuote, hc]

theorem IsClosed.append {text : List Char} (before : List Char) (h : IsClosed text)
    (hnil : text = [] → IsClosed before) : IsClosed (before ++ text) := by
  rcases text.eq_nil_or_concat with rfl | ⟨init, c, rfl⟩
  · simpa using hnil rfl
  · obtain hlast | hend := h
    · exact .inl (by simpa using hlast)
    · exact .inr (hend.trans (List.suffix_append _ _))

theorem slashChar_ne_nil (c : Char) : slashChar c ≠ [] := by
  unfold slashChar
  split_ifs <;> simp

theorem eq_nil_of_tripleEscaped_eq_nil {text : List Char} (h : tripleEscaped text = []) : text = [] := by
  induction text using tripleEscaped.induct with
  | case1 rest => simp [tripleEscaped] at h
  | case2 c rest hthree =>
    rw [tripleEscaped_cons hthree] at h
    exact absurd (List.append_eq_nil_iff.1 h).1 (slashChar_ne_nil c)
  | case3 => rfl

theorem replaceChar_append (a b : List Char) : replaceChar '\r' ['\\', 'r'] (a ++ b) =
    replaceChar '\r' ['\\', 'r'] a ++ replaceChar '\r' ['\\', 'r'] b := by
  simp [replaceChar]

theorem longChar_eq_replaceChar (c : Char) : longChar c = replaceChar '\r' ['\\', 'r'] (slashChar c) := by
  unfold longChar slashChar
  split_ifs with hslash hreturn <;> simp_all [replaceChar]

theorem getLast?_slashChar (c : Char) : (slashChar c).getLast? = some c := by
  unfold slashChar
  split_ifs with h <;> simp [h]

/-- A text whose last quote stands alone, behind `start`, when its triple quotes are escaped. -/
structure LeavesQuote (text start : List Char) : Prop where
  escaped : tripleEscaped text = start ++ ['"']
  body : longBody text = replaceChar '\r' ['\\', 'r'] start ++ ['\\', '"']
  alone : start = [] → text = ['"']
  slashed : start.getLast? = some '\\' → ['\\', '"'] <:+ text

/-- A text that needs nothing more when its triple quotes are escaped. -/
structure LeavesNone (text : List Char) : Prop where
  closed : IsClosed (tripleEscaped text)
  body : longBody text = replaceChar '\r' ['\\', 'r'] (tripleEscaped text)

section

variable {start rest : List Char}

theorem LeavesQuote.triple (h : LeavesQuote rest start) : LeavesQuote ('"' :: '"' :: '"' :: rest)
    (['\\', '"', '\\', '"', '\\', '"'] ++ start) where
  escaped := by rw [tripleEscaped, h.escaped, List.append_assoc]
  body := by
    rw [longBody, h.body, replaceChar_append, List.append_assoc]
    rfl
  alone := by simp
  slashed hlast := by
    rw [List.getLast?_append] at hlast
    have hend : start.getLast? = some '\\' := by
      cases hs : start.getLast? <;> rw [hs] at hlast
      · simp at hlast
      · exact hlast
    exact (h.slashed hend).trans (List.suffix_append ['"', '"', '"'] rest)

theorem LeavesNone.triple (h : LeavesNone rest) : LeavesNone ('"' :: '"' :: '"' :: rest) where
  closed := by
    rw [tripleEscaped]
    exact h.closed.append _ fun _ => .inr (List.suffix_append ['\\', '"', '\\', '"'] ['\\', '"'])
  body := by
    rw [longBody, tripleEscaped, h.body, replaceChar_append]
    rfl

variable {c : Char} (hthree : ∀ tail, c = '"' → rest = '"' :: '"' :: tail → False)
  (hone : c = '"' → rest = [] → False)

include hthree hone

theorem longBody_single : longBody (c :: rest) = longChar c ++ longBody rest := by
  rw [longBody]
  · exact hthree
  · exact hone

theorem LeavesQuote.single (h : LeavesQuote rest start) : LeavesQuote (c :: rest) (slashChar c ++ start) where
  escaped := by rw [tripleEscaped_cons hthree, h.escaped, List.append_assoc]
  body := by rw [longBody_single hthree hone, longChar_eq_replaceChar, h.body, replaceChar_append, List.append_assoc]
  alone := by simp [slashChar_ne_nil]
  slashed hend := by
    rw [List.getLast?_append, getLast?_slashChar] at hend
    cases hs : start.getLast? with
    | none =>
      rw [hs] at hend
      cases hend
      exact h.alone (List.getLast?_eq_none_iff.1 hs) ▸ List.suffix_rfl
    | some d =>
      rw [hs] at hend
      exact (h.slashed (hs.trans hend)).trans (List.suffix_cons c rest)

theorem LeavesNone.single (h : LeavesNone rest) : LeavesNone (c :: rest) where
  closed := by
    rw [tripleEscaped_cons hthree]
    refine h.closed.append _ fun hempty => .inl ?_
    rw [getLast?_slashChar]
    rintro ⟨⟩
    exact hone rfl (eq_nil_of_tripleEscaped_eq_nil hempty)
  body := by
    rw [longBody_single hthree hone, tripleEscaped_cons hthree, longChar_eq_replaceChar, h.body, replaceChar_append]

end

/-- What is left to do when triple quotes are escaped: to escape the last quote, if it stands alone. -/
theorem tripleEscaped_spec (text : List Char) : (∃ start, LeavesQuote text start) ∨ LeavesNone text := by
  -- By the cases of the writer. The invariant tells two states of the escaped text: its last quote stands
  -- alone, or it is closed.
  induction text using longBody.induct with
  | case1 rest ih => exact ih.imp (fun ⟨_, h⟩ => ⟨_, h.triple⟩) LeavesNone.triple
  | case2 => exact .inl ⟨[], rfl, rfl, fun _ => rfl, by simp⟩
  | case3 c rest hthree hone ih =>
    exact ih.imp (fun ⟨_, h⟩ => ⟨_, h.single hthree hone⟩) (LeavesNone.single hthree hone)
  | case4 => exact .inr ⟨.inl (by simp [tripleEscaped]), rfl⟩

/-- A text with line breaks that does not end in a backslash and a quote is put between three quotes. -/
theorem quotedText_long (text : String) (hline : '\n' ∈ text.toList)
    (hend : ¬['\\', '"'] <:+ text.toList) :
    quotedText text = ['"', '"', '"'] ++ longBody text.toList ++ ['"', '"', '"'] := by
  have hslash : slashChar = fun c => if c = '\\' then ['\\', '\\'] else [c] := rfl
  have hclose : replaceChar '\r' ['\\', 'r'] (closeQuote (tripleEscaped text.toList)) =
      longBody text.toList := by
    obtain ⟨start, h⟩ | h := tripleEscaped_spec text.toList
    · have hne : start ≠ [] := by
        intro hstart
        rw [h.alone hstart] at hline
        simp at hline
      rw [h.escaped, closeQuote_open hne fun hlast => hend (h.slashed hlast), h.body]
      simp [replaceChar]
    · rw [closeQuote_of_isClosed h.closed, h.body]
  rw [quotedText, if_pos (by simpa using hline), ← hclose, ← replaceText_slashChar, hslash]
  rfl

end CommandOntology.Turtle
