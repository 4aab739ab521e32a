import Mathlib.Data.List.DropRight
import CommandOntology.Proofs.ContainedErrors
import CommandOntology.Proofs.TokenPositions
import CommandOntology.Proofs.ViablePrefixes

set_option autoImplicit false

namespace CommandOntology.Turtle

open CommandOntology.Text

/-- A character of a line of a text, or the end of a line. Lines and columns count from one. -/
def IsPlaceOf (text : List Char) (p : Position) : Prop :=
  ∃ n line, p.line = n + 1 ∧ (text.splitOn '\n')[n]? = some line ∧ 1 ≤ p.column ∧ p.column ≤ line.length + 1

def lastLine (text : List Char) : List Char :=
  text.rtakeWhile (· ≠ '\n')

theorem placeAfter_eq (before : List Char) :
    placeAfter before = ⟨before.count '\n' + 1, (lastLine before).length + 1⟩ := by
  rw [placeAfter, lastLine, List.rtakeWhile, List.length_reverse, Nat.add_comm, Nat.add_comm 1]

/-- The lines from the end of a beginning on: the first of them has begun before. -/
theorem drop_splitOn_append (before rest : List Char) :
    ((before ++ rest).splitOn '\n').drop (before.count '\n') =
      (rest.splitOn '\n').modifyHead (lastLine before ++ ·) := by
  induction before using List.reverseRecOn generalizing rest with
  | nil =>
    cases h : rest.splitOn '\n' <;> simp [h, lastLine]
  | append_singleton before c ih =>
    have hrest := ih (c :: rest)
    rw [List.splitOn_cons_eq_if_modifyHead] at hrest
    rw [List.append_assoc, List.singleton_append, List.count_append]
    by_cases hc : c = '\n'
    · have hline : lastLine (before ++ [c]) = [] := List.rtakeWhile_concat_neg _ _ _ (by simp [hc])
      subst hc
      rw [← List.drop_drop, hrest, hline]
      cases h : rest.splitOn '\n' <;> simp
    · have hline : lastLine (before ++ [c]) = lastLine before ++ [c] :=
        List.rtakeWhile_concat_pos _ _ _ (by simpa using hc)
      have hcount : [c].count '\n' = 0 := List.count_eq_zero.2 (by simpa using Ne.symm hc)
      rw [hline, hcount, Nat.add_zero, hrest, if_neg (by simpa using hc), List.modifyHead_modifyHead]
      congr 1
      funext part
      simp

theorem getElem?_splitOn_append {before rest first : List Char} {others : List (List Char)}
    (h : rest.splitOn '\n' = first :: others) :
    ((before ++ rest).splitOn '\n')[before.count '\n']? = some (lastLine before ++ first) := by
  have hdrop := drop_splitOn_append before rest
  rw [h, List.modifyHead_cons] at hdrop
  rw [← Nat.add_zero (before.count '\n'), ← List.getElem?_drop, hdrop, List.getElem?_cons_zero]

theorem after_of_not_mem (p : Position) {word : List Char} (h : '\n' ∉ word) :
    p.after word = ⟨p.line, p.column + word.length⟩ := by
  induction word generalizing p with
  | nil => rfl
  | cons c word ih =>
    obtain ⟨hc, hword⟩ := not_or.1 (List.mem_cons.not.1 h)
    have hnext : p.next c = ⟨p.line, p.column + 1⟩ := if_neg (Ne.symm hc)
    have hafter := ih (p.next c) hword
    rw [hnext] at hafter
    rw [Position.after, List.foldl_cons, hnext, List.length_cons, Nat.add_comm word.length, ← Nat.add_assoc]
    exact hafter

theorem isPlaceOf_placeAfter (before rest : List Char) : IsPlaceOf (before ++ rest) (placeAfter before) := by
  obtain ⟨first, others, hrest⟩ := List.exists_cons_of_ne_nil (List.splitOn_ne_nil '\n' rest)
  rw [placeAfter_eq]
  refine ⟨_, _, rfl, getElem?_splitOn_append hrest, Nat.le_add_left _ _, ?_⟩
  simp

/-- Columns that are counted on over a line end leave the line. -/
theorem not_isPlaceOf_of_mem {before word : List Char} (rest : List Char) (h : '\n' ∈ word) :
    ¬IsPlaceOf (before ++ word ++ rest) ⟨(placeAfter before).line, (placeAfter before).column + word.length⟩ := by
  rintro ⟨n, line, hn, hline, -, hcolumn⟩
  obtain ⟨first, others, rfl, hfirst⟩ := List.eq_append_cons_of_mem h
  have hsplit : (first ++ '\n' :: (others ++ rest)).splitOn '\n' = first :: (others ++ rest).splitOn '\n' :=
    List.splitOn_append_cons_self_of_not_mem hfirst _
  rw [placeAfter_eq] at hn hcolumn
  obtain rfl : n = before.count '\n' := (Nat.succ.inj hn).symm
  rw [List.append_assoc, List.append_assoc, List.cons_append, getElem?_splitOn_append hsplit] at hline
  obtain rfl := Option.some.inj hline
  simp only [List.length_append, List.length_cons] at hcolumn
  omega

def IsReached (p : Position) (text : List Char) (q : Position) : Prop :=
  ∃ before rest, text = before ++ rest ∧ q = p.after before

theorem IsReached.cons {p q : Position} {c : Char} {text : List Char} (h : IsReached (p.next c) text q) :
    IsReached p (c :: text) q := by
  obtain ⟨before, rest, rfl, rfl⟩ := h
  exact ⟨c :: before, rest, rfl, rfl⟩

theorem after_start (before : List Char) : Position.start.after before = placeAfter before := by
  have hplace := placeAfter_append [] before
  rw [List.nil_append] at hplace
  exact hplace.symm

theorem IsReached.isPlaceOf {text : List Char} {q : Position} (h : IsReached .start text q) : IsPlaceOf text q := by
  obtain ⟨before, rest, rfl, rfl⟩ := h
  rw [after_start]
  exact isPlaceOf_placeAfter before rest

theorem isReached_of_lexFrom {state : LexerState} {p : Position} {text : List Char} {r : Tokens}
    (h : lexFrom state p text = .ok r) :
    (∀ t ∈ r.tokens, IsReached p text t.position) ∧ IsReached p text r.stop := by
  fun_induction lexFrom state p text generalizing r with
  | case1 state p =>
    cases h
    exact ⟨by simp, [], [], rfl, rfl⟩
  | case2 p c rest left ih => exact ⟨fun t ht => ((ih h).1 t ht).cons, (ih h).2.cons⟩
  | case3 p c rest ih => exact ⟨fun t ht => ((ih h).1 t ht).cons, (ih h).2.cons⟩
  | case4 state p c rest _ _ _ ih => exact ⟨fun t ht => ((ih h).1 t ht).cons, (ih h).2.cons⟩
  | case5 state p rest _ _ _ ih => exact ⟨fun t ht => ((ih h).1 t ht).cons, (ih h).2.cons⟩
  | case6 => cases h
  | case7 state p c rest _ _ lexeme n hscan _ _ ih =>
    obtain ⟨tail, htail, rfl⟩ := (map_eq_ok_iff _ _ _).1 h
    refine ⟨fun t ht => ?_, (ih htail).2.cons⟩
    obtain rfl | ht := List.mem_cons.1 ht
    · exact ⟨[], c :: rest, rfl, rfl⟩
    · exact ((ih htail).1 t ht).cons

/-- Where the reader of tokens fails, no token can be read at the place that it tells. -/
theorem exists_scan_of_lexFrom {state : LexerState} {p q : Position} {text : List Char} {fault : LexicalFault}
    (h : lexFrom state p text = .error (fault, q)) :
    ∃ before c rest, text = before ++ c :: rest ∧ q = p.after before ∧ scan c rest = .error fault := by
  have hcons {p : Position} (d : Char) {text : List Char}
      (h : ∃ before c rest, text = before ++ c :: rest ∧ q = (p.next d).after before ∧
        scan c rest = .error fault) :
      ∃ before c rest, d :: text = before ++ c :: rest ∧ q = p.after before ∧ scan c rest = .error fault := by
    obtain ⟨before, c, rest, rfl, hq, hscan⟩ := h
    exact ⟨d :: before, c, rest, rfl, hq, hscan⟩
  fun_induction lexFrom state p text with
  | case1 => cases h
  | case2 p c rest left ih => exact hcons c (ih h)
  | case3 p c rest ih => exact hcons c (ih h)
  | case4 state p c rest _ _ _ ih => exact hcons c (ih h)
  | case5 state p rest _ _ _ ih => exact hcons _ (ih h)
  | case6 state p c rest _ _ fault hscan =>
    cases h
    exact ⟨[], c, rest, rfl, rfl, hscan⟩
  | case7 state p c rest _ _ lexeme n hscan _ _ ih => exact hcons c (ih ((map_eq_error_iff _ _ _).1 h))

/-- An escape that is unknown stands as far from the opening quote as the fault says. -/
theorem exists_escape_of_readText {quote : Char} {isLong : Bool} {skip offset n : Nat} {text : List Char}
    {code : String} (h : readText quote isLong skip offset text = .error (.unknownEscape code n)) :
    ∃ word rest, text = word ++ '\\' :: rest ∧ n = offset + word.length := by
  have hcons {offset : Nat} (d : Char) {text : List Char}
      (h : ∃ word rest, text = word ++ '\\' :: rest ∧ n = offset + 1 + word.length) :
      ∃ word rest, d :: text = word ++ '\\' :: rest ∧ n = offset + word.length := by
    obtain ⟨word, rest, rfl, rfl⟩ := h
    exact ⟨d :: word, rest, rfl, by rw [List.length_cons]; omega⟩
  fun_induction readText quote isLong skip offset text with
  | case1 => cases h
  | case2 offset c rest skip ih => exact hcons c (ih h)
  | case3 => cases h
  | case4 => cases h
  | case5 offset rest fault hread =>
    cases h
    unfold readEscape at hread
    split at hread <;> cases hread
    exact ⟨[], rest, rfl, rfl⟩
  | case6 offset rest escaped n hread _ _ ih => exact hcons _ (ih ((map_eq_error_iff _ _ _).1 h))
  | case7 offset c rest hends hline hescape ih => exact hcons c (ih ((map_eq_error_iff _ _ _).1 h))

theorem exists_escape_of_scanText {quote : Char} {rest : List Char} {code : String} {n : Nat}
    (h : scanText quote rest = .error (.unknownEscape code n)) :
    ∃ quoted more, quote :: rest = quoted ++ '\\' :: more ∧ quoted.length = n := by
  unfold scanText at h
  obtain ⟨word, more, hword, rfl⟩ := exists_escape_of_readText ((map_eq_error_iff _ _ _).1 h)
  generalize hopening : (if [quote, quote].isPrefixOf rest then 3 else 1) = opening at hword
  have hlength : opening = (rest.take (opening - 1)).length + 1 := by
    subst hopening
    split_ifs with hlong
    · have hle := (List.isPrefixOf_iff_prefix.1 hlong).length_le
      rw [List.length_take]
      simp only [List.length_cons, List.length_nil] at hle
      omega
    · rfl
  refine ⟨quote :: (rest.take (opening - 1) ++ word), more, ?_, ?_⟩
  · rw [List.cons_append, List.append_assoc, ← hword, List.take_append_drop]
  · rw [List.length_cons, List.length_append]
    omega

/-- An escape that is unknown, behind a line end of the quoted text that it stands in. -/
def ParseError.IsEscapeBehindLineEnd (text : List Char) : ParseError → Prop
  | .lexical (.unknownEscape _ offset) p =>
    ∃ before quoted rest, text = before ++ quoted ++ '\\' :: rest ∧ placeAfter before = p ∧
      quoted.length = offset ∧ '\n' ∈ quoted
  | _ => False

theorem isPlaceOf_lexicalPosition_iff {text : List Char} {fault : LexicalFault} {p : Position}
    (h : lex text = .error (fault, p)) : IsPlaceOf text (lexicalPosition fault p) ↔
      ¬(ParseError.lexical fault p).IsEscapeBehindLineEnd text := by
  obtain ⟨before, c, rest, htext, hp, hscan⟩ := exists_scan_of_lexFrom h
  have hplace : IsPlaceOf text p := IsReached.isPlaceOf ⟨before, c :: rest, htext, hp⟩
  cases fault with
  | unknownEscape code n =>
    constructor
    · rintro hreported ⟨before, quoted, rest, rfl, rfl, rfl, hline⟩
      exact not_isPlaceOf_of_mem _ hline hreported
    · intro hno
      obtain ⟨quoted, more, hquoted, rfl⟩ := exists_escape_of_scanText (scanText_of_scan_error hscan trivial)
      have hline : '\n' ∉ quoted := fun hmem =>
        hno ⟨before, quoted, more, by rw [htext, hquoted, List.append_assoc], (after_start before).symm.trans hp.symm,
          rfl, hmem⟩
      have hescape : lexicalPosition (.unknownEscape code quoted.length) p = placeAfter (before ++ quoted) := by
        rw [placeAfter_append, after_of_not_mem _ hline, ← after_start, ← hp]
        rfl
      rw [hescape, htext, hquoted, ← List.append_assoc]
      exact isPlaceOf_placeAfter _ _
  | _ => exact iff_of_true hplace id

/-- A violation of the grammar is reported at a place of the text, unless it is an unknown escape behind a line
end of a quoted text. -/
theorem parse_isPlaceOf_iff (options : ParserOptions) (text : String) (e : ParseError) (reason : String)
    (line column : Nat) (h : parse options text = .error e)
    (hreport : e.diagnosis = .ok (syntaxDiagnosis reason line column)) :
    IsPlaceOf text.toList ⟨line, column⟩ ↔ ¬e.IsEscapeBehindLineEnd text.toList := by
  rw [parse] at h
  split_ifs at h with hcapacity
  · cases h
    cases hreport
  · cases hlex : lex text.toList with
    | error fault =>
      rw [hlex] at h
      cases h
      obtain ⟨fault', p, he, hp⟩ | ⟨expected, found, he⟩ := eq_of_diagnosis hreport
      · cases he
        rw [← hp]
        exact isPlaceOf_lexicalPosition_iff hlex
      · cases he
    | ok tokens =>
      rw [hlex] at h
      have hreached := isReached_of_lexFrom hlex
      obtain ⟨expected, found, rfl, hstopped⟩ := parseTokens_reported h hreport
      refine iff_of_true (IsReached.isPlaceOf ?_) id
      obtain ⟨before, token, rest, htokens, hp, -⟩ | ⟨hp, -⟩ := documentRun_unexpected hstopped
      · exact hp ▸ hreached.1 token (by rw [htokens]; simp)
      · exact hp ▸ hreached.2

def openBracketText : String :=
  "<a:s> <a:p> [ <a:q> \"\"\"x\ny\"\"\" ."

theorem parse_isPlaceOf_iff_openBracket :
    let e : ParseError := .unexpected .bracketEnd (some (.mark .dot)) ⟨2, 6⟩
    parse {} openBracketText = .error e ∧
      e.diagnosis = .ok (syntaxDiagnosis (unexpectedReason .bracketEnd (some (.mark .dot))) 2 6) ∧
      (IsPlaceOf openBracketText.toList ⟨2, 6⟩ ↔ ¬e.IsEscapeBehindLineEnd openBracketText.toList) := by
  intro e
  have hparse : parse {} openBracketText = .error e := rfl
  exact ⟨hparse, rfl, parse_isPlaceOf_iff {} openBracketText e _ 2 6 hparse rfl⟩

def lateEscapeText : String :=
  "<a:s> <a:p> \"\"\"\n\\q\"\"\" ."

/-- The line end before the escape is counted as a column: the report names the seventeenth column of a line that
has fifteen characters. -/
theorem parse_lateEscape :
    let e : ParseError := .lexical (.unknownEscape "q" 4) ⟨1, 13⟩
    parse {} lateEscapeText = .error e ∧
      e.diagnosis = .ok (syntaxDiagnosis "invalid escape sequence '\\q'" 1 17) ∧
      ¬IsPlaceOf lateEscapeText.toList ⟨1, 17⟩ := by
  intro e
  have hparse : parse {} lateEscapeText = .error e := rfl
  have hsplit : lateEscapeText.toList =
      "<a:s> <a:p> ".toList ++ "\"\"\"\n".toList ++ "\\q\"\"\" .".toList := rfl
  refine ⟨hparse, rfl, ?_⟩
  rw [hsplit]
  exact not_isPlaceOf_of_mem _ (by decide)

end CommandOntology.Turtle
