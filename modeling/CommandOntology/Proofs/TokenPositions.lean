import CommandOntology.Proofs.ContinuedTexts

set_option autoImplicit false

namespace CommandOntology.Turtle

def placeAfter (before : List Char) : Position :=
  ⟨1 + before.count '\n', 1 + (before.reverse.takeWhile (· ≠ '\n')).length⟩

theorem placeAfter_concat (before : List Char) (c : Char) :
    placeAfter (before ++ [c]) = (placeAfter before).next c := by
  rw [placeAfter, List.count_append, List.reverse_concat, List.takeWhile_cons, placeAfter, Position.next]
  by_cases hc : c = '\n'
  · simp [hc, Nat.add_assoc]
  · simp [hc, Nat.add_assoc]

theorem placeAfter_append (before text : List Char) :
    placeAfter (before ++ text) = (placeAfter before).after text := by
  induction text generalizing before with
  | nil => rw [List.append_nil]; rfl
  | cons c text ih =>
    rw [List.append_cons, ih, placeAfter_concat]
    rfl

inductive IsLayoutText : List Char → Prop
  | nil : IsLayoutText []
  | blank {c : Char} {rest : List Char} : isLayout c = true → IsLayoutText rest → IsLayoutText (c :: rest)
  | comment {words rest : List Char} :
    '\n' ∉ words → IsLayoutText rest → IsLayoutText ('#' :: (words ++ '\n' :: rest))

/-- White space and comments at the end of a text, where the last comment needs no end of its line. -/
def IsLastLayout (text : List Char) : Prop :=
  IsLayoutText text ∨ ∃ layout words, text = layout ++ '#' :: words ∧ IsLayoutText layout ∧ '\n' ∉ words

theorem IsLayoutText.append {a b : List Char} (ha : IsLayoutText a) (hb : IsLayoutText b) :
    IsLayoutText (a ++ b) := by
  induction ha with
  | nil => exact hb
  | blank hc _ ih => exact .blank hc ih
  | comment hwords _ ih =>
    rw [List.cons_append, List.append_assoc]
    exact .comment hwords ih

theorem IsLayoutText.append_last {a b : List Char} (ha : IsLayoutText a) (hb : IsLastLayout b) :
    IsLastLayout (a ++ b) := by
  obtain hb | ⟨layout, words, rfl, hlayout, hwords⟩ := hb
  · exact .inl (ha.append hb)
  · exact .inr ⟨a ++ layout, words, (List.append_assoc _ _ _).symm, ha.append hlayout, hwords⟩

structure Span where
  start : Nat
  stop : Nat

/-- Spans of a text that stand one after the other behind a number of characters, none of them empty, with
white space and comments around them. -/
def StandApart (text : List Char) (index : Nat) : List Span → Prop
  | [] => IsLastLayout (text.drop index)
  | s :: rest =>
    index ≤ s.start ∧ s.start < s.stop ∧ s.stop ≤ text.length ∧
      IsLayoutText ((text.drop index).take (s.start - index)) ∧ StandApart text s.stop rest

/-- A token is what is read in a span, and has the place behind the text before it. -/
def Span.Holds (text : List Char) (s : Span) (t : Token) : Prop :=
  t.position = placeAfter (text.take s.start) ∧
    ∃ c rest, text.drop s.start = c :: rest ∧ scan c rest = .ok (t.lexeme, s.stop - s.start - 1)

theorem StandApart.extend {text : List Char} {spans : List Span} {i j : Nat} (hij : i ≤ j)
    (hgap : IsLayoutText ((text.drop i).take (j - i))) (h : StandApart text j spans) :
    StandApart text i spans := by
  have hdrop : text.drop j = (text.drop i).drop (j - i) := by
    rw [List.drop_drop, Nat.add_sub_cancel' hij]
  cases spans with
  | nil =>
    rw [StandApart, hdrop] at h
    rw [StandApart, ← List.take_append_drop (j - i) (text.drop i)]
    exact hgap.append_last h
  | cons s rest =>
    obtain ⟨hstart, hne, hstop, hlayout, hrest⟩ := h
    refine ⟨hij.trans hstart, hne, hstop, ?_, hrest⟩
    have hlength : s.start - i = (j - i) + (s.start - j) := by omega
    rw [hlength, List.take_add, ← hdrop]
    exact hgap.append hlayout

theorem lexFrom_inside (p : Position) (word rest : List Char) :
    lexFrom (.inside word.length) p (word ++ rest) = lexFrom .between (p.after word) rest := by
  induction word generalizing p with
  | nil => cases rest <;> rfl
  | cons c word ih => exact ih (p.next c)

theorem lexFrom_comment (p : Position) {words : List Char} (hwords : '\n' ∉ words) (rest : List Char) :
    lexFrom .comment p (words ++ rest) = lexFrom .comment (p.after words) rest := by
  induction words generalizing p with
  | nil => rfl
  | cons c words ih =>
    obtain ⟨hc, hrest⟩ := not_or.1 (List.mem_cons.not.1 hwords)
    rw [List.cons_append, lexFrom, if_neg (Ne.symm hc)]
    exact ih (p.next c) hrest

theorem scan_length_le {c : Char} {rest : List Char} {l : Lexeme} {n : Nat} (h : scan c rest = .ok (l, n)) :
    n ≤ rest.length :=
  have hbreaks : Breaks [] := trivial
  (stays_scan hbreaks c rest l n h).1

/-- Tokens are what is read in spans of a text behind a number of characters, and end where the text ends. -/
def Tokens.StandIn (text : List Char) (index : Nat) (r : Tokens) : Prop :=
  ∃ spans, StandApart text index spans ∧ List.Forall₂ (Span.Holds text) spans r.tokens ∧
    r.stop = placeAfter text

theorem Tokens.StandIn.behind_layout {before layout rest : List Char} {r : Tokens}
    (hlayout : IsLayoutText layout)
    (h : r.StandIn (before ++ layout ++ rest) (before ++ layout).length) :
    r.StandIn (before ++ layout ++ rest) before.length := by
  obtain ⟨spans, hspans, hholds, hstop⟩ := h
  refine ⟨spans, hspans.extend (by simp) ?_, hholds, hstop⟩
  simpa [List.append_assoc] using hlayout

theorem Tokens.StandIn.behind_token {before word rest : List Char} {c : Char} {l : Lexeme} {r : Tokens}
    (hscan : scan c (word ++ rest) = .ok (l, word.length))
    (h : r.StandIn (before ++ c :: word ++ rest) (before ++ c :: word).length) :
    Tokens.StandIn (before ++ c :: word ++ rest) before.length
      { r with tokens := ⟨l, placeAfter before⟩ :: r.tokens } := by
  obtain ⟨spans, hspans, hholds, hstop⟩ := h
  refine ⟨⟨before.length, (before ++ c :: word).length⟩ :: spans, ⟨le_rfl, ?_, ?_, ?_, hspans⟩,
    .cons ⟨?_, c, word ++ rest, ?_, ?_⟩ hholds, hstop⟩
  · simp
  · simp
  · simpa using IsLayoutText.nil
  · simp
  · simp
  · simpa using hscan

theorem standIn_of_lexFrom {before rest : List Char} {r : Tokens}
    (h : lexFrom .between (placeAfter before) rest = .ok r) : r.StandIn (before ++ rest) before.length := by
  -- On the length of the rest: layout, comments and tokens are each read as a whole, so that the reader is
  -- between tokens again.
  induction hn : rest.length using Nat.strong_induction_on generalizing before rest r with
  | h n ih =>
    subst hn
    cases rest with
    | nil =>
      cases h
      exact ⟨[], .inl (by simpa using .nil), .nil, by rw [List.append_nil]⟩
    | cons c rest =>
      rw [lexFrom_between_cons, ← placeAfter_concat] at h
      split_ifs at h with hlayout hcomment
      · have hrest := (ih _ (Nat.lt_succ_self _) h rfl).behind_layout (.blank hlayout .nil)
        rwa [List.append_assoc, List.singleton_append] at hrest
      · subst hcomment
        by_cases hline : '\n' ∈ rest
        · obtain ⟨words, more, rfl, hwords⟩ := List.eq_append_cons_of_mem hline
          have hread : lexFrom .between (placeAfter (before ++ '#' :: (words ++ ['\n']))) more = .ok r := by
            rw [lexFrom_comment _ hwords, ← placeAfter_append] at h
            rw [List.append_cons, ← List.append_assoc, placeAfter_concat]
            exact h
          have hless : more.length < ('#' :: (words ++ '\n' :: more)).length := by
            simp only [List.length_cons, List.length_append]
            omega
          have hrest := (ih _ hless hread rfl).behind_layout (.comment hwords .nil)
          simpa using hrest
        · rw [← List.append_nil rest, lexFrom_comment _ hline, ← placeAfter_append] at h
          cases h
          refine ⟨[], ?_, .nil, by simp⟩
          exact .inr ⟨[], rest, by simp, .nil, hline⟩
      · cases hscan : scan c rest with
        | error fault =>
          rw [hscan] at h
          cases h
        | ok found =>
          obtain ⟨l, n⟩ := found
          have hle := scan_length_le hscan
          obtain ⟨word, more, rfl, rfl⟩ : ∃ word more, rest = word ++ more ∧ n = word.length :=
            ⟨rest.take n, rest.drop n, (List.take_append_drop n rest).symm, by simp [hle]⟩
          rw [hscan] at h
          obtain ⟨tail, htail, rfl⟩ := (map_eq_ok_iff _ _ _).1 h
          have hread : lexFrom .between (placeAfter (before ++ c :: word)) more = .ok tail := by
            rw [lexFrom_inside, ← placeAfter_append] at htail
            rwa [List.append_cons]
          have hless : more.length < (c :: (word ++ more)).length := by
            simp only [List.length_cons, List.length_append]
            omega
          have hrest := (ih _ hless hread rfl).behind_token hscan
          rwa [List.append_assoc, List.cons_append] at hrest

/-- The tokens of a text are what is read in spans that stand one after the other, with white space and comments
around them. Each token has the place where its span starts, and the end has the place behind the text. -/
theorem lex_standIn {text : String} {r : Tokens} (h : lex text.toList = .ok r) :
    ∃ spans, StandApart text.toList 0 spans ∧
      List.Forall₂ (Span.Holds text.toList) spans r.tokens ∧ r.stop = placeAfter text.toList := by
  have hread : lexFrom .between (placeAfter []) text.toList = .ok r := h
  exact standIn_of_lexFrom hread

/-- A text that spans lines, and comments. -/
theorem lex_standIn_lines :
    let text := "<a:s> # one\n\t\"\"\"x\ny\"\"\" . # two"
    let r : Tokens := ⟨[⟨.iri "a:s", 1, 1⟩, ⟨.text "x\ny", 2, 2⟩, ⟨.mark .dot, 3, 6⟩], 3, 13⟩
    lex text.toList = .ok r ∧ ∃ spans, StandApart text.toList 0 spans ∧
      List.Forall₂ (Span.Holds text.toList) spans r.tokens ∧ r.stop = placeAfter text.toList := by
  intro text r
  have hlex : lex text.toList = .ok r := by decide
  exact ⟨hlex, lex_standIn hlex⟩

end CommandOntology.Turtle
