import CommandOntology.Proofs.ContinuedTexts
import CommandOntology.Proofs.StatementShapes
import CommandOntology.Proofs.WrittenQueries

set_option autoImplicit false

/-!
# Words that documents and queries share

A word that documents read as one lexeme is one token of a query too, if queries know its characters:
their references hold no white space of any script, the parts of their prefixed names are of fewer
characters, and the point after an integer belongs to it. Where both know a word, it means the same.
-/

namespace CommandOntology.Turtle

open CommandOntology.Text

/-- A word that documents read as one lexeme. White space of no script starts a word. -/
def IsWord (word : List Char) (l : Lexeme) : Prop :=
  ∃ c rest, word = c :: rest ∧ startsToken c = true ∧ isBlank c = false ∧
    scan c rest = .ok (l, rest.length)

def Lexeme.EndsBefore (l : Lexeme) (more : List Char) : Prop :=
  match l with
  | .text _ => more.head? ≠ some '"' ∧ more.head? ≠ some '\''
  | _ => Breaks more

section

variable {word more rest : List Char} {c : Char} {l : Lexeme} {n : Nat}

def Lexeme.IsScanned (c : Char) (rest : List Char) (n : Nat) (l : Lexeme) : Prop :=
  match l with
  | .iri _ => c = '<' ∧ scanIri rest = .ok (l, n)
  | .text _ => (c = '"' ∨ c = '\'') ∧ scanText c rest = .ok (l, n)
  | .languageTag _ => c = '@' ∧ scanTag rest = .ok (l, n)
  | .number _ _ => scanNumber c rest = .ok (l, n)
  | .name _ _ => scanName c rest = .ok (l, n)
  | .word _ => scanName c rest = .ok (l, n)
  | _ => True

theorem exists_of_scanIri (h : scanIri rest = .ok (l, n)) :
    ∃ reference more, rest = reference ++ '>' :: more ∧ l = .iri (String.ofList reference) ∧
      n = reference.length + 1 := by
  rw [scanIri] at h
  split_ifs at h with hclose
  cases h
  obtain ⟨more, hmore⟩ := List.head?_eq_some_iff.1 hclose
  have hsplit := List.take_append_drop (spanLength (fun c => c != '>' && c != '\n') rest) rest
  rw [hmore] at hsplit
  exact ⟨_, more, hsplit.symm, rfl, by rw [List.length_take_of_le (spanLength_le _ rest)]⟩

/-- A prefixed name has a prefix, a colon, and a local part that does not go on. -/
theorem exists_of_scanName {label name : String} (h : scanName c rest = .ok (.name label name, n)) :
    ∃ more, c :: rest = label.toList ++ ':' :: (name.toList ++ more) ∧
      localLength (name.toList ++ more) = name.toList.length ∧
      n = label.toList.length + name.toList.length ∧ ∀ d ∈ label.toList, isNameChar d = true := by
  rw [scanName] at h
  split at h
  · next m hm =>
    have hle := labelLength?_le hm
    have hlocal := localLength_le (rest.drop m)
    cases h
    -- The prefix is a run of characters of names up to its colon, or empty.
    have hcolon : ((c :: rest).drop m).head? = some ':' ∧ ∀ d ∈ (c :: rest).take m, isNameChar d = true := by
      rw [labelLength?_cons] at hm
      split_ifs at hm with hstart hcolon hc
      · cases hm
        have htake : (c :: rest).take (spanLength isNameChar (c :: rest)) = (c :: rest).takeWhile isNameChar :=
          (List.prefix_iff_eq_take.1 (List.takeWhile_prefix isNameChar)).symm
        exact ⟨hcolon, fun d hd => List.mem_takeWhile_imp (htake ▸ hd)⟩
      · cases hm
        exact ⟨by simp [hc], by simp⟩
    obtain ⟨tail, htail⟩ := List.head?_eq_some_iff.1 hcolon.1
    obtain rfl : tail = rest.drop m := by
      have hdrop := congrArg (List.drop 1) htail
      rw [List.drop_drop, List.drop_succ_cons, List.drop_succ_cons, List.drop_zero] at hdrop
      exact hdrop.symm
    have hsplit := List.take_append_drop m (c :: rest)
    have hname := List.take_append_drop (localLength (rest.drop m)) (rest.drop m)
    have hlength : ((rest.drop m).take (localLength (rest.drop m))).length = localLength (rest.drop m) :=
      List.length_take_of_le hlocal
    refine ⟨(rest.drop m).drop (localLength (rest.drop m)), ?_, ?_, ?_, ?_⟩
    · simp only [lexemeText, String.toList_ofList]
      rw [hname, ← htail, hsplit]
    · simp only [lexemeText, String.toList_ofList]
      rw [hname, hlength]
    · simp only [lexemeText, String.toList_ofList]
      rw [hlength, List.length_take_of_le (Nat.le_succ_of_le hle : m ≤ (c :: rest).length)]
    · simpa [lexemeText] using hcolon.2
  · dsimp only at h
    split_ifs at h
    cases h

theorem exists_of_scanTag {tag : String} (h : scanTag rest = .ok (.languageTag tag, n)) :
    tagLength? rest = some n ∧ tag = lexemeText rest n := by
  rw [scanTag] at h
  split at h
  · cases h
  · next m hm =>
    dsimp only at h
    split at h
    · cases h
    · cases h
      exact ⟨hm, rfl⟩

theorem exists_of_scanNumber {kind : NumberKind} {digits : String}
    (h : scanNumber c rest = .ok (.number kind digits, n)) :
    ∃ m, numberLength? (c :: rest) = some (kind, m) ∧ digits = lexemeText (c :: rest) m ∧ n = m - 1 := by
  rw [scanNumber] at h
  split at h
  · next m hm =>
    cases h
    exact ⟨m, hm, rfl, rfl⟩
  · cases h

theorem exists_of_scanName_word {w : String} (h : scanName c rest = .ok (.word w, n)) :
    labelLength? (c :: rest) = none ∧ isWordStart c = true ∧ n = spanLength isWordPart rest ∧
      w = lexemeText (c :: rest) (n + 1) := by
  rw [scanName] at h
  split at h
  · cases h
  · next hm =>
    dsimp only at h
    split_ifs at h with hstart
    cases h
    exact ⟨hm, hstart, rfl, rfl⟩

theorem isScanned_of_scan (h : scan c rest = .ok (l, n)) : l.IsScanned c rest n := by
  revert h
  -- The cases are the branches of the scanner. Lexemes that queries do not have leave nothing to show.
  fun_cases scan c rest with
  | case1 hc =>
    intro h
    obtain ⟨_, _, _, rfl, _⟩ := exists_of_scanIri h
    exact ⟨hc, h⟩
  | case2 hc hquote =>
    intro h
    obtain ⟨_, _, _, _, rfl, _, _⟩ := exists_of_scanText h
    exact ⟨hquote, h⟩
  | case3 _ _ hc =>
    intro h
    have hscan := h
    rw [scanTag] at hscan
    split at hscan
    · cases hscan
    · dsimp only at hscan
      split at hscan <;> cases hscan
      · trivial
      · exact ⟨hc, h⟩
  | case4 =>
    intro h
    rw [scanBlankNode] at h
    split at h <;> cases h
    trivial
  | case5 =>
    intro h
    cases h
    trivial
  | case6 => exact fun h => by cases h
  | case7 =>
    intro h
    cases h
    trivial
  | case8 =>
    intro h
    have hscan := h
    rw [scanNumber] at hscan
    split at hscan <;> cases hscan
    exact h
  | case9 =>
    intro h
    have hscan := h
    rw [scanName] at hscan
    split at hscan
    · cases hscan
      exact h
    · dsimp only at hscan
      split_ifs at hscan
      cases hscan
      exact h

/-- A word is read as it is where it ends. -/
theorem scan_append (h : scan c rest = .ok (l, n)) (hmore : l.EndsBefore more) :
    scan c (rest ++ more) = .ok (l, n) := by
  cases l with
  | text value =>
    obtain ⟨hquote, hscan⟩ := isScanned_of_scan h
    have hhead : more.head? ≠ some c := by
      obtain rfl | rfl := hquote
      · exact hmore.1
      · exact hmore.2
    obtain ⟨-, hstays⟩ := stays_scanText hquote hhead rest _ n hscan
    rw [← hstays]
    obtain rfl | rfl := hquote <;> rfl
  | _ => exact (stays_scan hmore c rest _ n h).2

theorem lexemes?_isWord (h : IsWord word l) (hmore : l.EndsBefore more) :
    lexemes? (word ++ more) = (lexemes? more).map (l :: ·) := by
  obtain ⟨c, rest, rfl, hstarts, -, hscan⟩ := h
  exact lexemes?_token c rest more l hstarts (scan_append hscan hmore)

end

end CommandOntology.Turtle

namespace CommandOntology.Query

open CommandOntology.Text

/-- A lexeme of documents that queries have too. White space of any script ends their references, and
the signs of variables and comparisons start none. Their prefixes start with a letter of ASCII, and the
local parts of their names hold neither colons nor percent signs. -/
def IsShared : Turtle.Lexeme → Prop
  | .iri reference => reference = "" ∨ IsReferenceBody reference.toList
  | .name label name => (∀ c ∈ label.toList.head?, isAsciiLetter c = true) ∧
      ∀ c ∈ name.toList, c ≠ ':' ∧ c ≠ '%'
  | .text _ => True
  | .languageTag _ => True
  | .number _ _ => True
  | .word w => w = "true" ∨ w = "false"
  | _ => False

/-- What may come right behind a word of a query. The point after an integer would belong to it. -/
def EndsBefore (l : Turtle.Lexeme) (more : List Char) : Prop :=
  l.EndsBefore more ∧ ∀ digits, l = .number .integer digits → more.head? ≠ some '.'

/-- A token of a query that is written like a lexeme of a document, and means the same. -/
inductive Matches : Turtle.Lexeme → Lexeme → Prop
  | iri (reference : String) : Matches (.iri reference) ⟨.iri, referenceText reference⟩
  | name (label name : String) (h : ':' ∉ label.toList) :
      Matches (.name label name) ⟨.name, label ++ ":" ++ name⟩
  | text {value raw : String}
      (h : ∀ position, unescape (stripQuotes raw.toList) position = .ok value) :
      Matches (.text value) ⟨.string, raw⟩
  | languageTag {tag : String} (h : ∀ c ∈ tag.toList, c.toNat < 128) :
      Matches (.languageTag tag) ⟨.languageTag, "@" ++ tag⟩
  | number {kind : Turtle.NumberKind} {digits : String} (h : numberDatatype digits = kind.datatype) :
      Matches (.number kind digits) ⟨.number, digits⟩
  | word (w : String) : Matches (.word w) ⟨.word, w⟩
  | datatype : Matches (.mark .datatype) ⟨.operator, "^^"⟩

section

variable {rest more : List Char} {c : Char} {n : Nat}

theorem tokenLength?_of_scanIri {reference : String} (h : Turtle.scanIri rest = .ok (.iri reference, n))
    (hr : reference = "" ∨ IsReferenceBody reference.toList) :
    tokenLength? ('<' :: rest) = some (.iri, n + 1) := by
  obtain ⟨body, more, rfl, hl, rfl⟩ := Turtle.exists_of_scanIri h
  cases hl
  rw [String.toList_ofList] at hr
  refine tokenLength?_of_mem_startKinds (by decide) ?_
  obtain hempty | hbody := hr
  · obtain rfl : body = [] := by simpa using congrArg String.toList hempty
    rfl
  · exact referenceLength?_append more hbody

theorem tokenLength?_of_scanText {quote : Char} {l : Turtle.Lexeme} (hquote : quote = '"' ∨ quote = '\'')
    (h : Turtle.scanText quote rest = .ok (l, n)) :
    tokenLength? (quote :: rest) = some (.string, n + 1) := by
  obtain ⟨written, more, chars, hrest, -, rfl, hquoted⟩ := Turtle.exists_of_scanText h
  refine tokenLength?_of_mem_startKinds (by decide) ?_
  rw [hrest] at hquoted ⊢
  exact textLength?_of_isQuoted hquoted hquote rfl

theorem tokenLength?_of_scanTag {tag : String} (h : Turtle.scanTag rest = .ok (.languageTag tag, n)) :
    tokenLength? ('@' :: rest) = some (.languageTag, n + 1) := by
  refine tokenLength?_of_mem_startKinds (by decide) ?_
  change languageTagLength? ('@' :: rest) = _
  rw [languageTagLength?_eq, (Turtle.exists_of_scanTag h).1]
  rfl

theorem signLength_eq (text : List Char) : signLength text = Turtle.signLength text :=
  rfl

theorem exponentLength_eq (text : List Char) :
    exponentLength text = (Turtle.exponentLength? text).getD 0 := by
  simp only [exponentLength, Turtle.exponentLength?, signLength_eq, Turtle.digitsLength?]
  split_ifs <;> simp_all

/-- The length of what follows the digits before the point of a number, given whether there are any. -/
def restLength? (hasWhole : Bool) (rest : List Char) : Option Nat :=
  if rest.head? = some '.' then
    let part := spanLength isDecimalDigit (rest.drop 1)
    if hasWhole = false ∧ part = 0 then none else some (1 + part + exponentLength (rest.drop (1 + part)))
  else if hasWhole = false then none
  else some (exponentLength rest)

theorem numberLength?_eq (text : List Char) :
    numberLength? text =
      (restLength? (spanLength isDecimalDigit (text.drop (Turtle.signLength text)) != 0)
        (text.drop (Turtle.wholeLength text))).map (Turtle.wholeLength text + ·) := by
  have hwhole : Turtle.signLength text + spanLength isDecimalDigit (text.drop (Turtle.signLength text)) =
      Turtle.wholeLength text := rfl
  have hdrop (k : Nat) : text.drop (Turtle.wholeLength text + k) =
      (text.drop (Turtle.wholeLength text)).drop k := List.drop_drop.symm
  simp only [numberLength?, signLength_eq, hwhole, hdrop, restLength?, bne_eq_false_iff_eq]
  by_cases hpoint : (text.drop (Turtle.wholeLength text)).head? = some '.'
  · simp only [hpoint, if_true, Nat.add_comm 1]
    split_ifs
    · rfl
    · simp [Nat.add_assoc]
  · simp only [hpoint, if_false, and_true, Nat.add_zero, List.drop_zero]
    split_ifs <;> rfl

theorem restLength?_of_powerLength? {hasWhole : Bool} {k : Nat}
    (h : Turtle.powerLength? hasWhole rest = some k) : restLength? hasWhole rest = some k := by
  rw [Turtle.powerLength?] at h
  rw [restLength?]
  split_ifs at h ⊢ with hpoint
  · dsimp only at h ⊢
    split_ifs at h ⊢
    obtain ⟨e, he, rfl⟩ := Option.map_eq_some_iff.1 h
    rw [exponentLength_eq, he]
    rfl
  · rw [exponentLength_eq, h]
    rfl

theorem restLength?_of_fractionLength? {hasWhole : Bool} {k : Nat}
    (hpower : Turtle.powerLength? hasWhole rest = none) (h : Turtle.fractionLength? rest = some k) :
    restLength? hasWhole rest = some k := by
  rw [Turtle.fractionLength?] at h
  split_ifs at h with hpoint
  obtain ⟨part, hpart, rfl⟩ := Option.map_eq_some_iff.1 h
  rw [Turtle.digitsLength?] at hpart
  split_ifs at hpart with hzero
  cases hpart
  rw [Turtle.powerLength?, if_pos hpoint] at hpower
  dsimp only at hpower
  rw [if_neg fun hnone => hzero hnone.2, Option.map_eq_none_iff] at hpower
  rw [restLength?, if_pos hpoint]
  dsimp only
  rw [if_neg fun hnone => hzero hnone.2, exponentLength_eq, hpower]
  rfl

theorem restLength?_of_head? (hpower : Turtle.powerLength? true rest = none)
    (hpoint : rest.head? ≠ some '.') : restLength? true rest = some 0 := by
  rw [Turtle.powerLength?, if_neg hpoint, if_neg (by decide)] at hpower
  rw [restLength?, if_neg hpoint, if_neg (by decide), exponentLength_eq, hpower]
  rfl

/-- Queries count a number like documents, if no point comes behind an integer. -/
theorem numberLength?_of_documents {text : List Char} {kind : Turtle.NumberKind} {m : Nat}
    (h : Turtle.numberLength? text = some (kind, m))
    (hpoint : kind = .integer → (text.drop m).head? ≠ some '.') : numberLength? text = some m := by
  rw [numberLength?_eq]
  rw [Turtle.numberLength?] at h
  split at h
  · next hdouble =>
    cases h
    rw [Turtle.doubleLength?_eq] at hdouble
    obtain ⟨k, hk, rfl⟩ := Option.map_eq_some_iff.1 hdouble
    rw [restLength?_of_powerLength? hk, Option.map_some]
  · next hdouble =>
    rw [Turtle.doubleLength?_eq, Option.map_eq_none_iff] at hdouble
    split at h
    · next hdecimal =>
      cases h
      rw [Turtle.decimalLength?_eq] at hdecimal
      obtain ⟨k, hk, rfl⟩ := Option.map_eq_some_iff.1 hdecimal
      rw [restLength?_of_fractionLength? hdouble hk, Option.map_some]
    · obtain ⟨k, hk, hpair⟩ := Option.map_eq_some_iff.1 h
      cases hpair
      obtain ⟨whole, hwhole, rfl⟩ := Option.map_eq_some_iff.1 hk
      rw [Turtle.digitsLength?] at hwhole
      split_ifs at hwhole with hzero
      cases hwhole
      have hsome : (spanLength isDecimalDigit (text.drop (Turtle.signLength text)) != 0) = true := by
        simpa using hzero
      rw [hsome] at hdouble ⊢
      rw [restLength?_of_head? hdouble (hpoint rfl)]
      rfl

theorem powerLength?_ne_zero {hasWhole : Bool} {k : Nat}
    (h : Turtle.powerLength? hasWhole rest = some k) : k ≠ 0 := by
  rw [Turtle.powerLength?] at h
  split_ifs at h
  · dsimp only at h
    split_ifs at h
    obtain ⟨e, -, rfl⟩ := Option.map_eq_some_iff.1 h
    omega
  · rw [Turtle.exponentLength?] at h
    split_ifs at h
    obtain ⟨digits, -, rfl⟩ := Option.map_eq_some_iff.1 h
    omega

theorem numberLength?_ne_zero {text : List Char} {kind : Turtle.NumberKind} {m : Nat}
    (h : Turtle.numberLength? text = some (kind, m)) : m ≠ 0 := by
  rw [Turtle.numberLength?] at h
  split at h
  · next hdouble =>
    cases h
    rw [Turtle.doubleLength?_eq] at hdouble
    obtain ⟨k, hk, rfl⟩ := Option.map_eq_some_iff.1 hdouble
    have hne := powerLength?_ne_zero hk
    omega
  · split at h
    · next hdecimal =>
      cases h
      rw [Turtle.decimalLength?] at hdecimal
      split_ifs at hdecimal
      obtain ⟨k, -, rfl⟩ := Option.map_eq_some_iff.1 hdecimal
      omega
    · obtain ⟨k, hk, hpair⟩ := Option.map_eq_some_iff.1 h
      cases hpair
      obtain ⟨whole, hwhole, rfl⟩ := Option.map_eq_some_iff.1 hk
      rw [Turtle.digitsLength?] at hwhole
      split_ifs at hwhole
      cases hwhole
      omega

theorem tokenLength?_of_scanNumber {kind : Turtle.NumberKind} {digits : String}
    (h : Turtle.scanNumber c rest = .ok (.number kind digits, n))
    (hpoint : kind = .integer → (rest.drop n).head? ≠ some '.') :
    tokenLength? (c :: rest) = some (.number, n + 1) := by
  obtain ⟨m, hm, -, rfl⟩ := Turtle.exists_of_scanNumber h
  cases m with
  | zero => exact absurd rfl (numberLength?_ne_zero hm)
  | succ m => exact tokenLength?_of_mem_startKinds (by decide) (numberLength?_of_documents hm hpoint)

def numberSigns : List Char :=
  ['e', 'E', '.']

theorem not_mem_numberSigns_of_digit {d : Char} (h : isDecimalDigit d = true) : d ∉ numberSigns := by
  intro hmem
  have hall : ∀ d ∈ numberSigns, isDecimalDigit d = false := by decide
  rw [hall d hmem] at h
  cases h

theorem not_mem_numberSigns_of_mem_take {text : List Char} {d : Char}
    (h : d ∈ text.take (Turtle.wholeLength text)) : d ∉ numberSigns := by
  rw [Turtle.wholeLength, List.take_add, List.mem_append, Turtle.take_spanLength] at h
  obtain h | h := h
  · have hsign : d = '+' ∨ d = '-' := by
      rw [Turtle.signLength] at h
      split_ifs at h with hhead
      · cases text with
        | nil => simp at hhead
        | cons e text =>
          simp only [List.take_succ_cons, List.take_zero, List.mem_singleton] at h
          simpa [h] using hhead
      · simp at h
    obtain rfl | rfl := hsign <;> decide
  · exact not_mem_numberSigns_of_digit (List.mem_takeWhile_imp h)

theorem exists_of_powerLength? {hasWhole : Bool} {k : Nat}
    (h : Turtle.powerLength? hasWhole rest = some k) : 'e' ∈ rest.take k ∨ 'E' ∈ rest.take k := by
  have hexponent {text : List Char} {e : Nat} (he : Turtle.exponentLength? text = some e) :
      'e' ∈ text.take e ∨ 'E' ∈ text.take e := by
    rw [Turtle.exponentLength?] at he
    split_ifs at he with hhead
    obtain ⟨digits, -, rfl⟩ := Option.map_eq_some_iff.1 he
    obtain hhead | hhead := hhead
    all_goals
      obtain ⟨tail, rfl⟩ := List.head?_eq_some_iff.1 hhead
      rw [Nat.add_assoc, List.take_add]
      simp
  rw [Turtle.powerLength?] at h
  split_ifs at h
  · dsimp only at h
    split_ifs at h
    obtain ⟨e, he, rfl⟩ := Option.map_eq_some_iff.1 h
    rw [List.take_add]
    exact (hexponent he).imp (List.mem_append_right _) (List.mem_append_right _)
  · exact hexponent h

theorem take_of_fractionLength? {k : Nat} (h : Turtle.fractionLength? rest = some k) :
    ∃ digits, rest.take k = '.' :: digits ∧ ∀ d ∈ digits, isDecimalDigit d = true := by
  rw [Turtle.fractionLength?] at h
  split_ifs at h with hhead
  obtain ⟨tail, rfl⟩ := List.head?_eq_some_iff.1 hhead
  obtain ⟨part, hpart, rfl⟩ := Option.map_eq_some_iff.1 h
  rw [Turtle.digitsLength?] at hpart
  split_ifs at hpart
  cases hpart
  refine ⟨tail.takeWhile isDecimalDigit, ?_, fun d hd => List.mem_takeWhile_imp hd⟩
  rw [Nat.add_comm, List.take_succ_cons, List.drop_succ_cons, List.drop_zero, Turtle.take_spanLength]

theorem numberDatatype_double {chars : List Char} (h : 'e' ∈ chars ∨ 'E' ∈ chars) :
    numberDatatype (String.ofList chars) = Xsd.double := by
  rw [numberDatatype, String.toList_ofList, if_pos]
  rw [List.any_eq_true]
  obtain h | h := h
  · exact ⟨'e', h, rfl⟩
  · exact ⟨'E', h, rfl⟩

theorem numberDatatype_noExponent {chars : List Char} (h : 'e' ∉ chars ∧ 'E' ∉ chars) :
    numberDatatype (String.ofList chars) = if chars.contains '.' then Xsd.decimal else Xsd.integer := by
  rw [numberDatatype, String.toList_ofList, if_neg]
  rw [List.any_eq_true]
  rintro ⟨d, hd, he⟩
  obtain rfl | rfl := of_decide_eq_true he
  · exact h.1 hd
  · exact h.2 hd

/-- Queries tell the datatype of a number from its characters as documents tell it from its kind. -/
theorem numberDatatype_of_documents {text : List Char} {kind : Turtle.NumberKind} {m : Nat}
    (h : Turtle.numberLength? text = some (kind, m)) :
    numberDatatype (Turtle.lexemeText text m) = kind.datatype := by
  have hwhole {d : Char} (hd : d ∈ numberSigns) : d ∉ text.take (Turtle.wholeLength text) :=
    fun hmem => not_mem_numberSigns_of_mem_take hmem hd
  rw [Turtle.lexemeText]
  rw [Turtle.numberLength?] at h
  split at h
  · next hdouble =>
    cases h
    rw [Turtle.doubleLength?_eq] at hdouble
    obtain ⟨k, hk, rfl⟩ := Option.map_eq_some_iff.1 hdouble
    rw [List.take_add]
    exact numberDatatype_double ((exists_of_powerLength? hk).imp (List.mem_append_right _) (List.mem_append_right _))
  · split at h
    · next hdecimal =>
      cases h
      rw [Turtle.decimalLength?_eq] at hdecimal
      obtain ⟨k, hk, rfl⟩ := Option.map_eq_some_iff.1 hdecimal
      obtain ⟨digits, htake, hdigits⟩ := take_of_fractionLength? hk
      have hsmall {d : Char} (hd : d ∈ numberSigns) : d ∉ digits := fun hmem =>
        not_mem_numberSigns_of_digit (hdigits d hmem) hd
      rw [List.take_add, htake, numberDatatype_noExponent]
      · simp [Turtle.NumberKind.datatype]
      · simp [hwhole (d := 'e') (by decide), hwhole (d := 'E') (by decide), hsmall (d := 'e') (by decide),
          hsmall (d := 'E') (by decide)]
    · obtain ⟨k, hk, hpair⟩ := Option.map_eq_some_iff.1 h
      cases hpair
      obtain ⟨whole, hlength, rfl⟩ := Option.map_eq_some_iff.1 hk
      rw [Turtle.digitsLength?] at hlength
      split_ifs at hlength
      cases hlength
      change numberDatatype (String.ofList (text.take (Turtle.wholeLength text))) = _
      rw [numberDatatype_noExponent ⟨hwhole (by decide), hwhole (by decide)⟩]
      simp [hwhole (d := '.') (by decide), Turtle.NumberKind.datatype]

theorem isLocalChar_of_documents {d : Char} (h : d ≠ ':' ∧ d ≠ '%')
    (hd : Turtle.isLocalChar d = true) : isLocalChar d = true := by
  simpa [Turtle.isLocalChar, isLocalChar, h] using hd

theorem isLocalChar_imp {d : Char} (hd : isLocalChar d = true) : Turtle.isLocalChar d = true := by
  rw [isLocalChar] at hd
  rw [Turtle.isLocalChar, hd]
  rfl

/-- The local part of a name reaches as far in queries as in documents if it holds no sign that only
documents know. -/
theorem localLength_of_documents {text : List Char}
    (h : ∀ d ∈ text.take (Turtle.localLength text), d ≠ ':' ∧ d ≠ '%') :
    localLength text = Turtle.localLength text := by
  induction text with
  | nil => rfl
  | cons c text ih =>
    rw [Turtle.localLength] at h ⊢
    rw [localLength]
    split_ifs at h with hc
    · rw [if_pos hc]
      rw [List.take_succ_cons, List.forall_mem_cons] at h
      rw [ih h.2, if_pos]
      rw [Bool.or_eq_true, Bool.and_eq_true] at hc ⊢
      refine hc.imp (isLocalChar_of_documents h.1) fun hpoint => ⟨hpoint.1, ?_⟩
      obtain ⟨d, hd, hlocal⟩ := (Option.any_eq_true _ _).1 hpoint.2
      obtain ⟨tail, rfl⟩ := List.head?_eq_some_iff.1 hd
      refine (Option.any_eq_true _ _).2 ⟨d, rfl, isLocalChar_of_documents (h.2 d ?_) hlocal⟩
      rw [Turtle.localLength, hlocal, Bool.true_or, if_pos rfl, List.take_succ_cons]
      exact List.mem_cons_self
    · rw [if_neg hc, if_neg]
      rw [Bool.or_eq_true, Bool.and_eq_true] at hc ⊢
      refine mt (Or.imp isLocalChar_imp fun hpoint => ⟨hpoint.1, ?_⟩) hc
      obtain ⟨d, hd, hlocal⟩ := (Option.any_eq_true _ _).1 hpoint.2
      exact (Option.any_eq_true _ _).2 ⟨d, hd, isLocalChar_imp hlocal⟩

theorem tokenLength?_of_scanName {label name : String}
    (h : Turtle.scanName c rest = .ok (.name label name, n)) (hshared : IsShared (.name label name)) :
    tokenLength? (c :: rest) = some (.name, n + 1) := by
  obtain ⟨more, hwhole, hlocal, rfl, hlabel⟩ := Turtle.exists_of_scanName h
  refine tokenLength?_of_mem_startKinds (by decide) ?_
  have hname : localLength (name.toList ++ more) = name.toList.length := by
    rw [localLength_of_documents, hlocal]
    rw [hlocal, List.take_left]
    exact hshared.2
  change nameLength? (c :: rest) = _
  rw [hwhole, nameLength?_append ⟨hshared.1, hlabel⟩ hname]
  congr 1
  omega

/-- A word that queries know is no prefix in them if it is none in documents. -/
theorem nameLength?_of_documents (h : Turtle.labelLength? (c :: rest) = none)
    (hc : isAsciiLetter c = true) : nameLength? (c :: rest) = none := by
  have hstart : Turtle.isNameStart c = true := by
    have hlt : c.toNat < 128 := by
      rw [isAsciiLetter_iff] at hc
      omega
    have hall := forall_ascii (fun c => !isAsciiLetter c || Turtle.isNameStart c) (by decide) c hlt
    simpa [hc] using hall
  rw [Turtle.labelLength?_cons, if_pos hstart] at h
  have hcolon : ((c :: rest).drop (spanLength isLabelChar (c :: rest))).head? ≠ some ':' := by
    intro hcolon
    cases (if_pos hcolon).symm.trans h
  simp only [nameLength?, List.head?_cons, Option.any_some, hc, if_true, hcolon, if_false]

/-- The words for truth values end in queries where they end in documents. -/
theorem tokenLength?_of_scanName_word {w : String} {word : List Char}
    (h : Turtle.scanName c (word ++ more) = .ok (.word w, word.length)) (hw : w = "true" ∨ w = "false")
    (hmore : Turtle.Breaks more) :
    tokenLength? (c :: (word ++ more)) = some (.word, word.length + 1) := by
  obtain ⟨hlabel, hstart, -, hword⟩ := Turtle.exists_of_scanName_word h
  have hletters : ∀ d ∈ c :: word, isWordChar d = true := by
    rw [← List.cons_append, ← List.length_cons (a := c), Turtle.lexemeText_append] at hword
    have htext : c :: word = w.toList := by rw [hword, String.toList_ofList]
    rw [htext]
    obtain rfl | rfl := hw <;> decide
  have hend : ∀ d ∈ more.head?, isWordChar d = false := by
    have hall : ∀ d ∈ Turtle.breakChars, isWordChar d = false := by decide
    exact fun d hd => hall d (hmore.mem_breakChars d hd)
  exact tokenLength?_word hstart (fun d hd => hletters d (List.mem_cons_of_mem c hd)) hend
    (nameLength?_of_documents hlabel hstart)

theorem matches_of_scanIri {reference : String}
    (h : Turtle.scanIri rest = .ok (.iri reference, rest.length)) :
    Matches (.iri reference) ⟨.iri, String.ofList ('<' :: rest)⟩ := by
  obtain ⟨body, more, rfl, hl, hlength⟩ := Turtle.exists_of_scanIri h
  cases hl
  obtain rfl : more = [] := by simpa using hlength
  have htext : String.ofList ('<' :: (body ++ ['>'])) = referenceText (String.ofList body) := by
    rw [← String.toList_inj]
    simp [referenceText]
  exact htext ▸ .iri _

theorem matches_of_scanText {value : String} (hquote : c = '"' ∨ c = '\'')
    (h : Turtle.scanText c rest = .ok (.text value, rest.length)) :
    Matches (.text value) ⟨.string, String.ofList (c :: rest)⟩ := by
  obtain ⟨written, more, chars, hrest, hl, hlength, hquoted⟩ := Turtle.exists_of_scanText h
  cases hl
  obtain rfl : more = [] := by simpa [hrest] using hlength
  rw [List.append_nil] at hrest
  subst hrest
  refine .text fun position => ?_
  rw [String.toList_ofList]
  exact unescape_of_isQuoted hquoted hquote rfl position

theorem matches_of_scanTag {tag : String} (h : Turtle.scanTag rest = .ok (.languageTag tag, rest.length))
    (hascii : ∀ d ∈ tag.toList, d.toNat < 128) :
    Matches (.languageTag tag) ⟨.languageTag, String.ofList ('@' :: rest)⟩ := by
  obtain ⟨-, rfl⟩ := Turtle.exists_of_scanTag h
  have htext : String.ofList ('@' :: rest) = "@" ++ Turtle.lexemeText rest rest.length := by
    rw [← String.toList_inj]
    simp [Turtle.lexemeText]
  exact htext ▸ .languageTag hascii

theorem matches_of_scanNumber {kind : Turtle.NumberKind} {digits : String}
    (h : Turtle.scanNumber c rest = .ok (.number kind digits, rest.length)) :
    Matches (.number kind digits) ⟨.number, String.ofList (c :: rest)⟩ := by
  obtain ⟨m, hm, rfl, hlength⟩ := Turtle.exists_of_scanNumber h
  have hne := numberLength?_ne_zero hm
  obtain rfl : m = (c :: rest).length := by
    rw [List.length_cons]
    omega
  have hdatatype := numberDatatype_of_documents hm
  rw [Turtle.lexemeText, List.take_length] at hdatatype ⊢
  exact .number hdatatype

theorem matches_of_scanName {label name : String}
    (h : Turtle.scanName c rest = .ok (.name label name, rest.length)) :
    Matches (.name label name) ⟨.name, String.ofList (c :: rest)⟩ := by
  obtain ⟨more, hwhole, -, hlength, hlabel⟩ := Turtle.exists_of_scanName h
  have hnil : more = [] := by
    have hlengths := congrArg List.length hwhole
    simp only [List.length_cons, List.length_append] at hlengths
    exact List.length_eq_zero_iff.1 (by omega)
  have htext : String.ofList (c :: rest) = label ++ ":" ++ name := by
    rw [← String.toList_inj, String.toList_ofList, hwhole, hnil]
    simp
  refine htext ▸ .name label name fun hcolon => ?_
  have hfalse : Turtle.isNameChar ':' = false := by decide
  rw [hlabel ':' hcolon] at hfalse
  cases hfalse

theorem matches_of_scanName_word {w : String} (h : Turtle.scanName c rest = .ok (.word w, rest.length)) :
    Matches (.word w) ⟨.word, String.ofList (c :: rest)⟩ := by
  obtain ⟨-, -, -, rfl⟩ := Turtle.exists_of_scanName_word h
  have htext : String.ofList (c :: rest) = Turtle.lexemeText (c :: rest) (rest.length + 1) := by
    simp [Turtle.lexemeText]
  exact htext ▸ .word _

/-- The kind of the tokens of queries that are written like a lexeme of documents. Where queries have no such tokens,
it is of no account. -/
def kindOf : Turtle.Lexeme → TokenKind
  | .iri _ => .iri
  | .text _ => .string
  | .languageTag _ => .languageTag
  | .number .. => .number
  | .name .. => .name
  | _ => .word

theorem matches_of_isScanned {l : Turtle.Lexeme} (h : l.IsScanned c rest rest.length) (hshared : IsShared l)
    (hascii : ∀ tag, l = .languageTag tag → ∀ d ∈ tag.toList, d.toNat < 128) :
    Matches l ⟨kindOf l, String.ofList (c :: rest)⟩ := by
  cases l with
  | iri reference =>
    obtain ⟨rfl, h⟩ := h
    exact matches_of_scanIri h
  | text value => exact matches_of_scanText h.1 h.2
  | languageTag tag =>
    obtain ⟨rfl, h⟩ := h
    exact matches_of_scanTag h (hascii tag rfl)
  | number kind digits => exact matches_of_scanNumber h
  | name label name => exact matches_of_scanName h
  | word w => exact matches_of_scanName_word h
  | directive => exact hshared.elim
  | blankNode => exact hshared.elim
  | mark => exact hshared.elim

theorem tokenLength?_of_isScanned {l : Turtle.Lexeme} {word : List Char}
    (h : l.IsScanned c (word ++ more) word.length) (hshared : IsShared l) (hmore : EndsBefore l more) :
    tokenLength? (c :: (word ++ more)) = some (kindOf l, word.length + 1) := by
  cases l with
  | iri reference =>
    obtain ⟨rfl, h⟩ := h
    exact tokenLength?_of_scanIri h hshared
  | text value => exact tokenLength?_of_scanText h.1 h.2
  | languageTag tag =>
    obtain ⟨rfl, h⟩ := h
    exact tokenLength?_of_scanTag h
  | number kind digits =>
    refine tokenLength?_of_scanNumber h ?_
    rintro rfl
    rw [List.drop_left]
    exact hmore.2 digits rfl
  | name label name => exact tokenLength?_of_scanName h hshared
  | word w => exact tokenLength?_of_scanName_word h hshared hmore.1
  | directive => exact hshared.elim
  | blankNode => exact hshared.elim
  | mark => exact hshared.elim

/-- The token of a query that a word is. -/
theorem exists_matches_of_isWord {word : List Char} {l : Turtle.Lexeme} (h : Turtle.IsWord word l)
    (hshared : IsShared l) :
    ∃ kind, Matches l ⟨kind, String.ofList word⟩ ∧ ∀ more others, EndsBefore l more → Lexes more others →
      Lexes (word ++ more) (⟨kind, String.ofList word⟩ :: others) := by
  obtain ⟨c, rest, rfl, hstarts, hblank, hscan⟩ := h
  have hcomment : c ≠ '#' := by
    rintro rfl
    cases hstarts
  have hmatches : Matches l ⟨kindOf l, String.ofList (c :: rest)⟩ := by
    refine matches_of_isScanned (Turtle.isScanned_of_scan hscan) hshared ?_
    rintro tag rfl
    exact (Turtle.isTagText_of_scan hscan).2
  refine ⟨kindOf l, hmatches, fun more others hmore hothers => ?_⟩
  have hscanned := Turtle.isScanned_of_scan (Turtle.scan_append hscan hmore.1)
  exact hothers.token (layoutLength?_eq_none _ hblank hcomment) (tokenLength?_of_isScanned hscanned hshared hmore)

end

end CommandOntology.Query
