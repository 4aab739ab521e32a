import Mathlib.Algebra.BigOperators.Group.List.Basic
import CommandOntology.Proofs.ExportedDocuments
import CommandOntology.Proofs.StorageOrder

set_option autoImplicit false

namespace CommandOntology

open Text Turtle

theorem isSmallTag_of_isCanonicalTag {tag : String} (h : IsCanonicalTag tag) : IsSmallTag tag := by
  have htext := isTagText_of_tagLength? h.isTag
  rw [lexemeText, List.take_length, String.ofList_toList] at htext
  have hsmall := isSmallTag_asciiLower htext
  rwa [h.isSmall, String.ofList_toList] at hsmall

theorem isWritten_of_isCanonical {t : Term} (h : IsCanonical t) : t.IsWritten := by
  match t, h with
  | .iri value, _ => trivial
  | .blank label, _ => trivial
  | .literal lexical none none, _ => exact Term.isWritten_plain lexical
  | .literal lexical (some datatype) none, h => exact Term.isWritten_typed lexical h.2
  | .literal lexical none (some tag), h => exact Term.isWritten_tagged lexical (isSmallTag_of_isCanonicalTag h)

theorem isCanonical_node {t : Term} (h : IsCanonical t) : IsCanonical t.node := by
  match t, h with
  | .iri value, h => exact h
  | .blank label, h => exact h
  | .literal lexical none none, _ => trivial
  | .literal lexical (some datatype) none, h =>
    obtain ⟨text, hnode⟩ := (isWritten_of_isCanonical h).node_literal
    have hne : datatype ≠ "" := by
      rintro rfl
      exact absurd h.1.isAbsolute (by decide)
    rw [hnode, Option.filter_some, if_pos (decide_eq_true hne)]
    exact h
  | .literal lexical none (some tag), h =>
    obtain ⟨text, hnode⟩ := (isWritten_of_isCanonical h).node_literal
    rw [hnode]
    exact h

section

variable {triples : List Triple} (h : ∀ t ∈ triples, IsCanonicalTriple t)

include h

theorem isWritten_of_isCanonicalTriple : ∀ t ∈ triples, t.IsWritten := by
  intro t ht
  obtain ⟨hresource, -, ⟨iri, hiri, -⟩, hobject⟩ := h t ht
  exact ⟨hresource, ⟨iri, hiri⟩, isWritten_of_isCanonical hobject⟩

theorem isCanonicalTriple_nodeTriples : ∀ t ∈ nodeTriples triples, IsCanonicalTriple t := by
  intro t ht
  obtain ⟨u, hu, rfl⟩ := List.mem_map.1 ht
  obtain ⟨hresource, hsubject, ⟨iri, hpredicate, hiri⟩, hobject⟩ := h u hu
  refine ⟨?_, isCanonical_node hsubject, ⟨iri, ?_, hiri⟩, isCanonical_node hobject⟩
  · rw [Triple.mapTerms, Term.node_of_isResource _ hresource]
    exact hresource
  · rw [Triple.mapTerms, hpredicate]
    rfl

theorem statements_ofList : (Graph.ofList triples).statements = distinct (nodeTriples triples) :=
  SortedStore.statements_nodeTriples (areGivenOut_of_isWritten (isWritten_of_isCanonicalTriple h))

end

def Term.texts : Term → List String
  | .iri value => [value]
  | .blank label => [label]
  | .literal lexical datatype language => lexical :: (datatype.toList ++ language.toList)

def Triple.texts (t : Triple) : List String :=
  t.terms.flatMap Term.texts

namespace Lines

theorem isLine_append (a b : String) : IsLine (a ++ b) ↔ IsLine a ∧ IsLine b := by
  simp only [IsLine, String.toList_append, List.forall_mem_append]

theorem isLine_quotedText_iff (text : String) :
    IsLine (quotedText text) ↔ DocumentFormat.lines.Keeps text := by
  refine ⟨fun hline c hc hend => ?_, Export.isLine_quotedText⟩
  have hescaped : ∀ c ∈ ['\\', '"'], isLineEnd c = false := by decide
  by_contra hother
  rw [not_or] at hother
  have hchar : lineChar c = [c] := by
    unfold lineChar
    rw [if_neg, if_neg, if_neg hother.1, if_neg hother.2]
    all_goals
      rintro rfl
      exact absurd (hend.symm.trans (hescaped _ (by simp))) (by simp)
  have hin : c ∈ (quotedText text).toList := by
    rw [toList_quotedText]
    refine List.mem_cons_of_mem _ (List.mem_append_left _ (List.mem_flatMap.2 ⟨c, hc, ?_⟩))
    rw [hchar]
    exact List.mem_singleton_self c
  exact absurd (hend.symm.trans (hline c hin)) (by simp)

theorem isLine_iff_keeps {text : String} (hfeed : '\n' ∉ text.toList) (hreturn : '\r' ∉ text.toList) :
    IsLine text ↔ DocumentFormat.lines.Keeps text := by
  refine ⟨Export.keeps_of_isLine, fun hkeeps c hc => ?_⟩
  rw [← Bool.not_eq_true]
  intro hend
  obtain rfl | rfl := hkeeps c hc hend
  exacts [hfeed hc, hreturn hc]

theorem isLine_iff_of_isCanonicalIri {iri : String} (h : IsCanonicalIri iri) :
    IsLine iri ↔ DocumentFormat.lines.Keeps iri :=
  isLine_iff_keeps (h.not_mem (by decide)) (h.not_mem (by decide))

theorem mem_label {label : String} (h : IsCanonicalLabel label) :
    ∀ c ∈ label.toList, isNameChar c = true := by
  unfold IsCanonicalLabel at h
  cases hlabel : label.toList with
  | nil => simp
  | cons c rest =>
    rw [hlabel, blankLabelLength?] at h
    split_ifs at h with hc
    have hdrop := (List.dropWhile_suffix (· == '.') (l := (rest.takeWhile isNameChar).reverse)).length_le
    rw [List.length_reverse, Nat.add_right_cancel (Option.some.inj h)] at hdrop
    have hall := (List.takeWhile_prefix isNameChar).eq_of_length_le hdrop
    refine List.forall_mem_cons.2 ⟨by simp [isNameChar, hc], fun d hd => ?_⟩
    exact List.mem_takeWhile_imp (hall ▸ hd)

theorem isLine_iff_of_isCanonicalLabel {label : String} (h : IsCanonicalLabel label) :
    IsLine label ↔ DocumentFormat.lines.Keeps label := by
  have hends : ∀ c ∈ ['\n', '\r'], isNameChar c = false := by decide
  have hmem (c : Char) (hc : c ∈ ['\n', '\r']) : c ∉ label.toList := fun hin =>
    absurd ((mem_label h c hin).symm.trans (hends c hc)) (by simp)
  exact isLine_iff_keeps (hmem '\n' (by simp)) (hmem '\r' (by simp))

theorem isLine_wordText {t : Term} (h : IsCanonical t) :
    IsLine (wordText t) ↔ ∀ text ∈ t.texts, DocumentFormat.lines.Keeps text := by
  have hmark : ∀ mark ∈ ["<", ">", "_:", "^^<", "@"], IsLine mark := by decide
  simp only [List.forall_mem_cons] at hmark
  match t, h with
  | .iri value, h =>
    simp [wordText, Term.lineForm, Term.texts, isLine_append, hmark, isLine_iff_of_isCanonicalIri h]
  | .blank label, h =>
    simp [wordText, Term.lineForm, Term.texts, isLine_append, hmark, isLine_iff_of_isCanonicalLabel h]
  | .literal lexical none none, _ =>
    simp [wordText, Term.texts, Term.literalMark_none, isLine_quotedText_iff]
  | .literal lexical (some datatype) none, h =>
    have hne : datatype ≠ "" := by
      rintro rfl
      exact absurd h.1.isAbsolute (by decide)
    simp [wordText, Term.texts, Term.literalMark_type datatype hne h.2, isLine_append,
      isLine_quotedText_iff, hmark, isLine_iff_of_isCanonicalIri h.1]
  | .literal lexical none (some tag), h =>
    have hne : tag ≠ "" := by
      rintro rfl
      exact absurd h.isTag (by decide)
    have htag := isLine_of_isCanonicalTag h
    simp [wordText, Term.texts, Term.literalMark_tag none tag hne, isLine_append,
      isLine_quotedText_iff, hmark, htag, Export.keeps_of_isLine htag]

theorem isOneLine_iff {t : Triple} (h : IsCanonicalTriple t) :
    IsOneLine t ↔ ∀ text ∈ t.texts, DocumentFormat.lines.Keeps text := by
  have hblank : IsLine " " := by decide
  have hdot : IsLine " ." := by decide
  simp only [IsOneLine, statementText, isLine_append, hblank, hdot, and_true, isLine_wordText h.subject,
    isLine_wordText h.isCanonical_predicate, isLine_wordText h.object, Triple.texts, Triple.terms,
    List.flatMap_cons, List.flatMap_nil, List.append_nil, List.forall_mem_append, and_assoc]

theorem lines_append (before after : List Char) {c : Char} (hc : isLineEnd c = true) :
    lines (before ++ c :: after) = lines before ++ lines after := by
  simp only [lines_eq, List.splitOnP_append_cons _ _ hc]

theorem flatten_lines (text : List Char) : (lines text).flatten = text.filter fun c => !isLineEnd c := by
  induction text with
  | nil => rfl
  | cons c text ih =>
    rw [lines]
    split_ifs with hc
    · simp [hc, ih]
    · cases hlines : lines text <;> simp_all

theorem not_mem_keptLines (text : String) : ∀ line ∈ keptLines text, '\n' ∉ line.toList := by
  intro line hline hin
  obtain ⟨chars, hchars, rfl⟩ := List.mem_map.1 (List.mem_filter.1 hline).1
  rw [String.toList_ofList] at hin
  have hmem : '\n' ∈ (lines text.toList).flatten := List.mem_flatten.2 ⟨chars, hchars, hin⟩
  rw [flatten_lines, List.mem_filter] at hmem
  exact absurd hmem.2 (by decide)

def lineCount (text : List Char) : Nat :=
  (lines text).countP fun line => !(trim line).isEmpty

theorem length_keptLines (text : String) : (keptLines text).length = lineCount text.toList := by
  rw [keptLines, ← List.countP_eq_length_filter, List.countP_map, lineCount]
  congr 1
  funext line
  rw [Function.comp_apply, String.toList_ofList]

theorem lineCount_append (before after : List Char) {c : Char} (hc : isLineEnd c = true) :
    lineCount (before ++ c :: after) = lineCount before + lineCount after := by
  rw [lineCount, lines_append before after hc, List.countP_append]
  rfl

theorem one_le_lineCount {text : List Char} {c : Char} (hc : c ∈ text) (hend : isLineEnd c = false)
    (hblank : isBlank c = false) : 1 ≤ lineCount text := by
  have hin : c ∈ (lines text).flatten := by
    rw [flatten_lines, List.mem_filter, hend]
    exact ⟨hc, rfl⟩
  obtain ⟨line, hline, hin⟩ := List.mem_flatten.1 hin
  refine List.countP_pos_iff.2 ⟨line, hline, ?_⟩
  rw [Bool.not_eq_true', ← Bool.not_eq_true, trim_isEmpty_iff]
  intro hall
  exact absurd ((hall c hin).symm.trans hblank) (by simp)

theorem toList_statementText {t : Triple} (h : t.subject.isResource = true) :
    ∃ first middle, (statementText t).toList = first :: (middle ++ ['.']) ∧
      isLineEnd first = false ∧ isBlank first = false := by
  have hsigns : ∀ c ∈ ['<', '_'], isLineEnd c = false ∧ isBlank c = false := by decide
  simp only [List.forall_mem_cons] at hsigns
  obtain ⟨first, rest, hsubject, hends⟩ : ∃ first rest, (wordText t.subject).toList = first :: rest ∧
      isLineEnd first = false ∧ isBlank first = false := by
    cases hs : t.subject with
    | iri value => exact ⟨'<', value.toList ++ ['>'], by simp [wordText, Term.lineForm], hsigns.1⟩
    | blank label => exact ⟨'_', ':' :: label.toList, by simp [wordText, Term.lineForm], hsigns.2.1⟩
    | literal lexical datatype language =>
      rw [hs] at h
      cases h
  refine ⟨first, rest ++ ' ' :: ((wordText t.predicate).toList ++ ' ' ::
    ((wordText t.object).toList ++ [' '])), ?_, hends⟩
  simp [statementText, hsubject]

theorem two_le_lineCount {t : Triple} (h : t.subject.isResource = true) (hline : ¬IsOneLine t) :
    2 ≤ lineCount (statementText t).toList := by
  have hdot : isLineEnd '.' = false ∧ isBlank '.' = false := by decide
  obtain ⟨first, middle, htext, hfirst, hsign⟩ := toList_statementText h
  obtain ⟨c, hc, hend⟩ : ∃ c ∈ (statementText t).toList, isLineEnd c = true := by
    simpa [IsOneLine, IsLine] using hline
  obtain ⟨before, after, hsplit⟩ := List.append_of_mem hc
  -- The end of a line is neither the first character nor the last one.
  have hbefore : first ∈ before := by
    cases before with
    | nil =>
      obtain ⟨rfl, -⟩ := List.cons.inj (htext.symm.trans hsplit)
      exact absurd (hend.symm.trans hfirst) (by simp)
    | cons d before =>
      obtain ⟨rfl, -⟩ := List.cons.inj (htext.symm.trans hsplit)
      exact List.mem_cons_self
  have hafter : '.' ∈ after := by
    have hlast : (before ++ c :: after).getLast? = some '.' := by
      rw [← hsplit, htext, ← List.cons_append, List.getLast?_concat]
    cases after with
    | nil =>
      rw [List.getLast?_concat] at hlast
      rw [Option.some.inj hlast] at hend
      exact absurd (hend.symm.trans hdot.1) (by simp)
    | cons d after =>
      rw [List.getLast?_append_cons, List.getLast?_cons_cons] at hlast
      exact List.mem_of_getLast? hlast
  rw [hsplit, lineCount_append _ _ hend]
  exact Nat.add_le_add (one_le_lineCount hbefore hfirst hsign)
    (one_le_lineCount hafter hdot.1 hdot.2)

theorem lineCount_eq_one_iff {t : Triple} (h : t.subject.isResource = true) :
    lineCount (statementText t).toList = 1 ↔ IsOneLine t := by
  constructor
  · intro hone
    by_contra hline
    have htwo := two_le_lineCount h hline
    omega
  · intro hline
    rw [← length_keptLines, keptLines_statementText hline, List.length_singleton]

theorem one_le_lineCount_statementText {t : Triple} (h : t.subject.isResource = true) :
    1 ≤ lineCount (statementText t).toList := by
  by_cases hline : IsOneLine t
  · exact ((lineCount_eq_one_iff h).2 hline).ge
  · exact (two_le_lineCount h hline).trans' one_le_two

/-- Numbers that are all positive add up to how many they are just if each is one. -/
theorem sum_map_eq_length_iff {α : Type} (f : α → Nat) (xs : List α) (h : ∀ x ∈ xs, 1 ≤ f x) :
    (xs.map f).sum = xs.length ↔ ∀ x ∈ xs, f x = 1 := by
  induction xs with
  | nil => simp
  | cons x xs ih =>
    obtain ⟨hx, hxs⟩ := List.forall_mem_cons.1 h
    have hle := List.length_le_sum_of_one_le (xs.map f) (List.forall_mem_map.2 hxs)
    rw [List.length_map] at hle
    rw [List.map_cons, List.sum_cons, List.length_cons, List.forall_mem_cons, ← ih hxs]
    omega

theorem count_join (texts : List String) (h : ∀ text ∈ texts, '\n' ∉ text.toList) :
    (String.join (texts.map (· ++ "\n"))).toList.count '\n' = texts.length := by
  induction texts with
  | nil => rfl
  | cons text texts ih =>
    obtain ⟨htext, htexts⟩ := List.forall_mem_cons.1 h
    have hnone := List.count_eq_zero_of_not_mem htext
    rw [List.map_cons, String.join_cons, String.toList_append, List.count_append, ih htexts,
      String.toList_append, List.count_append, hnone, List.length_cons, Nat.add_comm]
    rfl

/-- A document has as many lines as its statements just if each of them takes one line. -/
theorem count_write (g : Graph) (hcanonical : ∀ t ∈ g.statements, IsCanonicalTriple t) :
    ∃ text, write g = .ok text ∧
      (text.toList.count '\n' = g.statements.length ↔ ∀ t ∈ g.statements, IsOneLine t) := by
  refine ⟨_, write_eq_join g hcanonical, ?_⟩
  rw [count_join, List.length_mergeSort, List.length_flatMap]
  · simp only [length_keptLines]
    rw [sum_map_eq_length_iff _ _ fun t ht => one_le_lineCount_statementText (hcanonical t ht).isResource]
    exact forall₂_congr fun t ht => lineCount_eq_one_iff (hcanonical t ht).isResource
  · intro line hline
    obtain ⟨t, -, hline⟩ := List.mem_flatMap.1 (List.mem_mergeSort.1 hline)
    exact not_mem_keptLines _ line hline

end Lines

/-- Statements of the shape that documents give to terms can be written as lines. There is one line for
each statement of their graph just if no text has a line end but line feeds and carriage returns, and
then the lines are read as these statements. They are the statements themselves if a graph keeps their
values. -/
theorem writeTriples_lines (namespaces : List (String × String)) {triples : List Triple}
    (h : ∀ t ∈ triples, IsCanonicalTriple t) :
    ∃ text, writeTriples namespaces triples .lines = .ok text ∧
      (text.toList.count '\n' = (distinct (nodeTriples triples)).length ↔
        ∀ t ∈ nodeTriples triples, ∀ s ∈ t.texts, DocumentFormat.lines.Keeps s) ∧
      ((∀ t ∈ nodeTriples triples, ∀ s ∈ t.texts, DocumentFormat.lines.Keeps s) →
        ∃ us, us.Perm (distinct (nodeTriples triples)) ∧ text = Lines.document us ∧
          ∀ options : ParserOptions, 1 ≤ options.capacity → options.functional = [] →
            ∃ d, Turtle.parse options text = .ok d ∧ d.triples = us.map readTriple) ∧
      ((∀ t ∈ triples, t.object.node = t.object) → nodeTriples triples = triples) := by
  have hnodes := isCanonicalTriple_nodeTriples h
  have hstatements := statements_ofList h
  have hcanonical : ∀ t ∈ (Graph.ofList triples).statements, IsCanonicalTriple t := by
    rw [hstatements]
    exact fun t ht => hnodes t ((mem_distinct t _).1 ht)
  have hline : (∀ t ∈ (Graph.ofList triples).statements, Lines.IsOneLine t) ↔
      ∀ t ∈ nodeTriples triples, ∀ s ∈ t.texts, DocumentFormat.lines.Keeps s := by
    simp only [hstatements, mem_distinct]
    exact forall₂_congr fun t ht => Lines.isOneLine_iff (hnodes t ht)
  obtain ⟨text, hwrite, hcount⟩ := Lines.count_write (.ofList triples) hcanonical
  rw [hline, hstatements] at hcount
  refine ⟨text, writeTriples_eq_write namespaces h hwrite, hcount, fun hkept => ?_,
    nodeTriples_eq_of_isWritten (isWritten_of_isCanonicalTriple h)⟩
  obtain ⟨us, hperm, hdocument⟩ := Lines.write_eq (.ofList triples) hcanonical (hline.2 hkept)
  obtain rfl := Except.ok.inj (hwrite.symm.trans hdocument)
  refine ⟨us, hstatements ▸ hperm, rfl, fun options hcapacity hfunctional => ?_⟩
  have hus : ∀ t ∈ us, IsCanonicalTriple t := fun t ht => hcanonical t (hperm.mem_iff.1 ht)
  have hnodup : us.Nodup := (hstatements ▸ hperm).nodup_iff.2 (nodup_distinct _)
  obtain ⟨hread, hdistinct⟩ := parse_eq_ok_of_givesOut hcapacity (Lines.lexemes?_document us hus)
    (givesOut_lines options us hus)
  obtain ⟨d, hd⟩ := hread.2 (hfunctional ▸ isSingleValued_nil _)
  refine ⟨d, hd, ?_⟩
  rw [hdistinct d hd, distinct_map readTriple_injective, distinct_eq_self us hnodup]

theorem writeTriples_lines_noteTriples :
    ∃ text us, writeTriples [] noteTriples .lines = .ok text ∧ us.Perm (distinct noteTriples) ∧
      text = Lines.document us ∧ text.toList.count '\n' = 2 ∧
      ∃ d, Turtle.parse { functional := [] } text = .ok d ∧ d.triples = us.map readTriple := by
  obtain ⟨text, hwrite, hcount, hread, hnodes⟩ := writeTriples_lines [] isCanonicalTriple_noteTriples
  have hsame : nodeTriples noteTriples = noteTriples := hnodes (by decide)
  rw [hsame] at hcount hread
  have hkept : ∀ t ∈ noteTriples, ∀ s ∈ t.texts, DocumentFormat.lines.Keeps s := by
    unfold DocumentFormat.Keeps
    decide
  obtain ⟨us, hperm, hdocument, hparse⟩ := hread hkept
  have htwo : (distinct noteTriples).length = 2 := by decide
  exact ⟨text, us, hwrite, hperm, hdocument, (hcount.2 hkept).trans htwo, hparse _ (by decide) rfl⟩

def separatedTriple : Triple :=
  ⟨.iri "a:s", .iri "a:p", .plain "a\u2028b"⟩

theorem isCanonicalTriple_separatedTriple : IsCanonicalTriple separatedTriple := by
  have hs : IsCanonicalIri "a:s" := ⟨by decide, by decide⟩
  have hp : IsCanonicalIri "a:p" := ⟨by decide, by decide⟩
  exact ⟨rfl, hs, ⟨_, rfl, hp⟩, trivial⟩

/-- The separator ends a line inside the text, and no document is read from the two lines. -/
theorem writeTriples_separatedTriple :
    IsCanonicalTriple separatedTriple ∧
      ∃ text, writeTriples [] [separatedTriple] .lines = .ok text ∧ text.toList.count '\n' = 2 ∧
        ∀ d, Turtle.parse { functional := [] } text ≠ .ok d := by
  have hcanonical : ∀ t ∈ [separatedTriple], IsCanonicalTriple t :=
    List.forall_mem_singleton.2 isCanonicalTriple_separatedTriple
  have hstatements : (Graph.ofList [separatedTriple]).statements = [separatedTriple] := by
    decide
  have hkept : Lines.keptLines (Lines.statementText separatedTriple) =
      ["<a:s> <a:p> \"a", "b\" ."] := by
    decide
  have hwrite := Lines.write_eq_join (Graph.ofList [separatedTriple]) (hstatements ▸ hcanonical)
  rw [hstatements, List.flatMap_singleton, hkept, List.mergeSort_of_pairwise (by decide)] at hwrite
  refine ⟨isCanonicalTriple_separatedTriple, _, writeTriples_eq_write [] hcanonical hwrite,
    by decide, fun d hd => ?_⟩
  have hfails : (Turtle.parse { functional := [] }
      (String.join (["<a:s> <a:p> \"a", "b\" ."].map (· ++ "\n")))).isOk = false := by
    decide
  rw [hd] at hfails
  cases hfails

end CommandOntology
