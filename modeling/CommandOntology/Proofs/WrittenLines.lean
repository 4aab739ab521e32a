import CommandOntology.Export.Document
import CommandOntology.Proofs.ExportedTerms

set_option autoImplicit false

namespace CommandOntology.Lines

open CommandOntology.Text CommandOntology.Turtle

def lineChar (c : Char) : List Char :=
  if c = '\\' then ['\\', '\\'] else if c = '"' then ['\\', '"'] else if c = '\n' then ['\\', 'n']
  else if c = '\r' then ['\\', 'r'] else [c]

theorem toList_quotedText (text : String) :
    (quotedText text).toList = '"' :: (text.toList.flatMap lineChar ++ ['"']) := by
  have hchar : lineChar = fun c => replaceChar '\r' ['\\', 'r'] (replaceChar '"' ['\\', '"']
      (replaceChar '\n' ['\\', 'n'] (replaceChar '\\' ['\\', '\\'] [c]))) := by
    funext c
    unfold lineChar
    split_ifs with hslash hquote hline hreturn <;> simp_all [replaceChar]
  have hall : replaceChar '\r' ['\\', 'r'] (replaceChar '"' ['\\', '"'] (replaceChar '\n' ['\\', 'n']
      (replaceChar '\\' ['\\', '\\'] text.toList))) = text.toList.flatMap lineChar := by
    rw [hchar]
    simp [replaceChar, List.flatMap_assoc]
  rw [quotedText, String.toList_ofList, hall]
  rfl

theorem isEscaping_lineChar (text : List Char) : IsEscaping lineChar text := by
  intro c _
  unfold lineChar
  split_ifs with hslash hquote hline hreturn
  · exact .inr ⟨'\\', rfl, by rw [hslash]; rfl⟩
  · exact .inr ⟨'"', rfl, by rw [hquote]; rfl⟩
  · exact .inr ⟨'n', rfl, by rw [hline]; rfl⟩
  · exact .inr ⟨'r', rfl, by rw [hreturn]; rfl⟩
  · exact .inl ⟨rfl, hslash, hquote, hline⟩

theorem lexemes?_quotedText (lexical : String) (rest : List Char) (hr : rest.head? ≠ some '"') :
    lexemes? ((quotedText lexical).toList ++ rest) = (lexemes? rest).map (.text lexical :: ·) := by
  have htext := lexemes?_shortText lineChar lexical.toList rest (isEscaping_lineChar lexical.toList) hr
  rw [String.ofList_toList] at htext
  rw [toList_quotedText, List.cons_append, List.append_assoc, List.singleton_append]
  exact htext

def wordText : Term → String
  | .literal lexical datatype language => quotedText lexical ++ Term.literalMark datatype language
  | t => t.lineForm

theorem termText_eq (t : Term) (ht : IsCanonical t) : termText t = .ok (wordText t) := by
  match t, ht with
  | .iri value, ht => rw [termText, if_pos (isWritable_of_isCanonicalIri ht)]; rfl
  | .blank label, _ => rfl
  | .literal lexical none none, _ =>
    rw [wordText, Term.literalMark_none, String.append_empty]
    rfl
  | .literal lexical (some datatype) none, ht =>
    have hne : datatype ≠ "" := by
      rintro rfl
      exact absurd ht.1.isAbsolute (by decide)
    rw [wordText, Term.literalMark_type datatype hne ht.2]
    simp [termText, String.append_assoc]
  | .literal lexical none (some tag), ht =>
    have hne : tag ≠ "" := by
      rintro rfl
      exact absurd ht.isTag (by decide)
    rw [wordText, Term.literalMark_tag none tag hne]
    simp [termText, String.append_assoc]

theorem lexemes?_wordText (t : Term) (ht : IsCanonical t) (rest : List Char) :
    lexemes? ((wordText t).toList ++ ' ' :: rest) = (lexemes? rest).map (termLexemes t ++ ·) := by
  cases t with
  | iri value => exact lexemes?_resource _ ht rfl rest
  | blank label => exact lexemes?_resource _ ht rfl rest
  | literal lexical datatype language =>
    rw [wordText, String.toList_append, List.append_assoc]
    exact lexemes?_literal ht (lexemes?_quotedText lexical) rest

def statementText (t : Triple) : String :=
  wordText t.subject ++ " " ++ wordText t.predicate ++ " " ++ wordText t.object ++ " ."

def IsLine (text : String) : Prop :=
  ∀ c ∈ text.toList, isLineEnd c = false

instance (text : String) : Decidable (IsLine text) :=
  inferInstanceAs (Decidable (∀ c ∈ text.toList, isLineEnd c = false))

theorem IsLine.append {a b : String} (ha : IsLine a) (hb : IsLine b) : IsLine (a ++ b) := by
  intro c hc
  rw [String.toList_append, List.mem_append] at hc
  exact hc.elim (ha c) (hb c)

def IsOneLine (t : Triple) : Prop :=
  IsLine (statementText t)

theorem isOneLine_of_isLine {t : Triple} (hs : IsLine (wordText t.subject))
    (hp : IsLine (wordText t.predicate)) (ho : IsLine (wordText t.object)) : IsOneLine t :=
  have hblank : IsLine " " := by decide
  ((((hs.append hblank).append hp).append hblank).append ho).append (by decide : IsLine " .")

theorem tripleText_eq (t : Triple) (ht : IsCanonicalTriple t) : tripleText t = .ok (statementText t) := by
  rw [tripleText, termText_eq _ ht.subject, termText_eq _ ht.isCanonical_predicate,
    termText_eq _ ht.object]
  rfl

theorem lexemes?_statementText (t : Triple) (ht : IsCanonicalTriple t) (rest : List Char) :
    lexemes? ((statementText t).toList ++ rest) = (lexemes? rest).map (tripleLexemes t ++ ·) := by
  have hstatement := lexemes?_statement (lexemes?_wordText t.subject ht.subject)
    (lexemes?_wordText t.predicate ht.isCanonical_predicate) (lexemes?_wordText t.object ht.object) rest
  simpa [statementText] using hstatement

theorem lines_eq (text : List Char) : lines text = text.splitOnP isLineEnd := by
  induction text with
  | nil => rw [lines, List.splitOnP_nil]
  | cons c text ih =>
    rw [lines, List.splitOnP_cons_eq_if_modifyHead, ih]
    cases h : text.splitOnP isLineEnd with
    | nil => exact absurd h (List.splitOnP_ne_nil _ _)
    | cons line others => rfl

theorem lines_eq_singleton (text : List Char) (h : ∀ c ∈ text, isLineEnd c = false) :
    lines text = [text] := by
  rw [lines_eq, List.splitOnP_eq_singleton h]

theorem trim_statementText (t : Triple) : (trim (statementText t).toList).isEmpty = false := by
  have hdot : '.' ∈ (statementText t).toList := by simp [statementText]
  rw [← Bool.not_eq_true, trim_isEmpty_iff]
  intro hall
  exact absurd (hall '.' hdot) (by decide)

def document (ts : List Triple) : String :=
  String.join (ts.map fun t => statementText t ++ "\n")

theorem lexemes?_document (ts : List Triple) (hts : ∀ t ∈ ts, IsCanonicalTriple t) :
    lexemes? (document ts).toList = some (ts.flatMap tripleLexemes) := by
  induction ts with
  | nil => rfl
  | cons t ts ih =>
    have ht := lexemes?_statementText t (hts t List.mem_cons_self) ('\n' :: (document ts).toList)
    rw [lexemes?_layout '\n' _ (by decide), ih fun u hu => hts u (List.mem_cons_of_mem t hu)] at ht
    have hcons : (document (t :: ts)).toList =
        (statementText t).toList ++ '\n' :: (document ts).toList := by
      simp [document, String.join_cons]
    rw [hcons, ht]
    rfl

theorem mapM_tripleText (ts : List Triple) (hts : ∀ t ∈ ts, IsCanonicalTriple t) :
    ts.mapM tripleText = .ok (ts.map statementText) := by
  obtain ⟨texts, htexts, hall⟩ := mapM_ok_of_forall tripleText
    (fun t text => statementText t = text) ts fun t ht => ⟨_, tripleText_eq t (hts t ht), rfl⟩
  rw [← List.forall₂_map_left_iff, List.forall₂_eq_eq_eq] at hall
  rw [htexts, hall]

def keptLines (text : String) : List String :=
  ((lines text.toList).map String.ofList).filter fun line => !(trim line.toList).isEmpty

theorem keptLines_statementText {t : Triple} (h : IsOneLine t) :
    keptLines (statementText t) = [statementText t] := by
  rw [keptLines, lines_eq_singleton _ h, List.map_singleton, String.ofList_toList, List.filter_singleton,
    trim_statementText]
  rfl

theorem write_eq_join (g : Graph) (hcanonical : ∀ t ∈ g.statements, IsCanonicalTriple t) :
    write g = .ok (String.join (((g.statements.flatMap fun t => keptLines (statementText t)).mergeSort
      fun a b => decide (a ≤ b)).map (· ++ "\n"))) := by
  rw [write, mapM_tripleText _ hcanonical]
  change Except.ok _ = _
  rw [List.flatMap_map, List.filter_flatMap]
  rfl

/-- Statements that take one line each are written as their lines, in order. -/
theorem write_eq (g : Graph) (hcanonical : ∀ t ∈ g.statements, IsCanonicalTriple t)
    (hline : ∀ t ∈ g.statements, IsOneLine t) : ∃ ts, ts.Perm g.statements ∧
      write g = .ok (document ts) := by
  have hkept : (g.statements.flatMap fun t => keptLines (statementText t)) =
      g.statements.map statementText := by
    rw [List.flatMap_congr fun t ht => keptLines_statementText (hline t ht), List.map_eq_flatMap]
  refine ⟨g.statements.mergeSort fun t u => decide (statementText t ≤ statementText u),
    List.mergeSort_perm _ _, ?_⟩
  have hsort : (g.statements.mergeSort fun t u => decide (statementText t ≤ statementText u)).map
      statementText = (g.statements.map statementText).mergeSort (fun a b => decide (a ≤ b)) :=
    List.map_mergeSort fun _ _ _ _ => rfl
  rw [write_eq_join g hcanonical, hkept, ← hsort, List.map_map]
  rfl

end CommandOntology.Lines

namespace CommandOntology

open Text Turtle

theorem splitOn_eq (separator : Char) (text : List Char) :
    splitOn separator text = text.splitOn separator := by
  induction text with
  | nil => rw [splitOn, List.splitOn_nil]
  | cons c text ih =>
    rw [splitOn, List.splitOn_cons_eq_if_modifyHead, ih]
    simp only [beq_iff_eq]
    cases h : text.splitOn separator with
    | nil => exact absurd h (List.splitOn_ne_nil _ _)
    | cons part parts => rfl

/-- Letters and digits, one at least, as they stand behind a dash of a language tag. -/
def IsSubtag (part : List Char) : Prop :=
  part ≠ [] ∧ part.all isAsciiAlphanumeric = true

theorem isAsciiAlphanumeric_dash : isAsciiAlphanumeric '-' = false := by
  decide

/-- Subtags that are read to their end have letters or digits between their dashes. -/
theorem splitOn_subtags (text : List Char) (h : subtagLength text = text.length) :
    ∃ first rest, splitOn '-' text = first :: rest ∧ first.all isAsciiAlphanumeric = true ∧
      (text.head?.any isAsciiAlphanumeric = true → first ≠ []) ∧ ∀ part ∈ rest, IsSubtag part := by
  induction text with
  | nil => exact ⟨[], [], rfl, rfl, by simp, by simp⟩
  | cons c text ih =>
    rw [subtagLength] at h
    split_ifs at h with hc
    rw [List.length_cons, Nat.add_right_cancel_iff] at h
    obtain ⟨first, rest, hsplit, hfirst, hne, hrest⟩ := ih h
    by_cases hdash : c = '-'
    · subst hdash
      have hnext : text.head?.any isAsciiAlphanumeric = true := by
        simpa [isAsciiAlphanumeric_dash] using hc
      refine ⟨[], first :: rest, by rw [splitOn, if_pos rfl, hsplit], rfl,
        by simp [isAsciiAlphanumeric_dash], ?_⟩
      exact List.forall_mem_cons.2 ⟨⟨hne hnext, hfirst⟩, hrest⟩
    · have halpha : isAsciiAlphanumeric c = true := by simpa [hdash] using hc
      exact ⟨c :: first, rest, by rw [splitOn, if_neg hdash, hsplit], by simp [halpha, hfirst], by simp,
        hrest⟩

theorem mem_subtags (text : List Char) (h : subtagLength text = text.length) :
    ∀ c ∈ text, isAsciiAlphanumeric c = true ∨ c = '-' := by
  induction text with
  | nil => simp
  | cons c text ih =>
    rw [subtagLength] at h
    split_ifs at h with hc
    rw [List.length_cons, Nat.add_right_cancel_iff] at h
    refine List.forall_mem_cons.2 ⟨?_, ih h⟩
    rw [Bool.or_eq_true, Bool.and_eq_true, beq_iff_eq] at hc
    exact hc.imp_right And.left

theorem exists_subtags {text : List Char} (h : tagLength? text = some text.length) :
    ∃ letters rest, text = letters ++ rest ∧ letters ≠ [] ∧ letters.all isAsciiLetter = true ∧
      subtagLength rest = rest.length ∧ (rest = [] ∨ rest.head? = some '-') := by
  obtain ⟨letters, rest, rfl, hletters, hspan⟩ : ∃ letters rest, text = letters ++ rest ∧
      letters.all isAsciiLetter = true ∧ spanLength isAsciiLetter text = letters.length :=
    ⟨_, _, List.takeWhile_append_dropWhile.symm, List.all_takeWhile, rfl⟩
  rw [tagLength?, hspan] at h
  dsimp only at h
  rw [List.drop_left, List.length_append] at h
  split_ifs at h with hzero hhead
  · exact ⟨letters, rest, rfl, fun hnil => hzero (by rw [hnil]; rfl), hletters,
      Nat.add_left_cancel (Option.some.inj h), .inr hhead⟩
  · obtain rfl : rest = [] := List.eq_nil_of_length_eq_zero (by simpa using h)
    exact ⟨letters, [], rfl, fun hnil => hzero (by rw [hnil]; rfl), hletters, rfl, .inl rfl⟩

theorem mem_tag {text : List Char} (h : tagLength? text = some text.length) :
    ∀ c ∈ text, isAsciiAlphanumeric c = true ∨ c = '-' := by
  obtain ⟨letters, rest, rfl, -, hletters, hrest, -⟩ := exists_subtags h
  refine List.forall_mem_append.2 ⟨fun c hc => .inl ?_, mem_subtags rest hrest⟩
  simp [isAsciiAlphanumeric, List.all_eq_true.1 hletters c hc]

theorem isLine_of_isCanonicalTag {tag : String} (h : IsCanonicalTag tag) : Lines.IsLine tag := by
  intro c hc
  have hunreserved : Iri.isUnreserved c = true := by
    obtain halpha | rfl := mem_tag h.isTag c hc
    · simp [Iri.isUnreserved, halpha]
    · decide
  exact (Export.isLegal_of_isPathChar c (.inr (.inl hunreserved))).2

theorem isLanguageTag_of_tagLength? {tag : String} (h : tagLength? tag.toList = some tag.toList.length) :
    Term.isLanguageTag tag = true := by
  obtain ⟨letters, rest, htag, hne, hletters, hrest, hhead⟩ := exists_subtags h
  have hlast : tag.toList.getLast? ≠ some '\n' := fun hlast =>
    absurd (mem_tag h '\n' (List.mem_of_getLast? hlast)) (by decide)
  have hmem : '-' ∉ letters := fun hin => absurd (List.all_eq_true.1 hletters '-' hin) (by decide)
  have hparts : ∃ parts, splitOn '-' tag.toList = letters :: parts ∧ ∀ part ∈ parts, IsSubtag part := by
    obtain rfl | hhead := hhead
    · exact ⟨[], by rw [htag, List.append_nil, splitOn_eq, List.splitOn_eq_singleton hmem], by simp⟩
    · obtain ⟨subtags, rfl⟩ := List.head?_eq_some_iff.1 hhead
      obtain ⟨first, parts, hsplit, -, -, hparts⟩ := splitOn_subtags _ hrest
      rw [splitOn, if_pos rfl] at hsplit
      obtain ⟨-, hparts'⟩ := List.cons.inj hsplit
      refine ⟨_, ?_, hparts⟩
      rw [htag, splitOn_eq, List.splitOn_append_cons_self_of_not_mem hmem, ← splitOn_eq, hparts']
  obtain ⟨parts, hsplit, hparts⟩ := hparts
  have hall : (parts.all fun part => !part.isEmpty && part.all isAsciiAlphanumeric) = true :=
    List.all_eq_true.2 fun part hpart => by simpa [IsSubtag] using hparts part hpart
  unfold Term.isLanguageTag
  dsimp only
  rw [if_neg hlast, hsplit]
  simp [hne, hletters, hall]

theorem checkTags_eq_ok {terms : List Term} (h : ∀ t ∈ terms, t.faultyTag? = none) : checkTags terms = .ok () := by
  rw [checkTags, List.findSome?_eq_none_iff.2 h]

theorem checkTags_terms {triples : List Triple} (h : ∀ t ∈ triples, IsCanonicalTriple t) :
    checkTags (triples.flatMap Triple.terms) = .ok () := by
  have hterm (t : Term) (ht : IsCanonical t) : t.faultyTag? = none := by
    match t, ht with
    | .iri value, _ => rfl
    | .blank label, _ => rfl
    | .literal lexical none none, _ => rfl
    | .literal lexical (some datatype) none, _ => rfl
    | .literal lexical none (some tag), ht => simp [Term.faultyTag?, isLanguageTag_of_tagLength? ht.isTag]
  refine checkTags_eq_ok fun x hx => ?_
  obtain ⟨t, ht, hx⟩ := List.mem_flatMap.1 hx
  exact hterm x ((h t ht).terms x hx)

theorem writeTriples_eq_write (namespaces : List (String × String)) {triples : List Triple}
    (h : ∀ t ∈ triples, IsCanonicalTriple t) {text : String}
    (hwrite : Lines.write (.ofList triples) = .ok text) :
    writeTriples namespaces triples .lines = .ok text := by
  rw [writeTriples, checkTags_terms h]
  change (Lines.write (.ofList triples)).mapError _ = _
  rw [hwrite]
  rfl

theorem writeTriples_eq_write_graph (namespaces : List (String × String)) {triples : List Triple}
    (h : ∀ t ∈ triples, IsCanonicalTriple t) {text : String}
    (hwrite : Turtle.write (documentPrefixes namespaces) (.ofList triples) = .ok text) :
    writeTriples namespaces triples .turtle = .ok text := by
  rw [writeTriples, checkTags_terms h]
  change (Turtle.write (documentPrefixes namespaces) (.ofList triples)).mapError _ = _
  rw [hwrite]
  rfl

end CommandOntology
