import CommandOntology.Proofs.QuotedTexts
import CommandOntology.Proofs.SpelledStatements
import CommandOntology.Proofs.TermOrder

set_option autoImplicit false

namespace CommandOntology.Turtle

open CommandOntology.Text

def IsCanonicalLabel (label : String) : Prop :=
  blankLabelLength? label.toList = some label.toList.length

structure IsCanonicalTag (tag : String) : Prop where
  isTag : tagLength? tag.toList = some tag.toList.length
  isSmall : tag.toList.map asciiLower = tag.toList
  isNoDirective : Directive.ofText? tag = none

/-- A term of the shape that documents give to terms. A text has a datatype or a language tag or
neither, and that of plain strings is left out. -/
def IsCanonical : Term → Prop
  | .iri value => IsCanonicalIri value
  | .blank label => IsCanonicalLabel label
  | .literal _ none none => True
  | .literal _ (some datatype) none => IsCanonicalIri datatype ∧ datatype ≠ Xsd.string
  | .literal _ none (some tag) => IsCanonicalTag tag
  | .literal _ (some _) (some _) => False

structure IsCanonicalTriple (t : Triple) : Prop where
  isResource : t.subject.isResource = true
  subject : IsCanonical t.subject
  predicate : ∃ iri, t.predicate = .iri iri ∧ IsCanonicalIri iri
  object : IsCanonical t.object

def termLexemes : Term → List Lexeme
  | .iri value => [.iri value]
  | .blank label => [.blankNode label]
  | .literal lexical _ (some tag) => [.text lexical, .languageTag tag]
  | .literal lexical (some datatype) none => [.text lexical, .mark .datatype, .iri datatype]
  | .literal lexical none none => [.text lexical]

def tripleLexemes (t : Triple) : List Lexeme :=
  termLexemes t.subject ++ termLexemes t.predicate ++ termLexemes t.object ++ [.mark .dot]

theorem isEscaping_literalChar (text : List Char) : IsEscaping Term.literalChar text := by
  intro c _
  unfold Term.literalChar
  split_ifs with hslash hquote hline hreturn htab
  · exact .inr ⟨'\\', rfl, by rw [hslash]; rfl⟩
  · exact .inr ⟨'"', rfl, by rw [hquote]; rfl⟩
  · exact .inr ⟨'n', rfl, by rw [hline]; rfl⟩
  · exact .inr ⟨'r', rfl, by rw [hreturn]; rfl⟩
  · exact .inr ⟨'t', rfl, by rw [htab]; rfl⟩
  · exact .inl ⟨rfl, hslash, hquote, hline⟩

theorem lexemes?_quotedLiteral (lexical : String) (rest : List Char) (hr : rest.head? ≠ some '"') :
    lexemes? ((Term.quotedLiteral lexical).toList ++ rest) =
      (lexemes? rest).map (.text lexical :: ·) := by
  have htext := lexemes?_shortText Term.literalChar lexical.toList rest
    (isEscaping_literalChar lexical.toList) hr
  rw [String.ofList_toList] at htext
  rw [Term.quotedLiteral, String.toList_ofList, List.append_assoc, List.singleton_append]
  exact htext

theorem endsToken_space : EndsToken ' ' :=
  .inl rfl

/-- A literal is read, however its text is quoted, if a blank follows it. -/
theorem lexemes?_literal {quoted : List Char} {lexical : String} {datatype language : Option String}
    (ht : IsCanonical (.literal lexical datatype language))
    (hq : ∀ rest, rest.head? ≠ some '"' →
      lexemes? (quoted ++ rest) = (lexemes? rest).map (.text lexical :: ·)) (rest : List Char) :
    lexemes? (quoted ++ ((Term.literalMark datatype language).toList ++ ' ' :: rest)) =
      (lexemes? rest).map (termLexemes (.literal lexical datatype language) ++ ·) := by
  have hspace : lexemes? (' ' :: rest) = lexemes? rest := lexemes?_layout ' ' rest (by decide)
  match datatype, language, ht with
  | none, none, _ =>
    have htext := hq (' ' :: rest) (by simp)
    rw [hspace] at htext
    simpa [Term.literalMark_none, termLexemes] using htext
  | some datatype, none, ht =>
    have hne : datatype ≠ "" := by
      rintro rfl
      exact absurd ht.1.isAbsolute (by decide)
    have htext := hq ('^' :: '^' :: '<' :: (datatype.toList ++ '>' :: ' ' :: rest)) (by simp)
    rw [lexemes?_datatype, lexemes?_canonicalIri ht.1, hspace] at htext
    rw [Term.literalMark_type datatype hne ht.2]
    simpa [termLexemes, Function.comp_def] using htext
  | none, some tag, ht =>
    have hne : tag ≠ "" := by
      rintro rfl
      exact absurd ht.isTag (by decide)
    have htext := hq ('@' :: (tag.toList ++ ' ' :: rest)) (by simp)
    have htag := lexemes?_languageTag tag.toList ' ' rest ht.isTag
      (by rw [String.ofList_toList]; exact ht.isNoDirective) endsToken_space
    rw [htag, hspace] at htext
    rw [Term.literalMark_tag none tag hne]
    simpa [termLexemes, Function.comp_def] using htext

theorem lexemes?_resource (t : Term) (ht : IsCanonical t) (hr : t.isResource = true)
    (rest : List Char) :
    lexemes? (t.lineForm.toList ++ ' ' :: rest) = (lexemes? rest).map (termLexemes t ++ ·) := by
  have hspace : lexemes? (' ' :: rest) = lexemes? rest := lexemes?_layout ' ' rest (by decide)
  cases t with
  | iri value =>
    have hiri := lexemes?_canonicalIri ht (' ' :: rest)
    rw [hspace] at hiri
    simpa [Term.lineForm, termLexemes] using hiri
  | blank label =>
    have hlabel := lexemes?_blankNode label.toList ' ' rest ht endsToken_space
    rw [hspace] at hlabel
    simpa [Term.lineForm, termLexemes] using hlabel
  | literal lexical datatype language => cases hr

theorem lexemes?_lineForm (t : Term) (ht : IsCanonical t) (rest : List Char) :
    lexemes? (t.lineForm.toList ++ ' ' :: rest) = (lexemes? rest).map (termLexemes t ++ ·) := by
  cases t with
  | iri value => exact lexemes?_resource _ ht rfl rest
  | blank label => exact lexemes?_resource _ ht rfl rest
  | literal lexical datatype language =>
    rw [Term.lineForm, String.toList_append, List.append_assoc]
    exact lexemes?_literal ht (lexemes?_quotedLiteral lexical) rest

theorem lexemes?_statement {s p o : List Char} {t : Triple}
    (hs : ∀ rest, lexemes? (s ++ ' ' :: rest) = (lexemes? rest).map (termLexemes t.subject ++ ·))
    (hp : ∀ rest, lexemes? (p ++ ' ' :: rest) = (lexemes? rest).map (termLexemes t.predicate ++ ·))
    (ho : ∀ rest, lexemes? (o ++ ' ' :: rest) = (lexemes? rest).map (termLexemes t.object ++ ·))
    (rest : List Char) : lexemes? (s ++ ' ' :: (p ++ ' ' :: (o ++ ' ' :: '.' :: rest))) =
      (lexemes? rest).map (tripleLexemes t ++ ·) := by
  rw [hs, hp, ho, lexemes?_mark '.' rest .dot rfl]
  simp [tripleLexemes, Function.comp_def]

theorem IsCanonicalTriple.isCanonical_predicate {t : Triple} (ht : IsCanonicalTriple t) :
    IsCanonical t.predicate := by
  obtain ⟨iri, hp, hiri⟩ := ht.predicate
  rw [hp]
  exact hiri

theorem IsCanonicalTriple.terms {t : Triple} (ht : IsCanonicalTriple t) : ∀ x ∈ t.terms, IsCanonical x := by
  intro x hx
  simp only [Triple.terms, List.mem_cons, List.not_mem_nil, or_false] at hx
  obtain rfl | rfl | rfl := hx
  · exact ht.subject
  · exact ht.isCanonical_predicate
  · exact ht.object

theorem lexemes?_tripleLineForm (t : Triple) (ht : IsCanonicalTriple t) (rest : List Char) :
    lexemes? (t.lineForm.toList ++ rest) = (lexemes? rest).map (tripleLexemes t ++ ·) := by
  have hstatement := lexemes?_statement (lexemes?_lineForm t.subject ht.subject)
    (lexemes?_lineForm t.predicate ht.isCanonical_predicate) (lexemes?_lineForm t.object ht.object) rest
  simpa [Triple.lineForm] using hstatement

def linesText (ts : List Triple) : String :=
  "\n".intercalate (ts.map Triple.lineForm)

theorem lexemes?_linesText (ts : List Triple) (hts : ∀ t ∈ ts, IsCanonicalTriple t) :
    lexemes? (linesText ts).toList = some (ts.flatMap tripleLexemes) := by
  rw [linesText, String.toList_intercalate]
  induction ts with
  | nil => rfl
  | cons t ts ih =>
    have ht := hts t List.mem_cons_self
    have htail := ih fun u hu => hts u (List.mem_cons_of_mem t hu)
    cases ts with
    | nil =>
      have hlast := lexemes?_tripleLineForm t ht []
      simpa [lexemes?_nil] using hlast
    | cons u ts =>
      have hnext : lexemes? ('\n' :: ("\n".toList.intercalate (((u :: ts).map Triple.lineForm).map String.toList))) =
          some ((u :: ts).flatMap tripleLexemes) := by
        rw [lexemes?_layout '\n' _ (by decide), htail]
      have hfirst := lexemes?_tripleLineForm t ht
        ('\n' :: ("\n".toList.intercalate (((u :: ts).map Triple.lineForm).map String.toList)))
      rw [hnext] at hfirst
      simpa [List.intercalate_cons_cons] using hfirst

def tripleBlock (t : Triple) : Block :=
  ⟨t.subject, [(t.predicate, [t.object])]⟩

def lineSpelling : Spelling :=
  ⟨termLexemes, termLexemes⟩

theorem block_tripleBlock (t : Triple) : lineSpelling.block (tripleBlock t) = tripleLexemes t := by
  simp [Spelling.block, Spelling.properties, Spelling.property, Spelling.objects, lineSpelling, tripleBlock,
    tripleLexemes]

theorem triples_tripleBlock (t : Triple) : (tripleBlock t).triples = [t] := by
  simp [Block.triples, tripleBlock]

theorem spells_termLexemes (namespaces : Namespaces) (t : Term) (ht : IsCanonical t) :
    Spells namespaces (termLexemes t) (readTerm t) := by
  match t, ht with
  | .iri value, ht => exact .iri (.reference ht)
  | .blank label, _ => exact .blank label
  | .literal lexical none none, _ => exact .plain lexical
  | .literal lexical (some datatype) none, ht => exact .typed lexical (.reference ht.1) ht.2
  | .literal lexical none (some tag), ht => exact .tagged lexical ht.isSmall

theorem isSpelledBlock_tripleBlock (namespaces : Namespaces) (t : Triple) (ht : IsCanonicalTriple t) :
    IsSpelledBlock namespaces lineSpelling (tripleBlock t) := by
  obtain ⟨iri, hp, hiri⟩ := ht.predicate
  have hpredicate : SpellsPredicate namespaces (termLexemes t.predicate) (readTerm t.predicate) := by
    rw [hp]
    exact .iri (.reference hiri)
  have hobject := spells_termLexemes namespaces t.object ht.object
  refine ⟨ht.isResource, spells_termLexemes namespaces _ ht.subject, List.cons_ne_nil _ _, ?_⟩
  rw [tripleBlock, List.forall_mem_singleton]
  exact ⟨hpredicate, List.cons_ne_nil _ _, List.forall_mem_singleton.2 hobject⟩

/-- The lexemes of lines give out their statements, in order. -/
theorem givesOut_lines (options : ParserOptions) (ts : List Triple) (hts : ∀ t ∈ ts, IsCanonicalTriple t) :
    GivesOut options (ts.flatMap tripleLexemes) (ts.map readTriple) := by
  intro tokens hl
  have hblocks : ts.flatMap tripleLexemes = (ts.map tripleBlock).flatMap lineSpelling.block := by
    rw [List.flatMap_map]
    simp only [block_tripleBlock]
  have htriples : (ts.map tripleBlock).flatMap Block.triples = ts := by
    simp [List.flatMap_map, triples_tripleBlock]
  have hrun := run_blocks tokens.stop (.initial options.capacity.toNat options.base)
    (ts.map tripleBlock) (List.forall_mem_map.2 fun t ht => isSpelledBlock_tripleBlock _ t (hts t ht))
    (hl.trans hblocks)
  rwa [htriples] at hrun

theorem readTriple_injective : Function.Injective readTriple := by
  have hterm : Function.Injective readTerm := by
    intro a b h
    cases a <;> cases b <;> simp_all [readTerm, Scope.writtenLabel]
  rintro ⟨s, p, o⟩ ⟨s', p', o'⟩ h
  simp only [readTriple, Triple.mk.injEq] at h
  rw [hterm h.1, hterm h.2.1, hterm h.2.2]

/-- Statements written as lines are read as themselves, each once and in order. -/
theorem parse_linesText (options : ParserOptions) (ts : List Triple) (hcapacity : 1 ≤ options.capacity)
    (hfunctional : options.functional = []) (hts : ∀ t ∈ ts, IsCanonicalTriple t) :
    ∃ d, parse options (linesText ts) = .ok d ∧ d.triples = (distinct ts).map readTriple := by
  obtain ⟨hread, hdistinct⟩ := parse_eq_ok_of_givesOut hcapacity (lexemes?_linesText ts hts)
    (givesOut_lines options ts hts)
  obtain ⟨d, hd⟩ := hread.2 (hfunctional ▸ isSingleValued_nil _)
  exact ⟨d, hd, (hdistinct d hd).trans (distinct_map readTriple_injective ts)⟩

def noteTriples : List Triple :=
  [⟨.blank "n", .iri "x:note", .literal "say \"a\\b\"\n" none (some "en-gb")⟩,
    ⟨.blank "n", .iri "x:size", .literal "" (some "x:unit") none⟩,
    ⟨.blank "n", .iri "x:note", .literal "say \"a\\b\"\n" none (some "en-gb")⟩]

theorem isCanonicalTriple_noteTriples : ∀ t ∈ noteTriples, IsCanonicalTriple t := by
  have hiri (iri : String) (ha : Iri.isAbsolute iri.toList = true)
      (hl : iri.toList.all (fun c => !Scope.isIllegalInIri c) = true) : IsCanonicalIri iri :=
    ⟨ha, by simpa using hl⟩
  have hnote : IsCanonicalIri "x:note" := hiri _ (by decide) (by decide)
  have hsize : IsCanonicalIri "x:size" := hiri _ (by decide) (by decide)
  have hunit : IsCanonicalIri "x:unit" := hiri _ (by decide) (by decide)
  have hlabel : IsCanonicalLabel "n" := rfl
  have htag : IsCanonicalTag "en-gb" := ⟨by decide, by decide, by decide⟩
  intro t ht
  simp only [noteTriples, List.mem_cons, List.not_mem_nil, or_false] at ht
  obtain rfl | rfl | rfl := ht
  · exact ⟨rfl, hlabel, ⟨_, rfl, hnote⟩, htag⟩
  · exact ⟨rfl, hlabel, ⟨_, rfl, hsize⟩, hunit, by decide⟩
  · exact ⟨rfl, hlabel, ⟨_, rfl, hnote⟩, htag⟩

theorem parse_linesText_noteTriples :
    ∃ d, parse { functional := [] } (linesText noteTriples) = .ok d ∧
      d.triples = (distinct noteTriples).map readTriple :=
  parse_linesText { functional := [] } noteTriples (by decide) rfl isCanonicalTriple_noteTriples

end CommandOntology.Turtle
