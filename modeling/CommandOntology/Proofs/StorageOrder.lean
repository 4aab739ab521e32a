import CommandOntology.Proofs.AgreeingViews
import CommandOntology.Proofs.SortedAnswers
import CommandOntology.Proofs.StatementShapes
import CommandOntology.Proofs.Validation

set_option autoImplicit false

namespace CommandOntology

namespace Term

theorem node_of_isResource (t : Term) (h : t.isResource = true) : t.node = t :=
  (isSettled_of_isResource t h).node

/-- What a graph makes of a written literal: its language tag stays, and so does its datatype unless it
is empty. -/
theorem IsWritten.node_literal {lexical : String} {datatype language : Option String}
    (h : (literal lexical datatype language).IsWritten) :
    ∃ text, (literal lexical datatype language).node =
      .literal text (datatype.filter (· ≠ "")) language := by
  cases language with
  | none => exact ⟨_, rfl⟩
  | some tag =>
    obtain ⟨hone, -, htag⟩ := h
    have hnone : datatype = none := hone.resolve_right (by simp)
    have hne : tag ≠ "" := (htag tag rfl).1
    subst hnone
    exact ⟨lexical, by simp [node, Option.filter_some, hne]⟩

theorem IsWritten.node {t : Term} (h : t.IsWritten) : t.node.IsWritten := by
  cases t with
  | iri value => trivial
  | blank label => trivial
  | literal lexical datatype language =>
    obtain ⟨text, hnode⟩ := h.node_literal
    obtain ⟨hone, hstring, htag⟩ := h
    rw [hnode]
    exact ⟨hone.imp_left fun hnone => by rw [hnone]; rfl,
      fun hs => hstring (Option.filter_eq_some_iff.1 hs).1, htag⟩

theorem IsWritten.isMarked_node {t : Term} (h : t.IsWritten) : t.node.IsMarked := by
  cases t with
  | iri value => trivial
  | blank label => trivial
  | literal lexical datatype language =>
    obtain ⟨text, hnode⟩ := h.node_literal
    obtain ⟨hone, hstring, htag⟩ := h
    rw [hnode]
    refine ⟨hone.imp_left fun hnone => by rw [hnone]; rfl, ?_, ?_, ?_⟩
    · simp [Option.filter_eq_some_iff]
    · exact fun hs => hstring (Option.filter_eq_some_iff.1 hs).1
    · rintro rfl
      exact (htag "" rfl).1 rfl

theorem IsWritten.isGivenOut {t : Term} (h : t.IsWritten) : t.IsGivenOut := by
  cases t with
  | iri value => exact ⟨rfl, rfl⟩
  | blank label => exact ⟨rfl, rfl⟩
  | literal lexical datatype language =>
    obtain ⟨text, hnode⟩ := h.node_literal
    obtain ⟨-, hstring, htag⟩ := h
    constructor
    · rw [hnode, matchKey]
      cases language with
      | none => rfl
      | some tag => rw [Option.map_some, (htag tag rfl).2]
    · rw [hnode, ofNode]
      cases datatype with
      | none => rfl
      | some type =>
        have hne : type ≠ Xsd.string := fun he => hstring (congrArg some he)
        by_cases hempty : type = "" <;> simp [Option.filter_some, hempty, hne]

end Term

theorem Triple.IsWritten.terms {t : Triple} (h : t.IsWritten) : ∀ x ∈ t.terms, x.IsWritten := by
  obtain ⟨iri, hiri⟩ := h.predicate
  intro x hx
  simp only [Triple.terms, List.mem_cons, List.not_mem_nil, or_false] at hx
  obtain rfl | rfl | rfl := hx
  · exact Term.isWritten_of_isResource _ h.subject
  · exact Term.isWritten_of_isResource _ (hiri ▸ rfl)
  · exact h.object

theorem areGivenOut_of_isWritten {triples : List Triple} (h : ∀ t ∈ triples, t.IsWritten) :
    AreGivenOut triples :=
  fun t ht x hx => ((h t ht).terms x hx).isGivenOut

theorem isStatement_nodeTriples {triples : List Triple} (h : ∀ t ∈ triples, t.IsWritten) :
    ∀ t ∈ nodeTriples triples, t.IsStatement := by
  intro t ht
  obtain ⟨u, hu, rfl⟩ := List.mem_map.1 ht
  obtain ⟨hs, ⟨iri, hiri⟩, ho⟩ := h u hu
  refine ⟨?_, ⟨iri, ?_⟩, ho.isMarked_node⟩
  · rw [Triple.mapTerms, Term.node_of_isResource _ hs]
    exact hs
  · rw [Triple.mapTerms, hiri]
    rfl

theorem View.exists_reads_of_isWritten {triples : List Triple} (h : ∀ t ∈ triples, t.IsWritten)
    (backend : Backend) : ∃ g, (View.ofStore (.ofList backend triples)).Reads g := by
  cases backend with
  | memory => exact ⟨_, View.reads_memory triples⟩
  | sorted => exact ⟨_, View.reads_nodeTriples (areGivenOut_of_isWritten h)⟩

theorem nodeTriples_eq_of_isWritten {triples : List Triple} (h : ∀ t ∈ triples, t.IsWritten)
    (hkept : ∀ t ∈ triples, t.object.node = t.object) : nodeTriples triples = triples := by
  conv_rhs => rw [← List.map_id triples]
  refine List.map_congr_left fun t ht => ?_
  obtain ⟨iri, hiri⟩ := (h t ht).predicate
  rw [Triple.mapTerms, Term.node_of_isResource _ (h t ht).subject, hkept t ht,
    Term.node_of_isResource _ (hiri ▸ rfl), id]

theorem hasDistinctKeys_of_isStatement {triples : List Triple} (h : ∀ t ∈ triples, t.IsStatement) :
    HasDistinctKeys triples := by
  intro t ht u hu hkey
  obtain ⟨hsubject, hpredicate, hobject⟩ := Triple.Key.mk.inj hkey
  obtain ⟨hts, ⟨p, htp⟩, hto⟩ := h t ht
  obtain ⟨hus, ⟨q, huq⟩, huo⟩ := h u hu
  have hs := Term.lineForm_inj _ _ (Term.isMarked_of_isResource _ hts)
    (Term.isMarked_of_isResource _ hus) hsubject
  have hp := Term.lineForm_inj _ _ (Term.isMarked_of_isResource _ (htp ▸ rfl))
    (Term.isMarked_of_isResource _ (huq ▸ rfl)) hpredicate
  have ho := Term.lineForm_inj _ _ hto huo hobject
  cases t
  cases u
  simp_all

theorem report_podsAll (validator : Validator) {v : View} {c a value : Term}
    (h : v.Reads (podsAll c a [value])) (hc : c.isResource = true) (ha : a.isResource = true)
    (hread : View.boolean? value = none) : (validator.report v).isValid = false := by
  rw [← Bool.not_eq_true, report_isValid_iff]
  rintro ⟨-, hcardinality, -⟩
  have hin : c ∈ v.commands :=
    (h.mem_instances Cnv.command c).2 ((isCommand_podsAll c a [value] c).2 rfl)
  obtain ⟨-, -, -, harguments⟩ := (checkCardinality_eq_nil_iff v).1 hcardinality c hin
  have hargument (x : Term) : x ∈ v.arguments c ↔ x = a := by
    rw [View.arguments, h.mem_values, hasArgument_podsAll, and_iff_right hc, and_iff_right rfl]
  have hgood := (checkArguments_eq_nil_iff_named v c [] _ fun x hx _ => by
    rw [(hargument x).1 hx]
    exact (h.declared a).2 (declared_podsAll c a [value])).1 harguments
  have hcheck := (hgood.1 a ((hargument a).2 rfl)).2.2.1
  have hvalues : v.values a Cnv.required = [value] :=
    (values_eq_singleton_iff h a value Cnv.required ha).2 fun x => by
      rw [required_podsAll, and_iff_right rfl, List.mem_singleton]
  simp [Rule.checkValue, View.value?, hvalues, hread] at hcheck

def taggedText : String :=
  "@prefix c: <https://cnv.dev/ontology#> . <a:c> a c:Command ; c:handler 'run' , 'run'@EN , 1 ."

set_option maxRecDepth 2000 in
theorem parse_taggedText : (Turtle.parse {} taggedText).map (·.triples) =
    .ok [⟨.iri "a:c", .iri Rdf.type, .iri Cnv.command⟩, ⟨.iri "a:c", .iri Cnv.handler, .plain "run"⟩,
      ⟨.iri "a:c", .iri Cnv.handler, .literal "run" none (some "en")⟩,
      ⟨.iri "a:c", .iri Cnv.handler, .typed "1" Xsd.integer⟩] := by
  have hchars : taggedText.toList = _ := String.toList_ofList
  rw [Turtle.parse, hchars]
  decide +kernel

/-- A document in which a truth value has the empty datatype, written as a relative reference. -/
def podsAllText : String :=
  "@prefix cnv: <https://cnv.dev/ontology#> . @base <urn:a> . @base <#> .
<urn:c> a cnv:Command ; cnv:hasNoun 'pods' ; cnv:hasVerb 'list' ; cnv:handler 'run' ;
  cnv:hasArgument <urn:x> .
<urn:x> cnv:name 'all' ; cnv:required 'true'^^<#> ."

set_option maxRecDepth 4000 in
theorem parse_podsAllText :
    (Turtle.parse {} podsAllText).map (·.triples) =
      .ok (podsAll (.iri "urn:c") (.iri "urn:x") [.typed "true" ""]) := by
  have hchars : podsAllText.toList = _ := String.toList_ofList
  rw [Turtle.parse, hchars]
  decide +kernel

/-- What validation tells of an ontology: the report, and the index if nothing is rejected. -/
def Validator.outcome (validator : Validator) (o : Ontology) :
    Except ValidationError (Report × CommandIndex) :=
  (validator.validate o).map fun validated => (validated.report, validated.index)

theorem Validator.outcome_eq_of_agree (validator : Validator) {o o' : Ontology}
    (h : (View.ofStore o.store).Agree (View.ofStore o'.store)) :
    validator.outcome o = validator.outcome o' := by
  unfold outcome validate
  dsimp only
  rw [h.report validator, h.buildIndex]
  split_ifs
  · cases (View.ofStore o'.store).buildIndex <;> rfl
  · rfl

section

variable {options : Turtle.ParserOptions} {text : String} {d : Turtle.Document}
  (validator : Validator) (own : Option Validator)

/-- A store in memory gives the same outcome for the statements of a document in any order, if they have
different keys. -/
theorem outcome_memory_perm {triples ts : List Triple} (hs : ∀ t ∈ triples, t.subject.isResource = true)
    (hkey : HasDistinctKeys triples) (hp : ts.Perm triples) :
    validator.outcome (.ofDocument .memory own { d with triples := ts }) =
      validator.outcome (.ofDocument .memory own { d with triples := triples }) := by
  have hmem (t : Triple) (ht : t ∈ distinct ts) : t ∈ triples :=
    hp.mem_iff.1 ((mem_distinct t ts).1 ht)
  have hperm : (distinct ts).Perm (distinct triples) :=
    (List.perm_ext_iff_of_nodup (nodup_distinct _) (nodup_distinct _)).2 fun t => by
      rw [mem_distinct, mem_distinct, hp.mem_iff]
  exact validator.outcome_eq_of_agree ((View.reads_memory ts).agree (View.reads_memory triples) hperm
    (fun t ht => hs t (hmem t ht)) fun t ht u hu => hkey t (hmem t ht) u (hmem u hu))

theorem outcome_sorted {ts : List Triple} (ht : ∀ t ∈ ts, t.IsWritten) :
    validator.outcome (.ofDocument .sorted own { d with triples := ts }) =
      validator.outcome (.ofDocument .memory own { d with triples := nodeTriples ts }) := by
  have hg (t : Triple) (hin : t ∈ distinct (nodeTriples ts)) : t.IsStatement :=
    isStatement_nodeTriples ht t ((mem_distinct t _).1 hin)
  have hreads := View.reads_nodeTriples (areGivenOut_of_isWritten ht)
  -- Nodes show all their marks, so that no two of these statements share a key.
  exact validator.outcome_eq_of_agree (hreads.agree (View.reads_memory (nodeTriples ts)) (.refl _)
    (fun t hin => (hg t hin).subject) (hasDistinctKeys_of_isStatement hg))

/-- The order in which the statements of a document are stored has no part in the outcome of validation:
in a sorted store it is that of the nodes of the statements, and in a store in memory it is that of the
document, if different statements have different keys. Both kinds of stores give the same outcome if a
graph keeps the values as they are. -/
theorem validate_storage (h : Turtle.parse options text = .ok d) (ts : List Triple)
    (hp : ts.Perm d.triples) :
    let outcome := fun backend triples =>
      validator.outcome (.ofDocument backend own { d with triples := triples })
    outcome .sorted ts = outcome .memory (nodeTriples d.triples) ∧
      (HasDistinctKeys d.triples → outcome .memory ts = outcome .memory d.triples) ∧
      ((∀ t ∈ d.triples, t.object.node = t.object) →
        ∀ backend, outcome backend ts = outcome .memory d.triples) := by
  have hwritten := Turtle.parse_isWritten h
  have hstatement := isStatement_nodeTriples hwritten
  have hmemory (hkey : HasDistinctKeys d.triples) :
      validator.outcome (.ofDocument .memory own { d with triples := ts }) =
        validator.outcome (.ofDocument .memory own { d with triples := d.triples }) :=
    outcome_memory_perm validator own (fun t ht => (hwritten t ht).subject) hkey hp
  have hsorted : validator.outcome (.ofDocument .sorted own { d with triples := ts }) =
      validator.outcome (.ofDocument .memory own { d with triples := nodeTriples d.triples }) := by
    rw [outcome_sorted validator own fun t ht => hwritten t (hp.mem_iff.1 ht)]
    exact outcome_memory_perm validator own (fun t ht => (hstatement t ht).subject)
      (hasDistinctKeys_of_isStatement hstatement) (hp.map _)
  refine ⟨hsorted, hmemory, fun hkept backend => ?_⟩
  rw [nodeTriples_eq_of_isWritten hwritten hkept] at hsorted hstatement
  cases backend with
  | memory => exact hmemory (hasDistinctKeys_of_isStatement hstatement)
  | sorted => exact hsorted

end

theorem validate_storage_taggedText :
    ∃ d, Turtle.parse {} taggedText = .ok d ∧ d.triples.reverse.Perm d.triples ∧
      (∀ t ∈ d.triples, t.object.node = t.object) ∧
      ∀ backend,
        Validator.outcome {} (.ofDocument backend none { d with triples := d.triples.reverse }) =
          Validator.outcome {} (.ofDocument .memory none d) := by
  obtain ⟨d, hparse, htriples⟩ := (map_eq_ok_iff _ _ _).1 parse_taggedText
  have hkept : ∀ t ∈ d.triples, t.object.node = t.object := by
    rw [htriples]
    decide +kernel
  have hperm : d.triples.reverse.Perm d.triples := List.reverse_perm _
  exact ⟨d, hparse, hperm, hkept, (validate_storage {} none hparse _ hperm).2.2 hkept⟩

/-- In memory a literal with the empty datatype is no truth value; its node, which has none, is one. -/
theorem validate_storage_emptyDatatype :
    ∃ d, Turtle.parse {} podsAllText = .ok d ∧
      (∃ o, Validator.outcome {} (.ofDocument .sorted none d) = .ok o) ∧
      ∃ report, Validator.outcome {} (.ofDocument .memory none d) = .error (.rejected report) := by
  obtain ⟨d, hparse, htriples⟩ := (map_eq_ok_iff _ _ _).1 parse_podsAllText
  have hwritten := Turtle.parse_isWritten hparse
  let program := fun value => podsAll (.iri "urn:c") (.iri "urn:x") [value]
  have hreads (value : Term) : (View.ofStore (.ofList .memory (program value))).Reads (program value) := by
    have hnodup : (program value).Nodup := by
      simp [program, podsAll, Rdf.type, Cnv.hasNoun, Cnv.hasVerb, Cnv.handler, Cnv.hasArgument, Cnv.name,
        Cnv.required]
    have hreads := View.reads_memory (program value)
    rwa [distinct_eq_self _ hnodup] at hreads
  refine ⟨d, hparse, ?_, ?_⟩
  -- A graph drops the empty datatype, and a plain text is left, which is a truth value.
  · have hsorted := outcome_sorted (d := d) {} none hwritten
    have hstatement := isStatement_nodeTriples hwritten
    have hnodes : nodeTriples d.triples = program (.plain "true") := by
      rw [htriples]
      decide +kernel
    have hprogram : DescribesProgram (program (.plain "true")) :=
      describesProgram_podsAll _ _ _ rfl (List.forall_mem_singleton.2
        ⟨"true", none, none, rfl, .inl rfl, by unfold IsBooleanText; decide +kernel⟩)
    rw [hnodes] at hsorted hstatement
    obtain ⟨index, hindex⟩ := buildIndex_ok (hreads _) hstatement hprogram
    have hvalid := isValid_of_describesProgram (hreads _) hstatement {} hprogram
    have hmemory : ∃ o, Validator.outcome {} (.ofDocument .memory none
        { d with triples := program (.plain "true") }) = .ok o := by
      simp only [Validator.outcome, Validator.validate, Ontology.ofDocument, hvalid, if_true, hindex]
      exact ⟨_, rfl⟩
    exact hsorted ▸ hmemory
  · have hinvalid := report_podsAll {} (hreads (.typed "true" "")) rfl rfl (by decide)
    simp only [Validator.outcome, Validator.validate, Ontology.ofDocument, htriples]
    rw [hinvalid]
    exact ⟨_, rfl⟩

end CommandOntology
