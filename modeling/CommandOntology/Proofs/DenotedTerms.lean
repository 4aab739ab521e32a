import CommandOntology.Proofs.ComparedNumbers
import CommandOntology.Proofs.ComposedFilters
import CommandOntology.Proofs.InsertedLayout
import CommandOntology.Proofs.WrittenLines
import CommandOntology.Proofs.TreeRuns
import CommandOntology.Query.Results

set_option autoImplicit false

namespace CommandOntology

open Text

/-- A term that a document can denote: a blank node is labelled by the document, and a language tag is one of nodes. -/
def Term.IsDenoted : Term → Prop
  | .iri _ => True
  | .blank label =>
    (∃ written, label = Turtle.Scope.writtenLabel written) ∨ ∃ n, label = Turtle.Scope.generatedLabel n
  | .literal _ _ language => ∀ tag ∈ language, isLanguageTag tag = true

theorem Term.IsDenoted.faultyTag? {t : Term} (h : t.IsDenoted) : t.faultyTag? = none := by
  cases t with
  | iri value => rfl
  | blank label => rfl
  | literal lexical datatype language =>
    cases language with
    | none => rfl
    | some tag => simp [Term.faultyTag?, h tag rfl]

theorem Term.IsDenoted.node {t : Term} (h : t.IsDenoted) : t.node.IsDenoted := by
  cases t with
  | iri value => trivial
  | blank label => exact h
  | literal lexical datatype language =>
    simp only [Term.node]
    split
    · next tag hmark =>
      obtain rfl := (Option.filter_eq_some_iff.1 hmark).1
      exact h
    · intro tag htag
      cases htag

namespace Turtle

theorem asciiLower_class (c : Char) : isAsciiLetter (asciiLower c) = isAsciiLetter c ∧
    isAsciiAlphanumeric (asciiLower c) = isAsciiAlphanumeric c ∧ (asciiLower c = '-' ↔ c = '-') := by
  by_cases hc : c.toNat < 128
  · have htest := forall_ascii (fun c => isAsciiLetter (asciiLower c) == isAsciiLetter c &&
      isAsciiAlphanumeric (asciiLower c) == isAsciiAlphanumeric c && (asciiLower c == '-') == (c == '-'))
      (by decide) c hc
    simp only [Bool.and_eq_true, beq_iff_eq] at htest
    exact ⟨htest.1.1, htest.1.2, by rw [← beq_iff_eq, htest.2, beq_iff_eq]⟩
  · have hZ : ¬c ≤ 'Z' := fun h => hc (Nat.lt_of_le_of_lt ((le_iff_toNat_le c _).1 h) (by decide))
    have hsame : asciiLower c = c := if_neg (by simp [hZ])
    rw [hsame]
    exact ⟨rfl, rfl, Iff.rfl⟩

theorem subtagLength_map_asciiLower (text : List Char) :
    subtagLength (text.map asciiLower) = subtagLength text := by
  induction text with
  | nil => rfl
  | cons c text ih =>
    have hnext : (text.map asciiLower).head?.any isAsciiAlphanumeric = text.head?.any isAsciiAlphanumeric := by
      cases text with
      | nil => rfl
      | cons d text => exact (asciiLower_class d).2.1
    have hdash : (asciiLower c == '-') = (c == '-') := by
      rw [Bool.eq_iff_iff, beq_iff_eq, beq_iff_eq, (asciiLower_class c).2.2]
    rw [List.map_cons, subtagLength, subtagLength, ih, hnext, hdash, (asciiLower_class c).2.1]

theorem spanLength_map_asciiLower (text : List Char) :
    spanLength isAsciiLetter (text.map asciiLower) = spanLength isAsciiLetter text := by
  have hclass : isAsciiLetter ∘ asciiLower = isAsciiLetter := funext fun c => (asciiLower_class c).1
  rw [spanLength, spanLength, List.takeWhile_map, hclass, List.length_map]

theorem tagLength?_map_asciiLower (text : List Char) :
    tagLength? (text.map asciiLower) = tagLength? text := by
  have hdash (rest : List Char) : (rest.map asciiLower).head? = some '-' ↔ rest.head? = some '-' := by
    cases rest with
    | nil => simp
    | cons c rest => simp [(asciiLower_class c).2.2]
  simp only [tagLength?, spanLength_map_asciiLower, ← List.map_drop, hdash, subtagLength_map_asciiLower]

theorem isLanguageTag_asciiLower {tag : String} (h : tagLength? tag.toList = some tag.toList.length) :
    Term.isLanguageTag (String.ofList (tag.toList.map asciiLower)) = true := by
  refine isLanguageTag_of_tagLength? ?_
  rw [String.toList_ofList, tagLength?_map_asciiLower, h, List.length_map]

def Lexeme.HasWholeTag (l : Lexeme) : Prop :=
  ∀ tag, l = .languageTag tag → tagLength? tag.toList = some tag.toList.length

theorem hasWholeTag_of_scan {c : Char} {rest : List Char} {l : Lexeme} {n : Nat} (h : scan c rest = .ok (l, n)) :
    l.HasWholeTag := by
  rintro tag rfl
  obtain ⟨hlength, rfl⟩ := exists_of_scanTag (isScanned_of_scan h).2
  have hle : (rest.take n).length = n := List.length_take_of_le (tagLength?_le hlength)
  rw [← List.take_append_drop n rest] at hlength
  have hparts : Parts [] := by simp [Parts]
  have hcut := tagLength?_cut hparts hlength hle.ge
  rw [List.append_nil] at hcut
  rw [lexemeText, String.toList_ofList, hcut, hle]

theorem hasWholeTag_of_lex {text : List Char} {tokens : Tokens} (h : lex text = .ok tokens) :
    ∀ l ∈ tokens.tokens.map (·.lexeme), l.HasWholeTag :=
  List.forall_mem_map.2 (forall_lexFrom (fun _ _ _ _ hscan => hasWholeTag_of_scan hscan) h)

def Reading.IsDenoted (r : Reading) : Prop :=
  ∀ t ∈ r.triples, ∀ x ∈ t.terms, x.IsDenoted

theorem isDenoted_generated (n : Nat) : (Term.blank (Scope.generatedLabel n)).IsDenoted :=
  .inr ⟨n, rfl⟩

theorem isDenoted_chain {cells values : List Term} (hcells : ∀ x ∈ cells, x.IsDenoted)
    (hvalues : ∀ x ∈ values, x.IsDenoted) : ∀ t ∈ chain cells values, ∀ x ∈ t.terms, x.IsDenoted := by
  induction cells generalizing values with
  | nil => simp [chain]
  | cons cell cells ih =>
    cases values with
    | nil => simp [chain]
    | cons value values =>
      obtain ⟨hcell, hrest⟩ := List.forall_mem_cons.1 hcells
      obtain ⟨hvalue, hothers⟩ := List.forall_mem_cons.1 hvalues
      have hnext : (cells.headD (.iri Rdf.nil)).IsDenoted := by
        cases cells with
        | nil => trivial
        | cons next cells => exact hrest next List.mem_cons_self
      have hlink (predicate : String) {object : Term} (ho : object.IsDenoted) :
          ∀ x ∈ Triple.terms ⟨cell, .iri predicate, object⟩, x.IsDenoted := by
        simpa [Triple.terms] using ⟨hcell, trivial, ho⟩
      exact List.forall_mem_cons.2 ⟨hlink _ hvalue, List.forall_mem_cons.2 ⟨hlink _ hnext, ih hrest hothers⟩⟩

variable {r : Reading}

namespace Reading.IsDenoted

theorem state (h : r.IsDenoted) {subject object : Term} (predicate : String) (hs : subject.IsDenoted)
    (ho : object.IsDenoted) : (r.state subject predicate object).IsDenoted :=
  List.forall_mem_append.2 ⟨h, List.forall_mem_singleton.2 <| by
    simpa [Triple.terms] using ⟨hs, trivial, ho⟩⟩

theorem collect (h : r.IsDenoted) {values : List Term} (hvalues : ∀ x ∈ values, x.IsDenoted) :
    (r.collect values).1.IsDenoted ∧ (r.collect values).2.IsDenoted := by
  have hcells : ∀ x ∈ freshNodes r.nodeCount values.length, x.IsDenoted :=
    List.forall_mem_map.2 fun n _ => isDenoted_generated n
  constructor
  · simp only [Reading.collect]
    cases hf : freshNodes r.nodeCount values.length with
    | nil => trivial
    | cons cell cells => exact hcells cell (hf ▸ List.mem_cons_self)
  · exact List.forall_mem_append.2 ⟨h, isDenoted_chain hcells hvalues⟩

theorem declare (h : r.IsDenoted) (label iri : String) : (r.declare label iri).IsDenoted := by
  unfold Reading.declare
  split <;> exact h

end Reading.IsDenoted

namespace Tree

theorem Literal.isDenoted (literal : Literal) (hl : ∀ l ∈ literal.lexemes, l.HasWholeTag) :
    (r.literal literal).IsDenoted := by
  cases literal with
  | text value => nofun
  | taggedText value tag =>
    have htag : tagLength? tag.toList = some tag.toList.length := hl (.languageTag tag) (by simp [Literal.lexemes]) tag rfl
    simpa [Reading.literal, Term.IsDenoted] using isLanguageTag_asciiLower htag
  | typedText value datatype => nofun
  | number kind digits => nofun
  | truth value => nofun

-- What a tree denotes depends on its own lexemes alone, and on what is read before it.
mutual

theorem Node.isDenoted (node : Node) (hl : ∀ l ∈ node.lexemes, l.HasWholeTag) {r : Reading} (h : r.IsDenoted) :
    (node.read r).1.IsDenoted ∧ (node.read r).2.IsDenoted := by
  cases node with
  | iri iri => exact ⟨trivial, h⟩
  | blankNode label => exact ⟨.inl ⟨label, rfl⟩, h⟩
  | literal literal => exact ⟨literal.isDenoted hl, h⟩
  | emptyBrackets => exact ⟨isDenoted_generated _, h⟩
  | brackets properties =>
    simp only [Node.lexemes, List.forall_mem_cons, List.forall_mem_append] at hl
    exact ⟨isDenoted_generated _, properties.isDenoted hl.2.1 (isDenoted_generated _) h⟩
  | collection items =>
    simp only [Node.lexemes, List.forall_mem_cons, List.forall_mem_append] at hl
    obtain ⟨hvalues, hread⟩ := items.isDenoted hl.2.1 h
    exact hread.collect hvalues

theorem Nodes.isDenoted (nodes : Nodes) (hl : ∀ l ∈ nodes.lexemes, l.HasWholeTag) {r : Reading}
    (h : r.IsDenoted) : (∀ x ∈ (nodes.read r).1, x.IsDenoted) ∧ (nodes.read r).2.IsDenoted := by
  cases nodes with
  | nil => exact ⟨nofun, h⟩
  | cons node nodes =>
    simp only [Nodes.lexemes, List.forall_mem_append] at hl
    obtain ⟨hvalue, hread⟩ := node.isDenoted hl.1 h
    obtain ⟨hvalues, hread⟩ := nodes.isDenoted hl.2 hread
    exact ⟨List.forall_mem_cons.2 ⟨hvalue, hvalues⟩, hread⟩

theorem Nodes.isDenoted_state (nodes : Nodes) (hl : ∀ l ∈ nodes.objectLexemes, l.HasWholeTag) {subject : Term}
    (hs : subject.IsDenoted) (predicate : String) {r : Reading} (h : r.IsDenoted) :
    (nodes.state subject predicate r).IsDenoted := by
  cases nodes with
  | nil => exact h
  | cons node nodes =>
    simp only [Nodes.objectLexemes, List.forall_mem_cons, List.forall_mem_append] at hl
    obtain ⟨hvalue, hread⟩ := node.isDenoted hl.2.1 h
    exact nodes.isDenoted_state hl.2.2 hs predicate (hread.state predicate hs hvalue)

theorem Property.isDenoted (property : Property) (hl : ∀ l ∈ property.lexemes, l.HasWholeTag) {subject : Term}
    (hs : subject.IsDenoted) {r : Reading} (h : r.IsDenoted) : (property.read subject r).IsDenoted := by
  cases property with
  | objects verb first others =>
    simp only [Property.lexemes, List.forall_mem_cons, List.forall_mem_append] at hl
    obtain ⟨hvalue, hread⟩ := first.isDenoted hl.2.1 h
    exact others.isDenoted_state hl.2.2 hs _ (hread.state _ hs hvalue)

theorem Properties.isDenoted (properties : Properties) (hl : ∀ l ∈ properties.lexemes, l.HasWholeTag)
    {subject : Term} (hs : subject.IsDenoted) {r : Reading} (h : r.IsDenoted) :
    (properties.read subject r).IsDenoted := by
  cases properties with
  | last property semicolons =>
    simp only [Properties.lexemes, List.forall_mem_append] at hl
    exact property.isDenoted hl.1 hs h
  | more property semicolons properties =>
    simp only [Properties.lexemes, List.forall_mem_cons, List.forall_mem_append] at hl
    exact properties.isDenoted hl.2.2.2 hs (property.isDenoted hl.1 hs h)

end

theorem Statement.isDenoted (statement : Statement) (hl : ∀ l ∈ statement.lexemes, l.HasWholeTag) {r : Reading}
    (h : r.IsDenoted) : (statement.read r).IsDenoted := by
  cases statement with
  | namespaceLabel label iri => exact h.declare label _
  | base iri => exact h
  | namespaceLabelWord word label iri _ => exact h.declare label _
  | baseWord word iri _ => exact h
  | brackets node _ =>
    simp only [Statement.lexemes, List.forall_mem_append] at hl
    exact (node.isDenoted hl.1 h).2
  | triples subject properties _ =>
    simp only [Statement.lexemes, List.forall_mem_append] at hl
    obtain ⟨hsubject, hread⟩ := subject.isDenoted hl.1 h
    exact properties.isDenoted hl.2.1 hsubject hread

theorem documentReading_isDenoted (options : ParserOptions) (statements : List Statement)
    (hl : ∀ l ∈ documentLexemes statements, l.HasWholeTag) : (documentReading options statements).IsDenoted := by
  have hfold (r : Reading) (h : r.IsDenoted) :
      (statements.foldl (fun r statement => statement.read r) r).IsDenoted := by
    induction statements generalizing r with
    | nil => exact h
    | cons statement statements ih =>
      simp only [documentLexemes, List.flatMap_cons, List.forall_mem_append] at hl
      exact ih hl.2 _ (statement.isDenoted hl.1 h)
  exact hfold _ fun _ ht => absurd ht List.not_mem_nil

end Tree

/-- The terms of a document are those that it denotes. -/
theorem parse_isDenoted {options : ParserOptions} {text : String} {d : Document}
    (h : parse options text = .ok d) : ∀ t ∈ d.triples, ∀ x ∈ t.terms, x.IsDenoted := by
  unfold parse at h
  split_ifs at h
  split at h
  · cases h
  next tokens hlex =>
  obtain ⟨⟨statements, hlexemes⟩, hread⟩ := documentReading_of_parseTokens h
  intro t ht
  rw [hread statements hlexemes] at ht
  refine Tree.documentReading_isDenoted options statements ?_ t ((mem_distinct t _).1 ht)
  rw [hlexemes]
  exact hasWholeTag_of_lex hlex

end Turtle

def IsHeld (triples : List Triple) (x : Term) : Prop :=
  ∃ t ∈ triples, ∃ y ∈ t.terms, x = y ∨ x = y.node

section

variable {triples : List Triple}

theorem isHeld_of_mem {t : Triple} (ht : t ∈ triples) : ∀ x ∈ t.terms, IsHeld triples x :=
  fun x hx => ⟨t, ht, x, hx, .inl rfl⟩

theorem isHeld_of_mem_nodeTriples {t : Triple} (ht : t ∈ nodeTriples triples) : ∀ x ∈ t.terms, IsHeld triples x := by
  obtain ⟨u, hu, rfl⟩ := List.mem_map.1 ht
  intro x hx
  obtain ⟨y, hy, rfl⟩ : ∃ y ∈ u.terms, y.node = x := List.mem_map.1 hx
  exact ⟨u, hu, y, hy, .inr rfl⟩

/-- A sorted store answers with its own statements, in which the terms that are asked for stand. -/
theorem SortedStore.exists_of_mem_query (h : AreGivenOut triples) {p : TriplePattern} {t : Triple}
    (ht : t ∈ (SortedStore.ofList triples).query p) :
    ∃ u ∈ nodeTriples triples, t = ((p.mapTerms Term.node).fill u).mapTerms Term.ofNode := by
  have hstored (u : Triple) (hu : u ∈ (SortedStore.ofList triples).graph.statements) : u ∈ nodeTriples triples := by
    rw [SortedStore.statements_nodeTriples h] at hu
    exact (mem_distinct u _).1 hu
  have hperm (statements : List Triple) (hs : t ∈ SortedStore.giveOut statements) :
      ∃ u ∈ statements, u.mapTerms Term.ofNode = t :=
    List.mem_map.1 ((sortByKey_perm _ _ _).mem_iff.1 hs)
  obtain ⟨filled, hfilled, rfl⟩ := hperm _ ht
  obtain ⟨u, hu, rfl⟩ := List.mem_map.1 hfilled
  refine ⟨u, ?_, rfl⟩
  split_ifs at hu
  · obtain ⟨w, hw, rfl⟩ := List.mem_map.1 hu
    have hin := hstored w (List.mem_filter.1 hw).1
    rwa [SortedStore.indexedObject_eq h w hin]
  · exact hstored u (List.mem_filter.1 hu).1

theorem Store.opensTo_isHeld (h : AreGivenOut triples) (backend : Backend) (p : TriplePattern) :
    ∀ t ∈ (Store.ofList backend triples).query p, p.OpensTo (IsHeld triples) t := by
  intro t ht
  cases backend with
  | memory =>
    rw [Store.query_memory] at ht
    exact .of_terms (isHeld_of_mem ((mem_distinct t _).1 (List.mem_filter.1 ht).1)) p
  | sorted =>
    obtain ⟨u, hu, rfl⟩ := SortedStore.exists_of_mem_query h ht
    have hheld := isHeld_of_mem_nodeTriples hu
    rw [← h.mapTerms_ofNode u hu] at hheld
    simp only [Triple.terms, Triple.mapTerms, List.forall_mem_cons] at hheld
    constructor <;> intro hopen
    all_goals
      simp only [Triple.mapTerms, TriplePattern.fill, TriplePattern.mapTerms, hopen, Option.map_none,
        Option.getD_none, hheld]

end

namespace Query

theorem filterAll_sublist {filters : List Expression} {xs kept : List Binding}
    (h : (filterAll xs filters).outcome = .ok kept) : kept.Sublist xs := by
  induction filters generalizing xs with
  | nil =>
    cases h
    exact .refl _
  | cons e rest ih => exact (ih ((filterAll_cons_eq_ok_iff e rest xs kept).1 h).2).trans List.filter_sublist

/-- The rows of a result are projected bindings of terms that the store gives out at open places. -/
theorem run_bindsOnly {P : Term → Prop} {store : Store}
    (hstore : ∀ p : TriplePattern, ∀ t ∈ store.query p, p.OpensTo P t) {q : SelectQuery} {r : Results}
    (h : (q.run store).outcome = .ok r) :
    r.varNames = q.projection ∧ ∀ row ∈ r.rows, ∃ b, BindsOnly P b ∧ row = project q.projection b := by
  simp only [SelectQuery.run, SelectQuery.solutions, Work.outcome_bind, joinAll_outcome_eq, bind_eq_ok_iff] at h
  obtain ⟨solutions, ⟨required, hrequired, extended, hextended, hfiltered⟩, -, -, hr⟩ := h
  obtain rfl := Except.ok.inj hr
  obtain rfl := Except.ok.inj hrequired
  refine ⟨rfl, fun row hrow => ?_⟩
  obtain ⟨b, hb, rfl⟩ := List.mem_map.1 ((q.rows_sublist solutions).subset hrow)
  have hrequired : ∀ x ∈ [[]].flatMap (extendBy store q.patterns), BindsOnly P x := by
    rw [List.flatMap_singleton]
    exact bindsOnly_nil.extendBy hstore q.patterns
  refine ⟨b, bindsOnly_leftJoinAll hstore hrequired hextended b ?_, rfl⟩
  exact (filterAll_sublist hfiltered).subset ((orderAll_perm _ _).mem_iff.1 hb)

theorem parse_projection_nodup {visible : List (String × String)} {base : Option String} {text : String}
    {q : SelectQuery} (h : parse visible base text = .ok q) : q.projection.Nodup := by
  obtain ⟨all, -, h⟩ := (bind_eq_ok_iff _ _ _).1 h
  obtain ⟨scope, -, h⟩ := (bind_eq_ok_iff _ _ _).1 h
  simp only [Scope.query, bind_eq_ok_iff] at h
  obtain ⟨_, -, _, -, _, -, _, -, h⟩ := h
  cases h
  cases scope.selected <;> exact nodup_distinct _

structure Results.IsProjected (r : Results) : Prop where
  nodup : r.varNames.Nodup
  projected : ∀ row ∈ r.rows, ∃ b, row = project r.varNames b

/-- The terms of a result over a document are those of the document, or their nodes. -/
structure Results.IsOver (r : Results) (d : Turtle.Document) : Prop extends r.IsProjected where
  held : ∀ x ∈ r.terms, IsHeld d.triples x

theorem isOver_of_queryOutcome {options : Turtle.ParserOptions} {text : String} {d : Turtle.Document}
    (h : Turtle.parse options text = .ok d) {own : Option Validator} {backend : Backend} {query : String}
    {r : Results} (hr : (Ontology.ofDocument backend own d).queryOutcome query = .ok r) : r.IsOver d := by
  cases hparse : parse d.namespaces.entries d.base query with
  | error e =>
    have hfails : (Ontology.ofDocument backend own d).queryOutcome query = .error e :=
      execute_outcome_of_parse hparse _
    rw [hfails] at hr
    cases hr
  | ok q =>
    rw [queryOutcome_of_parse hparse] at hr
    have hgiven := areGivenOut_of_isWritten (Turtle.parse_isWritten h)
    obtain ⟨hnames, hrows⟩ := run_bindsOnly (Store.opensTo_isHeld hgiven backend) hr
    refine ⟨⟨hnames ▸ parse_projection_nodup hparse, fun row hrow => ?_⟩, fun x hx => ?_⟩
    · obtain ⟨b, -, hb⟩ := hrows row hrow
      exact ⟨b, hnames ▸ hb⟩
    · obtain ⟨row, hrow, hx⟩ := List.mem_flatMap.1 hx
      obtain ⟨field, hfield, rfl⟩ := List.mem_map.1 hx
      obtain ⟨b, hb, rfl⟩ := hrows row hrow
      obtain ⟨name, -, hname⟩ := List.mem_filterMap.1 hfield
      obtain ⟨t, ht, rfl⟩ := Option.map_eq_some_iff.1 hname
      exact hb.findField ht

section

variable {options : Turtle.ParserOptions} {text : String} {d : Turtle.Document}
  (h : Turtle.parse options text = .ok d) {r : Results} (hr : r.IsOver d)

include h hr

theorem Results.IsOver.isDenoted : ∀ x ∈ r.terms, x.IsDenoted := by
  intro x hx
  obtain ⟨t, ht, y, hy, rfl | rfl⟩ := hr.held x hx
  · exact Turtle.parse_isDenoted h t ht _ hy
  · exact (Turtle.parse_isDenoted h t ht y hy).node

theorem Results.IsOver.isWritten : ∀ x ∈ r.terms, x.IsWritten := by
  intro x hx
  obtain ⟨t, ht, y, hy, rfl | rfl⟩ := hr.held x hx
  · exact (Turtle.parse_isWritten h t ht).terms _ hy
  · exact ((Turtle.parse_isWritten h t ht).terms y hy).node

end

end Query

end CommandOntology
