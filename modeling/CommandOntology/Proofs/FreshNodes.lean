import Mathlib.Data.List.Nodup
import CommandOntology.Proofs.TreeRuns
import Std.Data.String.ToNat

set_option autoImplicit false

/-!
# Blank nodes and collections

Brackets and cells are numbered in the order in which they are read, apart from written labels: no two of them are
the same node. A collection is a chain of its cells, and stays one whatever is read behind it, as long as the
predicates of chains are not written out.
-/

namespace CommandOntology.Turtle

theorem generatedLabel_injective : Function.Injective Scope.generatedLabel :=
  fun _ _ h => Nat.repr_injective ((String.append_right_inj "g").1 h)

theorem writtenLabel_ne_generatedLabel (label : String) (n : Nat) :
    Scope.writtenLabel label ≠ Scope.generatedLabel n := by
  intro h
  have hlist := congrArg String.toList h
  simp [Scope.writtenLabel, Scope.generatedLabel] at hlist

theorem writtenLabel_injective : Function.Injective Scope.writtenLabel :=
  fun _ _ h => (String.append_right_inj "u").1 h

theorem nodup_freshNodes (count n : Nat) : (freshNodes count n).Nodup := by
  refine List.Nodup.map ?_ (List.nodup_range' 1)
  exact fun _ _ h => generatedLabel_injective (Term.blank.inj h)

theorem freshNodes_one (count : Nat) : freshNodes count 1 = [.blank (Scope.generatedLabel (count + 1))] := rfl

theorem freshNodes_append (count m n : Nat) :
    freshNodes count m ++ freshNodes (count + m) n = freshNodes count (m + n) := by
  rw [freshNodes, freshNodes, freshNodes, ← List.map_append, Nat.add_right_comm, List.range'_append_1]

theorem length_freshNodes (count n : Nat) : (freshNodes count n).length = n := by
  rw [freshNodes, List.length_map, List.length_range']

theorem disjoint_freshNodes (m n : Nat) : (freshNodes 0 m).Disjoint (freshNodes m n) := by
  have hnodup := nodup_freshNodes 0 (m + n)
  rw [← freshNodes_append, Nat.zero_add] at hnodup
  exact List.disjoint_of_nodup_append hnodup

def statementsAbout (triples : List Triple) (subject : Term) (predicate : String) : List Triple :=
  triples.filter fun t => t.subject = subject && t.predicate = .iri predicate

def HasOne (triples : List Triple) (subject : Term) (predicate : String) (object : Term) : Prop :=
  statementsAbout triples subject predicate = [⟨subject, .iri predicate, object⟩]

/-- Following the rest of a collection from a node visits the cells, which hold the values, and ends at the empty
collection. -/
inductive IsChain (triples : List Triple) : Term → List Term → List Term → Prop
  | nil : IsChain triples (.iri Rdf.nil) [] []
  | cons {cell next value : Term} {cells values : List Term} (hfirst : HasOne triples cell Rdf.first value)
    (hrest : HasOne triples cell Rdf.rest next) (h : IsChain triples next cells values) :
    IsChain triples cell (cell :: cells) (value :: values)

def IsLink (t : Triple) : Prop :=
  t.predicate = .iri Rdf.first ∨ t.predicate = .iri Rdf.rest

variable {triples more : List Triple} {head subject object : Term} {predicate : String} {cells values : List Term}

theorem statementsAbout_append (triples more : List Triple) (subject : Term) (predicate : String) :
    statementsAbout (triples ++ more) subject predicate =
      statementsAbout triples subject predicate ++ statementsAbout more subject predicate :=
  List.filter_append _ _

theorem statementsAbout_eq_nil (h : ∀ t ∈ triples, t.predicate = .iri predicate → t.subject ≠ subject) :
    statementsAbout triples subject predicate = [] := by
  refine List.filter_eq_nil_iff.2 fun t ht hholds => ?_
  simp only [Bool.and_eq_true, decide_eq_true_eq] at hholds
  exact h t ht hholds.2 hholds.1

theorem HasOne.append (h : HasOne triples subject predicate object)
    (hmore : ∀ t ∈ more, t.predicate = .iri predicate → t.subject ≠ subject) :
    HasOne (triples ++ more) subject predicate object := by
  rw [HasOne, statementsAbout_append, h, statementsAbout_eq_nil hmore, List.append_nil]

theorem HasOne.behind (h : HasOne more subject predicate object)
    (htriples : ∀ t ∈ triples, t.predicate = .iri predicate → t.subject ≠ subject) :
    HasOne (triples ++ more) subject predicate object := by
  rw [HasOne, statementsAbout_append, h, statementsAbout_eq_nil htriples, List.nil_append]

theorem HasOne.distinct (h : HasOne triples subject predicate object) :
    HasOne (distinct triples) subject predicate object := by
  refine List.perm_singleton.1 ((List.perm_ext_iff_of_nodup ((nodup_distinct triples).filter _)
    (List.nodup_singleton _)).2 fun t => ?_)
  rw [← h, statementsAbout, List.mem_filter, List.mem_filter, mem_distinct]

theorem IsChain.append (h : IsChain triples head cells values) (hmore : ∀ t ∈ more, IsLink t → t.subject ∉ cells) :
    IsChain (triples ++ more) head cells values := by
  induction h with
  | nil => exact .nil
  | cons hfirst hrest _ ih =>
    refine .cons (hfirst.append fun t ht hp hs => ?_) (hrest.append fun t ht hp hs => ?_) (ih fun t ht hl hmem => ?_)
    · exact hmore t ht (.inl hp) (hs ▸ List.mem_cons_self)
    · exact hmore t ht (.inr hp) (hs ▸ List.mem_cons_self)
    · exact hmore t ht hl (List.mem_cons_of_mem _ hmem)

theorem IsChain.distinct (h : IsChain triples head cells values) : IsChain (distinct triples) head cells values := by
  induction h with
  | nil => exact .nil
  | cons hfirst hrest _ ih => exact .cons hfirst.distinct hrest.distinct ih

theorem subject_mem_of_mem_chain {t : Triple} (h : t ∈ chain cells values) : t.subject ∈ cells := by
  induction cells generalizing values with
  | nil => cases h
  | cons cell cells ih =>
    cases values with
    | nil => cases h
    | cons value values =>
      obtain rfl | h := List.mem_cons.1 h
      · exact List.mem_cons_self
      obtain rfl | h := List.mem_cons.1 h
      · exact List.mem_cons_self
      · exact List.mem_cons_of_mem _ (ih h)

/-- Cells that nothing links yet become a chain. -/
theorem isChain_chain (hn : cells.Nodup) (hlength : cells.length = values.length)
    (htriples : ∀ t ∈ triples, IsLink t → t.subject ∉ cells) :
    IsChain (triples ++ chain cells values) (cells.headD (.iri Rdf.nil)) cells values := by
  induction cells generalizing triples values with
  | nil =>
    obtain rfl := List.eq_nil_of_length_eq_zero hlength.symm
    exact .nil
  | cons cell cells ih =>
    cases values with
    | nil => cases hlength
    | cons value values =>
      obtain ⟨hcell, hn⟩ := List.nodup_cons.1 hn
      have hearlier (t : Triple) (ht : t ∈ triples) (hl : IsLink t) : t.subject ≠ cell ∧ t.subject ∉ cells :=
        not_or.1 fun h => htriples t ht hl (List.mem_cons.2 h)
      have hlater (t : Triple) (ht : t ∈ chain cells values) : t.subject ≠ cell :=
        fun h => hcell (h ▸ subject_mem_of_mem_chain ht)
      let links : List Triple := [⟨cell, .iri Rdf.first, value⟩, ⟨cell, .iri Rdf.rest, cells.headD (.iri Rdf.nil)⟩]
      have hne : Rdf.first ≠ Rdf.rest := by decide
      have hfirst : HasOne links cell Rdf.first value := by
        simp [HasOne, statementsAbout, links, hne.symm]
      have hrest : HasOne links cell Rdf.rest (cells.headD (.iri Rdf.nil)) := by
        simp [HasOne, statementsAbout, links, hne]
      have htail : IsChain (triples ++ links ++ chain cells values) (cells.headD (.iri Rdf.nil)) cells values := by
        refine ih hn (Nat.succ.inj hlength) fun t ht hl => ?_
        obtain ht | ht := List.mem_append.1 ht
        · exact (hearlier t ht hl).2
        · have hsubject : t.subject = cell := by
            obtain rfl | ht := List.mem_cons.1 ht
            · rfl
            · rw [List.mem_singleton.1 ht]
          exact hsubject ▸ hcell
      have hchain : triples ++ chain (cell :: cells) (value :: values) = triples ++ links ++ chain cells values := by
        rw [List.append_assoc]
        rfl
      rw [hchain]
      refine .cons ?_ ?_ htail
      · exact (hfirst.behind fun t ht hp => (hearlier t ht (.inl hp)).1).append fun t ht _ => hlater t ht
      · exact (hrest.behind fun t ht hp => (hearlier t ht (.inr hp)).1).append fun t ht _ => hlater t ht

def Origin.ofLexeme? : Lexeme → Option Origin
  | .blankNode written => some (.label written)
  | .mark .openBracket => some .brackets
  | _ => none

structure Lexeme.IsSilent (l : Lexeme) : Prop where
  origin : Origin.ofLexeme? l = none
  ne_close : l ≠ .mark .closeParenthesis

/-- What happens to a reading at a time, and the lexeme at which it happens, if it happens at one. -/
inductive Reading.Step : List Lexeme → Reading → Reading → Prop
  | silent (r : Reading) {l : Lexeme} (h : l.IsSilent) : Step [l] r r
  | label (r : Reading) (label : String) : Step [.blankNode label] r (r.label label).2
  | openBrackets (r : Reading) : Step [.mark .openBracket] r r.openBrackets.2
  | collect (r : Reading) (values : List Term) : Step [.mark .closeParenthesis] r (r.collect values).2
  | state (r : Reading) (subject : Term) (predicate : String) (object : Term) :
    Step [] r (r.state subject predicate object)
  | declare (r : Reading) (label iri : String) : Step [] r (r.declare label iri)
  | rebase (r : Reading) (iri : String) : Step [] r (r.rebase iri)

inductive Reading.Steps : List Lexeme → Reading → Reading → Prop
  | refl (r : Reading) : Steps [] r r
  | step {ls ls' : List Lexeme} {r r' r'' : Reading} (h : Reading.Step ls r r') (hs : Steps ls' r' r'') :
    Steps (ls ++ ls') r r''

namespace Reading.Steps

variable {ls ls' : List Lexeme} {r r' r'' : Reading}

theorem trans (h : Steps ls r r') (h' : Steps ls' r' r'') : Steps (ls ++ ls') r r'' := by
  induction h with
  | refl => exact h'
  | step h _ ih =>
    rw [List.append_assoc]
    exact .step h (ih h')

theorem cons {l : Lexeme} (h : Step [l] r r') (hs : Steps ls r' r'') : Steps (l :: ls) r r'' :=
  .step h hs

theorem between (h : Step [] r r') (hs : Steps ls r' r'') : Steps ls r r'' :=
  .step h hs

theorem silent {l : Lexeme} (h : l.IsSilent) (hs : Steps ls r r') : Steps (l :: ls) r r' :=
  .cons (.silent r h) hs

theorem of_silent (h : ∀ l ∈ ls, l.IsSilent) : Steps ls r r := by
  induction ls with
  | nil => exact .refl r
  | cons l ls ih => exact .silent (h l List.mem_cons_self) (ih fun l' hl' => h l' (List.mem_cons_of_mem _ hl'))

end Reading.Steps

namespace Tree

theorem Iri.isSilent (iri : Iri) : iri.lexeme.IsSilent := by
  cases iri <;> exact ⟨rfl, nofun⟩

theorem Verb.isSilent (verb : Verb) : verb.lexeme.IsSilent := by
  cases verb with
  | type => exact ⟨rfl, nofun⟩
  | iri iri => exact iri.isSilent

theorem Literal.steps (literal : Literal) (r : Reading) : Reading.Steps literal.lexemes r r := by
  cases literal with
  | text value => exact .silent ⟨rfl, nofun⟩ (.refl r)
  | taggedText value tag => exact .silent ⟨rfl, nofun⟩ (.silent ⟨rfl, nofun⟩ (.refl r))
  | typedText value datatype =>
    exact .silent ⟨rfl, nofun⟩ (.silent ⟨rfl, nofun⟩ (.silent datatype.isSilent (.refl r)))
  | number kind digits => exact .silent ⟨rfl, nofun⟩ (.refl r)
  | truth value => exact .silent ⟨rfl, nofun⟩ (.refl r)

mutual

theorem Node.steps (node : Node) (r : Reading) : Reading.Steps node.lexemes r (node.read r).2 := by
  cases node with
  | iri iri => exact .silent iri.isSilent (.refl r)
  | blankNode label => exact .cons (.label r label) (.refl _)
  | literal literal => exact literal.steps r
  | emptyBrackets => exact .cons (.openBrackets r) (.silent ⟨rfl, nofun⟩ (.refl _))
  | brackets properties =>
    exact .cons (.openBrackets r) ((properties.steps _ _).trans (.silent ⟨rfl, nofun⟩ (.refl _)))
  | collection items =>
    exact .silent ⟨rfl, nofun⟩ ((items.steps r).trans (.cons (.collect _ _) (.refl _)))

theorem Nodes.steps (nodes : Nodes) (r : Reading) : Reading.Steps nodes.lexemes r (nodes.read r).2 := by
  cases nodes with
  | nil => exact .refl r
  | cons node nodes => exact (node.steps r).trans (nodes.steps _)

theorem Nodes.steps_state (nodes : Nodes) (subject : Term) (predicate : String) (r : Reading) :
    Reading.Steps nodes.objectLexemes r (nodes.state subject predicate r) := by
  cases nodes with
  | nil => exact .refl r
  | cons node nodes =>
    exact .silent ⟨rfl, nofun⟩ ((node.steps r).trans
      (.between (.state _ subject predicate _) (nodes.steps_state subject predicate _)))

theorem Property.steps (property : Property) (subject : Term) (r : Reading) :
    Reading.Steps property.lexemes r (property.read subject r) := by
  cases property with
  | objects verb first others =>
    exact .silent verb.isSilent ((first.steps r).trans
      (.between (.state _ subject (r.verb verb) _) (others.steps_state subject (r.verb verb) _)))

theorem Properties.steps (properties : Properties) (subject : Term) (r : Reading) :
    Reading.Steps properties.lexemes r (properties.read subject r) := by
  have hsemicolons (n : Nat) (r : Reading) : Reading.Steps (.replicate n (.mark .semicolon)) r r :=
    .of_silent fun l hl => List.eq_of_mem_replicate hl ▸ ⟨rfl, nofun⟩
  cases properties with
  | last property n => exact (property.steps subject r).trans (hsemicolons n _)
  | more property n properties =>
    exact (property.steps subject r).trans (.silent ⟨rfl, nofun⟩
      ((hsemicolons n _).trans (properties.steps subject _)))

end

theorem Statement.steps (statement : Statement) (r : Reading) :
    Reading.Steps statement.lexemes r (statement.read r) := by
  cases statement with
  | namespaceLabel label iri =>
    exact .silent ⟨rfl, nofun⟩ (.silent ⟨rfl, nofun⟩ (.silent ⟨rfl, nofun⟩ (.silent ⟨rfl, nofun⟩
      (.between (.declare r label _) (.refl _)))))
  | base iri =>
    exact .silent ⟨rfl, nofun⟩ (.silent ⟨rfl, nofun⟩ (.silent ⟨rfl, nofun⟩ (.between (.rebase r _) (.refl _))))
  | namespaceLabelWord word label iri h =>
    exact .silent ⟨rfl, nofun⟩ (.silent ⟨rfl, nofun⟩ (.silent ⟨rfl, nofun⟩
      (.between (.declare r label _) (.refl _))))
  | baseWord word iri h =>
    exact .silent ⟨rfl, nofun⟩ (.silent ⟨rfl, nofun⟩ (.between (.rebase r _) (.refl _)))
  | brackets node h => exact (node.steps r).trans (.silent ⟨rfl, nofun⟩ (.refl _))
  | triples subject properties h =>
    exact (subject.steps r).trans ((properties.steps _ _).trans (.silent ⟨rfl, nofun⟩ (.refl _)))

theorem documentReading_steps (options : ParserOptions) (statements : List Statement) :
    Reading.Steps (documentLexemes statements) (.initial options) (documentReading options statements) := by
  have hsteps (r : Reading) :
      Reading.Steps (documentLexemes statements) r (statements.foldl (fun r statement => statement.read r) r) := by
    induction statements generalizing r with
    | nil => exact .refl r
    | cons statement statements ih => exact (statement.steps r).trans (ih _)
  exact hsteps (.initial options)

end Tree

def Origin.isNumbered : Origin → Bool
  | .label _ => false
  | _ => true

@[simp] theorem Origin.isNumbered_label (label : String) : (Origin.label label).isNumbered = false := rfl
@[simp] theorem Origin.isNumbered_brackets : Origin.brackets.isNumbered = true := rfl
@[simp] theorem Origin.isNumbered_cell : Origin.cell.isNumbered = true := rfl

theorem Origin.label_or_isNumbered (origin : Origin) :
    (∃ label, origin = .label label) ∨ origin.isNumbered = true := by
  cases origin with
  | label label => exact .inl ⟨label, rfl⟩
  | _ => exact .inr rfl

/-- Brackets and cells have the numbers from one on, in the order in which they are read. -/
structure Reading.IsNumbered (r : Reading) : Prop where
  numbered : (r.occurrences.filter (·.origin.isNumbered)).map (·.node) = freshNodes 0 r.nodeCount
  labelled : ∀ o ∈ r.occurrences, ∀ label, o.origin = .label label → o.node = .blank (Scope.writtenLabel label)
  cells : (r.occurrences.filter (·.origin = .cell)).map (·.node) = r.collections.flatMap (·.cells)

variable {ls : List Lexeme} {r r' : Reading}

theorem Reading.isNumbered_initial (options : ParserOptions) : (initial options).IsNumbered where
  numbered := rfl
  labelled _ ho := (List.not_mem_nil ho).elim
  cells := rfl

theorem Reading.Step.isNumbered (hstep : Step ls r r') (h : r.IsNumbered) : r'.IsNumbered := by
  have hnumbered (n : Nat) : freshNodes 0 r.nodeCount ++ freshNodes r.nodeCount n = freshNodes 0 (r.nodeCount + n) := by
    have happend := freshNodes_append 0 r.nodeCount n
    rwa [Nat.zero_add] at happend
  -- Only brackets and collections take numbers, and they take the next ones.
  cases hstep with
  | silent => exact h
  | state => exact ⟨h.numbered, h.labelled, h.cells⟩
  | rebase => exact ⟨h.numbered, h.labelled, h.cells⟩
  | declare _ label iri =>
    unfold Reading.declare
    split
    · exact ⟨h.numbered, h.labelled, h.cells⟩
    · exact h
  | label _ label =>
    refine ⟨?_, ?_, ?_⟩
    · simpa [Reading.label] using h.numbered
    · intro o ho label' hlabel
      obtain ho | ho := List.mem_append.1 ho
      · exact h.labelled o ho label' hlabel
      · obtain rfl := List.mem_singleton.1 ho
        rw [← Origin.label.inj hlabel]
    · simpa [Reading.label] using h.cells
  | openBrackets =>
    refine ⟨?_, ?_, ?_⟩
    · simpa [Reading.openBrackets, h.numbered, List.filter_cons, freshNodes_one] using hnumbered 1
    · intro o ho label hlabel
      obtain ho | ho := List.mem_append.1 ho
      · exact h.labelled o ho label hlabel
      · obtain rfl := List.mem_singleton.1 ho
        cases hlabel
    · simpa [Reading.openBrackets] using h.cells
  | collect _ values =>
    refine ⟨?_, ?_, ?_⟩
    · simpa [Reading.collect, h.numbered, List.filter_map, Function.comp_def] using hnumbered values.length
    · intro o ho label hlabel
      obtain ho | ho := List.mem_append.1 ho
      · exact h.labelled o ho label hlabel
      · obtain ⟨cell, -, rfl⟩ := List.mem_map.1 ho
        cases hlabel
    · simp [Reading.collect, h.cells, List.filter_map, Function.comp_def]

theorem Reading.Steps.isNumbered (hsteps : Steps ls r r') (h : r.IsNumbered) : r'.IsNumbered := by
  induction hsteps with
  | refl => exact h
  | step hstep _ ih => exact ih (hstep.isNumbered h)

theorem mem_freshNodes {node : Term} {count n : Nat} (h : node ∈ freshNodes count n) :
    ∃ i, node = .blank (Scope.generatedLabel i) := by
  obtain ⟨i, -, rfl⟩ := List.mem_map.1 h
  exact ⟨i, rfl⟩

/-- Two places have the same node just if they have the same written label. -/
theorem Reading.IsNumbered.pairwise (h : r.IsNumbered) : r.occurrences.Pairwise fun a b =>
    a.node = b.node ↔ ∃ label, a.origin = .label label ∧ b.origin = .label label := by
  have hnodup : (r.occurrences.filter (·.origin.isNumbered)).Pairwise fun a b => a.node ≠ b.node := by
    rw [← List.pairwise_map, h.numbered]
    exact nodup_freshNodes 0 r.nodeCount
  have hmixed {a b : Occurrence} (ha : a ∈ r.occurrences) (hb : b ∈ r.occurrences) {label : String}
      (hl : a.origin = .label label) (hn : b.origin.isNumbered = true) : a.node ≠ b.node := by
    have hmem : b.node ∈ freshNodes 0 r.nodeCount := by
      rw [← h.numbered]
      exact List.mem_map_of_mem (List.mem_filter.2 ⟨hb, hn⟩)
    obtain ⟨i, hi⟩ := mem_freshNodes hmem
    rw [h.labelled a ha label hl, hi]
    exact fun heq => writtenLabel_ne_generatedLabel label i (Term.blank.inj heq)
  have hunlabelled {o : Occurrence} (hn : o.origin.isNumbered = true) (label : String) : o.origin ≠ .label label := by
    intro hl
    rw [hl] at hn
    cases hn
  refine (List.pairwise_filter.1 hnodup).imp_of_mem fun {a b} ha hb hne => ?_
  obtain ⟨la, hla⟩ | hna := a.origin.label_or_isNumbered
  · obtain ⟨lb, hlb⟩ | hnb := b.origin.label_or_isNumbered
    · rw [h.labelled a ha la hla, h.labelled b hb lb hlb, hla, hlb]
      constructor
      · intro heq
        exact ⟨la, rfl, congrArg _ (writtenLabel_injective (Term.blank.inj heq)).symm⟩
      · rintro ⟨label, ha', hb'⟩
        rw [Origin.label.inj ha', Origin.label.inj hb']
    · exact iff_of_false (hmixed ha hb hla hnb) fun ⟨label, _, hb'⟩ => hunlabelled hnb label hb'
  · refine iff_of_false ?_ fun ⟨label, ha', _⟩ => hunlabelled hna label ha'
    obtain ⟨lb, hlb⟩ | hnb := b.origin.label_or_isNumbered
    · exact (hmixed hb ha hlb hna).symm
    · exact hne hna hnb

/-- What brings a blank node in by itself is found among the lexemes, in order. -/
theorem Reading.Steps.origins (hsteps : Steps ls r r') :
    (r'.occurrences.map (·.origin)).filter (· ≠ .cell) =
      (r.occurrences.map (·.origin)).filter (· ≠ .cell) ++ ls.filterMap Origin.ofLexeme? := by
  induction hsteps with
  | refl => simp
  | step hstep _ ih =>
    rw [ih, List.filterMap_append, ← List.append_assoc]
    congr 1
    cases hstep with
    | silent _ h => simp [h.origin]
    | declare _ label iri =>
      unfold Reading.declare
      split <;> simp
    | label => simp [Reading.label, Origin.ofLexeme?]
    | openBrackets => simp [Reading.openBrackets, Origin.ofLexeme?]
    | collect => simp [Reading.collect, Origin.ofLexeme?, Function.comp_def]
    | state => simp [Reading.state]
    | rebase => simp [Reading.rebase]

theorem Reading.Steps.length_collections (hsteps : Steps ls r r') :
    r'.collections.length = r.collections.length + ls.count (.mark .closeParenthesis) := by
  induction hsteps with
  | refl => simp
  | step hstep _ ih =>
    rw [ih, List.count_append, ← Nat.add_assoc]
    congr 1
    cases hstep with
    | silent _ h => simp [h.ne_close]
    | declare _ label iri =>
      unfold Reading.declare
      split <;> simp
    | label => simp [Reading.label]
    | openBrackets => simp [Reading.openBrackets]
    | collect => simp [Reading.collect]
    | state => simp [Reading.state]
    | rebase => simp [Reading.rebase]

def Reading.WritesNoLinks (r : Reading) : Prop :=
  Rdf.first ∉ r.predicates ∧ Rdf.rest ∉ r.predicates

structure Reading.IsLinked (r : Reading) : Prop where
  links : ∀ t ∈ r.triples, IsLink t → t.subject ∈ freshNodes 0 r.nodeCount
  cells : ∀ c ∈ r.collections, ∀ cell ∈ c.cells, cell ∈ freshNodes 0 r.nodeCount
  chains : ∀ c ∈ r.collections, IsChain r.triples c.head c.cells c.values

theorem Reading.Step.writesNoLinks (hstep : Step ls r r') (h : r'.WritesNoLinks) : r.WritesNoLinks := by
  cases hstep with
  | declare _ label iri =>
    unfold Reading.declare at h
    split at h <;> exact h
  | state _ subject predicate object =>
    exact ⟨fun hf => h.1 (List.mem_append_left _ hf), fun hr => h.2 (List.mem_append_left _ hr)⟩
  | _ => exact h

theorem Reading.Steps.writesNoLinks (hsteps : Steps ls r r') (h : r'.WritesNoLinks) : r.WritesNoLinks := by
  induction hsteps with
  | refl => exact h
  | step hstep _ ih => exact hstep.writesNoLinks (ih h)

theorem mem_freshNodes_add {node : Term} {m : Nat} (n : Nat) (h : node ∈ freshNodes 0 m) :
    node ∈ freshNodes 0 (m + n) := by
  rw [← freshNodes_append]
  exact List.mem_append_left _ h

theorem Reading.IsLinked.state (h : r.IsLinked) {subject object : Term} {predicate : String}
    (hw : (r.state subject predicate object).WritesNoLinks) : (r.state subject predicate object).IsLinked := by
  have hstated (t : Triple) (ht : t ∈ [Triple.mk subject (.iri predicate) object]) : ¬IsLink t := by
    rw [List.mem_singleton.1 ht]
    rintro (hp | hp) <;> cases hp
    · exact hw.1 (List.mem_append_right _ List.mem_cons_self)
    · exact hw.2 (List.mem_append_right _ List.mem_cons_self)
  refine ⟨fun t ht hl => ?_, h.cells, fun c hc => ?_⟩
  · obtain ht | ht := List.mem_append.1 ht
    · exact h.links t ht hl
    · exact absurd hl (hstated t ht)
  · exact (h.chains c hc).append fun t ht hl => absurd hl (hstated t ht)

theorem Reading.IsLinked.collect (h : r.IsLinked) (values : List Term) : (r.collect values).2.IsLinked := by
  have hfresh (cell : Term) (hcell : cell ∈ freshNodes r.nodeCount values.length) :
      cell ∈ freshNodes 0 (r.nodeCount + values.length) := by
    rw [← freshNodes_append, Nat.zero_add]
    exact List.mem_append_right _ hcell
  refine ⟨fun t ht hl => ?_, fun c hc cell hcell => ?_, fun c hc => ?_⟩
  · obtain ht | ht := List.mem_append.1 ht
    · exact mem_freshNodes_add _ (h.links t ht hl)
    · exact hfresh _ (subject_mem_of_mem_chain ht)
  · obtain hc | hc := List.mem_append.1 hc
    · exact mem_freshNodes_add _ (h.cells c hc cell hcell)
    · rw [List.mem_singleton.1 hc] at hcell
      exact hfresh cell hcell
  · obtain hc | hc := List.mem_append.1 hc
    · refine (h.chains c hc).append fun t ht _ hmem => ?_
      exact disjoint_freshNodes _ _ (h.cells c hc _ hmem) (subject_mem_of_mem_chain ht)
    · rw [List.mem_singleton.1 hc]
      exact isChain_chain (nodup_freshNodes _ _) (length_freshNodes _ _) fun t ht hl hmem =>
        disjoint_freshNodes _ _ (h.links t ht hl) hmem

theorem Reading.isLinked_initial (options : ParserOptions) : (initial options).IsLinked where
  links _ ht := (List.not_mem_nil ht).elim
  cells _ hc := (List.not_mem_nil hc).elim
  chains _ hc := (List.not_mem_nil hc).elim

theorem Reading.Step.isLinked (hstep : Step ls r r') (hw : r'.WritesNoLinks) (h : r.IsLinked) : r'.IsLinked := by
  cases hstep with
  | silent => exact h
  | label => exact ⟨h.links, h.cells, h.chains⟩
  | rebase => exact ⟨h.links, h.cells, h.chains⟩
  | declare _ label iri =>
    unfold Reading.declare
    split
    · exact ⟨h.links, h.cells, h.chains⟩
    · exact h
  | openBrackets =>
    exact ⟨fun t ht hl => mem_freshNodes_add 1 (h.links t ht hl),
      fun c hc cell hcell => mem_freshNodes_add 1 (h.cells c hc cell hcell), h.chains⟩
  | collect _ values => exact h.collect values
  | state => exact h.state hw

theorem Reading.Steps.isLinked (hsteps : Steps ls r r') (hw : r'.WritesNoLinks) (h : r.IsLinked) : r'.IsLinked := by
  induction hsteps with
  | refl => exact h
  | step hstep hsteps ih => exact ih hw (hstep.isLinked (hsteps.writesNoLinks hw) h)

/-- A document holds what the trees of its statements are read as. There, the places of blank nodes are those of its
labels and opening brackets, in order, and the cells of its collections, which are as many as there are closing
parentheses. Two of these places have the same node just if they have the same written label. Unless the predicates
of chains are written out, every collection is a chain of its cells, which hold the values of its items. -/
theorem parseTokens_blankNodes (options : ParserOptions) (size : Nat) (tokens : Tokens) {d : Document}
    (h : parseTokens options size tokens = .ok d) :
    (∃ statements, Tree.documentLexemes statements = tokens.tokens.map (·.lexeme)) ∧
    ∀ statements, Tree.documentLexemes statements = tokens.tokens.map (·.lexeme) →
      let r := Tree.documentReading options statements
      d.triples = distinct r.triples ∧
      (r.occurrences.map (·.origin)).filter (· ≠ .cell) =
        (tokens.tokens.map (·.lexeme)).filterMap Origin.ofLexeme? ∧
      (r.occurrences.filter (·.origin = .cell)).map (·.node) = r.collections.flatMap (·.cells) ∧
      r.collections.length = (tokens.tokens.map (·.lexeme)).count (.mark .closeParenthesis) ∧
      (r.occurrences.Pairwise fun a b =>
        a.node = b.node ↔ ∃ label, a.origin = .label label ∧ b.origin = .label label) ∧
      (r.WritesNoLinks → ∀ c ∈ r.collections, IsChain d.triples c.head c.cells c.values) := by
  obtain ⟨htrees, htriples⟩ := documentReading_of_parseTokens h
  refine ⟨htrees, fun statements hs => ?_⟩
  have hsteps := Tree.documentReading_steps options statements
  have hnumbered : (Tree.documentReading options statements).IsNumbered :=
    hsteps.isNumbered (Reading.isNumbered_initial options)
  refine ⟨htriples statements hs, hs ▸ hsteps.origins, hnumbered.cells, ?_, hnumbered.pairwise, fun hw c hc => ?_⟩
  · rw [← hs, hsteps.length_collections]
    exact Nat.zero_add _
  · rw [htriples statements hs]
    exact ((hsteps.isLinked hw (Reading.isLinked_initial options)).chains c hc).distinct

/-- `_:a <a:p> (1 [ <a:q> _:a ] ()) .` -/
def nestedItemTokens : Tokens :=
  tokensOf [.blankNode "a", .iri "a:p", .mark .openParenthesis, .number .integer "1", .mark .openBracket, .iri "a:q",
    .blankNode "a", .mark .closeBracket, .mark .openParenthesis, .mark .closeParenthesis, .mark .closeParenthesis,
    .mark .dot]

def nestedItems : List Tree.Statement :=
  [.triples (.blankNode "a") (.last (.objects (.iri (.reference "a:p")) (.collection
    (.cons (.literal (.number .integer "1"))
      (.cons (.brackets (.last (.objects (.iri (.reference "a:q")) (.blankNode "a") .nil) 0))
        (.cons (.collection .nil) .nil)))) .nil) 0) rfl]

/-- The brackets inside are numbered before the cells, and the empty collection has none. -/
theorem parseTokens_blankNodes_nestedItems :
    ∃ d, parseTokens {} 0 nestedItemTokens = .ok d ∧
      Tree.documentLexemes nestedItems = nestedItemTokens.tokens.map (·.lexeme) ∧
      (Tree.documentReading {} nestedItems).WritesNoLinks ∧
      IsChain d.triples (.blank "g2") [.blank "g2", .blank "g3", .blank "g4"]
        [.typed "1" Xsd.integer, .blank "g1", .iri Rdf.nil] := by
  have hok : (parseTokens {} 0 nestedItemTokens).isOk = true := by decide
  have hlexemes : Tree.documentLexemes nestedItems = nestedItemTokens.tokens.map (·.lexeme) := rfl
  have hwrites : (Tree.documentReading {} nestedItems).WritesNoLinks := ⟨by decide, by decide⟩
  have hcollected : ⟨.blank "g2", [.blank "g2", .blank "g3", .blank "g4"],
      [.typed "1" Xsd.integer, .blank "g1", .iri Rdf.nil]⟩ ∈ (Tree.documentReading {} nestedItems).collections := by
    decide
  cases hd : parseTokens {} 0 nestedItemTokens with
  | error e =>
    rw [hd] at hok
    cases hok
  | ok d =>
    obtain ⟨-, -, -, -, -, hchains⟩ := (parseTokens_blankNodes {} 0 nestedItemTokens hd).2 nestedItems hlexemes
    exact ⟨d, rfl, hlexemes, hwrites, hchains hwrites _ hcollected⟩

end CommandOntology.Turtle
