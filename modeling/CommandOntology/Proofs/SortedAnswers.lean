import CommandOntology.Proofs.ViewValues

set_option autoImplicit false

namespace CommandOntology

structure Term.IsSettled (t : Term) : Prop where
  node : t.node = t
  matchKey : t.matchKey = t
  ofNode : t.ofNode = t

/-- A term whose node a graph does not confuse with others, and gives out as it is. -/
structure Term.IsGivenOut (t : Term) : Prop where
  matchKey : t.node.matchKey = t.node
  ofNode : t.node.ofNode = t.node

theorem Term.IsSettled.isGivenOut {t : Term} (h : t.IsSettled) : t.IsGivenOut :=
  ⟨by rw [h.node, h.matchKey], by rw [h.node, h.ofNode]⟩

theorem Term.isSettled_of_isResource (t : Term) (h : t.isResource = true) : t.IsSettled := by
  cases t with
  | iri => exact ⟨rfl, rfl, rfl⟩
  | blank => exact ⟨rfl, rfl, rfl⟩
  | literal => cases h

theorem Term.isSettled_plain (text : String) : (plain text).IsSettled :=
  ⟨rfl, rfl, rfl⟩

theorem Term.isSettled_typed {text datatype : String} (hne : datatype ≠ "") (hs : datatype ≠ Xsd.string)
    (htext : textOfType text datatype = text) : (typed text datatype).IsSettled :=
  ⟨by simp [typed, node, hne, htext], rfl, by simp [typed, ofNode, hs]⟩

def AreSettled (triples : List Triple) : Prop :=
  ∀ t ∈ triples, ∀ x ∈ t.terms, x.IsSettled

def AreGivenOut (triples : List Triple) : Prop :=
  ∀ t ∈ triples, ∀ x ∈ t.terms, x.IsGivenOut

theorem AreSettled.areGivenOut {triples : List Triple} (h : AreSettled triples) : AreGivenOut triples :=
  fun t ht x hx => (h t ht x hx).isGivenOut

def nodeTriples (triples : List Triple) : List Triple :=
  triples.map (·.mapTerms Term.node)

theorem mapTerms_eq_self (f : Term → Term) (t : Triple) (h : ∀ x ∈ t.terms, f x = x) :
    t.mapTerms f = t := by
  simp only [Triple.terms, List.mem_cons, List.not_mem_nil, or_false, forall_eq_or_imp,
    forall_eq] at h
  rw [Triple.mapTerms, h.1, h.2.1, h.2.2]

theorem mapTerms_pattern_eq_self (f : Term → Term) (p : TriplePattern)
    (h : ∀ x ∈ p.terms, f x = x) : p.mapTerms f = p := by
  obtain ⟨s, q, o⟩ := p
  cases s <;> cases q <;> cases o <;>
    simp_all [TriplePattern.mapTerms, TriplePattern.terms]

theorem distinctByFrom_eq_of_key {α : Type} [DecidableEq α] (key : α → α) (seen xs : List α)
    (h : ∀ x ∈ xs, key x = x) : distinctByFrom key seen xs = distinctByFrom id seen xs := by
  induction xs generalizing seen with
  | nil => rfl
  | cons x xs ih =>
    have hx := h x List.mem_cons_self
    have hxs := fun s => ih s fun y hy => h y (List.mem_cons_of_mem x hy)
    simp only [distinctByFrom, hx, hxs, id]

theorem fill_eq_self (p : TriplePattern) (t : Triple) (h : p.holds t = true) : p.fill t = t := by
  obtain ⟨s, q, o⟩ := p
  obtain ⟨x, y, z⟩ := t
  rw [TriplePattern.holds_iff] at h
  cases s <;> cases q <;> cases o <;>
    simp_all [TriplePattern.fill, TriplePattern.admits_some]

theorem AreSettled.nodeTriples_eq {triples : List Triple} (h : AreSettled triples) :
    nodeTriples triples = triples := by
  conv_rhs => rw [← List.map_id triples]
  exact List.map_congr_left fun t ht => mapTerms_eq_self _ t fun x hx => (h t ht x hx).node

section

variable {triples : List Triple} (h : AreGivenOut triples)

include h

theorem AreGivenOut.exists_term {t : Triple} (ht : t ∈ nodeTriples triples) {x : Term}
    (hx : x ∈ t.terms) : ∃ y : Term, y.IsGivenOut ∧ y.node = x := by
  obtain ⟨u, hu, rfl⟩ := List.mem_map.1 ht
  obtain ⟨y, hy, rfl⟩ : ∃ y ∈ u.terms, y.node = x := List.mem_map.1 hx
  exact ⟨y, h u hu y hy, rfl⟩

theorem AreGivenOut.mapTerms_matchKey (t : Triple) (ht : t ∈ nodeTriples triples) :
    t.mapTerms Term.matchKey = t :=
  mapTerms_eq_self _ t fun x hx => by
    obtain ⟨y, hy, rfl⟩ := h.exists_term ht hx
    exact hy.matchKey

theorem AreGivenOut.mapTerms_ofNode (t : Triple) (ht : t ∈ nodeTriples triples) :
    t.mapTerms Term.ofNode = t :=
  mapTerms_eq_self _ t fun x hx => by
    obtain ⟨y, hy, rfl⟩ := h.exists_term ht hx
    exact hy.ofNode

namespace SortedStore

theorem statements_nodeTriples : (ofList triples).graph.statements = distinct (nodeTriples triples) :=
  distinctByFrom_eq_of_key _ [] (nodeTriples triples) h.mapTerms_matchKey

theorem indexedObject_eq (t : Triple) (ht : t ∈ nodeTriples triples) :
    (ofList triples).indexedObject t = t.object := by
  have hmatch (u : Triple) (hu : u ∈ nodeTriples triples) : u.object.matchKey = u.object :=
    congrArg Triple.object (h.mapTerms_matchKey u hu)
  rw [indexedObject, statements_nodeTriples h]
  cases hf : (distinct (nodeTriples triples)).find? fun other =>
      other.predicate == t.predicate && other.object.matchKey == t.object.matchKey with
  | none => rfl
  | some other =>
    have hp := List.find?_some hf
    have hin := (mem_distinct _ _).1 (List.mem_of_find?_eq_some hf)
    simp only [Bool.and_eq_true, beq_iff_eq, hmatch other hin, hmatch t ht] at hp
    exact hp.2

theorem giveOut_perm (statements : List Triple) (hs : ∀ t ∈ statements, t ∈ nodeTriples triples) :
    (giveOut statements).Perm statements := by
  have hnode : statements.map (·.mapTerms Term.ofNode) = statements := by
    conv_rhs => rw [← List.map_id statements]
    exact List.map_congr_left fun t ht => h.mapTerms_ofNode t (hs t ht)
  rw [giveOut, hnode]
  exact sortByKey_perm _ _ _

theorem query_perm (p : TriplePattern) (hp : ∀ t ∈ p.terms, t.IsSettled) :
    ((ofList triples).query p).Perm ((distinct (nodeTriples triples)).filter p.holds) := by
  have hmem (t : Triple) (ht : t ∈ (distinct (nodeTriples triples)).filter p.holds) :
      t ∈ nodeTriples triples :=
    (mem_distinct t _).1 (List.mem_filter.1 ht).1
  have hnode : p.mapTerms Term.node = p :=
    mapTerms_pattern_eq_self _ p fun x hx => (hp x hx).node
  have hmatch : p.mapTerms Term.matchKey = p :=
    mapTerms_pattern_eq_self _ p fun x hx => (hp x hx).matchKey
  have hfilter : ((ofList triples).graph.statements.filter fun t =>
      p.holds (t.mapTerms Term.matchKey)) = (distinct (nodeTriples triples)).filter p.holds := by
    rw [statements_nodeTriples h]
    exact List.filter_congr fun t ht => by rw [h.mapTerms_matchKey t ((mem_distinct t _).1 ht)]
  have hindexed : ((distinct (nodeTriples triples)).filter p.holds).map
      (fun t => { t with object := (ofList triples).indexedObject t }) =
        (distinct (nodeTriples triples)).filter p.holds := by
    conv_rhs => rw [← List.map_id ((distinct (nodeTriples triples)).filter p.holds)]
    exact List.map_congr_left fun t ht => by rw [indexedObject_eq h t (hmem t ht), id]
  have hfill : ((distinct (nodeTriples triples)).filter p.holds).map p.fill =
      (distinct (nodeTriples triples)).filter p.holds := by
    conv_rhs => rw [← List.map_id ((distinct (nodeTriples triples)).filter p.holds)]
    exact List.map_congr_left fun t ht => fill_eq_self p t (List.mem_filter.1 ht).2
  simp only [query, hnode, hmatch, hfilter, hindexed, ite_self, hfill]
  exact giveOut_perm h _ hmem

end SortedStore

theorem View.reads_nodeTriples :
    (View.ofStore (.ofList .sorted triples)).Reads (distinct (nodeTriples triples)) where
  query p hp := SortedStore.query_perm h p fun t ht => Term.isSettled_of_isResource t (hp t ht)
  declared t := by
    have hperm := SortedStore.giveOut_perm h (distinct (nodeTriples triples)) fun t =>
      (mem_distinct t _).1
    have hlist : (Store.ofList .sorted triples).toList.Perm (distinct (nodeTriples triples)) := by
      change (SortedStore.giveOut _).Perm _
      rw [SortedStore.statements_nodeTriples h]
      exact hperm
    simp [isDeclared, ofStore, Store.subjects, hlist.mem_iff]
  nodup := nodup_distinct _

end

theorem SortedStore.statements_ofList {triples : List Triple} (h : AreSettled triples) :
    (ofList triples).graph.statements = distinct triples := by
  rw [statements_nodeTriples h.areGivenOut, h.nodeTriples_eq]

/-- Stores of both kinds answer a question about settled terms with the same statements. -/
theorem Store.query_perm {triples : List Triple} (h : AreSettled triples) (backend : Backend)
    (p : TriplePattern) (hp : ∀ t ∈ p.terms, t.IsSettled) :
    ((Store.ofList backend triples).query p).Perm ((distinct triples).filter p.holds) := by
  cases backend with
  | memory => rw [query_memory]
  | sorted =>
    have hperm := SortedStore.query_perm h.areGivenOut p hp
    rwa [h.nodeTriples_eq] at hperm

theorem View.reads_ofList (backend : Backend) (triples : List Triple) (h : AreSettled triples) :
    (View.ofStore (.ofList backend triples)).Reads (distinct triples) := by
  cases backend with
  | memory => exact reads_memory triples
  | sorted =>
    have hreads := reads_nodeTriples h.areGivenOut
    rwa [h.nodeTriples_eq] at hreads

end CommandOntology
