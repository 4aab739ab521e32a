import CommandOntology.Proofs.Outcomes
import CommandOntology.Proofs.StoreAnswers
import CommandOntology.Query.Execution

set_option autoImplicit false

namespace CommandOntology.Query

def Slot.denotes (mapping : String → Option Term) : Slot → Option Term
  | var name => mapping name
  | term t => some t

def Pattern.denotes (mapping : String → Option Term) (p : Pattern) : Option Triple := do
  return ⟨← p.subject.denotes mapping, ← p.predicate.denotes mapping, ← p.object.denotes mapping⟩

/-- A mapping has terms for the variables of patterns, and makes each pattern a statement of a graph. -/
structure IsSolution (g : List Triple) (patterns : List Pattern) (mapping : String → Option Term) :
    Prop where
  domain : ∀ name, (mapping name).isSome = true ↔ ∃ p ∈ patterns, name ∈ p.varNames
  stated : ∀ p ∈ patterns, ∃ t ∈ g, p.denotes mapping = some t

/-- The places in a graph of the statements that patterns become, pattern by pattern. -/
def statementPlaces (g : List Triple) (patterns : List Pattern) (mapping : String → Option Term) :
    List Nat :=
  patterns.map fun p => g.findIdx fun t => p.denotes mapping == some t

/-- Bindings are the solutions of patterns, each once, in the order of the statements of the first
pattern, then of the second, and so on. -/
structure ListsSolutions (g : List Triple) (patterns : List Pattern) (bindings : List Binding) :
    Prop where
  mem_iff : ∀ mapping, (∃ b ∈ bindings, findField b = mapping) ↔ IsSolution g patterns mapping
  nodup : (bindings.map findField).Nodup
  ordered : (bindings.map fun b => statementPlaces g patterns (findField b)).Pairwise (· < ·)

structure SelectQuery.IsPlain (q : SelectQuery) : Prop where
  optionals : q.optionals = []
  filters : q.filters = []
  distinct : q.distinct = false
  order : q.order = []
  limit : q.limit = none
  offset : q.offset = 0

theorem denotes_eq_some_iff (mapping : String → Option Term) (p : Pattern) (t : Triple) :
    p.denotes mapping = some t ↔ p.subject.denotes mapping = some t.subject ∧
      p.predicate.denotes mapping = some t.predicate ∧ p.object.denotes mapping = some t.object := by
  obtain ⟨s, q, o⟩ := t
  simp only [Pattern.denotes, Option.pure_def, Option.bind_eq_bind, Option.bind_eq_some_iff,
    Option.some.injEq, Triple.mk.injEq]
  constructor
  · rintro ⟨_, hs, _, hq, _, ho, rfl, rfl, rfl⟩
    exact ⟨hs, hq, ho⟩
  · rintro ⟨hs, hq, ho⟩
    exact ⟨s, hs, q, hq, o, ho, rfl, rfl, rfl⟩

def Extends (mapping : String → Option Term) (b : Binding) : Prop :=
  ∀ name t, findField b name = some t → mapping name = some t

theorem findField_append_singleton (b : Binding) (name other : String) (t : Term)
    (hn : findField b name = none) : findField (b ++ [(name, t)]) other =
      if other = name then some t else findField b other := by
  have hnone : b.find? (fun field => field.1 == name) = none := by
    simpa [findField] using hn
  rw [findField, List.find?_append]
  by_cases ho : other = name
  · subst ho
    simp [hnone]
  · have hne : (name == other) = false := by simpa using fun h : name = other => ho h.symm
    simp [findField, ho, hne]

theorem extends_append_singleton_iff (mapping : String → Option Term) (b : Binding) (name : String)
    (t : Term) (hn : findField b name = none) :
    Extends mapping (b ++ [(name, t)]) ↔ Extends mapping b ∧ mapping name = some t := by
  simp only [Extends, findField_append_singleton b name _ t hn]
  constructor
  · intro h
    refine ⟨fun other u hu => h other u ?_, h name t (if_pos rfl)⟩
    rw [if_neg, hu]
    rintro rfl
    simp [hn] at hu
  · rintro ⟨h, ht⟩ other u hu
    split at hu
    next he => rw [he, ht, hu]
    next => exact h other u hu

/-- Binding a place asks of a mapping that the place becomes the term. A place that is a term itself has
been compared before. -/
theorem bindSlot_iff (mapping : String → Option Term) (b : Binding) (slot : Slot) (t : Term)
    (ht : ∀ u, slot = .term u → u = t) :
    (∃ b', bindSlot b slot t = some b' ∧ Extends mapping b') ↔
      Extends mapping b ∧ slot.denotes mapping = some t := by
  cases slot with
  | term u =>
    have hu : u = t := ht u rfl
    simp [bindSlot, Slot.denotes, hu]
  | var name =>
    simp only [bindSlot, Slot.denotes]
    cases hf : findField b name with
    | none => simp [extends_append_singleton_iff mapping b name t hf]
    | some current =>
      by_cases hc : current = t
      · subst hc
        simp only [if_true, Option.some.injEq, exists_eq_left', iff_self_and]
        exact fun h => h name current hf
      · simp only [if_neg hc, reduceCtorEq, false_and, exists_false, false_iff, not_and]
        intro h hm
        have hcurrent := h name current hf
        exact hc (Option.some.inj (hcurrent.symm.trans hm))

theorem bindSlot_isSome (b b' : Binding) (slot : Slot) (t : Term) (hb : bindSlot b slot t = some b')
    (name : String) : (findField b' name).isSome = true ↔
      (findField b name).isSome = true ∨ name ∈ slot.varNames := by
  cases slot with
  | term u =>
    simp only [bindSlot, Option.some.injEq] at hb
    simp [hb, Slot.varNames]
  | var other =>
    simp only [bindSlot] at hb
    cases hf : findField b other with
    | none =>
      simp only [hf, Option.some.injEq] at hb
      rw [← hb, findField_append_singleton b other name t hf]
      by_cases hn : name = other <;> simp [hn, Slot.varNames]
    | some current =>
      simp only [hf] at hb
      split at hb
      · simp only [Option.some.injEq] at hb
        subst hb
        simp only [Slot.varNames, List.mem_singleton, iff_self_or]
        rintro rfl
        simp [hf]
      · simp at hb

theorem extend_isSome (p : Pattern) (b b' : Binding) (t : Triple) (he : extend p b t = some b')
    (name : String) : (findField b' name).isSome = true ↔
      (findField b name).isSome = true ∨ name ∈ p.varNames := by
  simp only [extend, Option.bind_eq_bind, Option.bind_eq_some_iff] at he
  obtain ⟨b₁, hs, b₂, hp, ho⟩ := he
  rw [bindSlot_isSome b₂ b' _ _ ho, bindSlot_isSome b₁ b₂ _ _ hp, bindSlot_isSome b b₁ _ _ hs]
  simp [Pattern.varNames, or_assoc]

theorem admits_value?_of_denotes (mapping : String → Option Term) (b : Binding) (slot : Slot)
    (t : Term) (hm : Extends mapping b) (hd : slot.denotes mapping = some t) :
    TriplePattern.admits (slot.value? b) t = true := by
  cases slot with
  | term u =>
    simp only [Slot.denotes, Option.some.injEq] at hd
    simp [Slot.value?, TriplePattern.admits, hd]
  | var name =>
    cases hf : findField b name with
    | none => simp [Slot.value?, TriplePattern.admits, hf]
    | some u =>
      have hu := hm name u hf
      rw [Slot.denotes, hu, Option.some.injEq] at hd
      simp [Slot.value?, TriplePattern.admits, hf, hd]

/-- The statements that answer the question of a pattern and extend a binding are those that the pattern
becomes under mappings that agree with the binding. -/
theorem extend_iff (mapping : String → Option Term) (p : Pattern) (b : Binding) (t : Triple) :
    (∃ b', (p.probe b).holds t = true ∧ extend p b t = some b' ∧ Extends mapping b') ↔
      Extends mapping b ∧ p.denotes mapping = some t := by
  rw [denotes_eq_some_iff]
  have hterm (slot : Slot) (x : Term) (ha : TriplePattern.admits (slot.value? b) x = true) (u : Term)
      (hu : slot = .term u) : u = x := by
    subst hu
    exact (TriplePattern.admits_some u x).1 ha
  have hextend (hh : (p.probe b).holds t = true) :
      (∃ b', extend p b t = some b' ∧ Extends mapping b') ↔ Extends mapping b ∧
        p.subject.denotes mapping = some t.subject ∧
          p.predicate.denotes mapping = some t.predicate ∧
            p.object.denotes mapping = some t.object := by
    obtain ⟨hs, hp, ho⟩ := (TriplePattern.holds_iff _ t).1 hh
    rw [← and_assoc, ← bindSlot_iff mapping b p.subject t.subject (hterm _ _ hs)]
    simp only [extend, Option.bind_eq_bind, Option.bind_eq_some_iff]
    constructor
    · rintro ⟨b', ⟨b₁, h₁, b₂, h₂, h₃⟩, hm⟩
      obtain ⟨hm₂, hdo⟩ := (bindSlot_iff mapping b₂ _ _ (hterm _ _ ho)).1 ⟨b', h₃, hm⟩
      obtain ⟨hm₁, hdp⟩ := (bindSlot_iff mapping b₁ _ _ (hterm _ _ hp)).1 ⟨b₂, h₂, hm₂⟩
      exact ⟨⟨b₁, h₁, hm₁⟩, hdp, hdo⟩
    · rintro ⟨⟨b₁, h₁, hm₁⟩, hdp, hdo⟩
      obtain ⟨b₂, h₂, hm₂⟩ := (bindSlot_iff mapping b₁ _ _ (hterm _ _ hp)).2 ⟨hm₁, hdp⟩
      obtain ⟨b', h₃, hm⟩ := (bindSlot_iff mapping b₂ _ _ (hterm _ _ ho)).2 ⟨hm₂, hdo⟩
      exact ⟨b', ⟨b₁, h₁, b₂, h₂, h₃⟩, hm⟩
  constructor
  · rintro ⟨b', hh, he, hm⟩
    exact (hextend hh).1 ⟨b', he, hm⟩
  · rintro ⟨hm, hs, hp, ho⟩
    have hh : (p.probe b).holds t = true := (TriplePattern.holds_iff _ t).2
      ⟨admits_value?_of_denotes mapping b _ _ hm hs, admits_value?_of_denotes mapping b _ _ hm hp,
        admits_value?_of_denotes mapping b _ _ hm ho⟩
    obtain ⟨b', he, hm'⟩ := (hextend hh).2 ⟨hm, hs, hp, ho⟩
    exact ⟨b', hh, he, hm'⟩

def extendBy (store : Store) : List Pattern → Binding → List Binding
  | [], b => [b]
  | p :: rest, b => ((store.query (p.probe b)).filterMap (extend p b)).flatMap (extendBy store rest)

theorem Work.outcome_bind {α β : Type} (w : Work α) (f : α → Work β) :
    (w >>= f).outcome = w.outcome >>= fun a => (f a).outcome := by
  simp only [Bind.bind, Work.bind, Except.bind]
  cases w.outcome <;> rfl

theorem join_outcome_eq (store : Store) (p : Pattern) (bindings : List Binding) :
    (join store p bindings).outcome =
      .ok (bindings.flatMap fun b => (store.query (p.probe b)).filterMap (extend p b)) := by
  induction bindings with
  | nil => rfl
  | cons b rest ih =>
    simp only [join, extensions, bind, Work.bind, ih, List.flatMap_cons]
    rfl

theorem joinAll_outcome_eq (store : Store) (patterns : List Pattern) (bindings : List Binding) :
    (joinAll store bindings patterns).outcome = .ok (bindings.flatMap (extendBy store patterns)) := by
  induction patterns generalizing bindings with
  | nil => simp [joinAll, extendBy, pure, Work.pure]
  | cons p rest ih =>
    simp only [joinAll, bind, Work.bind, join_outcome_eq, ih, List.flatMap_assoc]
    rfl

def solve (g : List Triple) : List Pattern → Binding → List Binding
  | [], b => [b]
  | p :: rest, b => ((g.filter (p.probe b).holds).filterMap (extend p b)).flatMap (solve g rest)

theorem extendBy_memory (triples : List Triple) (patterns : List Pattern) :
    extendBy (.ofList .memory triples) patterns = solve (distinct triples) patterns := by
  induction patterns with
  | nil => rfl
  | cons p rest ih =>
    funext b
    rw [extendBy, solve, Store.query_memory, ih]

theorem joinAll_outcome (triples : List Triple) (patterns : List Pattern) (bindings : List Binding) :
    (joinAll (.ofList .memory triples) bindings patterns).outcome =
      .ok (bindings.flatMap (solve (distinct triples) patterns)) := by
  rw [joinAll_outcome_eq, extendBy_memory]

theorem mem_solve_iff (g : List Triple) (patterns : List Pattern) (b : Binding)
    (mapping : String → Option Term) :
    (∃ b' ∈ solve g patterns b, findField b' = mapping) ↔ Extends mapping b ∧
      (∀ p ∈ patterns, ∃ t ∈ g, p.denotes mapping = some t) ∧
        ∀ name, (mapping name).isSome = true ↔
          (findField b name).isSome = true ∨ ∃ p ∈ patterns, name ∈ p.varNames := by
  induction patterns generalizing b with
  | nil =>
    simp only [solve, List.mem_singleton, exists_eq_left, List.not_mem_nil, false_implies,
      implies_true, true_and, false_and, exists_false, or_false]
    constructor
    · rintro rfl
      exact ⟨fun _ _ h => h, fun _ => Iff.rfl⟩
    · rintro ⟨hm, hdom⟩
      funext name
      cases hf : findField b name with
      | none =>
        have hnone := hdom name
        simp only [hf, Option.isSome_none, Bool.false_eq_true, iff_false, Bool.not_eq_true,
          Option.isSome_eq_false_iff, Option.isNone_iff_eq_none] at hnone
        exact hnone.symm
      | some t => exact (hm name t hf).symm
  | cons p rest ih =>
    have hvars (b₁ : Binding) (t : Triple) (he : extend p b t = some b₁) (name : String) :
        ((findField b₁ name).isSome = true ∨ ∃ q ∈ rest, name ∈ q.varNames) ↔
          ((findField b name).isSome = true ∨ ∃ q ∈ p :: rest, name ∈ q.varNames) := by
      simp [extend_isSome p b b₁ t he, or_assoc]
    simp only [solve, List.mem_flatMap, List.mem_filterMap, List.mem_filter, List.forall_mem_cons]
    constructor
    · rintro ⟨b', ⟨b₁, ⟨t, ⟨ht, hh⟩, he⟩, hin⟩, hmap⟩
      obtain ⟨hm₁, hall, hdom⟩ := (ih b₁).1 ⟨b', hin, hmap⟩
      obtain ⟨hm, hd⟩ := (extend_iff mapping p b t).1 ⟨b₁, hh, he, hm₁⟩
      exact ⟨hm, ⟨⟨t, ht, hd⟩, hall⟩, fun name => (hdom name).trans (hvars b₁ t he name)⟩
    · rintro ⟨hm, ⟨⟨t, ht, hd⟩, hall⟩, hdom⟩
      obtain ⟨b₁, hh, he, hm₁⟩ := (extend_iff mapping p b t).2 ⟨hm, hd⟩
      obtain ⟨b', hin, hmap⟩ :=
        (ih b₁).2 ⟨hm₁, hall, fun name => (hdom name).trans (hvars b₁ t he name).symm⟩
      exact ⟨b', ⟨b₁, ⟨t, ⟨ht, hh⟩, he⟩, hin⟩, hmap⟩

theorem findIdx_denotes (g : List Triple) (p : Pattern) (mapping : String → Option Term) (t : Triple)
    (hd : p.denotes mapping = some t) :
    (g.findIdx fun x => p.denotes mapping == some x) = g.idxOf t := by
  rw [List.idxOf]
  congr 1
  funext x
  rw [hd, Option.some_beq_some]
  exact BEq.comm

theorem pairwise_idxOf (g : List Triple) (hn : g.Nodup) :
    g.Pairwise fun t u => g.idxOf t < g.idxOf u := by
  rw [List.pairwise_iff_getElem]
  intro i j hi hj hij
  rw [hn.idxOf_getElem i hi, hn.idxOf_getElem j hj]
  exact hij

/-- The extensions by the first pattern's statement come before those by a later one, and among the
extensions by one statement the remaining patterns decide. -/
theorem solve_ordered (g : List Triple) (hn : g.Nodup) (patterns : List Pattern) (b : Binding) :
    (solve g patterns b).Pairwise fun x y =>
      statementPlaces g patterns (findField x) < statementPlaces g patterns (findField y) := by
  induction patterns generalizing b with
  | nil => simp [solve]
  | cons p rest ih =>
    have hfirst (t : Triple) (b₁ x : Binding) (hh : (p.probe b).holds t = true)
        (he : extend p b t = some b₁) (hx : x ∈ solve g rest b₁) :
        statementPlaces g (p :: rest) (findField x) =
          g.idxOf t :: statementPlaces g rest (findField x) := by
      have hm := ((mem_solve_iff g rest b₁ (findField x)).1 ⟨x, hx, rfl⟩).1
      have hd := ((extend_iff (findField x) p b t).1 ⟨b₁, hh, he, hm⟩).2
      rw [statementPlaces, List.map_cons, findIdx_denotes g p _ t hd]
      rfl
    rw [solve, List.pairwise_flatMap]
    constructor
    · intro b₁ hb₁
      obtain ⟨t, ht, he⟩ := List.mem_filterMap.1 hb₁
      have hh := (List.mem_filter.1 ht).2
      refine List.Pairwise.imp_of_mem ?_ (ih b₁)
      intro x y hx hy hlt
      rw [hfirst t b₁ x hh he hx, hfirst t b₁ y hh he hy]
      exact List.cons_lt_cons_iff.2 (.inr ⟨rfl, hlt⟩)
    · rw [List.pairwise_filterMap]
      refine List.Pairwise.imp_of_mem ?_ ((pairwise_idxOf g hn).filter _)
      intro t u ht hu hlt b₁ hb₁ b₂ hb₂ x hx y hy
      rw [hfirst t b₁ x (List.mem_filter.1 ht).2 hb₁ hx,
        hfirst u b₂ y (List.mem_filter.1 hu).2 hb₂ hy]
      exact List.cons_lt_cons_iff.2 (.inl hlt)

theorem solve_listsSolutions (triples : List Triple) (patterns : List Pattern) :
    ListsSolutions (distinct triples) patterns (solve (distinct triples) patterns []) := by
  have hordered := solve_ordered (distinct triples) (nodup_distinct triples) patterns []
  constructor
  · intro mapping
    rw [mem_solve_iff]
    constructor
    · rintro ⟨-, hall, hdom⟩
      exact ⟨fun name => by simpa [findField] using hdom name, hall⟩
    · rintro ⟨hdom, hall⟩
      exact ⟨by simp [Extends, findField], hall, fun name => by simpa [findField] using hdom name⟩
  · rw [List.Nodup, List.pairwise_map]
    refine hordered.imp fun hlt he => ?_
    rw [he] at hlt
    exact List.lt_irrefl _ hlt
  · rw [List.pairwise_map]
    exact hordered

theorem IsSolution.perm {g : List Triple} {patterns patterns' : List Pattern}
    {mapping : String → Option Term} (hp : patterns.Perm patterns')
    (h : IsSolution g patterns mapping) : IsSolution g patterns' mapping where
  domain name := by
    rw [h.domain name]
    exact exists_congr fun p => and_congr_left fun _ => hp.mem_iff
  stated p hin := h.stated p (hp.mem_iff.2 hin)

/-- The order of patterns bears on the order of their solutions alone. -/
theorem solve_perm (triples : List Triple) (patterns patterns' : List Pattern)
    (hp : patterns.Perm patterns') :
    ((solve (distinct triples) patterns []).map findField).Perm
      ((solve (distinct triples) patterns' []).map findField) := by
  have h := solve_listsSolutions triples patterns
  have h' := solve_listsSolutions triples patterns'
  refine (List.perm_ext_iff_of_nodup h.nodup h'.nodup).2 fun mapping => ?_
  rw [List.mem_map, List.mem_map, h.mem_iff, h'.mem_iff]
  exact ⟨.perm hp, .perm hp.symm⟩

theorem project_perm (projection : List String) {bindings bindings' : List Binding}
    (h : (bindings.map findField).Perm (bindings'.map findField)) :
    (bindings.map (project projection)).Perm (bindings'.map (project projection)) := by
  have hproject : project projection =
      (fun mapping => projection.filterMap fun name => (mapping name).map (name, ·)) ∘ findField :=
    rfl
  rw [hproject, ← List.map_map, ← List.map_map]
  exact h.map _

theorem run_plain_outcome (q : SelectQuery) (hq : q.IsPlain) (store : Store) :
    (q.run store).outcome =
      .ok ⟨q.projection, (extendBy store q.patterns []).map (project q.projection)⟩ := by
  simp [SelectQuery.run, SelectQuery.solutions, SelectQuery.rows, bind, Work.bind, joinAll_outcome_eq,
    hq.optionals, hq.filters, hq.distinct, hq.order, hq.limit, hq.offset, leftJoinAll, filterAll,
    orderAll, slice, Work.check, pure, Work.pure]

theorem run_plain (q : SelectQuery) (hq : q.IsPlain) (triples : List Triple) :
    (q.run (.ofList .memory triples)).outcome =
      .ok ⟨q.projection, (solve (distinct triples) q.patterns []).map (project q.projection)⟩ := by
  rw [run_plain_outcome q hq, extendBy_memory]

theorem findField_cons (key name : String) (t : Term) (rest : Binding) :
    findField ((key, t) :: rest) name = if key = name then some t else findField rest name := by
  by_cases hk : key = name <;> simp [findField, hk]

theorem findField_project (projection : List String) (b : Binding) (name : String) :
    findField (project projection b) name =
      if name ∈ projection then findField b name else none := by
  induction projection with
  | nil => rfl
  | cons other rest ih =>
    cases hf : findField b other with
    | none =>
      have hskip : project (other :: rest) b = project rest b := by
        rw [project, List.filterMap_cons, hf]
        rfl
      rw [hskip, ih]
      by_cases hn : name = other <;> simp [hn, hf]
    | some t =>
      have hput : project (other :: rest) b = (other, t) :: project rest b := by
        rw [project, List.filterMap_cons, hf]
        rfl
      rw [hput, findField_cons, ih]
      by_cases hn : name = other
      · simp [hn, hf]
      · simp [hn, Ne.symm hn]

theorem checkKnown_ok (names known : List String) (clause : Clause)
    (h : checkKnown names known clause = .ok ()) : ∀ name ∈ names, name ∈ known := by
  unfold checkKnown at h
  split at h
  next => simp at h
  next hnone => simpa using hnone

theorem parse_projection (visible : List (String × String)) (base : Option String) (text : String)
    (q : SelectQuery) (hq : parse visible base text = .ok q) :
    ∀ name ∈ q.projection, ∃ p ∈ q.patterns ++ q.optionals.flatMap (·.patterns),
      name ∈ p.varNames := by
  obtain ⟨all, -, hq⟩ := (bind_eq_ok_iff _ _ _).1 hq
  obtain ⟨scope, -, hq⟩ := (bind_eq_ok_iff _ _ _).1 hq
  obtain ⟨_, hselect, hq⟩ := (bind_eq_ok_iff _ _ _).1 hq
  obtain ⟨_, -, hq⟩ := (bind_eq_ok_iff _ _ _).1 hq
  obtain ⟨_, -, hq⟩ := (bind_eq_ok_iff _ _ _).1 hq
  obtain ⟨_, -, hq⟩ := (bind_eq_ok_iff _ _ _).1 hq
  cases hq
  intro name hn
  have hknown := checkKnown_ok _ _ _ hselect name hn
  simpa only [patternVariables, mem_distinct, List.mem_flatMap] using hknown

/-- A query of patterns alone lists the solutions of its patterns and projects them. The order of its
patterns bears on the order of the rows alone, and no row lacks a variable that occurs in a pattern, as
all selected variables do in a query that has been read. -/
theorem run_memory_plain (triples : List Triple) (q : SelectQuery) (hq : q.IsPlain) :
    ∃ bindings, (joinAll (.ofList .memory triples) [[]] q.patterns).outcome = .ok bindings ∧
      ListsSolutions (distinct triples) q.patterns bindings ∧
      (q.run (.ofList .memory triples)).outcome =
        .ok ⟨q.projection, bindings.map (project q.projection)⟩ ∧
      (∀ patterns, patterns.Perm q.patterns → ∃ rows,
        ({ q with patterns }.run (.ofList .memory triples)).outcome = .ok ⟨q.projection, rows⟩ ∧
          rows.Perm (bindings.map (project q.projection))) ∧
      (∀ b ∈ bindings, ∀ name ∈ q.projection, ∀ p ∈ q.patterns, name ∈ p.varNames →
        (findField (project q.projection b) name).isSome = true) ∧
      (∀ visible base text, parse visible base text = .ok q → ∀ b ∈ bindings,
        ∀ name ∈ q.projection, (findField (project q.projection b) name).isSome = true) := by
  have hlists := solve_listsSolutions triples q.patterns
  have hbound (b : Binding) (hb : b ∈ solve (distinct triples) q.patterns []) (name : String)
      (hn : name ∈ q.projection) (p : Pattern) (hp : p ∈ q.patterns) (hv : name ∈ p.varNames) :
      (findField (project q.projection b) name).isSome = true := by
    have hsolution := (hlists.mem_iff (findField b)).1 ⟨b, hb, rfl⟩
    rw [findField_project, if_pos hn]
    exact (hsolution.domain name).2 ⟨p, hp, hv⟩
  refine ⟨_, joinAll_outcome triples q.patterns [[]], ?_, ?_, ?_, ?_, ?_⟩
  · simpa using hlists
  · simpa using run_plain q hq triples
  · intro patterns hperm
    refine ⟨_, run_plain { q with patterns } ⟨hq.1, hq.2, hq.3, hq.4, hq.5, hq.6⟩ triples, ?_⟩
    simpa using project_perm q.projection (solve_perm triples patterns q.patterns hperm)
  · simpa using hbound
  · intro visible base text hparse b hb name hn
    obtain ⟨p, hp, hv⟩ := parse_projection visible base text q hparse name hn
    rw [hq.optionals, List.flatMap_nil, List.append_nil] at hp
    exact hbound b (by simpa using hb) name hn p hp hv

/-- Two statements that follow one another are found from both ends. -/
theorem run_memory_plain_chain : ∃ bindings,
    (joinAll (.ofList .memory [⟨.iri "urn:a", .iri "urn:p", .iri "urn:b"⟩,
      ⟨.iri "urn:b", .iri "urn:p", .iri "urn:c"⟩]) [[]]
      [⟨.var "x", .term (.iri "urn:p"), .var "y"⟩, ⟨.var "y", .term (.iri "urn:p"), .var "z"⟩]).outcome =
        .ok bindings ∧
      ∃ b ∈ bindings, findField b "x" = some (.iri "urn:a") ∧ findField b "z" = some (.iri "urn:c") := by
  obtain ⟨bindings, hok, hlists, -⟩ := run_memory_plain
    [⟨.iri "urn:a", .iri "urn:p", .iri "urn:b"⟩, ⟨.iri "urn:b", .iri "urn:p", .iri "urn:c"⟩]
    ⟨["x", "z"], false, [⟨.var "x", .term (.iri "urn:p"), .var "y"⟩,
      ⟨.var "y", .term (.iri "urn:p"), .var "z"⟩], [], [], [], none, 0, []⟩ ⟨rfl, rfl, rfl, rfl, rfl, rfl⟩
  have hsolution : IsSolution (distinct [⟨.iri "urn:a", .iri "urn:p", .iri "urn:b"⟩,
      ⟨.iri "urn:b", .iri "urn:p", .iri "urn:c"⟩])
      [⟨.var "x", .term (.iri "urn:p"), .var "y"⟩, ⟨.var "y", .term (.iri "urn:p"), .var "z"⟩]
      fun name => if name = "x" then some (.iri "urn:a") else if name = "y" then some (.iri "urn:b")
        else if name = "z" then some (.iri "urn:c") else none := by
    constructor
    · intro name
      simp only [Pattern.varNames, Slot.varNames]
      split_ifs <;> simp_all
    · intro p hp
      simp only [List.mem_cons, List.not_mem_nil, or_false] at hp
      obtain rfl | rfl := hp <;> simp [denotes_eq_some_iff, Slot.denotes]
  obtain ⟨b, hb, hmap⟩ := (hlists.mem_iff _).2 hsolution
  exact ⟨bindings, hok, b, hb, by simp [hmap], by simp [hmap]⟩

end CommandOntology.Query
