import CommandOntology.Proofs.BoundTerms
import CommandOntology.Proofs.ContainedQueries
import CommandOntology.Proofs.StableSorting
import CommandOntology.Proofs.StorageOrder

set_option autoImplicit false

/-!
# Queries over stores of either kind

Over the same statements a query has the same rows in stores of both kinds, in some order, as long as a
graph keeps the values of the statements and of the query. The order in which a store answers is passed
on by joins, optional groups and filters, and ordering and projecting lose no row.
-/

namespace CommandOntology

section

variable {α κ : Type} [DecidableEq α] [DecidableEq κ] (key : α → κ)

/-- Elements that their keys determine are kept as they are told apart by their keys. -/
theorem distinctBy_eq_distinct (ofKey : κ → α) {xs : List α} (hkey : ∀ x ∈ xs, ofKey (key x) = x) :
    distinctBy key xs = distinct xs := by
  have hfrom (seen ys : List α) (h : ∀ x ∈ seen ++ ys, ofKey (key x) = x) :
      distinctByFrom key (seen.map key) ys = distinctByFrom id seen ys := by
    induction ys generalizing seen with
    | nil => rfl
    | cons y ys ih =>
      obtain ⟨hseen, hy, hys⟩ : (∀ x ∈ seen, _) ∧ _ ∧ ∀ x ∈ ys, _ :=
        ⟨(List.forall_mem_append.1 h).1, List.forall_mem_cons.1 (List.forall_mem_append.1 h).2⟩
      have hmem : key y ∈ seen.map key ↔ y ∈ seen := by
        refine ⟨fun hin => ?_, List.mem_map_of_mem⟩
        obtain ⟨x, hx, hxy⟩ := List.mem_map.1 hin
        rwa [← hy, ← hxy, hseen x hx]
      have hcons := ih (y :: seen) (List.forall_mem_append.2 ⟨List.forall_mem_cons.2 ⟨hy, hseen⟩, hys⟩)
      simp only [distinctByFrom, hmem, id, ih seen (List.forall_mem_append.2 ⟨hseen, hys⟩), ← hcons,
        List.map_cons]
  exact hfrom [] xs hkey

omit [DecidableEq α] in
theorem distinctByFrom_sublist (seen : List κ) (xs : List α) :
    (distinctByFrom key seen xs).Sublist xs := by
  induction xs generalizing seen with
  | nil => exact .slnil
  | cons x xs ih =>
    unfold distinctByFrom
    split_ifs
    · exact (ih seen).cons x
    · exact (ih _).cons_cons x

theorem distinct_perm {xs ys : List α} (h : xs.Perm ys) : (distinct xs).Perm (distinct ys) :=
  (List.perm_ext_iff_of_nodup (nodup_distinct xs) (nodup_distinct ys)).2 fun x => by
    rw [mem_distinct, mem_distinct, h.mem_iff]

end

theorem Term.IsWritten.isSettled {t : Term} (h : t.IsWritten) (hkept : t.node = t) : t.IsSettled :=
  ⟨hkept, by simpa only [hkept] using h.isGivenOut.matchKey,
    by simpa only [hkept] using h.isGivenOut.ofNode⟩

namespace Query

theorem sortByTerm_perm {α : Type} (descending : Bool) (term : α → Option Term) (xs : List α) :
    (sortByTerm descending term xs).Perm xs := by
  have hmap : (xs.map fun x => (SortKey.ofTerm (term x), x)).map (·.2) = xs := by
    rw [List.map_map]
    exact List.map_id xs
  conv_rhs => rw [← hmap]
  unfold sortByTerm
  dsimp only
  split_ifs
  · exact (stableSortDescending_perm _ _).map _
  · exact (stableSort_perm _ _).map _

theorem orderAll_perm (conditions : List OrderCondition) (bindings : List Binding) :
    (orderAll conditions bindings).Perm bindings := by
  induction conditions with
  | nil => rfl
  | cons c rest ih => exact (sortByTerm_perm c.descending _ _).trans ih

def rowOfKey (projection : List String) (key : List (Option Term)) : Row :=
  (projection.zip key).filterMap fun field => field.2.map (field.1, ·)

theorem rowOfKey_rowKey_project (projection : List String) (b : Binding) :
    rowOfKey projection (rowKey projection (project projection b)) = project projection b := by
  have hkey : rowKey projection (project projection b) = projection.map (findField b) :=
    List.map_congr_left fun name hname => by
      rw [findField_project, if_pos hname]
  have hzip : projection.zip (projection.map (findField b)) =
      projection.map fun name => (name, findField b name) := by
    simpa using List.zip_map' (f := id) (g := findField b) (l := projection)
  rw [hkey, rowOfKey, hzip, List.filterMap_map]
  rfl

theorem distinctBy_rowKey (projection : List String) (bindings : List Binding) :
    distinctBy (rowKey projection) (bindings.map (project projection)) =
      distinct (bindings.map (project projection)) :=
  distinctBy_eq_distinct _ (rowOfKey projection) fun row hrow => by
    obtain ⟨b, -, rfl⟩ := List.mem_map.1 hrow
    exact rowOfKey_rowKey_project projection b

/-- Without a cut, the rows depend on the solutions up to their order. -/
theorem rows_perm {q : SelectQuery} (hlimit : q.limit = none) (hoffset : q.offset = 0)
    {xs ys : List Binding} (h : xs.Perm ys) : (q.rows xs).Perm (q.rows ys) := by
  have hprojected : ((orderAll q.order xs).map (project q.projection)).Perm
      ((orderAll q.order ys).map (project q.projection)) :=
    ((orderAll_perm _ xs).trans (h.trans (orderAll_perm _ ys).symm)).map _
  simp only [SelectQuery.rows, hlimit, hoffset, slice, List.drop_zero]
  split_ifs
  · rw [distinctBy_rowKey, distinctBy_rowKey]
    exact distinct_perm hprojected
  · exact hprojected

def Slot.terms : Slot → List Term
  | var _ => []
  | term t => [t]

def Pattern.terms (p : Pattern) : List Term :=
  p.subject.terms ++ p.predicate.terms ++ p.object.terms

def SelectQuery.patternTerms (q : SelectQuery) : List Term :=
  (q.patterns ++ q.optionals.flatMap (·.patterns)).flatMap Pattern.terms

def AreSettled (patterns : List Pattern) : Prop :=
  ∀ p ∈ patterns, ∀ t ∈ p.terms, t.IsSettled

def IsSettled (b : Binding) : Prop :=
  ∀ field ∈ b, field.2.IsSettled

theorem IsSettled.probe {b : Binding} (hb : IsSettled b) {p : Pattern}
    (hp : ∀ t ∈ p.terms, t.IsSettled) : ∀ t ∈ (p.probe b).terms, t.IsSettled := by
  have hslot (slot : Slot) (hslot : ∀ t ∈ slot.terms, t.IsSettled) :
      ∀ t ∈ (slot.value? b).toList, t.IsSettled := by
    intro t ht
    rw [Option.mem_toList] at ht
    cases slot with
    | var name => exact BindsOnly.findField hb ht
    | term u =>
      obtain rfl := Option.some.inj ht
      exact hslot u List.mem_cons_self
  simp only [Pattern.terms, List.forall_mem_append] at hp
  simp only [Pattern.probe, TriplePattern.terms, List.forall_mem_append]
  exact ⟨⟨hslot _ hp.1.1, hslot _ hp.1.2⟩, hslot _ hp.2⟩

/-- Outcomes that are alike: the same bindings in some order, all settled, or patterns that cannot be
used. -/
inductive Alike : Except QueryError (List Binding) → Except QueryError (List Binding) → Prop
  | found {xs ys : List Binding} (h : xs.Perm ys) (hs : ∀ x ∈ xs, IsSettled x) :
    Alike (.ok xs) (.ok ys)
  | refused (e e' : Regex.PatternError) :
    Alike (.error (.unusablePattern e)) (.error (.unusablePattern e'))

theorem Alike.bind {x y : Except QueryError (List Binding)}
    {f g : List Binding → Except QueryError (List Binding)} (h : Alike x y)
    (hfg : ∀ xs ys, xs.Perm ys → (∀ b ∈ xs, IsSettled b) → Alike (f xs) (g ys)) :
    Alike (x >>= f) (y >>= g) := by
  cases h with
  | found h hs => exact hfg _ _ h hs
  | refused e e' => exact .refused e e'

theorem keepPassingAll_alike (filters : List Expression) {xs ys : List Binding} (h : xs.Perm ys)
    (hs : ∀ x ∈ xs, IsSettled x) :
    Alike (keepPassingAll filters xs) (keepPassingAll filters ys) := by
  obtain ⟨⟨x, hx, hobstructed⟩, e, he⟩ | ⟨hfree, he⟩ := keepPassingAll_spec filters xs
  · obtain ⟨-, e', he'⟩ | ⟨hfree, -⟩ := keepPassingAll_spec filters ys
    · rw [he, he']
      exact .refused e e'
    · exact absurd hobstructed (hfree x (h.mem_iff.1 hx))
  · obtain ⟨⟨y, hy, hobstructed⟩, -⟩ | ⟨-, he'⟩ := keepPassingAll_spec filters ys
    · exact absurd hobstructed (hfree y (h.mem_iff.2 hy))
    · rw [he, he']
      exact .found (h.filter _) fun x hx => hs x (List.mem_filter.1 hx).1

theorem filter_outcome (e : Expression) (bindings : List Binding) :
    (filter e bindings).outcome = keepPassingAll [e] bindings := by
  induction bindings with
  | nil => rfl
  | cons b rest ih =>
    have hone : passesAll b [e] = holdsFor b e := by
      unfold passesAll
      cases holdsFor b e with
      | error e => rfl
      | ok holds => cases holds <;> rfl
    simp only [filter, keepPassingAll, Work.outcome_bind, Work.check, Work.ofExcept, ih, hone]
    rfl

theorem filterAll_alike (filters : List Expression) {xs ys : List Binding} (h : xs.Perm ys)
    (hs : ∀ x ∈ xs, IsSettled x) : Alike (filterAll xs filters).outcome (filterAll ys filters).outcome := by
  induction filters generalizing xs ys with
  | nil => exact .found h hs
  | cons e rest ih =>
    simp only [filterAll, Work.outcome_bind, filter_outcome]
    exact (keepPassingAll_alike [e] h hs).bind fun xs ys h hs => ih h hs

section

variable {triples : List Triple} (h : CommandOntology.AreSettled triples) (backend backend' : Backend)

include h

theorem query_settled {p : TriplePattern} (hp : ∀ t ∈ p.terms, t.IsSettled) :
    ∀ t ∈ (Store.ofList backend triples).query p, ∀ x ∈ t.terms, x.IsSettled := by
  intro t ht
  have hin := (Store.query_perm h backend p hp).mem_iff.1 ht
  exact h t ((mem_distinct t triples).1 (List.mem_filter.1 hin).1)

/-- Patterns extend a binding in the same ways over both kinds of stores. -/
theorem extendBy_perm {patterns : List Pattern} (hp : AreSettled patterns) {b : Binding}
    (hb : IsSettled b) :
    (extendBy (.ofList backend triples) patterns b).Perm (extendBy (.ofList backend' triples) patterns b) ∧
      ∀ x ∈ extendBy (.ofList backend triples) patterns b, IsSettled x := by
  induction patterns generalizing b with
  | nil => exact ⟨.refl _, List.forall_mem_singleton.2 hb⟩
  | cons p rest ih =>
    obtain ⟨hfirst, hrest⟩ := List.forall_mem_cons.1 hp
    have hprobe := hb.probe hfirst
    have hfound : ∀ c ∈ ((Store.ofList backend triples).query (p.probe b)).filterMap (extend p b),
        IsSettled c := by
      intro c hc
      obtain ⟨t, ht, hextend⟩ := List.mem_filterMap.1 hc
      exact BindsOnly.extend hb (.of_terms (query_settled h backend hprobe t ht) _) hextend
    have hquery := (Store.query_perm h backend _ hprobe).trans (Store.query_perm h backend' _ hprobe).symm
    simp only [extendBy]
    constructor
    · refine List.Perm.trans ?_ ((hquery.filterMap (extend p b)).flatMap_right _)
      exact List.Perm.flatMap_left _ fun c hc => (ih hrest (hfound c hc)).1
    · intro x hx
      obtain ⟨c, hc, hx⟩ := List.mem_flatMap.1 hx
      exact (ih hrest (hfound c hc)).2 x hx

theorem joinAll_alike {patterns : List Pattern} (hp : AreSettled patterns) :
    Alike (joinAll (.ofList backend triples) [[]] patterns).outcome
      (joinAll (.ofList backend' triples) [[]] patterns).outcome := by
  rw [joinAll_outcome_eq, joinAll_outcome_eq, List.flatMap_singleton, List.flatMap_singleton]
  have hempty : IsSettled [] := fun field hfield => absurd hfield List.not_mem_nil
  obtain ⟨hperm, hs⟩ := extendBy_perm h backend backend' hp hempty
  exact .found hperm hs

theorem leftJoin_alike {group : OptionalGroup} (hp : AreSettled group.patterns) {xs ys : List Binding}
    (hxs : xs.Perm ys) (hs : ∀ x ∈ xs, IsSettled x) :
    Alike (leftJoin (.ofList backend triples) group xs).outcome
      (leftJoin (.ofList backend' triples) group ys).outcome := by
  have hextend (b : Binding) (hb : b ∈ xs) := extendBy_perm h backend backend' hp (hs b hb)
  obtain ⟨⟨b, hb, x, hx, hobstructed⟩, e, he⟩ | ⟨hfree, he⟩ :=
    leftJoin_cases (.ofList backend triples) group xs
  · obtain ⟨-, e', he'⟩ | ⟨hfree, -⟩ := leftJoin_cases (.ofList backend' triples) group ys
    · rw [he, he']
      exact .refused e e'
    · exact absurd hobstructed (hfree b (hxs.mem_iff.1 hb) x ((hextend b hb).1.mem_iff.1 hx))
  · obtain ⟨⟨b, hb, x, hx, hobstructed⟩, -⟩ | ⟨-, he'⟩ :=
      leftJoin_cases (.ofList backend' triples) group ys
    · have hb := hxs.mem_iff.2 hb
      exact absurd hobstructed (hfree b hb x ((hextend b hb).1.mem_iff.2 hx))
    · rw [he, he']
      refine .found ?_ fun r hr => ?_
      · refine List.Perm.trans (List.Perm.flatMap_left _ fun b hb => ?_) (hxs.flatMap_right _)
        have hpassing : (passing group.filters _).Perm (passing group.filters _) :=
          (hextend b hb).1.filter _
        simp only [← List.length_eq_zero_iff, hpassing.length_eq]
        split_ifs
        · rfl
        · exact hpassing
      · obtain ⟨b, hb, hr⟩ := List.mem_flatMap.1 hr
        split_ifs at hr
        · rw [List.mem_singleton.1 hr]
          exact hs b hb
        · exact (hextend b hb).2 r (List.mem_filter.1 hr).1

theorem leftJoinAll_alike {groups : List OptionalGroup} (hp : ∀ group ∈ groups, AreSettled group.patterns)
    {xs ys : List Binding} (hxs : xs.Perm ys) (hs : ∀ x ∈ xs, IsSettled x) :
    Alike (leftJoinAll (.ofList backend triples) xs groups).outcome
      (leftJoinAll (.ofList backend' triples) ys groups).outcome := by
  induction groups generalizing xs ys with
  | nil => exact .found hxs hs
  | cons group rest ih =>
    obtain ⟨hgroup, hrest⟩ := List.forall_mem_cons.1 hp
    simp only [leftJoinAll, Work.outcome_bind]
    exact (leftJoin_alike h backend backend' hgroup hxs hs).bind fun xs ys hxs hs => ih hrest hxs hs

/-- A query has the same solutions over both kinds of stores, in some order. -/
theorem solutions_alike {q : SelectQuery} (hpatterns : AreSettled q.patterns)
    (hoptionals : ∀ group ∈ q.optionals, AreSettled group.patterns) :
    Alike (q.solutions (.ofList backend triples)).outcome
      (q.solutions (.ofList backend' triples)).outcome := by
  simp only [SelectQuery.solutions, Work.outcome_bind]
  exact (joinAll_alike h backend backend' hpatterns).bind fun xs ys hxs hs =>
    (leftJoinAll_alike h backend backend' hoptionals hxs hs).bind fun xs ys hxs hs =>
      filterAll_alike q.filters hxs hs

end

/-- Two outcomes of a query agree up to the order of rows. Where both meet a pattern that cannot be used,
which one it is may depend on the order. -/
inductive AgreeUpToOrder : Except QueryError Results → Except QueryError Results → Prop
  | found {r r' : Results} (names : r.varNames = r'.varNames) (rows : r.rows.Perm r'.rows) :
    AgreeUpToOrder (.ok r) (.ok r')
  | failed (e : QueryError) : AgreeUpToOrder (.error e) (.error e)
  | refused {e e' : Regex.PatternError} (h : IsUnusable e) (h' : IsUnusable e') :
    AgreeUpToOrder (.error (.unusablePattern e)) (.error (.unusablePattern e'))

theorem run_agree {triples : List Triple} (h : CommandOntology.AreSettled triples)
    (backend backend' : Backend) {q : SelectQuery} (hpatterns : AreSettled q.patterns)
    (hoptionals : ∀ group ∈ q.optionals, AreSettled group.patterns) (hlimit : q.limit = none)
    (hoffset : q.offset = 0) :
    AgreeUpToOrder (q.run (.ofList backend triples)).outcome (q.run (.ofList backend' triples)).outcome := by
  have hleft : Completes [] (q.solutions (.ofList backend triples)) := completes_solutions q _
  have hright : Completes [] (q.solutions (.ofList backend' triples)) := completes_solutions q _
  have halike := solutions_alike h backend backend' hpatterns hoptionals
  simp only [SelectQuery.run, Work.outcome_bind]
  unfold Completes at hleft hright
  generalize (q.solutions (.ofList backend triples)).outcome = x at halike hleft
  generalize (q.solutions (.ofList backend' triples)).outcome = y at halike hright
  cases halike with
  | found hperm hs => exact .found rfl (rows_perm hlimit hoffset hperm)
  | refused e e' => exact .refused hleft hright

theorem Pattern.IsWritten.terms {p : Pattern} (h : p.IsWritten) : ∀ t ∈ p.terms, t.IsWritten := by
  have hslot (slot : Slot) (hs : slot.IsWritten) : ∀ t ∈ slot.terms, t.IsWritten := by
    cases slot with
    | var name => simp [Slot.terms]
    | term t => exact List.forall_mem_singleton.2 hs
  simp only [Pattern.terms, List.forall_mem_append]
  exact ⟨⟨hslot _ h.subject, hslot _ h.predicate⟩, hslot _ h.object⟩

theorem SelectQuery.IsWritten.areSettled {q : SelectQuery} (h : q.IsWritten)
    (hkept : ∀ t ∈ q.patternTerms, t.node = t) :
    AreSettled q.patterns ∧ ∀ group ∈ q.optionals, AreSettled group.patterns := by
  simp only [patternTerms, List.flatMap_append, List.forall_mem_append] at hkept
  constructor
  · intro p hp t ht
    exact ((h.patterns p hp).terms t ht).isSettled (hkept.1 t (List.mem_flatMap.2 ⟨p, hp, ht⟩))
  · intro group hgroup p hp t ht
    exact ((h.optionals group hgroup p hp).terms t ht).isSettled
      (hkept.2 t (List.mem_flatMap.2 ⟨p, List.mem_flatMap.2 ⟨group, hgroup, hp⟩, ht⟩))

end Query

def Ontology.queryOutcome (o : Ontology) (query : String) : Except Query.QueryError Query.Results :=
  (Query.execute o.store o.namespaces o.base query).outcome

theorem queryOutcome_of_parse {own : Option Validator} {d : Turtle.Document} {query : String}
    {q : Query.SelectQuery} (h : Query.parse d.namespaces.entries d.base query = .ok q)
    (backend : Backend) : (Ontology.ofDocument backend own d).queryOutcome query =
      (q.run (.ofList backend d.triples)).outcome := by
  simp only [Ontology.queryOutcome, Query.execute, Query.Work.outcome_bind, Query.Work.ofExcept,
    Ontology.ofDocument, h]
  rfl

theorem areSettled_of_isWritten {triples : List Triple} (h : ∀ t ∈ triples, t.IsWritten)
    (hkept : ∀ t ∈ triples, t.object.node = t.object) : AreSettled triples := by
  intro t ht
  obtain ⟨iri, hiri⟩ := (h t ht).predicate
  simp only [Triple.terms, List.forall_mem_cons, List.not_mem_nil, false_imp_iff, implies_true]
  exact ⟨Term.isSettled_of_isResource _ (h t ht).subject, Term.isSettled_of_isResource _ (hiri ▸ rfl),
    (h t ht).object.isSettled (hkept t ht), trivial⟩

open Query in
/-- Stores of both kinds give a query without cut the same rows in some order, or the same error, if a
graph keeps the values of the document and of the query. -/
theorem execute_backends {options : Turtle.ParserOptions} {text : String} {d : Turtle.Document}
    (own : Option Validator) (h : Turtle.parse options text = .ok d)
    (hkept : ∀ t ∈ d.triples, t.object.node = t.object) (query : String)
    (hquery : ∀ q, Query.parse d.namespaces.entries d.base query = .ok q →
      q.limit = none ∧ q.offset = 0 ∧ ∀ t ∈ q.patternTerms, t.node = t) (backend backend' : Backend) :
    AgreeUpToOrder ((Ontology.ofDocument backend own d).queryOutcome query)
      ((Ontology.ofDocument backend' own d).queryOutcome query) := by
  cases hparse : Query.parse d.namespaces.entries d.base query with
  | error e =>
    have hfails (backend : Backend) :
        (Ontology.ofDocument backend own d).queryOutcome query = .error e :=
      execute_outcome_of_parse hparse _
    rw [hfails, hfails]
    exact .failed e
  | ok q =>
    obtain ⟨hlimit, hoffset, hterms⟩ := hquery q hparse
    have hread := reads_parse d.namespaces.entries d.base query
    rw [hparse] at hread
    obtain ⟨hpatterns, hoptionals⟩ := hread.areSettled hterms
    rw [queryOutcome_of_parse hparse, queryOutcome_of_parse hparse]
    exact run_agree (areSettled_of_isWritten (Turtle.parse_isWritten h) hkept) backend backend'
      hpatterns hoptionals hlimit hoffset

def peopleText : String :=
  "<a:a> <a:name> 'x' , 'y'@EN ; <a:age> 5 . <a:b> <a:name> 'x' ."

def namesQuery : String :=
  "SELECT DISTINCT ?x ?n WHERE \x7b ?s <a:name> ?x OPTIONAL \x7b ?s <a:age> ?n FILTER(?n > 4) \x7d \x7d ORDER BY ?x"

def namesSelect : Query.SelectQuery where
  projection := ["x", "n"]
  distinct := true
  patterns := [⟨.var "s", .term (.iri "a:name"), .var "x"⟩]
  optionals := [⟨[⟨.var "s", .term (.iri "a:age"), .var "n"⟩],
    [.compare .gt (.var "n") (.constant (.typed "4" Xsd.integer))]⟩]
  filters := []
  order := [⟨"x", false⟩]
  limit := none
  offset := 0
  prefixes := []

set_option maxRecDepth 4000 in
theorem parse_people :
    (Turtle.parse {} peopleText).map (fun d => (d.triples, d.namespaces.entries, d.base)) =
      .ok ([⟨.iri "a:a", .iri "a:name", .plain "x"⟩,
        ⟨.iri "a:a", .iri "a:name", .literal "y" none (some "en")⟩,
        ⟨.iri "a:a", .iri "a:age", .typed "5" Xsd.integer⟩,
        ⟨.iri "a:b", .iri "a:name", .plain "x"⟩], [], none) ∧
      Query.parse [] none namesQuery = .ok namesSelect := by
  have htext : peopleText.toList = _ := String.toList_ofList
  have hquery : namesQuery.toList = _ := String.toList_ofList
  rw [Turtle.parse, htext, Query.parse, Query.tokens, hquery]
  exact ⟨by decide +kernel, by decide +kernel⟩

theorem namesQuery_isKept (q : Query.SelectQuery) (h : Query.parse [] none namesQuery = .ok q) :
    q.limit = none ∧ q.offset = 0 ∧ ∀ t ∈ q.patternTerms, t.node = t := by
  rw [parse_people.2, Except.ok.injEq] at h
  subst h
  exact ⟨rfl, rfl, by decide +kernel⟩

open Query in
theorem execute_backends_people :
    ∃ d, Turtle.parse {} peopleText = .ok d ∧ (∀ t ∈ d.triples, t.object.node = t.object) ∧
      (∀ q, Query.parse d.namespaces.entries d.base namesQuery = .ok q →
        q.limit = none ∧ q.offset = 0 ∧ ∀ t ∈ q.patternTerms, t.node = t) ∧
      AgreeUpToOrder ((Ontology.ofDocument .memory none d).queryOutcome namesQuery)
        ((Ontology.ofDocument .sorted none d).queryOutcome namesQuery) := by
  obtain ⟨d, hparse, hd⟩ := (map_eq_ok_iff _ _ _).1 parse_people.1
  obtain ⟨htriples, hrest⟩ := Prod.mk.inj hd
  obtain ⟨hentries, hbase⟩ := Prod.mk.inj hrest
  have hkept : ∀ t ∈ d.triples, t.object.node = t.object := by
    rw [htriples]
    decide +kernel
  have hquery : ∀ q, Query.parse d.namespaces.entries d.base namesQuery = .ok q →
      q.limit = none ∧ q.offset = 0 ∧ ∀ t ∈ q.patternTerms, t.node = t := by
    rw [hentries, hbase]
    exact namesQuery_isKept
  exact ⟨d, hparse, hkept, hquery, execute_backends none hparse hkept namesQuery hquery .memory .sorted⟩

def emptyDatatypeText : String :=
  "@base <urn:a> . @base <#> . <urn:s> <urn:p> 'x'^^<#> ."

def objectsQuery : String :=
  "SELECT ?o WHERE \x7b ?s ?p ?o \x7d"

def objectsSelect : Query.SelectQuery where
  projection := ["o"]
  distinct := false
  patterns := [⟨.var "s", .var "p", .var "o"⟩]
  optionals := []
  filters := []
  order := []
  limit := none
  offset := 0
  prefixes := []

theorem parse_emptyDatatype :
    (Turtle.parse {} emptyDatatypeText).map (fun d => (d.triples, d.namespaces.entries, d.base)) =
      .ok ([⟨.iri "urn:s", .iri "urn:p", .typed "x" ""⟩], [], some "#") ∧
      Query.parse [] (some "#") objectsQuery = .ok objectsSelect := by
  have htext : emptyDatatypeText.toList = _ := String.toList_ofList
  have hquery : objectsQuery.toList = _ := String.toList_ofList
  rw [Turtle.parse, htext, Query.parse, Query.tokens, hquery]
  exact ⟨by decide +kernel, by decide +kernel⟩

open Query in
theorem queryOutcome_objects {own : Option Validator} {d : Turtle.Document}
    (h : Query.parse d.namespaces.entries d.base objectsQuery = .ok objectsSelect) (backend : Backend) :
    (Ontology.ofDocument backend own d).queryOutcome objectsQuery =
      .ok ⟨["o"], ((Store.ofList backend d.triples).query ⟨none, none, none⟩).map fun t => [("o", t.object)]⟩ := by
  have hplain : objectsSelect.IsPlain := ⟨rfl, rfl, rfl, rfl, rfl, rfl⟩
  have hprobe : Pattern.probe ⟨.var "s", .var "p", .var "o"⟩ [] = ⟨none, none, none⟩ := rfl
  have hextend : extend ⟨.var "s", .var "p", .var "o"⟩ [] =
      some ∘ fun t => [("s", t.subject), ("p", t.predicate), ("o", t.object)] := rfl
  rw [queryOutcome_of_parse h, run_plain_outcome _ hplain, objectsSelect, extendBy, hprobe, hextend,
    List.filterMap_eq_map]
  simp only [extendBy, List.flatMap_singleton', List.map_map]
  rfl

open Query in
/-- A graph drops an empty datatype, which a store in memory gives out. -/
theorem execute_backends_emptyDatatype :
    ∃ d, Turtle.parse {} emptyDatatypeText = .ok d ∧
      ¬AgreeUpToOrder ((Ontology.ofDocument .memory none d).queryOutcome objectsQuery)
        ((Ontology.ofDocument .sorted none d).queryOutcome objectsQuery) := by
  obtain ⟨d, hparse, hd⟩ := (map_eq_ok_iff _ _ _).1 parse_emptyDatatype.1
  obtain ⟨htriples, hrest⟩ := Prod.mk.inj hd
  obtain ⟨hentries, hbase⟩ := Prod.mk.inj hrest
  have hread : Query.parse d.namespaces.entries d.base objectsQuery = .ok objectsSelect := by
    rw [hentries, hbase, parse_emptyDatatype.2]
  let stated (object : Term) : List Triple := [⟨.iri "urn:s", .iri "urn:p", object⟩]
  have hmemory : (Store.ofList .memory d.triples).query ⟨none, none, none⟩ = stated (.typed "x" "") := by
    rw [Store.query_memory, htriples]
    decide +kernel
  have hsorted : (Store.ofList .sorted d.triples).query ⟨none, none, none⟩ = stated (.plain "x") := by
    have hgiven := areGivenOut_of_isWritten (Turtle.parse_isWritten hparse)
    have hperm := SortedStore.query_perm hgiven ⟨none, none, none⟩ (by simp [TriplePattern.terms])
    have hnodes : (distinct (nodeTriples d.triples)).filter (TriplePattern.holds ⟨none, none, none⟩) =
        stated (.plain "x") := by
      rw [htriples]
      decide +kernel
    rw [hnodes] at hperm
    exact List.perm_singleton.1 hperm
  refine ⟨d, hparse, ?_⟩
  rw [queryOutcome_objects hread, queryOutcome_objects hread, hmemory, hsorted]
  intro h
  cases h with
  | found names rows =>
    have hrow := List.perm_singleton.1 rows
    exact absurd hrow (by decide)

end CommandOntology
