import Mathlib.Data.List.Nodup
import CommandOntology.Proofs.JoinSolutions

set_option autoImplicit false

namespace CommandOntology.Query

/-- A mapping extends a binding by the variables of patterns, and makes each pattern a statement of a
graph. -/
structure IsExtension (g : List Triple) (patterns : List Pattern) (b : Binding)
    (mapping : String → Option Term) : Prop where
  agrees : Extends mapping b
  stated : ∀ p ∈ patterns, ∃ t ∈ g, p.denotes mapping = some t
  domain : ∀ name, (mapping name).isSome = true ↔
    (findField b name).isSome = true ∨ ∃ p ∈ patterns, name ∈ p.varNames

/-- Bindings are the extensions of a binding by a group for which its filters hold, each once, in the
order of the statements that the patterns become. -/
structure ListsExtensions (g : List Triple) (group : OptionalGroup) (b : Binding) (xs : List Binding) :
    Prop where
  mem_iff : ∀ x : Binding, (∃ y ∈ xs, findField y = findField x) ↔
    IsExtension g group.patterns b (findField x) ∧ ∀ f ∈ group.filters, f.passes x = .ok true
  nodup : (xs.map findField).Nodup
  ordered : (xs.map fun x => statementPlaces g group.patterns (findField x)).Pairwise (· < ·)

/-- A filter computes a pattern that cannot be used, where all filters before it hold. -/
def IsObstructed (filters : List Expression) (x : Binding) : Prop :=
  ∃ before f after, filters = before ++ f :: after ∧ (∀ h ∈ before, h.passes x = .ok true) ∧
    ∃ e, f.passes x = .error e

theorem eval_congr {x y : Binding} (h : findField x = findField y) (e : Expression) :
    e.eval x = e.eval y := by
  induction e <;> simp only [Expression.eval, *]

theorem passes_congr {x y : Binding} (h : findField x = findField y) (e : Expression) :
    e.passes x = e.passes y := by
  rw [Expression.passes, Expression.passes, eval_congr h]

theorem passesAll_cons (x : Binding) (f : Expression) (rest : List Expression) :
    passesAll x (f :: rest) =
      match f.passes x with
      | .ok true => passesAll x rest
      | .ok false => .ok false
      | .error e => .error (.unusablePattern e) := by
  rw [passesAll, holdsFor]
  cases f.passes x with
  | error e => rfl
  | ok holds => cases holds <;> rfl

theorem passesAll_eq_true_iff (x : Binding) (filters : List Expression) :
    passesAll x filters = .ok true ↔ ∀ f ∈ filters, f.passes x = .ok true := by
  induction filters with
  | nil => simp [passesAll, pure, Except.pure]
  | cons f rest ih =>
    rw [passesAll_cons, List.forall_mem_cons]
    cases hf : f.passes x with
    | error e => simp
    | ok holds => cases holds <;> simp [ih]

theorem isObstructed_cons_iff (x : Binding) (f : Expression) (rest : List Expression) :
    IsObstructed (f :: rest) x ↔
      (∃ e, f.passes x = .error e) ∨ f.passes x = .ok true ∧ IsObstructed rest x := by
  constructor
  · rintro ⟨before, h, after, heq, hbefore, he⟩
    cases before with
    | nil =>
      obtain ⟨rfl, -⟩ := List.cons.inj heq
      exact .inl he
    | cons k before =>
      obtain ⟨rfl, rfl⟩ := List.cons.inj heq
      obtain ⟨hk, hbefore⟩ := List.forall_mem_cons.1 hbefore
      exact .inr ⟨hk, before, h, after, rfl, hbefore, he⟩
  · rintro (he | ⟨hf, before, h, after, rfl, hbefore, he⟩)
    · exact ⟨[], f, rest, rfl, by simp, he⟩
    · exact ⟨f :: before, h, after, rfl, List.forall_mem_cons.2 ⟨hf, hbefore⟩, he⟩

theorem isObstructed_congr {x y : Binding} (h : findField x = findField y) {filters : List Expression}
    (hx : IsObstructed filters x) : IsObstructed filters y := by
  obtain ⟨before, f, after, heq, hbefore, e, he⟩ := hx
  exact ⟨before, f, after, heq, fun k hk => (passes_congr h k).symm.trans (hbefore k hk), e,
    (passes_congr h f).symm.trans he⟩

/-- Filters have an outcome unless one of them is obstructed. -/
theorem passesAll_spec (x : Binding) (filters : List Expression) :
    (IsObstructed filters x ∧ ∃ e, passesAll x filters = .error (.unusablePattern e)) ∨
      ¬IsObstructed filters x ∧ ∃ holds, passesAll x filters = .ok holds := by
  induction filters with
  | nil => exact .inr ⟨by simp [IsObstructed], true, rfl⟩
  | cons f rest ih =>
    rw [passesAll_cons, isObstructed_cons_iff]
    cases hf : f.passes x with
    | error e => simp
    | ok holds =>
      cases holds with
      | false => simp
      | true => simpa using ih

def passing (filters : List Expression) (xs : List Binding) : List Binding :=
  xs.filter fun x => (passesAll x filters).toOption == some true

theorem mem_passing_iff (filters : List Expression) (xs : List Binding) (x : Binding) :
    x ∈ passing filters xs ↔ x ∈ xs ∧ ∀ f ∈ filters, f.passes x = .ok true := by
  rw [passing, List.mem_filter, ← passesAll_eq_true_iff]
  cases passesAll x filters <;> simp [Except.toOption]

theorem keepPassingAll_spec (filters : List Expression) (xs : List Binding) :
    ((∃ x ∈ xs, IsObstructed filters x) ∧
        ∃ e, keepPassingAll filters xs = .error (.unusablePattern e)) ∨
      (∀ x ∈ xs, ¬IsObstructed filters x) ∧ keepPassingAll filters xs = .ok (passing filters xs) := by
  induction xs with
  | nil => exact .inr ⟨by simp, rfl⟩
  | cons x rest ih =>
    rw [keepPassingAll]
    obtain ⟨hx, e, he⟩ | ⟨hx, holds, he⟩ := passesAll_spec x filters
    · exact .inl ⟨⟨x, List.mem_cons_self, hx⟩, e, by rw [he]; rfl⟩
    · obtain ⟨⟨y, hy, hobstructed⟩, e, hrest⟩ | ⟨hall, hrest⟩ := ih
      · exact .inl ⟨⟨y, List.mem_cons_of_mem x hy, hobstructed⟩, e, by rw [he, hrest]; rfl⟩
      · have hpassing : passing filters (x :: rest) =
            if holds then x :: passing filters rest else passing filters rest := by
          rw [passing, List.filter_cons, he]
          cases holds <;> rfl
        exact .inr ⟨List.forall_mem_cons.2 ⟨hx, hall⟩, by rw [he, hrest, hpassing]; rfl⟩

def groupExtensions (g : List Triple) (group : OptionalGroup) (b : Binding) : List Binding :=
  passing group.filters (solve g group.patterns b)

theorem groupExtensions_listsExtensions (triples : List Triple) (group : OptionalGroup) (b : Binding) :
    ListsExtensions (distinct triples) group b (groupExtensions (distinct triples) group b) := by
  have hordered := (solve_ordered (distinct triples) (nodup_distinct triples) group.patterns b).filter
    fun x => (passesAll x group.filters).toOption == some true
  constructor
  · intro x
    have hsolve := mem_solve_iff (distinct triples) group.patterns b (findField x)
    simp only [groupExtensions, mem_passing_iff]
    constructor
    · rintro ⟨y, ⟨hy, hpasses⟩, heq⟩
      obtain ⟨hagrees, hstated, hdomain⟩ := hsolve.1 ⟨y, hy, heq⟩
      exact ⟨⟨hagrees, hstated, hdomain⟩, fun f hf => passes_congr heq f ▸ hpasses f hf⟩
    · rintro ⟨⟨hagrees, hstated, hdomain⟩, hpasses⟩
      obtain ⟨y, hy, heq⟩ := hsolve.2 ⟨hagrees, hstated, hdomain⟩
      exact ⟨y, ⟨hy, fun f hf => (passes_congr heq f).trans (hpasses f hf)⟩, heq⟩
  · rw [List.Nodup, List.pairwise_map]
    refine hordered.imp fun hlt he => ?_
    rw [he] at hlt
    exact List.lt_irrefl _ hlt
  · rw [List.pairwise_map]
    exact hordered

/-- An optional group has an outcome for bindings unless a filter is obstructed at an extension. -/
theorem leftJoin_cases (store : Store) (group : OptionalGroup) (bindings : List Binding) :
    ((∃ b ∈ bindings, ∃ x ∈ extendBy store group.patterns b, IsObstructed group.filters x) ∧
        ∃ e, (leftJoin store group bindings).outcome = .error (.unusablePattern e)) ∨
      (∀ b ∈ bindings, ∀ x ∈ extendBy store group.patterns b, ¬IsObstructed group.filters x) ∧
        (leftJoin store group bindings).outcome = .ok (bindings.flatMap fun b =>
          if passing group.filters (extendBy store group.patterns b) = [] then [b]
          else passing group.filters (extendBy store group.patterns b)) := by
  induction bindings with
  | nil => exact .inr ⟨by simp, rfl⟩
  | cons b rest ih =>
    simp only [leftJoin, bind, Work.bind, joinAll_outcome_eq, List.flatMap_singleton, Work.ofExcept]
    obtain ⟨⟨x, hx, hobstructed⟩, e, he⟩ | ⟨hb, he⟩ :=
      keepPassingAll_spec group.filters (extendBy store group.patterns b)
    · exact .inl ⟨⟨b, List.mem_cons_self, x, hx, hobstructed⟩, e, by rw [he]⟩
    · obtain ⟨⟨c, hc, hobstructed⟩, e, hrest⟩ | ⟨hall, hrest⟩ := ih
      · exact .inl ⟨⟨c, List.mem_cons_of_mem b hc, hobstructed⟩, e, by rw [he, hrest]⟩
      · refine .inr ⟨List.forall_mem_cons.2 ⟨hb, hall⟩, ?_⟩
        rw [he, hrest, List.flatMap_cons]
        simp only [List.isEmpty_iff]
        rfl

/-- Over a store in memory the extensions of a binding are those of its statements. -/
theorem leftJoin_spec (triples : List Triple) (group : OptionalGroup) (bindings : List Binding) :
    ((∃ b ∈ bindings, ∃ x ∈ solve (distinct triples) group.patterns b, IsObstructed group.filters x) ∧
        ∃ e, (leftJoin (.ofList .memory triples) group bindings).outcome =
          .error (.unusablePattern e)) ∨
      (∀ b ∈ bindings, ∀ x ∈ solve (distinct triples) group.patterns b,
          ¬IsObstructed group.filters x) ∧
        (leftJoin (.ofList .memory triples) group bindings).outcome = .ok (bindings.flatMap fun b =>
          if groupExtensions (distinct triples) group b = [] then [b]
          else groupExtensions (distinct triples) group b) := by
  have hcases := leftJoin_cases (.ofList .memory triples) group bindings
  rwa [extendBy_memory] at hcases

theorem Extends.trans {mapping : String → Option Term} {b c : Binding} (h : Extends mapping b)
    (hc : Extends (findField b) c) : Extends mapping c :=
  fun name t ht => h name t (hc name t ht)

def Covers (bindings rows : List Binding) : Prop :=
  (∀ b ∈ bindings, ∃ r ∈ rows, Extends (findField r) b) ∧
    ∀ r ∈ rows, ∃ b ∈ bindings, Extends (findField r) b

theorem Covers.refl (bindings : List Binding) : Covers bindings bindings :=
  ⟨fun b hb => ⟨b, hb, fun _ _ h => h⟩, fun r hr => ⟨r, hr, fun _ _ h => h⟩⟩

theorem Covers.trans {xs ys zs : List Binding} (h : Covers xs ys) (h' : Covers ys zs) : Covers xs zs := by
  constructor
  · intro b hb
    obtain ⟨c, hc, hbc⟩ := h.1 b hb
    obtain ⟨r, hr, hcr⟩ := h'.1 c hc
    exact ⟨r, hr, hcr.trans hbc⟩
  · intro r hr
    obtain ⟨c, hc, hcr⟩ := h'.2 r hr
    obtain ⟨b, hb, hbc⟩ := h.2 c hc
    exact ⟨b, hb, hcr.trans hbc⟩

theorem covers_leftJoin (triples : List Triple) (group : OptionalGroup) (bindings rows : List Binding)
    (h : (leftJoin (.ofList .memory triples) group bindings).outcome = .ok rows) :
    Covers bindings rows := by
  obtain ⟨-, e, he⟩ | ⟨-, he⟩ := leftJoin_spec triples group bindings
  · rw [he] at h
    cases h
  rw [he, Except.ok.injEq] at h
  have hextends (b r : Binding) (hr : r ∈ groupExtensions (distinct triples) group b) :
      Extends (findField r) b :=
    (((groupExtensions_listsExtensions triples group b).mem_iff r).1 ⟨r, hr, rfl⟩).1.agrees
  subst h
  constructor
  · intro b hb
    by_cases hnil : groupExtensions (distinct triples) group b = []
    · exact ⟨b, List.mem_flatMap.2 ⟨b, hb, by simp [hnil]⟩, fun _ _ h => h⟩
    · obtain ⟨r, hr⟩ := List.exists_mem_of_ne_nil _ hnil
      exact ⟨r, List.mem_flatMap.2 ⟨b, hb, by simpa [hnil] using hr⟩, hextends b r hr⟩
  · intro r hr
    obtain ⟨b, hb, hr⟩ := List.mem_flatMap.1 hr
    refine ⟨b, hb, ?_⟩
    split_ifs at hr
    · rw [List.mem_singleton.1 hr]
      exact fun _ _ h => h
    · exact hextends b r hr

theorem covers_leftJoinAll (triples : List Triple) (groups : List OptionalGroup)
    (bindings rows : List Binding)
    (h : (leftJoinAll (.ofList .memory triples) bindings groups).outcome = .ok rows) :
    Covers bindings rows := by
  induction groups generalizing bindings with
  | nil =>
    cases h
    exact Covers.refl _
  | cons group rest ih =>
    simp only [leftJoinAll, bind, Work.bind] at h
    cases hfirst : (leftJoin (.ofList .memory triples) group bindings).outcome with
    | error e =>
      rw [hfirst] at h
      cases h
    | ok extended =>
      rw [hfirst] at h
      exact (covers_leftJoin triples group bindings extended hfirst).trans (ih extended h)

theorem leftJoinAll_ok (triples : List Triple) (groups : List OptionalGroup)
    (hgroups : ∀ group ∈ groups, ∀ x, ¬IsObstructed group.filters x) (bindings : List Binding) :
    ∃ rows, (leftJoinAll (.ofList .memory triples) bindings groups).outcome = .ok rows := by
  induction groups generalizing bindings with
  | nil => exact ⟨bindings, rfl⟩
  | cons group rest ih =>
    obtain ⟨hgroup, hrest⟩ := List.forall_mem_cons.1 hgroups
    simp only [leftJoinAll, bind, Work.bind]
    obtain ⟨⟨-, -, x, -, hx⟩, -⟩ | ⟨-, he⟩ := leftJoin_spec triples group bindings
    · exact absurd hx (hgroup x)
    · rw [he]
      exact ih hrest _

theorem ListsSolutions.eq_of_extends {g : List Triple} {patterns : List Pattern} {required : List Binding}
    (h : ListsSolutions g patterns required) {r b c : Binding} (hb : b ∈ required) (hc : c ∈ required)
    (hrb : Extends (findField r) b) (hrc : Extends (findField r) c) : b = c := by
  -- Both bind just the variables of the required patterns, and there the row agrees with either.
  have hbdomain := ((h.mem_iff _).1 ⟨b, hb, rfl⟩).domain
  have hcdomain := ((h.mem_iff _).1 ⟨c, hc, rfl⟩).domain
  refine List.inj_on_of_nodup_map h.nodup hb hc (funext fun name => ?_)
  have hsome : (findField b name).isSome = (findField c name).isSome :=
    Bool.eq_iff_iff.2 ((hbdomain name).trans (hcdomain name).symm)
  cases hbn : findField b name with
  | none =>
    rw [hbn] at hsome
    exact (Option.isNone_iff_eq_none.1 (by simpa using hsome.symm)).symm
  | some t =>
    rw [hbn] at hsome
    obtain ⟨u, hu⟩ := Option.isSome_iff_exists.1 hsome.symm
    rw [hu, ← hrb name t hbn, hrc name u hu]

/-- An optional group extends each binding by its extensions, or keeps it if there is none, unless a
filter is obstructed. However many groups follow the required patterns, every solution of these is
extended by a row, and every row extends just one. -/
theorem leftJoin_memory (triples : List Triple) :
    (∀ group bindings,
      ((∀ b ∈ bindings, ∀ x, IsExtension (distinct triples) group.patterns b (findField x) →
          ¬IsObstructed group.filters x) →
        ∃ found : Binding → List Binding,
          (∀ b, ListsExtensions (distinct triples) group b (found b)) ∧
            (leftJoin (.ofList .memory triples) group bindings).outcome =
              .ok (bindings.flatMap fun b => if found b = [] then [b] else found b)) ∧
      ((∃ b ∈ bindings, ∃ x, IsExtension (distinct triples) group.patterns b (findField x) ∧
          IsObstructed group.filters x) →
        ∃ e, (leftJoin (.ofList .memory triples) group bindings).outcome =
          .error (.unusablePattern e))) ∧
    ∀ patterns groups, ∃ required,
      (joinAll (.ofList .memory triples) [[]] patterns).outcome = .ok required ∧
      ListsSolutions (distinct triples) patterns required ∧
      ((∀ group ∈ groups, ∀ x, ¬IsObstructed group.filters x) →
        ∃ rows, (leftJoinAll (.ofList .memory triples) required groups).outcome = .ok rows) ∧
      ∀ rows, (leftJoinAll (.ofList .memory triples) required groups).outcome = .ok rows →
        (∀ b ∈ required, ∃ r ∈ rows, Extends (findField r) b) ∧
          ∀ r ∈ rows, ∃! b, b ∈ required ∧ Extends (findField r) b := by
  constructor
  · intro group bindings
    have hextension (b x : Binding) :
        (∃ y ∈ solve (distinct triples) group.patterns b, findField y = findField x) ↔
          IsExtension (distinct triples) group.patterns b (findField x) :=
      (mem_solve_iff _ _ b _).trans
        ⟨fun h => ⟨h.1, h.2.1, h.2.2⟩, fun h => ⟨h.agrees, h.stated, h.domain⟩⟩
    obtain ⟨⟨b, hb, x, hx, hobstructed⟩, herror⟩ | ⟨hall, hok⟩ := leftJoin_spec triples group bindings
    · refine ⟨fun hfree => ?_, fun _ => herror⟩
      exact absurd hobstructed (hfree b hb x ((hextension b x).1 ⟨x, hx, rfl⟩))
    · refine ⟨fun _ => ?_, ?_⟩
      · exact ⟨groupExtensions (distinct triples) group, groupExtensions_listsExtensions triples group, hok⟩
      · rintro ⟨b, hb, x, hx, hobstructed⟩
        obtain ⟨y, hy, heq⟩ := (hextension b x).2 hx
        exact absurd (isObstructed_congr heq.symm hobstructed) (hall b hb y hy)
  · intro patterns groups
    have hlists := solve_listsSolutions triples patterns
    refine ⟨_, by rw [joinAll_outcome, List.flatMap_singleton], hlists,
      fun hgroups => leftJoinAll_ok triples groups hgroups _, fun rows hrows => ?_⟩
    obtain ⟨hkept, hextends⟩ := covers_leftJoinAll triples groups _ rows hrows
    refine ⟨hkept, fun r hr => ?_⟩
    obtain ⟨b, hb, hrb⟩ := hextends r hr
    exact ⟨b, ⟨hb, hrb⟩, fun c ⟨hc, hrc⟩ => hlists.eq_of_extends hc hb hrc hrb⟩

/-- Two people, one of whom has an address with the letter that is asked for. -/
theorem leftJoin_memory_addresses :
    let triples : List Triple := [⟨.iri "urn:a", .iri "urn:mail", .plain "m"⟩,
      ⟨.iri "urn:a", .iri "urn:mail", .plain "n"⟩, ⟨.iri "urn:b", .iri "urn:mail", .plain "n"⟩]
    let group : OptionalGroup := ⟨[⟨.var "s", .term (.iri "urn:mail"), .var "x"⟩],
      [.test .contains (.var "x") (.constant (.plain "m"))]⟩
    let bindings : List Binding := [[("s", .iri "urn:a")], [("s", .iri "urn:b")]]
    (∀ b ∈ bindings, ∀ x, IsExtension (distinct triples) group.patterns b (findField x) →
        ¬IsObstructed group.filters x) ∧
      ∃ found : Binding → List Binding,
        (∀ b, ListsExtensions (distinct triples) group b (found b)) ∧
          (leftJoin (.ofList .memory triples) group bindings).outcome =
            .ok (bindings.flatMap fun b => if found b = [] then [b] else found b) := by
  intro triples group bindings
  have hfree (x : Binding) : ¬IsObstructed group.filters x := by
    have hpasses : ∃ holds,
        (Expression.test .contains (.var "x") (.constant (.plain "m"))).passes x = .ok holds := by
      rw [Expression.passes, Expression.eval, Expression.eval]
      cases findField x "x" with
      | none => exact ⟨_, rfl⟩
      | some t => cases t with
        | iri value => exact ⟨_, rfl⟩
        | blank label => exact ⟨_, rfl⟩
        | literal lexical datatype language =>
          by_cases hplain : datatype = none ∨ datatype = some Xsd.string
          · simp [Expression.eval, Answer.string?, hplain, Term.plain, bind, Except.bind, pure, Except.pure,
              Answer.truth?]
          · simp [Expression.eval, Answer.string?, hplain, bind, Except.bind]
    obtain ⟨holds, hholds⟩ := hpasses
    rw [isObstructed_cons_iff, hholds]
    simp [IsObstructed]
  exact ⟨fun b _ x _ => hfree x, ((leftJoin_memory triples).1 group bindings).1 fun b _ x _ => hfree x⟩

/-- A stored pattern with a repetition that is too large leaves its binding without an outcome. -/
theorem leftJoin_repetitionTooLarge :
    (leftJoin
      (.ofList .memory [⟨.iri "a:a", .iri "a:p", .plain "x"⟩,
        ⟨.iri "a:a", .iri "a:q", .plain "a\x7b99999999999\x7d"⟩])
      ⟨[⟨.var "s", .term (.iri "a:q"), .var "p"⟩], [.regex (.var "x") (.var "p")]⟩
      [[("s", .iri "a:a"), ("x", .plain "x")]]).outcome =
        .error (.unusablePattern .repetitionTooLarge) := by
  simp only [leftJoin, bind, Work.bind, joinAll_outcome]
  decide

end CommandOntology.Query
