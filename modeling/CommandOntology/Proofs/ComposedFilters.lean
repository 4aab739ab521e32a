import CommandOntology.Proofs.InterchangeableStores

set_option autoImplicit false

namespace CommandOntology.Query

namespace Expression

/-- A condition holds or does not hold for a binding: it computes no pattern that cannot be used. -/
def IsUsable (e : Expression) (binding : Binding) : Prop :=
  ∃ holds, e.passes binding = .ok holds

def keeps (e : Expression) (binding : Binding) : Bool :=
  (e.passes binding).toOption == some true

theorem IsUsable.passes_eq {e : Expression} {binding : Binding} (h : e.IsUsable binding) :
    e.passes binding = .ok (e.keeps binding) := by
  obtain ⟨holds, h⟩ := h
  rw [keeps, h]
  cases holds <;> rfl

theorem truth_of_map (answer : Except Obstacle Bool) : (answer.map Answer.truth >>= Answer.truth?) = answer := by
  cases answer <;> rfl

theorem passes_and (left right : Expression) (binding : Binding) :
    (Expression.and left right).passes binding = (do
      if ← left.passes binding then right.passes binding else return false) := by
  simp only [passes, eval, truth_of_map]
  generalize (left.eval binding >>= Answer.truth?) = x
  generalize (right.eval binding >>= Answer.truth?) = y
  rcases x with (_ | e) | (_ | _)
  · rfl
  · rfl
  · rfl
  · rcases y with (_ | e) | holds <;> rfl

theorem passes_or (left right : Expression) (binding : Binding) :
    (Expression.or left right).passes binding = (do
      if ← left.passes binding then return true else right.passes binding) := by
  simp only [passes, eval, truth_of_map]
  generalize (left.eval binding >>= Answer.truth?) = x
  generalize (right.eval binding >>= Answer.truth?) = y
  rcases x with (_ | e) | (_ | _)
  · rcases y with (_ | e) | (_ | _) <;> rfl
  · rfl
  · rcases y with (_ | e) | holds <;> rfl
  · rfl

section

variable (left right : Expression) (binding : Binding)

theorem isUsable_and_iff : (Expression.and left right).IsUsable binding ↔
    left.IsUsable binding ∧ (left.keeps binding = true → right.IsUsable binding) := by
  unfold IsUsable keeps
  rw [passes_and]
  cases left.passes binding with
  | error e => simp [bind, Except.bind]
  | ok holds => cases holds <;> simp [bind, Except.bind, pure, Except.pure, Except.toOption]

theorem keeps_and : (Expression.and left right).keeps binding = (left.keeps binding && right.keeps binding) := by
  unfold keeps
  rw [passes_and]
  cases left.passes binding with
  | error e => rfl
  | ok holds => cases holds <;> rfl

variable {left right binding}

theorem isUsable_or (hleft : left.IsUsable binding) (hright : right.IsUsable binding) :
    (Expression.or left right).IsUsable binding := by
  unfold IsUsable
  rw [passes_or, hleft.passes_eq, hright.passes_eq]
  cases left.keeps binding <;> exact ⟨_, rfl⟩

theorem keeps_or (hleft : left.IsUsable binding) :
    (Expression.or left right).keeps binding = (left.keeps binding || right.keeps binding) := by
  have hpasses := passes_or left right binding
  rw [hleft.passes_eq] at hpasses
  unfold keeps at hpasses ⊢
  rw [hpasses]
  cases (left.passes binding).toOption == some true <;> rfl

end

end Expression

/-- A conjunction among conditions may be split into its sides, also as far as patterns are concerned that
cannot be used. -/
theorem passesAll_split (binding : Binding) (left right : Expression) (before after : List Expression) :
    passesAll binding (before ++ .and left right :: after) =
      passesAll binding (before ++ left :: right :: after) := by
  induction before with
  | nil =>
    simp only [List.nil_append, passesAll_cons, Expression.passes_and]
    cases left.passes binding with
    | error e => rfl
    | ok holds => cases holds <;> rfl
  | cons e before ih => simp only [List.cons_append, passesAll_cons, ih]

theorem filter_outcome_eq_ok_iff (e : Expression) (xs kept : List Binding) :
    (filter e xs).outcome = .ok kept ↔ (∀ b ∈ xs, e.IsUsable b) ∧ kept = xs.filter e.keeps := by
  have hobstructed (b : Binding) : IsObstructed [e] b ↔ ¬e.IsUsable b := by
    rw [isObstructed_cons_iff, Expression.IsUsable]
    cases e.passes b <;> simp [IsObstructed]
  have hpassing : passing [e] xs = xs.filter e.keeps := by
    refine List.filter_congr fun b _ => ?_
    rw [passesAll_cons, Expression.keeps]
    cases e.passes b with
    | error e => rfl
    | ok holds => cases holds <;> rfl
  rw [filter_outcome]
  obtain ⟨⟨b, hb, hbad⟩, error, herror⟩ | ⟨hfree, hkept⟩ := keepPassingAll_spec [e] xs
  · rw [herror]
    exact iff_of_false (by simp) fun hall => (hobstructed b).1 hbad (hall.1 b hb)
  · rw [hkept, hpassing, Except.ok.injEq]
    have husable : ∀ b ∈ xs, e.IsUsable b := fun b hb =>
      not_not.1 fun hbad => hfree b hb ((hobstructed b).2 hbad)
    exact ⟨fun h => ⟨husable, h.symm⟩, fun h => h.2.symm⟩

theorem filterAll_cons_eq_ok_iff (e : Expression) (rest : List Expression) (xs kept : List Binding) :
    (filterAll xs (e :: rest)).outcome = .ok kept ↔
      (∀ b ∈ xs, e.IsUsable b) ∧ (filterAll (xs.filter e.keeps) rest).outcome = .ok kept := by
  rw [filterAll, Work.outcome_bind, bind_eq_ok_iff]
  constructor
  · rintro ⟨ys, hys, hkept⟩
    obtain ⟨husable, rfl⟩ := (filter_outcome_eq_ok_iff e xs ys).1 hys
    exact ⟨husable, hkept⟩
  · rintro ⟨husable, hkept⟩
    exact ⟨_, (filter_outcome_eq_ok_iff e xs _).2 ⟨husable, rfl⟩, hkept⟩

theorem filterAll_split (left right : Expression) (before after : List Expression) (xs kept : List Binding) :
    (filterAll xs (before ++ .and left right :: after)).outcome = .ok kept ↔
      (filterAll xs (before ++ left :: right :: after)).outcome = .ok kept := by
  induction before generalizing xs with
  | nil =>
    have hkeeps : xs.filter (Expression.and left right).keeps = (xs.filter left.keeps).filter right.keeps := by
      rw [List.filter_filter]
      exact List.filter_congr fun b _ => (Expression.keeps_and left right b).trans (Bool.and_comm _ _)
    simp only [List.nil_append, filterAll_cons_eq_ok_iff, Expression.isUsable_and_iff, hkeeps,
      forall_and, List.mem_filter, and_imp, and_assoc]
  | cons e before ih => simp only [List.cons_append, filterAll_cons_eq_ok_iff, ih]

theorem filterAll_append (before after : List Expression) (xs : List Binding) :
    (filterAll xs (before ++ after)).outcome =
      (filterAll xs before).outcome >>= fun kept => (filterAll kept after).outcome := by
  induction before generalizing xs with
  | nil => rfl
  | cons e before ih =>
    simp only [List.cons_append, filterAll, Work.outcome_bind, ih]
    cases (filter e xs).outcome <;> rfl

section

variable {left right : Expression} {xs : List Binding}
  (h : ∀ b ∈ xs, left.IsUsable b ∧ right.IsUsable b)

include h

theorem filterAll_both : (filterAll xs [left, right]).outcome =
    .ok (xs.filter fun b => left.keeps b && right.keeps b) := by
  simp only [filterAll_cons_eq_ok_iff, List.filter_filter]
  refine ⟨fun b hb => (h b hb).1, fun b hb => (h b (List.mem_filter.1 hb).1).2, ?_⟩
  exact congrArg Except.ok (List.filter_congr fun b _ => Bool.and_comm _ _)

theorem filterAll_and : (filterAll xs [.and left right]).outcome =
    .ok (xs.filter fun b => left.keeps b && right.keeps b) :=
  (filterAll_split left right [] [] xs _).2 (filterAll_both h)

theorem filterAll_or : (filterAll xs [.or left right]).outcome =
    .ok (xs.filter fun b => left.keeps b || right.keeps b) := by
  rw [filterAll_cons_eq_ok_iff]
  refine ⟨fun b hb => Expression.isUsable_or (h b hb).1 (h b hb).2, congrArg Except.ok ?_⟩
  exact List.filter_congr fun b hb => Expression.keeps_or (h b hb).1

end

namespace SelectQuery

def withFilters (q : SelectQuery) (filters : List Expression) : SelectQuery :=
  { q with filters := filters }

theorem solutions_withFilters (q : SelectQuery) (store : Store) (filters : List Expression) :
    ((q.withFilters filters).solutions store).outcome =
      ((q.withFilters []).solutions store).outcome >>= fun reached =>
        (filterAll reached filters).outcome := by
  simp only [withFilters, solutions, Work.outcome_bind]
  cases (joinAll store [[]] q.patterns).outcome with
  | error e => rfl
  | ok required =>
    simp only [bind, Except.bind]
    cases (leftJoinAll store required q.optionals).outcome <;> rfl

theorem solutions_withFilters_append (q : SelectQuery) (store : Store) (before after : List Expression) :
    ((q.withFilters (before ++ after)).solutions store).outcome =
      ((q.withFilters before).solutions store).outcome >>= fun reached =>
        (filterAll reached after).outcome := by
  rw [solutions_withFilters q store (before ++ after), solutions_withFilters q store before]
  cases ((q.withFilters []).solutions store).outcome with
  | error e => rfl
  | ok all => exact filterAll_append before after all

theorem run_withFilters (q : SelectQuery) (store : Store) (filters : List Expression) :
    ((q.withFilters filters).run store).outcome =
      ((q.withFilters filters).solutions store).outcome.map fun kept => ⟨q.projection, q.rows kept⟩ := by
  simp only [run, Work.outcome_bind]
  cases ((q.withFilters filters).solutions store).outcome <;> rfl

/-- Conjunctions and disjunctions keep what both or one of their sides keep, and what has no value is not
kept. As filters of a group or of a query a conjunction and its sides keep the same. So they do in either
order, and a disjunction keeps what one of its sides keeps, if both sides can be used for all solutions that
reach them. -/
theorem run_composed_filters (q : SelectQuery) (store : Store) (left right : Expression)
    (before after : List Expression) :
    (∀ binding, (Expression.and left right).passes binding = (do
      if ← left.passes binding then right.passes binding else return false)) ∧
    (∀ binding, (Expression.or left right).passes binding = (do
      if ← left.passes binding then return true else right.passes binding)) ∧
    (∀ binding, passesAll binding (before ++ .and left right :: after) =
      passesAll binding (before ++ left :: right :: after)) ∧
    (∀ results, ((q.withFilters (before ++ .and left right :: after)).run store).outcome = .ok results ↔
      ((q.withFilters (before ++ left :: right :: after)).run store).outcome = .ok results) ∧
    ∀ reached, ((q.withFilters before).solutions store).outcome = .ok reached →
      (∀ b ∈ reached, left.IsUsable b ∧ right.IsUsable b) →
        (∀ filters ∈ [[Expression.and left right], [left, right], [right, left]],
          ((q.withFilters (before ++ (filters ++ after))).run store).outcome =
            (filterAll (reached.filter fun b => left.keeps b && right.keeps b) after).outcome.map fun kept =>
              ⟨q.projection, q.rows kept⟩) ∧
        ((q.withFilters (before ++ .or left right :: after)).run store).outcome =
          (filterAll (reached.filter fun b => left.keeps b || right.keeps b) after).outcome.map fun kept =>
            ⟨q.projection, q.rows kept⟩ := by
  refine ⟨Expression.passes_and left right, Expression.passes_or left right,
    fun binding => passesAll_split binding left right before after, fun results => ?_,
    fun reached hreached husable => ?_⟩
  · rw [run_withFilters, run_withFilters, solutions_withFilters q store (before ++ _),
      solutions_withFilters q store (before ++ _)]
    simp only [map_eq_ok_iff, bind_eq_ok_iff, filterAll_split]
  have hrun {filters : List Expression} {kept : List Binding}
      (hkept : (filterAll reached filters).outcome = .ok kept) :
      ((q.withFilters (before ++ (filters ++ after))).run store).outcome =
        (filterAll kept after).outcome.map fun kept => ⟨q.projection, q.rows kept⟩ := by
    have hfilters : (filterAll reached (filters ++ after)).outcome = (filterAll kept after).outcome := by
      rw [filterAll_append, hkept]
      rfl
    rw [run_withFilters, solutions_withFilters_append, hreached, ← hfilters]
    rfl
  constructor
  · simp only [List.forall_mem_cons, List.not_mem_nil, false_imp_iff, implies_true, and_true]
    refine ⟨hrun (filterAll_and husable), hrun (filterAll_both husable), hrun ?_⟩
    rw [filterAll_both fun b hb => (husable b hb).symm]
    exact congrArg Except.ok (List.filter_congr fun b _ => Bool.and_comm _ _)
  · have hor := hrun (filterAll_or husable)
    rwa [List.singleton_append] at hor

/-- Two solutions, of which one side keeps the first and the other side the second. -/
theorem run_composed_filters_texts :
    let store := Store.ofList .memory [⟨.iri "urn:a", .iri "urn:p", .plain "m"⟩,
      ⟨.iri "urn:a", .iri "urn:p", .plain "n"⟩]
    let q : SelectQuery := ⟨["x"], false, [⟨.var "s", .term (.iri "urn:p"), .var "x"⟩], [], [], [], none, 0, []⟩
    let left : Expression := .compare .eq (.var "x") (.constant (.plain "m"))
    let right : Expression := .test .contains (.var "x") (.constant (.plain "n"))
    let reached : List Binding := [[("s", .iri "urn:a"), ("x", .plain "m")],
      [("s", .iri "urn:a"), ("x", .plain "n")]]
    (q.solutions store).outcome = .ok reached ∧
      (∀ b ∈ reached, left.IsUsable b ∧ right.IsUsable b) ∧
        ((q.withFilters [right, left]).run store).outcome = .ok ⟨["x"], []⟩ ∧
          ((q.withFilters [.or left right]).run store).outcome =
            .ok ⟨["x"], [[("x", .plain "m")], [("x", .plain "n")]]⟩ := by
  intro store q left right reached
  have hreached : (q.solutions store).outcome = .ok reached := by
    simp only [q, solutions, Work.outcome_bind, store, joinAll_outcome]
    decide
  have husable : ∀ b ∈ reached, left.IsUsable b ∧ right.IsUsable b :=
    List.forall_mem_cons.2 ⟨⟨⟨true, by decide⟩, false, by decide⟩,
      List.forall_mem_singleton.2 ⟨⟨false, by decide⟩, true, by decide⟩⟩
  obtain ⟨hboth, hone⟩ := (q.run_composed_filters store left right [] []).2.2.2.2 reached hreached husable
  refine ⟨hreached, husable, ?_, ?_⟩
  · have hkept : (reached.filter fun b => left.keeps b && right.keeps b) = [] := by decide
    rw [hkept] at hboth
    exact hboth [right, left] (by simp)
  · have hkept : (reached.filter fun b => left.keeps b || right.keeps b) = reached := by decide
    rw [hkept] at hone
    exact hone

/-- A pattern with a repetition that is too large is not looked at where the first filter drops the solution,
and leaves a query without an outcome that filters the other way around. -/
theorem run_repetitionTooLarge :
    let store := Store.ofList .memory [⟨.iri "a:a", .iri "a:p", .plain "x"⟩,
      ⟨.iri "a:a", .iri "a:q", .plain "a\x7b99999999999\x7d"⟩]
    let q : SelectQuery := ⟨["x"], false, [⟨.var "s", .term (.iri "a:p"), .var "x"⟩,
      ⟨.var "s", .term (.iri "a:q"), .var "p"⟩], [], [], [], none, 0, []⟩
    let left : Expression := .compare .eq (.var "x") (.constant (.plain "y"))
    let right : Expression := .regex (.var "x") (.var "p")
    ((q.withFilters [.and left right]).run store).outcome = .ok ⟨["x"], []⟩ ∧
      ((q.withFilters [left, right]).run store).outcome = .ok ⟨["x"], []⟩ ∧
        ((q.withFilters [right, left]).run store).outcome =
          .error (.unusablePattern .repetitionTooLarge) := by
  intro store q left right
  let reached : List Binding :=
    [[("s", .iri "a:a"), ("x", .plain "x"), ("p", .plain "a\x7b99999999999\x7d")]]
  have hreached : ((q.withFilters []).solutions store).outcome = .ok reached := by
    simp only [q, withFilters, solutions, Work.outcome_bind, store, joinAll_outcome]
    decide
  have hand : (filterAll reached [.and left right]).outcome = .ok [] := by decide
  have hleft : (filterAll reached [left, right]).outcome = .ok [] := by decide
  have hright : (filterAll reached [right, left]).outcome =
      .error (.unusablePattern .repetitionTooLarge) := by decide
  simp only [run_withFilters, solutions_withFilters q store (_ :: _), hreached]
  exact ⟨congrArg _ hand, congrArg _ hleft, congrArg _ hright⟩

end SelectQuery

end CommandOntology.Query
