import CommandOntology.Proofs.NumberOrder
import CommandOntology.Proofs.Outcomes
import CommandOntology.Query.Watched

set_option autoImplicit false

namespace CommandOntology.Query

namespace Clock

variable (clock : Clock) (budget : Binary64)

theorem overrun?_add (reading m n : Nat) : clock.overrun? budget reading (m + n) =
    (clock.overrun? budget reading m).or (clock.overrun? budget (reading + m) n) := by
  induction m generalizing reading with
  | zero => rw [Nat.zero_add, overrun?, Option.none_or, Nat.add_zero]
  | succ m ih =>
    rw [Nat.add_right_comm, overrun?, overrun?]
    split_ifs
    · rfl
    · rw [ih, Nat.add_assoc, Nat.add_comm 1 m]

variable {clock budget}

theorem order?_of_overrun? {elapsed : Binary64} {reading n : Nat}
    (h : clock.overrun? budget reading n = some elapsed) : elapsed.order? budget = some .gt := by
  induction n generalizing reading with
  | zero => cases h
  | succ n ih =>
    rw [overrun?] at h
    split_ifs at h with hexceeds
    · cases h
      exact hexceeds
    · exact ih h

theorem overrun?_eq_none_of_lt {larger : Binary64} (hlarger : budget.order? larger = some .lt)
    {reading n : Nat} (h : clock.overrun? budget reading n = none) :
    clock.overrun? larger reading n = none := by
  induction n generalizing reading with
  | zero => rfl
  | succ n ih =>
    rw [overrun?] at h ⊢
    split_ifs at h with hexceeds
    rw [if_neg fun hlate => hexceeds (Binary64.order?_eq_gt_of_lt hlate hlarger), ih h]

end Clock

instance : LawfulMonad Work :=
  LawfulMonad.mk' Work
    (fun ⟨checks, outcome⟩ => by cases outcome <;> rfl)
    (fun a f => by simp [bind, Work.bind, pure, Work.pure])
    (fun ⟨checks, outcome⟩ f g => by
      cases outcome with
      | error e => rfl
      | ok a => cases h : (f a).outcome <;> simp [bind, Work.bind, h, Nat.add_assoc])

def Work.replay {α : Type} (w : Work α) : Watched α := fun timer readings =>
  match timer.budget with
  | none => w.outcome.map (·, readings)
  | some budget =>
    match timer.clock.overrun? budget readings w.checks with
    | some elapsed => .error (.timeout budget elapsed)
    | none => w.outcome.map (·, readings + w.checks)

namespace Watched

variable {α β : Type}

theorem replay_pure (a : α) : (pure a : Work α).replay = pure a := by
  funext ⟨clock, budget⟩ readings
  cases budget <;> rfl

theorem replay_ofExcept (outcome : Except QueryError α) : (Work.ofExcept outcome).replay = ofExcept outcome := by
  funext ⟨clock, budget⟩ readings
  cases budget <;> rfl

theorem replay_check : Work.check.replay = look := by
  funext ⟨clock, budget⟩ readings
  cases budget with
  | none => rfl
  | some budget =>
    simp only [Work.replay, Work.check, look, Clock.overrun?]
    split_ifs <;> rfl

theorem bind_apply (w : Watched α) (f : α → Watched β) (timer : Timer) (readings : Nat) :
    (w >>= f) timer readings = w timer readings >>= fun r => f r.1 timer r.2 :=
  rfl

theorem replay_bind (w : Work α) (f : α → Work β) : (w >>= f).replay = w.replay >>= fun a => (f a).replay := by
  funext ⟨clock, budget⟩ readings
  rw [bind_apply]
  obtain ⟨checks, outcome⟩ := w
  cases budget with
  | none => cases outcome <;> rfl
  | some budget =>
    cases outcome with
    | error e =>
      simp only [Work.replay, bind, Work.bind]
      split <;> rfl
    | ok a =>
      simp only [Work.replay, bind, Work.bind, Clock.overrun?_add]
      cases clock.overrun? budget readings checks with
      | some elapsed => rfl
      | none =>
        simp only [Option.none_or, Except.map, Except.bind, Nat.add_assoc]

theorem extendEach_eq (p : Pattern) (binding : Binding) (triples : List Triple) :
    extendEach p binding triples =
      (⟨triples.length, .ok (triples.filterMap (extend p binding))⟩ : Work (List Binding)).replay := by
  induction triples with
  | nil => exact (replay_pure _).symm
  | cons t rest ih =>
    have hwork : (⟨(t :: rest).length, .ok ((t :: rest).filterMap (extend p binding))⟩ : Work (List Binding)) =
        (do
          Work.check
          let others ← (⟨rest.length, .ok (rest.filterMap (extend p binding))⟩ : Work (List Binding))
          return (extend p binding t).elim others (· :: others)) := by
      cases h : extend p binding t <;>
        simp [bind, Work.bind, Work.check, pure, Work.pure, h, Nat.add_comm]
    rw [hwork, extendEach]
    simp only [replay_bind, replay_check, replay_pure, ih]

theorem extensions_eq (store : Store) (p : Pattern) (binding : Binding) :
    extensions store p binding = (Query.extensions store p binding).replay := by
  have hwork : Query.extensions store p binding = (do
      Work.check
      (⟨(store.query (p.probe binding)).length,
        .ok ((store.query (p.probe binding)).filterMap (extend p binding))⟩ : Work (List Binding))) := by
    simp [Query.extensions, bind, Work.bind, Work.check, Nat.add_comm]
  rw [hwork, extensions, replay_bind, replay_check, extendEach_eq]

theorem join_eq (store : Store) (p : Pattern) (bindings : List Binding) :
    join store p bindings = (Query.join store p bindings).replay := by
  induction bindings with
  | nil => exact (replay_pure _).symm
  | cons binding rest ih =>
    rw [join, Query.join]
    simp only [replay_bind, replay_pure, extensions_eq, ih]

theorem joinAll_nil (store : Store) (patterns : List Pattern) :
    Query.joinAll store [] patterns = pure [] := by
  induction patterns with
  | nil => rfl
  | cons p rest ih =>
    rw [Query.joinAll, Query.join, pure_bind, ih]

theorem joinAll_eq (store : Store) (patterns : List Pattern) (bindings : List Binding) :
    joinAll store bindings patterns = (Query.joinAll store bindings patterns).replay := by
  induction patterns generalizing bindings with
  | nil => exact (replay_pure _).symm
  | cons p rest ih =>
    rw [joinAll, Query.joinAll, replay_bind, ← join_eq]
    congr 1
    funext joined
    cases joined with
    | nil => rw [joinAll_nil, replay_pure]; rfl
    | cons binding others => exact ih _

theorem leftJoin_eq (store : Store) (group : OptionalGroup) (bindings : List Binding) :
    leftJoin store group bindings = (Query.leftJoin store group bindings).replay := by
  induction bindings with
  | nil => exact (replay_pure _).symm
  | cons binding rest ih =>
    rw [leftJoin, Query.leftJoin]
    simp only [replay_bind, replay_pure, replay_ofExcept, joinAll_eq, ih]

theorem leftJoinAll_eq (store : Store) (groups : List OptionalGroup) (bindings : List Binding) :
    leftJoinAll store bindings groups = (Query.leftJoinAll store bindings groups).replay := by
  induction groups generalizing bindings with
  | nil => exact (replay_pure _).symm
  | cons group rest ih =>
    rw [leftJoinAll, Query.leftJoinAll]
    simp only [replay_bind, leftJoin_eq, ih]

theorem filter_eq (e : Expression) (bindings : List Binding) :
    filter e bindings = (Query.filter e bindings).replay := by
  induction bindings with
  | nil => exact (replay_pure _).symm
  | cons binding rest ih =>
    rw [filter, Query.filter]
    simp only [replay_bind, replay_pure, replay_check, replay_ofExcept, ih]

theorem filterAll_eq (filters : List Expression) (bindings : List Binding) :
    filterAll bindings filters = (Query.filterAll bindings filters).replay := by
  induction filters generalizing bindings with
  | nil => exact (replay_pure _).symm
  | cons e rest ih =>
    rw [filterAll, Query.filterAll]
    simp only [replay_bind, filter_eq, ih]

theorem run_eq (q : SelectQuery) (store : Store) : run q store = (q.run store).replay := by
  rw [run, SelectQuery.run, SelectQuery.solutions]
  simp only [bind_assoc, replay_bind, replay_pure, replay_check, joinAll_eq, leftJoinAll_eq, filterAll_eq]

theorem execute_eq (store : Store) (namespaces : Namespaces) (base : Option String) (text : String) :
    execute store namespaces base text = (Query.execute store namespaces base text).replay := by
  rw [execute, Query.execute]
  simp only [replay_bind, replay_ofExcept, run_eq]

theorem timed_replay (w : Work α) (clock : Clock) (budget : Option Binary64) :
    timed w.replay clock budget = w.timed clock budget := by
  obtain ⟨checks, outcome⟩ := w
  cases budget with
  | none => cases outcome <;> rfl
  | some budget =>
    simp only [timed, Work.timed, Work.replay]
    cases clock.overrun? budget 1 checks with
    | some elapsed => rfl
    | none =>
      rw [Nat.add_comm checks 1]
      cases outcome <;> rfl

end Watched

namespace Work

variable {α : Type} (w : Work α) (clock : Clock) (budget : Binary64)

/-- A run under a budget exceeds it, or has the outcome that it has without one. -/
theorem timed_outcome :
    (∃ elapsed, elapsed.order? budget = some .gt ∧
      w.timed clock (some budget) = .error (.timeout budget elapsed)) ∨
    (w.timed clock (some budget)).map Prod.fst = (w.timed clock none).map Prod.fst := by
  simp only [timed]
  cases h : clock.overrun? budget 1 w.checks with
  | some elapsed => exact .inl ⟨elapsed, Clock.order?_of_overrun? h, rfl⟩
  | none => exact .inr (by cases w.outcome <;> rfl)

variable {w clock budget}

/-- What is found within a budget is found within a larger one, in the same time. -/
theorem timed_of_lt {larger : Binary64} (hlarger : budget.order? larger = some .lt)
    {found : α × Binary64} (h : w.timed clock (some budget) = .ok found) :
    w.timed clock (some larger) = .ok found := by
  rw [timed] at h ⊢
  cases hkept : clock.overrun? budget 1 w.checks with
  | some elapsed =>
    rw [hkept] at h
    cases h
  | none =>
    rw [hkept] at h
    rw [Clock.overrun?_eq_none_of_lt hlarger hkept]
    exact h

end Work

/-- A query that is run under a clock, step by step, exceeds its budget or gives what it gives without
one; and what it gives within a budget it gives within a larger one, in the same time. What the steps do
is told by the outcome without a clock and the number of looks at the time. -/
theorem execute_timed (store : Store) (namespaces : Namespaces) (base : Option String) (text : String)
    (clock : Clock) (budget : Binary64) :
    let under := (Watched.execute store namespaces base text).timed clock
    (∀ budget, under budget = (execute store namespaces base text).timed clock budget) ∧
    ((∃ elapsed, elapsed.order? budget = some .gt ∧
        under (some budget) = .error (.timeout budget elapsed)) ∨
      (under (some budget)).map Prod.fst = (under none).map Prod.fst) ∧
    ∀ larger found, budget.order? larger = some .lt → under (some budget) = .ok found →
      under (some larger) = .ok found := by
  intro under
  have hunder (budget : Option Binary64) :
      under budget = (execute store namespaces base text).timed clock budget := by
    simp only [under, Watched.execute_eq, Watched.timed_replay]
  refine ⟨hunder, ?_, ?_⟩
  · rw [hunder, hunder]
    exact Work.timed_outcome _ clock budget
  · intro larger found hlarger hfound
    rw [hunder] at hfound ⊢
    exact Work.timed_of_lt hlarger hfound

def secondsClock : Clock := fun reading => Binary64.ofInt reading

/-- A query for one statement is given out after five readings, so within ten seconds. -/
theorem execute_timed_seconds :
    let under := (Watched.execute (.ofList .memory [⟨.iri "a:a", .iri "a:p", .plain "x"⟩]) (.empty 1) none
      "SELECT ?o WHERE \x7b ?s ?p ?o \x7d").timed secondsClock
    (Binary64.ofInt 10).order? (Binary64.ofInt 20) = some .lt ∧
      ∃ found, under (some (Binary64.ofInt 10)) = .ok found ∧ under (some (Binary64.ofInt 20)) = .ok found := by
  intro under
  have hlarger : (Binary64.ofInt 10).order? (Binary64.ofInt 20) = some .lt := by decide
  have htime : (under (some (Binary64.ofInt 10))).map Prod.snd = .ok (Binary64.ofInt 4) := by decide +kernel
  obtain ⟨found, hfound, -⟩ := (map_eq_ok_iff _ _ _).1 htime
  exact ⟨hlarger, found, hfound, (execute_timed _ _ _ _ secondsClock _).2.2 _ _ hlarger hfound⟩

end CommandOntology.Query
