import CommandOntology.Query.Execution

set_option autoImplicit false

namespace CommandOntology.Query

structure Timer where
  clock : Clock
  budget : Option Binary64

/-- A run that is told how many readings of the clock there were before it, and tells how many there are
after it. -/
abbrev Watched :=
  ReaderT Timer (StateT Nat (Except QueryError))

namespace Watched

def look : Watched Unit := fun timer readings =>
  match timer.budget with
  | none => .ok ((), readings)
  | some budget =>
    let elapsed := timer.clock.elapsed readings
    if elapsed.order? budget = some .gt then .error (.timeout budget elapsed)
    else .ok ((), readings + 1)

def ofExcept {α : Type} (outcome : Except QueryError α) : Watched α := fun _ readings =>
  outcome.map (·, readings)

def timed {α : Type} (w : Watched α) (clock : Clock) (budget : Option Binary64) :
    Except QueryError (α × Binary64) :=
  (w ⟨clock, budget⟩ 1).map fun (a, readings) => (a, clock.elapsed readings)

def extendEach (p : Pattern) (binding : Binding) : List Triple → Watched (List Binding)
  | [] => return []
  | t :: rest => do
    look
    let others ← extendEach p binding rest
    return ((extend p binding t).elim others (· :: others))

def extensions (store : Store) (p : Pattern) (binding : Binding) : Watched (List Binding) := do
  look
  extendEach p binding (store.query (p.probe binding))

def join (store : Store) (p : Pattern) : List Binding → Watched (List Binding)
  | [] => return []
  | binding :: rest => do
    let first ← extensions store p binding
    return first ++ (← join store p rest)

def joinAll (store : Store) (bindings : List Binding) : List Pattern → Watched (List Binding)
  | [] => return bindings
  | p :: rest => do
    let joined ← join store p bindings
    if joined.isEmpty then return [] else joinAll store joined rest

def leftJoin (store : Store) (group : OptionalGroup) : List Binding → Watched (List Binding)
  | [] => return []
  | binding :: rest => do
    let joined ← joinAll store [binding] group.patterns
    let found ← ofExcept (keepPassingAll group.filters joined)
    return (if found.isEmpty then [binding] else found) ++ (← leftJoin store group rest)

def leftJoinAll (store : Store) (bindings : List Binding) : List OptionalGroup → Watched (List Binding)
  | [] => return bindings
  | group :: rest => do leftJoinAll store (← leftJoin store group bindings) rest

def filter (e : Expression) : List Binding → Watched (List Binding)
  | [] => return []
  | binding :: rest => do
    look
    let holds ← ofExcept (holdsFor binding e)
    let kept ← filter e rest
    return if holds then binding :: kept else kept

def filterAll (bindings : List Binding) : List Expression → Watched (List Binding)
  | [] => return bindings
  | e :: rest => do filterAll (← filter e bindings) rest

def run (q : SelectQuery) (store : Store) : Watched Results := do
  let required ← joinAll store [[]] q.patterns
  let extended ← leftJoinAll store required q.optionals
  let solutions ← filterAll extended q.filters
  look
  return ⟨q.projection, q.rows solutions⟩

def execute (store : Store) (namespaces : Namespaces) (base : Option String) (text : String) :
    Watched Results := do
  let q ← ofExcept (parse namespaces.entries base text)
  run q store

end Watched

end CommandOntology.Query
