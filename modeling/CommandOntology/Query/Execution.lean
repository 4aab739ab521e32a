import CommandOntology.Query.Evaluation
import CommandOntology.Query.Parser
import CommandOntology.Store

set_option autoImplicit false

/-!
# Running queries

The solutions of a query over a store: its patterns are joined one after the other, optional groups
extend what they can, filters drop solutions, and the rest is ordered, projected and cut.

While a query runs, the time is looked at in certain places. What it finds does not depend on the time,
so a run is described by its outcome together with the number of those places. A budget then either is
kept in all of them, and the outcome stands, or it is exceeded in one, and the run fails.
-/

namespace CommandOntology.Query

/-- The outcome of a run, and how often the time was looked at until it was there. -/
structure Work (α : Type) where
  checks : Nat
  outcome : Except QueryError α

namespace Work

def pure {α : Type} (a : α) : Work α :=
  ⟨0, .ok a⟩

def bind {α β : Type} (w : Work α) (f : α → Work β) : Work β :=
  match w.outcome with
  | .ok a => ⟨w.checks + (f a).checks, (f a).outcome⟩
  | .error e => ⟨w.checks, .error e⟩

instance : Monad Work where
  pure := Work.pure
  bind := Work.bind

def check : Work Unit :=
  ⟨1, .ok ()⟩

def ofExcept {α : Type} (outcome : Except QueryError α) : Work α :=
  ⟨0, outcome⟩

end Work

def Slot.value? (binding : Binding) : Slot → Option Term
  | var name => findField binding name
  | term t => some t

def Pattern.probe (p : Pattern) (binding : Binding) : TriplePattern :=
  ⟨p.subject.value? binding, p.predicate.value? binding, p.object.value? binding⟩

/-- Binds a place of a pattern to a term, unless it is bound to another. -/
def bindSlot (binding : Binding) (slot : Slot) (t : Term) : Option Binding :=
  match slot with
  | .term _ => some binding
  | .var name =>
    match findField binding name with
    | none => some (binding ++ [(name, t)])
    | some current => if current = t then some binding else none

def extend (p : Pattern) (binding : Binding) (t : Triple) : Option Binding := do
  bindSlot (← bindSlot (← bindSlot binding p.subject t.subject) p.predicate t.predicate) p.object
    t.object

/-- The extensions of a binding under which a pattern is in the store. The time is looked at once, and
at every statement that the store gives out. -/
def extensions (store : Store) (p : Pattern) (binding : Binding) : Work (List Binding) :=
  let triples := store.query (p.probe binding)
  ⟨triples.length + 1, .ok (triples.filterMap (extend p binding))⟩

def join (store : Store) (p : Pattern) : List Binding → Work (List Binding)
  | [] => return []
  | binding :: rest => do
    let first ← extensions store p binding
    return first ++ (← join store p rest)

def joinAll (store : Store) (bindings : List Binding) : List Pattern → Work (List Binding)
  | [] => return bindings
  | p :: rest => do joinAll store (← join store p bindings) rest

def holdsFor (binding : Binding) (e : Expression) : Except QueryError Bool :=
  (e.passes binding).mapError .unusablePattern

/-- Whether all conditions hold; after one that does not, no other is looked at. -/
def passesAll (binding : Binding) : List Expression → Except QueryError Bool
  | [] => return true
  | e :: rest => do
    if ← holdsFor binding e then passesAll binding rest else return false

def keepPassingAll (filters : List Expression) : List Binding → Except QueryError (List Binding)
  | [] => return []
  | binding :: rest => do
    let holds ← passesAll binding filters
    let kept ← keepPassingAll filters rest
    return if holds then binding :: kept else kept

/-- Extends each binding by an optional group; one without extensions stays as it is. -/
def leftJoin (store : Store) (group : OptionalGroup) : List Binding → Work (List Binding)
  | [] => return []
  | binding :: rest => do
    let joined ← joinAll store [binding] group.patterns
    let found ← Work.ofExcept (keepPassingAll group.filters joined)
    return (if found.isEmpty then [binding] else found) ++ (← leftJoin store group rest)

def leftJoinAll (store : Store) (bindings : List Binding) : List OptionalGroup → Work (List Binding)
  | [] => return bindings
  | group :: rest => do leftJoinAll store (← leftJoin store group bindings) rest

/-- Drops the bindings for which a condition does not hold. The time is looked at for each. -/
def filter (e : Expression) : List Binding → Work (List Binding)
  | [] => return []
  | binding :: rest => do
    Work.check
    let holds ← Work.ofExcept (holdsFor binding e)
    let kept ← filter e rest
    return if holds then binding :: kept else kept

def filterAll (bindings : List Binding) : List Expression → Work (List Binding)
  | [] => return bindings
  | e :: rest => do filterAll (← filter e bindings) rest

def SelectQuery.solutions (q : SelectQuery) (store : Store) : Work (List Binding) := do
  let required ← joinAll store [[]] q.patterns
  let extended ← leftJoinAll store required q.optionals
  filterAll extended q.filters

abbrev Row := List (String × Term)

/-- Puts bindings in the order of conditions, the first of which counts most. -/
def orderAll (conditions : List OrderCondition) (bindings : List Binding) : List Binding :=
  conditions.foldr OrderCondition.sort bindings

def project (projection : List String) (binding : Binding) : Row :=
  projection.filterMap fun name => (findField binding name).map (name, ·)

def rowKey (projection : List String) (row : Row) : List (Option Term) :=
  projection.map (findField row)

def slice {α : Type} (limit : Option Nat) (offset : Nat) (rows : List α) : List α :=
  match limit with
  | none => rows.drop offset
  | some n => (rows.drop offset).take n

def SelectQuery.rows (q : SelectQuery) (solutions : List Binding) : List Row :=
  let rows := (orderAll q.order solutions).map (project q.projection)
  let rows := if q.distinct then distinctBy (rowKey q.projection) rows else rows
  slice q.limit q.offset rows

structure Results where
  varNames : List String
  rows : List Row
  deriving Repr

namespace Results

def column (r : Results) (name : String) : List (Option Term) :=
  r.rows.map fun row => findField row name

def texts (r : Results) : List (List (Option String)) :=
  r.rows.map fun row => r.varNames.map fun name => (findField row name).map Term.text

end Results

def SelectQuery.run (q : SelectQuery) (store : Store) : Work Results := do
  let solutions ← q.solutions store
  Work.check
  return ⟨q.projection, q.rows solutions⟩

abbrev Clock := Nat → Binary64

def Clock.elapsed (clock : Clock) (reading : Nat) : Binary64 :=
  (clock reading).sub (clock 0)

/-- The first of so many readings from one on that exceeds a budget. -/
def Clock.overrun? (clock : Clock) (budget : Binary64) (reading : Nat) : Nat → Option Binary64
  | 0 => none
  | n + 1 =>
    let elapsed := clock.elapsed reading
    if elapsed.order? budget = some .gt then some elapsed
    else clock.overrun? budget (reading + 1) n

/-- The outcome of a run under a budget, and the time that it took. Without a budget the clock is read
at the start and at the end alone. -/
def Work.timed {α : Type} (w : Work α) (clock : Clock) (budget : Option Binary64) :
    Except QueryError (α × Binary64) :=
  match budget with
  | none => w.outcome.map fun a => (a, clock.elapsed 1)
  | some budget =>
    match clock.overrun? budget 1 w.checks with
    | some elapsed => .error (.timeout budget elapsed)
    | none => w.outcome.map fun a => (a, clock.elapsed (w.checks + 1))

/-- Reads and runs a query over a store, under the namespaces and base of its document. -/
def execute (store : Store) (namespaces : Namespaces) (base : Option String) (text : String) :
    Work Results := do
  let q ← Work.ofExcept (parse namespaces.entries base text)
  q.run store

end CommandOntology.Query
