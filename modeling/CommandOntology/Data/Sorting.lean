set_option autoImplicit false

namespace CommandOntology

/-- The first place between two where a test holds, if it holds everywhere behind that place. -/
def bisect (test : Nat → Bool) (low high : Nat) : Nat :=
  if low < high then
    let middle := low + (high - low) / 2
    if test middle then bisect test low middle else bisect test (middle + 1) high
  else low
termination_by high - low

def insertSorted {α : Type} (less : α → α → Bool) (sorted : List α) (x : α) : List α :=
  let place := bisect (fun i => (sorted[i]?).any (less x)) 0 sorted.length
  sorted.take place ++ x :: sorted.drop place

/-- The elements after `last` as long as each is greater than the next, and the rest. -/
def descendingRun {α : Type} (less : α → α → Bool) (last : α) : List α → List α × List α
  | [] => ([], [])
  | x :: xs =>
    if less x last then
      let (run, rest) := descendingRun less x xs
      (x :: run, rest)
    else ([], x :: xs)

def ascendingRun {α : Type} (less : α → α → Bool) (last : α) : List α → List α × List α
  | [] => ([], [])
  | x :: xs =>
    if less x last then ([], x :: xs)
    else
      let (run, rest) := ascendingRun less x xs
      (x :: run, rest)

/-- The elements at the start that are in order, or in the opposite order, put in order, and the
rest. -/
def initialRun {α : Type} (less : α → α → Bool) : List α → List α × List α
  | [] => ([], [])
  | [x] => ([x], [])
  | x :: y :: xs =>
    if less y x then
      let (run, rest) := descendingRun less x (y :: xs)
      ((x :: run).reverse, rest)
    else
      let (run, rest) := ascendingRun less x (y :: xs)
      (x :: run, rest)

/-- A list in order. Elements that are not less than one another keep their order. -/
def stableSort {α : Type} (less : α → α → Bool) (xs : List α) : List α :=
  let (run, rest) := initialRun less xs
  rest.foldl (insertSorted less) run

def stableSortDescending {α : Type} (less : α → α → Bool) (xs : List α) : List α :=
  (stableSort less xs.reverse).reverse

end CommandOntology
