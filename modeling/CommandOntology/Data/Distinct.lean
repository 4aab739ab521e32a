set_option autoImplicit false

namespace CommandOntology

/-- The elements whose keys have not been seen, each key at its first occurrence. -/
def distinctByFrom {α κ : Type} [DecidableEq κ] (key : α → κ) (seen : List κ) : List α → List α
  | [] => []
  | x :: xs =>
    if key x ∈ seen then distinctByFrom key seen xs
    else x :: distinctByFrom key (key x :: seen) xs

def distinctBy {α κ : Type} [DecidableEq κ] (key : α → κ) (xs : List α) : List α :=
  distinctByFrom key [] xs

def distinct {α : Type} [DecidableEq α] (xs : List α) : List α :=
  distinctBy id xs

end CommandOntology
