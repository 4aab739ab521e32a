import CommandOntology.Data.Value

set_option autoImplicit false

namespace CommandOntology

inductive DeclareError
  | frozen
  | full (capacity : Nat)
  deriving DecidableEq, Repr

/-- Prefixes and the namespaces they stand for, in the order of their first declaration. -/
structure Namespaces where
  capacity : Nat
  entries : List (String × String)
  isFrozen : Bool
  deriving DecidableEq, Repr

namespace Namespaces

def defaultCapacity : Nat := 32

def empty (capacity : Nat) : Namespaces :=
  ⟨capacity, [], false⟩

def resolve (t : Namespaces) (name : String) : Option String :=
  findField t.entries name

/-- Binds a prefix. Binding one again replaces its namespace and takes no room. -/
def declare (t : Namespaces) (name iri : String) : Except DeclareError Namespaces :=
  if t.isFrozen then .error .frozen
  else if (t.resolve name).isNone && t.capacity ≤ t.entries.length then .error (.full t.capacity)
  else .ok { t with entries := putField t.entries name iri }

def freeze (t : Namespaces) : Namespaces :=
  { t with isFrozen := true }

def splitName (name : String) : Option (String × String) :=
  match name.toList.dropWhile (· ≠ ':') with
  | [] => none
  | _ :: rest => some (String.ofList (name.toList.takeWhile (· ≠ ':')), String.ofList rest)

def expand (t : Namespaces) (name : String) : Option String :=
  match splitName name with
  | none => none
  | some (label, rest) => (t.resolve label).map (· ++ rest)

/-- What is left of an IRI after a namespace that is shorter than it. -/
def localName? (namespaceIri iri : String) : Option String :=
  if namespaceIri.toList.isPrefixOf iri.toList && namespaceIri.length < iri.length then
    some (String.ofList (iri.toList.drop namespaceIri.length))
  else none

structure Candidate where
  namespaceLength : Nat
  label : String
  rest : String

def Candidate.isBefore (a b : Candidate) : Bool :=
  b.namespaceLength < a.namespaceLength ||
    (a.namespaceLength == b.namespaceLength && decide (a.label < b.label))

def candidates (t : Namespaces) (iri : String) : List Candidate :=
  t.entries.filterMap fun entry =>
    (localName? entry.2 iri).map fun rest => ⟨entry.2.length, entry.1, rest⟩

def bestCandidate : List Candidate → Option Candidate
  | [] => none
  | c :: rest =>
    match bestCandidate rest with
    | none => some c
    | some d => if d.isBefore c then some d else some c

/-- The prefixed name of an IRI: by the longest namespace, and among those by the least prefix. -/
def compact (t : Namespaces) (iri : String) : Option String :=
  (bestCandidate (t.candidates iri)).map fun c => c.label ++ ":" ++ c.rest

def names (t : Namespaces) : List String :=
  (t.entries.map (·.1)).mergeSort fun a b => decide (a ≤ b)

def sortedEntries (t : Namespaces) : List (String × String) :=
  t.entries.mergeSort fun a b => decide (a.1 ≤ b.1)

def size (t : Namespaces) : Nat :=
  t.entries.length

end Namespaces

end CommandOntology
