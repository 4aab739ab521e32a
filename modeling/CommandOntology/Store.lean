import Std.Data.HashMap
import CommandOntology.Data.Distinct
import CommandOntology.Rdf.Graph
import CommandOntology.Rdf.Term

set_option autoImplicit false

/-!
# Stores

Two kinds of stores behind one interface. They hold the same statements and differ in the order in
which they give them out.

One keeps statements in the order of their insertion, with an index from each term to the places where it is a
subject, a predicate or an object. A question is answered from the shortest of the lists of places that
its bound terms have. The other is a graph whose statements are given out in the order of their line forms; the
datatype of plain strings is not given out.
-/

namespace CommandOntology

abbrev TermIndex := Std.HashMap Term (List Nat)

namespace TermIndex

/-- The places at which the terms of a list stand, counted from `start`. -/
def build (start : Nat) : List Term → TermIndex
  | [] => ∅
  | term :: rest => (build (start + 1) rest).alter term fun places => some (start :: places.getD [])

def places (index : TermIndex) (term : Term) : List Nat :=
  index.getD term []

end TermIndex

/-- A store that keeps statements in the order of their insertion, each once. -/
structure MemoryStore where
  triples : Array Triple
  bySubject : TermIndex
  byPredicate : TermIndex
  byObject : TermIndex

namespace MemoryStore

def ofList (triples : List Triple) : MemoryStore :=
  let stored := distinct triples
  { triples := stored.toArray
    bySubject := .build 0 (stored.map (·.subject))
    byPredicate := .build 0 (stored.map (·.predicate))
    byObject := .build 0 (stored.map (·.object)) }

def toList (s : MemoryStore) : List Triple :=
  s.triples.toList

def size (s : MemoryStore) : Nat :=
  s.triples.size

def placeLists (s : MemoryStore) (p : TriplePattern) : List (List Nat) :=
  (p.subject.toList.map s.bySubject.places) ++ (p.predicate.toList.map s.byPredicate.places) ++
    (p.object.toList.map s.byObject.places)

def shortestList (best : List Nat) : List (List Nat) → List Nat
  | [] => best
  | places :: rest => shortestList (if places.length < best.length then places else best) rest

def query (s : MemoryStore) (p : TriplePattern) : List Triple :=
  match s.placeLists p with
  | [] => s.toList
  | places :: rest =>
    (shortestList places rest).filterMap fun i => s.triples[i]?.filter p.holds

end MemoryStore

namespace Term

def ofNode : Term → Term
  | literal lexical datatype language =>
    .literal lexical (datatype.filter (· ≠ Xsd.string)) language
  | other => other

end Term

def TriplePattern.mapTerms (f : Term → Term) (p : TriplePattern) : TriplePattern :=
  ⟨p.subject.map f, p.predicate.map f, p.object.map f⟩

def TriplePattern.terms (p : TriplePattern) : List Term :=
  p.subject.toList ++ p.predicate.toList ++ p.object.toList

def TriplePattern.bindsPredicateOnly (p : TriplePattern) : Bool :=
  p.subject.isNone && p.predicate.isSome && p.object.isNone

def TriplePattern.fill (p : TriplePattern) (t : Triple) : Triple :=
  ⟨p.subject.getD t.subject, p.predicate.getD t.predicate, p.object.getD t.object⟩

structure SortedStore where
  graph : Graph

namespace SortedStore

def ofList (triples : List Triple) : SortedStore :=
  ⟨.ofList triples⟩

def giveOut (statements : List Triple) : List Triple :=
  sortTriples (statements.map (·.mapTerms Term.ofNode))

def toList (s : SortedStore) : List Triple :=
  giveOut s.graph.statements

def size (s : SortedStore) : Nat :=
  s.graph.size

/-- The first of the nodes that an index by predicate does not tell apart from the object of a
statement. -/
def indexedObject (s : SortedStore) (t : Triple) : Term :=
  ((s.graph.statements.find? fun other =>
    other.predicate == t.predicate && other.object.matchKey == t.object.matchKey).map
      (·.object)).getD t.object

/-- The statements that answer a pattern, in order. Where the pattern binds a term, that is the one that
is given out. -/
def query (s : SortedStore) (p : TriplePattern) : List Triple :=
  let bound := p.mapTerms Term.node
  let answers :=
    s.graph.statements.filter fun t => (bound.mapTerms Term.matchKey).holds (t.mapTerms Term.matchKey)
  let answers :=
    if p.bindsPredicateOnly then answers.map fun t => { t with object := s.indexedObject t }
    else answers
  giveOut (answers.map bound.fill)

end SortedStore

inductive Backend
  | memory
  | sorted
  deriving DecidableEq, Repr

inductive Store
  | memory (store : MemoryStore)
  | sorted (store : SortedStore)

namespace Store

def ofList (backend : Backend) (triples : List Triple) : Store :=
  match backend with
  | .memory => .memory (.ofList triples)
  | .sorted => .sorted (.ofList triples)

def toList : Store → List Triple
  | memory s => s.toList
  | sorted s => s.toList

def size : Store → Nat
  | memory s => s.size
  | sorted s => s.size

def query : Store → TriplePattern → List Triple
  | memory s => s.query
  | sorted s => s.query

/-- A store of statements that may not all be statements of a graph. A store in memory takes them as they
are. -/
def ofTerms (backend : Backend) (triples : List Triple) : Except TagError Store := do
  if backend = .sorted then checkTags (triples.flatMap Triple.terms)
  return ofList backend triples

def ask (s : Store) (p : TriplePattern) : Except TagError (List Triple) := do
  if s matches sorted _ then checkTags p.terms
  return s.query p

def subjects (s : Store) : List Term :=
  distinct (s.toList.map (·.subject))

end Store

end CommandOntology
