import CommandOntology.Data.Sorting
import CommandOntology.Data.Value
import CommandOntology.Number.Reading
import CommandOntology.Query.Syntax

set_option autoImplicit false

namespace CommandOntology.Query

/-- The variables that a solution binds, in the order in which they were bound. -/
abbrev Binding := List (String × Term)

def isNumeric (datatype : Option String) : Bool :=
  datatype == some Xsd.integer || datatype == some Xsd.decimal || datatype == some Xsd.double

inductive SortKey
  | unbound
  | blank (label : String)
  | iri (value : String)
  | number (value : Binary64) (lexical : String)
  | literal (lexical lineForm : String)
  deriving DecidableEq, Repr

namespace SortKey

def ofLiteral (lexical : String) (datatype language : Option String) : SortKey :=
  let other := literal lexical (Term.literal lexical datatype language).lineForm
  if isNumeric datatype then
    match Reading.float lexical with
    | .ok value => number value lexical
    | .error _ => other
  else other

def ofTerm : Option Term → SortKey
  | none => unbound
  | some (.blank label) => blank label
  | some (.iri value) => iri value
  | some (.literal lexical datatype language) => ofLiteral lexical datatype language

def rank : SortKey → Nat
  | unbound => 0
  | blank _ => 1
  | iri _ => 2
  | number _ _ => 3
  | literal _ _ => 4

/-- The order of keys. Numbers of one value are ordered by their texts. -/
def less : SortKey → SortKey → Bool
  | blank a, blank b => a < b
  | iri a, iri b => a < b
  | number x a, number y b =>
    match x.order? y with
    | some .lt => true
    | some .eq => a < b
    | _ => false
  | literal a m, literal b n => if a = b then m < n else a < b
  | a, b => a.rank < b.rank

end SortKey

def sortByTerm {α : Type} (descending : Bool) (term : α → Option Term) (xs : List α) : List α :=
  let keyed := xs.map fun x => (SortKey.ofTerm (term x), x)
  let less := fun (a b : SortKey × α) => a.1.less b.1
  (if descending then stableSortDescending less keyed else stableSort less keyed).map (·.2)

def OrderCondition.sort (c : OrderCondition) (bindings : List Binding) : List Binding :=
  sortByTerm c.descending (fun b => findField b c.name) bindings

end CommandOntology.Query
