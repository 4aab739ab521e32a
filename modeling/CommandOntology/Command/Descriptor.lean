import CommandOntology.Data.Value
import CommandOntology.Rdf.Term

set_option autoImplicit false

namespace CommandOntology

structure Argument where
  name : String
  typeTag : String := "string"
  required : Bool := false
  default : Option String := none
  validators : List String := []
  help : Option String := none
  position : Option Int := none
  deriving DecidableEq, Repr, Inhabited

namespace Argument

/-- Whether a position is no later than another; a missing position is the last. -/
def positionLe : Option Int → Option Int → Bool
  | _, none => true
  | none, some _ => false
  | some a, some b => a ≤ b

def le (a b : Argument) : Bool :=
  if a.position ≠ b.position then positionLe a.position b.position else a.name ≤ b.name

def sort (arguments : List Argument) : List Argument :=
  arguments.mergeSort le

def record (a : Argument) : Value :=
  .record [("name", .text a.name), ("type", .text a.typeTag), ("required", .bool a.required),
    ("default", .optText a.default), ("validators", .texts a.validators),
    ("help", .optText a.help), ("position", .ofOption .int a.position)]

end Argument

structure CommandKey where
  noun : String
  verb : String
  deriving DecidableEq, Repr, Inhabited

namespace CommandKey

def le (a b : CommandKey) : Bool :=
  if a.noun ≠ b.noun then a.noun ≤ b.noun else a.verb ≤ b.verb

def text (k : CommandKey) : String :=
  k.noun ++ " " ++ k.verb

end CommandKey

/-- A command of a program. The first of its handlers is the primary one. -/
structure Command where
  noun : String
  verb : String
  arguments : List Argument := []
  capabilities : List String := []
  help : Option String := none
  handler : Option String := none
  handlers : List String := []
  iri : Option String := none
  deriving DecidableEq, Repr, Inhabited

namespace Command

def key (c : Command) : CommandKey :=
  ⟨c.noun, c.verb⟩

def qualifiedName (c : Command) : String :=
  c.key.text

def argument? (c : Command) (name : String) : Option Argument :=
  c.arguments.find? (·.name == name)

def content (c : Command) : Command :=
  { c with iri := none }

def record (c : Command) : Value :=
  .record [("noun", .text c.noun), ("verb", .text c.verb), ("iri", .optText c.iri),
    ("help", .optText c.help), ("handler", .optText c.handler), ("handlers", .texts c.handlers),
    ("capabilities", .texts c.capabilities), ("arguments", .list (c.arguments.map Argument.record))]

end Command

end CommandOntology
