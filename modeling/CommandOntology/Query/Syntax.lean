import CommandOntology.Rdf.Term

set_option autoImplicit false

namespace CommandOntology.Query

inductive Slot
  | var (name : String)
  | term (term : Term)
  deriving DecidableEq, Repr, Inhabited

structure Pattern where
  subject : Slot
  predicate : Slot
  object : Slot
  deriving DecidableEq, Repr, Inhabited

namespace Slot

def varNames : Slot → List String
  | var name => [name]
  | term _ => []

end Slot

def Pattern.varNames (p : Pattern) : List String :=
  p.subject.varNames ++ p.predicate.varNames ++ p.object.varNames

inductive Comparison
  | eq | ne | lt | gt | le | ge
  deriving DecidableEq, Repr

namespace Comparison

def text : Comparison → String
  | eq => "="
  | ne => "!="
  | lt => "<"
  | gt => ">"
  | le => "<="
  | ge => ">="

def ofText? : String → Option Comparison
  | "=" => some eq
  | "!=" => some ne
  | "<" => some lt
  | ">" => some gt
  | "<=" => some le
  | ">=" => some ge
  | _ => none

end Comparison

inductive TextTest
  | contains | starts | ends
  deriving DecidableEq, Repr

inductive TextFunction
  | text | lower | upper
  deriving DecidableEq, Repr

inductive Expression
  | var (name : String)
  | constant (value : Term)
  | not (operand : Expression)
  | compare (operator : Comparison) (left right : Expression)
  | and (left right : Expression)
  | or (left right : Expression)
  | bound (name : String)
  | apply (function : TextFunction) (operand : Expression)
  | test (test : TextTest) (text part : Expression)
  | regex (text pattern : Expression)
  | regexFlags (text pattern flags : Expression)
  deriving DecidableEq, Repr, Inhabited

namespace Expression

def varNames : Expression → List String
  | var name => [name]
  | constant _ => []
  | not operand => operand.varNames
  | compare _ left right => left.varNames ++ right.varNames
  | and left right => left.varNames ++ right.varNames
  | or left right => left.varNames ++ right.varNames
  | bound name => [name]
  | apply _ operand => operand.varNames
  | test _ text part => text.varNames ++ part.varNames
  | regex text pattern => text.varNames ++ pattern.varNames
  | regexFlags text pattern flags => text.varNames ++ pattern.varNames ++ flags.varNames

end Expression

def Slot.expression : Slot → Expression
  | var name => .var name
  | term value => .constant value

inductive FunctionName
  | regex | bound
  | test (test : TextTest)
  | apply (function : TextFunction)
  deriving DecidableEq, Repr

namespace FunctionName

def text : FunctionName → String
  | regex => "regex"
  | bound => "bound"
  | test .contains => "contains"
  | test .starts => "strstarts"
  | test .ends => "strends"
  | apply .text => "str"
  | apply .lower => "lcase"
  | apply .upper => "ucase"

def ofText? : String → Option FunctionName
  | "regex" => some regex
  | "bound" => some bound
  | "contains" => some (test .contains)
  | "strstarts" => some (test .starts)
  | "strends" => some (test .ends)
  | "str" => some (apply .text)
  | "lcase" => some (apply .lower)
  | "ucase" => some (apply .upper)
  | _ => none

def arity : FunctionName → Nat × Nat
  | regex => (2, 3)
  | bound => (1, 1)
  | test _ => (2, 2)
  | apply _ => (1, 1)

end FunctionName

/-- Patterns that may extend a solution, if the filters of the group hold for it then. -/
structure OptionalGroup where
  patterns : List Pattern
  filters : List Expression
  deriving DecidableEq, Repr

structure OrderCondition where
  name : String
  descending : Bool
  deriving DecidableEq, Repr

structure SelectQuery where
  projection : List String
  distinct : Bool
  patterns : List Pattern
  optionals : List OptionalGroup
  filters : List Expression
  order : List OrderCondition
  limit : Option Nat
  offset : Nat
  prefixes : List (String × String)
  deriving DecidableEq, Repr

end CommandOntology.Query
