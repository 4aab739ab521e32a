import CommandOntology.Command.TypeTag
import CommandOntology.Number.Reading
import CommandOntology.Number.Shortest
import CommandOntology.Text.Quoted

set_option autoImplicit false

namespace CommandOntology.Generation

inductive ArgumentType
  | text | integer | float | boolean | path
  deriving DecidableEq, Repr

namespace ArgumentType

def annotation : ArgumentType → String
  | text => "str"
  | integer => "int"
  | float => "float"
  | boolean => "bool"
  | path => "Path"

def tags : List (String × ArgumentType) :=
  [("bool", boolean), ("boolean", boolean), ("decimal", float), ("double", float), ("file", path),
    ("float", float), ("int", integer), ("integer", integer), ("number", float), ("path", path),
    ("str", text), ("string", text), ("text", text)]

def ofTag? (tag : String) : Option ArgumentType :=
  (tags.find? fun entry => entry.1 == tag).map (·.2)

end ArgumentType

inductive DefaultValue
  | text (s : String)
  | integer (n : Int)
  | float (x : Binary64)
  | boolean (b : Bool)
  | path (s : String)
  deriving DecidableEq, Repr

namespace DefaultValue

def expression : DefaultValue → String
  | text s => Text.quoted s
  | integer n => toString n
  | float x => x.text
  | boolean b => if b then "True" else "False"
  | path s => "Path(" ++ Text.quoted s ++ ")"

def truth? (raw : String) : Option Bool :=
  match Text.lower (Text.strip raw) with
  | "true" => some true
  | "1" => some true
  | "yes" => some true
  | "false" => some false
  | "0" => some false
  | "no" => some false
  | _ => none

def read? (type : ArgumentType) (raw : String) : Option DefaultValue :=
  match type with
  | .text => some (text raw)
  | .integer => (Reading.integer raw).toOption.map integer
  | .float => (Reading.float raw).toOption.map float
  | .boolean => (truth? raw).map boolean
  | .path => some (path raw)

end DefaultValue

end CommandOntology.Generation
