import CommandOntology.Definition.Basic
import CommandOntology.Definition.Reader
import CommandOntology.Export.Error

set_option autoImplicit false

namespace CommandOntology

/-- A parameter of a command of an application. Its default is given as data, or made when it is
needed. -/
structure AppParameter where
  name : String
  typeName : String := "text"
  isArgument : Bool
  required : Bool := false
  default : Option Value := none
  help : Option String := none
  isHidden : Bool := false
  isExposed : Bool := true

/-- What an application calls for a command: a function of a module. -/
structure Callback where
  moduleName : String
  functionName : String

inductive AppNode
  | command (name : Option String) (help : Option String) (callback : Option Callback)
      (parameters : List AppParameter)
  | group (name : Option String) (help : Option String) (children : List (String × AppNode))
  | other (type : String)
  deriving Inhabited

namespace Application

def typeTags : List (String × String) :=
  [("text", "string"), ("string", "string"), ("choice", "string"), ("uuid", "string"),
    ("integer", "integer"), ("integer range", "integer"), ("float", "float"), ("float range", "float"),
    ("boolean", "boolean"), ("path", "path"), ("filename", "path"), ("file", "path")]

def typeTag (typeName : String) : String :=
  let word := Text.lower typeName
  (findField typeTags word).getD word

/-- A default in the form of text. Several values are joined by commas, and no values are no default. -/
def lexical : Value → Option String
  | .list [] => none
  | .list items => some (",".intercalate (items.map Value.display))
  | v => Definition.lexicalDefault v

def firstParagraph (text : String) : Option String :=
  let stripped := Text.trim text.toList
  let paragraph := firstPart stripped
  let words := Text.collapse (String.ofList paragraph)
  if words = "" then none else some words
where
  /-- What comes before the first empty line. -/
  firstPart : List Char → List Char
    | '\n' :: '\n' :: _ => []
    | c :: rest => c :: firstPart rest
    | [] => []

def argument (p : AppParameter) (position : Nat) : Argument :=
  { name := p.name
    typeTag := typeTag p.typeName
    required := p.required
    default := if p.required then none else p.default.bind lexical
    help := p.help.filter (· ≠ "")
    position := if p.isArgument then some position else none }

def arguments (position : Nat) : List AppParameter → List Argument
  | [] => []
  | p :: rest =>
    if p.isExposed && !p.isHidden then
      argument p position :: arguments (if p.isArgument then position + 1 else position) rest
    else arguments position rest

def binding (c : Callback) : String :=
  (if c.moduleName = "" then "__main__" else c.moduleName) ++ ":" ++ c.functionName

def commandDefinition? (noun verb : String) : AppNode → Option CommandDefinition
  | .command _ help callback parameters =>
    some {
      noun
      verb
      help := help.bind firstParagraph
      handlers := callback.toList.map binding
      arguments := arguments 0 parameters }
  | _ => none

/-- Children in the order of their names, of which the last one of a name counts. -/
def ordered (children : List (String × AppNode)) : List (String × AppNode) :=
  (gatherFields children).mergeSort fun a b => decide (a.1 ≤ b.1)

/-- The definitions of the verbs of a noun; a command that is no group has none. -/
def nounDefinitions (noun : String) : AppNode → List CommandDefinition
  | .group _ _ children =>
    (ordered children).filterMap fun child => commandDefinition? noun child.1 child.2
  | _ => []

def definition (root : AppNode) (name version : Option String) : Except ExportError Definition :=
  match root with
  | .other type => .error (.notApplication type)
  | .command own _ _ _ => .error (.noGroups own)
  | .group own help children =>
    .ok {
      name := ((name.filter (· ≠ "")) <|> (own.filter (· ≠ ""))).getD "cli"
      version
      description := help.bind firstParagraph
      commands := (ordered children).flatMap fun child => nounDefinitions child.1 child.2 }

end Application

end CommandOntology
