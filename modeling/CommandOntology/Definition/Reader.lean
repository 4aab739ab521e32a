import CommandOntology.Data.Checked
import CommandOntology.Definition.Basic
import CommandOntology.Json.Reader
import CommandOntology.Yaml.Reader

set_option autoImplicit false

namespace CommandOntology

inductive DefinitionError
  | json (error : Json.SyntaxError)
  | yaml (error : Yaml.ReadError)
  | mismatches (mismatches : List Mismatch)
  deriving Repr

namespace Definition

def lexicalDefault : Value → Option String
  | .null => none
  | .bool b => some (if b then "true" else "false")
  | v => some v.display

def checkArgument (v : Value) : Checked Argument :=
  Check.record (fun v =>
    Argument.mk <$> Check.required "name" Check.text v <*>
      Check.field "type" "string" Check.text v <*>
      Check.field "required" false Check.truth v <*>
      Check.field "default" none (fun v => .good (lexicalDefault v)) v <*>
      Check.field "validators" [] (Check.list Check.text) v <*>
      Check.field "help" none (Check.optional Check.text) v <*>
      Check.field "position" none (Check.optional Check.integer) v) v

def checkHandlers : Value → Checked (List String)
  | .text s => .good [s]
  | v => Check.list Check.text v

def checkCommand (v : Value) : Checked CommandDefinition :=
  Check.record (fun v =>
    CommandDefinition.mk <$> Check.required "noun" Check.text v <*>
      Check.required "verb" Check.text v <*>
      Check.field "help" none (Check.optional Check.text) v <*>
      Check.field "handlers" [] checkHandlers v <*>
      Check.field "capabilities" [] (Check.list Check.text) v <*>
      Check.field "arguments" [] (Check.list checkArgument) v) v

def check (v : Value) : Checked Definition :=
  Check.record (fun v =>
    Definition.mk <$> Check.field "name" "cli" Check.text v <*>
      Check.field "version" none (Check.optional Check.text) v <*>
      Check.field "description" none (Check.optional Check.text) v <*>
      Check.field "commands" [] (Check.list checkCommand) v) v

def ofValue (v : Value) : Except DefinitionError Definition :=
  let v :=
    match v with
    | .list _ => Value.record [("commands", v)]
    | v => v
  (check v).toExcept.mapError .mismatches

/-- A definition as a text: JSON if it begins like a record or a list, and YAML otherwise. A YAML text
without content defines a program without commands. -/
def ofText (text : String) : Except DefinitionError Definition := do
  match (Text.trimStart text.toList).head? with
  | some '\x7b' => ofValue (← (Json.read text).mapError .json)
  | some '[' => ofValue (← (Json.read text).mapError .json)
  | _ =>
    let v ← (Yaml.read text).mapError .yaml
    ofValue (if v.isEmpty then .record [] else v)

def ofSource : Value → Except DefinitionError Definition
  | .text s => ofText s
  | v => ofValue v

end Definition

end CommandOntology
