import CommandOntology.Export.Document
import CommandOntology.Host.Basic
import CommandOntology.Store
import CommandOntology.Text.Utf8
import CommandOntology.Yaml.Reader

set_option autoImplicit false

namespace CommandOntology

namespace Backend

def names : List (String × Backend) :=
  [("memory", memory), ("rdflib", sorted)]

def name : Backend → String
  | memory => "memory"
  | sorted => "rdflib"

end Backend

structure Configuration where
  capacity : Int := 32
  base : Value := .null
  timeout : Binary64 := .ofInt 30
  resultFormat : Value := .text "json"
  backend : Backend := .memory
  programName : Value := .text "cli"
  version : String := "0.1.0"
  features : List String := []
  exporting : ExportOptions := {}

inductive ConfigurationError
  | notSection
  | unsuitable
  | number (error : NumberError)
  | range (error : RangeError)
  | unknownBackend (name : Value)
  | yaml (error : Yaml.ReadError)
  | undecodable (fault : Utf8.Fault)
  | directory

namespace ConfigurationError

/-- What is said of a value that is refused. Other errors are not about a value. -/
def valueMessage? : ConfigurationError → Option String
  | number error => some error.message
  | range (.value message) => some message
  | unknownBackend name => some (name.shown ++ " is not a valid StorageBackendType")
  | yaml (.range (.value message)) => some message
  | undecodable fault => some fault.message
  | _ => none

end ConfigurationError

namespace Configuration

def backendNamed (name : Value) : Except ConfigurationError Backend :=
  match name with
  | .text s =>
    match findField Backend.names s with
    | some backend => .ok backend
    | none => .error (.unknownBackend name)
  | _ => .error (.unknownBackend name)

/-- An integer, or the whole part of a number, or the integer that a text writes. -/
def integer : Value → Except ConfigurationError Int
  | .bool b => .ok (if b then 1 else 0)
  | .int n => .ok n
  | .float .nan => .error (.range (.value "cannot convert float NaN to integer"))
  | .float x =>
    match x.truncate? with
    | some n => .ok n
    | none => .error (.range .overflow)
  | .text s => (Reading.integer s).mapError .number
  | _ => .error .unsuitable

def number : Value → Except ConfigurationError Binary64
  | .bool b => .ok (.ofInt (if b then 1 else 0))
  | .int n =>
    match Binary64.ofInt n with
    | .infinite _ => .error (.range .overflow)
    | x => .ok x
  | .float x => .ok x
  | .text s => (Reading.float s).mapError .number
  | _ => .error .unsuitable

def splitNames (s : String) : List String :=
  ((Text.splitOn ',' s.toList).map fun part => Text.strip (String.ofList part)).filter (· ≠ "")

def nameList (v : Value) : Except ConfigurationError (List String) :=
  if v.isEmpty then .ok []
  else
    match v with
    | .text s => .ok (splitNames s)
    | .list items => .ok (items.map Value.display)
    | .record fields => .ok (fields.map (·.1))
    | .mapping entries => .ok (entries.map fun entry => entry.1.display)
    | _ => .error .unsuitable

def asRecord (v : Value) : Except ConfigurationError Value :=
  match v with
  | .record _ => .ok v
  | .mapping _ => .ok v
  | _ => .error .notSection

/-- The section under a name; one that is empty is as good as none. -/
def sectionNamed (v : Value) (name : String) : Except ConfigurationError Value :=
  let found := (v.field? name).getD .null
  if found.isEmpty then .ok (.record []) else asRecord found

def exportSection (v : Value) : Except ConfigurationError ExportOptions :=
  let standard : ExportOptions := {}
  if v.isEmpty then .ok standard
  else
    match v with
    | .record fields =>
      if fields.all fun field => ["base_iri", "prefix", "format"].contains field.1 then
        .ok ⟨(v.field? "base_iri").getD standard.base, (v.field? "prefix").getD standard.label,
          (v.field? "format").getD standard.format⟩
      else .error .unsuitable
    | _ => .error .unsuitable

def ofValue (v : Value) : Except ConfigurationError Configuration := do
  let v ← asRecord v
  let standard : Configuration := {}
  let parser ← sectionNamed v "parser"
  let capacity ← integer ((parser.field? "namespace_capacity").getD (.int standard.capacity))
  let query ← sectionNamed v "query"
  let timeout ← number ((query.field? "timeout_seconds").getD (.float standard.timeout))
  let storage ← sectionNamed v "storage"
  let backend ← backendNamed ((storage.field? "backend").getD (.text standard.backend.name))
  let generator ← sectionNamed v "generator"
  let features ← nameList ((generator.field? "flags").getD .null)
  let exporting ← exportSection ((v.field? "export").getD .null)
  return {
    capacity, timeout, backend, features, exporting
    base := (parser.field? "base_iri").getD standard.base
    resultFormat := (query.field? "default_format").getD standard.resultFormat
    programName := (generator.field? "cli_name").getD standard.programName
    version := (generator.field? "version").elim standard.version Value.display }

/-- The configuration that a YAML text describes. A text without content describes the standard one. -/
def ofText (text : String) : Except ConfigurationError Configuration := do
  let v ← (Yaml.read text).mapError .yaml
  ofValue (if v.isEmpty then .record [] else v)

/-- The configuration in a file, or the standard one if there is no file. -/
def ofEntry : FileEntry → Except ConfigurationError Configuration
  | .absent => .ok {}
  | .directory => .error .directory
  | .file bytes => do ofText (← (Utf8.readText bytes).mapError .undecodable)

def record (c : Configuration) : Value :=
  .record [
    ("parser", .record [("namespace_capacity", .int c.capacity), ("base_iri", c.base)]),
    ("query", .record [("timeout_seconds", .float c.timeout), ("default_format", c.resultFormat)]),
    ("storage", .record [("backend", .text c.backend.name)]),
    ("generator", .record [("cli_name", c.programName), ("version", .text c.version),
      ("flags", .texts c.features)]),
    ("export", .record [("base_iri", c.exporting.base), ("prefix", c.exporting.label),
      ("format", c.exporting.format)])]

end Configuration

end CommandOntology
