import CommandOntology.Configuration.Loading
import CommandOntology.Generation.Generator
import CommandOntology.Pipeline.Error

set_option autoImplicit false

namespace CommandOntology.Configuration

def parserOptions (c : Configuration) (base : Option String) : Turtle.ParserOptions :=
  { capacity := c.capacity, base }

/-- Reads a document. A configured base that is no text does no harm as long as it is not needed; an
empty one counts as an empty text. -/
def readDocument (c : Configuration) (text : String) : Except PipelineError Turtle.Document :=
  match c.base with
  | .null => (Turtle.parse (c.parserOptions none) text).mapError .document
  | .text base => (Turtle.parse (c.parserOptions (some base)) text).mapError .document
  | other =>
    if other.isEmpty then (Turtle.parse (c.parserOptions (some "")) text).mapError .document
    else
      (Turtle.parse (c.parserOptions none) text).mapError fun error =>
        match error with
        | .invalidIri _ .relativeWithoutBase _ => .unusableBase
        | error => .document error

def backendFor (c : Configuration) (name : Option String) : Except ConfigurationError Backend :=
  match nonempty name with
  | some name => backendNamed (.text name)
  | none => .ok c.backend

def readOntology (c : Configuration) (text : String) (backend : Option String := none) :
    Except PipelineError Ontology := do
  let document ← c.readDocument text
  let backend ← (c.backendFor backend).mapError .configuration
  return .ofDocument backend (some {}) document

def generator (c : Configuration) (name version : Option String) : Generator :=
  .ofName ((nonempty name).elim c.programName Value.text) ((nonempty version).getD c.version)

def chosenFeatures (c : Configuration) : Except String Features :=
  Features.ofNames c.features

def budget (c : Configuration) (timeout : Option Binary64) : Binary64 :=
  timeout.getD c.timeout

/-- The options of an export; those that are not given, or empty, are the configured ones. -/
def exportOptions (c : Configuration) (base label format : Option String) : ExportOptions where
  base := (nonempty base).elim c.exporting.base Value.text
  label := (nonempty label).elim c.exporting.label Value.text
  format := (nonempty format).elim c.exporting.format Value.text

def resultFormatFor (c : Configuration) (format : Option Query.ResultFormat) :
    Except PipelineError Query.ResultFormat :=
  match format with
  | some format => .ok format
  | none =>
    match c.resultFormat with
    | .text name =>
      match Query.ResultFormat.all.find? fun format => format.name == name with
      | some format => .ok format
      | none => .error (.unknownResultFormat c.resultFormat)
    | _ => .error (.unknownResultFormat c.resultFormat)

end CommandOntology.Configuration
