import CommandOntology.Console.Invocation
import CommandOntology.Pipeline.Request

set_option autoImplicit false

namespace CommandOntology.Console

inductive Failure
  | pipeline (error : PipelineError)
  | write (fault : WriteFault)
  /-- A module is named by its place relative to another. -/
  | relativeModule

structure Outcome where
  status : Nat := 0
  output : String := ""
  errors : String := ""
  failure : Option Failure := none

namespace Outcome

def usageStatus : Nat := 2

def told (fields : List (String × Value)) : Outcome :=
  { status := 1, errors := Json.write Json.indentedAscii (.record fields) ++ "\n" }

def misuse (message : String) : Outcome :=
  told [("stage", .text "cli"), ("code", .text "usage_error"), ("message", .text message)]

def failed (failure : Failure) : Outcome :=
  { status := 1, failure := some failure }

/-- The end by an error. Whether refused values are told of depends on the command. -/
def ofError (tellsValues : Bool) (error : PipelineError) : Outcome :=
  match error.diagnosis?, error.valueMessage? with
  | some diagnosis, _ => told diagnosis.record
  | none, some message => if tellsValues then misuse message else failed (.pipeline error)
  | none, none => failed (.pipeline error)

def ended (text : String) : String :=
  if text.endsWith "\n" then text else text ++ "\n"

end Outcome

def helpText : String :=
  "Usage: [OPTIONS] COMMAND [ARGS]...\n\nTurn Turtle ontologies of noun-verb commands into typer CLIs, and back.\n\nCommands: " ++ ", ".intercalate (commandNames.map (·.1)) ++ "\n"

variable {m : Type → Type} [Monad m]

abbrev Task (m : Type → Type) := ExceptT Outcome m

def attempt {α : Type} (tellsValues : Bool) (step : ExceptT PipelineError m α) : Task m α :=
  step.adapt (Outcome.ofError tellsValues)

def emit (host : Host m) (text : String) (output : Option String) : Task m Outcome := do
  match output with
  | none => return { output := Outcome.ended text }
  | some path =>
    match ← host.write path text with
    | some fault => throw (.failed (.write fault))
    | none => return { errors := "Wrote " ++ path ++ "\n" }

def generate (w : Workplace m) (a : GenerateArguments) : Task m Outcome := do
  let answer ← attempt false (w.generate {
    source := { path := some a.source }
    features := a.features
    name := a.name
    version := a.version })
  let outcome ← emit w.host answer.generated.text a.output
  if a.showsMetadata then
    let metadata := Json.write Json.indentedAscii (.record answer.metadata)
    return { outcome with errors := outcome.errors ++ metadata ++ "\n" }
  else return outcome

def queryText (w : Workplace m) (a : QueryArguments) : Task m String :=
  match a.query, a.file with
  | some query, _ => return query
  | none, some file => attempt false ((w.host.readFile file).adapt .source)
  | none, none => throw (.misuse "Provide a query argument or --file")

def shownResults (written : Value) : String :=
  match written with
  | .text s => Outcome.ended s
  | record => Json.write Json.indented record ++ "\n"

def query (w : Workplace m) (a : QueryArguments) : Task m Outcome := do
  let text ← queryText w a
  let o ← attempt false (w.readOntology { path := some a.source })
  if a.isValidated then
    let accepted : Except PipelineError ValidatedOntology := (o.validate none).mapError .validation
    let _ ← attempt false (liftM accepted)
  let answer ← attempt false (w.ask o { query := text, format := a.format, timeout := a.timeout })
  return { output := shownResults answer.written }

def validate (w : Workplace m) (a : ValidateArguments) : Task m Outcome := do
  let o ← attempt true (w.readOntology { path := some a.source } a.backend)
  let accepted : Except PipelineError ValidatedOntology := (o.validate none).mapError .validation
  let o ← attempt true (liftM accepted)
  return {
    output := Json.write Json.indentedAscii o.report.record ++ "\n"
    errors := o.report.summary ++ "\n" }

def findApplication (host : Host m) (reference : String) : Task m AppNode := do
  match Text.partitionAt ':' reference.toList with
  | (_, none) => throw (.misuse ("Expected module:attribute, got '" ++ reference ++ "'"))
  | (owner, some member) =>
    if owner.head? = some '.' then throw (.failed .relativeModule)
    if owner.isEmpty then throw (.misuse "Empty module name")
    match ← host.application (String.ofList owner) (String.ofList member) with
    | .ok node => return node
    | .error fault => throw (.misuse ("Cannot load '" ++ reference ++ "': " ++ fault.message))

def definitionToExport (w : Workplace m) (a : ExportArguments) : Task m Definition := do
  match a.definition, a.application with
  | some path, none =>
    let text ← attempt true ((w.host.readFile path).adapt .source)
    let read : Except PipelineError Definition := (Definition.ofText text).mapError .definition
    attempt true (liftM read)
  | none, some reference =>
    let node ← findApplication w.host reference
    let read : Except PipelineError Definition :=
      (Application.definition node none none).mapError .exporting
    attempt true (liftM read)
  | _, _ => throw (.misuse "Provide exactly one of a definition file or --app")

def documentFormat (name : Option String) : Except PipelineError (Option DocumentFormat) :=
  ((checkDocumentFormat (.optText name)).within (.field "format")).toExcept.mapError fun found =>
    .definition (.mismatches found)

def exportDefinition (w : Workplace m) (a : ExportArguments) : Task m Outcome := do
  let definition ← definitionToExport w a
  let format ← attempt true (liftM (documentFormat a.format))
  let document ← attempt true (w.exportDefinition {
    definition, format
    base := a.base
    label := a.label })
  emit w.host document.document a.output

def Invocation.run (w : Workplace m) : Invocation → Task m Outcome
  | .generate a => Console.generate w a
  | .query a => Console.query w a
  | .validate a => Console.validate w a
  | .export a => exportDefinition w a

/-- The place of work that the options before a command ask for. A file that they name has to be there,
and then the environment does not count. -/
def workplace (host : Host m) (preamble : Preamble) : Task m (Workplace m) := do
  match Configuration.nonempty preamble.configuration with
  | none => return ⟨host, host.configuration⟩
  | some path =>
    match ← host.entry path with
    | .absent => throw (.misuse ("Config file not found: " ++ path))
    | entry =>
      let read : Except PipelineError Configuration :=
        (Configuration.ofEntry entry).mapError .configuration
      let c ← attempt false (liftM read)
      return ⟨host, return c⟩

/-- Runs a command line. The options before a command are acted on before its own words are read. -/
def runTask (host : Host m) (words : List String) : Task m Outcome := do
  match readCommandLine words with
  | .error _ => throw { status := Outcome.usageStatus }
  | .ok .help => return { output := helpText }
  | .ok (.command preamble name rest) =>
    let w ← workplace host preamble
    match readInvocation name rest with
    | .error _ => throw { status := Outcome.usageStatus }
    | .ok none => return { output := helpText }
    | .ok (some invocation) => invocation.run w

def run (host : Host m) (words : List String) : m Outcome := do
  match ← (runTask host words).run with
  | .ok outcome => return outcome
  | .error outcome => return outcome

end CommandOntology.Console
