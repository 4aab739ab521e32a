import CommandOntology.Console.Words
import CommandOntology.Host.Basic
import CommandOntology.Number.Reading
import CommandOntology.Query.Results

set_option autoImplicit false

namespace CommandOntology.Console

inductive CommandName
  | generate | query | validate | export
  deriving DecidableEq, Repr

def commandNames : List (String × CommandName) :=
  [("generate", .generate), ("query", .query), ("validate", .validate), ("export", .export)]

structure Preamble where
  isVerbose : Bool := false
  configuration : Option String := none
  deriving DecidableEq, Repr

structure GenerateArguments where
  source : String
  output : Option String
  name : Option String
  version : Option String
  features : List String
  showsMetadata : Bool
  deriving DecidableEq, Repr

structure QueryArguments where
  source : String
  query : Option String
  file : Option String
  format : Option Query.ResultFormat
  timeout : Option Binary64
  isValidated : Bool
  deriving DecidableEq, Repr

structure ValidateArguments where
  source : String
  backend : Option String
  deriving DecidableEq, Repr

structure ExportArguments where
  definition : Option String
  application : Option String
  output : Option String
  base : Option String
  label : Option String
  format : Option String
  deriving DecidableEq, Repr

inductive Invocation
  | generate (arguments : GenerateArguments)
  | query (arguments : QueryArguments)
  | validate (arguments : ValidateArguments)
  | export (arguments : ExportArguments)
  deriving DecidableEq, Repr

def helpFlag : OptionSpec :=
  flag "help" ["--help"]

def preambleOptions : List OptionSpec :=
  [flag "verbose" ["--verbose", "-v"], valued "config" ["--config"], helpFlag]

def CommandName.options : CommandName → List OptionSpec
  | .generate =>
    [valued "output" ["--output", "-o"], valued "name" ["--name"], valued "version" ["--version"],
      valued "feature" ["--feature", "-f"], flag "metadata" ["--metadata"], helpFlag]
  | .query =>
    [valued "file" ["--file"], valued "format" ["--format"], valued "timeout" ["--timeout"],
      flag "validated" ["--validated"], helpFlag]
  | .validate => [valued "backend" ["--backend"], helpFlag]
  | .export =>
    [valued "app" ["--app"], valued "output" ["--output", "-o"], valued "base-iri" ["--base-iri"],
      valued "prefix" ["--prefix"], valued "format" ["--format"], helpFlag]

inductive CommandLine
  | help
  | command (preamble : Preamble) (name : CommandName) (words : List String)
  deriving DecidableEq, Repr

def readCommandLine (words : List String) : Except UsageError CommandLine := do
  let w ← readWords preambleOptions false words
  if w.has "help" then return .help
  match w.arguments with
  | [] => throw .missingCommand
  | name :: rest =>
    match findField commandNames name with
    | some command => return .command ⟨w.has "verbose", w.value? "config"⟩ command rest
    | none => throw (.unknownCommand name)

def readValue {α : Type} (w : Words) (key : String) (read : String → Option α) :
    Except UsageError (Option α) :=
  match w.value? key with
  | none => .ok none
  | some value =>
    match read value with
    | some a => .ok (some a)
    | none => .error (.unsuitableValue key value)

def requireOne (name : String) : List String → Except UsageError String
  | [] => .error (.missingArgument name)
  | [word] => .ok word
  | _ :: extra => .error (.extraArguments extra)

def CommandName.interpret (name : CommandName) (w : Words) : Except UsageError Invocation := do
  match name with
  | .generate =>
    let source ← requireOne "source" w.arguments
    return .generate {
      source := Path.normal source
      output := (w.value? "output").map Path.normal
      name := w.value? "name"
      version := w.value? "version"
      features := w.values "feature"
      showsMetadata := w.has "metadata" }
  | .query =>
    let source ← requireOne "source" (w.arguments.take 1)
    if 2 < w.arguments.length then throw (.extraArguments (w.arguments.drop 2))
    let format ← readValue w "format" fun value =>
      Query.ResultFormat.all.find? fun format => format.name == value
    let timeout ← readValue w "timeout" fun value => (Reading.float value).toOption
    return .query {
      source := Path.normal source
      query := w.arguments[1]?
      file := (w.value? "file").map Path.normal
      format, timeout
      isValidated := w.has "validated" }
  | .validate =>
    let source ← requireOne "source" w.arguments
    return .validate { source := Path.normal source, backend := w.value? "backend" }
  | .export =>
    if 1 < w.arguments.length then throw (.extraArguments (w.arguments.drop 1))
    return .export {
      definition := w.arguments.head?.map Path.normal
      application := w.value? "app"
      output := (w.value? "output").map Path.normal
      base := w.value? "base-iri"
      label := w.value? "prefix"
      format := w.value? "format" }

def readInvocation (name : CommandName) (words : List String) :
    Except UsageError (Option Invocation) := do
  let w ← readWords name.options true words
  if w.has "help" then return none
  return some (← name.interpret w)

end CommandOntology.Console
