import CommandOntology.Configuration.Basic
import CommandOntology.Definition.Reader
import CommandOntology.Generation.Error
import CommandOntology.Ontology.Validation
import CommandOntology.Query.Results
import CommandOntology.Source.Loading

set_option autoImplicit false

namespace CommandOntology

inductive PipelineError
  | source (error : SourceError)
  | configuration (error : ConfigurationError)
  | document (error : Turtle.ParseError)
  /-- A relative reference is to be resolved, and the configured base is no text. -/
  | unusableBase
  | validation (error : ValidationError)
  | query (error : Query.QueryError)
  | unknownResultFormat (name : Value)
  | unwritableResult (error : Turtle.WriteError)
  | generation (error : Generation.GenerationError)
  | unknownFeature (name : String)
  | definition (error : DefinitionError)
  | exporting (error : ExportError)

namespace PipelineError

def rangeMessage? : RangeError → Option String
  | .value message => some message
  | .overflow => none

def diagnosis? : PipelineError → Option Diagnosis
  | source error => some error.diagnosis
  | document error => error.diagnosis.toOption
  | validation (.rejected report) => some report.diagnosis
  | query error => error.diagnosis.toOption
  | generation error => error.diagnosis?
  | exporting error => error.diagnosis?
  | _ => none

def documentMessage? (error : Turtle.ParseError) : Option String :=
  match error, error.diagnosis with
  | .frozenNamespaces, _ => none
  | _, .error range => rangeMessage? range
  | _, .ok _ => none

def definitionMessage? : DefinitionError → Option String
  | .json error => some error.message
  | .yaml (.range range) => rangeMessage? range
  | .yaml _ => none
  | .mismatches found => some (Mismatch.summary found)

def valueMessage? : PipelineError → Option String
  | configuration error => error.valueMessage?
  | document error => documentMessage? error
  | validation (.duplicate key) => some (CommandIndex.duplicateMessage key)
  | query error =>
    match error.diagnosis with
    | .error range => rangeMessage? range
    | .ok _ => none
  | unknownResultFormat name => some (name.shown ++ " is not a valid ResultFormat")
  | unknownFeature name => some (Features.unknownMessage name)
  | definition error => definitionMessage? error
  | _ => none

end PipelineError

end CommandOntology
