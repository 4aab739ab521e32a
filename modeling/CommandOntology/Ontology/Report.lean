import CommandOntology.Data.Diagnosis

set_option autoImplicit false

namespace CommandOntology

/-- The rules that an ontology is checked against, in the order of the checks. -/
inductive Rule
  | referential
  | cardinality
  | duplicateCommand
  | missingHelp
  | defaultDatatype
  | unknownTypeTag
  | multipleHandlers
  | unusedResource
  | requiredWithDefault
  deriving DecidableEq, Repr

namespace Rule

def all : List Rule :=
  [referential, cardinality, duplicateCommand, missingHelp, defaultDatatype, unknownTypeTag,
    multipleHandlers, unusedResource, requiredWithDefault]

def name : Rule → String
  | referential => "referential"
  | cardinality => "cardinality"
  | duplicateCommand => "duplicate_command"
  | missingHelp => "missing_help"
  | defaultDatatype => "default_datatype"
  | unknownTypeTag => "unknown_type_tag"
  | multipleHandlers => "multiple_handlers"
  | unusedResource => "unused_resource"
  | requiredWithDefault => "required_with_default"

def isError : Rule → Bool
  | referential | cardinality | duplicateCommand => true
  | _ => false

end Rule

structure Finding where
  rule : Rule
  identifier : String
  message : String
  details : List (String × Value)

namespace Finding

def isError (f : Finding) : Bool :=
  f.rule.isError

def record (f : Finding) : Value :=
  .record [("rule", .text f.rule.name),
    ("severity", .text (if f.isError then "error" else "warning")),
    ("identifier", .text f.identifier), ("message", .text f.message), ("details", .record f.details)]

end Finding

structure Report where
  findings : List Finding
  commandCount : Nat

namespace Report

def errors (r : Report) : List Finding :=
  r.findings.filter (·.isError)

def warnings (r : Report) : List Finding :=
  r.findings.filter (!·.isError)

def isValid (r : Report) : Bool :=
  r.errors.isEmpty

def count (r : Report) (rule : Rule) : Nat :=
  r.findings.countP (·.rule == rule)

def summary (r : Report) : String :=
  (if r.isValid then "valid" else "invalid") ++ ": " ++ toString r.errors.length ++ " error(s), "
    ++ toString r.warnings.length ++ " warning(s), " ++ toString r.commandCount ++ " command(s)"

def fields (r : Report) : List (String × Value) :=
  [("is_valid", .bool r.isValid), ("command_count", .nat r.commandCount),
    ("error_count", .nat r.errors.length), ("warning_count", .nat r.warnings.length),
    ("errors", .list (r.errors.map Finding.record)),
    ("warnings", .list (r.warnings.map Finding.record))]

def record (r : Report) : Value :=
  .record r.fields

def diagnosis (r : Report) : Diagnosis where
  stage := "validate"
  code := "validation_failed"
  identifier := r.errors.head?.map (·.identifier)
  message := "ontology validation failed with " ++ toString r.errors.length ++ " error(s)" ++
    match r.errors with
    | [] => ""
    | first :: _ => "; first: " ++ first.message
  details := r.fields

end Report

end CommandOntology
