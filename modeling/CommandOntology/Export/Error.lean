import CommandOntology.Data.Diagnosis
import CommandOntology.Number.Reading
import CommandOntology.Turtle.Writer

set_option autoImplicit false

namespace CommandOntology

inductive ExportError
  | unsupportedFormat (name : String)
  | baseWithoutEnd (base : String)
  | invalidPrefix (label : String)
  | duplicateCommand (noun verb : String)
  | noHandler (noun verb : String)
  | duplicateArgument (noun verb argument : String)
  | longPosition (error : NumberError)
  | notApplication (type : String)
  | noGroups (name : Option String)
  | unwritable (error : Turtle.WriteError)
  | notText
  deriving DecidableEq, Repr

namespace ExportError

def report (identifier : Option String) (message : String) (details : List (String × Value)) :
    Option Diagnosis :=
  some { stage := "export", code := "export_error", identifier, message, details }

/-- The report of an error. An IRI or a number that cannot be written is not reported by the stage. -/
def diagnosis? : ExportError → Option Diagnosis
  | unsupportedFormat name =>
    report (some name) ("Unsupported document format '" ++ name ++ "' (supported: turtle, nt)")
      [("format", .text name), ("supported", .texts ["nt", "turtle"])]
  | baseWithoutEnd base =>
    report (some base) ("Base IRI must end with '#' or '/': " ++ base) [("base_iri", .text base)]
  | invalidPrefix label =>
    report (some label) ("Invalid namespace prefix '" ++ label ++ "'") [("prefix", .text label)]
  | duplicateCommand noun verb =>
    report (some (noun ++ " " ++ verb)) ("Duplicate command '" ++ noun ++ " " ++ verb ++ "'")
      [("noun", .text noun), ("verb", .text verb)]
  | noHandler noun verb =>
    report (some (noun ++ " " ++ verb))
      ("Command '" ++ noun ++ " " ++ verb ++ "' has no handler binding")
      [("noun", .text noun), ("verb", .text verb)]
  | duplicateArgument noun verb argument =>
    report (some (noun ++ " " ++ verb))
      ("Command '" ++ noun ++ " " ++ verb ++ "' declares argument '" ++ argument ++ "' twice")
      [("argument", .text argument)]
  | longPosition _ => none
  | notApplication type =>
    report none ("Expected a typer.Typer or click command, got " ++ type) [("type", .text type)]
  | noGroups name =>
    report name "Application has no command groups to export" [("command", .optText name)]
  | unwritable _ => none
  | notText => none

end ExportError

end CommandOntology
