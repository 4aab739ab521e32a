import CommandOntology.Export.Error
import CommandOntology.Export.Statements
import CommandOntology.Rdf.Lines
import CommandOntology.Text.Case
import CommandOntology.Text.CharClass

set_option autoImplicit false

namespace CommandOntology

inductive DocumentFormat
  | turtle | lines
  deriving DecidableEq, Repr

namespace DocumentFormat

def name : DocumentFormat → String
  | turtle => "turtle"
  | lines => "nt"

def names : List (String × DocumentFormat) :=
  [("turtle", turtle), ("ttl", turtle), ("nt", lines), ("ntriples", lines), ("n-triples", lines)]

/-- The format that a name means. Case and white space around it do not matter. -/
def ofName (text : String) : Except ExportError DocumentFormat :=
  match findField names (Text.lower (Text.strip text)) with
  | some format => .ok format
  | none => .error (.unsupportedFormat text)

end DocumentFormat

def documentPrefixes (namespaces : List (String × String)) : Turtle.PrefixTable :=
  (Turtle.PrefixTable.empty.bindAll Turtle.coreNamespaces).bindAll
    (namespaces.mergeSort fun a b => decide (a.1 ≤ b.1))

def writeTriples (namespaces : List (String × String)) (triples : List Triple)
    (format : DocumentFormat) : Except ExportError String := do
  (checkTags (triples.flatMap Triple.terms)).mapError fun error => .unwritable (.invalidTag error)
  match format with
  | .turtle => (Turtle.write (documentPrefixes namespaces) (.ofList triples)).mapError .unwritable
  | .lines => (Lines.write (.ofList triples)).mapError fun iri => .unwritable (.invalidIri iri)

/-- How a definition is exported. An option that is no text is found out when it is needed. -/
structure ExportOptions where
  base : Value := .text "https://example.org/cli#"
  label : Value := .text "cli"
  format : Value := .text "turtle"

structure ExportedDocument where
  document : String
  tripleCount : Nat
  format : DocumentFormat
  namespaces : List (String × String)

def exportText : Value → Except ExportError String
  | .text s => .ok s
  | _ => .error .notText

def endsOpen (base : String) : Bool :=
  let last := base.toList.getLast?
  last == some '#' || last == some '/'

def Definition.export (d : Definition) (options : ExportOptions) :
    Except ExportError ExportedDocument := do
  let format ← DocumentFormat.ofName (← exportText options.format)
  let base ← exportText options.base
  if !endsOpen base then throw (.baseWithoutEnd base)
  let label ← exportText options.label
  if !Text.isIdentifier label.toList then throw (.invalidPrefix label)
  let triples ← Export.statements base d
  let namespaces := putField standardNamespaces label base
  let document ← writeTriples namespaces triples format
  return ⟨document, triples.length, format,
    namespaces.mergeSort fun a b => decide (a.1 ≤ b.1)⟩

end CommandOntology
