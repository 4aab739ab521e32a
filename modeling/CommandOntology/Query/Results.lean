import CommandOntology.Data.Diagnosis
import CommandOntology.Json.Writer
import CommandOntology.Query.Execution
import CommandOntology.Rdf.Graph
import CommandOntology.Rdf.LiteralValue
import CommandOntology.Text.Case
import CommandOntology.Text.Layout
import CommandOntology.Turtle.Writer

set_option autoImplicit false

namespace CommandOntology.Query.Results

/-- A field with characters that separate fields or lines is written between quotes, and quotes in it
twice. -/
def csvField (field : String) : String :=
  if field.toList.any ",\"\r\n".toList.contains then
    String.ofList ('"' :: Text.replaceChar '"' ['"', '"'] field.toList ++ ['"'])
  else field

def csvLine (fields : List String) : String :=
  (if fields = [""] then "\"\"" else ",".intercalate (fields.map csvField)) ++ "\r\n"

def csvTerm : Option Term → String
  | none => ""
  | some t => t.text

def toCsv (r : Results) : String :=
  let row (bound : Row) : String := csvLine (r.varNames.map fun name => csvTerm (findField bound name))
  csvLine r.varNames ++ String.join (r.rows.map row)

def termRecord : Term → Value
  | .iri value => .record [("type", .text "uri"), ("value", .text value)]
  | .blank label => .record [("type", .text "bnode"), ("value", .text label)]
  | .literal lexical datatype language =>
    let extra :=
      match language.filter (· ≠ ""), datatype.filter (· ≠ "") with
      | some tag, _ => [("xml:lang", Value.text tag)]
      | none, some datatype => [("datatype", .text datatype)]
      | none, none => []
    .record ([("type", .text "literal"), ("value", .text lexical)] ++ extra)

def record (r : Results) : Value :=
  let row (bound : Row) : Value := .record (bound.map fun (name, t) => (name, termRecord t))
  .record [("head", .record [("vars", .texts r.varNames)]),
    ("results", .record [("bindings", .list (r.rows.map row))])]

def toJson (r : Results) : String :=
  Json.write Json.indented r.record

open CommandOntology.Text

def xmlContent (text : List Char) : List Char :=
  text.flatMap fun c =>
    if c = '&' then "&amp;".toList
    else if c = '<' then "&lt;".toList
    else if c = '>' then "&gt;".toList
    else [c]

/-- The value of an attribute with its quotes, single ones if it holds double ones alone. -/
def xmlAttributeValue (text : String) : List Char :=
  let content := (xmlContent text.toList).flatMap fun c =>
    if c = '\n' then "&#10;".toList
    else if c = '\r' then "&#13;".toList
    else if c = '\t' then "&#9;".toList
    else [c]
  if content.contains '"' then
    if content.contains '\'' then '"' :: replaceChar '"' "&quot;".toList content ++ ['"']
    else '\'' :: content ++ ['\'']
  else '"' :: content ++ ['"']

def xmlElement (name : String) (attributes : List (String × String)) (content : String) : String :=
  let written (a : String × String) : String :=
    " " ++ a.1 ++ "=" ++ String.ofList (xmlAttributeValue a.2)
  "<" ++ name ++ String.join (attributes.map written) ++ ">" ++ content ++ "</" ++ name ++ ">"

/-- A term as an element. A literal that counts as false is left empty. -/
def xmlTerm (t : Term) : String :=
  let content (text : String) : String :=
    if t.countsAsTrue then String.ofList (xmlContent text.toList) else ""
  match t with
  | .iri value => xmlElement "uri" [] (content value)
  | .blank label => xmlElement "bnode" [] (content label)
  | .literal lexical datatype language =>
    let attributes :=
      match language.filter (· ≠ ""), datatype.filter (· ≠ "") with
      | some tag, _ => [("xml:lang", tag)]
      | none, some datatype => [("datatype", datatype)]
      | none, none => []
    xmlElement "literal" attributes (content lexical)

def toXml (r : Results) : String :=
  let header := r.varNames.map fun name => xmlElement "variable" [("name", name)] ""
  let binding (b : String × Term) : String := xmlElement "binding" [("name", b.1)] (xmlTerm b.2.node)
  let row (bound : Row) : String := xmlElement "result" [] (String.join (bound.map binding))
  "<?xml version=\"1.0\" encoding=\"utf-8\"?>\n"
    ++ xmlElement "sparql" [("xmlns", "http://www.w3.org/2005/sparql-results#"),
      ("xmlns:xml", "http://www.w3.org/XML/1998/namespace")]
      (xmlElement "head" [] (String.join header)
        ++ xmlElement "results" [] (String.join (r.rows.map row)))

end CommandOntology.Query.Results

namespace CommandOntology.Query

namespace ResultSet

def namespaceIri : String := "http://www.w3.org/2001/sw/DataAccess/tests/result-set#"

def iri (name : String) : Term :=
  .iri (namespaceIri ++ name)

end ResultSet

namespace Results

def describeSolution (names : List String) (root : Term) (number : Nat) (row : Row) : List Triple :=
  let label := "solution" ++ toString number
  let solution := Term.blank label
  let binding (name : String) : List Triple :=
    match findField row name with
    | none => []
    | some value =>
      let node := Term.blank (label ++ "_" ++ name)
      [⟨solution, ResultSet.iri "binding", node⟩,
        ⟨node, ResultSet.iri "variable", .literal name none none⟩,
        ⟨node, ResultSet.iri "value", value⟩]
  [⟨root, ResultSet.iri "solution", solution⟩,
    ⟨solution, ResultSet.iri "index", .literal (toString number) (some Xsd.integer) none⟩] ++
    names.flatMap binding

def describeSolutions (names : List String) (root : Term) (number : Nat) : List Row → List Triple
  | [] => []
  | row :: rest =>
    describeSolution names root number row ++ describeSolutions names root (number + 1) rest

def description (r : Results) : List Triple :=
  let root := Term.blank "resultset"
  [⟨root, .iri Rdf.type, ResultSet.iri "ResultSet"⟩] ++
    r.varNames.map (fun name => ⟨root, ResultSet.iri "resultVariable", .literal name none none⟩) ++
    describeSolutions r.varNames root 1 r.rows

def prefixes : Turtle.PrefixTable :=
  (Turtle.PrefixTable.empty.bindAll (Turtle.commonNamespaces ++ Turtle.coreNamespaces)).bind "rs"
    ResultSet.namespaceIri

def toTurtle (r : Results) : Except Turtle.WriteError String := do
  (checkTags (r.description.flatMap Triple.terms)).mapError .invalidTag
  Turtle.write prefixes (.ofList r.description)

end Results

inductive ResultFormat
  | json | xml | csv | turtle
  deriving DecidableEq, Repr

namespace ResultFormat

def all : List ResultFormat := [json, xml, csv, turtle]

def name : ResultFormat → String
  | json => "json"
  | xml => "xml"
  | csv => "csv"
  | turtle => "turtle"

/-- The format that a name means. Case and white space around it do not matter. -/
def ofName? (text : String) : Option ResultFormat :=
  let word := Text.lower (Text.strip text)
  if word = "ttl" then some turtle else all.find? fun format => format.name == word

end ResultFormat

inductive ResultError
  | unsupportedFormat (name : String)
  | unwritable (error : Turtle.WriteError)
  deriving DecidableEq, Repr

def unsupportedFormatDiagnosis (name : String) : Diagnosis :=
  let supported := ResultFormat.all.map (·.name)
  { stage := "query"
    code := "query_error"
    identifier := some name
    message := "Unsupported result format '" ++ name ++ "' (supported: "
      ++ ", ".intercalate supported ++ ")"
    details := [("format", .text name), ("supported", .texts supported)] }

def Results.terms (r : Results) : List Term :=
  r.rows.flatMap fun row => row.map (·.2)

/-- A result in a format. Only JSON takes language tags as they are. -/
def Results.inFormat (r : Results) : ResultFormat → Except Turtle.WriteError String
  | .json => .ok r.toJson
  | .xml => ((checkTags r.terms).map fun _ => r.toXml).mapError .invalidTag
  | .csv => ((checkTags r.terms).map fun _ => r.toCsv).mapError .invalidTag
  | .turtle => r.toTurtle

def Results.write (r : Results) (format : String) : Except ResultError String :=
  match ResultFormat.ofName? format with
  | none => .error (.unsupportedFormat format)
  | some format => (r.inFormat format).mapError .unwritable

end CommandOntology.Query
