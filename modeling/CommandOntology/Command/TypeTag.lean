import CommandOntology.Text.Case
import CommandOntology.Text.Layout
import CommandOntology.Rdf.Vocabulary

set_option autoImplicit false

namespace CommandOntology.TypeTag

def known : List String :=
  ["string", "str", "text", "integer", "int", "float", "decimal", "double", "number", "boolean", "bool",
    "path", "file"]

def datatypeTags : List (String × String) :=
  [("string", "string"), ("normalizedString", "string"), ("token", "string"), ("anyURI", "string"),
    ("integer", "integer"), ("int", "integer"), ("long", "integer"), ("short", "integer"),
    ("nonNegativeInteger", "integer"), ("positiveInteger", "integer"), ("decimal", "float"),
    ("double", "float"), ("float", "float"), ("boolean", "boolean")]

/-- The tag of a datatype by its local name; `raw` if it has none. -/
def ofLocalName (raw : String) (name : List Char) : String :=
  ((datatypeTags.find? fun tag => tag.1 == String.ofList name).map (·.2)).getD raw

def normalize (raw : String) : String :=
  match Text.dropBeginning? Xsd.namespaceIri.toList raw.toList with
  | some name => ofLocalName raw name
  | none =>
    match Text.dropBeginning? "xsd:".toList raw.toList with
    | some name => ofLocalName raw name
    | none => Text.lower (Text.strip raw)

end CommandOntology.TypeTag
