set_option autoImplicit false

namespace CommandOntology

namespace Rdf

def namespaceIri : String := "http://www.w3.org/1999/02/22-rdf-syntax-ns#"
def type : String := "http://www.w3.org/1999/02/22-rdf-syntax-ns#type"
def first : String := "http://www.w3.org/1999/02/22-rdf-syntax-ns#first"
def rest : String := "http://www.w3.org/1999/02/22-rdf-syntax-ns#rest"
def nil : String := "http://www.w3.org/1999/02/22-rdf-syntax-ns#nil"

end Rdf

namespace Rdfs

def namespaceIri : String := "http://www.w3.org/2000/01/rdf-schema#"
def label : String := "http://www.w3.org/2000/01/rdf-schema#label"
def comment : String := "http://www.w3.org/2000/01/rdf-schema#comment"

end Rdfs

namespace Xsd

def namespaceIri : String := "http://www.w3.org/2001/XMLSchema#"
def string : String := "http://www.w3.org/2001/XMLSchema#string"
def boolean : String := "http://www.w3.org/2001/XMLSchema#boolean"
def integer : String := "http://www.w3.org/2001/XMLSchema#integer"
def decimal : String := "http://www.w3.org/2001/XMLSchema#decimal"
def double : String := "http://www.w3.org/2001/XMLSchema#double"

end Xsd

namespace Cnv

def namespaceIri : String := "https://cnv.dev/ontology#"
def label : String := "cnv"

-- Classes

def command : String := "https://cnv.dev/ontology#Command"
def noun : String := "https://cnv.dev/ontology#Noun"
def verb : String := "https://cnv.dev/ontology#Verb"
def argument : String := "https://cnv.dev/ontology#Argument"

-- Properties of commands

def hasNoun : String := "https://cnv.dev/ontology#hasNoun"
def hasVerb : String := "https://cnv.dev/ontology#hasVerb"
def hasArgument : String := "https://cnv.dev/ontology#hasArgument"
def handler : String := "https://cnv.dev/ontology#handler"
def capability : String := "https://cnv.dev/ontology#capability"
def help : String := "https://cnv.dev/ontology#help"

-- Names, and properties of arguments

def name : String := "https://cnv.dev/ontology#name"
def datatype : String := "https://cnv.dev/ontology#datatype"
def required : String := "https://cnv.dev/ontology#required"
def default : String := "https://cnv.dev/ontology#default"
def validator : String := "https://cnv.dev/ontology#validator"
def position : String := "https://cnv.dev/ontology#position"

end Cnv

def functionalPredicates : List String :=
  [Cnv.name, Cnv.hasNoun, Cnv.hasVerb, Cnv.datatype, Cnv.required, Cnv.default, Cnv.position]

/-- Predicates whose resources have to be described in the same document. -/
def referencePredicates : List String :=
  [Cnv.hasNoun, Cnv.hasVerb, Cnv.hasArgument]

def helpPredicates : List String :=
  [Cnv.help, Rdfs.comment, Rdfs.label]

def standardNamespaces : List (String × String) :=
  [("rdf", Rdf.namespaceIri), ("rdfs", Rdfs.namespaceIri), ("xsd", Xsd.namespaceIri),
    (Cnv.label, Cnv.namespaceIri)]

end CommandOntology
