import CommandOntology.Export.Document
import CommandOntology.Generation.Generator
import CommandOntology.Ontology.Validation
import CommandOntology.Query.Execution

set_option autoImplicit false

/-!
# Sessions

Work with one ontology: it is asked, validated, turned into a module, and exported and read again.
Validation takes it to its second state, in which its commands are known; an ontology that is not
accepted stays as it is.
-/

namespace CommandOntology

inductive OntologyState
  | parsed (o : Ontology)
  | validated (o : ValidatedOntology)

namespace OntologyState

def store : OntologyState → Store
  | parsed o => o.store
  | validated o => o.store

def namespaces : OntologyState → Namespaces
  | parsed o => o.namespaces
  | validated o => o.namespaces

def base : OntologyState → Option String
  | parsed o => o.base
  | validated o => o.base

def isValidated : OntologyState → Bool
  | parsed _ => false
  | validated _ => true

end OntologyState

inductive SessionError
  | notValidated
  | alreadyValidated
  | document (error : Turtle.ParseError)
  | validation (error : ValidationError)
  | generation (error : Generation.GenerationError)
  | export (error : ExportError)
  | missingCommand (key : CommandKey)

/-- An ontology in one of its states, with the way in which documents are read. -/
structure Session where
  options : Turtle.ParserOptions
  backend : Backend
  validator : Validator
  current : OntologyState

namespace Session

def start (options : Turtle.ParserOptions) (backend : Backend) (validator : Validator)
    (hasValidator : Bool) (text : String) : Except Turtle.ParseError Session := do
  let document ← Turtle.parse options text
  let own := if hasValidator then some validator else none
  return ⟨options, backend, validator, .parsed (.ofDocument backend own document)⟩

def requireValidated (s : Session) : Except SessionError ValidatedOntology :=
  match s.current with
  | .validated o => .ok o
  | .parsed _ => .error .notValidated

def validate (s : Session) (validator : Option Validator) :
    Except SessionError (ValidatedOntology × Session) :=
  match s.current with
  | .validated _ => .error .alreadyValidated
  | .parsed o => do
    let o ← (o.validate validator).mapError .validation
    return (o, { s with current := .validated o })

def lookup (s : Session) (key : CommandKey) : Except SessionError Command := do
  match (← s.requireValidated).index.get? key with
  | some command => return command
  | none => throw (.missingCommand key)

def generate (s : Session) (generator : Generator) (features : Features) :
    Except SessionError GeneratedModule := do
  (generator.generate features (← s.requireValidated).index).mapError .generation

def exportDocument (s : Session) (name : String) (options : ExportOptions) :
    Except SessionError ExportedDocument := do
  let definition := Definition.ofIndex (← s.requireValidated).index name
  (definition.export options).mapError .export

def read (s : Session) (text : String) : Except SessionError ValidatedOntology := do
  let document ← (Turtle.parse s.options text).mapError .document
  ((Ontology.ofDocument s.backend (some s.validator) document).validate none).mapError .validation

/-- Exports the commands and reads the document again. The ontology that it holds becomes the current
one; told is also whether it has the same commands. -/
def reload (s : Session) (name : String) (options : ExportOptions) :
    Except SessionError ((Bool × ValidatedOntology) × Session) := do
  let before ← s.requireValidated
  let document ← s.exportDocument name options
  let after ← s.read document.document
  return ((after.index.same before.index, after), { s with current := .validated after })

end Session

end CommandOntology
