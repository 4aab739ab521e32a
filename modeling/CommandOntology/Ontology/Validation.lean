import CommandOntology.Command.Index
import CommandOntology.Ontology.Rules
import CommandOntology.Turtle.Document

set_option autoImplicit false

namespace CommandOntology

structure Validator where
  knownTags : List String := TypeTag.known
  deriving DecidableEq, Repr

structure Ontology where
  store : Store
  namespaces : Namespaces
  base : Option String
  validator : Option Validator

structure ValidatedOntology where
  index : CommandIndex
  report : Report
  store : Store
  namespaces : Namespaces
  base : Option String

/-- Why an ontology is not validated. The rules see to it that nothing but `rejected` occurs when there
is a validator. -/
inductive ValidationError
  | rejected (report : Report)
  | unnamed (resource : Term)
  | duplicate (key : CommandKey)
  | noValidator

def ValidationError.noValidatorMessage : String :=
  "Ontology has no validator; build it through the composition root"

namespace Ontology

def ofDocument (backend : Backend) (validator : Option Validator) (document : Turtle.Document) :
    Ontology :=
  ⟨.ofList backend document.triples, document.namespaces, document.base, validator⟩

def tripleCount (o : Ontology) : Nat :=
  o.store.size

def text (o : Ontology) : String :=
  "Ontology(triples=" ++ toString o.tripleCount ++ ", namespaces=" ++ toString o.namespaces.size ++ ")"

end Ontology

def requireName (resource : Term) : Option String → Except ValidationError String
  | some name => .ok name
  | none => .error (.unnamed resource)

def sortTexts (texts : List String) : List String :=
  texts.mergeSort fun a b => decide (a ≤ b)

namespace View

def buildArgument (v : View) (resource : Term) : Except ValidationError Argument := do
  let name ← requireName resource ((v.value? resource Cnv.name).bind lexical?)
  return {
    name
    typeTag := ((v.value? resource Cnv.datatype).map typeTag).getD "string"
    required := (v.value? resource Cnv.required).bind boolean? == some true
    default := (v.value? resource Cnv.default).map Term.text
    validators := sortTexts ((v.values resource Cnv.validator).map Term.text)
    help := v.helpText resource
    position := (v.value? resource Cnv.position).bind integer? }

def buildCommand (v : View) (resource : Term) : Except ValidationError Command := do
  let noun ← requireName resource (v.nounOf resource)
  let verb ← requireName resource (v.verbOf resource)
  let arguments ← (v.arguments resource).mapM v.buildArgument
  let handlers := sortTexts ((v.values resource Cnv.handler).map Term.text)
  return {
    noun
    verb
    arguments := Argument.sort arguments
    capabilities := sortTexts ((v.values resource Cnv.capability).map Term.text)
    help := v.helpText resource
    handler := handlers.head?
    handlers
    iri := some resource.text }

def buildIndex (v : View) : Except ValidationError CommandIndex := do
  let commands ← v.commands.mapM v.buildCommand
  (CommandIndex.ofList commands).mapError .duplicate

end View

namespace Validator

def report (validator : Validator) (v : View) : Report :=
  ⟨Rule.all.flatMap (Rule.check validator.knownTags v), v.commands.length⟩

def validate (validator : Validator) (o : Ontology) : Except ValidationError ValidatedOntology :=
  let v := View.ofStore o.store
  let report := validator.report v
  if report.isValid then
    v.buildIndex.map fun index => ⟨index, report, o.store, o.namespaces, o.base⟩
  else .error (.rejected report)

end Validator

def Ontology.validate (o : Ontology) (validator : Option Validator) :
    Except ValidationError ValidatedOntology :=
  match validator <|> o.validator with
  | some validator => validator.validate o
  | none => .error .noValidator

def ValidatedOntology.tripleCount (o : ValidatedOntology) : Nat :=
  o.store.size

end CommandOntology
