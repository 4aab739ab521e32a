import CommandOntology.Ontology.Report
import CommandOntology.Ontology.View

set_option autoImplicit false

namespace CommandOntology.Rule

open CommandOntology.View

def checkReferences (v : View) : List Finding :=
  referencePredicates.flatMap fun predicate =>
    (sortTriples (v.store.query ⟨none, some (.iri predicate), none⟩)).filterMap fun t =>
      if t.object.isResource && !v.isDeclared t.object then
        some
          { rule := .referential
            identifier := t.subject.text
            message := "<" ++ predicate ++ "> references undeclared subject " ++ t.object.lineForm
            details := [("predicate", .text predicate), ("target", .text t.object.text)] }
      else none

def checkPart (v : View) (command : Term) (predicate part : String) : List Finding :=
  match v.values command predicate with
  | [] =>
    [{ rule := .cardinality
       identifier := command.text
       message := "command has no " ++ part
       details := [("property", .text predicate)] }]
  | [target] =>
    if target.isResource && v.isDeclared target && (v.nameOf (some target)).isNone then
      [{ rule := .cardinality
         identifier := target.text
         message := part ++ " resource has no <" ++ Cnv.name ++ ">"
         details := [("property", .text Cnv.name), ("command", .text command.text)] }]
    else []
  | targets =>
    [{ rule := .cardinality
       identifier := command.text
       message := "command has " ++ toString targets.length ++ " " ++ part
         ++ "s, expected exactly one"
       details := [("property", .text predicate)] }]

def checkHandler (v : View) (command : Term) : List Finding :=
  if (v.values command Cnv.handler).isEmpty then
    [{ rule := .cardinality
       identifier := command.text
       message := "command has no handler binding"
       details := [("property", .text Cnv.handler)] }]
  else []

/-- The name of an argument resource: a literal that is not blank. -/
def argumentName? (v : View) (argument : Term) : Option String :=
  ((v.value? argument Cnv.name).bind lexical?).filter fun name =>
    !(Text.trim name.toList).isEmpty

/-- An argument has a name that no earlier argument of the command has. -/
def checkArgumentName (v : View) (command : Term) (seen : List String) (argument : Term) :
    List Finding :=
  match argumentName? v argument with
  | none =>
    [{ rule := .cardinality
       identifier := argument.text
       message := "argument has no name"
       details := [("property", .text Cnv.name), ("command", .text command.text)] }]
  | some name =>
    if name ∈ seen then
      [{ rule := .cardinality
         identifier := command.text
         message := "argument '" ++ name ++ "' is declared more than once"
         details := [("property", .text Cnv.name), ("argument", .text name)] }]
    else []

def checkValue {α : Type} (v : View) (argument : Term) (property kind : String)
    (read : Term → Option α) : List Finding :=
  match v.value? argument property with
  | none => []
  | some value =>
    if (read value).isSome then []
    else
      [{ rule := .cardinality
         identifier := argument.text
         message := "<" ++ property ++ "> must be " ++ kind ++ ", found " ++ value.lineForm
         details := [("property", .text property)] }]

/-- The arguments of a command are well described. `seen` are the names of the earlier ones. -/
def checkArguments (v : View) (command : Term) (seen : List String) : List Term → List Finding
  | [] => []
  | argument :: rest =>
    if !argument.isResource then
      { rule := .cardinality
        identifier := command.text
        message := "argument " ++ argument.lineForm ++ " must be an IRI or blank node"
        details := [("property", .text Cnv.hasArgument)] } :: checkArguments v command seen rest
    else if !v.isDeclared argument then checkArguments v command seen rest
    else
      checkArgumentName v command seen argument ++
        checkValue v argument Cnv.required "a boolean" boolean? ++
        checkValue v argument Cnv.position "an integer" integer? ++
        checkArguments v command ((argumentName? v argument).toList ++ seen) rest

/-- Every command has a noun, a verb and a handler, and its arguments are well described. -/
def checkCardinality (v : View) : List Finding :=
  v.commands.flatMap fun command =>
    checkPart v command Cnv.hasNoun "noun" ++ checkPart v command Cnv.hasVerb "verb" ++
      checkHandler v command ++ checkArguments v command [] (v.arguments command)

def keyedCommands (v : View) : List (CommandKey × String) :=
  v.commands.filterMap fun command =>
    match v.nounOf command, v.verbOf command with
    | some noun, some verb => some (⟨noun, verb⟩, command.text)
    | _, _ => none

def checkUnique (v : View) : List Finding :=
  let keyed := keyedCommands v
  ((distinct (keyed.map (·.1))).mergeSort CommandKey.le).filterMap fun key =>
    let commands := (keyed.filter (·.1 == key)).map (·.2)
    if 1 < commands.length then
      some
        { rule := .duplicateCommand
          identifier := key.text
          message := toString commands.length ++ " commands share noun '" ++ key.noun ++ "' and verb '"
            ++ key.verb ++ "'"
          details := [("noun", .text key.noun), ("verb", .text key.verb),
            ("commands", .texts (commands.mergeSort fun a b => decide (a ≤ b)))] }
    else none

def checkHelp (v : View) : List Finding :=
  (v.commands.filter fun command => (v.helpText command).isNone).map fun command =>
    { rule := .missingHelp
      identifier := command.text
      message := "command has no help text (cnv:help, rdfs:comment or rdfs:label)"
      details := [] }

def checkDatatypes (v : View) : List Finding :=
  (v.describedArguments.filter fun a => (v.value? a Cnv.datatype).isNone).map fun argument =>
    { rule := .defaultDatatype
      identifier := argument.text
      message := "argument declares no datatype; defaulting to 'string'"
      details := [] }

def checkTypeTags (knownTags : List String) (v : View) : List Finding :=
  v.describedArguments.filterMap fun argument =>
    (v.value? argument Cnv.datatype).bind fun datatype =>
      let tag := typeTag datatype
      if knownTags.contains tag then none
      else
        some
          { rule := .unknownTypeTag
            identifier := argument.text
            message := "unknown type tag '" ++ tag ++ "'"
            details := [("type_tag", .text tag)] }

def checkHandlerCount (v : View) : List Finding :=
  v.commands.filterMap fun command =>
    match (v.values command Cnv.handler).map Term.text with
    | primary :: second :: rest =>
      let handlers := primary :: second :: rest
      some
        { rule := .multipleHandlers
          identifier := command.text
          message := "command has " ++ toString handlers.length ++ " handler bindings; '" ++ primary
            ++ "' is primary"
          details := [("handlers", .texts handlers)] }
    | _ => none

def checkUsed (v : View) (classIri predicate kind : String) : List Finding :=
  ((v.instances classIri).filter fun resource =>
    (v.store.query ⟨none, some (.iri predicate), some resource⟩).isEmpty).map fun resource =>
    { rule := .unusedResource
      identifier := resource.text
      message := kind ++ " is not used by any command"
      details := [] }

def checkUnused (v : View) : List Finding :=
  checkUsed v Cnv.noun Cnv.hasNoun "noun" ++ checkUsed v Cnv.verb Cnv.hasVerb "verb"

def checkRequiredDefaults (v : View) : List Finding :=
  (v.describedArguments.filter fun a =>
    (v.value? a Cnv.required).bind boolean? == some true &&
      (v.value? a Cnv.default).isSome).map fun argument =>
    { rule := .requiredWithDefault
      identifier := argument.text
      message := "required argument also declares a default; the default is never used"
      details := [] }

def check (knownTags : List String) (v : View) : Rule → List Finding
  | referential => checkReferences v
  | cardinality => checkCardinality v
  | duplicateCommand => checkUnique v
  | missingHelp => checkHelp v
  | defaultDatatype => checkDatatypes v
  | unknownTypeTag => checkTypeTags knownTags v
  | multipleHandlers => checkHandlerCount v
  | unusedResource => checkUnused v
  | requiredWithDefault => checkRequiredDefaults v

end CommandOntology.Rule
