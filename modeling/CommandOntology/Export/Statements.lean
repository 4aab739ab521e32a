import CommandOntology.Data.Distinct
import CommandOntology.Definition.Basic
import CommandOntology.Export.Error
import CommandOntology.Iri.Percent

set_option autoImplicit false

namespace CommandOntology.Export

def ordered (texts : List String) : List String :=
  (distinct texts).mergeSort fun a b => decide (a ≤ b)

def helpStatements (subject : Term) (help : Option String) : List Triple :=
  match help.filter (· ≠ "") with
  | some text => [⟨subject, .iri Cnv.help, .plain text⟩]
  | none => []

def namedStatements (subject : Term) (classIri name : String) : List Triple :=
  [⟨subject, .iri Rdf.type, .iri classIri⟩, ⟨subject, .iri Cnv.name, .plain name⟩]

def positionStatements (subject : Term) : Option Int → Except ExportError (List Triple)
  | none => .ok []
  | some n => do
    let text ← (integerText n).mapError .longPosition
    return [⟨subject, .iri Cnv.position, .typed text Xsd.integer⟩]

def argumentStatements (subject : Term) (a : Argument) : Except ExportError (List Triple) := do
  let position ← positionStatements subject a.position
  return namedStatements subject Cnv.argument a.name ++
    [⟨subject, .iri Cnv.datatype, .plain a.typeTag⟩,
      ⟨subject, .iri Cnv.required, .typed (if a.required then "true" else "false") Xsd.boolean⟩] ++
    a.default.toList.map (fun text => ⟨subject, .iri Cnv.default, .plain text⟩) ++ position ++
    (ordered a.validators).map (fun tag => ⟨subject, .iri Cnv.validator, .plain tag⟩) ++
    helpStatements subject a.help

def nounIri (base noun : String) : Term :=
  .iri (base ++ "noun/" ++ Iri.encode noun)

def verbIri (base verb : String) : Term :=
  .iri (base ++ "verb/" ++ Iri.encode verb)

def commandIri (base : String) (key : CommandKey) : String :=
  base ++ "command/" ++ Iri.encode key.noun ++ "/" ++ Iri.encode key.verb

/-- The statements about the arguments of a command, whose names have to differ. -/
def argumentsStatements (key : CommandKey) (subject : String) (seen : List String) :
    List Argument → Except ExportError (List Triple)
  | [] => .ok []
  | a :: rest => do
    if seen.contains a.name then throw (.duplicateArgument key.noun key.verb a.name)
    let node := Term.iri (subject ++ "/" ++ Iri.encode a.name)
    let described ← argumentStatements node a
    let others ← argumentsStatements key subject (a.name :: seen) rest
    return ⟨.iri subject, .iri Cnv.hasArgument, node⟩ :: described ++ others

def commandStatements (base : String) (c : CommandDefinition) : Except ExportError (List Triple) := do
  let iri := commandIri base c.key
  let subject := Term.iri iri
  let arguments := c.arguments.mergeSort fun a b => decide (a.name ≤ b.name)
  let described ← argumentsStatements c.key iri [] arguments
  return [⟨subject, .iri Rdf.type, .iri Cnv.command⟩,
      ⟨subject, .iri Cnv.hasNoun, nounIri base c.noun⟩,
      ⟨subject, .iri Cnv.hasVerb, verbIri base c.verb⟩] ++
    (ordered c.handlers).map (fun text => ⟨subject, .iri Cnv.handler, .plain text⟩) ++
    (ordered c.capabilities).map (fun text => ⟨subject, .iri Cnv.capability, .plain text⟩) ++
    helpStatements subject c.help ++ described

def newStatements (seen : List String) (name : String) (subject : Term) (classIri : String) :
    List Triple :=
  if seen.contains name then [] else namedStatements subject classIri name

/-- The statements about commands that are in order, given the keys of those before them. -/
def commandsStatements (base : String) (seen : List CommandKey) :
    List CommandDefinition → Except ExportError (List Triple)
  | [] => .ok []
  | c :: rest => do
    if seen.contains c.key then throw (.duplicateCommand c.noun c.verb)
    if c.handlers.isEmpty then throw (.noHandler c.noun c.verb)
    let noun := newStatements (seen.map (·.noun)) c.noun (nounIri base c.noun) Cnv.noun
    let verb := newStatements (seen.map (·.verb)) c.verb (verbIri base c.verb) Cnv.verb
    let command ← commandStatements base c
    return noun ++ verb ++ command ++ (← commandsStatements base (c.key :: seen) rest)

def statements (base : String) (d : Definition) : Except ExportError (List Triple) :=
  commandsStatements base [] (d.commands.mergeSort fun a b => CommandKey.le a.key b.key)

end CommandOntology.Export
