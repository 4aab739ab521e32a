import CommandOntology.Command.Index
import CommandOntology.Data.Distinct
import CommandOntology.Generation.Error
import CommandOntology.Generation.Naming

set_option autoImplicit false

namespace CommandOntology.Generation

/-- Whether a parameter has to be given, and what it is if it is not. -/
inductive Presence
  | required
  | optional
  | defaulted (value : DefaultValue)
  deriving DecidableEq, Repr

structure Parameter where
  ident : String
  type : ArgumentType
  presence : Presence
  isPositional : Bool
  help : String
  deriving DecidableEq, Repr

namespace Parameter

def annotation (p : Parameter) : String :=
  match p.presence with
  | .optional => "Optional[" ++ p.type.annotation ++ "]"
  | _ => p.type.annotation

def value (p : Parameter) : String :=
  match p.presence with
  | .required => "..."
  | .optional => "None"
  | .defaulted v => v.expression

def fieldDefault? (p : Parameter) : Option String :=
  if p.presence = .required then none else some p.value

def dashed (ident : String) : String :=
  String.ofList (Text.replaceChar '_' ['-'] ident.toList)

/-- The option of a parameter. A truth value has one for each of its values. -/
def option (p : Parameter) : String :=
  let name := dashed p.ident
  if p.type = .boolean then "--" ++ name ++ "/--no-" ++ name else "--" ++ name

def declaration (p : Parameter) : String :=
  let help := ", help=" ++ Text.quoted p.help ++ ")"
  if p.isPositional then "typer.Argument(" ++ p.value ++ help
  else "typer.Option(" ++ p.value ++ ", " ++ Text.quoted p.option ++ help

end Parameter

structure CommandPlan where
  noun : String
  verb : String
  nounIdent : String
  verbIdent : String
  binding : String
  help : String
  parameters : List Parameter
  deriving DecidableEq, Repr

namespace CommandPlan

def qualifiedName (c : CommandPlan) : String :=
  c.noun ++ " " ++ c.verb

def holderName (c : CommandPlan) : String :=
  Generation.holderName [c.nounIdent, c.verbIdent]

def handlerName (c : CommandPlan) : String :=
  "handle_" ++ c.nounIdent ++ "_" ++ c.verbIdent

def functionName (c : CommandPlan) : String :=
  "cmd_" ++ c.nounIdent ++ "_" ++ c.verbIdent

def appName (c : CommandPlan) : String :=
  "app_" ++ c.nounIdent

/-- The parameters in the order of the fields that hold them: those that have to be given first. -/
def fields (c : CommandPlan) : List Parameter :=
  c.parameters.filter (·.presence == .required) ++ c.parameters.filter (·.presence != .required)

end CommandPlan

def identifier (name command role : String) : Except GenerationError String :=
  let ident := toIdentifier name
  if isUsableIdentifier ident then .ok ident
  else .error (.invalidStructure command (.notIdentifier role name ident))

abbrev Taken := List (String × String)

/-- Takes a name; what holds it already if that is something else. -/
def take (taken : Taken) (name holder : String) : Except String Taken :=
  match findField taken name with
  | none => .ok (taken ++ [(name, holder)])
  | some other => if other = holder then .ok taken else .error other

def presence (entity : String) (type : ArgumentType) (a : Argument) : Except GenerationError Presence :=
  if a.required then .ok .required
  else
    match a.default with
    | some raw =>
      match DefaultValue.read? type raw with
      | some value => .ok (.defaulted value)
      | none => .error (.invalidDefault entity type raw)
    | none => .ok (if type = .boolean then .defaulted (.boolean false) else .optional)

def argumentHelp (a : Argument) (tag : String) : String :=
  let help :=
    match a.help.filter (· ≠ "") with
    | some text => text
    | none => a.name ++ " (" ++ tag ++ ")"
  if a.validators.isEmpty then help
  else help ++ " [validators: " ++ ", ".intercalate a.validators ++ "]"

def planParameter (command : String) (a : Argument) (ident : String) :
    Except GenerationError Parameter := do
  let entity := command ++ ": " ++ a.name
  let tag := TypeTag.normalize a.typeTag
  match ArgumentType.ofTag? tag with
  | none => .error (.unknownType entity a.typeTag)
  | some type =>
    let presence ← presence entity type a
    return ⟨ident, type, presence, a.position.isSome, argumentHelp a tag⟩

def planParameters (command : String) (taken : Taken) :
    List Argument → Except GenerationError (List Parameter)
  | [] => return []
  | a :: rest => do
    let ident ← identifier a.name command Role.argument.text
    if reservedParameters.contains ident then
      throw (.invalidStructure command (.reservedArgument a.name))
    let taken ← (take taken ident a.name).mapError fun other =>
      .invalidStructure command (.argumentClash other a.name ident)
    let parameter ← planParameter command a ident
    return parameter :: (← planParameters command taken rest)

structure Names where
  nouns : Taken
  handlers : Taken
  holders : Taken

def properties (c : Command) : List (Property × Bool) :=
  [(.noun, c.noun ≠ ""), (.verb, c.verb ≠ ""), (.handler, c.handler.any (· ≠ ""))]

def missing? (c : Command) : Option Property :=
  ((properties c).find? fun property => !property.2).map (·.1)

def commandLabel (c : Command) : String :=
  (c.iri.filter (· ≠ "")).getD c.qualifiedName

def planCommand (features : Features) (names : Names) (c : Command) :
    Except GenerationError (CommandPlan × Names) := do
  let name := c.qualifiedName
  if let some property := missing? c then
    throw (.missingProperty (commandLabel c) property)
  let nounIdent ← identifier c.noun name Role.noun.text
  let verbIdent ← identifier c.verb name Role.verb.text
  let nouns ← (take names.nouns nounIdent c.noun).mapError fun other =>
    .invalidStructure name (.nounClash c.noun other nounIdent)
  if features.has .manPages && c.noun == "manpage" then throw (.invalidStructure name .manpageNoun)
  let plan : CommandPlan :=
    { noun := c.noun, verb := c.verb, nounIdent, verbIdent, binding := c.handler.getD "",
      help := (c.help.filter (· ≠ "")).getD (Text.capitalize c.verb ++ " " ++ c.noun ++ "."),
      parameters := [] }
  let handlers ← (take names.handlers plan.handlerName name).mapError fun other =>
    .invalidStructure name (.nameClash plan.handlerName other)
  let holders ← (take names.holders plan.holderName name).mapError fun other =>
    .invalidStructure name (.nameClash plan.holderName other)
  let parameters ← planParameters name [] (Argument.sort c.arguments)
  return ({ plan with parameters }, ⟨nouns, handlers, holders⟩)

def planCommands (features : Features) (names : Names) :
    List Command → Except GenerationError (List CommandPlan)
  | [] => return []
  | c :: rest => do
    let (plan, names) ← planCommand features names c
    return plan :: (← planCommands features names rest)

def plan (features : Features) (index : CommandIndex) : Except GenerationError (List CommandPlan) :=
  planCommands features ⟨[], [], []⟩ index.commands

def nounGroups (plans : List CommandPlan) : List (String × List CommandPlan) :=
  let nouns := (distinct (plans.map (·.noun))).mergeSort fun a b => decide (a ≤ b)
  nouns.map fun noun => (noun, plans.filter (·.noun == noun))

end CommandOntology.Generation
