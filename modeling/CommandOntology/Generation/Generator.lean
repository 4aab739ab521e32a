import CommandOntology.Digest.Sha256
import CommandOntology.Generation.Module
import CommandOntology.Text.Normalize

set_option autoImplicit false

/-!
# Generating modules

From the commands of an index to the text of a module, with a summary of its commands.

The language that modules are written in takes identifiers of one normal form to be the same. It refuses
functions with two parameters of the same name, and fields with the name of its own debugging constant.
-/

namespace CommandOntology.Generation

/-- The parameter that an earlier line of a function declares as well, with the number of its line, which
is counted from `line`. -/
def repeatedParameter? (seen : List String) (line : Nat) : Block → Option (String × Nat)
  | [] => none
  | .parameter ident _ :: rest =>
    let name := Text.normalize ident
    if seen.contains name then some (name, line)
    else repeatedParameter? (name :: seen) (line + 1) rest
  | _ :: rest => repeatedParameter? seen (line + 1) rest

/-- The first parameter of a module that its function declares twice. -/
def firstRepeated? (line : Nat) : List Block → Option (String × Nat)
  | [] => none
  | block :: rest =>
    match repeatedParameter? [] line block with
    | some found => some found
    | none => firstRepeated? (line + block.length) rest

/-- The line of the first field with the name of the debugging constant. -/
def debugField? (line : Nat) : Block → Option Nat
  | [] => none
  | .field ident _ :: rest =>
    if Text.normalize ident = "__debug__" then some line else debugField? (line + 1) rest
  | _ :: rest => debugField? (line + 1) rest

/-- The faults of a module that are looked for. The language has more: a class whose name begins with a digit, like
that of the noun `_2fa`, is refused by it and is no fault here. -/
def moduleFault? (blocks : List Block) : Option ModuleFault :=
  if (moduleText blocks).toList.contains '\x00' then some .nullCharacter
  else
    match firstRepeated? 1 blocks with
    | some (ident, line) => some (.repeatedParameter ident line)
    | none => (debugField? 1 blocks.flatten).map .assignedDebug

end CommandOntology.Generation

namespace CommandOntology

open CommandOntology.Generation

/-- What a generator is set up with. A name that is no text is found out when a module is generated. -/
structure Generator where
  name : Value
  version : String
  help : String

namespace Generator

/-- A generator with the help text of its name, if no other is given. -/
def ofName (name : Value) (version : String) (help : Option String := none) : Generator :=
  ⟨name, version,
    (help.filter (· ≠ "")).getD (name.display ++ " command-line interface.")⟩

end Generator

structure CommandSummary where
  noun : String
  verb : String
  handlerFunction : String
  binding : String
  arguments : List String
  help : String
  deriving DecidableEq, Repr

namespace CommandSummary

def ofPlan (c : CommandPlan) : CommandSummary :=
  ⟨c.noun, c.verb, c.handlerName, c.binding, c.parameters.map (·.ident), c.help⟩

def record (c : CommandSummary) : Value :=
  .record [("noun", .text c.noun), ("verb", .text c.verb),
    ("handler_function", .text c.handlerFunction), ("binding", .text c.binding),
    ("arguments", .texts c.arguments), ("help", .text c.help)]

end CommandSummary

structure GeneratedModule where
  text : String
  lineCount : Nat
  commands : List CommandSummary
  nounCount : Nat
  features : Features
  name : String
  version : String

namespace GeneratedModule

def metadata (m : GeneratedModule) : List (String × Value) :=
  [("cli_name", .text m.name), ("version", .text m.version), ("flags", .texts m.features.names),
    ("noun_count", .nat m.nounCount), ("command_count", .nat m.commands.length),
    ("sha256", .text (Digest.sha256 m.text)), ("line_count", .nat m.lineCount)]

end GeneratedModule

def Generator.generate (g : Generator) (features : Features) (index : CommandIndex) :
    Except GenerationError GeneratedModule := do
  let plans ← plan features index
  match g.name with
  | .text name =>
    let blocks := blocks ⟨name, g.version, g.help, features⟩ plans
    match moduleFault? blocks with
    | some fault => .error (.invalidModule fault)
    | none =>
      let text := moduleText blocks
      return ⟨text, text.toList.count '\n', plans.map .ofPlan, (nounGroups plans).length, features,
        name, g.version⟩
  | _ => .error .untitled

end CommandOntology
