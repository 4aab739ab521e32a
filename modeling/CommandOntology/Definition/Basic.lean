import CommandOntology.Command.Index

set_option autoImplicit false

namespace CommandOntology

/-- A command as it is defined. The first of its handlers is the primary one. -/
structure CommandDefinition where
  noun : String
  verb : String
  help : Option String := none
  handlers : List String := []
  capabilities : List String := []
  arguments : List Argument := []
  deriving DecidableEq, Repr

namespace CommandDefinition

def key (c : CommandDefinition) : CommandKey :=
  ⟨c.noun, c.verb⟩

def ofCommand (c : Command) : CommandDefinition :=
  ⟨c.noun, c.verb, c.help, c.handlers, c.capabilities, c.arguments⟩

def record (c : CommandDefinition) : Value :=
  .record [("noun", .text c.noun), ("verb", .text c.verb), ("help", .optText c.help),
    ("handlers", .texts c.handlers), ("capabilities", .texts c.capabilities),
    ("arguments", .list (c.arguments.map Argument.record))]

end CommandDefinition

structure Definition where
  name : String := "cli"
  version : Option String := none
  description : Option String := none
  commands : List CommandDefinition := []
  deriving DecidableEq, Repr

namespace Definition

def ofIndex (index : CommandIndex) (name : String := "cli") (version : Option String := none) :
    Definition :=
  { name, version, commands := index.commands.map .ofCommand }

def record (d : Definition) : Value :=
  .record [("name", .text d.name), ("version", .optText d.version),
    ("description", .optText d.description),
    ("commands", .list (d.commands.map CommandDefinition.record))]

end Definition

end CommandOntology
