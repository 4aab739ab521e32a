import CommandOntology.Command.Descriptor

set_option autoImplicit false

namespace CommandOntology

structure CommandIndex where
  commands : List Command
  groups : List (String × List Command)
  deriving DecidableEq, Repr

namespace CommandIndex

def duplicate? (seen : List CommandKey) : List Command → Option CommandKey
  | [] => none
  | c :: rest => if c.key ∈ seen then some c.key else duplicate? (c.key :: seen) rest

def addToGroup (command : Command) : List (String × List Command) → List (String × List Command)
  | [] => [(command.noun, [command])]
  | (noun, commands) :: rest =>
    if noun = command.noun then (noun, commands ++ [command]) :: rest
    else (noun, commands) :: addToGroup command rest

/-- The commands by noun, nouns in the order of their first commands. -/
def group (commands : List Command) : List (String × List Command) :=
  commands.foldl (fun groups command => addToGroup command groups) []

/-- Builds the index of some commands; gives the key that two of them share, if there is one. -/
def ofList (commands : List Command) : Except CommandKey CommandIndex :=
  match duplicate? [] commands with
  | some key => .error key
  | none =>
    let ordered := commands.mergeSort fun a b => CommandKey.le a.key b.key
    .ok ⟨ordered, group ordered⟩

def duplicateMessage (key : CommandKey) : String :=
  "duplicate command '" ++ key.text ++ "'"

def get? (index : CommandIndex) (key : CommandKey) : Option Command :=
  index.commands.find? (·.key == key)

def item (index : CommandIndex) (key : CommandKey) : Except CommandKey Command :=
  match index.get? key with
  | some command => .ok command
  | none => .error key

def contains (index : CommandIndex) (key : CommandKey) : Bool :=
  (index.get? key).isSome

def commandsFor (index : CommandIndex) (noun : String) : List Command :=
  (findField index.groups noun).getD []

def nouns (index : CommandIndex) : List String :=
  index.groups.map (·.1)

def keys (index : CommandIndex) : List CommandKey :=
  index.commands.map (·.key)

def size (index : CommandIndex) : Nat :=
  index.commands.length

/-- Two indexes are the same if they have the same commands, wherever these were described. -/
def same (a b : CommandIndex) : Bool :=
  a.commands.map Command.content = b.commands.map Command.content

def missingMessage (key : CommandKey) : String :=
  "no command '" ++ key.text ++ "'"

def lookup (index : CommandIndex) (key : CommandKey) : Except String Command :=
  (index.item key).mapError missingMessage

def text (index : CommandIndex) : String :=
  "CommandIndex(" ++ ", ".intercalate (index.commands.map Command.qualifiedName) ++ ")"

def record (index : CommandIndex) : Value :=
  .record [("commands", .list (index.commands.map Command.record)),
    ("nouns", .record (index.groups.map fun g => (g.1, .texts (g.2.map (·.verb)))))]

end CommandIndex

end CommandOntology
