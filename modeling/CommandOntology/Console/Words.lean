import CommandOntology.Text.Layout

set_option autoImplicit false

namespace CommandOntology.Console

structure OptionSpec where
  key : String
  spellings : List String
  takesValue : Bool
  deriving DecidableEq, Repr

def valued (key : String) (spellings : List String) : OptionSpec :=
  ⟨key, spellings, true⟩

def flag (key : String) (spellings : List String) : OptionSpec :=
  ⟨key, spellings, false⟩

inductive UsageError
  | unknownOption (spelling : String)
  | missingValue (spelling : String)
  | unexpectedValue (spelling : String)
  | missingCommand
  | unknownCommand (name : String)
  | missingArgument (name : String)
  | extraArguments (words : List String)
  | unsuitableValue (key value : String)
  deriving DecidableEq, Repr

/-- An option that is set, with its value. A flag has an empty one. -/
structure Setting where
  key : String
  value : String
  deriving DecidableEq, Repr

structure WordUse where
  settings : List Setting
  waiting : Option OptionSpec
  deriving DecidableEq, Repr

def findSpec (specs : List OptionSpec) (spelling : String) : Option OptionSpec :=
  specs.find? fun spec => spec.spellings.contains spelling

def readLong (spec : OptionSpec) (spelling : String) (attached : Option String) :
    Except UsageError WordUse :=
  match spec.takesValue, attached with
  | true, some value => .ok ⟨[⟨spec.key, value⟩], none⟩
  | true, none => .ok ⟨[], some spec⟩
  | false, some _ => .error (.unexpectedValue spelling)
  | false, none => .ok ⟨[⟨spec.key, ""⟩], none⟩

def readShort (specs : List OptionSpec) : List Char → Except UsageError WordUse
  | [] => .ok ⟨[], none⟩
  | c :: rest =>
    let spelling := String.ofList ['-', c]
    match findSpec specs spelling with
    | none => .error (.unknownOption spelling)
    | some spec =>
      if spec.takesValue then
        if rest.isEmpty then .ok ⟨[], some spec⟩
        else .ok ⟨[⟨spec.key, String.ofList rest⟩], none⟩
      else do
        let use ← readShort specs rest
        return ⟨⟨spec.key, ""⟩ :: use.settings, use.waiting⟩

def readOption (specs : List OptionSpec) (word : String) : Except UsageError WordUse :=
  let (name, attached) := Text.partitionAt '=' word.toList
  let spelling := String.ofList name
  let long := specs.find? fun spec => spelling.startsWith "--" && spec.spellings.contains spelling
  match long with
  | some spec => readLong spec spelling (attached.map String.ofList)
  | none =>
    if word.startsWith "--" then .error (.unknownOption spelling)
    else readShort specs (word.toList.drop 1)

structure Words where
  settings : List Setting
  arguments : List String
  deriving DecidableEq, Repr

def isOptionWord (word : String) : Bool :=
  word.startsWith "-" && 1 < word.length

/-- Reads words. Where options may not come after an argument, all words from the first argument on are
arguments. -/
def readWords (specs : List OptionSpec) (mixed : Bool) : List String → Except UsageError Words
  | [] => .ok ⟨[], []⟩
  | word :: rest =>
    if word = "--" then .ok ⟨[], rest⟩
    else if isOptionWord word then do
      let use ← readOption specs word
      match use.waiting, rest with
      | none, rest => do
        let later ← readWords specs mixed rest
        return { later with settings := use.settings ++ later.settings }
      | some _, [] => throw (.missingValue word)
      | some spec, value :: rest => do
        let later ← readWords specs mixed rest
        return { later with settings := use.settings ++ ⟨spec.key, value⟩ :: later.settings }
    else if mixed then do
      let later ← readWords specs mixed rest
      return { later with arguments := word :: later.arguments }
    else .ok ⟨[], word :: rest⟩

namespace Words

def values (w : Words) (key : String) : List String :=
  (w.settings.filter (·.key == key)).map (·.value)

def value? (w : Words) (key : String) : Option String :=
  (w.values key).getLast?

def has (w : Words) (key : String) : Bool :=
  (w.value? key).isSome

end Words

end CommandOntology.Console
