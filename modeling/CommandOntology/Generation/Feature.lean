import CommandOntology.Text.Case
import CommandOntology.Text.Layout

set_option autoImplicit false

namespace CommandOntology

inductive Feature
  | asyncHandlers
  | completions
  | manPages
  | coloredHelp
  | docBlocks
  deriving DecidableEq, Repr

namespace Feature

def all : List Feature :=
  [asyncHandlers, completions, manPages, coloredHelp, docBlocks]

def name : Feature → String
  | asyncHandlers => "async_handlers"
  | completions => "completions"
  | manPages => "man_pages"
  | coloredHelp => "colored_help"
  | docBlocks => "doc_blocks"

def bit : Feature → Nat
  | asyncHandlers => 1
  | completions => 2
  | manPages => 4
  | coloredHelp => 8
  | docBlocks => 16

end Feature

structure Features where
  chosen : List Feature
  deriving DecidableEq, Repr

namespace Features

def none : Features := ⟨[]⟩

def has (features : Features) (f : Feature) : Bool :=
  features.chosen.contains f

def toList (features : Features) : List Feature :=
  Feature.all.filter features.has

def names (features : Features) : List String :=
  features.toList.map Feature.name

def value (features : Features) : Nat :=
  features.toList.foldl (fun total f => total + f.bit) 0

/-- How a name is compared: case and the kind of dash do not matter. -/
def key (name : String) : String :=
  String.ofList (Text.replaceChar '-' ['_'] (Text.upper (Text.strip name)).toList)

/-- The features that a name adds to a set; the name itself if it is unknown. A blank name and `none`
add nothing. -/
def insertName (features : Features) (name : String) : Except String Features :=
  let word := key name
  if word = "" ∨ word = "NONE" then .ok features
  else
    match Feature.all.find? fun f => Text.upper f.name == word with
    | some f => .ok ⟨f :: features.chosen⟩
    | Option.none => .error name

def ofNames (names : List String) : Except String Features :=
  names.foldlM insertName none

def unknownMessage (name : String) : String :=
  "Unknown feature flag '" ++ name ++ "' (known: " ++ ", ".intercalate (Feature.all.map Feature.name)
    ++ ")"

end Features

end CommandOntology
