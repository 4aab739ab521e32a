import CommandOntology.Data.Calendar
import CommandOntology.Number.Shortest
import CommandOntology.Text.Quoted

set_option autoImplicit false

namespace CommandOntology

/-- A value of structured data. A record has text keys; a mapping has a key that is not text. -/
inductive Value
  | null
  | bool (b : Bool)
  | int (n : Int)
  | float (x : Binary64)
  | text (s : String)
  | date (d : Date)
  | moment (m : Moment)
  | list (items : List Value)
  | record (fields : List (String × Value))
  | mapping (entries : List (Value × Value))
  deriving Inhabited, Repr

/-- Puts a value under a key: in the place of an equal key, or at the end. -/
def putField {α : Type} (fields : List (String × α)) (key : String) (value : α) : List (String × α) :=
  match fields with
  | [] => [(key, value)]
  | (k, v) :: rest => if k = key then (k, value) :: rest else (k, v) :: putField rest key value

def findField {α : Type} (fields : List (String × α)) (key : String) : Option α :=
  (fields.find? fun field => field.1 == key).map (·.2)

/-- A record in which a later field replaces an earlier one of the same key. -/
def gatherFields {α : Type} (fields : List (String × α)) : List (String × α) :=
  fields.foldl (fun gathered field => putField gathered field.1 field.2) []

namespace Value

def field? (key : String) : Value → Option Value
  | record fields => findField fields key
  | mapping entries =>
    (entries.find? fun entry =>
      match entry.1 with
      | text name => name == key
      | _ => false).map (·.2)
  | _ => none

/-- Whether a value counts as empty: null, false, zero, and texts, lists and records of no length. -/
def isEmpty : Value → Bool
  | null => true
  | bool b => !b
  | int n => n == 0
  | float x => x.isZero
  | text s => s.isEmpty
  | date _ => false
  | moment _ => false
  | list items => items.isEmpty
  | record fields => fields.isEmpty
  | mapping entries => entries.isEmpty

def texts (items : List String) : Value :=
  list (items.map text)

def ofOption {α : Type} (f : α → Value) : Option α → Value
  | none => null
  | some x => f x

def optText : Option String → Value :=
  ofOption text

def nat (n : Nat) : Value :=
  int n

mutual

def shown : Value → String
  | null => "None"
  | bool b => if b then "True" else "False"
  | int n => toString n
  | float x => x.text
  | text s => Text.quoted s
  | date d => d.call
  | moment m => m.call
  | list items => "[" ++ ", ".intercalate (shownItems items) ++ "]"
  | record fields => "\x7b" ++ ", ".intercalate (shownFields fields) ++ "\x7d"
  | mapping entries => "\x7b" ++ ", ".intercalate (shownEntries entries) ++ "\x7d"

def shownItems : List Value → List String
  | [] => []
  | item :: rest => shown item :: shownItems rest

def shownFields : List (String × Value) → List String
  | [] => []
  | (key, value) :: rest => (Text.quoted key ++ ": " ++ shown value) :: shownFields rest

def shownEntries : List (Value × Value) → List String
  | [] => []
  | (key, value) :: rest => (shown key ++ ": " ++ shown value) :: shownEntries rest

end

def display : Value → String
  | text s => s
  | date d => d.text
  | moment m => m.text
  | other => other.shown

end Value

end CommandOntology
