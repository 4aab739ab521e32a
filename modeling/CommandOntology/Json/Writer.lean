import CommandOntology.Data.Value

set_option autoImplicit false

namespace CommandOntology.Json

/-- The layout of a JSON text: members on lines of their own, and only ASCII characters. -/
structure Style where
  indented : Bool
  asciiOnly : Bool
  deriving DecidableEq, Repr

def unitEscape (unit : Nat) : List Char :=
  '\\' :: 'u' :: Text.hexDigits 4 unit

def stringChar (asciiOnly : Bool) (c : Char) : List Char :=
  if c = '"' then ['\\', '"']
  else if c = '\\' then ['\\', '\\']
  else if c = '\n' then ['\\', 'n']
  else if c = '\r' then ['\\', 'r']
  else if c = '\t' then ['\\', 't']
  else if c.toNat = 8 then ['\\', 'b']
  else if c.toNat = 12 then ['\\', 'f']
  else if c.toNat < 0x20 then unitEscape c.toNat
  else if asciiOnly && 0x7f ≤ c.toNat then
    if c.toNat < 0x10000 then unitEscape c.toNat
    else
      let offset := c.toNat - 0x10000
      unitEscape (0xd800 + offset / 0x400) ++ unitEscape (0xdc00 + offset % 0x400)
  else [c]

def stringChars (asciiOnly : Bool) (text : String) : List Char :=
  '"' :: text.toList.flatMap (stringChar asciiOnly) ++ ['"']

def floatChars : Binary64 → List Char
  | .nan => ['N', 'a', 'N']
  | .infinite negative => (if negative then ['-'] else []) ++ "Infinity".toList
  | x => x.chars

/-- A line break and the indentation of a nesting level, two blanks each. -/
def lineStart (style : Style) (level : Nat) : List Char :=
  if style.indented then '\n' :: List.replicate (2 * level) ' ' else []

def separator (style : Style) (level : Nat) : List Char :=
  if style.indented then ',' :: lineStart style level else [',', ' ']

/-- Puts the members of a list or record, each written already, between their brackets. -/
def bracketed (style : Style) (level : Nat) (opening closing : Char) (members : List (List Char)) :
    List Char :=
  if members.isEmpty then [opening, closing]
  else
    opening :: lineStart style (level + 1) ++ (separator style (level + 1)).intercalate members
      ++ lineStart style level ++ [closing]

mutual

def valueChars (style : Style) (level : Nat) : Value → List Char
  | .null => "null".toList
  | .bool b => if b then "true".toList else "false".toList
  | .int n => (toString n).toList
  | .float x => floatChars x
  | .text s => stringChars style.asciiOnly s
  | .date d => stringChars style.asciiOnly d.text
  | .moment m => stringChars style.asciiOnly m.text
  | .list items => bracketed style level '[' ']' (itemChars style (level + 1) items)
  | .record fields => bracketed style level '\x7b' '\x7d' (fieldChars style (level + 1) fields)
  | .mapping entries => bracketed style level '\x7b' '\x7d' (entryChars style (level + 1) entries)

def itemChars (style : Style) (level : Nat) : List Value → List (List Char)
  | [] => []
  | item :: rest => valueChars style level item :: itemChars style level rest

def fieldChars (style : Style) (level : Nat) : List (String × Value) → List (List Char)
  | [] => []
  | (key, value) :: rest =>
    (stringChars style.asciiOnly key ++ ':' :: ' ' :: valueChars style level value)
      :: fieldChars style level rest

def entryChars (style : Style) (level : Nat) : List (Value × Value) → List (List Char)
  | [] => []
  | (key, value) :: rest =>
    (stringChars style.asciiOnly key.display ++ ':' :: ' ' :: valueChars style level value)
      :: entryChars style level rest

end

def write (style : Style) (value : Value) : String :=
  String.ofList (valueChars style 0 value)

def indentedAscii : Style := ⟨true, true⟩

def indented : Style := ⟨true, false⟩

def inlineAscii : Style := ⟨false, true⟩

end CommandOntology.Json
