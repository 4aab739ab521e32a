import CommandOntology.Text.CharClass
import CommandOntology.Text.Layout

set_option autoImplicit false

namespace CommandOntology.Yaml.Tag

open CommandOntology.Text

def start : String := "tag:yaml.org,2002:"

def null : String := start ++ "null"
def boolean : String := start ++ "bool"
def integer : String := start ++ "int"
def float : String := start ++ "float"
def timestamp : String := start ++ "timestamp"
def merge : String := start ++ "merge"
def value : String := start ++ "value"
def text : String := start ++ "str"
def sequence : String := start ++ "seq"
def mapping : String := start ++ "map"

def nullWords : List String :=
  ["", "~", "null", "Null", "NULL"]

def truthWords : List (String × Bool) :=
  [("yes", true), ("no", false), ("true", true), ("false", false), ("on", true), ("off", false)]

/-- A word in lower case, with its first letter in upper case, or all in upper case. -/
def spellings (word : String) : List String :=
  [word, word.capitalize, word.toUpper]

def isTruthWord (text : String) : Bool :=
  truthWords.any fun w => (spellings w.1).contains text

def unsigned : List Char → List Char
  | '-' :: rest => rest
  | '+' :: rest => rest
  | text => text

/-- Whether a text is not empty and has characters of a class alone. -/
def consists (isMember : Char → Bool) (text : List Char) : Bool :=
  !text.isEmpty && text.all isMember

def isSpacedDigit (c : Char) : Bool :=
  isAsciiDigit c || c == '_'

def isSpacedNumber : List Char → Bool
  | [] => false
  | c :: rest => isAsciiDigit c && rest.all isSpacedDigit

def isSixtieth : List Char → Bool
  | [a] => isAsciiDigit a
  | [a, b] => ('0' ≤ a && a ≤ '5') && isAsciiDigit b
  | _ => false

def isInteger (text : List Char) : Bool :=
  match unsigned text with
  | '0' :: 'b' :: rest => consists (fun c => c == '0' || c == '1' || c == '_') rest
  | '0' :: 'x' :: rest => consists (fun c => isHexDigit c || c == '_') rest
  | ['0'] => true
  | '0' :: rest => consists (fun c => ('0' ≤ c && c ≤ '7') || c == '_') rest
  | digits =>
    match splitOn ':' digits with
    | first :: rest => isSpacedNumber first && rest.all isSixtieth
    | [] => false

/-- The end of a decimal number: nothing, or an exponent with its sign. -/
def isExponent : List Char → Bool
  | [] => true
  | e :: sign :: digits =>
    (e == 'e' || e == 'E') && (sign == '+' || sign == '-') && consists isAsciiDigit digits
  | [_] => false

def isFraction : List Char → Bool
  | '.' :: rest => isExponent (rest.dropWhile isSpacedDigit)
  | _ => false

def isSexagesimalFloat (digits : List Char) : Bool :=
  match (splitOn ':' digits).reverse with
  | last :: first :: groups =>
    let (whole, fraction) := partitionAt '.' last
    isSixtieth whole && fraction.any (·.all isSpacedDigit) &&
      (match (first :: groups).reverse with
      | start :: middle => isSpacedNumber start && middle.all isSixtieth
      | [] => false)
  | _ => false

/-- Numbers with a point, and the words for infinity and for what is no number. -/
def isFloat (text : List Char) : Bool :=
  let digits := unsigned text
  let word := String.ofList digits
  [".inf", ".Inf", ".INF"].contains word ||
    [".nan", ".NaN", ".NAN"].contains (String.ofList text) ||
    (match text with
    | '.' :: c :: rest => isAsciiDigit c && isExponent (rest.dropWhile isSpacedDigit)
    | _ => false) ||
    (digits.head?.any isAsciiDigit && isFraction (digits.dropWhile isSpacedDigit)) ||
    isSexagesimalFloat digits

def readDigits (count : Nat) (optional : Bool) (text : List Char) : Option (List Char × List Char) :=
  let n := min (spanLength isAsciiDigit text) (if optional then count + 1 else count)
  if n < count then none else some (text.take n, text.drop n)

structure DateText where
  year : List Char
  month : List Char
  day : List Char
  time : Option (List Char)

def readDate? (text : List Char) : Option DateText := do
  let (year, rest) ← readDigits 4 false text
  let rest ← dropBeginning? ['-'] rest
  let (month, rest) ← readDigits 1 true rest
  let rest ← dropBeginning? ['-'] rest
  let (day, rest) ← readDigits 1 true rest
  if rest.isEmpty then
    if month.length = 2 ∧ day.length = 2 then return ⟨year, month, day, none⟩ else none
  else return ⟨year, month, day, some rest⟩

def isTimeBlank (c : Char) : Bool :=
  c == ' ' || c == '\t'

/-- The distance from the time of the meridian: its sign, hours and minutes. -/
structure ZoneText where
  isNegative : Bool
  hours : List Char
  minutes : List Char

/-- The end of a time: a fraction of a second and a zone. `some none` is the meridian. -/
structure TimeText where
  hour : List Char
  minute : List Char
  second : List Char
  fraction : List Char
  zone : Option (Option ZoneText)

def readZone? (text : List Char) : Option (Option (Option ZoneText)) :=
  match text with
  | [] => some none
  | _ =>
    match text.dropWhile isTimeBlank with
    | ['Z'] => some (some none)
    | sign :: rest => do
      if sign ≠ '+' ∧ sign ≠ '-' then none
      let (hours, rest) ← readDigits 1 true rest
      match rest with
      | [] => return some (some ⟨sign = '-', hours, []⟩)
      | ':' :: rest =>
        let (minutes, rest) ← readDigits 2 false rest
        if rest.isEmpty then return some (some ⟨sign = '-', hours, minutes⟩) else none
      | _ => none
    | [] => none

def readTime? (text : List Char) : Option TimeText := do
  let rest ←
    match text with
    | 'T' :: rest => some rest
    | 't' :: rest => some rest
    | c :: rest => if isTimeBlank c then some (rest.dropWhile isTimeBlank) else none
    | [] => none
  let (hour, rest) ← readDigits 1 true rest
  let rest ← dropBeginning? [':'] rest
  let (minute, rest) ← readDigits 2 false rest
  let rest ← dropBeginning? [':'] rest
  let (second, rest) ← readDigits 2 false rest
  let (fraction, rest) :=
    match rest with
    | '.' :: rest => (rest.takeWhile isAsciiDigit, rest.dropWhile isAsciiDigit)
    | _ => ([], rest)
  return ⟨hour, minute, second, fraction, ← readZone? rest⟩

def isTimestamp (text : List Char) : Bool :=
  match readDate? text with
  | none => false
  | some d =>
    match d.time with
    | none => true
    | some rest => (readTime? rest).isSome

def ofPlain (plain : String) : String :=
  let chars := plain.toList
  if nullWords.contains plain then null
  else if isTruthWord plain then boolean
  else if isFloat chars then float
  else if isInteger chars then integer
  else if plain = "<<" then merge
  else if isTimestamp chars then timestamp
  else if plain = "=" then value
  else text

end CommandOntology.Yaml.Tag
