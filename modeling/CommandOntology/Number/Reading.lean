import CommandOntology.Number.Binary64
import CommandOntology.Text.Layout
import CommandOntology.Text.Quoted

set_option autoImplicit false

namespace CommandOntology

inductive NumberError
  | notInteger (text : String)
  | tooManyDigits (count : Nat)
  /-- An integer has too many digits to be written. -/
  | tooLong
  | notFloat (text : String)
  deriving DecidableEq, Repr

def integerDigitLimit : Nat := 4300

def NumberError.message : NumberError → String
  | .notInteger text => "invalid literal for int() with base 10: " ++ Text.quoted text
  | .tooManyDigits count =>
    "Exceeds the limit (4300 digits) for integer string conversion: value has "
      ++ toString count ++ " digits; use sys.set_int_max_str_digits() to increase the limit"
  | .tooLong =>
    "Exceeds the limit (4300 digits) for integer string conversion; "
      ++ "use sys.set_int_max_str_digits() to increase the limit"
  | .notFloat text => "could not convert string to float: " ++ Text.quoted text

def integerText (n : Int) : Except NumberError String :=
  if integerDigitLimit < (Nat.toDigits 10 n.natAbs).length then .error .tooLong else .ok (toString n)

namespace Reading

/-- White space that may stand around a number: all but the four separator controls. -/
def isBlankAround (c : Char) : Bool :=
  Text.isBlank c && !(0x1c ≤ c.toNat && c.toNat ≤ 0x1f)

def readSign : List Char → Bool × List Char
  | '-' :: rest => (true, rest)
  | '+' :: rest => (false, rest)
  | text => (false, text)

/-- Reads digits with single underscores between them; `expectsDigit` says that an underscore may not
stand here. Gives the digits and what follows them, or nothing when an underscore has no digit after
it. -/
def readDigits (expectsDigit : Bool) : List Char → Option (List Char × List Char)
  | [] => if expectsDigit then none else some ([], [])
  | c :: rest =>
    if Text.isDecimalDigit c then
      (readDigits false rest).map fun r => (c :: r.1, r.2)
    else if expectsDigit then none
    else if c = '_' then readDigits true rest
    else some ([], c :: rest)

def number (digits : List Char) : Nat :=
  digits.foldl (fun n c => 10 * n + Text.digitValue c) 0

/-- Reads an integer that is the whole text but for white space around it. -/
def integer? (text : List Char) : Option (Bool × List Char) :=
  let (negative, rest) := readSign (Text.trimBy isBlankAround text)
  match readDigits true rest with
  | some (digits, []) => some (negative, digits)
  | _ => none

def integer (text : String) : Except NumberError Int :=
  match integer? text.toList with
  | none => .error (.notInteger text)
  | some (negative, digits) =>
    if integerDigitLimit < digits.length then .error (.tooManyDigits digits.length)
    else .ok (if negative then -(number digits : Int) else number digits)

structure DecimalParts where
  whole : List Char
  fraction : List Char
  exponent : Int

def readOptionalDigits (text : List Char) : Option (List Char × List Char) :=
  match text with
  | c :: _ => if Text.isDecimalDigit c then readDigits true text else some ([], text)
  | [] => some ([], [])

def readExponent : List Char → Option Int
  | [] => some 0
  | c :: rest =>
    if c = 'e' ∨ c = 'E' then
      let (negative, rest) := readSign rest
      match readDigits true rest with
      | some (digits, []) => some (if negative then -(number digits : Int) else number digits)
      | _ => none
    else none

/-- Whole digits, an optional fraction and an optional exponent, with a digit somewhere before the
exponent. -/
def readDecimal (text : List Char) : Option DecimalParts := do
  let (whole, rest) ← readOptionalDigits text
  let (fraction, rest) ←
    match rest with
    | '.' :: rest => readOptionalDigits rest
    | _ => some ([], rest)
  if whole.isEmpty && fraction.isEmpty then none
  else return ⟨whole, fraction, ← readExponent rest⟩

def float? (text : List Char) : Option Binary64 :=
  let (negative, rest) := readSign text
  match String.ofList (rest.map Text.asciiLower) with
  | "nan" => some .nan
  | "inf" => some (.infinite negative)
  | "infinity" => some (.infinite negative)
  | _ =>
    (readDecimal rest).map fun parts =>
      Binary64.ofDecimal negative (number (parts.whole ++ parts.fraction))
        (parts.exponent - (parts.fraction.length : Int))

def float (text : String) : Except NumberError Binary64 :=
  match float? (Text.trimBy isBlankAround text.toList) with
  | some x => .ok x
  | none => .error (.notFloat text)

end Reading

end CommandOntology
