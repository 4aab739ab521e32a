import CommandOntology.Data.Value
import CommandOntology.Number.Reading

set_option autoImplicit false

namespace CommandOntology.Json

inductive Fault
  | byteOrderMark
  | valueExpected
  | keyExpected
  | colonExpected
  | commaExpected
  | controlCharacter
  | unknownEscape
  | malformedUnit
  | unterminatedString
  | extraData
  | integerTooLong (digits : Nat)
  deriving DecidableEq, Repr

def Fault.reason : Fault → String
  | .byteOrderMark => "Unexpected UTF-8 BOM (decode using utf-8-sig)"
  | .valueExpected => "Expecting value"
  | .keyExpected => "Expecting property name enclosed in double quotes"
  | .colonExpected => "Expecting ':' delimiter"
  | .commaExpected => "Expecting ',' delimiter"
  | .controlCharacter => "Invalid control character at"
  | .unknownEscape => "Invalid \\escape"
  | .malformedUnit => "Invalid \\uXXXX escape"
  | .unterminatedString => "Unterminated string starting at"
  | .extraData => "Extra data"
  | .integerTooLong digits => (NumberError.tooManyDigits digits).message

structure Failure where
  fault : Fault
  remaining : Nat
  deriving DecidableEq, Repr

abbrev Result (α : Type) := Except Failure (α × List Char)

def fail {α : Type} (fault : Fault) (rest : List Char) : Except Failure α :=
  .error ⟨fault, rest.length⟩

def isSpace (c : Char) : Bool :=
  c = ' ' || c = '\t' || c = '\n' || c = '\r'

def skipSpace (text : List Char) : List Char :=
  text.dropWhile isSpace

def escapedChar? : Char → Option Char
  | '"' => some '"'
  | '\\' => some '\\'
  | '/' => some '/'
  | 'b' => some (Char.ofNat 8)
  | 'f' => some (Char.ofNat 12)
  | 'n' => some '\n'
  | 'r' => some '\r'
  | 't' => some '\t'
  | _ => none

def readUnit : List Char → Option (Nat × List Char)
  | a :: b :: c :: d :: e :: rest =>
    if Text.isHexDigit a && Text.isHexDigit b && Text.isHexDigit c && Text.isHexDigit d then
      some (4096 * Text.hexValue a + 256 * Text.hexValue b + 16 * Text.hexValue c + Text.hexValue d,
        e :: rest)
    else none
  | _ => none

/-- The character of one UTF-16 unit, or of two when the first opens a pair that the second closes. -/
def readPair (unit : Nat) (rest : List Char) : Except Failure (Char × List Char) :=
  if 0xd800 ≤ unit && unit < 0xdc00 then
    match rest with
    | '\\' :: 'u' :: more =>
      if more.length < 5 then .ok (Char.ofNat unit, rest)
      else
        match readUnit more with
        | none => fail .malformedUnit ('u' :: more)
        | some (low, after) =>
          if 0xdc00 ≤ low && low < 0xe000 then
            .ok (Char.ofNat (0x10000 + (unit - 0xd800) * 0x400 + (low - 0xdc00)), after)
          else .ok (Char.ofNat unit, rest)
    | _ => .ok (Char.ofNat unit, rest)
  else .ok (Char.ofNat unit, rest)

/-- Reads the rest of a string; `start` is the text from the opening quote on and `fuel` bounds the
number of characters. -/
def readString (start : List Char) : (fuel : Nat) → (read : List Char) → List Char → Result String
  | 0, _, _ => fail .unterminatedString start
  | _ + 1, _, [] => fail .unterminatedString start
  | fuel + 1, read, c :: rest =>
    if c = '"' then .ok (String.ofList read.reverse, rest)
    else if c = '\\' then
      match rest with
      | [] => fail .unterminatedString start
      | 'u' :: digits =>
        match readUnit digits with
        | none => fail .malformedUnit rest
        | some (unit, after) =>
          match readPair unit after with
          | .error failure => .error failure
          | .ok (char, after) => readString start fuel (char :: read) after
      | e :: after =>
        match escapedChar? e with
        | some char => readString start fuel (char :: read) after
        | none => fail .unknownEscape (c :: rest)
    else if c.toNat < 0x20 then fail .controlCharacter (c :: rest)
    else readString start fuel (c :: read) rest

def spanDigits (text : List Char) : List Char × List Char :=
  (text.takeWhile Text.isAsciiDigit, text.dropWhile Text.isAsciiDigit)

def readFraction (text : List Char) : Option (List Char) × List Char :=
  match text with
  | '.' :: rest =>
    match spanDigits rest with
    | ([], _) => (none, text)
    | (digits, after) => (some digits, after)
  | _ => (none, text)

def readExponent (text : List Char) : Option Int × List Char :=
  match text with
  | [] => (none, text)
  | c :: rest =>
    if c = 'e' || c = 'E' then
      let (negative, afterSign) := Reading.readSign rest
      match spanDigits afterSign with
      | ([], _) => (none, text)
      | (digits, after) =>
        (some (if negative then -(Reading.number digits : Int) else Reading.number digits), after)
    else (none, text)

/-- A number whose sign has been read; `start` is the text from the sign on. -/
def readNumber (start : List Char) (negative : Bool) (text : List Char) : Result Value :=
  let (whole, afterWhole) :=
    match text with
    | '0' :: rest => (['0'], rest)
    | _ => spanDigits text
  if whole.isEmpty then fail .valueExpected start
  else
    let (fraction, afterFraction) := readFraction afterWhole
    let (exponent, rest) := readExponent afterFraction
    if fraction.isNone && exponent.isNone then
      if integerDigitLimit < whole.length then fail (.integerTooLong whole.length) start
      else
        .ok (.int (if negative then -(Reading.number whole : Int) else Reading.number whole), rest)
    else
      let fraction := fraction.getD []
      .ok (.float (Binary64.ofDecimal negative (Reading.number (whole ++ fraction))
        (exponent.getD 0 - (fraction.length : Int))), rest)

def wordValues : List (List Char × Value) :=
  [("null".toList, .null), ("true".toList, .bool true), ("false".toList, .bool false),
    ("NaN".toList, .float .nan), ("Infinity".toList, .float (.infinite false)),
    ("-Infinity".toList, .float (.infinite true))]

def readWord (text : List Char) : Option (Value × List Char) :=
  wordValues.findSome? fun word =>
    if word.1.isPrefixOf text then some (word.2, text.drop word.1.length) else none

mutual

def readValue : (fuel : Nat) → List Char → Result Value
  | 0, text => fail .valueExpected text
  | fuel + 1, text =>
    match text with
    | '"' :: rest =>
      match readString text (rest.length + 1) [] rest with
      | .ok (s, rest) => .ok (.text s, rest)
      | .error failure => .error failure
    | '\x7b' :: rest =>
      match skipSpace rest with
      | '\x7d' :: rest => .ok (.record [], rest)
      | rest =>
        match readMembers fuel [] rest with
        | .ok (fields, rest) => .ok (.record fields, rest)
        | .error failure => .error failure
    | '[' :: rest =>
      match skipSpace rest with
      | ']' :: rest => .ok (.list [], rest)
      | rest =>
        match readItems fuel rest with
        | .ok (items, rest) => .ok (.list items, rest)
        | .error failure => .error failure
    | _ =>
      match readWord text with
      | some (value, rest) => .ok (value, rest)
      | none =>
        match text with
        | '-' :: rest => readNumber text true rest
        | _ => readNumber text false text

def readItems : (fuel : Nat) → List Char → Result (List Value)
  | 0, text => fail .valueExpected text
  | fuel + 1, text =>
    match readValue fuel text with
    | .error failure => .error failure
    | .ok (item, rest) =>
      match skipSpace rest with
      | ']' :: rest => .ok ([item], rest)
      | ',' :: rest =>
        match readItems fuel (skipSpace rest) with
        | .ok (items, rest) => .ok (item :: items, rest)
        | .error failure => .error failure
      | rest => fail .commaExpected rest

def readMembers : (fuel : Nat) → List (String × Value) → List Char → Result (List (String × Value))
  | 0, _, text => fail .keyExpected text
  | fuel + 1, fields, text =>
    match text with
    | '"' :: rest =>
      match readString text (rest.length + 1) [] rest with
      | .error failure => .error failure
      | .ok (key, rest) =>
        match skipSpace rest with
        | ':' :: rest =>
          match readValue fuel (skipSpace rest) with
          | .error failure => .error failure
          | .ok (value, rest) =>
            let fields := putField fields key value
            match skipSpace rest with
            | '\x7d' :: rest => .ok (fields, rest)
            | ',' :: rest => readMembers fuel fields (skipSpace rest)
            | rest => fail .commaExpected rest
        | rest => fail .colonExpected rest
    | _ => fail .keyExpected text

end

def readAll (text : List Char) : Except Failure Value :=
  match text with
  | c :: _ =>
    if c.toNat = 0xfeff then fail .byteOrderMark text
    else readWhole text
  | [] => readWhole text
where
  readWhole (text : List Char) : Except Failure Value :=
    match readValue (2 * text.length + 2) (skipSpace text) with
    | .error failure => .error failure
    | .ok (value, rest) =>
      match skipSpace rest with
      | [] => .ok value
      | rest => fail .extraData rest

structure SyntaxError where
  fault : Fault
  line : Nat
  column : Nat
  offset : Nat
  deriving DecidableEq, Repr

def SyntaxError.ofFailure (text : List Char) (failure : Failure) : SyntaxError :=
  let offset := text.length - failure.remaining
  let before := text.take offset
  { fault := failure.fault
    line := before.count '\n' + 1
    column := (before.reverse.takeWhile (· ≠ '\n')).length + 1
    offset }

def SyntaxError.message (e : SyntaxError) : String :=
  match e.fault with
  | .integerTooLong _ => e.fault.reason
  | _ =>
    e.fault.reason ++ ": line " ++ toString e.line ++ " column " ++ toString e.column ++ " (char "
      ++ toString e.offset ++ ")"

/-- Whether the fault is one of the form of the text, and not of a number in it. -/
def SyntaxError.isSyntactic (e : SyntaxError) : Bool :=
  match e.fault with
  | .integerTooLong _ => false
  | _ => true

def read (text : String) : Except SyntaxError Value :=
  (readAll text.toList).mapError (SyntaxError.ofFailure text.toList)

end CommandOntology.Json
