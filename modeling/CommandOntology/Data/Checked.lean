import CommandOntology.Data.Value
import CommandOntology.Number.Reading
import CommandOntology.Text.Layout

set_option autoImplicit false

namespace CommandOntology

inductive MismatchKind
  | missing
  | notText
  | notList
  | notRecord
  | notTruth
  | unreadableTruth
  | notInteger
  | unreadableInteger
  | integerTooLong
  | fraction
  | notFinite
  | notNumber
  | unreadableNumber
  | notGreater
  | notChoice
  | inconsistent
  deriving DecidableEq, Repr

def MismatchKind.name : MismatchKind → String
  | missing => "missing"
  | notText => "string_type"
  | notList => "list_type"
  | notRecord => "model_type"
  | notTruth => "bool_type"
  | unreadableTruth => "bool_parsing"
  | notInteger => "int_type"
  | unreadableInteger => "int_parsing"
  | integerTooLong => "int_parsing_size"
  | fraction => "int_from_float"
  | notFinite => "finite_number"
  | notNumber => "float_type"
  | unreadableNumber => "float_parsing"
  | notGreater => "greater_than"
  | notChoice => "enum"
  | inconsistent => "value_error"

inductive Step
  | field (name : String)
  | item (index : Nat)
  deriving DecidableEq, Repr

def Step.text : Step → String
  | field name => name
  | item index => toString index

structure Mismatch where
  place : List Step
  kind : MismatchKind
  deriving DecidableEq, Repr

namespace Mismatch

def text (f : Mismatch) : String :=
  ".".intercalate (f.place.map Step.text) ++ ": " ++ f.kind.name

def summary (mismatches : List Mismatch) : String :=
  "\n".intercalate (mismatches.map text)

end Mismatch

inductive Checked (α : Type)
  | good (a : α)
  | bad (mismatches : List Mismatch)
  deriving Repr

namespace Checked

variable {α β : Type}

def fail (kind : MismatchKind) : Checked α :=
  bad [⟨[], kind⟩]

/-- A function and its argument; the mismatches of both if one is bad. -/
def apply (f : Checked (α → β)) (x : Checked α) : Checked β :=
  match f, x with
  | good f, good a => good (f a)
  | good _, bad mismatches => bad mismatches
  | bad mismatches, good _ => bad mismatches
  | bad first, bad second => bad (first ++ second)

instance : Applicative Checked where
  pure := good
  seq f x := apply f (x ())

def andThen (x : Checked α) (f : α → Checked β) : Checked β :=
  match x with
  | good a => f a
  | bad mismatches => bad mismatches

def within (step : Step) : Checked α → Checked α
  | good a => good a
  | bad mismatches => bad (mismatches.map fun f => { f with place := step :: f.place })

def toExcept : Checked α → Except (List Mismatch) α
  | good a => .ok a
  | bad mismatches => .error mismatches

end Checked

namespace Check

variable {α : Type}

def text : Value → Checked String
  | .text s => .good s
  | _ => .fail .notText

def optional (check : Value → Checked α) : Value → Checked (Option α)
  | .null => .good none
  | v => some <$> check v

def items (check : Value → Checked α) (index : Nat) : List Value → Checked (List α)
  | [] => .good []
  | v :: rest => List.cons <$> (check v).within (.item index) <*> items check (index + 1) rest

def list (check : Value → Checked α) : Value → Checked (List α)
  | .list vs => items check 0 vs
  | _ => .fail .notList

def isRecord : Value → Bool
  | .record _ => true
  | .mapping _ => true
  | _ => false

def record (check : Value → Checked α) (v : Value) : Checked α :=
  if isRecord v then check v else .fail .notRecord

def required (name : String) (check : Value → Checked α) (v : Value) : Checked α :=
  (match v.field? name with
  | some x => check x
  | none => .fail .missing).within (.field name)

def field (name : String) (default : α) (check : Value → Checked α) (v : Value) : Checked α :=
  match v.field? name with
  | some x => (check x).within (.field name)
  | none => .good default

def truthWords : List String := ["1", "on", "t", "true", "y", "yes"]

def falsehoodWords : List String := ["0", "off", "f", "false", "n", "no"]

def truth : Value → Checked Bool
  | .bool b => .good b
  | .int n => if n = 0 then .good false else if n = 1 then .good true else .fail .unreadableTruth
  | .float x =>
    if x.isZero then .good false
    else if x.order? (.ofInt 1) = some .eq then .good true
    else .fail .notTruth
  | .text s =>
    let word := String.ofList (s.toList.map Text.asciiLower)
    if truthWords.contains word then .good true
    else if falsehoodWords.contains word then .good false
    else .fail .unreadableTruth
  | _ => .fail .notTruth

def dropZeroFraction (digits : List Char) : List Char :=
  match Text.partitionAt '.' digits with
  | (whole, some fraction) => if fraction.all (· = '0') then whole else digits
  | (_, none) => digits

def hasDoubleUnderscore : List Char → Bool
  | '_' :: '_' :: _ => true
  | _ :: rest => hasDoubleUnderscore rest
  | [] => false

/-- A text without single underscores inside it; nothing if they stand elsewhere. -/
def dropUnderscores (text : List Char) : Option (List Char) :=
  if text.head? = some '_' ∨ text.getLast? = some '_' ∨ hasDoubleUnderscore text then none
  else some (text.filter (· ≠ '_'))

def isOuterBlank (c : Char) : Bool :=
  Reading.isBlankAround c

def integerText (s : String) : Checked Int :=
  match dropUnderscores (dropZeroFraction (Text.trimBy isOuterBlank s.toList)) with
  | none => .fail .unreadableInteger
  | some chars =>
    let (isNegative, digits) := Reading.readSign chars
    if digits.isEmpty ∨ !digits.all Text.isAsciiDigit then .fail .unreadableInteger
    else if integerDigitLimit < chars.length then .fail .integerTooLong
    else
      let n : Int := Reading.number digits
      .good (if isNegative then -n else n)

/-- The size from which on a whole number is not made from a floating-point number. -/
def integerSizeLimit : Int := 9223372036854775808

def integer : Value → Checked Int
  | .bool b => .good (if b then 1 else 0)
  | .int n => .good n
  | .float x =>
    match x.truncate? with
    | none => .fail .notFinite
    | some n =>
      if x.order? (.ofInt n) ≠ some .eq then .fail .fraction
      else if n.natAbs < integerSizeLimit.natAbs then .good n
      else .fail .integerTooLong
  | .text s => integerText s
  | _ => .fail .notInteger

def numberText (s : String) : Checked Binary64 :=
  match dropUnderscores (Text.trimBy isOuterBlank s.toList) with
  | none => .fail .unreadableNumber
  | some chars =>
    if chars.all (fun c => c.toNat < 128) then
      match Reading.float? chars with
      | some x => .good x
      | none => .fail .unreadableNumber
    else .fail .unreadableNumber

def number : Value → Checked Binary64
  | .bool b => .good (.ofInt (if b then 1 else 0))
  | .int n =>
    match Binary64.ofInt n with
    | .infinite _ => .fail .notNumber
    | x => .good x
  | .float x => .good x
  | .text s => numberText s
  | _ => .fail .notNumber

def positive (v : Value) : Checked Binary64 :=
  (number v).andThen fun x =>
    if x.order? (.zero false) = some .gt then .good x else .fail .notGreater

def choice (choices : List (String × α)) : Value → Checked α
  | .text s =>
    match findField choices s with
    | some a => .good a
    | none => .fail .notChoice
  | _ => .fail .notChoice

end Check

end CommandOntology
