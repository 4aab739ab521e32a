import CommandOntology.Number.Reading
import CommandOntology.Yaml.Node

set_option autoImplicit false

namespace CommandOntology.Yaml

open CommandOntology.Text

def digitOf? (base : Nat) (c : Char) : Option Nat :=
  if isHexDigit c ∧ hexValue c < base then some (hexValue c) else none

def numberInBase (base : Nat) (digits : List Char) : Except ReadError Nat :=
  match digits.mapM (digitOf? base) with
  | some values =>
    if values.isEmpty then
      .error (.range (.value ("invalid literal for int() with base " ++ toString base ++ ": ''")))
    else .ok (values.foldl (fun n d => base * n + d) 0)
  | none =>
    .error (.range (.value ("invalid literal for int() with base " ++ toString base ++ ": "
      ++ Text.quoted (String.ofList digits))))

def decimalNumber (digits : List Char) : Except ReadError Int :=
  (Reading.integer (String.ofList digits)).mapError fun e => .range (.value e.message)

def sexagesimal (groups : List (List Char)) : Except ReadError Int := do
  let numbers ← groups.mapM decimalNumber
  return numbers.foldl (fun n d => 60 * n + d) 0

/-- The text of a number without underscores and without its sign, and whether that is a minus. -/
def numberText (text : String) : Bool × List Char :=
  let chars := text.toList.filter (· ≠ '_')
  (chars.head? == some '-', Tag.unsigned chars)

def integerValue (text : String) : Except ReadError Value := do
  let (isNegative, digits) := numberText text
  let n : Int ←
    match digits with
    | ['0'] => pure 0
    | '0' :: 'b' :: rest => (numberInBase 2 rest).map Int.ofNat
    | '0' :: 'x' :: rest => (numberInBase 16 rest).map Int.ofNat
    | '0' :: _ => (numberInBase 8 digits).map Int.ofNat
    | _ => sexagesimal (splitOn ':' digits)
  return .int (if isNegative then -n else n)

/-- The number that groups write in base sixty if the last has a point. -/
def sexagesimalFloat (isNegative : Bool) (digits : List Char) : Except ReadError Value := do
  let (whole, fraction) := partitionAt '.' digits
  let fraction := fraction.getD []
  let n ← sexagesimal (splitOn ':' whole)
  let all := n.toNat * Nat.pow 10 fraction.length + decimalValue fraction
  return .float (Binary64.ofDecimal isNegative all (-(fraction.length : Int)))
where
  decimalValue (digits : List Char) : Nat :=
    digits.foldl (fun n c => 10 * n + digitValue c) 0

def floatValue (text : String) : Except ReadError Value :=
  let (isNegative, digits) := numberText text
  let word := String.ofList (digits.map asciiLower)
  if word = ".inf" then .ok (.float (.infinite isNegative))
  else if word = ".nan" then .ok (.float .nan)
  else if digits.contains ':' then sexagesimalFloat isNegative digits
  else
    match Reading.float word with
    | .ok (.finite _ mantissa exponent) => .ok (.float (.finite isNegative mantissa exponent))
    | .ok (.infinite _) => .ok (.float (.infinite isNegative))
    | .ok .nan => .ok (.float .nan)
    | .error e => .error (.range (.value e.message))

def digitsValue (digits : List Char) : Nat :=
  digits.foldl (fun n c => 10 * n + digitValue c) 0

def zoneMinutes (zone : Option Tag.ZoneText) : Int :=
  match zone with
  | none => 0
  | some z =>
    let n : Int := digitsValue z.hours * 60 + digitsValue z.minutes
    if z.isNegative then -n else n

def timestampValue (text : String) : Except ReadError Value :=
  let outOfRange {α : Type} (r : Except String α) : Except ReadError α :=
    r.mapError fun message => .range (.value message)
  match Tag.readDate? text.toList with
  | none => .error (.malformed (.wrongKind Tag.timestamp))
  | some d =>
    let date := Date.ofParts (digitsValue d.year) (digitsValue d.month) (digitsValue d.day)
    match d.time with
    | none => (outOfRange date).map .date
    | some rest =>
      match Tag.readTime? rest with
      | none => .error (.malformed (.wrongKind Tag.timestamp))
      | some t => do
        let micro := digitsValue ((t.fraction ++ List.replicate 6 '0').take 6)
        let date ← outOfRange date
        let moment ← outOfRange (Moment.ofParts date (digitsValue t.hour) (digitsValue t.minute)
          (digitsValue t.second) micro (t.zone.map zoneMinutes))
        return .moment moment

def scalarValue (tag text : String) : Except ReadError Value :=
  if tag = Tag.text then .ok (.text text)
  else if tag = Tag.null then .ok .null
  else if tag = Tag.boolean then
    match findField Tag.truthWords (String.ofList (text.toList.map asciiLower)) with
    | some b => .ok (.bool b)
    | none => .error (.malformed (.wrongKind tag))
  else if tag = Tag.integer then integerValue text
  else if tag = Tag.float then floatValue text
  else if tag = Tag.timestamp then timestampValue text
  else .error (.malformed (.unknownTag tag))

/-- Whether two keys of a mapping are the same. Numbers and truth values are compared by value. -/
def sameKey : Value → Value → Bool
  | .null, .null => true
  | .text a, .text b => a == b
  | .date a, .date b => a == b
  | .moment a, .moment b => a == b
  | a, b =>
    match number? a, number? b with
    | some x, some y => x.order? y == some .eq
    | _, _ => false
where
  number? : Value → Option Binary64
    | .bool b => some (.ofInt (if b then 1 else 0))
    | .int n => some (.ofInt n)
    | .float x => some x
    | _ => none

/-- Puts an entry into a mapping: in the place of one with the same key, or at the end. -/
def putEntry (entries : List (Value × Value)) (key value : Value) : List (Value × Value) :=
  match entries with
  | [] => [(key, value)]
  | (k, v) :: rest => if sameKey k key then (k, value) :: rest else (k, v) :: putEntry rest key value

def textFields? (entries : List (Value × Value)) : Option (List (String × Value)) :=
  entries.mapM fun entry =>
    match entry.1 with
    | .text name => some (name, entry.2)
    | _ => none

def gather (entries : List (Value × Value)) : Value :=
  let entries := entries.foldl (fun gathered e => putEntry gathered e.1 e.2) []
  match textFields? entries with
  | some fields => .record fields
  | none => .mapping entries

def isKey : Value → Bool
  | .list _ => false
  | .record _ => false
  | .mapping _ => false
  | _ => true

/-- The entries of a mapping: those that it takes in, and its own. -/
structure Entries where
  taken : List (Value × Value)
  own : List (Value × Value)

def Entries.all (e : Entries) : List (Value × Value) :=
  e.taken ++ e.own

mutual

def nodeValue : Node → Except ReadError Value
  | .scalar tag text => scalarValue tag text
  | .sequence tag items =>
    if tag = Tag.sequence then do return .list (← itemValues items)
    else .error (.malformed (.unknownTag tag))
  | .mapping tag entries =>
    if tag = Tag.mapping then do return gather (← entryValues entries).all
    else .error (.malformed (.unknownTag tag))

def itemValues : List Node → Except ReadError (List Value)
  | [] => .ok []
  | node :: rest => do return (← nodeValue node) :: (← itemValues rest)

/-- The entries of a mapping. A key that is an equals sign is text. -/
def entryValues : List (Node × Node) → Except ReadError Entries
  | [] => .ok ⟨[], []⟩
  | (key, value) :: rest =>
    if key.tag = Tag.merge then do
      let taken ← takenEntries value
      let others ← entryValues rest
      return ⟨taken ++ others.taken, others.own⟩
    else do
      let key ← if key.tag = Tag.value then pure (.text "=") else nodeValue key
      if !isKey key then throw (.malformed .listAsKey)
      let value ← nodeValue value
      let others ← entryValues rest
      return ⟨others.taken, (key, value) :: others.own⟩

/-- The entries that a mapping takes in: those of another, or of several, the first of which prevails. -/
def takenEntries : Node → Except ReadError (List (Value × Value))
  | .mapping _ entries => do return (← entryValues entries).all
  | .sequence _ items => takenFromAll items
  | .scalar _ _ => .error (.malformed .merge)

def takenFromAll : List Node → Except ReadError (List (Value × Value))
  | [] => .ok []
  | .mapping _ entries :: rest => do
    let first ← entryValues entries
    return (← takenFromAll rest) ++ first.all
  | _ :: _ => .error (.malformed .merge)

end

def read (text : String) : Except ReadError Value := do
  match ← parse text with
  | none => return .null
  | some node => nodeValue node

end CommandOntology.Yaml
