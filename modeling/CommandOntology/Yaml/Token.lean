import CommandOntology.Yaml.Scalar

set_option autoImplicit false

namespace CommandOntology.Yaml

open CommandOntology.Text

inductive Directive
  | version (major : Nat)
  | tag (handle start : String)
  | other
  deriving DecidableEq, Repr

inductive Token
  | directive (d : Directive)
  | documentStart
  | documentEnd
  | blockSequence
  | blockMapping
  | blockEnd
  | flowSequence
  | flowSequenceEnd
  | flowMapping
  | flowMappingEnd
  | flowEntry
  | blockEntry
  | key
  | value
  | alias (name : String)
  | anchor (name : String)
  | tag (handle : Option String) (rest : String)
  | scalar (text : String) (isPlain : Bool)
  | streamEnd
  /-- The rest of the text cannot be read. -/
  | broken (error : ReadError)
  deriving DecidableEq, Repr

def isNameChar (c : Char) : Bool :=
  isAsciiAlphanumeric c || c == '-' || c == '_'

def readName (c : Cursor) (fault : Fault) : Except Fault (String × Cursor) :=
  match c.span isNameChar with
  | ([], _) => .error fault
  | (name, c) => .ok (String.ofList name, c)

def followsAnchor (c : Option Char) : Bool :=
  endsToken c || c.any "?:,]\x7d%@\x60".toList.contains

def readAnchor (c : Cursor) : Except Fault (String × Cursor) := do
  let (name, c) ← readName c.next .anchor
  if followsAnchor c.peek then return (name, c) else throw .anchor

def isTagChar (c : Char) : Bool :=
  isAsciiAlphanumeric c || "-;/?:@&=+$,_.!~*'()[]%".toList.contains c

/-- The bytes of percent signs with two digits each; nothing if a sign has none. -/
def percentBytes : List Char → Option (List UInt8)
  | '%' :: a :: b :: rest =>
    if isHexDigit a ∧ isHexDigit b then
      (percentBytes rest).map (UInt8.ofNat (16 * hexValue a + hexValue b) :: ·)
    else none
  | '%' :: _ => none
  | _ => some []

/-- The number of characters of the percent signs that come next, with their digits. -/
def percentLength : List Char → Nat
  | '%' :: _ :: _ :: rest => percentLength rest + 3
  | _ => 0

def decodeTag (text : List Char) : (room : Nat) → Option (List Char)
  | 0 => some []
  | room + 1 =>
    match text with
    | [] => some []
    | '%' :: _ => do
      let bytes ← percentBytes text
      let decoded ← String.fromUTF8? (ByteArray.mk bytes.toArray)
      return decoded.toList ++ (← decodeTag (text.drop (percentLength text)) room)
    | c :: rest => (decodeTag rest room).map (c :: ·)

def readTagRest (c : Cursor) : Except Fault (String × Cursor) :=
  let (text, after) := c.span isTagChar
  match decodeTag text text.length with
  | some decoded => if text.isEmpty then .error .tag else .ok (String.ofList decoded, after)
  | none => .error .tag

/-- A tag handle: an exclamation mark, or a name between two of them. -/
def readHandle (c : Cursor) : Except Fault (String × Cursor) :=
  if c.peek ≠ some '!' then .error .tag
  else if c.peek 1 = some ' ' then .ok ("!", c.next)
  else
    let (name, after) := c.next.span isNameChar
    if after.peek = some '!' then .ok (String.ofList ('!' :: name ++ ['!']), after.next)
    else .error .tag

def hasHandle (word : List Char) : Bool :=
  (word.takeWhile fun c => !endsWord (some c)).contains '!'

/-- A tag: a whole one between angle brackets, a lone exclamation mark, or a handle and a rest. -/
def readTag (c : Cursor) : Except Fault (Token × Cursor) := do
  let (token, c) ←
    if c.peek 1 = some '<' then do
      let (rest, c) ← readTagRest (c.skip 2)
      if c.peek ≠ some '>' then throw .tag
      pure (Token.tag none rest, c.next)
    else if endsToken (c.peek 1) then pure (Token.tag none "!", c.next)
    else do
      let (handle, c) ← if hasHandle (c.rest.drop 1) then readHandle c else pure ("!", c.next)
      let (rest, c) ← readTagRest c
      pure (Token.tag (some handle) rest, c)
  if endsWord c.peek then return (token, c) else throw .tag

def readNumber (c : Cursor) : Except Fault (Nat × Cursor) :=
  match c.span isAsciiDigit with
  | ([], _) => .error .directive
  | (digits, c) => .ok (digits.foldl (fun n d => 10 * n + digitValue d) 0, c)

def readDirective (c : Cursor) : Except Fault (Token × Cursor) := do
  let (name, c) ← readName c.next .directive
  if !endsWord c.peek then throw .directive
  let (directive, c) ←
    match name with
    | "YAML" => do
      let (major, c) ← readNumber c.skipSpaces
      if c.peek ≠ some '.' then throw .directive
      let (_, c) ← readNumber c.next
      if !endsWord c.peek then throw .directive
      pure (Directive.version major, c)
    | "TAG" => do
      let (handle, c) ← readHandle c.skipSpaces
      if c.peek ≠ some ' ' then throw .directive
      let (start, c) ← readTagRest c.skipSpaces
      if !endsWord c.peek then throw .directive
      pure (Directive.tag handle start, c)
    | _ => pure (Directive.other, c.skipLine)
  match c.finishLine? with
  | some c => return (.directive directive, c)
  | none => throw .directive

end CommandOntology.Yaml
