import CommandOntology.Yaml.Token

set_option autoImplicit false

/-!
# Splitting YAML into tokens

Indentation becomes tokens that begin and end blocks. A key of a mapping is recognised by the colon behind
it, so places where one may have begun are kept until the colon comes or the line ends.
-/

namespace CommandOntology.Yaml

/-- A place where a key may have begun: the number of tokens before it, and whether a colon has to
come. -/
structure OpenKey where
  place : Nat
  isRequired : Bool
  index : Nat
  line : Nat
  column : Nat
  deriving Repr

structure Scan where
  cursor : Cursor
  tokens : List Token
  /-- The indentation of the innermost block, and of those around it. -/
  indent : Int
  outer : List Int
  depth : Nat
  allowsKey : Bool
  /-- The open keys by the number of flow collections around them. -/
  keys : List (Nat × OpenKey)
  deriving Repr

namespace Scan

def start (text : List Char) : Scan :=
  let c := Cursor.ofText text
  let c := if c.peek.any isByteOrderMark then c.next else c
  ⟨c, [], -1, [], 0, true, []⟩

def inFlow (s : Scan) : Bool :=
  s.depth ≠ 0

def emit (s : Scan) (t : Token) : Scan :=
  { s with tokens := t :: s.tokens }

def insertAt (s : Scan) (place : Nat) (inserted : List Token) : Scan :=
  let later := s.tokens.length - place
  { s with tokens := s.tokens.take later ++ inserted.reverse ++ s.tokens.drop later }

/-- The longest distance between the start of a key and its colon. -/
def keyLimit : Nat := 1024

def dropStaleKeys (s : Scan) : Except Fault Scan :=
  let isStale (k : OpenKey) : Bool := k.line ≠ s.cursor.line || s.cursor.index > k.index + keyLimit
  if s.keys.any fun k => isStale k.2 && k.2.isRequired then .error .keyWithoutColon
  else .ok { s with keys := s.keys.filter fun k => !isStale k.2 }

def dropKey (s : Scan) : Except Fault Scan :=
  if s.keys.any fun k => k.1 == s.depth && k.2.isRequired then .error .keyWithoutColon
  else .ok { s with keys := s.keys.filter (·.1 != s.depth) }

def saveKey (s : Scan) : Except Fault Scan :=
  if s.allowsKey then do
    let required := !s.inFlow && s.indent == (s.cursor.column : Int)
    let s ← s.dropKey
    let c := s.cursor
    return { s with
      keys := (s.depth, ⟨s.tokens.length, required, c.index, c.line, c.column⟩) :: s.keys }
  else .ok s

def unwind (s : Scan) (column : Int) : (room : Nat) → Scan
  | 0 => s
  | room + 1 =>
    if !s.inFlow ∧ s.indent > column then
      match s.outer with
      | [] => s
      | indent :: outer => ({ s with indent, outer }.emit .blockEnd).unwind column room
    else s

def unwindTo (s : Scan) (column : Int) : Scan :=
  s.unwind column (s.outer.length + 1)

/-- Begins a block at a column if it is indented more than the innermost one. -/
def indentTo (s : Scan) (column : Nat) (block : Token) (place : Nat) : Scan :=
  if s.indent < column then
    { s with indent := column, outer := s.indent :: s.outer }.insertAt place [block]
  else s

/-- Skips spaces, comments and line ends. A key may begin on a new line of a block. -/
def skipToToken (s : Scan) : (room : Nat) → Scan
  | 0 => s
  | room + 1 =>
    let c := s.cursor.skipSpaces
    let c := if c.peek = some '#' then c.skipLine else c
    match c.lineBreak? with
    | none => { s with cursor := c }
    | some (_, c) => { s with cursor := c, allowsKey := s.allowsKey || !s.inFlow }.skipToToken room

def accept (s : Scan) (n : Nat) (t : Token) : Scan :=
  { s with cursor := s.cursor.skip n }.emit t

/-- What comes to an end at the side of a document: its blocks, and the chance of a key. -/
def leaveDocument (s : Scan) : Except Fault Scan := do
  let s ← (s.unwindTo (-1)).dropKey
  return { s with allowsKey := false }

def openFlow (s : Scan) (t : Token) : Except Fault Scan := do
  let s ← s.saveKey
  return { s with depth := s.depth + 1, allowsKey := true }.accept 1 t

def closeFlow (s : Scan) (t : Token) : Except Fault Scan := do
  let s ← s.dropKey
  return { s with depth := s.depth - 1, allowsKey := false }.accept 1 t

def flowEntry (s : Scan) : Except Fault Scan := do
  let s ← { s with allowsKey := true }.dropKey
  return s.accept 1 .flowEntry

/-- Begins a block where an indicator stands, which is allowed at the start of a line only. -/
def beginBlock (s : Scan) (block : Token) (fault : Fault) : Except Fault Scan :=
  if s.inFlow then .ok s
  else if s.allowsKey then .ok (s.indentTo s.cursor.column block s.tokens.length)
  else .error fault

def blockEntry (s : Scan) : Except Fault Scan := do
  let s ← s.beginBlock .blockSequence .misplacedEntry
  let s ← { s with allowsKey := true }.dropKey
  return s.accept 1 .blockEntry

def explicitKey (s : Scan) : Except Fault Scan := do
  let s ← s.beginBlock .blockMapping .misplacedKey
  let s ← { s with allowsKey := !s.inFlow }.dropKey
  return s.accept 1 .key

/-- A colon: it makes a key of what began at the open place, if there is one. -/
def valueMark (s : Scan) : Except Fault Scan :=
  match s.keys.find? (·.1 == s.depth) with
  | some (_, k) =>
    let s := { s with keys := s.keys.filter (·.1 != s.depth), allowsKey := false }.insertAt k.place [.key]
    let s := if s.inFlow then s else s.indentTo k.column .blockMapping k.place
    .ok (s.accept 1 .value)
  | none => do
    let s ← s.beginBlock .blockMapping .misplacedValue
    let s ← { s with allowsKey := !s.inFlow }.dropKey
    return s.accept 1 .value

/-- A token with which a key may begin, and behind which none may. -/
def node (s : Scan) (read : Cursor → Except ReadError (Token × Cursor)) : Except ReadError Scan := do
  let s ← s.saveKey.mapError .malformed
  let (token, cursor) ← read s.cursor
  return { s with cursor, allowsKey := false }.emit token

def plain (s : Scan) : Except Fault Scan := do
  let s ← s.saveKey
  let p := plainScalar s.inFlow (s.indent + 1) s.cursor
  return { s with cursor := p.cursor, allowsKey := p.hasBreak }.emit
    (.scalar (String.ofList p.text) true)

def block (s : Scan) (folds : Bool) : Except Fault Scan := do
  let s ← { s with allowsKey := true }.dropKey
  let (text, cursor) ← blockScalar folds s.indent s.cursor.next
  return { s with cursor }.emit (.scalar (String.ofList text) false)

def beginsPlain (inFlow : Bool) (c : Char) (follows : Option Char) : Bool :=
  (!endsToken (some c) && !"-?:,[]\x7b\x7d#&*!|>'\"%@\x60".toList.contains c) ||
    (!endsToken follows && (c == '-' || (!inFlow && (c == '?' || c == ':'))))

def token (s : Scan) (ch : Char) : Except ReadError Scan :=
  let c := s.cursor
  let follows := c.peek 1
  let atLineStart := c.column = 0
  let quoted (c : Cursor) : Except ReadError (Token × Cursor) := do
    let (text, c) ← quotedScalar ch c
    return (.scalar (String.ofList text) false, c)
  if ch = '%' ∧ atLineStart then do
    let s ← s.leaveDocument.mapError .malformed
    let (token, cursor) ← (readDirective s.cursor).mapError .malformed
    return { s with cursor }.emit token
  else if atLineStart ∧ c.atMark '-' then
    (s.leaveDocument.map fun s => s.accept 3 .documentStart).mapError .malformed
  else if atLineStart ∧ c.atMark '.' then
    (s.leaveDocument.map fun s => s.accept 3 .documentEnd).mapError .malformed
  else if ch = '[' then (s.openFlow .flowSequence).mapError .malformed
  else if ch = '\x7b' then (s.openFlow .flowMapping).mapError .malformed
  else if ch = ']' then (s.closeFlow .flowSequenceEnd).mapError .malformed
  else if ch = '\x7d' then (s.closeFlow .flowMappingEnd).mapError .malformed
  else if ch = ',' then s.flowEntry.mapError .malformed
  else if ch = '-' ∧ endsToken follows then s.blockEntry.mapError .malformed
  else if ch = '?' ∧ (s.inFlow ∨ endsToken follows) then s.explicitKey.mapError .malformed
  else if ch = ':' ∧ (s.inFlow ∨ endsToken follows) then s.valueMark.mapError .malformed
  else if ch = '*' then
    s.node fun c => ((readAnchor c).map fun r => (.alias r.1, r.2)).mapError .malformed
  else if ch = '&' then
    s.node fun c => ((readAnchor c).map fun r => (.anchor r.1, r.2)).mapError .malformed
  else if ch = '!' then s.node fun c => (readTag c).mapError .malformed
  else if ch = '|' ∧ !s.inFlow then (s.block false).mapError .malformed
  else if ch = '>' ∧ !s.inFlow then (s.block true).mapError .malformed
  else if ch = '\'' ∨ ch = '"' then s.node quoted
  else if beginsPlain s.inFlow ch follows then s.plain.mapError .malformed
  else .error (.malformed (.unexpectedCharacter ch))

/-- Goes to the next token, ending the keys and blocks that end before it. -/
def advance (s : Scan) : Except Fault Scan := do
  let s ← (s.skipToToken (s.cursor.rest.length + 1)).dropStaleKeys
  return s.unwindTo s.cursor.column

/-- All tokens of a text, last first. A text that cannot be read to its end has a last token that says
why. -/
def run (s : Scan) : (room : Nat) → List Token
  | 0 => s.tokens
  | room + 1 =>
    match s.advance with
    | .error fault => .broken (.malformed fault) :: s.tokens
    | .ok s =>
      match s.cursor.peek with
      | none =>
        match s.leaveDocument with
        | .error fault => .broken (.malformed fault) :: s.tokens
        | .ok s => .streamEnd :: s.tokens
      | some ch =>
        match s.token ch with
        | .error error => .broken error :: s.tokens
        | .ok s => s.run room

end Scan

def isAllowed (c : Char) : Bool :=
  c == '\t' || c == '\n' || c == '\r' || (0x20 ≤ c.toNat && c.toNat ≤ 0x7e) || c.toNat == 0x85 ||
    (0xa0 ≤ c.toNat && c.toNat ≤ 0xfffd) || 0x10000 ≤ c.toNat

def tokens (text : String) : List Token :=
  match text.toList.find? fun c => !isAllowed c with
  | some c => [.broken (.malformed (.unprintable c))]
  | none => ((Scan.start text.toList).run (text.length + 1)).reverse

end CommandOntology.Yaml
