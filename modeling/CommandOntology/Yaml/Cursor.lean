import CommandOntology.Data.Diagnosis
import CommandOntology.Text.Layout

set_option autoImplicit false

namespace CommandOntology.Yaml

inductive Fault
  | unprintable (c : Char)
  | keyWithoutColon
  | misplacedEntry
  | misplacedKey
  | misplacedValue
  | unexpectedCharacter (c : Char)
  | directive
  | anchor
  | tag
  | blockHeader
  | unclosedQuote
  | unknownEscape
  | unexpectedToken
  | unknownAlias (name : String)
  | repeatedAnchor (name : String)
  | unknownTag (tag : String)
  | wrongKind (tag : String)
  | listAsKey
  | merge
  | secondDocument
  deriving DecidableEq, Repr

/-- Why a text cannot be read: it is malformed, or a value is out of range. -/
inductive ReadError
  | malformed (fault : Fault)
  | range (error : RangeError)
  deriving DecidableEq, Repr

def isBreak (c : Char) : Bool :=
  c == '\n' || c == '\r' || c.toNat == 0x85 || c.toNat == 0x2028 || c.toNat == 0x2029

def isByteOrderMark (c : Char) : Bool :=
  c.toNat == 0xfeff

def endsLine : Option Char → Bool
  | none => true
  | some c => isBreak c

/-- Whether a word ends before a character, if tabs do not end one. -/
def endsWord : Option Char → Bool
  | none => true
  | some c => c == ' ' || isBreak c

def endsToken : Option Char → Bool
  | none => true
  | some c => c == ' ' || c == '\t' || isBreak c

structure Cursor where
  rest : List Char
  index : Nat
  line : Nat
  column : Nat
  deriving Repr

namespace Cursor

def ofText (text : List Char) : Cursor :=
  ⟨text, 0, 0, 0⟩

def peek (c : Cursor) (n : Nat := 0) : Option Char :=
  c.rest[n]?

/-- The cursor behind the next character. The two characters of a line end of two belong together. -/
def next (c : Cursor) : Cursor :=
  match c.rest with
  | [] => c
  | ch :: rest =>
    if ch = '\r' ∧ rest.head? = some '\n' then ⟨rest, c.index + 1, c.line, c.column + 1⟩
    else if isBreak ch then ⟨rest, c.index + 1, c.line + 1, 0⟩
    else ⟨rest, c.index + 1, c.line, if isByteOrderMark ch then c.column else c.column + 1⟩

def skip (c : Cursor) : Nat → Cursor
  | 0 => c
  | n + 1 => c.next.skip n

def span (c : Cursor) (isMember : Char → Bool) : List Char × Cursor :=
  let n := Text.spanLength isMember c.rest
  (c.rest.take n, c.skip n)

def skipSpaces (c : Cursor) : Cursor :=
  (c.span (· == ' ')).2

def skipLine (c : Cursor) : Cursor :=
  (c.span fun ch => !isBreak ch).2

def lineBreak? (c : Cursor) : Option (Char × Cursor) :=
  match c.rest with
  | '\r' :: '\n' :: _ => some ('\n', c.skip 2)
  | ch :: _ =>
    if isBreak ch then some (if 0x2028 ≤ ch.toNat then ch else '\n', c.next) else none
  | [] => none

def skipBreak (c : Cursor) : Cursor :=
  (c.lineBreak?.map (·.2)).getD c

/-- Whether three equal characters come that mark a document when they begin a line. -/
def atMark (c : Cursor) (ch : Char) : Bool :=
  c.rest.take 3 == [ch, ch, ch] && endsToken (c.peek 3)

def atDocumentMark (c : Cursor) : Bool :=
  c.atMark '-' || c.atMark '.'

/-- The cursor behind spaces, a comment and the line end; nothing if the line goes on otherwise. -/
def finishLine? (c : Cursor) : Option Cursor :=
  let c := c.skipSpaces
  let c := if c.peek = some '#' then c.skipLine else c
  if endsLine c.peek then some c.skipBreak else none

end Cursor

end CommandOntology.Yaml
