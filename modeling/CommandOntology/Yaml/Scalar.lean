import CommandOntology.Text.CharClass
import CommandOntology.Yaml.Cursor

set_option autoImplicit false

namespace CommandOntology.Yaml

open CommandOntology.Text

def folded (first : Char) (breaks : List Char) : List Char :=
  if first ≠ '\n' then first :: breaks
  else if breaks.isEmpty then [' ']
  else breaks

def isFlowIndicator (c : Char) : Bool :=
  ",[]\x7b\x7d".toList.contains c

def endsPlainAtColon (inFlow : Bool) (follows : Option Char) : Bool :=
  endsToken follows || (inFlow && follows.any isFlowIndicator)

def plainLength (inFlow : Bool) : List Char → Nat
  | [] => 0
  | c :: rest =>
    if endsToken (some c) then 0
    else if c = ':' ∧ endsPlainAtColon inFlow rest.head? then 0
    else if inFlow ∧ (c = '?' ∨ isFlowIndicator c) then 0
    else plainLength inFlow rest + 1

/-- The line ends among spaces and line ends; nothing if a document ends there. -/
def plainBreaks (c : Cursor) : (room : Nat) → Option (List Char) × Cursor
  | 0 => (some [], c)
  | room + 1 =>
    if c.peek = some ' ' then plainBreaks c.next room
    else
      match c.lineBreak? with
      | none => (some [], c)
      | some (ch, c) =>
        if c.atDocumentMark then (none, c)
        else
          let (breaks, c) := plainBreaks c room
          (breaks.map (ch :: ·), c)

/-- What stands between words of a plain scalar. It is empty where the scalar ends. -/
structure PlainGap where
  text : List Char
  cursor : Cursor
  hasBreak : Bool

def plainGap (c : Cursor) : PlainGap :=
  let (blanks, c) := c.span (· == ' ')
  match c.lineBreak? with
  | none => ⟨blanks, c, false⟩
  | some (first, c) =>
    if c.atDocumentMark then ⟨[], c, true⟩
    else
      match plainBreaks c c.rest.length with
      | (none, c) => ⟨[], c, true⟩
      | (some breaks, c) => ⟨folded first breaks, c, true⟩

/-- A plain scalar, and whether line ends follow it. Its further lines are indented by `indent` at
least. -/
structure PlainScalar where
  text : List Char
  cursor : Cursor
  hasBreak : Bool

def plainFrom (inFlow : Bool) (indent : Int) (gap : PlainGap) : (room : Nat) → PlainScalar
  | 0 => ⟨[], gap.cursor, gap.hasBreak⟩
  | room + 1 =>
    let c := gap.cursor
    let length := if c.peek = some '#' then 0 else plainLength inFlow c.rest
    if length = 0 then ⟨[], c, gap.hasBreak⟩
    else
      let text := gap.text ++ c.rest.take length
      let after := plainGap (c.skip length)
      if after.text.isEmpty ∨ after.cursor.peek = some '#' ∨
          (!inFlow ∧ (after.cursor.column : Int) < indent) then
        ⟨text, after.cursor, after.hasBreak⟩
      else
        let more := plainFrom inFlow indent after room
        ⟨text ++ more.text, more.cursor, more.hasBreak⟩

def plainScalar (inFlow : Bool) (indent : Int) (c : Cursor) : PlainScalar :=
  plainFrom inFlow indent ⟨[], c, false⟩ (c.rest.length + 1)

def quotedBreaks (c : Cursor) : (room : Nat) → Except Fault (List Char × Cursor)
  | 0 => .ok ([], c)
  | room + 1 => do
    if c.atDocumentMark then throw .unclosedQuote
    let c := (c.span fun ch => ch == ' ' || ch == '\t').2
    match c.lineBreak? with
    | none => return ([], c)
    | some (ch, c) =>
      let (breaks, c) ← quotedBreaks c room
      return (ch :: breaks, c)

def quotedGap (c : Cursor) : Except Fault (List Char × Cursor) := do
  let (blanks, c) := c.span fun ch => ch == ' ' || ch == '\t'
  match c.lineBreak? with
  | none => if c.peek.isNone then throw .unclosedQuote else return (blanks, c)
  | some (first, c) =>
    let (breaks, c) ← quotedBreaks c c.rest.length
    return (folded first breaks, c)

def simpleEscape? (c : Char) : Option Char :=
  match c with
  | '0' => some '\x00'
  | 'a' => some '\x07'
  | 'b' => some '\x08'
  | 't' => some '\t'
  | '\t' => some '\t'
  | 'n' => some '\n'
  | 'v' => some '\x0b'
  | 'f' => some '\x0c'
  | 'r' => some '\r'
  | 'e' => some '\x1b'
  | ' ' => some ' '
  | '"' => some '"'
  | '\\' => some '\\'
  | '/' => some '/'
  | 'N' => some (Char.ofNat 0x85)
  | '_' => some (Char.ofNat 0xa0)
  | 'L' => some (Char.ofNat 0x2028)
  | 'P' => some (Char.ofNat 0x2029)
  | _ => none

def escapeLength? (c : Char) : Option Nat :=
  match c with
  | 'x' => some 2
  | 'u' => some 4
  | 'U' => some 8
  | _ => none

/-- The text of an escape, whose first character was a backslash. -/
def quotedEscape (c : Cursor) : Except ReadError (List Char × Cursor) :=
  match c.peek with
  | none => .error (.malformed .unknownEscape)
  | some ch =>
    match simpleEscape? ch, escapeLength? ch with
    | some image, _ => .ok ([image], c.next)
    | none, some length =>
      let digits := c.next.rest.take length
      if digits.length = length ∧ digits.all isHexDigit then
        let code := digits.foldl (fun n d => 16 * n + hexValue d) 0
        if 0x10ffff < code then .error (.range (.ofCodePoint code))
        else .ok ([Char.ofNat code], c.next.skip length)
      else .error (.malformed .unknownEscape)
    | none, none =>
      match c.lineBreak? with
      | none => .error (.malformed .unknownEscape)
      | some (_, c) => (quotedBreaks c (c.rest.length + 1)).mapError .malformed

/-- Reads a quoted scalar up to its closing quote. In single quotes there are no escapes, and a quote is
written twice. -/
def quotedFrom (quote : Char) (c : Cursor) : (room : Nat) → Except ReadError (List Char × Cursor)
  | 0 => .error (.malformed .unclosedQuote)
  | room + 1 => do
    let (piece, c) ←
      match c.peek with
      | none => throw (.malformed .unclosedQuote)
      | some ch =>
        if endsToken (some ch) then (quotedGap c).mapError .malformed
        else if ch = quote then
          if quote = '\'' ∧ c.peek 1 = some quote then pure ([quote], c.skip 2)
          else return ([], c.next)
        else if quote = '"' ∧ ch = '\\' then quotedEscape c.next
        else pure ([ch], c.next)
    let (rest, c) ← quotedFrom quote c room
    return (piece ++ rest, c)

def quotedScalar (quote : Char) (c : Cursor) : Except ReadError (List Char × Cursor) :=
  quotedFrom quote c.next (c.rest.length + 1)

inductive Chomping
  | strip | clip | keep
  deriving DecidableEq, Repr

/-- The header of a block scalar: the treatment of its end and its indentation, if it is given. -/
structure BlockHeader where
  chomping : Chomping
  increment : Option Nat

def chomping? : Option Char → Option Chomping
  | some '+' => some .keep
  | some '-' => some .strip
  | _ => none

def increment? : Option Char → Option Nat
  | some c => if isAsciiDigit c then some (c.toNat - '0'.toNat) else none
  | none => none

def blockHeader (c : Cursor) : Except Fault (BlockHeader × Cursor) := do
  let (header, c) : BlockHeader × Cursor :=
    match chomping? c.peek, increment? c.peek with
    | some chomping, _ =>
      match increment? (c.peek 1) with
      | some n => (⟨chomping, some n⟩, c.skip 2)
      | none => (⟨chomping, none⟩, c.next)
    | none, some n =>
      match chomping? (c.peek 1) with
      | some chomping => (⟨chomping, some n⟩, c.skip 2)
      | none => (⟨.clip, some n⟩, c.next)
    | none, none => (⟨.clip, none⟩, c)
  if header.increment = some 0 ∨ !endsWord c.peek then throw .blockHeader
  match c.finishLine? with
  | some c => return (header, c)
  | none => throw .blockHeader

/-- The empty lines at the start of a block scalar and the widest indentation among them and of the line
behind them. -/
def blockIndentation (c : Cursor) (widest : Nat) : (room : Nat) → List Char × Nat × Cursor
  | 0 => ([], widest, c)
  | room + 1 =>
    if c.peek = some ' ' then
      blockIndentation c.next (max widest (c.column + 1)) room
    else
      match c.lineBreak? with
      | none => ([], widest, c)
      | some (ch, c) =>
        let (breaks, widest, c) := blockIndentation c widest room
        (ch :: breaks, widest, c)

def skipIndent (indent : Nat) (c : Cursor) : (room : Nat) → Cursor
  | 0 => c
  | room + 1 => if c.column < indent ∧ c.peek = some ' ' then skipIndent indent c.next room else c

/-- The empty lines in a block scalar, and the cursor behind the indentation that follows. -/
def blockBreaks (indent : Nat) (c : Cursor) : (room : Nat) → List Char × Cursor
  | 0 => ([], c)
  | room + 1 =>
    let c := skipIndent indent c indent
    match c.lineBreak? with
    | none => ([], c)
    | some (ch, c) =>
      let (breaks, c) := blockBreaks indent c room
      (ch :: breaks, c)

def isBlankStart : Option Char → Bool
  | some c => c == ' ' || c == '\t'
  | none => false

def blockLines (folds : Bool) (chomping : Chomping) (indent : Nat) (breaks : List Char) (c : Cursor) :
    (room : Nat) → List Char × Cursor
  | 0 => ([], c)
  | room + 1 =>
    let startsBlank := isBlankStart c.peek
    let (line, c) := c.span fun ch => !isBreak ch
    let (ending, c) :=
      match c.lineBreak? with
      | some (ch, c) => ([ch], c)
      | none => ([], c)
    let (after, c) := blockBreaks indent c (c.rest.length + 1)
    if c.column = indent ∧ c.peek.isSome then
      let joint :=
        if folds ∧ ending = ['\n'] ∧ !startsBlank ∧ !isBlankStart c.peek then
          if after.isEmpty then [' '] else []
        else ending
      let (rest, c) := blockLines folds chomping indent after c room
      (breaks ++ line ++ joint ++ rest, c)
    else
      (breaks ++ line ++ (if chomping = .strip then [] else ending)
        ++ (if chomping = .keep then after else []), c)

/-- Reads a block scalar behind its indicator. `parent` is the indentation of what it belongs to. -/
def blockScalar (folds : Bool) (parent : Int) (c : Cursor) : Except Fault (List Char × Cursor) := do
  let (header, c) ← blockHeader c
  let least := max 1 (parent + 1).toNat
  let room := c.rest.length + 1
  let (breaks, indent, c) :=
    match header.increment with
    | some n =>
      let indent := least + n - 1
      let (breaks, c) := blockBreaks indent c room
      (breaks, indent, c)
    | none =>
      let (breaks, widest, c) := blockIndentation c 0 room
      (breaks, max least widest, c)
  if c.column = indent ∧ c.peek.isSome then
    return blockLines folds header.chomping indent breaks c room
  else return (if header.chomping = .keep then breaks else [], c)

end CommandOntology.Yaml
