set_option autoImplicit false

namespace CommandOntology.Utf8

inductive FaultKind
  | start | continuation | cutShort
  deriving DecidableEq, Repr

/-- A place from which on bytes are not the form of a character: the first of them, where it stands, and
how many they are. -/
structure Fault where
  kind : FaultKind
  byte : UInt8
  position : Nat
  count : Nat
  deriving DecidableEq, Repr

def FaultKind.reason : FaultKind → String
  | start => "invalid start byte"
  | continuation => "invalid continuation byte"
  | cutShort => "unexpected end of data"

def hexByte (b : UInt8) : String :=
  String.ofList [Nat.digitChar (b.toNat / 16), Nat.digitChar (b.toNat % 16)]

def Fault.message (f : Fault) : String :=
  "'utf-8' codec can't decode " ++
    (if f.count = 1 then
      "byte 0x" ++ hexByte f.byte ++ " in position " ++ toString f.position
    else
      "bytes in position " ++ toString f.position ++ "-" ++ toString (f.position + f.count - 1)) ++
    ": " ++ f.kind.reason

/-- How a character goes on after its first byte: how many bytes follow, between which bounds the next
one lies, and what the first one contributes. -/
structure Lead where
  following : Nat
  least : Nat := 0x80
  greatest : Nat := 0xbf
  bits : Nat
  deriving DecidableEq, Repr

/-- The characters that begin with a byte. Bytes that would write a character in more bytes than it
needs, a surrogate or a number beyond the last code point begin none. -/
def lead? (b : UInt8) : Option Lead :=
  let n := b.toNat
  if n < 0x80 then some { following := 0, bits := n }
  else if n < 0xc2 then none
  else if n < 0xe0 then some { following := 1, bits := n - 0xc0 }
  else if n = 0xe0 then some { following := 2, least := 0xa0, bits := 0 }
  else if n = 0xed then some { following := 2, greatest := 0x9f, bits := 0xd }
  else if n < 0xf0 then some { following := 2, bits := n - 0xe0 }
  else if n = 0xf0 then some { following := 3, least := 0x90, bits := 0 }
  else if n < 0xf4 then some { following := 3, bits := n - 0xf0 }
  else if n = 0xf4 then some { following := 3, greatest := 0x8f, bits := 4 }
  else none

structure Partial where
  first : UInt8
  position : Nat
  count : Nat
  rest : Lead
  deriving DecidableEq, Repr

/-- Reads bytes from a position on, in the middle of a character if one is given. The characters so far
are held last first. -/
def decodeFrom (position : Nat) (characters : List Char) (open? : Option Partial) :
    List UInt8 → Except Fault (List Char)
  | [] =>
    match open? with
    | none => .ok characters.reverse
    | some c => .error ⟨.cutShort, c.first, c.position, c.count⟩
  | b :: bytes =>
    match open? with
    | none =>
      match lead? b with
      | none => .error ⟨.start, b, position, 1⟩
      | some lead =>
        if lead.following = 0 then
          decodeFrom (position + 1) (Char.ofNat lead.bits :: characters) none bytes
        else decodeFrom (position + 1) characters (some ⟨b, position, 1, lead⟩) bytes
    | some c =>
      let n := b.toNat
      if n < c.rest.least ∨ c.rest.greatest < n then
        .error ⟨.continuation, c.first, c.position, c.count⟩
      else
        let bits := 64 * c.rest.bits + (n - 0x80)
        if c.rest.following = 1 then
          decodeFrom (position + 1) (Char.ofNat bits :: characters) none bytes
        else
          decodeFrom (position + 1) characters
            (some { c with
              count := c.count + 1
              rest := { following := c.rest.following - 1, bits } }) bytes

def decode (bytes : List UInt8) : Except Fault (List Char) :=
  decodeFrom 0 [] none bytes

def encode (text : String) : List UInt8 :=
  text.toUTF8.toList

def unifyLineEnds : List Char → List Char
  | '\r' :: '\n' :: rest => '\n' :: unifyLineEnds rest
  | '\r' :: rest => '\n' :: unifyLineEnds rest
  | c :: rest => c :: unifyLineEnds rest
  | [] => []

def readText (bytes : List UInt8) : Except Fault String :=
  (decode bytes).map fun characters => String.ofList (unifyLineEnds characters)

end CommandOntology.Utf8
