import CommandOntology.Text.CharClass
import CommandOntology.Text.Quoted

set_option autoImplicit false

namespace CommandOntology.Iri

def isUnreserved (c : Char) : Bool :=
  Text.isAsciiAlphanumeric c || c == '_' || c == '.' || c == '-' || c == '~'

def capitalHexDigit (value : Nat) : Char :=
  if value < 10 then Char.ofNat ('0'.toNat + value) else Char.ofNat ('A'.toNat + (value - 10))

def percentByte (byte : UInt8) : List Char :=
  ['%', capitalHexDigit (byte.toNat / 16), capitalHexDigit (byte.toNat % 16)]

def encodeChar (c : Char) : List Char :=
  if isUnreserved c then [c] else (String.utf8EncodeChar c).flatMap percentByte

def encodeChars (text : List Char) : List Char :=
  text.flatMap encodeChar

def encode (text : String) : String :=
  String.ofList (encodeChars text.toList)

end CommandOntology.Iri
