import CommandOntology.Text.Category

set_option autoImplicit false

/-!
# Classes of characters

The classes that names, numbers and layout are made of. Each is decided on ASCII by plain comparisons
and beyond ASCII by the general category and a short list of exceptions.
-/

namespace CommandOntology.Text

def inRanges (ranges : List (Nat × Nat)) (code : Nat) : Bool :=
  ranges.any fun r => r.1 ≤ code && code ≤ r.2

def isAsciiLetter (c : Char) : Bool :=
  ('a' ≤ c && c ≤ 'z') || ('A' ≤ c && c ≤ 'Z')

def isAsciiDigit (c : Char) : Bool :=
  '0' ≤ c && c ≤ '9'

def isAsciiAlphanumeric (c : Char) : Bool :=
  isAsciiLetter c || isAsciiDigit c

def isHexDigit (c : Char) : Bool :=
  isAsciiDigit c || ('a' ≤ c && c ≤ 'f') || ('A' ≤ c && c ≤ 'F')

/-- The value of a hexadecimal digit; other characters count as zero. -/
def hexValue (c : Char) : Nat :=
  if isAsciiDigit c then c.toNat - '0'.toNat
  else if 'a' ≤ c && c ≤ 'f' then c.toNat - 'a'.toNat + 10
  else if 'A' ≤ c && c ≤ 'F' then c.toNat - 'A'.toNat + 10
  else 0

def asciiLower (c : Char) : Char :=
  if 'A' ≤ c && c ≤ 'Z' then Char.ofNat (c.toNat + 32) else c

def isBlank (c : Char) : Bool :=
  inRanges [(0x9, 0xd), (0x1c, 0x20), (0x85, 0x85), (0xa0, 0xa0), (0x1680, 0x1680),
    (0x2000, 0x200a), (0x2028, 0x2029), (0x202f, 0x202f), (0x205f, 0x205f), (0x3000, 0x3000)] c.toNat

def isLetter (c : Char) : Bool :=
  if c.toNat < 128 then isAsciiLetter c else (category c).isLetter

def byteOrderMark : Char := Char.ofNat 0xfeff

def isDecimalDigit (c : Char) : Bool :=
  if c.toNat < 128 then isAsciiDigit c else c != byteOrderMark && category c == .decimalNumber

/-- The value of a decimal digit. Digits come in runs of ten that start with zero. -/
def digitValue (c : Char) : Nat :=
  if c.toNat < 128 then c.toNat - '0'.toNat
  else (c.toNat - (categoryRun c.toNat).first) % 10

/-- A digit in the wider sense: decimal digits, superscripts, circled digits and the like. -/
def isDigitLike (c : Char) : Bool :=
  isDecimalDigit c ||
    inRanges [(0xb2, 0xb3), (0xb9, 0xb9), (0x1369, 0x1371), (0x19da, 0x19da), (0x2070, 0x2070),
      (0x2074, 0x2079), (0x2080, 0x2089), (0x2460, 0x2468), (0x2474, 0x247c), (0x2488, 0x2490),
      (0x24ea, 0x24ea), (0x24f5, 0x24fd), (0x24ff, 0x24ff), (0x2776, 0x277e), (0x2780, 0x2788),
      (0x278a, 0x2792), (0x10a40, 0x10a43), (0x10e60, 0x10e68), (0x11052, 0x1105a),
      (0x1f100, 0x1f10a)] c.toNat

/-- A letter or a number of any script. The byte order mark is none. -/
def isAlphanumeric (c : Char) : Bool :=
  if c.toNat < 128 then isAsciiAlphanumeric c
  else c != byteOrderMark && ((category c).isLetter || (category c).isNumber)

def isWordChar (c : Char) : Bool :=
  isAlphanumeric c || c == '_'

def isPrintable (c : Char) : Bool :=
  if c.toNat < 128 then ' ' ≤ c && c ≤ '~' else !(category c).isUnprintable

/-- Compatibility forms that no identifier may hold although their categories would allow it. -/
def identifierExclusions : List (Nat × Nat) :=
  [(0x37a, 0x37a), (0x2e2f, 0x2e2f), (0xfc5e, 0xfc63), (0xfdfa, 0xfdfb), (0xfe70, 0xfe70),
    (0xfe72, 0xfe72), (0xfe74, 0xfe74), (0xfe76, 0xfe76), (0xfe78, 0xfe78), (0xfe7a, 0xfe7a),
    (0xfe7c, 0xfe7c), (0xfe7e, 0xfe7e)]

def isIdentifierStart (c : Char) : Bool :=
  if c.toNat < 128 then isAsciiLetter c || c == '_'
  else if inRanges [(0x1885, 0x1886), (0x2118, 0x2118), (0x212e, 0x212e)] c.toNat then true
  else if inRanges ([(0xe33, 0xe33), (0xeb3, 0xeb3), (0xff9e, 0xff9f)] ++ identifierExclusions) c.toNat
    then false
  else (category c).isLetter || category c == .letterNumber

def isIdentifierPart (c : Char) : Bool :=
  if c.toNat < 128 then isAsciiAlphanumeric c || c == '_'
  else if inRanges [(0xb7, 0xb7), (0x387, 0x387), (0x1369, 0x1371), (0x1885, 0x1886),
      (0x19da, 0x19da), (0x2118, 0x2118), (0x212e, 0x212e)] c.toNat then true
  else if inRanges identifierExclusions c.toNat then false
  else
    match category c with
    | .letterNumber | .nonspacingMark | .spacingMark | .decimalNumber | .connectorPunctuation => true
    | other => other.isLetter

def isIdentifier (text : List Char) : Bool :=
  match text with
  | [] => false
  | c :: rest => isIdentifierStart c && rest.all isIdentifierPart

end CommandOntology.Text
