import CommandOntology.Text.CharClass

set_option autoImplicit false

namespace CommandOntology.Text

inductive EscapeError
  | unknown (code : String)
  | tooLarge (value : Nat)
  deriving DecidableEq, Repr

def escapedChar? : Char → Option Char
  | 't' => some '\t'
  | 'b' => some (Char.ofNat 8)
  | 'n' => some '\n'
  | 'r' => some '\r'
  | 'f' => some (Char.ofNat 12)
  | '"' => some '"'
  | '\'' => some '\''
  | '\\' => some '\\'
  | _ => none

def numericEscapeLength? : Char → Option Nat
  | 'u' => some 4
  | 'U' => some 8
  | _ => none

/-- The code point that a numeric escape writes, if all its digits are there. -/
def numericEscape? (length : Nat) (text : List Char) : Option Nat :=
  let digits := text.take length
  if digits.length = length ∧ digits.all isHexDigit then
    some (digits.foldl (fun n c => 16 * n + hexValue c) 0)
  else none

/-- An escape after its backslash: the character, and how many characters were read. Texts hold no surrogates: an
escape that names one is read as the null character, where a reader that keeps surrogates tells them apart. What is
said of texts with such escapes does not carry over to that reader. -/
def readEscape (text : List Char) : Except EscapeError (Char × Nat) :=
  match text with
  | [] => .error (.unknown "")
  | code :: rest =>
    match escapedChar? code with
    | some c => .ok (c, 1)
    | none =>
      match (numericEscapeLength? code).bind fun n => (numericEscape? n rest).map fun v => (v, n) with
      | some (value, n) =>
        if 0x10ffff < value then .error (.tooLarge value) else .ok (Char.ofNat value, n + 1)
      | none => .error (.unknown (String.singleton code))

end CommandOntology.Text
