import CommandOntology.Text.Escape
import CommandOntology.Text.Layout
import CommandOntology.Turtle.Token

set_option autoImplicit false

namespace CommandOntology.Turtle

open CommandOntology.Text

inductive LexicalFault
  | unterminatedIri
  | unterminatedText
  | lineBreakInText
  | unknownEscape (code : String) (offset : Nat)
  | codePointTooLarge (value : Nat)
  | tagExpected
  | malformedLabel
  | datatypeMarkExpected
  | unexpectedCharacter (c : Char)
  deriving DecidableEq, Repr

def isNameChar (c : Char) : Bool :=
  isWordChar c || c == '-' || c == '.'

/-- A character that a prefix may start with: a letter, or a number that is no decimal digit. -/
def isNameStart (c : Char) : Bool :=
  isWordChar c && !isDecimalDigit c && c != '_'

/-- A character of the local part of a prefixed name. A point is one only before another. -/
def isLocalChar (c : Char) : Bool :=
  isWordChar c || c == '-' || c == ':' || c == '%'

def localLength : List Char → Nat
  | [] => 0
  | c :: rest =>
    if isLocalChar c || (c == '.' && (rest.head?.any isLocalChar)) then localLength rest + 1 else 0

def labelLength? (text : List Char) : Option Nat :=
  let n := if text.head?.any isNameStart then spanLength isNameChar text else 0
  if (text.drop n).head? = some ':' then some n else none

def blankLabelLength? (text : List Char) : Option Nat :=
  match text with
  | [] => none
  | c :: rest =>
    if isWordChar c then
      some (((rest.takeWhile isNameChar).reverse.dropWhile (· == '.')).length + 1)
    else none

def isWordStart (c : Char) : Bool :=
  isAsciiLetter c

def isWordPart (c : Char) : Bool :=
  isAsciiAlphanumeric c || c == '_' || c == '-'

/-- The length of the subtags of a language tag, each a hyphen with letters or digits after it. -/
def subtagLength : List Char → Nat
  | [] => 0
  | c :: rest =>
    if isAsciiAlphanumeric c || (c == '-' && (rest.head?.any isAsciiAlphanumeric)) then
      subtagLength rest + 1
    else 0

def tagLength? (text : List Char) : Option Nat :=
  let n := spanLength isAsciiLetter text
  if n = 0 then none
  else
    let rest := text.drop n
    some (n + if rest.head? = some '-' then subtagLength rest else 0)

def signLength (text : List Char) : Nat :=
  if text.head? = some '+' ∨ text.head? = some '-' then 1 else 0

def digitsLength? (text : List Char) : Option Nat :=
  let n := spanLength isDecimalDigit text
  if n = 0 then none else some n

def exponentLength? (text : List Char) : Option Nat :=
  if text.head? = some 'e' ∨ text.head? = some 'E' then
    let sign := signLength (text.drop 1)
    (digitsLength? (text.drop (1 + sign))).map (1 + sign + ·)
  else none

def integerLength? (text : List Char) : Option Nat :=
  let sign := signLength text
  (digitsLength? (text.drop sign)).map (sign + ·)

/-- The length of a decimal: digits after a point, and perhaps digits before it. -/
def decimalLength? (text : List Char) : Option Nat :=
  let sign := signLength text
  let whole := spanLength isDecimalDigit (text.drop sign)
  let before := sign + whole
  if (text.drop before).head? = some '.' then
    (digitsLength? (text.drop (before + 1))).map (before + 1 + ·)
  else none

/-- The length of a double: a number with an exponent, and a digit on one side of its point. -/
def doubleLength? (text : List Char) : Option Nat :=
  let sign := signLength text
  let whole := spanLength isDecimalDigit (text.drop sign)
  let before := sign + whole
  if (text.drop before).head? = some '.' then
    let part := spanLength isDecimalDigit (text.drop (before + 1))
    if whole = 0 ∧ part = 0 then none
    else
      (exponentLength? (text.drop (before + 1 + part))).map (before + 1 + part + ·)
  else if whole = 0 then none
  else (exponentLength? (text.drop before)).map (before + ·)

def numberLength? (text : List Char) : Option (NumberKind × Nat) :=
  match doubleLength? text with
  | some n => some (.double, n)
  | none =>
    match decimalLength? text with
    | some n => some (.decimal, n)
    | none => (integerLength? text).map (.integer, ·)

/-- An escape after its backslash: the character, and how many characters were read. A fault stands as
far from the start of the text as the escape does. -/
def readEscape (offset : Nat) (text : List Char) : Except LexicalFault (Char × Nat) :=
  match Text.readEscape text with
  | .ok r => .ok r
  | .error (.unknown code) => .error (.unknownEscape code offset)
  | .error (.tooLarge value) => .error (.codePointTooLarge value)

def endsText (quote : Char) (isLong : Bool) (text : List Char) : Bool :=
  (if isLong then [quote, quote, quote] else [quote]).isPrefixOf text

/-- Reads a quoted text from its first character on: the characters it stands for, and how far the
closing quotes reach. `skip` characters belong to an escape that has been read, and `offset` characters
have been read since the opening quote. -/
def readText (quote : Char) (isLong : Bool) (skip offset : Nat) :
    List Char → Except LexicalFault (List Char × Nat)
  | [] => .error .unterminatedText
  | c :: rest =>
    match skip with
    | skip + 1 => readText quote isLong skip (offset + 1) rest
    | 0 =>
      if endsText quote isLong (c :: rest) then .ok ([], offset + if isLong then 3 else 1)
      else if c = '\n' ∧ !isLong then .error .lineBreakInText
      else if c = '\\' then
        match readEscape offset rest with
        | .error fault => .error fault
        | .ok (escaped, n) =>
          (readText quote isLong n (offset + 1) rest).map fun r => (escaped :: r.1, r.2)
      else (readText quote isLong 0 (offset + 1) rest).map fun r => (c :: r.1, r.2)

def lexemeText (text : List Char) (length : Nat) : String :=
  String.ofList (text.take length)

def scanIri (rest : List Char) : Except LexicalFault (Lexeme × Nat) :=
  let n := spanLength (fun c => c != '>' && c != '\n') rest
  if (rest.drop n).head? = some '>' then .ok (.iri (lexemeText rest n), n + 1)
  else .error .unterminatedIri

def scanText (quote : Char) (rest : List Char) : Except LexicalFault (Lexeme × Nat) :=
  let isLong := [quote, quote].isPrefixOf rest
  let opening := if isLong then 3 else 1
  (readText quote isLong 0 opening (rest.drop (opening - 1))).map fun r =>
    (.text (String.ofList r.1), r.2 - 1)

def scanTag (rest : List Char) : Except LexicalFault (Lexeme × Nat) :=
  match tagLength? rest with
  | none => .error .tagExpected
  | some n =>
    let word := lexemeText rest n
    match Directive.ofText? word with
    | some d => .ok (.directive d, n)
    | none => .ok (.languageTag word, n)

def scanBlankNode (rest : List Char) : Except LexicalFault (Lexeme × Nat) :=
  match blankLabelLength? (rest.drop 1) with
  | some n => .ok (.blankNode (lexemeText (rest.drop 1) n), n + 1)
  | none => .error .malformedLabel

def scanNumber (c : Char) (rest : List Char) : Except LexicalFault (Lexeme × Nat) :=
  match numberLength? (c :: rest) with
  | some (kind, n) => .ok (.number kind (lexemeText (c :: rest) n), n - 1)
  | none => .error (.unexpectedCharacter c)

def scanName (c : Char) (rest : List Char) : Except LexicalFault (Lexeme × Nat) :=
  match labelLength? (c :: rest) with
  | some n =>
    let afterColon := rest.drop n
    let m := localLength afterColon
    .ok (.name (lexemeText (c :: rest) n) (lexemeText afterColon m), n + m)
  | none =>
    if isWordStart c then
      let n := spanLength isWordPart rest
      .ok (.word (lexemeText (c :: rest) (n + 1)), n)
    else .error (.unexpectedCharacter c)

/-- Reads the token that starts with `c`, and tells how many of the following characters belong to
it. -/
def scan (c : Char) (rest : List Char) : Except LexicalFault (Lexeme × Nat) :=
  if c = '<' then scanIri rest
  else if c = '"' ∨ c = '\'' then scanText c rest
  else if c = '@' then scanTag rest
  else if c = '_' ∧ rest.head? = some ':' then scanBlankNode rest
  else if c = '^' then
    if rest.head? = some '^' then .ok (.mark .datatype, 1) else .error .datatypeMarkExpected
  else
    match Mark.ofChar? c with
    | some m => .ok (.mark m, 0)
    | none =>
      if isDigitLike c ∨ c = '+' ∨ c = '-' then scanNumber c rest else scanName c rest

/-- Where the reader is: between tokens, in a comment, or before the last so many characters of a
token. -/
inductive LexerState
  | between
  | comment
  | inside (left : Nat)
  deriving DecidableEq, Repr

def isLayout (c : Char) : Bool :=
  c == ' ' || c == '\t' || c == '\r' || c == '\n' || c == byteOrderMark

/-- Reads the tokens of a text from a place on. A fault is reported with the place of its token. -/
def lexFrom (state : LexerState) (p : Position) :
    List Char → Except (LexicalFault × Position) Tokens
  | [] => .ok ⟨[], p⟩
  | c :: rest =>
    match state with
    | .inside (left + 1) => lexFrom (.inside left) (p.next c) rest
    | .comment => lexFrom (if c = '\n' then .between else .comment) (p.next c) rest
    | _ =>
      if isLayout c then lexFrom .between (p.next c) rest
      else if c = '#' then lexFrom .comment (p.next c) rest
      else
        match scan c rest with
        | .error fault => .error (fault, p)
        | .ok (lexeme, n) =>
          (lexFrom (.inside n) (p.next c) rest).map fun r => { r with tokens := ⟨lexeme, p⟩ :: r.tokens }

def lex (text : List Char) : Except (LexicalFault × Position) Tokens :=
  lexFrom .between .start text

end CommandOntology.Turtle
