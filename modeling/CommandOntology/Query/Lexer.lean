import CommandOntology.Text.Layout

set_option autoImplicit false

namespace CommandOntology.Query

open CommandOntology.Text

inductive TokenKind
  | var | iri | string | languageTag | number | name | blankNode | operator | word | punctuation
  | endOfQuery
  deriving DecidableEq, Repr

def TokenKind.text : TokenKind → String
  | var => "VAR"
  | iri => "IRI"
  | string => "STRING"
  | languageTag => "LANGTAG"
  | number => "NUMBER"
  | name => "PNAME"
  | blankNode => "BNODE"
  | operator => "OP"
  | word => "WORD"
  | punctuation => "PUNCT"
  | endOfQuery => "EOF"

/-- A token as it is written, and the number of characters before it. -/
structure Token where
  kind : TokenKind
  text : String
  position : Nat
  deriving DecidableEq, Repr

def blankLength? (text : List Char) : Option Nat :=
  let n := spanLength isBlank text
  if n = 0 then none else some n

def commentLength? (text : List Char) : Option Nat :=
  if text.head? = some '#' then some (spanLength (· ≠ '\n') text) else none

def isVariableStart (c : Char) : Bool :=
  isAsciiLetter c || c == '_'

def variableLength? (text : List Char) : Option Nat :=
  match text with
  | sigil :: c :: rest =>
    if (sigil = '?' ∨ sigil = '$') ∧ isVariableStart c then some (spanLength isWordChar rest + 2)
    else none
  | _ => none

def isReferenceChar (c : Char) : Bool :=
  !("<>\"\x7b\x7d|^\x60\\".toList.contains c) && !isBlank c

/-- A character that a reference may start with. What could follow a comparison is not one. -/
def isReferenceStart (c : Char) : Bool :=
  isReferenceChar c && c != '?' && c != '$' && c != '='

def referenceLength? (text : List Char) : Option Nat :=
  match text with
  | '<' :: '>' :: _ => some 2
  | '<' :: c :: rest =>
    let n := spanLength isReferenceChar rest
    if isReferenceStart c && (rest.drop n).head? == some '>' then some (n + 3) else none
  | _ => none

/-- The length of the rest of a text between three quotes, closing quotes included. -/
def longTextLength? (quote : Char) : List Char → Option Nat
  | [] => none
  | c :: rest =>
    if c = quote then
      if [quote, quote].isPrefixOf rest then some 3 else (longTextLength? quote rest).map (· + 1)
    else if c = '\\' then
      match rest with
      | [] => none
      | d :: rest => if d = '\n' then none else (longTextLength? quote rest).map (· + 2)
    else (longTextLength? quote rest).map (· + 1)

def shortTextLength? (quote : Char) : List Char → Option Nat
  | [] => none
  | c :: rest =>
    if c = quote then some 1
    else if c = '\n' then none
    else if c = '\\' then
      match rest with
      | [] => none
      | d :: rest => if d = '\n' then none else (shortTextLength? quote rest).map (· + 2)
    else (shortTextLength? quote rest).map (· + 1)

/-- The length of a quoted text. What opens with three quotes and does not close with three may still
be an empty text. -/
def textLength? (text : List Char) : Option Nat :=
  match text with
  | [] => none
  | quote :: rest =>
    if quote = '"' ∨ quote = '\'' then
      match if [quote, quote].isPrefixOf rest then longTextLength? quote (rest.drop 2) else none with
      | some n => some (n + 3)
      | none => (shortTextLength? quote rest).map (· + 1)
    else none

def subtagLength : List Char → Nat
  | [] => 0
  | c :: rest =>
    if isAsciiAlphanumeric c || (c == '-' && (rest.head?.any isAsciiAlphanumeric)) then
      subtagLength rest + 1
    else 0

def languageTagLength? (text : List Char) : Option Nat :=
  match text with
  | '@' :: rest =>
    let n := spanLength isAsciiLetter rest
    if n = 0 then none
    else
      let rest := rest.drop n
      some (1 + n + if rest.head? = some '-' then subtagLength rest else 0)
  | _ => none

def signLength (text : List Char) : Nat :=
  if text.head? = some '+' ∨ text.head? = some '-' then 1 else 0

def exponentLength (text : List Char) : Nat :=
  if text.head? = some 'e' ∨ text.head? = some 'E' then
    let sign := signLength (text.drop 1)
    let digits := spanLength isDecimalDigit (text.drop (1 + sign))
    if digits = 0 then 0 else 1 + sign + digits
  else 0

def numberLength? (text : List Char) : Option Nat :=
  let sign := signLength text
  let whole := spanLength isDecimalDigit (text.drop sign)
  let before := sign + whole
  let hasPoint := (text.drop before).head? = some '.'
  let part := if hasPoint then spanLength isDecimalDigit (text.drop (before + 1)) else 0
  if whole = 0 ∧ part = 0 then none
  else
    let mantissa := before + if hasPoint then part + 1 else 0
    some (mantissa + exponentLength (text.drop mantissa))

def isLabelChar (c : Char) : Bool :=
  isWordChar c || c == '-' || c == '.'

def isLocalChar (c : Char) : Bool :=
  isWordChar c || c == '-'

/-- The length of the local part of a prefixed name. A point belongs to it only before another
character of it. -/
def localLength : List Char → Nat
  | [] => 0
  | c :: rest =>
    if isLocalChar c || (c == '.' && (rest.head?.any isLocalChar)) then localLength rest + 1 else 0

def nameLength? (text : List Char) : Option Nat :=
  let n := if text.head?.any isAsciiLetter then spanLength isLabelChar text else 0
  if (text.drop n).head? = some ':' then some (n + 1 + localLength (text.drop (n + 1))) else none

def blankNodeLength? (text : List Char) : Option Nat :=
  match text with
  | '_' :: ':' :: rest =>
    let n := spanLength isWordChar rest
    if n = 0 then none else some (n + 2)
  | _ => none

def operatorLength? (text : List Char) : Option Nat :=
  match text with
  | '^' :: '^' :: _ => some 2
  | '&' :: '&' :: _ => some 2
  | '|' :: '|' :: _ => some 2
  | '!' :: '=' :: _ => some 2
  | '<' :: '=' :: _ => some 2
  | '>' :: '=' :: _ => some 2
  | c :: _ => if c = '=' ∨ c = '<' ∨ c = '>' ∨ c = '!' then some 1 else none
  | [] => none

def wordLength? (text : List Char) : Option Nat :=
  match text with
  | [] => none
  | c :: rest => if isVariableStart c then some (spanLength isWordChar rest + 1) else none

def punctuationLength? (text : List Char) : Option Nat :=
  match text with
  | [] => none
  | c :: _ => if "\x7b\x7d().;,*".toList.contains c then some 1 else none

def matchers : List (TokenKind × (List Char → Option Nat)) :=
  [(.var, variableLength?), (.iri, referenceLength?), (.string, textLength?),
    (.languageTag, languageTagLength?), (.number, numberLength?), (.name, nameLength?),
    (.blankNode, blankNodeLength?), (.operator, operatorLength?), (.word, wordLength?),
    (.punctuation, punctuationLength?)]

def tokenLength? (text : List Char) : Option (TokenKind × Nat) :=
  matchers.findSome? fun m => (m.2 text).map (m.1, ·)

def layoutLength? (text : List Char) : Option Nat :=
  match blankLength? text with
  | some n => some n
  | none => commentLength? text

structure LexicalFault where
  character : Char
  position : Nat
  deriving DecidableEq, Repr

/-- Cuts a text into tokens. `skip` characters belong to what has been read, and `position` characters
have been read. -/
def lexFrom (skip position : Nat) : List Char → Except LexicalFault (List Token)
  | [] => .ok []
  | c :: rest =>
    match skip with
    | skip + 1 => lexFrom skip (position + 1) rest
    | 0 =>
      match layoutLength? (c :: rest) with
      | some n => lexFrom (n - 1) (position + 1) rest
      | none =>
        match tokenLength? (c :: rest) with
        | some (kind, n) =>
          (lexFrom (n - 1) (position + 1) rest).map fun tokens =>
            ⟨kind, String.ofList ((c :: rest).take n), position⟩ :: tokens
        | none => .error ⟨c, position⟩

def lex (text : List Char) : Except LexicalFault (List Token) :=
  lexFrom 0 0 text

end CommandOntology.Query
