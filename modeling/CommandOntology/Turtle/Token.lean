import CommandOntology.Text.Quoted
import CommandOntology.Rdf.Vocabulary

set_option autoImplicit false

namespace CommandOntology.Turtle

structure Position where
  line : Nat
  column : Nat
  deriving DecidableEq, Repr, Inhabited

namespace Position

def start : Position := ⟨1, 1⟩

def next (p : Position) (c : Char) : Position :=
  if c = '\n' then ⟨p.line + 1, 1⟩ else ⟨p.line, p.column + 1⟩

def after (p : Position) (text : List Char) : Position :=
  text.foldl next p

end Position

inductive Mark
  | dot | semicolon | comma | openBracket | closeBracket | openParenthesis | closeParenthesis
  | datatype
  deriving DecidableEq, Repr

def Mark.text : Mark → String
  | dot => "."
  | semicolon => ";"
  | comma => ","
  | openBracket => "["
  | closeBracket => "]"
  | openParenthesis => "("
  | closeParenthesis => ")"
  | datatype => "^^"

def Mark.ofChar? : Char → Option Mark
  | '.' => some dot
  | ';' => some semicolon
  | ',' => some comma
  | '[' => some openBracket
  | ']' => some closeBracket
  | '(' => some openParenthesis
  | ')' => some closeParenthesis
  | _ => none

inductive NumberKind
  | integer | decimal | double
  deriving DecidableEq, Repr

def NumberKind.datatype : NumberKind → String
  | integer => Xsd.integer
  | decimal => Xsd.decimal
  | double => Xsd.double

inductive Directive
  | namespaceLabel | base
  deriving DecidableEq, Repr

def Directive.text : Directive → String
  | namespaceLabel => "prefix"
  | base => "base"

def Directive.ofText? (word : String) : Option Directive :=
  if word = "prefix" then some namespaceLabel
  else if word = "base" then some base
  else none

inductive Lexeme
  | iri (reference : String)
  | text (value : String)
  | languageTag (tag : String)
  | directive (directive : Directive)
  | blankNode (label : String)
  | mark (mark : Mark)
  | number (kind : NumberKind) (digits : String)
  | name (label rest : String)
  | word (word : String)
  deriving DecidableEq, Repr

namespace Lexeme

def kind : Lexeme → String
  | iri _ => "IRI"
  | text _ => "STRING"
  | languageTag _ => "LANGTAG"
  | directive _ => "DIRECTIVE"
  | blankNode _ => "BNODE"
  | mark _ => "PUNCT"
  | number .integer _ => "INTEGER"
  | number .decimal _ => "DECIMAL"
  | number .double _ => "DOUBLE"
  | name .. => "PNAME"
  | word _ => "WORD"

def value : Lexeme → String
  | iri reference => reference
  | text value => value
  | languageTag tag => tag
  | directive d => d.text
  | blankNode label => label
  | mark m => m.text
  | number _ digits => digits
  | name label _ => label
  | word w => w

/-- How a lexeme is named in a message: by its value, or by its kind if the value is empty. -/
def shown (l : Lexeme) : String :=
  Text.quoted (if l.value.isEmpty then l.kind else l.value)

end Lexeme

structure Token where
  lexeme : Lexeme
  position : Position
  deriving DecidableEq, Repr

structure Tokens where
  tokens : List Token
  stop : Position
  deriving DecidableEq, Repr

end CommandOntology.Turtle
