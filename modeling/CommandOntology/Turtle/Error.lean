import CommandOntology.Data.Diagnosis
import CommandOntology.Iri.Resolve
import CommandOntology.Rdf.Term
import CommandOntology.Turtle.Lexer

set_option autoImplicit false

namespace CommandOntology.Turtle

inductive Expectation
  | subject | predicate | object | iri
  | namespaceLabel | namespaceIri | baseIri
  | directiveEnd | statementEnd | bracketEnd | collectionEnd
  deriving DecidableEq, Repr

def Expectation.text : Expectation → String
  | subject => "expected subject"
  | predicate => "expected predicate"
  | object => "expected object"
  | iri => "expected IRI or prefixed name"
  | namespaceLabel => "expected prefix name such as 'ex:'"
  | namespaceIri => "expected <IRI> in prefix declaration"
  | baseIri => "expected <IRI> in base declaration"
  | directiveEnd => "expected '.' after directive"
  | statementEnd => "expected '.' at end of statement"
  | bracketEnd => "expected ']' to close blank node property list"
  | collectionEnd => "expected ')' to close collection"

inductive IriFault
  | illegalCharacter (c : Char)
  | relativeWithoutBase
  deriving DecidableEq, Repr

def IriFault.text : IriFault → String
  | illegalCharacter c => "illegal character " ++ Text.quoted (String.singleton c)
  | relativeWithoutBase => "relative IRI used with no base declared"

inductive ParseError
  | lexical (fault : LexicalFault) (position : Position)
  | unexpected (expected : Expectation) (found : Option Lexeme) (position : Position)
  | undefinedLabel (label : String) (position : Position)
  | invalidIri (iri : String) (fault : IriFault) (line : Nat)
  | conflict (subject : Term) (predicate : String) (existing conflicting : Term) (line : Nat)
  | tooManyNamespaces (label : String) (capacity line : Nat)
  | frozenNamespaces
  | unresolvable (fault : Iri.ReferenceError)
  | capacityTooSmall
  deriving DecidableEq, Repr

namespace LexicalFault

def reason : LexicalFault → String
  | unterminatedIri => "unterminated IRI reference"
  | unterminatedText => "unterminated string literal"
  | lineBreakInText => "line break inside short string literal"
  | unknownEscape code _ => "invalid escape sequence '\\" ++ code ++ "'"
  | codePointTooLarge _ => ""
  | tagExpected => "expected language tag or directive after '@'"
  | malformedLabel => "malformed blank node label"
  | datatypeMarkExpected => "expected '^^' before datatype"
  | unexpectedCharacter c => "unexpected character " ++ Text.quoted (String.singleton c)

def offset : LexicalFault → Nat
  | unknownEscape _ offset => offset
  | _ => 0

end LexicalFault

def syntaxDiagnosis (reason : String) (line column : Nat) : Diagnosis where
  stage := "parse"
  code := "syntax_error"
  identifier := some (toString line ++ ":" ++ toString column)
  message := "line " ++ toString line ++ ", column " ++ toString column ++ ": " ++ reason
  details := [("line", .nat line), ("column", .nat column), ("reason", .text reason)]

/-- The place that a lexical fault is reported at: the line of its token, and as many columns after the
token as there are characters before the fault. -/
def lexicalPosition (fault : LexicalFault) (p : Position) : Position :=
  ⟨p.line, p.column + fault.offset⟩

def unexpectedReason (expected : Expectation) (found : Option Lexeme) : String :=
  expected.text ++ ", found " ++
    match found with
    | none => "end of input"
    | some lexeme => lexeme.shown

/-- The report of an error, or what it is if it is not reported by the stage. -/
def ParseError.diagnosis : ParseError → Except RangeError Diagnosis
  | .lexical (.codePointTooLarge value) _ => .error (.ofCodePoint value)
  | .lexical fault p =>
    let place := lexicalPosition fault p
    .ok (syntaxDiagnosis fault.reason place.line place.column)
  | .unexpected expected found p =>
    .ok (syntaxDiagnosis (unexpectedReason expected found) p.line p.column)
  | .undefinedLabel label p =>
    .ok {
      stage := "parse"
      code := "undefined_prefix"
      identifier := some label
      message := "line " ++ toString p.line ++ ": prefix '" ++ label ++ ":' used before it was declared"
      details := [("prefix", .text label), ("line", .nat p.line), ("column", .nat p.column)] }
  | .invalidIri iri fault line =>
    .ok {
      stage := "parse"
      code := "invalid_iri"
      identifier := some iri
      message := "line " ++ toString line ++ ": invalid IRI '" ++ iri ++ "': " ++ fault.text
      details := [("reason", .text fault.text), ("line", .nat line)] }
  | .conflict subject predicate existing conflicting line =>
    .ok {
      stage := "parse"
      code := "duplicate_definition"
      identifier := some subject.text
      message := "'" ++ subject.text ++ "' assigns conflicting values to <" ++ predicate ++ ">: "
        ++ existing.lineForm ++ " vs " ++ conflicting.lineForm
      details := [("predicate", .text predicate), ("existing", .text existing.lineForm),
        ("conflicting", .text conflicting.lineForm), ("line", .nat line)] }
  | .tooManyNamespaces label capacity line =>
    .ok {
      stage := "parse"
      code := "namespace_capacity_exceeded"
      identifier := some label
      message := "cannot declare prefix '" ++ label ++ ":': namespace registry is limited to "
        ++ toString capacity ++ " entries"
      details := [("capacity", .nat capacity), ("line", .nat line)] }
  | .frozenNamespaces => .error (.value "namespace registry is frozen")
  | .unresolvable fault => .error (.value fault.message)
  | .capacityTooSmall => .error (.value "namespace capacity must be at least 1")

end CommandOntology.Turtle
