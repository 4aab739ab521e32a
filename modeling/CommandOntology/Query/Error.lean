import CommandOntology.Data.Diagnosis
import CommandOntology.Iri.Resolve
import CommandOntology.Number.Reading
import CommandOntology.Query.Syntax
import CommandOntology.Regex.Syntax

set_option autoImplicit false

namespace CommandOntology.Query

inductive Slice
  | limit | offset
  deriving DecidableEq, Repr

def Slice.text : Slice → String
  | limit => "LIMIT"
  | offset => "OFFSET"

inductive Clause
  | select | filter | order
  deriving DecidableEq, Repr

def Clause.text : Clause → String
  | select => "SELECT"
  | filter => "FILTER"
  | order => "ORDER BY"

inductive Expectation
  | select | selection
  | label | labelIri | baseIri
  | groupOpen | groupClose
  | flatOptional | optionalPattern
  | patternEnd
  | subject | predicate | object | iri
  | filter | filterClose | parenthesisClose
  | callOpen (function : FunctionName)
  | callClose (function : FunctionName)
  | expression
  | orderBy | orderCondition | orderOpen | orderVariable | orderClose
  | count (slice : Slice)
  | endOfQuery
  deriving DecidableEq, Repr

def Expectation.text : Expectation → String
  | select => "expected SELECT"
  | selection => "expected '*' or at least one variable after SELECT"
  | label => "expected pname after PREFIX"
  | labelIri => "expected iri in PREFIX declaration"
  | baseIri => "expected iri after BASE"
  | groupOpen => "expected \x7b to open group"
  | groupClose => "expected '\x7d' to close group"
  | flatOptional => "nested OPTIONAL is not supported"
  | optionalPattern => "OPTIONAL group needs at least one triple pattern"
  | patternEnd => "expected '.' or '\x7d' after triple pattern"
  | subject => "expected subject"
  | predicate => "expected predicate"
  | object => "expected object"
  | iri => "expected IRI or prefixed name"
  | filter => "expected '(' or a function call after FILTER"
  | filterClose => "expected ) to close FILTER"
  | parenthesisClose => "expected ) to close parenthesis"
  | callOpen function => "expected ( after " ++ function.text
  | callClose function => "expected ) to close " ++ function.text ++ "(...)"
  | expression => "expected expression"
  | orderBy => "expected BY"
  | orderCondition => "expected at least one ORDER BY condition"
  | orderOpen => "expected ( after ASC/DESC"
  | orderVariable => "expected var in ORDER BY"
  | orderClose => "expected ) to close ORDER BY condition"
  | count slice => "expected number after " ++ slice.text
  | endOfQuery => "unexpected trailing input"

inductive SyntaxFault
  | unexpectedCharacter (c : Char)
  /-- What stands in the place of what is wanted; nothing at the end of the query. -/
  | unexpected (expected : Expectation) (found : Option String)
  | labelWithRest
  | undeclaredLabel (label : String)
  | relativeIri (reference : String)
  | literalSubject
  | literalPredicate
  | blankNode
  | unknownEscape (code : String)
  | argumentCount (function : FunctionName) (count : Nat)
  | boundArgument
  | unknownFlags (flags : String)
  | invalidPattern (error : Regex.PatternError)
  | notCount (slice : Slice)
  deriving DecidableEq, Repr

namespace SyntaxFault

def arityText (function : FunctionName) : String :=
  let (least, most) := function.arity
  toString least ++ if least = most then "" else " to " ++ toString most

def reason : SyntaxFault → String
  | unexpectedCharacter c => "unexpected character " ++ Text.quoted (String.singleton c)
  | unexpected expected found =>
    expected.text ++ ", found " ++
      match found with
      | none => "end of query"
      | some text => Text.quoted text
  | labelWithRest => "prefix name must end with ':'"
  | undeclaredLabel label => "undeclared prefix '" ++ label ++ ":'"
  | relativeIri reference => "relative IRI <" ++ reference ++ "> with no BASE"
  | literalSubject => "a literal cannot be a subject"
  | literalPredicate => "a literal cannot be a predicate"
  | blankNode => "blank nodes are not supported in query patterns; use a variable"
  | unknownEscape code => "invalid escape sequence '\\" ++ code ++ "'"
  | argumentCount function count =>
    function.text ++ "() takes " ++ arityText function ++ " argument(s), got " ++ toString count
  | boundArgument => "bound() takes a variable"
  | unknownFlags flags => "unsupported regex flag(s) " ++ Text.quoted flags
  | invalidPattern error => "invalid regular expression: " ++ error.message
  | notCount slice => slice.text ++ " takes a non-negative integer"

end SyntaxFault

inductive QueryError
  | malformed (fault : SyntaxFault) (position : Nat) (token : Option String)
  | unknownVariable (name : String) (clause : Clause)
  | timeout (budget elapsed : Binary64)
  | codePointTooLarge (value : Nat)
  | unresolvable (fault : Iri.ReferenceError)
  | uncountable (error : NumberError)
  | unusablePattern (error : Regex.PatternError)
  deriving DecidableEq, Repr

/-- What a pattern's error is if it is not about the pattern's form. -/
def patternRangeError (error : Regex.PatternError) : RangeError :=
  if error = .repetitionTooLarge then .overflow else .value error.message

/-- The report of an error, or what it is if it is not reported by the stage. -/
def QueryError.diagnosis : QueryError → Except RangeError Diagnosis
  | .malformed fault position token =>
    .ok {
      stage := "query"
      code := "syntax_error"
      identifier := token
      message := "position " ++ toString position ++ ": " ++ fault.reason
      details := [("position", .nat position), ("token", .optText token),
        ("reason", .text fault.reason)] }
  | .unknownVariable name clause =>
    .ok {
      stage := "query"
      code := "unknown_variable"
      identifier := some ("?" ++ name)
      message := "variable ?" ++ name ++ " in " ++ clause.text ++ " is not bound by any pattern"
      details := [("variable", .text name), ("clause", .text clause.text)] }
  | .timeout budget elapsed =>
    .ok {
      stage := "query"
      code := "timeout"
      identifier := none
      message := "query exceeded its time budget of " ++ budget.text ++ "s"
      details := [("timeout_seconds", .float budget),
        ("elapsed_seconds", .float (elapsed.roundPlaces 6))] }
  | .codePointTooLarge value => .error (.ofCodePoint value)
  | .unresolvable fault => .error (.value fault.message)
  | .uncountable error => .error (.value error.message)
  | .unusablePattern error => .error (patternRangeError error)

end CommandOntology.Query
