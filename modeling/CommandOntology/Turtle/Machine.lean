import CommandOntology.Rdf.Namespaces
import CommandOntology.Turtle.Error

set_option autoImplicit false

/-!
# Reading statements

The grammar of documents as a machine that takes one token at a time. Its control says what may come
next, and holds the constructs around it that are still open: who a node is read for, and where a list
of predicates and objects stands. Before a token is taken, the machine closes what the token cannot
continue.

Statements are given out in the order in which they become complete. What the machine gives out does
not depend on which predicates are functional: that is looked at afterwards.
-/

namespace CommandOntology.Turtle

structure Emission where
  triple : Triple
  line : Nat
  deriving DecidableEq, Repr

/-- What the document has established so far. Emissions are held last first. -/
structure Scope where
  namespaces : Namespaces
  base : Option String
  nodeCount : Nat
  emitted : List Emission
  deriving Repr

mutual

/-- Where a list of predicates and objects stands: in a statement, or in the brackets of a node. -/
inductive Context
  | statement
  | brackets (node : Term) (use : Use)

/-- Who a node is read for: it is the subject of a statement, the object of a subject and a predicate,
or an item of a collection, whose items so far are held last first. -/
inductive Use
  | subject
  | object (subject predicate : Term) (line : Nat) (context : Context)
  | item (items : List Term) (use : Use)

end

inductive Control
  /-- A statement, or the end. -/
  | statement
  /-- The prefix that a directive declares; `isClosed` directives end in a point. -/
  | namespaceLabel (isClosed : Bool) (line : Nat)
  | namespaceIri (isClosed : Bool) (line : Nat) (label : String)
  | baseIri (isClosed : Bool)
  | directiveEnd
  /-- A predicate, or the end of a statement that is only a node in brackets. -/
  | predicateOrEnd (subject : Term)
  /-- A predicate, or the bracket that closes an empty node. -/
  | bracketStart (node : Term) (use : Use)
  | predicate (subject : Term) (context : Context)
  | object (subject predicate : Term) (context : Context)
  /-- A comma, a semicolon, or the end of the list. -/
  | objectEnd (subject predicate : Term) (context : Context)
  /-- Another semicolon, a predicate, or the end of the list. -/
  | semicolon (subject : Term) (context : Context)
  /-- The end of the list. -/
  | contextEnd (context : Context)
  /-- An item of a collection, or its end. -/
  | item (items : List Term) (use : Use)
  /-- The mark of a quoted text, or whatever follows the text. -/
  | literalMark (value : String) (use : Use)
  | datatype (value : String) (use : Use)

namespace Scope

def initial (capacity : Nat) (base : Option String) : Scope :=
  ⟨.empty capacity, base, 0, []⟩

def emit (s : Scope) (subject predicate object : Term) (line : Nat) : Scope :=
  { s with emitted := ⟨⟨subject, predicate, object⟩, line⟩ :: s.emitted }

def writtenLabel (label : String) : String :=
  "u" ++ label

/-- The label of the n-th node without a written label. No written label is the same. -/
def generatedLabel (n : Nat) : String :=
  "g" ++ toString n

def freshNode (s : Scope) : Term × Scope :=
  (.blank (generatedLabel (s.nodeCount + 1)), { s with nodeCount := s.nodeCount + 1 })

def isIllegalInIri (c : Char) : Bool :=
  c.toNat < 0x20 || " <>\"\x7b\x7d|^\x60\\".toList.contains c

/-- The IRI that a reference denotes: an absolute one itself, a relative one through the base. -/
def resolveReference (s : Scope) (reference : String) (line : Nat) : Except ParseError String :=
  match reference.toList.find? isIllegalInIri with
  | some c => .error (.invalidIri reference (.illegalCharacter c) line)
  | none =>
    if Iri.isAbsolute reference.toList then .ok reference
    else
      match s.base with
      | none => .error (.invalidIri reference .relativeWithoutBase line)
      | some base => (Iri.resolve base reference).mapError .unresolvable

def resolveName (s : Scope) (label rest : String) (p : Position) : Except ParseError String :=
  match s.namespaces.resolve label with
  | some iri => .ok (iri ++ rest)
  | none => .error (.undefinedLabel label p)

/-- The IRI that a token denotes, if it is a reference or a prefixed name. -/
def resolveIri? (s : Scope) (token : Token) : Option (Except ParseError String) :=
  match token.lexeme with
  | .iri reference => some (s.resolveReference reference token.position.line)
  | .name label rest => some (s.resolveName label rest token.position)
  | _ => none

def declare (s : Scope) (label iri : String) (line : Nat) : Except ParseError Scope :=
  match s.namespaces.declare label iri with
  | .ok namespaces => .ok { s with namespaces }
  | .error .frozen => .error .frozenNamespaces
  | .error (.full capacity) => .error (.tooManyNamespaces label capacity line)

/-- Writes a collection as a chain of nodes, given the node of its first item: each has an item and
the rest of the collection. -/
def emitChain (s : Scope) (line : Nat) (node : Term) : List Term → Scope
  | [] => s
  | [x] => (s.emit node (.iri Rdf.first) x line).emit node (.iri Rdf.rest) (.iri Rdf.nil) line
  | x :: y :: rest =>
    let (next, s) := (s.emit node (.iri Rdf.first) x line).freshNode
    emitChain (s.emit node (.iri Rdf.rest) next line) line next (y :: rest)

def emitCollection (s : Scope) (line : Nat) (items : List Term) : Term × Scope :=
  if items.isEmpty then (.iri Rdf.nil, s)
  else
    let (head, s) := s.freshNode
    (head, s.emitChain line head items)

end Scope

def deliver (scope : Scope) (node : Term) : Use → Control × Scope
  | .subject => (.predicate node .statement, scope)
  | .object subject predicate line context =>
    (.objectEnd subject predicate context, scope.emit subject predicate node line)
  | .item items use => (.item (node :: items) use, scope)

/-- Hands over a node whose brackets are closed. It may be a statement of its own. -/
def deliverBrackets (scope : Scope) (node : Term) : Use → Control × Scope
  | .subject => (.predicateOrEnd node, scope)
  | use => deliver scope node use

def continuesLiteral : Option Lexeme → Bool
  | some (.languageTag _) => true
  | some (.mark .datatype) => true
  | _ => false

def continuesObjects : Option Lexeme → Bool
  | some (.mark .comma) => true
  | some (.mark .semicolon) => true
  | _ => false

def endsPredicates : Option Lexeme → Bool
  | none => true
  | some (.mark .dot) => true
  | some (.mark .closeBracket) => true
  | _ => false

/-- Takes a quoted text for finished unless the next lexeme marks it. -/
def settleLiteral (control : Control) (scope : Scope) (next : Option Lexeme) : Control × Scope :=
  match control with
  | .literalMark value use =>
    if continuesLiteral next then (control, scope) else deliver scope (.plain value) use
  | _ => (control, scope)

/-- Ends a list of predicates and objects that the next lexeme does not continue. -/
def settleList (control : Control) (next : Option Lexeme) : Control :=
  match control with
  | .objectEnd _ _ context => if continuesObjects next then control else .contextEnd context
  | .semicolon _ context => if endsPredicates next then .contextEnd context else control
  | _ => control

def settle (control : Control) (scope : Scope) (next : Option Lexeme) : Control × Scope :=
  let (control, scope) := settleLiteral control scope next
  (settleList control next, scope)

def Control.expectation : Control → (found : Option Lexeme) → Expectation
  | .statement, _ => .subject
  | .namespaceLabel .., _ => .namespaceLabel
  | .namespaceIri .., _ => .namespaceIri
  | .baseIri _, _ => .baseIri
  | .directiveEnd, _ => .directiveEnd
  | .predicateOrEnd _, _ => .predicate
  | .bracketStart .., _ => .predicate
  | .predicate .., _ => .predicate
  | .object .., _ => .object
  | .objectEnd .., _ => .object
  | .semicolon .., _ => .predicate
  | .contextEnd .statement, _ => .statementEnd
  | .contextEnd (.brackets ..), _ => .bracketEnd
  | .item .., none => .collectionEnd
  | .item .., some _ => .object
  | .literalMark .., _ => .object
  | .datatype .., _ => .iri

/-- The directive that a word at the start of a statement names, in any case. -/
def wordDirective? (word : String) : Option Directive :=
  Directive.ofText? (String.ofList (word.toList.map Text.asciiLower))

def afterDirective (directive : Directive) (isClosed : Bool) (line : Nat) : Control :=
  match directive with
  | .namespaceLabel => .namespaceLabel isClosed line
  | .base => .baseIri isClosed

def afterDeclaration (isClosed : Bool) : Control :=
  if isClosed then .directiveEnd else .statement

/-- The literal of a text with a datatype. Plain strings have none. -/
def typedLiteral (value datatype : String) : Term :=
  .literal value (if datatype = Xsd.string then none else some datatype) none

def takeNode (scope : Scope) (token : Token) (use : Use) :
    Option (Except ParseError (Control × Scope)) :=
  match token.lexeme with
  | .blankNode label => some (.ok (deliver scope (.blank (Scope.writtenLabel label)) use))
  | .mark .openBracket =>
    let (node, scope) := scope.freshNode
    some (.ok (.bracketStart node use, scope))
  | .mark .openParenthesis => some (.ok (.item [] use, scope))
  | _ => (scope.resolveIri? token).map fun iri => iri.map fun iri => deliver scope (.iri iri) use

def takeObject (scope : Scope) (token : Token) (use : Use) :
    Option (Except ParseError (Control × Scope)) :=
  match token.lexeme with
  | .text value => some (.ok (.literalMark value use, scope))
  | .number kind digits => some (.ok (deliver scope (.typed digits kind.datatype) use))
  | .word word =>
    if word = "true" ∨ word = "false" then
      some (.ok (deliver scope (.typed word Xsd.boolean) use))
    else none
  | _ => takeNode scope token use

def takePredicate (scope : Scope) (token : Token) (subject : Term) (context : Context) :
    Option (Except ParseError (Control × Scope)) :=
  match token.lexeme with
  | .word word =>
    if word = "a" then some (.ok (.object subject (.iri Rdf.type) context, scope)) else none
  | _ =>
    (scope.resolveIri? token).map fun iri =>
      iri.map fun iri => (.object subject (.iri iri) context, scope)

def takeStatement (scope : Scope) (token : Token) : Option (Except ParseError (Control × Scope)) :=
  match token.lexeme with
  | .directive d => some (.ok (afterDirective d true token.position.line, scope))
  | .word word =>
    (wordDirective? word).map fun d => .ok (afterDirective d false token.position.line, scope)
  | _ => takeNode scope token .subject

/-- Takes a token in a settled control. Gives nothing when the grammar does not allow it. -/
def take (control : Control) (scope : Scope) (token : Token) :
    Option (Except ParseError (Control × Scope)) :=
  let line := token.position.line
  match control, token.lexeme with
  | .statement, _ => takeStatement scope token
  | .namespaceLabel isClosed line, .name label "" =>
    some (.ok (.namespaceIri isClosed line label, scope))
  | .namespaceIri isClosed directiveLine label, .iri reference =>
    some do
      let iri ← scope.resolveReference reference line
      let scope ← scope.declare label iri directiveLine
      return (afterDeclaration isClosed, scope)
  | .baseIri isClosed, .iri reference =>
    some do
      let iri ← scope.resolveReference reference line
      return (afterDeclaration isClosed, { scope with base := some iri })
  | .directiveEnd, .mark .dot => some (.ok (.statement, scope))
  | .predicateOrEnd _, .mark .dot => some (.ok (.statement, scope))
  | .predicateOrEnd subject, _ => takePredicate scope token subject .statement
  | .bracketStart node use, .mark .closeBracket => some (.ok (deliverBrackets scope node use))
  | .bracketStart node use, _ => takePredicate scope token node (.brackets node use)
  | .predicate subject context, _ => takePredicate scope token subject context
  | .object subject predicate context, _ =>
    takeObject scope token (.object subject predicate line context)
  | .objectEnd subject predicate context, .mark .comma =>
    some (.ok (.object subject predicate context, scope))
  | .objectEnd subject _ context, .mark .semicolon => some (.ok (.semicolon subject context, scope))
  | .semicolon subject context, .mark .semicolon =>
    some (.ok (.semicolon subject context, scope))
  | .semicolon subject context, _ => takePredicate scope token subject context
  | .contextEnd .statement, .mark .dot => some (.ok (.statement, scope))
  | .contextEnd (.brackets node use), .mark .closeBracket =>
    some (.ok (deliverBrackets scope node use))
  | .item items use, .mark .closeParenthesis =>
    let (head, scope) := scope.emitCollection line items.reverse
    some (.ok (deliver scope head use))
  | .item items use, _ => takeObject scope token (.item items use)
  | .literalMark value use, .languageTag tag =>
    let tag := String.ofList (tag.toList.map Text.asciiLower)
    some (.ok (deliver scope (.literal value none (some tag)) use))
  | .literalMark value use, .mark .datatype => some (.ok (.datatype value use, scope))
  | .datatype value use, _ =>
    (scope.resolveIri? token).map fun iri =>
      iri.map fun iri => deliver scope (typedLiteral value iri) use
  | _, _ => none

/-- Settles the machine for a token and takes it. On failure the scope still tells what was given out
before. -/
def step (control : Control) (scope : Scope) (token : Token) :
    Scope × Except ParseError (Control × Scope) :=
  let (control, scope) := settle control scope (some token.lexeme)
  match take control scope token with
  | some result => (scope, result)
  | none =>
    (scope, .error (.unexpected (control.expectation (some token.lexeme)) (some token.lexeme)
      token.position))

/-- Settles the machine for the end of the text, where only whole statements may stand behind it. -/
def finish (control : Control) (scope : Scope) (stop : Position) : Scope × Option ParseError :=
  let (control, scope) := settle control scope none
  match control with
  | .statement => (scope, none)
  | _ => (scope, some (.unexpected (control.expectation none) none stop))

/-- Runs the machine over tokens. Gives the last scope, and the error that stopped it if there was
one. -/
def run (stop : Position) (control : Control) (scope : Scope) : List Token → Scope × Option ParseError
  | [] => finish control scope stop
  | token :: rest =>
    match step control scope token with
    | (_, .ok (control, scope)) => run stop control scope rest
    | (scope, .error e) => (scope, some e)

end CommandOntology.Turtle
