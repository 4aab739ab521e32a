import CommandOntology.Data.Distinct
import CommandOntology.Data.Value
import CommandOntology.Query.Error
import CommandOntology.Query.Lexer
import CommandOntology.Rdf.Namespaces
import CommandOntology.Regex.Parser
import CommandOntology.Text.Case
import CommandOntology.Text.Escape

set_option autoImplicit false

/-!
# Reading queries

The grammar of queries as a machine that takes one token at a time, the end of the query included. Its
control says what may come next, and holds the conditions around it that are still open. Where a token
may be left out, the machine takes the next token as if it had been there.
-/

namespace CommandOntology.Query

/-- A function call whose closing parenthesis is to come, and where it starts. -/
structure Call where
  function : FunctionName
  text : String
  position : Nat
  deriving DecidableEq, Repr

/-- A condition that is being read: what stands before the operand that is to come. -/
structure Partial where
  disjunction : Option Expression := none
  conjunction : Option Expression := none
  comparison : Option (Comparison × Expression) := none
  negations : Nat := 0
  deriving DecidableEq, Repr

mutual

inductive Use
  | filter
  | operand (before : Partial) (enclosing : Enclosing)

/-- What is around a condition: parentheses, or a call whose arguments so far are held last first. -/
inductive Enclosing
  | parenthesis (use : Use)
  | argument (call : Call) (done : List Expression) (use : Use)

end

inductive Place
  | subject
  | predicate (subject : Slot)
  | object (subject predicate : Slot)
  | operand (before : Partial) (enclosing : Enclosing)

inductive Control
  /-- A declaration or the selection. -/
  | prologue
  | label
  | labelIri (label : String)
  | baseIri
  | selection (mayBeDistinct : Bool)
  /-- Another variable, or the group. -/
  | moreVariables
  | groupOpen
  /-- A pattern, a filter, an optional group, or the end of the group. -/
  | item
  /-- A point that may follow a filter or a group, or the next item. -/
  | itemEnd
  /-- An optional group without patterns has been closed. -/
  | emptyOptional
  | predicate (subject : Slot)
  | object (subject predicate : Slot)
  /-- A comma, a semicolon, or the end of the pattern. -/
  | objectEnd (subject predicate : Slot)
  /-- Another semicolon, a predicate, or the end of the pattern. -/
  | semicolon (subject : Slot)
  /-- The mark of a quoted text, or whatever follows the text. -/
  | literalMark (lexical : String) (position : Nat) (place : Place)
  | datatype (lexical : String) (place : Place)
  | filter
  | callOpen (call : Call) (use : Use)
  | firstArgument (call : Call) (use : Use)
  | operand (before : Partial) (enclosing : Enclosing)
  /-- An operator, or the end of the condition. A value may be compared once. -/
  | operandEnd (before : Partial) (value : Expression) (mayCompare : Bool) (enclosing : Enclosing)
  /-- An order or a slice. -/
  | modifiers
  | orderBy
  | orderConditions
  | orderOpen (descending : Bool)
  | orderVariable (descending : Bool)
  | orderClose
  | slices
  | count (slice : Slice)
  | finished

structure Scope where
  visible : List (String × String)
  declared : List (String × String)
  base : Option String
  isDistinct : Bool
  /-- The selected variables; without them, all. -/
  selected : Option (List String)
  patterns : List Pattern
  optionals : List OptionalGroup
  filters : List Expression
  /-- The optional group that is open. -/
  inner : Option OptionalGroup
  order : List OrderCondition
  limit : Option Nat
  offset : Nat
  deriving Repr

namespace Scope

def initial (visible : List (String × String)) (base : Option String) : Scope where
  visible := visible
  declared := []
  base := base
  isDistinct := false
  selected := none
  patterns := []
  optionals := []
  filters := []
  inner := none
  order := []
  limit := none
  offset := 0

def addPattern (s : Scope) (p : Pattern) : Scope :=
  match s.inner with
  | some group => { s with inner := some { group with patterns := group.patterns ++ [p] } }
  | none => { s with patterns := s.patterns ++ [p] }

def addFilter (s : Scope) (e : Expression) : Scope :=
  match s.inner with
  | some group => { s with inner := some { group with filters := group.filters ++ [e] } }
  | none => { s with filters := s.filters ++ [e] }

def addSelected (s : Scope) (name : String) : Scope :=
  { s with selected := some (s.selected.getD [] ++ [name]) }

def addOrder (s : Scope) (name : String) (descending : Bool) : Scope :=
  { s with order := s.order ++ [⟨name, descending⟩] }

/-- Cuts the result. A later cut of the same kind replaces an earlier one. -/
def cut (s : Scope) (slice : Slice) (n : Nat) : Scope :=
  match slice with
  | .limit => { s with limit := some n }
  | .offset => { s with offset := n }

def namespace? (s : Scope) (label : String) : Option String :=
  match findField s.declared label with
  | some iri => some iri
  | none => findField s.visible label

end Scope

abbrev Outcome := Except QueryError (Control × Scope)

namespace Token

def content? (t : Token) : Option String :=
  if t.text = "" then none else some t.text

def fault {α : Type} (t : Token) (fault : SyntaxFault) : Except QueryError α :=
  .error (.malformed fault t.position t.content?)

def unexpected {α : Type} (t : Token) (expected : Expectation) : Except QueryError α :=
  t.fault (.unexpected expected (if t.kind = .endOfQuery then none else some t.text))

def variableName (t : Token) : String :=
  String.ofList (t.text.toList.drop 1)

def isPunctuation (t : Token) (text : String) : Bool :=
  t.kind == .punctuation && t.text == text

def isKeyword (t : Token) (keyword : String) : Bool :=
  t.kind == .word && Text.upper t.text == keyword

def function? (t : Token) : Option FunctionName :=
  if t.kind = .word then FunctionName.ofText? (Text.lower t.text) else none

def comparison? (t : Token) : Option Comparison :=
  if t.kind = .operator then Comparison.ofText? t.text else none

end Token

def stripQuotes (raw : List Char) : List Char :=
  let isLong := raw.take 3 = ['"', '"', '"'] ∨ raw.take 3 = ['\'', '\'', '\'']
  let n := if isLong then 3 else 1
  (raw.take (raw.length - n)).drop n

/-- Replaces escapes. `skip` characters belong to an escape that has been read. A backslash before a
line break, or at the end, stands for itself. -/
def unescapeFrom (skip : Nat) : List Char → Except Text.EscapeError (List Char)
  | [] => .ok []
  | c :: rest =>
    match skip with
    | skip + 1 => unescapeFrom skip rest
    | 0 =>
      if c = '\\' ∧ rest ≠ [] ∧ rest.head? ≠ some '\n' then do
        let (escaped, n) ← Text.readEscape rest
        return escaped :: (← unescapeFrom n rest)
      else (unescapeFrom 0 rest).map (c :: ·)

def unescape (text : List Char) (position : Nat) : Except QueryError String :=
  match unescapeFrom 0 text with
  | .ok chars => .ok (String.ofList chars)
  | .error (.unknown code) => .error (.malformed (.unknownEscape code) position none)
  | .error (.tooLarge value) => .error (.codePointTooLarge value)

def numberDatatype (text : String) : String :=
  if text.toList.any fun c => c = 'e' ∨ c = 'E' then Xsd.double
  else if text.toList.contains '.' then Xsd.decimal
  else Xsd.integer

/-- The literal of a text with a datatype. Plain strings have none. -/
def typedLiteral (lexical datatype : String) : Term :=
  .literal lexical (if datatype = Xsd.string then none else some datatype) none

def Scope.resolveReference (s : Scope) (t : Token) : Except QueryError String :=
  let raw := (t.text.toList.drop 1).dropLast
  if Iri.isAbsolute raw then .ok (String.ofList raw)
  else
    match s.base with
    | none => t.fault (.relativeIri (String.ofList raw))
    | some base => (Iri.resolve base (String.ofList raw)).mapError .unresolvable

def Scope.resolveName (s : Scope) (t : Token) : Except QueryError String :=
  let (label, rest) := (Namespaces.splitName t.text).getD (t.text, "")
  match s.namespace? label with
  | some iri => .ok (iri ++ rest)
  | none => t.fault (.undeclaredLabel label)

/-- The IRI that a token denotes, if it is a reference or a prefixed name. -/
def Scope.resolveIri? (s : Scope) (t : Token) : Option (Except QueryError String) :=
  match t.kind with
  | .iri => some (s.resolveReference t)
  | .name => some (s.resolveName t)
  | _ => none

def joined (join : Expression → Expression → Expression) (before : Option Expression)
    (value : Expression) : Expression :=
  match before with
  | none => value
  | some left => join left value

def negated (value : Expression) : Nat → Expression
  | 0 => value
  | n + 1 => .not (negated value n)

namespace Partial

def conjunctionWith (before : Partial) (value : Expression) : Expression :=
  joined .and before.conjunction value

def whole (before : Partial) (value : Expression) : Expression :=
  joined .or before.disjunction (before.conjunctionWith value)

end Partial

/-- What follows an operand: it completes a comparison, or may be compared. -/
def afterOperand (before : Partial) (operand : Expression) (enclosing : Enclosing) : Control :=
  let value := negated operand before.negations
  match before.comparison with
  | some (operator, left) =>
    .operandEnd { before with comparison := none, negations := 0 } (.compare operator left value)
      false enclosing
  | none => .operandEnd { before with negations := 0 } value true enclosing

def deliver (scope : Scope) (e : Expression) : Use → Control × Scope
  | .filter => (.itemEnd, scope.addFilter e)
  | .operand before enclosing => (afterOperand before e enclosing, scope)

def isFlag (c : Char) : Bool :=
  c = 'i' || c = 'm' || c = 's' || c = 'x'

/-- The characters of a text that are no flags, in order and each once. -/
def unknownFlags (flags : String) : String :=
  String.ofList ((distinct (flags.toList.filter (!isFlag ·))).mergeSort fun a b => a ≤ b)

def Call.fault {α : Type} (call : Call) (fault : SyntaxFault) : Except QueryError α :=
  .error (.malformed fault call.position (some call.text))

def Call.checkFlags (call : Call) : Expression → Except QueryError Unit
  | .constant value =>
    let unknown := unknownFlags value.text
    if unknown = "" then .ok () else call.fault (.unknownFlags unknown)
  | _ => .ok ()

def Call.checkPattern (call : Call) : Expression → Except QueryError Unit
  | .constant value =>
    match Regex.parse {} value.text with
    | .ok _ => .ok ()
    | .error e => if e.isMalformed then call.fault (.invalidPattern e) else .error (.unusablePattern e)
  | _ => .ok ()

def Call.expression (call : Call) (arguments : List Expression) : Except QueryError Expression :=
  match call.function, arguments with
  | .apply function, [operand] => .ok (.apply function operand)
  | .test test, [text, part] => .ok (.test test text part)
  | .bound, [.var name] => .ok (.bound name)
  | .bound, [_] => call.fault .boundArgument
  | .regex, [text, pattern] => do
    call.checkPattern pattern
    return .regex text pattern
  | .regex, [text, pattern, flags] => do
    call.checkFlags flags
    call.checkPattern pattern
    return .regexFlags text pattern flags
  | function, _ => call.fault (.argumentCount function arguments.length)

def openParenthesis (use : Use) : Control :=
  .operand {} (.parenthesis use)

def openCall (t : Token) (function : FunctionName) (use : Use) : Control :=
  .callOpen ⟨function, t.text, t.position⟩ use

def takePrologue (s : Scope) (t : Token) : Outcome :=
  if t.isKeyword "PREFIX" then .ok (.label, s)
  else if t.isKeyword "BASE" then .ok (.baseIri, s)
  else if t.isKeyword "SELECT" then .ok (.selection true, s)
  else t.unexpected .select

def takeLabel (s : Scope) (t : Token) : Outcome :=
  if t.kind = .name then
    match Namespaces.splitName t.text with
    | some (label, "") => .ok (.labelIri label, s)
    | _ => t.fault .labelWithRest
  else t.unexpected .label

def takeLabelIri (label : String) (s : Scope) (t : Token) : Outcome :=
  if t.kind = .iri then do
    let iri ← s.resolveReference t
    return (.prologue, { s with declared := putField s.declared label iri })
  else t.unexpected .labelIri

def takeBaseIri (s : Scope) (t : Token) : Outcome :=
  if t.kind = .iri then do return (.prologue, { s with base := some (← s.resolveReference t) })
  else t.unexpected .baseIri

def takeSelection (mayBeDistinct : Bool) (s : Scope) (t : Token) : Outcome :=
  if mayBeDistinct && t.isKeyword "DISTINCT" then .ok (.selection false, { s with isDistinct := true })
  else if t.isPunctuation "*" then .ok (.moreVariables, s)
  else if t.kind = .var then .ok (.moreVariables, s.addSelected t.variableName)
  else t.unexpected .selection

def takeGroupOpen (s : Scope) (t : Token) : Outcome :=
  if t.isPunctuation "\x7b" then .ok (.item, s) else t.unexpected .groupOpen

def takeMoreVariables (s : Scope) (t : Token) : Outcome :=
  if t.kind = .var && s.selected.isSome then .ok (.moreVariables, s.addSelected t.variableName)
  else if t.isKeyword "WHERE" then .ok (.groupOpen, s)
  else takeGroupOpen s t

/-- Takes a place of a pattern: a variable, an IRI, or the start of a literal. -/
def takeSlot (s : Scope) (t : Token) (expected : Expectation) (place : Place)
    (onSlot : Slot → Control × Scope) (onLiteral : Term → Outcome) : Outcome :=
  match t.kind with
  | .var => .ok (onSlot (.var t.variableName))
  | .blankNode => t.fault .blankNode
  | .string => do
    let lexical ← unescape (stripQuotes t.text.toList) t.position
    return (.literalMark lexical t.position place, s)
  | .number => onLiteral (.typed t.text (numberDatatype t.text))
  | .word =>
    if t.text = "true" ∨ t.text = "false" then onLiteral (.typed t.text Xsd.boolean)
    else t.unexpected expected
  | _ =>
    match s.resolveIri? t with
    | some iri => iri.map fun iri => onSlot (.term (.iri iri))
    | none => t.unexpected expected

/-- The error of a literal that cannot stand where it is, at the token that ends it. -/
def misplaced {α : Type} (fault : SyntaxFault) (position : Nat) : Except QueryError α :=
  .error (.malformed fault position none)

def deliverLiteral (s : Scope) (literal : Term) (position : Nat) : Place → Outcome
  | .subject => misplaced .literalSubject position
  | .predicate _ => misplaced .literalPredicate position
  | .object subject predicate =>
    .ok (.objectEnd subject predicate, s.addPattern ⟨subject, predicate, .term literal⟩)
  | .operand before enclosing => .ok (afterOperand before (.constant literal) enclosing, s)

def takeSubject (s : Scope) (t : Token) : Outcome :=
  takeSlot s t .subject .subject (fun slot => (.predicate slot, s))
    (fun literal => deliverLiteral s literal t.position .subject)

def takePredicate (subject : Slot) (s : Scope) (t : Token) : Outcome :=
  if t.kind = .word ∧ t.text = "a" then .ok (.object subject (.term (.iri Rdf.type)), s)
  else
    takeSlot s t .predicate (.predicate subject) (fun slot => (.object subject slot, s))
      (fun literal => deliverLiteral s literal t.position (.predicate subject))

def takeObject (subject predicate : Slot) (s : Scope) (t : Token) : Outcome :=
  takeSlot s t .object (.object subject predicate)
    (fun slot => (.objectEnd subject predicate, s.addPattern ⟨subject, predicate, slot⟩))
    (fun literal => deliverLiteral s literal t.position (.object subject predicate))

def closeGroup (s : Scope) : Control × Scope :=
  match s.inner with
  | none => (.modifiers, s)
  | some group =>
    if group.patterns.isEmpty then (.emptyOptional, s)
    else (.itemEnd, { s with optionals := s.optionals ++ [group], inner := none })

def takeItem (s : Scope) (t : Token) : Outcome :=
  if t.isPunctuation "\x7d" then .ok (closeGroup s)
  else if t.kind = .endOfQuery then t.unexpected .groupClose
  else if t.isKeyword "OPTIONAL" then
    if s.inner.isSome then t.unexpected .flatOptional
    else .ok (.groupOpen, { s with inner := some ⟨[], []⟩ })
  else if t.isKeyword "FILTER" then .ok (.filter, s)
  else takeSubject s t

def takeItemEnd (s : Scope) (t : Token) : Outcome :=
  if t.isPunctuation "." then .ok (.item, s) else takeItem s t

/-- After a pattern there is a point, or an item that is no pattern. -/
def takePatternEnd (s : Scope) (t : Token) : Outcome :=
  if t.isPunctuation "." then .ok (.item, s)
  else if t.isPunctuation "\x7d" || t.isKeyword "OPTIONAL" || t.isKeyword "FILTER" then takeItem s t
  else t.unexpected .patternEnd

def takeObjectEnd (subject predicate : Slot) (s : Scope) (t : Token) : Outcome :=
  if t.isPunctuation "," then .ok (.object subject predicate, s)
  else if t.isPunctuation ";" then .ok (.semicolon subject, s)
  else takePatternEnd s t

def takeSemicolon (subject : Slot) (s : Scope) (t : Token) : Outcome :=
  if t.isPunctuation ";" then .ok (.semicolon subject, s)
  else if t.isPunctuation "." || t.isPunctuation "\x7d" then takePatternEnd s t
  else takePredicate subject s t

def takeFilter (s : Scope) (t : Token) : Outcome :=
  if t.isPunctuation "(" then .ok (openParenthesis .filter, s)
  else
    match t.function? with
    | some function => .ok (openCall t function .filter, s)
    | none => t.unexpected .filter

def takeCallOpen (call : Call) (use : Use) (s : Scope) (t : Token) : Outcome :=
  if t.isPunctuation "(" then .ok (.firstArgument call use, s)
  else t.unexpected (.callOpen call.function)

def takeOperand (before : Partial) (enclosing : Enclosing) (s : Scope) (t : Token) : Outcome :=
  let use := Use.operand before enclosing
  if t.kind = .operator ∧ t.text = "!" then
    .ok (.operand { before with negations := before.negations + 1 } enclosing, s)
  else if t.isPunctuation "(" then .ok (openParenthesis use, s)
  else
    match t.function? with
    | some function => .ok (openCall t function use, s)
    | none =>
      if t.kind = .blankNode then t.unexpected .expression
      else
        takeSlot s t .expression (.operand before enclosing)
          (fun slot => (afterOperand before slot.expression enclosing, s))
          (fun literal => deliverLiteral s literal t.position (.operand before enclosing))

def closeCall (call : Call) (arguments : List Expression) (use : Use) (s : Scope) : Outcome := do
  return deliver s (← call.expression arguments) use

def takeFirstArgument (call : Call) (use : Use) (s : Scope) (t : Token) : Outcome :=
  if t.isPunctuation ")" then closeCall call [] use s
  else takeOperand {} (.argument call [] use) s t

def parenthesisExpectation : Use → Expectation
  | .filter => .filterClose
  | .operand .. => .parenthesisClose

def takeConditionEnd (condition : Expression) (enclosing : Enclosing) (s : Scope) (t : Token) :
    Outcome :=
  match enclosing with
  | .parenthesis use =>
    if t.isPunctuation ")" then .ok (deliver s condition use)
    else t.unexpected (parenthesisExpectation use)
  | .argument call done use =>
    if t.isPunctuation "," then .ok (.operand {} (.argument call (condition :: done) use), s)
    else if t.isPunctuation ")" then closeCall call (condition :: done).reverse use s
    else t.unexpected (.callClose call.function)

def takeOperandEnd (before : Partial) (value : Expression) (mayCompare : Bool)
    (enclosing : Enclosing) (s : Scope) (t : Token) : Outcome :=
  match if mayCompare then t.comparison? else none with
  | some operator => .ok (.operand { before with comparison := some (operator, value) } enclosing, s)
  | none =>
    if t.kind = .operator ∧ t.text = "&&" then
      .ok (.operand { before with conjunction := some (before.conjunctionWith value) } enclosing, s)
    else if t.kind = .operator ∧ t.text = "||" then
      .ok (.operand { disjunction := some (before.whole value) } enclosing, s)
    else takeConditionEnd (before.whole value) enclosing s t

def takeLiteralEnd (literal : Term) (position : Nat) (place : Place) (s : Scope) (t : Token) :
    Outcome :=
  match place with
  | .subject => misplaced .literalSubject position
  | .predicate _ => misplaced .literalPredicate position
  | .object subject predicate =>
    takeObjectEnd subject predicate (s.addPattern ⟨subject, predicate, .term literal⟩) t
  | .operand before enclosing =>
    match afterOperand before (.constant literal) enclosing with
    | .operandEnd before value mayCompare enclosing =>
      takeOperandEnd before value mayCompare enclosing s t
    | control => .ok (control, s)

def takeLiteralMark (lexical : String) (position : Nat) (place : Place) (s : Scope) (t : Token) :
    Outcome :=
  if t.kind = .languageTag then
    let tag := Text.lower t.variableName
    deliverLiteral s (.literal lexical none (some tag)) t.position place
  else if t.kind = .operator ∧ t.text = "^^" then .ok (.datatype lexical place, s)
  else takeLiteralEnd (.plain lexical) position place s t

def takeDatatype (lexical : String) (place : Place) (s : Scope) (t : Token) : Outcome :=
  match s.resolveIri? t with
  | some iri => do deliverLiteral s (typedLiteral lexical (← iri)) t.position place
  | none => t.unexpected .iri

def takeSlices (s : Scope) (t : Token) : Outcome :=
  if t.isKeyword "LIMIT" then .ok (.count .limit, s)
  else if t.isKeyword "OFFSET" then .ok (.count .offset, s)
  else if t.kind = .endOfQuery then .ok (.finished, s)
  else t.unexpected .endOfQuery

def takeModifiers (s : Scope) (t : Token) : Outcome :=
  if t.isKeyword "ORDER" then .ok (.orderBy, s) else takeSlices s t

def takeOrderBy (s : Scope) (t : Token) : Outcome :=
  if t.isKeyword "BY" then .ok (.orderConditions, s) else t.unexpected .orderBy

def takeOrderConditions (s : Scope) (t : Token) : Outcome :=
  if t.isKeyword "ASC" then .ok (.orderOpen false, s)
  else if t.isKeyword "DESC" then .ok (.orderOpen true, s)
  else if t.kind = .var then .ok (.orderConditions, s.addOrder t.variableName false)
  else if s.order.isEmpty then t.unexpected .orderCondition
  else takeSlices s t

def takeOrderOpen (descending : Bool) (s : Scope) (t : Token) : Outcome :=
  if t.isPunctuation "(" then .ok (.orderVariable descending, s) else t.unexpected .orderOpen

def takeOrderVariable (descending : Bool) (s : Scope) (t : Token) : Outcome :=
  if t.kind = .var then .ok (.orderClose, s.addOrder t.variableName descending)
  else t.unexpected .orderVariable

def takeOrderClose (s : Scope) (t : Token) : Outcome :=
  if t.isPunctuation ")" then .ok (.orderConditions, s) else t.unexpected .orderClose

def takeCount (slice : Slice) (s : Scope) (t : Token) : Outcome :=
  if t.kind ≠ .number then t.unexpected (.count slice)
  else if !t.text.toList.all Text.isDigitLike then t.fault (.notCount slice)
  else
    match Reading.integer t.text with
    | .ok n => .ok (.slices, s.cut slice n.toNat)
    | .error e => .error (.uncountable e)

def take (control : Control) (s : Scope) (t : Token) : Outcome :=
  match control with
  | .prologue => takePrologue s t
  | .label => takeLabel s t
  | .labelIri label => takeLabelIri label s t
  | .baseIri => takeBaseIri s t
  | .selection mayBeDistinct => takeSelection mayBeDistinct s t
  | .moreVariables => takeMoreVariables s t
  | .groupOpen => takeGroupOpen s t
  | .item => takeItem s t
  | .itemEnd => takeItemEnd s t
  | .emptyOptional => t.unexpected .optionalPattern
  | .predicate subject => takePredicate subject s t
  | .object subject predicate => takeObject subject predicate s t
  | .objectEnd subject predicate => takeObjectEnd subject predicate s t
  | .semicolon subject => takeSemicolon subject s t
  | .literalMark lexical position place => takeLiteralMark lexical position place s t
  | .datatype lexical place => takeDatatype lexical place s t
  | .filter => takeFilter s t
  | .callOpen call use => takeCallOpen call use s t
  | .firstArgument call use => takeFirstArgument call use s t
  | .operand before enclosing => takeOperand before enclosing s t
  | .operandEnd before value mayCompare enclosing =>
    takeOperandEnd before value mayCompare enclosing s t
  | .modifiers => takeModifiers s t
  | .orderBy => takeOrderBy s t
  | .orderConditions => takeOrderConditions s t
  | .orderOpen descending => takeOrderOpen descending s t
  | .orderVariable descending => takeOrderVariable descending s t
  | .orderClose => takeOrderClose s t
  | .slices => takeSlices s t
  | .count slice => takeCount slice s t
  | .finished => t.unexpected .endOfQuery

def run (control : Control) (s : Scope) : List Token → Except QueryError Scope
  | [] => .ok s
  | t :: rest => do
    let (control, s) ← take control s t
    run control s rest

end CommandOntology.Query
