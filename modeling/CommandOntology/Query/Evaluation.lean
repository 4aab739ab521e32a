import CommandOntology.Query.Order
import CommandOntology.Regex.Match
import CommandOntology.Text.Case

set_option autoImplicit false

namespace CommandOntology.Query

/-- The value of a condition: a term, or a truth value that was computed. -/
inductive Answer
  | term (term : Term)
  | truth (isTrue : Bool)
  deriving DecidableEq, Repr

/-- Why a condition gives no answer: it has no value, or a pattern that it computes cannot be used. -/
inductive Obstacle
  | noValue
  | unusablePattern (error : Regex.PatternError)
  deriving DecidableEq, Repr

inductive Comparand
  | truth (isTrue : Bool)
  | integer (n : Int)
  | real (x : Binary64)
  | text (s : String)
  | resource (term : Term)
  deriving DecidableEq, Repr

namespace Comparand

/-- The comparand of a literal. A number that cannot be read has none. -/
def ofLiteral (lexical : String) (datatype : Option String) : Except Obstacle Comparand :=
  if datatype = some Xsd.integer then
    (Reading.integer lexical).mapError (fun _ => .noValue) |>.map integer
  else if isNumeric datatype then
    (Reading.float lexical).mapError (fun _ => .noValue) |>.map real
  else if datatype = some Xsd.boolean then .ok (truth (lexical = "true" ∨ lexical = "1"))
  else .ok (text lexical)

def ofAnswer : Answer → Except Obstacle Comparand
  | .truth b => .ok (truth b)
  | .term (.literal lexical datatype _) => ofLiteral lexical datatype
  | .term t => .ok (resource t)

def numberOrder? : Comparand → Comparand → Option Ordering
  | integer m, integer n => some (compare m n)
  | integer n, real x => x.orderInt? n
  | real x, integer n => (x.orderInt? n).map (·.swap)
  | real x, real y => x.order? y
  | _, _ => none

def isNumber : Comparand → Bool
  | integer _ | real _ => true
  | _ => false

/-- The order of two comparands of one kind; the inner nothing is that of numbers without order. -/
def order? (a b : Comparand) : Option (Option Ordering) :=
  match a, b with
  | truth x, truth y => some (some (compare x.toNat y.toNat))
  | text x, text y => some (some (compare x y))
  | _, _ => if a.isNumber && b.isNumber then some (numberOrder? a b) else none

/-- A truth value counts as the number one or zero beside a number. -/
def asNumber : Comparand → Comparand
  | truth b => integer b.toNat
  | other => other

/-- Whether two comparands are equal, one of which is a computed truth value. -/
def sameAsTruth (a b : Comparand) : Bool :=
  numberOrder? a.asNumber b.asNumber == some .eq

def holds : Comparand → Bool
  | truth b => b
  | integer n => n ≠ 0
  | real x => !x.isZero
  | text s => s ≠ ""
  | resource _ => true

end Comparand

namespace Answer

def truth? : Answer → Except Obstacle Bool
  | truth b => .ok b
  | term (.literal lexical datatype _) => (Comparand.ofLiteral lexical datatype).map (·.holds)
  | term _ => .error .noValue

def string? : Answer → Except Obstacle String
  | term (.literal lexical datatype _) =>
    if datatype = none ∨ datatype = some Xsd.string then .ok lexical else .error .noValue
  | _ => .error .noValue

def language? : Answer → Option String
  | term (.literal _ _ language) => language
  | _ => none

/-- Numbers and truth values are equal by value, other terms if they are the same. -/
def equalTerms (a b : Term) : Except Obstacle Bool :=
  match a, b with
  | .literal x d _, .literal y e _ => do
    let left ← Comparand.ofLiteral x d
    let right ← Comparand.ofLiteral y e
    match left, right with
    | .truth p, .truth q => return p == q
    | _, _ =>
      if left.isNumber && right.isNumber then return Comparand.numberOrder? left right == some .eq
      else return a == b
  | _, _ => .ok (a == b)

def equal (a b : Answer) : Except Obstacle Bool :=
  match a, b with
  | term s, term t => equalTerms s t
  | _, _ => do return Comparand.sameAsTruth (← Comparand.ofAnswer a) (← Comparand.ofAnswer b)

def order? (a b : Answer) : Except Obstacle (Option Ordering) := do
  match Comparand.order? (← Comparand.ofAnswer a) (← Comparand.ofAnswer b) with
  | some order => return order
  | none => throw .noValue

end Answer

namespace Comparison

def agrees (op : Comparison) (order : Option Ordering) : Bool :=
  match op, order with
  | lt, some .lt => true
  | gt, some .gt => true
  | le, some .lt => true
  | le, some .eq => true
  | ge, some .gt => true
  | ge, some .eq => true
  | _, _ => false

def apply (op : Comparison) (a b : Answer) : Except Obstacle Bool :=
  match op with
  | eq => Answer.equal a b
  | ne => (Answer.equal a b).map (!·)
  | _ => (Answer.order? a b).map op.agrees

end Comparison

def holdsPart (part : List Char) : List Char → Bool
  | [] => part.isEmpty
  | c :: rest => part.isPrefixOf (c :: rest) || holdsPart part rest

def TextTest.apply (test : TextTest) (text part : String) : Bool :=
  match test with
  | contains => holdsPart part.toList text.toList
  | starts => part.toList.isPrefixOf text.toList
  | ends => part.toList.isSuffixOf text.toList

def textOf : Answer → Except Obstacle Term
  | .truth b => .ok (.plain (if b then "true" else "false"))
  | .term (.blank _) => .error .noValue
  | .term t => .ok (.plain t.text)

def TextFunction.apply (function : TextFunction) (a : Answer) : Except Obstacle Term :=
  match function with
  | text => textOf a
  | lower => a.string?.map fun s => .literal (Text.lower s) none a.language?
  | upper => a.string?.map fun s => .literal (Text.upper s) none a.language?

def regexMode (flags : List Char) : Except Obstacle Regex.Mode :=
  flags.foldlM
    (fun mode c =>
      match c with
      | 'i' => .ok { mode with ignoresCase := true }
      | 'm' => .ok { mode with isMultiline := true }
      | 's' => .ok { mode with dotMatchesAll := true }
      | 'x' => .ok { mode with isVerbose := true }
      | _ => .error .noValue)
    {}

/-- A pattern that was computed. One that is malformed has no value. -/
def regexPattern (mode : Regex.Mode) (pattern : String) : Except Obstacle Regex.Pattern :=
  (Regex.parse mode pattern).mapError fun e =>
    if e.isMalformed then .noValue else .unusablePattern e

def regexTest (text pattern : Answer) (flags : String) : Except Obstacle Bool := do
  let source ← pattern.string?
  let compiled ← regexPattern (← regexMode flags.toList) source
  return compiled.matchesIn (← text.string?)

/-- The disjunction of two truth values. One that is missing does no harm beside one that is true. -/
def disjunction (left right : Except Obstacle Bool) : Except Obstacle Bool :=
  match left with
  | .ok true => .ok true
  | .ok false => right
  | .error .noValue =>
    match right with
    | .ok true => .ok true
    | .ok false => .error .noValue
    | .error e => .error e
  | .error e => .error e

/-- The conjunction of two truth values, of which the second is not looked at if the first is
false. -/
def conjunction (left right : Except Obstacle Bool) : Except Obstacle Bool :=
  match left with
  | .ok true => right
  | .ok false => .ok false
  | .error e => .error e

namespace Expression

def eval (binding : Binding) : Expression → Except Obstacle Answer
  | var name =>
    match findField binding name with
    | some t => .ok (.term t)
    | none => .error .noValue
  | constant value => .ok (.term value)
  | not operand => do return .truth !(← (← eval binding operand).truth?)
  | compare op left right => do
    let a ← eval binding left
    let b ← eval binding right
    return .truth (← op.apply a b)
  | and left right =>
    (conjunction (eval binding left >>= Answer.truth?) (eval binding right >>= Answer.truth?)).map
      .truth
  | or left right =>
    (disjunction (eval binding left >>= Answer.truth?) (eval binding right >>= Answer.truth?)).map
      .truth
  | bound name => .ok (.truth (findField binding name).isSome)
  | apply function operand => do return .term (← function.apply (← eval binding operand))
  | test kind text part => do
    let a ← eval binding text
    let b ← eval binding part
    return .truth (kind.apply (← a.string?) (← b.string?))
  | regex text pattern => do
    let a ← eval binding text
    let b ← eval binding pattern
    return .truth (← regexTest a b "")
  | regexFlags text pattern flags => do
    let a ← eval binding text
    let b ← eval binding pattern
    let c ← eval binding flags
    return .truth (← regexTest a b (← c.string?))

def passes (binding : Binding) (e : Expression) : Except Regex.PatternError Bool :=
  match eval binding e >>= Answer.truth? with
  | .ok b => .ok b
  | .error .noValue => .ok false
  | .error (.unusablePattern e) => .error e

end Expression

end CommandOntology.Query
