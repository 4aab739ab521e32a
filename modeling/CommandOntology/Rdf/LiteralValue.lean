import CommandOntology.Data.Sorting
import CommandOntology.Number.Reading
import CommandOntology.Rdf.Term

set_option autoImplicit false

namespace CommandOntology

/-- A value that a literal denotes. A decimal is `number * 10 ^ exponent`. -/
inductive LiteralValue
  | truth (isTrue : Bool)
  | integer (number : Int)
  | decimal (number exponent : Int)
  | real (value : Binary64)
  deriving DecidableEq, Repr

namespace LiteralValue

def integerTypes : List String :=
  ["integer", "byte", "int", "long", "negativeInteger", "nonNegativeInteger", "nonPositiveInteger",
    "positiveInteger", "short", "unsignedByte", "unsignedInt", "unsignedLong", "unsignedShort"].map
      (Xsd.namespaceIri ++ ·)

def float : String := Xsd.namespaceIri ++ "float"

def isNumericType (datatype : String) : Bool :=
  integerTypes.contains datatype || datatype == Xsd.decimal || datatype == Xsd.double
    || datatype == float

/-- A sign, digits with a point among them, and an exponent, all in digits of any script. Underscores
are left out beforehand. -/
def readDecimal? (text : List Char) : Option LiteralValue :=
  let (isNegative, rest) := Reading.readSign ((Text.trim text).filter (· ≠ '_'))
  (Reading.readDecimal rest).map fun parts =>
    let number : Int := Reading.number (parts.whole ++ parts.fraction)
    .decimal (if isNegative then -number else number)
      (parts.exponent - (parts.fraction.length : Int))

/-- A decimal may also be written as one of the words for what is no finite number. -/
def readSpecial? (text : List Char) : Option LiteralValue :=
  let (isNegative, rest) := Reading.readSign ((Text.trim text).filter (· ≠ '_'))
  let word := String.ofList (rest.map Text.asciiLower)
  let stem := String.ofList ((rest.map Text.asciiLower).filter fun c => !Text.isDecimalDigit c)
  if word = "inf" ∨ word = "infinity" then some (.real (.infinite isNegative))
  else if stem = "nan" ∨ stem = "snan" then some (.real .nan)
  else none

def ofLiteral? (lexical datatype : String) : Option LiteralValue :=
  if integerTypes.contains datatype then (Reading.integer lexical).toOption.map integer
  else if datatype = Xsd.decimal then
    match readDecimal? lexical.toList with
    | some value => some value
    | none => readSpecial? lexical.toList
  else if datatype = Xsd.double ∨ datatype = float then (Reading.float lexical).toOption.map real
  else if datatype = Xsd.boolean then
    let word := Text.strip (String.ofList (lexical.toList.map Text.asciiLower))
    some (.truth (word = "true" ∨ word = "1"))
  else none

def exponentLimit : Int := 5000

def fraction? : LiteralValue → Option (Int × Nat)
  | integer n => some (n, 1)
  | decimal n e =>
    let e := max (-exponentLimit) (min exponentLimit e)
    some (n * Nat.pow 10 e.toNat, Nat.pow 10 (-e).toNat)
  | real (.finite isNegative mantissa exponent) =>
    let (num, den) := Binary64.ratio mantissa exponent
    some (if isNegative then -(num : Int) else num, den)
  | _ => none

def order? (a b : LiteralValue) : Option Ordering :=
  match a, b with
  | real x, real y => x.order? y
  | real .nan, _ => none
  | _, real .nan => none
  | real (.infinite isNegative), _ => some (if isNegative then .lt else .gt)
  | _, real (.infinite isNegative) => some (if isNegative then .gt else .lt)
  | _, _ =>
    match a.fraction?, b.fraction? with
    | some (m, d), some (n, e) => some (compare (m * e) (n * d))
    | _, _ => none

end LiteralValue

structure ValuedLiteral where
  lexical : String
  datatype : Option String
  language : Option String
  value : Option LiteralValue

namespace ValuedLiteral

def ofParts (lexical : String) (datatype language : Option String) : ValuedLiteral :=
  ⟨lexical, datatype, language, datatype.bind (LiteralValue.ofLiteral? lexical)⟩

def type (a : ValuedLiteral) : String :=
  a.datatype.getD Xsd.string

/-- The order of two literals that both denote numbers; the inner nothing is that of numbers without
order. -/
def numberOrder? (a b : ValuedLiteral) : Option (Option Ordering) :=
  if LiteralValue.isNumericType a.type && LiteralValue.isNumericType b.type then
    match a.value, b.value with
    | some x, some y => some (x.order? y)
    | _, _ => none
  else none

def truthOrder? (a b : ValuedLiteral) : Option Ordering :=
  match a.value, b.value with
  | some (.truth x), some (.truth y) => some (compare x.toNat y.toNat)
  | _, _ => none

/-- Whether a missing language, which comes first, or a smaller one comes before another. -/
def languageLess : Option String → Option String → Bool
  | none, some _ => true
  | some a, some b => a < b
  | _, none => false

/-- The order of literals: numbers by value, others by datatype, language, value and text. -/
def less (a b : ValuedLiteral) : Bool :=
  match a.numberOrder? b with
  | some order => order == some .lt
  | none =>
    if a.type ≠ b.type then a.type < b.type
    else if a.language ≠ b.language then languageLess a.language b.language
    else
      match a.truthOrder? b with
      | some order => order == .lt
      | none => a.lexical < b.lexical

end ValuedLiteral

namespace Term

def listedBefore : Term → Term → Bool
  | blank a, blank b => a < b
  | blank _, _ => true
  | iri _, blank _ => false
  | iri a, iri b => a < b
  | iri _, literal .. => true
  | literal x d l, literal y e m =>
    (ValuedLiteral.ofParts x d l).less (ValuedLiteral.ofParts y e m)
  | literal .., _ => false

end Term

/-- Whether a term counts as true: zero, false and empty texts do not. -/
def Term.countsAsTrue : Term → Bool
  | .iri value => value ≠ ""
  | .blank label => label ≠ ""
  | .literal lexical datatype _ =>
    match datatype.bind (LiteralValue.ofLiteral? lexical) with
    | some (.truth b) => b
    | some (.integer n) => n ≠ 0
    | some (.decimal n _) => n ≠ 0
    | some (.real x) => !x.isZero
    | none => lexical ≠ ""

def listTerms (terms : List Term) : List Term :=
  stableSort Term.listedBefore terms

end CommandOntology
