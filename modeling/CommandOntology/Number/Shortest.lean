import CommandOntology.Number.Binary64

set_option autoImplicit false

/-!
# Texts of floating-point numbers

The shortest decimal that reads back as the number, and the scientific form with a fixed number of
digits. A shortest decimal is looked for on the grids of one, two, ... seventeen digits; on the first
grid with a point in the interval of values that round to the number, the nearer of the number's two
neighbours is taken.
-/

namespace CommandOntology.Binary64

structure Decimal where
  digits : Nat
  exponent : Int
  deriving DecidableEq, Repr

def leadingExponent (num den : Nat) : Int :=
  if den ≤ num then (decimalLength (num / den) : Int) - 1
  else -(decimalLength ((den + num - 1) / num - 1) : Int)

/-- The values between which everything rounds to `mantissa * 2 ^ exponent`, and whether they do so
themselves, in units of two to `exponent - 2`. -/
structure Neighbourhood where
  low : Nat
  high : Nat
  closed : Bool

def neighbourhood (mantissa : Nat) (exponent : Int) : Neighbourhood :=
  { low := if mantissa = Nat.pow 2 52 ∧ -1074 < exponent then 4 * mantissa - 1 else 4 * mantissa - 2
    high := 4 * mantissa + 2
    closed := mantissa % 2 = 0 }

def Neighbourhood.holds (area : Neighbourhood) (exponent power : Int) (digits : Nat) : Bool :=
  let value := digits * Nat.pow 10 power.toNat * Nat.pow 2 (2 - exponent).toNat
  let scale := Nat.pow 10 (-power).toNat * Nat.pow 2 (exponent - 2).toNat
  if area.closed then area.low * scale ≤ value && value ≤ area.high * scale
  else area.low * scale < value && value < area.high * scale

/-- Of the two neighbours of the number on the grid of `10 ^ power`, the nearer one that rounds to the
number; of two equally near the even one. -/
def onGrid? (mantissa : Nat) (exponent power : Int) : Option Nat :=
  let (num, den) := ratio mantissa exponent
  let num := num * Nat.pow 10 (-power).toNat
  let den := den * Nat.pow 10 power.toNat
  let below := num / den
  let remainder := num % den
  let area := neighbourhood mantissa exponent
  let lowFits := area.holds exponent power below
  let highFits := area.holds exponent power (below + 1)
  match lowFits, highFits with
  | true, true =>
    if 2 * remainder < den then some below
    else if den < 2 * remainder then some (below + 1)
    else some (below + below % 2)
  | true, false => some below
  | false, true => some (below + 1)
  | false, false => none

def Decimal.strip : (count : Nat) → Decimal → Decimal
  | 0, d => d
  | count + 1, d =>
    if d.digits ≠ 0 ∧ d.digits % 10 = 0 then strip count ⟨d.digits / 10, d.exponent + 1⟩ else d

/-- Looks on the grids of `length`, `length + 1`, ... digits, `count` of them. -/
def shortestFrom (mantissa : Nat) (exponent leading : Int) : (count length : Nat) → Decimal
  | 0, length =>
    let power := leading - length + 1
    ⟨(onGrid? mantissa exponent power).getD 0, power⟩
  | count + 1, length =>
    let power := leading - length + 1
    match onGrid? mantissa exponent power with
    | some digits => Decimal.strip 17 ⟨digits, power⟩
    | none => shortestFrom mantissa exponent leading count (length + 1)

/-- The shortest decimal that reads back as `mantissa * 2 ^ exponent`. -/
def shortest (mantissa : Nat) (exponent : Int) : Decimal :=
  if mantissa = 0 then ⟨0, 0⟩
  else
    let (num, den) := ratio mantissa exponent
    shortestFrom mantissa exponent (leadingExponent num den) 17 1

def digitChars (n : Nat) : List Char :=
  Nat.toDigits 10 n

def exponentChars (exponent : Int) : List Char :=
  let digits := digitChars exponent.natAbs
  (if exponent < 0 then '-' else '+') :: (if digits.length < 2 then '0' :: digits else digits)

/-- The first digit, a point and the other digits if there are any, and the exponent. -/
def scientificChars (digits : List Char) (exponent : Int) : List Char :=
  match digits with
  | [] => []
  | d :: rest => d :: (if rest.isEmpty then [] else '.' :: rest) ++ 'e' :: exponentChars exponent

/-- Digits with the point after the first `point` of them, zeros filled in, and at least one digit on
each side of the point. -/
def positionalChars (digits : List Char) (point : Int) : List Char :=
  let whole := digits.take point.toNat ++ List.replicate (point.toNat - digits.length) '0'
  let part := List.replicate (-point).toNat '0' ++ digits.drop point.toNat
  (if whole.isEmpty then ['0'] else whole) ++ '.' :: (if part.isEmpty then ['0'] else part)

/-- A number as text: positional from `0.0001` up to sixteen whole digits, scientific otherwise. -/
def chars : Binary64 → List Char
  | .nan => ['n', 'a', 'n']
  | .infinite negative => (if negative then ['-'] else []) ++ ['i', 'n', 'f']
  | .finite negative mantissa exponent =>
    let d := shortest mantissa exponent
    let digits := digitChars d.digits
    let leading := d.exponent + (digits.length : Int) - 1
    (if negative then ['-'] else []) ++
      if -4 ≤ leading ∧ leading < 16 then positionalChars digits (leading + 1)
      else scientificChars digits leading

def text (x : Binary64) : String :=
  String.ofList x.chars

def scientific : Binary64 → List Char
  | .nan => ['n', 'a', 'n']
  | .infinite negative => (if negative then ['-'] else []) ++ ['i', 'n', 'f']
  | .finite negative mantissa exponent =>
    let (num, den) := ratio mantissa exponent
    let leading := if mantissa = 0 then 0 else leadingExponent num den
    let power := leading - 6
    let digits := roundHalfEven (num * Nat.pow 10 (-power).toNat) (den * Nat.pow 10 power.toNat)
    let carried := digits = Nat.pow 10 7
    let digits := if carried then Nat.pow 10 6 else digits
    let leading := if carried then leading + 1 else leading
    let written := if digits = 0 then List.replicate 7 '0' else digitChars digits
    (if negative then ['-'] else []) ++ scientificChars written leading

end CommandOntology.Binary64
