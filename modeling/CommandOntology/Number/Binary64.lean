set_option autoImplicit false

/-!
# Floating-point numbers

Numbers of the 64-bit binary format, with exact arithmetic underneath: a finite number is a sign, a
mantissa and an exponent of two, and every operation rounds the exact result to the nearest number,
a tie to the even mantissa.
-/

namespace CommandOntology

/-- A quotient rounded to the nearest integer, a half to the even neighbour. -/
def roundHalfEven (num den : Nat) : Nat :=
  let q := num / den
  let r := num % den
  if 2 * r < den then q
  else if den < 2 * r then q + 1
  else q + q % 2

structure Scaled where
  number : Int
  exponent : Int
  deriving DecidableEq, Repr

namespace Scaled

/-- The integer that a scaled number is in units of two to a smaller exponent. -/
def inUnits (x : Scaled) (exponent : Int) : Int :=
  x.number * (Nat.pow 2 (x.exponent - exponent).toNat : Nat)

def order (x y : Scaled) : Ordering :=
  let unit := min x.exponent y.exponent
  compare (x.inUnits unit) (y.inUnits unit)

def sub (x y : Scaled) : Scaled :=
  let unit := min x.exponent y.exponent
  ⟨x.inUnits unit - y.inUnits unit, unit⟩

end Scaled

/-- A number of the 64-bit binary format. A finite one is `mantissa * 2 ^ exponent`. -/
inductive Binary64
  | nan
  | infinite (negative : Bool)
  | finite (negative : Bool) (mantissa : Nat) (exponent : Int)
  deriving DecidableEq, Repr, Inhabited

namespace Binary64

def zero (negative : Bool) : Binary64 := .finite negative 0 (-1074)

def ratio (mantissa : Nat) (exponent : Int) : Nat × Nat :=
  (mantissa * Nat.pow 2 exponent.toNat, Nat.pow 2 (-exponent).toNat)

/-- The exponent that gives `num / den` a mantissa of 53 bits, or the least exponent there is. -/
def unitExponent (num den : Nat) : Int :=
  let estimate : Int := (num.log2 : Int) - den.log2 - 52
  let below : Bool := num * Nat.pow 2 (-estimate).toNat < den * Nat.pow 2 estimate.toNat * Nat.pow 2 52
  max (if below then estimate - 1 else estimate) (-1074)

def ofRatio (negative : Bool) (num den : Nat) : Binary64 :=
  if num = 0 then zero negative
  else
    let exponent := unitExponent num den
    let mantissa := roundHalfEven (num * Nat.pow 2 (-exponent).toNat) (den * Nat.pow 2 exponent.toNat)
    let carried := mantissa = Nat.pow 2 53
    let exponent := if carried then exponent + 1 else exponent
    if 971 < exponent then .infinite negative
    else .finite negative (if carried then Nat.pow 2 52 else mantissa) exponent

def decimalLength (n : Nat) : Nat :=
  (Nat.toDigits 10 n).length

/-- The number nearest to `digits * 10 ^ exponent`. Exponents far outside the range are not computed
with: what is above every finite number is infinite, what is below every positive one is zero. -/
def ofDecimal (negative : Bool) (digits : Nat) (exponent : Int) : Binary64 :=
  if digits = 0 then zero negative
  else
    let magnitude := (decimalLength digits : Int) + exponent
    if 400 < magnitude then .infinite negative
    else if magnitude < -400 then zero negative
    else ofRatio negative (digits * Nat.pow 10 exponent.toNat) (Nat.pow 10 (-exponent).toNat)

def ofScaled (x : Scaled) : Binary64 :=
  let (num, den) := ratio x.number.natAbs x.exponent
  ofRatio (decide (x.number < 0)) num den

def ofInt (n : Int) : Binary64 :=
  ofRatio (decide (n < 0)) n.natAbs 1

def order? : Binary64 → Binary64 → Option Ordering
  | .nan, _ => none
  | _, .nan => none
  | .infinite a, .infinite b => some (compare b a)
  | .infinite negative, .finite .. => some (if negative then .lt else .gt)
  | .finite .., .infinite negative => some (if negative then .gt else .lt)
  | .finite a m e, .finite b n f =>
    some (Scaled.order ⟨if a then -(m : Int) else m, e⟩ ⟨if b then -(n : Int) else n, f⟩)

/-- The order of an integer and a number, without rounding the integer. -/
def orderInt? (n : Int) : Binary64 → Option Ordering
  | .nan => none
  | .infinite negative => some (if negative then .gt else .lt)
  | .finite b m e => some (Scaled.order ⟨n, 0⟩ ⟨if b then -(m : Int) else m, e⟩)

def isNegative : Binary64 → Bool
  | .nan => false
  | .infinite negative => negative
  | .finite negative _ _ => negative

def isZero : Binary64 → Bool
  | .finite _ mantissa _ => mantissa == 0
  | _ => false

def sub : Binary64 → Binary64 → Binary64
  | .nan, _ => .nan
  | _, .nan => .nan
  | .infinite a, .infinite b => if a = b then .nan else .infinite a
  | .infinite a, .finite .. => .infinite a
  | .finite .., .infinite b => .infinite !b
  | .finite a m e, .finite b n f =>
    ofScaled (Scaled.sub ⟨if a then -(m : Int) else m, e⟩ ⟨if b then -(n : Int) else n, f⟩)

def timesNat (n : Nat) : Binary64 → Binary64
  | .nan => .nan
  | .infinite negative => if n = 0 then .nan else .infinite negative
  | .finite negative mantissa exponent =>
    if n = 0 || mantissa = 0 then zero negative
    else ofScaled ⟨if negative then -((n * mantissa : Nat) : Int) else (n * mantissa : Nat), exponent⟩

def roundPlaces (places : Nat) : Binary64 → Binary64
  | .finite negative mantissa exponent =>
    let (num, den) := ratio mantissa exponent
    ofRatio negative (roundHalfEven (num * Nat.pow 10 places) den) (Nat.pow 10 places)
  | other => other

def toInt? : Binary64 → Option Int
  | .finite negative mantissa exponent =>
    let (num, den) := ratio mantissa exponent
    if num % den = 0 then some (if negative then -(num / den : Int) else (num / den : Int)) else none
  | _ => none

def truncate? : Binary64 → Option Int
  | .finite negative mantissa exponent =>
    let (num, den) := ratio mantissa exponent
    some (if negative then -(num / den : Int) else (num / den : Int))
  | _ => none

end Binary64

end CommandOntology
