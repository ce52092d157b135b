/-! Floating-point numbers of 64 bits, held exactly: a finite number is its sign, significand and
power of two, so equality, order and rounding are integer arithmetic. -/
namespace AstSchema

/-- A finite number is `±significand * 2 ^ exponent`; zero keeps its sign. -/
inductive Binary64 where
  | finite (negative : Bool) (significand : Nat) (exponent : Int)
  | infinite (negative : Bool)
  | nan
deriving DecidableEq, Inhabited

/-- The number line with both ends added. Dyadic fractions are kept in lowest terms, so equal
numbers are equal points whatever they were written as. -/
inductive LinePoint where
  | bottom
  | finite (value : Dyadic)
  | top
deriving DecidableEq

namespace LinePoint

def lt : LinePoint → LinePoint → Bool
  | .bottom, .bottom => false
  | .bottom, _ => true
  | .finite a, .finite b => a.blt b
  | .finite _, .top => true
  | _, _ => false

def ofInt (n : Int) : LinePoint := .finite (Dyadic.ofInt n)

end LinePoint

namespace Binary64

/-- The least exponent: subnormal numbers share it. -/
def minExponent : Int := -1074

/-- Above this exponent a significand of 53 bits is out of range. -/
def maxExponent : Int := 971

def precision : Nat := 53

def point? : Binary64 → Option LinePoint
  | .finite negative s e =>
    some (.finite (Dyadic.ofIntWithPrec (if negative then -(s : Int) else s) (-e)))
  | .infinite true => some .bottom
  | .infinite false => some .top
  | .nan => none

def isZero : Binary64 → Bool
  | .finite _ s _ => s == 0
  | _ => false

/-- The integer nearest to `num / den`; a half goes to the even neighbour. -/
def roundHalfEven (num den : Nat) : Nat :=
  let q := num / den
  let r := num % den
  if 2 * r < den || (2 * r == den && q % 2 == 0) then q else q + 1

def scale (num den : Nat) (e : Int) : Nat × Nat :=
  if e < 0 then (num * Nat.pow 2 (-e).toNat, den) else (num, den * Nat.pow 2 e.toNat)

/-- The exponent that leaves `num / den` a whole part of 53 bits, unless that is below the least.
The two logarithms fix the quotient up to a factor of four, so one comparison decides. -/
def exponentFor (num den : Nat) : Int :=
  let guess : Int := (num.log2 : Int) - den.log2 - precision
  let (n, d) := scale num den guess
  max minExponent (if n / d < Nat.pow 2 precision then guess else guess + 1)

/-- The number nearest to `±num / den`, ties to the even significand; past the greatest finite
number it is infinite. -/
def ofRatio (negative : Bool) (num den : Nat) : Binary64 :=
  if num == 0 then .finite negative 0 minExponent else
  let e := exponentFor num den
  let (n, d) := scale num den e
  let s := roundHalfEven n d
  let (s, e) := if s == Nat.pow 2 precision then (Nat.pow 2 (precision - 1), e + 1) else (s, e)
  if e > maxExponent then .infinite negative else .finite negative s e

/-- The number nearest to `±digits * 10 ^ exponent`. Far outside the range the power of ten is not
computed: the answer is infinite or zero already by the count of digits. -/
def ofDecimal (negative : Bool) (digits : Nat) (exponent : Int) : Binary64 :=
  let top : Int := (Nat.toDigits 10 digits).length + exponent
  if digits == 0 || top < -330 then .finite negative 0 minExponent
  else if top > 320 then .infinite negative
  else if exponent < 0 then ofRatio negative digits (Nat.pow 10 (-exponent).toNat)
  else ofRatio negative (digits * Nat.pow 10 exponent.toNat) 1

end Binary64

end AstSchema
