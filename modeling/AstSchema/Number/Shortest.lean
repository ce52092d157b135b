import AstSchema.Number.Binary64

/-! The shortest decimal that reads back as a given floating-point number, and its text. -/
namespace AstSchema

/-- The decimal `d₁.d₂d₃… * 10 ^ exponent`, with its digits in order. -/
structure Decimal where
  digits : List Char
  exponent : Int
deriving DecidableEq

namespace Decimal

def width (n : Nat) : Nat := if n == 0 then 0 else (Nat.toDigits 10 n).length

/-- The largest `k` with `10 ^ k ≤ num / den`, for a positive ratio. -/
def magnitude (num den : Nat) : Int :=
  if den ≤ num then (width (num / den) : Int) - 1
  else -(width ((den + num - 1) / num - 1) : Int)

/-- `value` and the ends of the reals that round to it, in one unit; `closed` says whether the ends
themselves round to it. -/
structure Interval where
  low : Nat
  value : Nat
  high : Nat
  closed : Bool

/-- The interval of `s * 2 ^ e` in units of `2 ^ (e - 2)`. Below a power of two the neighbours are
twice as close. -/
def interval (s : Nat) (e : Int) : Interval :=
  let narrow := s == Nat.pow 2 (Binary64.precision - 1) && e > Binary64.minExponent
  ⟨if narrow then 4 * s - 1 else 4 * s - 2, 4 * s, 4 * s + 2, s % 2 == 0⟩

/-- With the unit `a / b` of an interval and a grid of step one, the grid point inside the interval
nearest to its value: only the two neighbours of the value can be that point. An exact tie goes to
the even one. -/
def nearestInside (i : Interval) (a b : Nat) : Option Nat :=
  let inside (c : Nat) : Bool :=
    if i.closed then i.low * a ≤ c * b && c * b ≤ i.high * a
    else i.low * a < c * b && c * b < i.high * a
  let below := i.value * a / b
  match inside below, inside (below + 1) with
  | true, true =>
    let down := i.value * a - below * b
    let up := (below + 1) * b - i.value * a
    some (if down < up || (down == up && below % 2 == 0) then below else below + 1)
  | true, false => some below
  | false, true => some (below + 1)
  | false, false => none

def ofScaled (c : Nat) (e : Int) : Decimal :=
  let digits := Nat.toDigits 10 c
  ⟨(digits.reverse.dropWhile (· == '0')).reverse, e + digits.length - 1⟩

/-- The fewest digits that read back, and of those the nearest: the grids of one, two, …, seventeen
digits are tried in turn, and seventeen always suffice. -/
def shortest (s : Nat) (e : Int) : Decimal :=
  let i := interval s e
  let (num, den) := Binary64.scale 1 1 (2 - e)
  let k := magnitude (i.value * num) den
  let onGrid (n : Nat) : Option Decimal :=
    let step : Int := k - n + 1
    let (a, b) :=
      if step < 0 then (num * Nat.pow 10 (-step).toNat, den) else (num, den * Nat.pow 10 step.toNat)
    (nearestInside i a b).map fun c => ofScaled c step
  ((List.range 17).findSome? fun n => onGrid (n + 1)).getD ⟨['0'], 0⟩

/-- The least positive number: 4.94… of that power, and no other one-digit decimal reads back. -/
example : shortest 1 Binary64.minExponent = ⟨['5'], -324⟩ := by decide +kernel

end Decimal

/-- How floating-point numbers are written: which exponents are positional, the least width of a
written exponent, and the names of what is not finite. -/
structure FloatLayout where
  leastPositional : Int
  greatestPositional : Int
  exponentWidth : Nat
  infinity : String
  nan : String

namespace FloatLayout

def zeros (n : Nat) : List Char := List.replicate n '0'

/-- A positional decimal keeps a digit on either side of its point. -/
def positional (d : Decimal) : List Char :=
  if d.exponent < 0 then
    '0' :: '.' :: zeros (-d.exponent - 1).toNat ++ d.digits
  else
    let whole := d.exponent.toNat + 1
    if d.digits.length ≤ whole then
      d.digits ++ zeros (whole - d.digits.length) ++ ['.', '0']
    else d.digits.take whole ++ '.' :: d.digits.drop whole

/-- A scientific decimal writes the sign of its exponent always, its point only before digits. -/
def scientific (layout : FloatLayout) (d : Decimal) : List Char :=
  let power := Nat.toDigits 10 d.exponent.natAbs
  let mantissa := match d.digits with
    | [] => ['0']
    | [c] => [c]
    | c :: rest => c :: '.' :: rest
  mantissa ++ 'e' :: (if d.exponent < 0 then '-' else '+') ::
    zeros (layout.exponentWidth - power.length) ++ power

def decimal (layout : FloatLayout) (d : Decimal) : List Char :=
  if layout.leastPositional ≤ d.exponent && d.exponent ≤ layout.greatestPositional then
    positional d
  else layout.scientific d

def write (layout : FloatLayout) : Binary64 → List Char
  | .nan => layout.nan.toList
  | .infinite negative => sign negative ++ layout.infinity.toList
  | .finite negative s e =>
    sign negative ++
      layout.decimal (if s == 0 then ⟨['0'], 0⟩ else Decimal.shortest s e)
where
  sign (negative : Bool) : List Char := if negative then ['-'] else []

end FloatLayout

end AstSchema
