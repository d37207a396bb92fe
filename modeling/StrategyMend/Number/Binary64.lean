/-!
# Double precision numbers

A double is kept exactly: a sign and a whole number of *units*, where a unit is the smallest positive
double, `2 ^ (-1074)`. Infinity is the first magnitude that is out of range, `2 ^ 1024`. So numbers
compare like integers, the two zeros are equal, and only the undefined value compares with nothing.

`nearest` rounds a quotient of natural numbers to the nearest double, a tie to the even neighbour.
-/

set_option autoImplicit false

namespace StrategyMend.Number

/-- A double precision number. -/
inductive Binary64 where
  /-- A number by its sign and its magnitude in units of `2 ^ (-1074)`. -/
  | ofUnits (negative : Bool) (units : Nat)
  /-- The result of an undefined operation. -/
  | undefined
  deriving DecidableEq

namespace Binary64

/-- The power of two by which a magnitude is scaled to units. -/
def unitExponent : Nat := 1074

/-- The number one in units. -/
def oneUnits : Nat := Nat.pow 2 unitExponent

/-- The magnitude of infinity in units. -/
def infiniteUnits : Nat := Nat.pow 2 (unitExponent + 1024)

/-- Significant binary digits of a double. -/
def precision : Nat := 53

/-- Positive zero. -/
def zero : Binary64 := .ofUnits false 0

/-- The number one. -/
def one : Binary64 := .ofUnits false oneUnits

/-- Positive or negative infinity. -/
def infinite (negative : Bool) : Binary64 := .ofUnits negative infiniteUnits

/-- The position of a number in the order of the integers. -/
def rank : Binary64 → Option Int
  | .ofUnits negative units => some (if negative then -(units : Int) else units)
  | .undefined => none

/-- `a ≤ b`; false if one of them is undefined. -/
def le (a b : Binary64) : Bool :=
  match a.rank, b.rank with
  | some x, some y => x ≤ y
  | _, _ => false

/-- `a < b`; false if one of them is undefined. -/
def lt (a b : Binary64) : Bool :=
  match a.rank, b.rank with
  | some x, some y => x < y
  | _, _ => false

/-- The whole number nearest to `num / den`, a tie going to the even one. -/
def roundDiv (num den : Nat) : Nat :=
  let quotient := num / den
  let rest := 2 * (num % den)
  if rest < den then quotient
  else if den < rest then quotient + 1
  else quotient + quotient % 2

/-- The magnitude of the double nearest to `num / den` in units. -/
def nearestUnits (num den : Nat) : Nat :=
  let scaled := num * oneUnits
  let whole := scaled / den
  let step := if whole = 0 then 1 else Nat.pow 2 (whole.log2 + 1 - precision)
  min (roundDiv scaled (den * step) * step) infiniteUnits

/-- The double nearest to the quotient `num / den` with the given sign. -/
def nearest (negative : Bool) (num den : Nat) : Binary64 :=
  .ofUnits negative (nearestUnits num den)

/-- The double nearest to `coefficient · 10 ^ exponent`. Exponents so large or small that the result
is infinite or zero for any coefficient with its digits are cut short. -/
def ofDecimal (negative : Bool) (coefficient : Nat) (exponent : Int) : Binary64 :=
  if coefficient = 0 then .ofUnits negative 0
  else if 400 < exponent then infinite negative
  else if exponent + ((coefficient.log2 : Int) + 1) < -400 then .ofUnits negative 0
  else
    match exponent with
    | .ofNat power => nearest negative (coefficient * Nat.pow 10 power) 1
    | .negSucc power => nearest negative coefficient (Nat.pow 10 (power + 1))

/-- The largest power of ten that `scaled?` applies in one step. -/
def largestPower : Nat := 308

/-- The magnitude of the double nearest to a power of ten, in units. -/
def powerUnits (power : Nat) : Nat := nearestUnits (Nat.pow 10 power) 1

/-- Divides a magnitude by `10 ^ power` in steps of at most `largestPower`, rounding at each step. No
magnitude of a whole number below `2 ^ 64` is left after three full steps. -/
def divideByTen : (steps units power : Nat) → Nat
  | 0, _, _ => 0
  | steps + 1, units, power =>
    if power ≤ largestPower then nearestUnits units (powerUnits power)
    else divideByTen steps (nearestUnits units (powerUnits largestPower)) (power - largestPower)

/-- The number `coefficient · 10 ^ exponent` read in two steps: the coefficient is rounded to a double
and then multiplied or divided by a rounded power of ten. There is no result if it is out of
range. -/
def scaled? (negative : Bool) (coefficient : Nat) (exponent : Int) : Option Binary64 :=
  let units := nearestUnits coefficient 1
  match exponent with
  | .ofNat power =>
    if power ≤ largestPower then
      let product := nearestUnits (units * powerUnits power) (oneUnits * oneUnits)
      if product < infiniteUnits then some (.ofUnits negative product) else none
    else if units = 0 then some (.ofUnits negative 0)
    else none
  | .negSucc power => some (.ofUnits negative (divideByTen 4 units (power + 1)))

/-- The double nearest to a natural number. -/
def ofNat (n : Nat) : Binary64 := nearest false n 1

/-- The double nearest to `num / den`; zero if nothing is counted. -/
def ratio (num den : Nat) : Binary64 := if den = 0 then zero else nearest false num den

/-- The product with a natural number, rounded to the nearest double. -/
def timesNat (n : Nat) : Binary64 → Binary64
  | .ofUnits negative units => nearest negative (units * n) oneUnits
  | .undefined => .undefined

/-- The number moved into the interval from zero to one. -/
def clampUnit (x : Binary64) : Binary64 :=
  if x.lt zero then zero else if one.lt x then one else x

end Binary64

end StrategyMend.Number
