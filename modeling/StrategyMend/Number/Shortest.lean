import StrategyMend.Number.Binary64

/-!
# The shortest decimal of a double

Of all decimals that read back as a given double, `shortest` has the fewest digits, and among those
with that many digits it is nearest to the double. It is found exactly: the decimals that read back
form an interval around the double, and if a grid of decimals meets the interval, then one of the
double's two neighbours on the grid lies in it.

`display` writes that decimal without an exponent, `scientific` with one where the number is very
large or small, and `fixed` rounds the exact value to a number of places.
-/

set_option autoImplicit false

namespace StrategyMend.Number

/-- A decimal `digits · 10 ^ exponent`. -/
structure Decimal where
  digits : Nat
  exponent : Int
  deriving DecidableEq

namespace Binary64

/-- The interval of reals that round to a magnitude, in quarters of a unit, and whether its ends
belong to it. -/
structure Neighbourhood where
  low : Nat
  high : Nat
  closed : Bool

/-- The step between doubles above a magnitude, in units. -/
def stepAbove (units : Nat) : Nat :=
  if units = 0 then 1 else Nat.pow 2 (units.log2 + 1 - precision)

/-- The reals that round to a positive magnitude. Right above a power of two the doubles lie twice as
dense below as above, unless they are the densest there are. -/
def neighbourhood (units : Nat) : Neighbourhood :=
  let step := stepAbove units
  let narrow := 1 < step && units = Nat.pow 2 units.log2
  { low := 4 * units - (if narrow then step else 2 * step)
    high := 4 * units + 2 * step
    closed := units / step % 2 = 0 }

/-- Whether `digits · num / den`, in units, lies in the neighbourhood. -/
def Neighbourhood.contains (around : Neighbourhood) (digits num den : Nat) : Bool :=
  let point := 4 * digits * num
  if around.closed then around.low * den ≤ point && point ≤ around.high * den
  else around.low * den < point && point < around.high * den

/-- The number of units in `10 ^ exponent`, as a quotient. -/
def tenPower (exponent : Int) : Nat × Nat :=
  match exponent with
  | .ofNat power => (Nat.pow 10 power * oneUnits, 1)
  | .negSucc power => (oneUnits, Nat.pow 10 (power + 1))

/-- The nearest decimal on the grid of `10 ^ exponent` that reads back as the magnitude. -/
def onGrid (units : Nat) (exponent : Int) : Option Decimal :=
  let around := neighbourhood units
  let (num, den) := tenPower exponent
  let below := units * den / num
  let rest := units * den % num
  let lower := around.contains below num den && below ≠ 0
  let upper := around.contains (below + 1) num den
  if lower && upper then
    some ⟨if 2 * rest < num || (2 * rest = num && below % 2 = 0) then below else below + 1, exponent⟩
  else if lower then some ⟨below, exponent⟩
  else if upper then some ⟨below + 1, exponent⟩
  else none

/-- The greatest exponent, at most `start`, whose power of ten is at most the magnitude. -/
def leadingExponent (units : Nat) : (fuel : Nat) → (start : Int) → Int
  | 0, start => start
  | fuel + 1, start =>
    let (num, den) := tenPower start
    if num ≤ units * den then start else leadingExponent units fuel (start - 1)

/-- The first grid, of `count` more and more digits, that has a decimal for the magnitude. -/
def firstGrid (units : Nat) (leading : Int) : (left count : Nat) → Decimal
  | 0, _ => ⟨0, 0⟩
  | left + 1, count =>
    match onGrid units (leading + 1 - count) with
    | some decimal => decimal
    | none => firstGrid units leading left (count + 1)

/-- Moves zeros from the end of the digits into the exponent. -/
def dropZeros : (fuel : Nat) → Decimal → Decimal
  | 0, decimal => decimal
  | fuel + 1, decimal =>
    if decimal.digits ≠ 0 && decimal.digits % 10 = 0 then
      dropZeros fuel ⟨decimal.digits / 10, decimal.exponent + 1⟩
    else decimal

/-- The shortest decimal that reads back as a positive magnitude below infinity. -/
def shortest (units : Nat) : Decimal :=
  let leading := leadingExponent units 700 ((((units.log2 : Int) - unitExponent) * 30103) / 100000 + 1)
  dropZeros 20 (firstGrid units leading 18 1)

/-- The decimal digits of a natural number. -/
def digitsOf (n : Nat) : String := toString n

/-- A text of zeros. -/
def zeros (count : Nat) : String := String.ofList (List.replicate count '0')

/-- A decimal in positional notation, without a point if it is whole. -/
def positional (decimal : Decimal) : String :=
  let digits := digitsOf decimal.digits
  match decimal.exponent with
  | .ofNat power => digits ++ zeros power
  | .negSucc power =>
    let places := power + 1
    if places < digits.length then
      String.ofList (digits.toList.take (digits.length - places)) ++ "." ++
        String.ofList (digits.toList.drop (digits.length - places))
    else "0." ++ zeros (places - digits.length) ++ digits

/-- The minus sign of a negative number. -/
def signText (negative : Bool) : String := if negative then "-" else ""

/-- The number without exponent: the shortest digits that read back, filled up with zeros. -/
def display : Binary64 → String
  | .undefined => "NaN"
  | .ofUnits negative units =>
    signText negative ++
      if units = 0 then "0"
      else if infiniteUnits ≤ units then "inf"
      else positional (shortest units)

/-- The number as JSON writes it: a whole number ends in `.0`, and an exponent stands where the first
digit is worth less than `10 ^ (-5)` or at least `10 ^ 16`. Infinity and the undefined value have no
such form. -/
def scientific : Binary64 → String
  | .undefined => "null"
  | .ofUnits negative units =>
    if infiniteUnits ≤ units then "null"
    else if units = 0 then signText negative ++ "0.0"
    else
      let decimal := shortest units
      let digits := digitsOf decimal.digits
      let point := decimal.exponent + digits.length
      signText negative ++
        if -5 < point && point ≤ 16 then
          if 0 ≤ decimal.exponent then positional decimal ++ ".0" else positional decimal
        else
          let fraction := String.ofList (digits.toList.drop 1)
          String.ofList (digits.toList.take 1) ++
            (if fraction.isEmpty then "" else "." ++ fraction) ++ "e" ++ toString (point - 1)

/-- The exact value rounded to `places` places, a tie going to the even neighbour. -/
def fixed (places : Nat) : Binary64 → String
  | .undefined => "NaN"
  | .ofUnits negative units =>
    signText negative ++
      if infiniteUnits ≤ units then "inf"
      else
        let digits := digitsOf (roundDiv (units * Nat.pow 10 places) oneUnits)
        let padded := zeros (places + 1 - digits.length) ++ digits
        if places = 0 then padded
        else
          String.ofList (padded.toList.take (padded.length - places)) ++ "." ++
            String.ofList (padded.toList.drop (padded.length - places))

end Binary64

end StrategyMend.Number
