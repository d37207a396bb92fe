import StrategyMend.Number.Binary64

/-!
# Reading doubles

A double is written as digits with or without a point, followed by an exponent or not, or as one of
the words for infinity and the undefined value in any mixture of capital and small letters. A sign may
stand before it, and nothing may stand around it.
-/

set_option autoImplicit false

namespace StrategyMend.Number

/-- The natural number that decimal digits write. -/
def decimalValue (digits : List Char) : Nat :=
  digits.foldl (fun n c => n * 10 + (c.toNat - '0'.toNat)) 0

/-- A sign before a number: whether it is a minus, and what follows. -/
def readSign : List Char → Bool × List Char
  | '-' :: rest => (true, rest)
  | '+' :: rest => (false, rest)
  | rest => (false, rest)

/-- The exponent that ends a number; none is zero. -/
def readExponent? : List Char → Option Int
  | [] => some 0
  | c :: rest =>
    let (negative, digits) := readSign rest
    if (c = 'e' || c = 'E') && !digits.isEmpty && digits.all Char.isDigit then
      some (if negative then -(decimalValue digits : Int) else decimalValue digits)
    else none

/-- A number without its sign. -/
def readUnsigned? (negative : Bool) (text : List Char) : Option Binary64 :=
  let whole := text.takeWhile Char.isDigit
  let rest := text.dropWhile Char.isDigit
  let fraction :=
    match rest with
    | '.' :: more => more.takeWhile Char.isDigit
    | _ => []
  let after :=
    match rest with
    | '.' :: more => more.dropWhile Char.isDigit
    | _ => rest
  if whole.isEmpty && fraction.isEmpty then none
  else
    (readExponent? after).map fun exponent =>
      .ofDecimal negative (decimalValue (whole ++ fraction)) (exponent - (fraction.length : Int))

/-- The double that a text writes. -/
def Binary64.read? (text : String) : Option Binary64 :=
  let (negative, unsigned) := readSign text.toList
  let word := String.ofList (unsigned.map Char.toLower)
  if word = "inf" || word = "infinity" then some (.infinite negative)
  else if word = "nan" then some .undefined
  else readUnsigned? negative unsigned

end StrategyMend.Number
