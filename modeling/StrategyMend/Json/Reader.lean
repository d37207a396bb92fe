import StrategyMend.Json.Basic

/-!
# Reading JSON

The reader takes the whole of a text as one value. It refuses control characters in strings, halves
of surrogate pairs, numbers beyond the range of doubles and values nested deeper than a limit. Of
members with one key the last one counts.

Of a number with a fraction or an exponent, at most as many digits are used as fit into 64 bits.
-/

set_option autoImplicit false

namespace StrategyMend

open Number

namespace Json

/-- The deepest nesting of arrays and objects. -/
def nestingLimit : Nat := 127

/-- The characters between the parts of a text in JSON. -/
def isSpace (c : Char) : Bool := c = ' ' || c = '\n' || c = '\t' || c = '\r'

/-- The text from the next character that is no space. -/
def skipSpaces (text : List Char) : List Char := text.dropWhile isSpace

/-- The value of a hexadecimal digit. -/
def hexValue? (c : Char) : Option Nat :=
  if '0' ≤ c && c ≤ '9' then some (c.toNat - '0'.toNat)
  else if 'a' ≤ c && c ≤ 'f' then some (c.toNat - 'a'.toNat + 10)
  else if 'A' ≤ c && c ≤ 'F' then some (c.toNat - 'A'.toNat + 10)
  else none

/-- The value of four hexadecimal digits. -/
def hexFour? (a b c d : Char) : Option Nat := do
  let a ← hexValue? a
  let b ← hexValue? b
  let c ← hexValue? c
  let d ← hexValue? d
  return ((a * 16 + b) * 16 + c) * 16 + d

/-- The character that a single letter stands for after a backslash. -/
def shortEscape? (c : Char) : Option Char :=
  if c = '"' || c = '\\' || c = '/' then some c
  else if c = 'b' then some '\x08'
  else if c = 'f' then some '\x0c'
  else if c = 'n' then some '\n'
  else if c = 'r' then some '\r'
  else if c = 't' then some '\t'
  else none

/-- The characters of a string up to its closing quote, and what follows the quote. -/
def stringChars : List Char → Option (List Char × List Char)
  | [] => none
  | '"' :: rest => some ([], rest)
  | '\\' :: 'u' :: a :: b :: c :: d :: rest =>
    match hexFour? a b c d with
    | none => none
    | some unit =>
      if unit < 0xD800 || 0xDFFF < unit then
        (stringChars rest).map fun (chars, after) => (Char.ofNat unit :: chars, after)
      else if unit < 0xDC00 then
        match rest with
        | '\\' :: 'u' :: e :: f :: g :: h :: rest' =>
          match hexFour? e f g h with
          | some low =>
            if 0xDC00 ≤ low && low ≤ 0xDFFF then
              let code := 0x10000 + (unit - 0xD800) * 0x400 + (low - 0xDC00)
              (stringChars rest').map fun (chars, after) => (Char.ofNat code :: chars, after)
            else none
          | none => none
        | _ => none
      else none
  | '\\' :: c :: rest =>
    match shortEscape? c with
    | some plain => (stringChars rest).map fun (chars, after) => (plain :: chars, after)
    | none => none
  | c :: rest =>
    if c.toNat < 0x20 || c = '\\' then none
    else (stringChars rest).map fun (chars, after) => (c :: chars, after)

/-- The run of digits at the start of a text, and what follows it. -/
def digitRun (text : List Char) : List Char × List Char :=
  (text.takeWhile Char.isDigit, text.dropWhile Char.isDigit)

/-- The natural number that digits write. -/
def digitsValue (digits : List Char) : Nat :=
  digits.foldl (fun n c => n * 10 + (c.toNat - '0'.toNat)) 0

/-- Takes digits into a coefficient while it fits into 64 bits; `used` counts them. -/
def takeDigits : (coefficient used : Nat) → List Char → Nat × Nat
  | coefficient, used, [] => (coefficient, used)
  | coefficient, used, c :: rest =>
    let next := coefficient * 10 + (c.toNat - '0'.toNat)
    if next ≤ Number.maxNatural then takeDigits next (used + 1) rest else (coefficient, used)

/-- The double with the given digits before and after the point and the given exponent. -/
def realOf? (negative : Bool) (whole fraction : List Char) (exponent : Int) : Option Binary64 :=
  let (coefficient, used) := takeDigits 0 0 whole
  let (coefficient, places) := takeDigits coefficient 0 fraction
  Binary64.scaled? negative coefficient (exponent + (whole.length - used : Nat) - places)

/-- The exponent after `e`, and what follows it. -/
def exponentPart? (text : List Char) : Option (Int × List Char) :=
  let (negative, text) :=
    match text with
    | '-' :: rest => (true, rest)
    | '+' :: rest => (false, rest)
    | rest => (false, rest)
  let (digits, rest) := digitRun text
  if digits.isEmpty then none
  else
    let value : Int := digitsValue digits
    some (if negative then -value else value, rest)

/-- A whole number; one that does not fit becomes a double. -/
def wholeNumber? (negative : Bool) (digits : List Char) : Option Number :=
  let n := digitsValue digits
  if negative then
    if n = 0 then some (.real (.ofUnits true 0))
    else if n ≤ Nat.pow 2 63 then some (.negative n)
    else (realOf? true digits [] 0).map .real
  else if n ≤ Number.maxNatural then some (.natural n)
  else (realOf? false digits [] 0).map .real

/-- A number without its sign, and what follows it. -/
def unsignedNumber? (negative : Bool) (text : List Char) : Option (Number × List Char) := do
  let (whole, rest) := digitRun text
  if whole.isEmpty || (1 < whole.length && whole.head? = some '0') then none
  match rest with
  | '.' :: afterPoint =>
    let (fraction, rest) := digitRun afterPoint
    if fraction.isEmpty then none
    match rest with
    | c :: afterMark =>
      if c = 'e' || c = 'E' then
        let (exponent, rest) ← exponentPart? afterMark
        return (.real (← realOf? negative whole fraction exponent), rest)
      else return (.real (← realOf? negative whole fraction 0), rest)
    | [] => return (.real (← realOf? negative whole fraction 0), [])
  | c :: afterMark =>
    if c = 'e' || c = 'E' then
      let (exponent, rest) ← exponentPart? afterMark
      return (.real (← realOf? negative whole [] exponent), rest)
    else return (← wholeNumber? negative whole, rest)
  | [] => return (← wholeNumber? negative whole, [])

/-- A number and what follows it. -/
def number? : List Char → Option (Number × List Char)
  | '-' :: rest => unsignedNumber? true rest
  | text => unsignedNumber? false text

/-- What follows a fixed word. -/
def literal? : List Char → List Char → Option (List Char)
  | [], text => some text
  | _ :: _, [] => none
  | w :: word, c :: text => if w = c then literal? word text else none

mutual

/-- A value and what follows it; `depth` more levels may be opened. -/
def value? : (fuel depth : Nat) → List Char → Option (Json × List Char)
  | 0, _, _ => none
  | fuel + 1, depth, text =>
    match skipSpaces text with
    | 'n' :: rest => (literal? "ull".toList rest).map (.null, ·)
    | 't' :: rest => (literal? "rue".toList rest).map (.bool true, ·)
    | 'f' :: rest => (literal? "alse".toList rest).map (.bool false, ·)
    | '"' :: rest => (stringChars rest).map fun (chars, after) => (.string (String.ofList chars), after)
    | '[' :: rest =>
      match depth with
      | 0 => none
      | depth + 1 =>
        match skipSpaces rest with
        | ']' :: after => some (.array [], after)
        | inside => (items? fuel depth inside).map fun (items, after) => (.array items, after)
    | '{' :: rest =>
      match depth with
      | 0 => none
      | depth + 1 =>
        match skipSpaces rest with
        | '}' :: after => some (.object [], after)
        | inside => (members? fuel depth [] inside).map fun (members, after) => (.object members, after)
    | other => (number? other).map fun (n, after) => (.number n, after)

/-- The items of an array up to its end. -/
def items? : (fuel depth : Nat) → List Char → Option (List Json × List Char)
  | 0, _, _ => none
  | fuel + 1, depth, text => do
    let (item, rest) ← value? fuel depth text
    match skipSpaces rest with
    | ',' :: more =>
      let (items, after) ← items? fuel depth more
      return (item :: items, after)
    | ']' :: after => return ([item], after)
    | _ => none

/-- The members of an object up to its end, after those in `before`. -/
def members? : (fuel depth : Nat) → List (String × Json) → List Char →
    Option (List (String × Json) × List Char)
  | 0, _, _, _ => none
  | fuel + 1, depth, before, text => do
    match skipSpaces text with
    | '"' :: rest =>
      let (key, rest) ← stringChars rest
      match skipSpaces rest with
      | ':' :: rest =>
        let (value, rest) ← value? fuel depth rest
        let members := assign (String.ofList key) value before
        match skipSpaces rest with
        | ',' :: more => members? fuel depth members more
        | '}' :: after => return (members, after)
        | _ => none
      | _ => none
    | _ => none

end

/-- The value that a whole text writes. -/
def read? (text : String) : Option Json :=
  let chars := text.toList
  match value? (chars.length + 1) nestingLimit chars with
  | some (value, rest) => if (skipSpaces rest).isEmpty then some value else none
  | none => none

end Json

end StrategyMend
