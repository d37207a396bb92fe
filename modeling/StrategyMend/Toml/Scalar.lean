import StrategyMend.Json.Reader

/-!
# TOML scalars

Strings come in four forms: basic ones with escapes and literal ones without, each on one line or over
several. Whole numbers are decimal, hexadecimal, octal or binary and fit into 64 bits with a sign;
underscores stand between digits. Fractions are doubles. Dates and times must exist on a clock and in
the calendar. Every reader gives what it read and the text that follows.
-/

set_option autoImplicit false

namespace StrategyMend.Toml

open Number

/-! ## Characters -/

/-- The characters between the parts of a line. -/
def isSpace (c : Char) : Bool := c = ' ' || c = '\t'

/-- The text from the next character that is no space. -/
def skipSpaces (text : List Char) : List Char := text.dropWhile isSpace

/-- Characters that may stand in a comment or a string on one line. -/
def isPrintable (c : Char) : Bool := c = '\t' || (0x20 ≤ c.toNat && c.toNat ≠ 0x7F)

/-- What follows the end of a line. -/
def newline? : List Char → Option (List Char)
  | '\n' :: rest => some rest
  | '\r' :: '\n' :: rest => some rest
  | _ => none

/-! ## Strings -/

/-- The character with the code that hexadecimal digits write. -/
def unicode? (digits : List Char) : Option Char := do
  let values ← digits.mapM Json.hexValue?
  let code := values.foldl (fun n digit => n * 16 + digit) 0
  if code < 0xD800 || (0xDFFF < code && code ≤ 0x10FFFF) then some (Char.ofNat code) else none

/-- The character that an escape stands for, without its backslash. -/
def escape? : List Char → Option (Char × List Char)
  | 'u' :: a :: b :: c :: d :: rest => (unicode? [a, b, c, d]).map (·, rest)
  | 'U' :: a :: b :: c :: d :: e :: f :: g :: h :: rest =>
    (unicode? [a, b, c, d, e, f, g, h]).map (·, rest)
  | 'b' :: rest => some ('\x08', rest)
  | 't' :: rest => some ('\t', rest)
  | 'n' :: rest => some ('\n', rest)
  | 'f' :: rest => some ('\x0c', rest)
  | 'r' :: rest => some ('\r', rest)
  | '"' :: rest => some ('"', rest)
  | '\\' :: rest => some ('\\', rest)
  | _ => none

/-- The characters of a basic string up to its closing quote. -/
def basicChars : (fuel : Nat) → List Char → Option (List Char × List Char)
  | 0, _ => none
  | _, [] => none
  | _, '"' :: rest => some ([], rest)
  | fuel + 1, '\\' :: rest => do
    let (c, rest) ← escape? rest
    let (chars, after) ← basicChars fuel rest
    return (c :: chars, after)
  | fuel + 1, c :: rest =>
    if isPrintable c then (basicChars fuel rest).map fun (chars, after) => (c :: chars, after)
    else none

/-- The characters of a literal string up to its closing quote. -/
def literalChars : List Char → Option (List Char × List Char)
  | [] => none
  | '\'' :: rest => some ([], rest)
  | c :: rest =>
    if isPrintable c then (literalChars rest).map fun (chars, after) => (c :: chars, after)
    else none

/-- The text from the next character that is neither a space nor a line end. -/
def skipBlank : List Char → List Char
  | [] => []
  | '\n' :: rest => skipBlank rest
  | '\r' :: '\n' :: rest => skipBlank rest
  | c :: rest => if isSpace c then skipBlank rest else c :: rest

/-- What follows a backslash at the end of a line: the text from the next character that is neither a
space nor a line end. -/
def continued? (rest : List Char) : Option (List Char) :=
  (newline? (skipSpaces rest)).map skipBlank

/-- The characters of a string over several lines up to three closing quotes. Up to two quotes right
before them belong to the string. Only strings with escapes know the backslash. -/
def longChars (quote : Char) (escapes : Bool) : (fuel : Nat) → List Char → Option (List Char × List Char)
  | 0, _ => none
  | _, [] => none
  | fuel + 1, c :: rest =>
    let plain (read : Char) (more : List Char) : Option (List Char × List Char) :=
      (longChars quote escapes fuel more).map fun (chars, after) => (read :: chars, after)
    if c = quote then
      let quotes := (c :: rest).takeWhile (· = quote)
      if quotes.length < 3 then plain c rest
      else if 5 < quotes.length then none
      else some (List.replicate (quotes.length - 3) quote, (c :: rest).drop quotes.length)
    else if c = '\\' && escapes then
      match continued? rest with
      | some more => longChars quote escapes fuel more
      | none =>
        match escape? rest with
        | some (read, more) => plain read more
        | none => none
    else
      match newline? (c :: rest) with
      | some more => plain '\n' more
      | none => if isPrintable c then plain c rest else none

/-- The text after a line end right behind the opening quotes. -/
def dropFirstNewline (text : List Char) : List Char := (newline? text).getD text

/-- A string. -/
def string? (text : List Char) : Option (String × List Char) :=
  let fuel := text.length + 1
  let read :=
    match text with
    | '"' :: '"' :: '"' :: rest => longChars '"' true fuel (dropFirstNewline rest)
    | '"' :: rest => basicChars fuel rest
    | '\'' :: '\'' :: '\'' :: rest => longChars '\'' false fuel (dropFirstNewline rest)
    | '\'' :: rest => literalChars rest
    | _ => none
  read.map fun (chars, after) => (String.ofList chars, after)

/-! ## Numbers -/

/-- The digits that follow a digit, with single underscores between digits. -/
def moreDigits (isDigit : Char → Bool) : List Char → Option (List Char × List Char)
  | [] => some ([], [])
  | '_' :: c :: rest =>
    if isDigit c then (moreDigits isDigit rest).map fun (digits, after) => (c :: digits, after)
    else none
  | c :: rest =>
    if isDigit c then (moreDigits isDigit rest).map fun (digits, after) => (c :: digits, after)
    else if c = '_' then none
    else some ([], c :: rest)

/-- Digits with single underscores between them. -/
def digits? (isDigit : Char → Bool) : List Char → Option (List Char × List Char)
  | c :: rest =>
    if isDigit c then (moreDigits isDigit rest).map fun (digits, after) => (c :: digits, after)
    else none
  | [] => none

/-- Whether a character is a digit in a base up to sixteen. -/
def isDigitIn (base : Nat) (c : Char) : Bool := ((Json.hexValue? c).map (decide <| · < base)).getD false

/-- The natural number that digits write in a base. -/
def valueIn (base : Nat) (digits : List Char) : Nat :=
  digits.foldl (fun n c => n * base + (Json.hexValue? c).getD 0) 0

/-- Decimal digits without a zero before others. -/
def decimal? (text : List Char) : Option (List Char × List Char) :=
  match text with
  | '0' :: rest => some (['0'], rest)
  | _ => digits? Char.isDigit text

/-- A sign, and whether it is a minus. -/
def sign (text : List Char) : Bool × List Char :=
  match text with
  | '-' :: rest => (true, rest)
  | '+' :: rest => (false, rest)
  | _ => (false, text)

/-- The largest whole number. -/
def maxWhole : Nat := Nat.pow 2 63 - 1

/-- A whole number with the given sign, if it fits. -/
def whole? (negative : Bool) (n : Nat) : Option Json :=
  if negative then if n ≤ maxWhole + 1 then some (.int (-(n : Int))) else none
  else if n ≤ maxWhole then some (.nat n)
  else none

/-- A whole number. -/
def integer? (text : List Char) : Option (Json × List Char) :=
  let based (base : Nat) (rest : List Char) : Option (Json × List Char) := do
    let (digits, after) ← digits? (isDigitIn base) rest
    return (← whole? false (valueIn base digits), after)
  match text with
  | '0' :: 'x' :: rest => based 16 rest
  | '0' :: 'o' :: rest => based 8 rest
  | '0' :: 'b' :: rest => based 2 rest
  | _ => do
    let (negative, rest) := sign text
    let (digits, after) ← decimal? rest
    return (← whole? negative (valueIn 10 digits), after)

/-- The exponent of a fraction, if there is one. -/
def exponent? (text : List Char) : Option (Int × List Char) :=
  match text with
  | c :: rest =>
    if c = 'e' || c = 'E' then do
      let (negative, rest) := sign rest
      let (digits, after) ← digits? Char.isDigit rest
      let value : Int := valueIn 10 digits
      return (if negative then -value else value, after)
    else none
  | [] => none

/-- A fraction: a number with a point, an exponent or both. One too large is refused unless it is
negative. -/
def fraction? (text : List Char) : Option (Json × List Char) := do
  let (negative, rest) := sign text
  let (whole, rest) ← decimal? rest
  let make (fraction : List Char) (exponent : Int) (after : List Char) : Option (Json × List Char) :=
    let x := Binary64.ofDecimal negative (valueIn 10 (whole ++ fraction))
      (exponent - (fraction.length : Int))
    if x = .infinite false then none else some (.real x, after)
  match rest with
  | '.' :: more =>
    let (fraction, after) ← digits? Char.isDigit more
    match exponent? after with
    | some (exponent, final) => make fraction exponent final
    | none => make fraction 0 after
  | _ =>
    let (exponent, after) ← exponent? rest
    make [] exponent after

/-- Infinity or the undefined value. -/
def special? (text : List Char) : Option (Json × List Char) :=
  let (negative, rest) := sign text
  match rest with
  | 'i' :: 'n' :: 'f' :: after => some (.real (.infinite negative), after)
  | 'n' :: 'a' :: 'n' :: after => some (.real .undefined, after)
  | _ => none

/-! ## Dates and times -/

/-- So many digits and their value, which must lie in a range. -/
def field? (count least greatest : Nat) (text : List Char) : Option (Nat × List Char) :=
  let digits := text.take count
  let value := valueIn 10 digits
  if digits.length = count && digits.all Char.isDigit && least ≤ value && value ≤ greatest then
    some (value, text.drop count)
  else none

/-- What follows a character. -/
def after? (c : Char) : List Char → Option (List Char)
  | d :: rest => if c = d then some rest else none
  | [] => none

/-- Whether a year has a leap day. -/
def isLeap (year : Nat) : Bool := year % 4 = 0 && (year % 100 ≠ 0 || year % 400 = 0)

/-- The number of days of a month. -/
def daysIn (year month : Nat) : Nat :=
  if month = 2 then if isLeap year then 29 else 28
  else if month = 4 || month = 6 || month = 9 || month = 11 then 30
  else 31

/-- What follows a date. -/
def date? (text : List Char) : Option (List Char) := do
  let (year, rest) ← field? 4 0 9999 text
  let (month, rest) ← field? 2 1 12 (← after? '-' rest)
  let (_, rest) ← field? 2 1 (daysIn year month) (← after? '-' rest)
  return rest

/-- What follows a time of day. -/
def time? (text : List Char) : Option (List Char) := do
  let (_, rest) ← field? 2 0 23 text
  let (_, rest) ← field? 2 0 59 (← after? ':' rest)
  let (_, rest) ← field? 2 0 60 (← after? ':' rest)
  match rest with
  | '.' :: c :: more => if c.isDigit then some (more.dropWhile Char.isDigit) else some rest
  | _ => some rest

/-- What follows the distance from universal time. -/
def offset? : List Char → Option (List Char)
  | 'Z' :: rest => some rest
  | 'z' :: rest => some rest
  | c :: rest =>
    if c = '+' || c = '-' then do
      let (_, rest) ← field? 2 0 23 rest
      let (_, rest) ← field? 2 0 59 (← after? ':' rest)
      return rest
    else none
  | [] => none

/-- What follows the time after a date, if there is one. -/
def timeAfterDate (text : List Char) : List Char :=
  match text with
  | c :: rest =>
    if c = 'T' || c = 't' || c = ' ' then
      match time? rest with
      | some after => (offset? after).getD after
      | none => text
    else text
  | [] => text

/-- The value of a date or time. No setting is one, so that it stands as an object with a single
member. -/
def momentOf (text rest : List Char) : Json :=
  .object [("moment", .string (String.ofList (text.take (text.length - rest.length))))]

/-- A date, a time or both. -/
def moment? (text : List Char) : Option (Json × List Char) :=
  match date? text with
  | some rest =>
    let after := timeAfterDate rest
    some (momentOf text after, after)
  | none => (time? text).map fun after => (momentOf text after, after)

/-- A number, a date or a time. -/
def numeric? (text : List Char) : Option (Json × List Char) :=
  match moment? text with
  | some found => some found
  | none =>
    match fraction? text with
    | some found => some found
    | none =>
      match special? text with
      | some found => some found
      | none => integer? text

end StrategyMend.Toml
