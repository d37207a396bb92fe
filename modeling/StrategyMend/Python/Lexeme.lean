import StrategyMend.Python.Identifier

/-!
# Lexemes of Python

A lexeme is a word, a number, the opening of a string, or a mark such as an operator or a bracket.
Whether a word is a keyword is decided by the grammar, which knows the words that are possible at a
place. The lexeme at the start of a text is the longest possible one. Old spellings are read too:
`0777`, `10L`, `<>`, and strings between grave accents.
-/

set_option autoImplicit false

namespace StrategyMend.Python

/-- How a string literal is delimited and read. -/
structure StringForm where
  /-- Backslashes stand for themselves. -/
  raw : Bool
  /-- The literal denotes bytes. -/
  bytes : Bool
  /-- Braces interpolate expressions. -/
  format : Bool
  quote : Char
  /-- The delimiter is three quotes. -/
  triple : Bool

/-- A lexeme. -/
inductive Lexeme where
  | word (text : String)
  | number
  | stringStart (form : StringForm)
  | mark (text : String)
  /-- A line break that ends a statement. -/
  | lineBreak
  /-- The end of the text. -/
  | finish
  /-- A character that begins no lexeme. -/
  | stray

/-- Marks of three characters, of two and of one. -/
def marks : List String :=
  ["**=", "//=", ">>=", "<<=", "...",
    "==", "!=", "<=", ">=", "<>", "->", ":=", "+=", "-=", "*=", "/=", "%=", "@=", "&=", "|=", "^=",
    "**", "//", "<<", ">>",
    "(", ")", "[", "]", "\x7b", "\x7d", ",", ":", ";", ".", "=", "+", "-", "*", "/", "%", "@", "&",
    "|", "^", "~", "<", ">"]

/-- What follows a run of decimal digits in which single underscores may follow digits. -/
def skipDigits : List Char → List Char
  | c :: '_' :: rest => if c.isDigit then skipDigits rest else c :: '_' :: rest
  | c :: rest => if c.isDigit then skipDigits rest else c :: rest
  | [] => []

/-- What follows a run of digits of another base, in which underscores may stand before digits. -/
def skipBaseDigits (isDigit : Char → Bool) : List Char → List Char
  | '_' :: d :: rest => if isDigit d then skipBaseDigits isDigit rest else '_' :: d :: rest
  | d :: rest => if isDigit d then skipBaseDigits isDigit rest else d :: rest
  | [] => []

/-- What follows one of the given characters, if the text begins with one. -/
def skipOne (chars : List Char) : List Char → List Char
  | c :: rest => if chars.contains c then rest else c :: rest
  | [] => []

/-- Whether a text begins with a decimal digit. -/
def beginsWithDigit : List Char → Bool
  | c :: _ => c.isDigit
  | [] => false

/-- What follows an exponent, if the text begins with one. -/
def skipExponent : List Char → Option (List Char)
  | c :: rest =>
    if c = 'e' || c = 'E' then
      let digits := skipOne ['+', '-'] rest
      if beginsWithDigit digits then some (skipDigits digits) else none
    else none
  | [] => none

/-- What follows the exponent and the mark of an imaginary number. -/
def skipRealTail (text : List Char) : List Char :=
  skipOne ['j', 'J'] ((skipExponent text).getD text)

/-- What follows a number with decimal digits. -/
def skipDecimal (text : List Char) : List Char :=
  match skipDigits text with
  | '.' :: fraction => skipRealTail (skipDigits fraction)
  | rest =>
    match skipExponent rest with
    | some after => skipOne ['j', 'J'] after
    | none => skipOne ['l', 'L', 'j', 'J'] rest

/-- Digits of the bases that a letter after a zero announces. -/
def baseDigit? (letter : Char) : Option (Char → Bool) :=
  if letter = 'x' || letter = 'X' then
    some fun c => c.isDigit || ('a' ≤ c && c ≤ 'f') || ('A' ≤ c && c ≤ 'F')
  else if letter = 'o' || letter = 'O' then some fun c => '0' ≤ c && c ≤ '7'
  else if letter = 'b' || letter = 'B' then some fun c => c = '0' || c = '1'
  else none

/-- Whether digits of a base follow, perhaps after an underscore. -/
def beginsWithBaseDigit (isDigit : Char → Bool) : List Char → Bool
  | '_' :: d :: _ => isDigit d
  | d :: _ => isDigit d
  | [] => false

/-- What follows the number at the start of a text. -/
def skipNumber? (text : List Char) : Option (List Char) :=
  match text with
  | '.' :: fraction =>
    if beginsWithDigit fraction then some (skipRealTail (skipDigits fraction)) else none
  | '0' :: letter :: rest =>
    match baseDigit? letter with
    | some isDigit =>
      if beginsWithBaseDigit isDigit rest then
        some (skipOne ['l', 'L'] (skipBaseDigits isDigit rest))
      else some (letter :: rest)
    | none => some (skipDecimal text)
  | c :: _ => if c.isDigit then some (skipDecimal text) else none
  | [] => none

/-- The letters that may stand before the quote of a string. -/
def isStringFlag (c : Char) : Bool := "fFrRbBuU".toList.contains c

/-- The opening of a string at the start of a text, and what follows it. -/
def stringStart? (text : List Char) : Option (StringForm × List Char) :=
  let flags := text.takeWhile isStringFlag
  let form (quote : Char) (triple : Bool) : StringForm :=
    { raw := flags.any fun c => c = 'r' || c = 'R'
      bytes := flags.any fun c => c = 'b' || c = 'B'
      format := flags.any fun c => c = 'f' || c = 'F'
      quote, triple }
  match text.dropWhile isStringFlag with
  | '\x60' :: rest => some (form '\x60' false, rest)
  | c :: rest =>
    if c = '"' || c = '\'' then
      match rest with
      | second :: third :: inside =>
        if second = c && third = c then some (form c true, inside) else some (form c false, rest)
      | _ => some (form c false, rest)
    else none
  | [] => none

/-- The longest mark at the start of a text, and what follows it. -/
def mark? (text : List Char) : Option (String × List Char) :=
  marks.findSome? fun mark => (Text.dropStart? mark.toList text).map fun rest => (mark, rest)

/-- The lexeme at the start of a text, and what follows it. -/
def Lexeme.read (text : List Char) : Lexeme × List Char :=
  match text with
  | [] => (.finish, [])
  | c :: rest =>
    match stringStart? text with
    | some (form, after) => (.stringStart form, after)
    | none =>
      if isIdentifierStart c then
        (.word (String.ofList (text.takeWhile isIdentifierPart)), text.dropWhile isIdentifierPart)
      else
        match skipNumber? text with
        | some after => (.number, after)
        | none =>
          match mark? text with
          | some (sign, after) => (.mark sign, after)
          | none => (.stray, rest)

end StrategyMend.Python
