import StrategyMend.Json.Basic

/-!
# Writing JSON

`compact` writes a value on one line, `pretty` indents the parts of arrays and objects by two
spaces. Only quotes, backslashes and control characters are escaped in strings.
-/

set_option autoImplicit false

namespace StrategyMend

open Number

namespace Json

/-- A digit below sixteen. -/
def hexDigit (n : Nat) : Char := Char.ofNat (if n < 10 then '0'.toNat + n else 'a'.toNat + (n - 10))

/-- A character of a string as it is written. -/
def escape (c : Char) : List Char :=
  if c = '"' then ['\\', '"']
  else if c = '\\' then ['\\', '\\']
  else if c = '\x08' then ['\\', 'b']
  else if c = '\x0c' then ['\\', 'f']
  else if c = '\n' then ['\\', 'n']
  else if c = '\r' then ['\\', 'r']
  else if c = '\t' then ['\\', 't']
  else if c.toNat < 0x20 then
    ['\\', 'u', '0', '0', hexDigit (c.toNat / 16), hexDigit (c.toNat % 16)]
  else [c]

/-- A string between quotes. -/
def quoted (s : String) : String := "\"" ++ String.ofList (s.toList.flatMap escape) ++ "\""

/-- The text of a number. -/
def Number.text : Number → String
  | .natural n => toString n
  | .negative n => "-" ++ toString n
  | .real x => x.scientific

/-- Texts with a separator between neighbours. -/
def separated (separator : String) : List String → String
  | [] => ""
  | [last] => last
  | first :: rest => first ++ separator ++ separated separator rest

mutual

/-- The value on one line. -/
def compact : Json → String
  | .null => "null"
  | .bool b => if b then "true" else "false"
  | .number n => n.text
  | .string s => quoted s
  | .array items => "[" ++ separated "," (compactItems items) ++ "]"
  | .object members => "\x7b" ++ separated "," (compactMembers members) ++ "\x7d"

/-- The items of an array, each on one line. -/
def compactItems : List Json → List String
  | [] => []
  | item :: rest => compact item :: compactItems rest

/-- The members of an object, each on one line. -/
def compactMembers : List (String × Json) → List String
  | [] => []
  | (key, value) :: rest => (quoted key ++ ":" ++ compact value) :: compactMembers rest

end

/-- The start of a line at a nesting depth. -/
def lineStart (depth : Nat) : String := "\n" ++ String.ofList (List.replicate (2 * depth) ' ')

/-- Parts of an array or object on lines of their own between two brackets. -/
def bracketed (left right : String) (depth : Nat) (parts : List String) : String :=
  if parts.isEmpty then left ++ right
  else
    left ++ lineStart (depth + 1) ++ separated ("," ++ lineStart (depth + 1)) parts ++
      lineStart depth ++ right

mutual

/-- The value over several lines, `depth` levels deep. -/
def prettyAt (depth : Nat) : Json → String
  | .array items => bracketed "[" "]" depth (prettyItems (depth + 1) items)
  | .object members => bracketed "\x7b" "\x7d" depth (prettyMembers (depth + 1) members)
  | .null => "null"
  | .bool b => if b then "true" else "false"
  | .number n => n.text
  | .string s => quoted s

/-- The items of an array, each over several lines. -/
def prettyItems (depth : Nat) : List Json → List String
  | [] => []
  | item :: rest => prettyAt depth item :: prettyItems depth rest

/-- The members of an object, each over several lines. -/
def prettyMembers (depth : Nat) : List (String × Json) → List String
  | [] => []
  | (key, value) :: rest =>
    (quoted key ++ ": " ++ prettyAt depth value) :: prettyMembers depth rest

end

/-- The value over several lines. -/
def pretty (value : Json) : String := prettyAt 0 value

end Json

end StrategyMend
