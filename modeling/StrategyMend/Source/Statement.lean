import StrategyMend.Source.Indentation

/-!
# Statement starts

A logical statement may run over several lines: inside brackets, inside a string with triple quotes,
or after a backslash at the end of a line. `statementStarts` says for each line whether a statement
may begin there. The reading of a line keeps three facts for the next one: how many brackets are
open, which triple quote is open, and whether the line asks to be continued.
-/

set_option autoImplicit false

namespace StrategyMend.Source

open Text

/-- What the characters of a line are read as. -/
inductive Mode where
  /-- Program text. -/
  | code
  /-- A string that ends at its quote, at the latest with its line. -/
  | quoted (quote : Char)
  /-- A string that ends at three of its quotes. -/
  | tripleQuoted (quote : Char)
  deriving DecidableEq

/-- The two characters that delimit strings. -/
def isQuote (c : Char) : Bool := c = '"' || c = '\''

/-- How a character of program text changes the number of open brackets. -/
def bracketStep (c : Char) : Int :=
  if c = '(' || c = '[' || c = '{' then 1
  else if c = ')' || c = ']' || c = '}' then -1
  else 0

/-- Reads characters from the given mode and bracket depth. A comment ends the reading; in a string
a backslash takes the next character with it. -/
def scan : Mode → Int → List Char → Mode × Int
  | mode, depth, [] => (mode, depth)
  | .code, depth, c :: rest =>
    if c = '#' then (.code, depth)
    else if isQuote c then
      match rest with
      | second :: third :: inside =>
        if second = c && third = c then scan (.tripleQuoted c) depth inside
        else scan (.quoted c) depth (second :: third :: inside)
      | short => scan (.quoted c) depth short
    else scan .code (depth + bracketStep c) rest
  | .quoted quote, depth, c :: rest =>
    if c = '\\' then
      match rest with
      | _ :: after => scan (.quoted quote) depth after
      | [] => (.quoted quote, depth)
    else if c = quote then scan .code depth rest
    else scan (.quoted quote) depth rest
  | .tripleQuoted quote, depth, c :: rest =>
    if c = '\\' then
      match rest with
      | _ :: after => scan (.tripleQuoted quote) depth after
      | [] => (.tripleQuoted quote, depth)
    else if c = quote then
      match rest with
      | second :: third :: after =>
        if second = quote && third = quote then scan .code depth after
        else scan (.tripleQuoted quote) depth (second :: third :: after)
      | short => scan (.tripleQuoted quote) depth short
    else scan (.tripleQuoted quote) depth rest

/-- What a line leaves open for the next one. -/
structure Carry where
  /-- The number of open brackets. -/
  depth : Nat
  /-- The quote of the open string with triple quotes. -/
  triple : Option Char
  /-- Whether the line ends in a backslash that continues it. -/
  continued : Bool
  deriving DecidableEq

namespace Carry

/-- Nothing is open. -/
def closed : Carry := ⟨0, none, false⟩

/-- Whether a statement may begin on a line that is read from here. -/
def startsStatement (carry : Carry) : Bool :=
  carry.depth = 0 && carry.triple.isNone && !carry.continued

/-- The mode in which the next line begins. -/
def mode (carry : Carry) : Mode :=
  match carry.triple with
  | some quote => .tripleQuoted quote
  | none => .code

/-- A line ends in a backslash, blank characters aside, and is no comment. -/
def endsInBackslash (line : String) : Bool :=
  (Chars.trimEnd line.toList).getLast? = some '\\' && !isComment line

/-- What is open after a line. More closing than opening brackets leave none open. -/
def after (carry : Carry) (line : String) : Carry :=
  let (mode, depth) := scan carry.mode carry.depth line.toList
  match mode with
  | .tripleQuoted quote => ⟨depth.toNat, some quote, false⟩
  | _ => ⟨depth.toNat, none, endsInBackslash line⟩

end Carry

/-- The starts of the lines that follow what `carry` leaves open. -/
def startsAfter (carry : Carry) : List String → List Bool
  | [] => []
  | line :: rest => carry.startsStatement :: startsAfter (carry.after line) rest

/-- For each line, whether a statement may begin on it. -/
def statementStarts (lines : List String) : List Bool := startsAfter .closed lines

/-- A line together with whether a statement may begin on it. -/
structure MarkedLine where
  /-- The characters of the line. -/
  text : String
  /-- Whether the line does not continue an earlier one. -/
  starts : Bool
  deriving DecidableEq

namespace MarkedLine

/-- A line of code on which a statement begins. -/
def isStatement (line : MarkedLine) : Bool := line.starts && isCode line.text

end MarkedLine

/-- The lines with their marks. -/
def markLines (lines : List String) : List MarkedLine :=
  List.zipWith MarkedLine.mk lines (statementStarts lines)

end StrategyMend.Source
