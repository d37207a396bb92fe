import StrategyMend.Text.Blank

/-!
# Indentation and kinds of lines

The indentation of a line is its leading run of spaces and tabs. Its width counts columns: a tab
advances to the next multiple of eight. A line is blank, a comment, or code.
-/

set_option autoImplicit false

namespace StrategyMend.Source

open Text

/-- Columns between tab stops. -/
def tabWidth : Nat := 8

/-- The column reached from `column` through the spaces and tabs at the start of a line. -/
def columnAfter (column : Nat) : List Char → Nat
  | ' ' :: rest => columnAfter (column + 1) rest
  | '\t' :: rest => columnAfter (column + (tabWidth - column % tabWidth)) rest
  | _ => column

/-- Characters that indent a line. -/
def isIndentChar (c : Char) : Bool := c = ' ' || c = '\t'

/-- The width of a line's indentation in columns. -/
def indentWidth (line : String) : Nat := columnAfter 0 line.toList

/-- The indentation of a line, as written. -/
def indentation (line : String) : String := String.ofList (line.toList.takeWhile isIndentChar)

/-- A line without any character that is not blank. -/
def isBlankLine (line : String) : Bool := isBlankText line

/-- A line whose first character that is not blank is `#`. -/
def isComment (line : String) : Bool := (Chars.trimStart line.toList).head? = some '#'

/-- A line that is neither blank nor a comment. -/
def isCode (line : String) : Bool := !isBlankLine line && !isComment line

/-- The indentation that a body adds to its header's: what `body` has beyond `header`, or four spaces
if its indentation does not properly extend the header's. -/
def indentUnit (header : String) (body : Option String) : String :=
  let outer := (indentation header).toList
  match body with
  | some line =>
    let inner := (indentation line).toList
    if outer.length < inner.length && outer.isPrefixOf inner then
      String.ofList (inner.drop outer.length)
    else "    "
  | none => "    "

end StrategyMend.Source
