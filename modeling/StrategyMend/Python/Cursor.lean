import StrategyMend.Python.Lexeme

/-!
# Reading positions in a Python source

A `Cursor` is what is left of a source, the row it begins on, and the indentations of the open
blocks. Before a lexeme stands a `Gap` of blank characters, comments and line breaks. What a line
break means depends on the `Place`: after a complete statement it ends the statement; inside one it
is passed over, as long as the text goes on at least as far right as the block; between brackets it
is always passed over.
-/

set_option autoImplicit false

namespace StrategyMend.Python

/-- A reading position. -/
structure Cursor where
  /-- The text that is left. -/
  rest : List Char
  /-- The row on which it begins. -/
  row : Nat
  /-- The indentations of the open blocks, innermost first. -/
  blocks : List Nat

/-- The indentation of the innermost open block. -/
def Cursor.indent (cursor : Cursor) : Nat := cursor.blocks.headD 0

/-- What stands between two lexemes. -/
structure Gap where
  /-- The indentations of the comments and of the lexeme that follow a line break, in order. -/
  columns : List Nat
  rest : List Char
  row : Nat

/-- What a gap has been read as so far. -/
structure GapState where
  /-- The indentations found, last first. -/
  columns : List Nat
  /-- The column reached. -/
  column : Nat
  /-- Whether a line break was passed since the last comment. -/
  broken : Bool
  /-- Whether a blank character was passed that hides the line breaks after it. -/
  hidden : Bool
  row : Nat

namespace GapState

/-- Records the column if a line break was passed. -/
def mark (state : GapState) : GapState :=
  if state.broken then { state with columns := state.column :: state.columns } else state

/-- Passes a line break. -/
def newline (state : GapState) : GapState :=
  { state with
    row := state.row + 1, column := 0, broken := state.broken || !state.hidden }

/-- The gap that ends here, before `rest`. -/
def finish (state : GapState) (rest : List Char) : Gap :=
  { columns := state.mark.columns.reverse, rest, row := state.row }

end GapState

/-- Blank characters that hide the line breaks after them. -/
def isHiding (c : Char) : Bool :=
  c = '\x0b' || c = '\uFEFF' || c = '\u2060' || c = '\u200B'

/-- Reads a gap; `comment` says whether a comment is being read. A tabulator counts as eight columns,
and a backslash takes a line break with it. At the end of the text a line break is assumed. -/
def Gap.scan (comment : Bool) (state : GapState) : List Char → Gap
  | [] => { columns := (0 :: state.columns).reverse, rest := [], row := state.row }
  | '\n' :: rest => Gap.scan false state.newline rest
  | '\\' :: '\n' :: rest =>
    if comment then Gap.scan false state.newline rest
    else Gap.scan false { state with row := state.row + 1 } rest
  | '\\' :: '\r' :: '\n' :: rest =>
    if comment then Gap.scan false state.newline rest
    else Gap.scan false { state with row := state.row + 1 } rest
  | c :: rest =>
    if comment then Gap.scan true state rest
    else if c = ' ' then Gap.scan false { state with column := state.column + 1 } rest
    else if c = '\t' then Gap.scan false { state with column := state.column + 8 } rest
    else if c = '\r' || c = '\x0c' then Gap.scan false { state with column := 0 } rest
    else if isHiding c then Gap.scan false { state with hidden := true } rest
    else if c = '#' then
      Gap.scan true { state.mark with broken := false, hidden := false, column := 0 } rest
    else if c = '\\' && rest.isEmpty then Gap.scan false state rest
    else state.finish (c :: rest)

/-- What a line break before the next lexeme means. -/
inductive Place where
  /-- It ends the statement. -/
  | statementEnd
  /-- It is passed over if the text goes on at least as far right as the block. -/
  | inStatement
  /-- It is passed over. -/
  | inBrackets
  deriving DecidableEq

/-- The next lexeme. -/
structure Lookahead where
  lexeme : Lexeme
  /-- The row of the lexeme. -/
  row : Nat
  /-- The indentations found in the gap before it. -/
  columns : List Nat
  /-- The position after the lexeme. -/
  after : Cursor

namespace Lookahead

/-- The indentation of the line that the lexeme begins; none if it continues a line. -/
def column? (ahead : Lookahead) : Option Nat := ahead.columns.getLast?

/-- Whether the lexeme opens a string without letters before its quote. -/
def isBareString (ahead : Lookahead) (rest : List Char) : Bool :=
  match ahead.lexeme, rest with
  | .stringStart _, c :: _ => !isStringFlag c
  | _, _ => false

end Lookahead

namespace Cursor

/-- The next lexeme after the gap. -/
def lookahead (cursor : Cursor) : Lookahead × List Char :=
  let gap := Gap.scan false ⟨[], 0, false, false, cursor.row⟩ cursor.rest
  let (lexeme, rest) := Lexeme.read gap.rest
  ({ lexeme, row := gap.row, columns := gap.columns
     after := { cursor with rest, row := gap.row } }, gap.rest)

/-- The next lexeme at a place; none if the line it stands on lies too far left. -/
def peek? (place : Place) (cursor : Cursor) : Option Lookahead :=
  let (ahead, text) := cursor.lookahead
  match place with
  | .inBrackets => some ahead
  | .statementEnd =>
    if ahead.columns.isEmpty then some ahead
    else some { ahead with lexeme := .lineBreak, after := cursor }
  | .inStatement =>
    let checked := if ahead.isBareString text then ahead.columns.dropLast else ahead.columns
    if checked.all fun column => cursor.indent ≤ column then some ahead else none

end Cursor

end StrategyMend.Python
