import StrategyMend.Python.Grammar.Statement
import StrategyMend.Text.Lines

/-!
# Python sources

`Module.read` takes a whole source as a list of statements. If that fails, it says where the first
statement begins that cannot be read.
-/

set_option autoImplicit false

namespace StrategyMend.Python

open Reader

/-- A source as a tree. -/
structure Module where
  statements : List Statement

/-- Where a source stops being readable, both counted from zero. -/
structure BadStatement where
  /-- The row on which the statement begins. -/
  row : Nat
  /-- The text from the beginning of the statement. -/
  text : List Char

namespace Module

/-- Reads statements until the text ends, at most `fuel` times. -/
def readFrom : (fuel : Nat) → List Statement → Cursor → Except BadStatement (List Statement)
  | 0, _, cursor => .error ⟨cursor.row, cursor.rest⟩
  | fuel + 1, before, cursor =>
    let (ahead, text) := cursor.lookahead
    match ahead.lexeme with
    | .finish => .ok before
    | _ =>
      match statementOfDepth (text.length + 1) cursor with
      | some (found, next) => readFrom fuel (before ++ found) next
      | none => .error ⟨ahead.row, text⟩

/-- The tree of a source. -/
def read (text : String) : Except BadStatement Module :=
  let chars := text.toList
  (readFrom (chars.length + 1) [] ⟨chars, 0, []⟩).map Module.mk

end Module

end StrategyMend.Python
