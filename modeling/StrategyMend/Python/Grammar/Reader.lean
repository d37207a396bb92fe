import StrategyMend.Python.Cursor
import StrategyMend.Python.Tree

/-!
# Readers of parts of a source

A `Reader` takes a part of a source off a cursor, or fails and leaves the choice of another reader to
its caller. Readers look at one lexeme at a time and pass it when they accept it.
-/

set_option autoImplicit false

namespace StrategyMend.Python

/-- A reader of part of a source. -/
abbrev Reader (α : Type) := StateT Cursor Option α

namespace Lookahead

/-- Whether the lexeme is the given mark. -/
def isMark (ahead : Lookahead) (text : String) : Bool :=
  match ahead.lexeme with
  | .mark found => found == text
  | _ => false

/-- The mark that the lexeme is. -/
def mark? (ahead : Lookahead) : Option String :=
  match ahead.lexeme with
  | .mark found => some found
  | _ => none

/-- Whether the lexeme is the given word. -/
def isWord (ahead : Lookahead) (text : String) : Bool :=
  match ahead.lexeme with
  | .word found => found == text
  | _ => false

/-- The word that the lexeme is. -/
def word? (ahead : Lookahead) : Option String :=
  match ahead.lexeme with
  | .word found => some found
  | _ => none

/-- Whether the lexeme is a line break. -/
def isLineBreak (ahead : Lookahead) : Bool :=
  match ahead.lexeme with
  | .lineBreak => true
  | _ => false

/-- Whether an operand may begin with the lexeme. -/
def startsOperand (ahead : Lookahead) : Bool :=
  match ahead.lexeme with
  | .word _ => true
  | .number => true
  | .stringStart _ => true
  | .mark found => ["(", "[", "\x7b", "-", "+", "~", "*", "..."].contains found
  | _ => false

end Lookahead

namespace Reader

/-- The next lexeme at a place, which is not passed. -/
def peek (place : Place) : Reader Lookahead := do
  let cursor ← get
  match cursor.peek? place with
  | some ahead => pure ahead
  | none => failure

/-- The lexeme after another one, if it may stand at the place. -/
def peekAfter? (ahead : Lookahead) (place : Place) : Option Lookahead := ahead.after.peek? place

/-- Passes a lexeme that was looked at. -/
def pass (ahead : Lookahead) : Reader Unit := set ahead.after

/-- Passes a mark that must come next. -/
def expectMark (place : Place) (text : String) : Reader Unit := do
  let ahead ← peek place
  if ahead.isMark text then pass ahead else failure

/-- Passes a word that must come next. -/
def expectWord (place : Place) (text : String) : Reader Unit := do
  let ahead ← peek place
  if ahead.isWord text then pass ahead else failure

/-- Passes a mark if it comes next. -/
def tryMark (place : Place) (text : String) : Reader Bool := do
  let ahead ← peek place
  if ahead.isMark text then
    pass ahead
    pure true
  else pure false

/-- Reads a word of any kind, with its row. -/
def anyWord (place : Place) : Reader (String × Nat) := do
  let ahead ← peek place
  match ahead.word? with
  | some text =>
    pass ahead
    pure (text, ahead.row)
  | none => failure

/-- Repeats a step at most `fuel` times, until it has no further result. -/
def iterateFor {α : Type} (step : α → Reader (Option α)) : (fuel : Nat) → α → Reader α
  | 0, _ => failure
  | fuel + 1, state => do
    match ← step state with
    | some next => iterateFor step fuel next
    | none => pure state

/-- Repeats a step until it has no further result. Each step but the last two must pass a
character. -/
def iterate {α : Type} (step : α → Reader (Option α)) (start : α) : Reader α := do
  let cursor ← get
  iterateFor step (cursor.rest.length + 2) start

/-- The text in front of the next lexeme. -/
def gapText : Reader (List Char) := do
  let cursor ← get
  pure (cursor.rest.take (cursor.rest.length - cursor.lookahead.2.length))

/-- Moves over the gap before the next lexeme and shows the text there. -/
def settle : Reader (List Char) := do
  let cursor ← get
  let (ahead, text) := cursor.lookahead
  set { cursor with rest := text, row := ahead.row }
  pure text

/-- Passes characters without a line break in them. -/
def advance (count : Nat) : Reader Unit :=
  modify fun cursor => { cursor with rest := cursor.rest.drop count }

/-- Passes characters with `rows` line breaks in them. -/
def advanceRows (count rows : Nat) : Reader Unit :=
  modify fun cursor => { cursor with rest := cursor.rest.drop count, row := cursor.row + rows }

end Reader

end StrategyMend.Python
