import StrategyMend.Source.Statement

/-!
# Blocks

The block of a header line reaches to the furthest line before the next statement at the header's
indentation or less. Continuation lines belong to the block; blank lines and comments belong to it
only if more of the block follows. A header may also carry its body on its own line, after the first
colon outside brackets and strings.
-/

set_option autoImplicit false

namespace StrategyMend.Source

open Text

/-- The last line of a block whose header has the width `indent`, read on from the line `index`;
`last` is the last line found so far. -/
def blockEndFrom (indent last index : Nat) : List MarkedLine → Nat
  | [] => last
  | line :: rest =>
    if !line.starts then blockEndFrom indent index (index + 1) rest
    else if !isCode line.text then blockEndFrom indent last (index + 1) rest
    else if indent < indentWidth line.text then blockEndFrom indent index (index + 1) rest
    else last

/-- The index of the last line of the block that the line `header` opens; `header` itself if the
block is empty or there is no such line. -/
def blockEnd (lines : List String) (header : Nat) : Nat :=
  match lines[header]? with
  | none => header
  | some line =>
    blockEndFrom (indentWidth line) header (header + 1) ((markLines lines).drop (header + 1))

/-- What follows the first colon at bracket depth zero outside strings; `quote` is the open string's.
A comment sign before it ends the search, and a string has no escapes here. -/
def afterColon (quote : Option Char) (depth : Int) : List Char → Option (List Char)
  | [] => none
  | c :: rest =>
    match quote with
    | some open_ => afterColon (if c = open_ then none else quote) depth rest
    | none =>
      if isQuote c then afterColon (some c) depth rest
      else if c = '#' then none
      else if c = ':' && depth = 0 then some rest
      else afterColon none (depth + bracketStep c) rest

/-- The body that a header carries on its own line, without comment and blank characters around. -/
def inlineBody (header : String) : Option String :=
  (afterColon none 0 header.toList).bind fun rest =>
    let body := Chars.trim ((Chars.trim rest).takeWhile (· ≠ '#'))
    if body.isEmpty then none else some (String.ofList body)

end StrategyMend.Source
