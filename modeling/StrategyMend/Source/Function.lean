import StrategyMend.Source.Branch

/-!
# Functions by their lines

Two questions about functions that are answered from the lines alone, so also for texts that do not
parse: which function a line belongs to, and where new statements go at the top of a function's body.
A function encloses a line if its header is reached from there by going up through ever smaller
indentations.
-/

set_option autoImplicit false

namespace StrategyMend.Source

open Text

/-! ## The enclosing function -/

/-- The name that a function header defines. -/
def definedName? (header : String) : Option String :=
  let text := Chars.trimStart header.toList
  let afterAsync := ((dropStart? "async".toList text).map Chars.trimStart).getD text
  (dropStart? "def".toList afterAsync).map fun rest =>
    String.ofList ((Chars.trimStart rest).takeWhile isNamePart)

/-- The name of the first function header met on the way out from a line of width `indent` over the
lines above it, nearest first. Only statements with a smaller width than all before are met. -/
def enclosingAbove (indent : Nat) : List MarkedLine → Option String
  | [] => none
  | line :: above =>
    let width := indentWidth line.text
    if !line.isStatement || indent ≤ width then enclosingAbove indent above
    else if isDefHeader line.text then definedName? line.text
    else enclosingAbove width above

/-- The name of the innermost function around the line `index`. -/
def enclosingFunction? (lines : List String) (index : Nat) : Option String :=
  match lines[index]? with
  | none => none
  | some line => enclosingAbove (indentWidth line) ((markLines lines).take index).reverse

/-! ## The top of a body -/

/-- Where new statements go at the top of a body. -/
structure BodyTop where
  /-- The number of the line, from zero, in front of which they go. -/
  index : Nat
  /-- The indentation of the body. -/
  indent : String
  /-- What a nested body is indented further. -/
  step : String
  deriving DecidableEq

/-- The letters that may stand before a string that is a statement. -/
def isStringPrefixLetter (c : Char) : Bool := "rRuUbB".toList.contains c

/-- Whether a line begins with a string. -/
def beginsWithString (line : String) : Bool :=
  match (Chars.trimStart line.toList).dropWhile isStringPrefixLetter with
  | c :: _ => isQuote c
  | [] => false

/-- The top of a body, given the header's width and text and the marked lines from `index` on. The
body begins at the first statement, which must be indented deeper than the header; a string there is
passed over with its continuation lines. -/
def bodyTopFrom (header : String) : (index : Nat) → List MarkedLine → Option BodyTop
  | _, [] => none
  | index, line :: rest =>
    if !line.isStatement then bodyTopFrom header (index + 1) rest
    else if indentWidth header < indentWidth line.text then
      let continuation := (rest.takeWhile fun next => !next.starts).length
      some
        { index := if beginsWithString line.text then index + 1 + continuation else index
          indent := indentation line.text
          step := indentUnit header (some line.text) }
    else none

/-- The top of the body of the function whose header is on the line `index`; none if no function
header is there, or if its body stands on the header's last line. -/
def bodyTop? (lines : List String) (index : Nat) : Option BodyTop :=
  match (markLines lines).drop index with
  | [] => none
  | header :: rest =>
    if isDefHeader header.text then
      let continuation := rest.takeWhile fun line => !line.starts
      let last := continuation.getLast?.getD header
      if (inlineBody last.text).isSome then none
      else
        bodyTopFrom header.text (index + 1 + continuation.length) (rest.drop continuation.length)
    else none

end StrategyMend.Source
