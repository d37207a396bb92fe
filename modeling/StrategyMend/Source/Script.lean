import StrategyMend.Python.Module
import StrategyMend.Source.Indentation

/-!
# Scripts

A script is one source with its name, its lines and its tree. A source that does not parse has a
diagnostic in place of the tree.
-/

set_option autoImplicit false

namespace StrategyMend.Source

open Text Python

/-- Where a source is wrong, and what is said about it. Lines and columns are counted from one. -/
structure Diagnostic where
  line : Nat
  column : Nat
  message : String
  deriving DecidableEq

/-- What reading the text of a script results in. -/
abbrev Parsed := Except Diagnostic Module

/-- One source. -/
structure Script where
  name : String
  text : String
  parsed : Parsed

namespace Diagnostic

/-- The number of characters that a diagnostic quotes. -/
def quotedLength : Nat := 40

/-- The diagnostic for a statement that cannot be read; it quotes the statement's first line. -/
def ofBadStatement (lines : List String) (bad : BadStatement) : Diagnostic :=
  let first := Chars.trim (bad.text.takeWhile (· ≠ '\n'))
  { line := bad.row + 1
    column := ((lines[bad.row]?.map fun line => (indentation line).utf8ByteSize).getD 0) + 1
    message :=
      if first.isEmpty then "invalid syntax"
      else "invalid syntax near \x60" ++ String.ofList (first.take quotedLength) ++ "\x60" }

end Diagnostic

/-- Reads the text of a script. -/
def parse (text : String) : Parsed :=
  (Module.read text).mapError (Diagnostic.ofBadStatement (splitLines text))

namespace Script

/-- The script with the given name and text. -/
def ofText (name text : String) : Script := ⟨name, text, parse text⟩

/-- The lines of the text. -/
def lines (script : Script) : List String := splitLines script.text

/-- Whether the text ends in a newline. -/
def trailing (script : Script) : Bool := endsInNewline script.text

/-- The number of lines. -/
def lineCount (script : Script) : Nat := script.lines.length

/-- A line by its number, counted from one. -/
def line? (script : Script) (number : Nat) : Option String :=
  if number = 0 then none else script.lines[number - 1]?

/-- The tree, if the text parses. -/
def tree? (script : Script) : Option Module := script.parsed.toOption

/-- The diagnostic, if the text does not parse. -/
def diagnostic? (script : Script) : Option Diagnostic :=
  match script.parsed with
  | .error diagnostic => some diagnostic
  | .ok _ => none

/-- Whether the text parses. -/
def isValid (script : Script) : Bool := script.diagnostic?.isNone

/-- Lines joined to a text in the script's manner. -/
def render (script : Script) (lines : List String) : String := joinLines lines script.trailing

/-- A row's text without blank characters around it; rows are counted from zero. -/
def snippet? (script : Script) (row : Nat) : Option String := script.lines[row]?.map trim

end Script

end StrategyMend.Source
