import StrategyMend.Source.Block
import StrategyMend.Text.Word

/-!
# Branches and their openers

A branch is a statement that continues a conditional: `elif …`, `else if …`, or `else:`. Its opener
is found by looking back over the statements above it, at most as many as a window allows. Deeper
statements are passed over. The first one that is not deeper decides: a header that the branch may
continue is its opener; a `def` header further out may be crossed once; anything else leaves the
branch an orphan. The search works on lines, so it also answers for texts that do not parse.
-/

set_option autoImplicit false

namespace StrategyMend.Source

open Text

/-- The two ways to continue a conditional. -/
inductive BranchKind where
  /-- `elif condition:` or `else if condition:`. -/
  | elseIf
  /-- `else:`. -/
  | otherwise
  deriving DecidableEq

/-- The word that introduces the branch in messages. -/
def BranchKind.keyword : BranchKind → String
  | .elseIf => "elif"
  | .otherwise => "else"

/-- The rest of a text after a word and at least one blank character. -/
def dropWordBlank? (word text : List Char) : Option (List Char) :=
  match dropStart? word text with
  | some (c :: rest) => if isBlank c then some (Chars.trimStart rest) else none
  | _ => none

/-- The rest of a text after a word, any blank characters and a colon. -/
def dropWordColon? (word text : List Char) : Option (List Char) :=
  match (dropStart? word text).map Chars.trimStart with
  | some (':' :: rest) => some rest
  | _ => none

/-- Whether the text begins with the whole word. -/
def beginsWithWord (word : String) (text : List Char) : Bool := (dropWord? word.toList text).isSome

/-- Whether the text begins with the first word, blank characters and the whole second word. -/
def beginsWithWords (first second : String) (text : List Char) : Bool :=
  ((dropWordBlank? first.toList text).bind (dropWord? second.toList)).isSome

/-- What a branch line is, by its text without blank characters at the start. -/
def classifyChars (text : List Char) : Option BranchKind :=
  if beginsWithWord "elif" text || beginsWithWords "else" "if" text then some .elseIf
  else if (dropWordColon? "else".toList text).isSome then some .otherwise
  else none

/-- What kind of branch a line begins with, if any. -/
def classify (line : String) : Option BranchKind := classifyChars (Chars.trimStart line.toList)

/-- Whether a line is the header of a function. -/
def isDefHeader (line : String) : Bool :=
  let text := Chars.trimStart line.toList
  beginsWithWord "def" text || beginsWithWords "async" "def" text

/-- Whether a branch of this kind may continue the statement that a line begins. -/
def BranchKind.accepts (kind : BranchKind) (line : String) : Bool :=
  let text := Chars.trimStart line.toList
  match kind with
  | .elseIf => beginsWithWord "if" text || beginsWithWord "elif" text
  | .otherwise =>
    ["if", "elif", "for", "while", "except"].any (beginsWithWord · text) ||
      beginsWithWords "async" "for" text || (dropWordColon? "try".toList text).isSome

/-- Where a branch belongs. Lines are counted from zero. -/
inductive BranchMatch where
  /-- The opener has the branch's indentation. -/
  | aligned (opener : Nat)
  /-- The opener has a smaller indentation. -/
  | misaligned (opener openerIndent : Nat)
  /-- The opener has the branch's indentation and lies beyond a function header. -/
  | crossMethod (opener boundary : Nat)
  /-- There is no opener within the window. -/
  | orphaned
  deriving DecidableEq

/-- Looks back for the opener of a branch of width `indent` over the lines above it, nearest first
and each with its number. `budget` is the number of statements that may still be looked at, and
`boundary` is the function header that was crossed. -/
def findOpener (kind : BranchKind) (indent : Nat) :
    (budget : Nat) → (boundary : Option Nat) → List (Nat × MarkedLine) → BranchMatch
  | _, _, [] => .orphaned
  | 0, _, _ => .orphaned
  | budget + 1, boundary, (number, line) :: above =>
    if !line.isStatement then findOpener kind indent (budget + 1) boundary above
    else
      let width := indentWidth line.text
      if indent < width then findOpener kind indent budget boundary above
      else if kind.accepts line.text then
        match boundary with
        | none => if width = indent then .aligned number else .misaligned number width
        | some crossed => if width = indent then .crossMethod number crossed else .orphaned
      else if width = indent then .orphaned
      else
        match boundary with
        | none =>
          if isDefHeader line.text then findOpener kind indent budget (some number) above
          else .orphaned
        | some _ => .orphaned

/-- A branch statement and where it belongs. -/
structure Branch where
  /-- The number of the line, from zero. -/
  index : Nat
  kind : BranchKind
  found : BranchMatch

/-- The lines above a line, nearest first, each with its number. -/
def linesAbove (marked : List MarkedLine) (index : Nat) : List (Nat × MarkedLine) :=
  ((List.range index).zip marked).reverse

/-- The branch on the line `index`, if a branch statement begins there. -/
def branchAt (marked : List MarkedLine) (window index : Nat) : Option Branch :=
  match marked[index]? with
  | none => none
  | some line =>
    if line.isStatement then
      (classify line.text).map fun kind =>
        ⟨index, kind,
          findOpener kind (indentWidth line.text) window none (linesAbove marked index)⟩
    else none

/-- The branch on the line `index` of a text. -/
def matchAt (lines : List String) (window index : Nat) : Option Branch :=
  branchAt (markLines lines) window index

/-- All branches of a text, in the order of their lines. -/
def branches (lines : List String) (window : Nat) : List Branch :=
  let marked := markLines lines
  (List.range lines.length).filterMap (branchAt marked window)

end StrategyMend.Source
