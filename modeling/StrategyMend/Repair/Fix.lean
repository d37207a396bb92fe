import StrategyMend.Issue.Basic
import StrategyMend.Number.Binary64
import StrategyMend.Text.Lines

/-!
# Fixes

A fix is a proposed edit of whole lines for one issue. It holds the lines it removes and the lines it
puts in their place as two fragments, each a text with newlines between its lines; the fragments say
what kind of edit the fix is. A fix also says how sure it is and whether it may be applied without a
review.
-/

set_option autoImplicit false

namespace StrategyMend.Repair

open Number Text

/-- How safe a fix is to apply without a review. -/
inductive FixKind where
  /-- May be applied without a review. -/
  | auto
  /-- Needs a review. -/
  | semiAuto
  /-- Is only a hint to a person. -/
  | manualOnly
  deriving DecidableEq

namespace FixKind

/-- The kinds of fixes. -/
def all : List FixKind := [.auto, .semiAuto, .manualOnly]

/-- The name of a kind in reports. -/
def name : FixKind → String
  | .auto => "AUTO"
  | .semiAuto => "SEMI_AUTO"
  | .manualOnly => "MANUAL_ONLY"

/-- The kind with exactly this name. -/
def ofName? (text : String) : Option FixKind := all.find? fun kind => kind.name == text

end FixKind

/-- What a fix does to the lines. -/
inductive EditKind where
  /-- Puts lines in front of a line. -/
  | insert
  /-- Removes lines. -/
  | delete
  /-- Puts lines in the place of others. -/
  | replace
  /-- Leaves the lines as they are. -/
  | noChange
  deriving DecidableEq

/-- A proposed edit for one issue. -/
structure Fix where
  issue : Issue
  kind : FixKind
  confidence : Binary64
  /-- The lines that the fix removes, as one text. -/
  removed : String
  /-- The lines that the fix puts in their place, as one text. -/
  replacement : String
  explanation : String
  /-- Whether the edit has been made. -/
  applied : Bool
  /-- The first line of the edit, counted from one. New lines go in front of it. -/
  line : Nat
  /-- The last line of the edit. -/
  endLine : Nat
  /-- The id of the generator that proposed the fix. -/
  generator : String
  deriving DecidableEq

namespace Fix

/-! ## Making fixes -/

/-- A fix from its fragments that nobody has judged yet. -/
def ofFragments (issue : Issue) (line endLine : Nat) (removed replacement : String) : Fix where
  issue := issue
  kind := .manualOnly
  confidence := .zero
  removed := removed
  replacement := replacement
  explanation := ""
  applied := false
  line := line
  endLine := endLine
  generator := ""

/-- Puts the lines `replacement` in the place of the lines from `line` to `endLine`. -/
def replace (issue : Issue) (line endLine : Nat) (removed replacement : List String) : Fix :=
  ofFragments issue line endLine (unlines removed) (unlines replacement)

/-- Removes the lines from `line` to `endLine`. -/
def delete (issue : Issue) (line endLine : Nat) (removed : List String) : Fix :=
  ofFragments issue line endLine (unlines removed) ""

/-- Puts lines in front of the line `before`. -/
def insert (issue : Issue) (before : Nat) (newLines : List String) : Fix :=
  ofFragments issue before before "" (unlines newLines)

/-- Points at a line without a change. -/
def suggestion (issue : Issue) (line : Nat) (text : String) : Fix :=
  ofFragments issue line line text text

/-- Judges a fix. The confidence is moved into the interval from zero to one, and a fix below the
floor is not applied without a review. -/
def classified (kind : FixKind) (confidence floor : Binary64) (fix : Fix) : Fix :=
  let sure := confidence.clampUnit
  { fix with
    confidence := sure
    kind := if kind = .auto && sure.lt floor then .semiAuto else kind }

/-- Says why the fix is right. -/
def explained (explanation : String) (fix : Fix) : Fix := { fix with explanation }

/-- Says which generator proposed the fix. -/
def fromGenerator (id : String) (fix : Fix) : Fix := { fix with generator := id }

/-! ## What a fix does -/

/-- The kind of edit, by the fragments. -/
def editKind (fix : Fix) : EditKind :=
  if fix.removed = "" then .insert
  else if fix.replacement = "" then .delete
  else if fix.removed = fix.replacement then .noChange
  else .replace

/-- Whether the fix only puts lines in front of another. -/
def isInsert (fix : Fix) : Bool := fix.editKind = .insert

/-- The lines that the fix puts in. -/
def replacementLines (fix : Fix) : List String :=
  if fix.replacement = "" then [] else pieces fix.replacement

/-- Whether the fix may be applied without a review at this threshold. -/
def isEligible (fix : Fix) (threshold : Binary64) : Bool :=
  fix.kind = .auto && threshold.le fix.confidence && fix.editKind ≠ .noChange

/-- Whether the edit lies within `count` lines. New lines may also go behind the last one. -/
def inRange (fix : Fix) (count : Nat) : Bool :=
  if fix.isInsert then 1 ≤ fix.line && fix.line ≤ count + 1
  else 1 ≤ fix.line && fix.line ≤ fix.endLine && fix.endLine ≤ count

/-- The lines after the edit, for a fix that lies within them. -/
def edit (fix : Fix) (lines : List String) : List String :=
  match fix.editKind with
  | .insert => lines.take (fix.line - 1) ++ fix.replacementLines ++ lines.drop (fix.line - 1)
  | .delete => lines.take (fix.line - 1) ++ lines.drop fix.endLine
  | .replace => lines.take (fix.line - 1) ++ fix.replacementLines ++ lines.drop fix.endLine
  | .noChange => lines

end Fix

/-- Why there is no fix for an issue. -/
structure Failure where
  issue : Issue
  /-- The id of the generator that was asked, if any claims the issue. -/
  generator : Option String
  reason : String
  deriving DecidableEq

end StrategyMend.Repair
