import StrategyMend.Repair.Fix

/-!
# Patches

A patch is the result of applying fixes to lines. The fixes that need no review are considered by
their confidence, the surest first. One that lies outside the lines, or that clashes with one accepted
before, is skipped and reported as a conflict. The accepted ones are then applied from the last line
to the first, so that no edit moves the lines of a later one.
-/

set_option autoImplicit false

namespace StrategyMend.Repair

open Number Text

/-- Why a fix is skipped. -/
inductive ConflictReason where
  /-- Its lines overlap those of a fix that is at least as sure. -/
  | overlap
  /-- Another fix puts lines at the same place. -/
  | duplicateInsert
  /-- Its lines are not there. -/
  | outOfRange
  deriving DecidableEq

/-- A fix that is skipped. -/
structure Conflict where
  reason : ConflictReason
  skippedLine : Nat
  skippedGenerator : String
  skippedConfidence : Binary64
  /-- The line of the fix that was kept instead. -/
  keptLine : Option Nat
  deriving DecidableEq

/-- The report of a skipped fix. -/
def Conflict.ofFix (fix : Fix) (reason : ConflictReason) (keptLine : Option Nat) : Conflict :=
  ⟨reason, fix.line, fix.generator, fix.confidence, keptLine⟩

/-- Why `candidate` cannot be applied together with `kept`, if it cannot. New lines may go in front
of other edited lines but not between them. -/
def clash? (kept candidate : Fix) : Option ConflictReason :=
  match kept.isInsert, candidate.isInsert with
  | true, true => if kept.line = candidate.line then some .duplicateInsert else none
  | true, false =>
    if candidate.line < kept.line ∧ kept.line ≤ candidate.endLine then some .overlap else none
  | false, true =>
    if kept.line < candidate.line ∧ candidate.line ≤ kept.endLine then some .overlap else none
  | false, false =>
    if kept.line ≤ candidate.endLine ∧ candidate.line ≤ kept.endLine then some .overlap else none

/-- A fix with its place in the list of all fixes. -/
structure Candidate where
  index : Nat
  fix : Fix
  deriving DecidableEq

/-- Whether `a` is considered before or together with `b`. -/
def Candidate.precedes (a b : Candidate) : Bool := b.fix.confidence.le a.fix.confidence

/-- Whether `a` is applied before or together with `b`: later lines first, and at the same line an
edit before new lines. -/
def Candidate.appliesBefore (a b : Candidate) : Bool :=
  b.fix.line < a.fix.line || (a.fix.line = b.fix.line && (!a.fix.isInsert || b.fix.isInsert))

/-- The fixes that need no review at this threshold, the surest first and otherwise in their order. -/
def candidates (fixes : List Fix) (threshold : Binary64) : List Candidate :=
  let all := fixes.zipIdx.map fun (fix, index) => Candidate.mk index fix
  (all.filter fun candidate => candidate.fix.isEligible threshold).mergeSort Candidate.precedes

/-- What has been decided about the fixes considered so far. -/
structure Selection where
  /-- The accepted fixes in the order in which they were considered. -/
  accepted : List Candidate
  conflicts : List Conflict

namespace Selection

/-- Nothing is decided yet. -/
def empty : Selection := ⟨[], []⟩

/-- The first accepted fix that clashes with `fix`, and how. -/
def winner? (accepted : List Candidate) (fix : Fix) : Option (Fix × ConflictReason) :=
  accepted.findSome? fun kept => (clash? kept.fix fix).map fun reason => (kept.fix, reason)

/-- Decides about one more fix for `count` lines. -/
def consider (count : Nat) (selection : Selection) (candidate : Candidate) : Selection :=
  let skip (reason : ConflictReason) (keptLine : Option Nat) : Selection :=
    { selection with
      conflicts := selection.conflicts ++ [Conflict.ofFix candidate.fix reason keptLine] }
  if !candidate.fix.inRange count then skip .outOfRange none
  else
    match winner? selection.accepted candidate.fix with
    | some (winner, reason) => skip reason (some winner.line)
    | none => { selection with accepted := selection.accepted ++ [candidate] }

end Selection

/-- Decides about the fixes for `count` lines. -/
def select (count : Nat) (candidates : List Candidate) : Selection :=
  candidates.foldl (Selection.consider count) .empty

/-- The result of applying fixes to lines. -/
structure Patch where
  /-- The lines after all edits. -/
  lines : List String
  /-- The places of the applied fixes in the list of fixes, in the order of application. -/
  applied : List Nat
  conflicts : List Conflict
  /-- The fixes, with those marked that were applied. -/
  fixes : List Fix

namespace Patch

/-- The fixes with those at the given places marked as applied. -/
def markApplied (fixes : List Fix) (applied : List Nat) : List Fix :=
  fixes.zipIdx.map fun (fix, index) =>
    if applied.contains index then { fix with applied := true } else fix

/-- Applies the fixes that need no review at this threshold. -/
def apply (lines : List String) (fixes : List Fix) (threshold : Binary64) : Patch :=
  let selection := select lines.length (candidates fixes threshold)
  let ordered := selection.accepted.mergeSort Candidate.appliesBefore
  let applied := ordered.map Candidate.index
  { lines := ordered.foldl (fun patched candidate => candidate.fix.edit patched) lines
    applied
    conflicts := selection.conflicts
    fixes := markApplied fixes applied }

/-- The number of applied fixes. -/
def appliedCount (patch : Patch) : Nat := patch.applied.length

/-- Whether any fix was applied. -/
def isChanged (patch : Patch) : Bool := !patch.applied.isEmpty

/-- The lines as one text; `trailing` asks for a newline after the last line. -/
def render (patch : Patch) (trailing : Bool) : String := joinLines patch.lines trailing

end Patch

end StrategyMend.Repair
