import StrategyMend.Repair.Branches

/-!
# Fixes of strategies, and the built-in generators

A strategy that never sets the pending-order field gets the missing statements at the top of its
initializer; one that does not look at the field first gets a check at the top of its step hook. A
name that is not defined is only pointed out.
-/

set_option autoImplicit false

namespace StrategyMend.Repair

open Source Text

/-- The statements not among the lines of the function on the line `index`. -/
def missingStatements (statements lines : List String) (index : Nat) : List String :=
  let present := (span lines index (blockEnd lines index)).map trim
  statements.filter fun statement => !present.contains statement

/-- The fix for an initializer that never sets the field. -/
def fieldInitFix? (config : Config.Fixer) (statements : List String) (issue : Issue)
    (lines : List String) : Option Fix := do
  let index := issue.lineIndex
  let top ← bodyTop? lines index
  let newLines := (missingStatements statements lines index).map fun statement =>
    top.indent ++ statement
  if newLines.isEmpty then none
  else
    return (Fix.insert issue (top.index + 1) newLines)
      |>.classified .auto config.fieldInitConfidence config.autoFloor
      |>.explained "initialize the pending-order state before the first bar"

/-- Sets the pending-order field at the top of the initializer. -/
def fieldInit (config : Config.Fixer) (validator : Config.Validator) : Generator :=
  .claimingAll "field-init" (fun issue => issue.category == .missingFieldInit) fun issue lines =>
    .ofOption
      (fieldInitFix? config (config.expandedFieldInit validator.pendingOrderField) issue lines)

/-- The fix for a step hook that does not look at the field first. -/
def guardFix? (config : Config.Fixer) (field : String) (issue : Issue) (lines : List String) :
    Option Fix := do
  let top ← bodyTop? lines issue.lineIndex
  let check := [top.indent ++ "if self." ++ field ++ ":", top.indent ++ top.step ++ "return"]
  return (Fix.insert issue (top.index + 1) check)
    |>.classified .semiAuto config.guardInsertConfidence config.autoFloor
    |>.explained "skip the bar while an order is outstanding"

/-- Leaves the step hook early while an order is pending. -/
def guardCheck (config : Config.Fixer) (validator : Config.Validator) : Generator :=
  .claimingAll "guard-check" (fun issue => issue.category == .missingGuardCheck) fun issue lines =>
    .ofOption (guardFix? config validator.pendingOrderField issue lines)

/-- The hint for a name that is not defined. -/
def undefinedNameFix? (config : Config.Fixer) (issue : Issue) (lines : List String) : Option Fix := do
  let line ← lines[issue.lineIndex]?
  return (Fix.suggestion issue issue.line line)
    |>.classified .manualOnly config.undefinedVariableConfidence config.autoFloor
    |>.explained (issue.suggestion.getD "define or import the name before it is used")

/-- Points at a name that is not defined. -/
def undefinedVariable (config : Config.Fixer) : Generator :=
  .claimingAll "undefined-variable" (fun issue => issue.category == .undefinedVariable)
    fun issue lines => .ofOption (undefinedNameFix? config issue lines)

/-- The built-in generators by priority. -/
def builtin (config : Config.Fixer) (validator : Config.Validator) : List Generator :=
  [callbackRelocation config, orphanedBranch config, indentationRealign config validator,
    fieldInit config validator, guardCheck config validator, undefinedVariable config]

/-- The registry of the built-in generators with those switched off that the configuration names. -/
def Registry.standard (config : Config.Fixer) (validator : Config.Validator) : Registry :=
  config.disabledGenerators.foldl Registry.disable
    ((builtin config validator).foldl Registry.register .empty)

end StrategyMend.Repair
