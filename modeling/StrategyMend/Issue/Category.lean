/-!
# Categories of issues

A category says what kind of defect an issue reports. There are eight built-in ones; any other name
is a category of its own.
-/

set_option autoImplicit false

namespace StrategyMend

/-- The kind of defect that an issue reports. -/
inductive Category where
  /-- A branch without the conditional that it continues. -/
  | orphanedBranch
  /-- A branch that continues a conditional of another method. -/
  | methodBoundaryConfusion
  | undefinedVariable
  | missingRequiredMethod
  /-- An initializer that never sets the pending-order field. -/
  | missingFieldInit
  /-- A step hook that does not look at the pending-order field first. -/
  | missingGuardCheck
  /-- A branch at another indentation than its opener. -/
  | indentationMismatch
  | syntaxError
  | custom (name : String)
  deriving DecidableEq

namespace Category

/-- The built-in categories in their order. -/
def builtin : List Category :=
  [.orphanedBranch, .methodBoundaryConfusion, .undefinedVariable, .missingRequiredMethod,
    .missingFieldInit, .missingGuardCheck, .indentationMismatch, .syntaxError]

/-- The name of a category. -/
def name : Category → String
  | .orphanedBranch => "orphaned-branch"
  | .methodBoundaryConfusion => "method-boundary-confusion"
  | .undefinedVariable => "undefined-variable"
  | .missingRequiredMethod => "missing-required-method"
  | .missingFieldInit => "missing-field-init"
  | .missingGuardCheck => "missing-guard-check"
  | .indentationMismatch => "indentation-mismatch"
  | .syntaxError => "syntax-error"
  | .custom name => name

/-- The category with the given name. -/
def ofName (text : String) : Category :=
  (builtin.find? fun category => category.name == text).getD (.custom text)

/-- Whether the category is not built in. -/
def isCustom : Category → Bool
  | .custom _ => true
  | _ => false

/-- Defects of branches are repaired under one policy. -/
def isBranchDefect : Category → Bool
  | .orphanedBranch => true
  | .methodBoundaryConfusion => true
  | _ => false

/-- The position of a category among the built-in ones; the custom ones come after them. -/
def position (category : Category) : Nat :=
  match category with
  | .custom _ => builtin.length
  | _ => builtin.findIdx (· == category)

/-- The order of categories: the built-in ones first, the custom ones by name. -/
def le (a b : Category) : Bool :=
  a.position < b.position || (a.position = b.position && a.name ≤ b.name)

end Category

end StrategyMend
