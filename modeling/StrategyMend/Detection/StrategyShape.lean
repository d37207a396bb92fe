import StrategyMend.Detection.Branches
import StrategyMend.Python.SelfAttribute
import StrategyMend.Strategy.Inheritance

/-!
# Detectors of incomplete strategies

A strategy class must have an initializer and a step hook, its own or inherited ones. Its initializer
must set the pending-order field, and its step hook must look at that field before anything else
happens.
-/

set_option autoImplicit false

namespace StrategyMend.Detection

open Python Strategy

/-- The classes of a script that parses. -/
def classIndex? (context : Context) : Option ClassIndex :=
  context.script.tree?.map fun tree =>
    .ofStatements context.config.strategyBases tree.statements

/-- The issues of the strategy classes of a script. -/
def strategyIssues (context : Context) (check : ClassIndex → ClassInfo → List Issue) : List Issue :=
  match classIndex? context with
  | some index => index.strategies.flatMap (check index)
  | none => []

/-! ## Required methods -/

/-- The issue of a class without a method. -/
def missingMethodIssue (context : Context) (info : ClassInfo) (method : String) : Issue :=
  issueAt context info.row .high .missingRequiredMethod
    ("strategy class " ++ quoted info.name ++ " is missing required method " ++ quoted method)
    ("define " ++ quoted ("def " ++ method ++ "(self):") ++ " in " ++ quoted info.name)

/-- Finds strategy classes that neither have nor inherit the initializer or the step hook. -/
def requiredMethod : Detector where
  id := "required-method"
  mode := .tree
  detect context := some (strategyIssues context fun index info =>
    ([context.config.initializer, context.config.stepHook].filter fun method =>
      (index.resolveMethod? info method).isNone).map (missingMethodIssue context info))

/-! ## Initialization of the pending-order field -/

/-- Whether the class has an initializer of its own that sets the field. -/
def setsField (config : Config.Validator) (info : ClassInfo) : Bool :=
  (info.ownMethod? config.initializer).any fun method =>
    assignedIn config.pendingOrderField method.body

/-- Whether an initializer calls the one of the superclass, and some ancestor's sets the field. -/
def inheritsField (config : Config.Validator) (index : ClassIndex) (info : ClassInfo)
    (initializer : FunctionInfo) : Bool :=
  superCalledInStatements config.initializer initializer.body &&
    (index.ancestors info).any (setsField config)

/-- Finds strategy classes whose own initializer never sets the pending-order field. -/
def fieldInit : Detector where
  id := "field-init"
  mode := .tree
  detect context := some (strategyIssues context fun index info =>
    let config := context.config
    match info.ownMethod? config.initializer with
    | none => []
    | some method =>
      if assignedIn config.pendingOrderField method.body then []
      else if inheritsField config index info method then []
      else
        [issueAt context method.row .medium .missingFieldInit
          (quoted config.initializer ++ " of " ++ quoted info.name ++ " never initializes " ++
            quoted ("self." ++ config.pendingOrderField))
          ("add " ++ quoted config.pendingFieldInit ++ " to " ++ quoted config.initializer)])

/-! ## The guard of the step hook -/

/-- Whether the first statement with a block is an `if` or a `while` whose condition mentions the
field. -/
def isGuarded (field : String) (body : List Statement) : Bool :=
  let first := body.find? fun statement =>
    match statement with
    | .block _ _ _ _ => true
    | _ => false
  match first with
  | some (.block _ kind head _) => kind.isConditional && mentionedIn field head
  | _ => false

/-- Finds strategy classes whose own step hook does not check the pending-order field first. -/
def guardCheck : Detector where
  id := "guard-check"
  mode := .tree
  detect context := some (strategyIssues context fun _ info =>
    let config := context.config
    match info.ownMethod? config.stepHook with
    | none => []
    | some hook =>
      if isGuarded config.pendingOrderField hook.body then []
      else
        [issueAt context hook.row .low .missingGuardCheck
          (quoted config.stepHook ++ " of " ++ quoted info.name ++ " does not check " ++
            quoted ("self." ++ config.pendingOrderField) ++ " before trading")
          ("start " ++ quoted config.stepHook ++ " with " ++
            quoted ("if self." ++ config.pendingOrderField ++ ": return"))])

end StrategyMend.Detection
