import StrategyMend.Issue.Severity
import StrategyMend.Number.Shortest
import StrategyMend.Text.Blank

/-!
# Configuration

The configuration has four sections: what the detectors look for, how the fixes are made, what the
pipeline does with them, and how a strategy is run. `Config.validate` refuses values that the program
cannot work with and names the first one.
-/

set_option autoImplicit false

namespace StrategyMend

open Number

namespace Config

/-- What the detectors look for. -/
structure Validator where
  /-- Names of base classes that make a class a strategy. -/
  strategyBases : List String
  /-- The method that sets up a strategy. -/
  initializer : String
  /-- The method that is called at each step. -/
  stepHook : String
  /-- The attribute of `self` that holds the pending order. -/
  pendingOrderField : String
  /-- The number of statements in which a branch's opener is looked for. -/
  branchScanWindow : Nat
  /-- Names that count as defined. -/
  allowedNames : List String
  /-- Detectors that do not run. -/
  disabledDetectors : List String
  deriving DecidableEq

/-- How the fixes are made. -/
structure Fixer where
  /-- An `elif` or `else if` turned into an `if`. -/
  elifToIfConfidence : Binary64
  /-- An `else` deleted whose body does nothing. -/
  deleteTrivialElseConfidence : Binary64
  /-- An `else` whose body does something. -/
  nontrivialElseConfidence : Binary64
  /-- Initial values inserted for the pending-order field. -/
  fieldInitConfidence : Binary64
  /-- A name to be defined or imported. -/
  undefinedVariableConfidence : Binary64
  /-- Callback code commented out in the wrong method. -/
  callbackRelocationConfidence : Binary64
  /-- A branch moved to the indentation of its opener. -/
  indentationRealignConfidence : Binary64
  /-- A check of the pending-order field inserted into the step hook. -/
  guardInsertConfidence : Binary64
  /-- Below this confidence no fix is automatic. -/
  autoFloor : Binary64
  /-- Statements that initialize the pending-order field, with a placeholder for its name. -/
  fieldInitStatements : List String
  /-- Generators that make no fixes. -/
  disabledGenerators : List String
  deriving DecidableEq

/-- What the pipeline does. -/
structure Pipeline where
  /-- Automatic fixes are applied from this confidence on. -/
  confidenceThreshold : Binary64
  /-- Whether fixes are applied or only proposed. -/
  autoApply : Bool
  /-- Whether strategies are run. -/
  execute : Bool
  /-- Whether sources that do not parse are repaired by their lines. -/
  recoverSyntaxErrors : Bool
  /-- Issues below this severity do not fail a source. -/
  blockingSeverity : Severity
  /-- Whether sources may be processed side by side. -/
  parallel : Bool
  /-- Whether repaired sources are written next to their sources. -/
  writeFixed : Bool
  /-- The number of parsed sources that are kept; zero keeps none. -/
  parseCacheCapacity : Nat
  deriving DecidableEq

/-- How a strategy is run. -/
structure Runner where
  /-- The command that reads the source from its input. -/
  command : List String
  /-- The time after which it is stopped, in milliseconds. -/
  timeoutMs : Nat
  /-- The limit of its memory, in mebibytes. -/
  memoryLimitMb : Option Nat
  deriving DecidableEq

/-- A confidence of so many hundredths. -/
def hundredths (n : Nat) : Binary64 := .ofDecimal false n (-2)

/-- The detectors' section when nothing is configured. -/
def Validator.standard : Validator where
  strategyBases := ["Strategy"]
  initializer := "__init__"
  stepHook := "next"
  pendingOrderField := "order"
  branchScanWindow := 50
  allowedNames := []
  disabledDetectors := []

/-- The fixes' section when nothing is configured. -/
def Fixer.standard : Fixer where
  elifToIfConfidence := hundredths 85
  deleteTrivialElseConfidence := hundredths 90
  nontrivialElseConfidence := hundredths 30
  fieldInitConfidence := hundredths 95
  undefinedVariableConfidence := hundredths 50
  callbackRelocationConfidence := hundredths 75
  indentationRealignConfidence := hundredths 60
  guardInsertConfidence := hundredths 70
  autoFloor := hundredths 80
  fieldInitStatements := ["self.\x7bfield\x7d = None", "self.buyprice = None"]
  disabledGenerators := []

/-- The pipeline's section when nothing is configured. -/
def Pipeline.standard : Pipeline where
  confidenceThreshold := hundredths 80
  autoApply := true
  execute := false
  recoverSyntaxErrors := false
  blockingSeverity := .low
  parallel := false
  writeFixed := false
  parseCacheCapacity := 1024

/-- The runner's section when nothing is configured. -/
def Runner.standard : Runner where
  command := ["python3", "-"]
  timeoutMs := 30000
  memoryLimitMb := some 1024

/-- The statement that initializes the pending-order field. -/
def Validator.pendingFieldInit (section_ : Validator) : String :=
  "self." ++ section_.pendingOrderField ++ " = None"

/-- The confidences with their names, in the order in which they are checked. -/
def Fixer.confidences (section_ : Fixer) : List (String × Binary64) :=
  [("elif_to_if_confidence", section_.elifToIfConfidence),
    ("delete_trivial_else_confidence", section_.deleteTrivialElseConfidence),
    ("nontrivial_else_confidence", section_.nontrivialElseConfidence),
    ("field_init_confidence", section_.fieldInitConfidence),
    ("undefined_variable_confidence", section_.undefinedVariableConfidence),
    ("callback_relocation_confidence", section_.callbackRelocationConfidence),
    ("indentation_realign_confidence", section_.indentationRealignConfidence),
    ("guard_insert_confidence", section_.guardInsertConfidence),
    ("auto_floor", section_.autoFloor)]

/-- The placeholder for the name of a field. -/
def fieldPlaceholder : List Char := "\x7bfield\x7d".toList

/-- A text with every placeholder replaced by `field`; `skip` characters of a placeholder are still to
be passed. -/
def expandFrom (field : List Char) : (skip : Nat) → List Char → List Char
  | _, [] => []
  | skip + 1, _ :: rest => expandFrom field skip rest
  | 0, c :: rest =>
    if fieldPlaceholder.isPrefixOf (c :: rest) then
      field ++ expandFrom field (fieldPlaceholder.length - 1) rest
    else c :: expandFrom field 0 rest

/-- A statement with the name of the field in it. -/
def expandField (field statement : String) : String :=
  String.ofList (expandFrom field.toList 0 statement.toList)

/-- The statements that initialize a field. -/
def Fixer.expandedFieldInit (section_ : Fixer) (field : String) : List String :=
  section_.fieldInitStatements.map (expandField field)

end Config

/-- The configuration of the program. -/
structure Config where
  validator : Config.Validator
  fixer : Config.Fixer
  pipeline : Config.Pipeline
  runner : Config.Runner
  deriving DecidableEq

namespace Config

/-- The configuration when nothing is configured. -/
def standard : Config := ⟨.standard, .standard, .standard, .standard⟩

/-- What is wrong with a configured value. -/
inductive Complaint where
  /-- A confidence that is no number from zero to one. -/
  | outsideUnit (value : Binary64)
  | belowOne
  | empty
  | notPositive
  | noInterpreter
  deriving DecidableEq

/-- The wording of a complaint. -/
def Complaint.message : Complaint → String
  | .outsideUnit value => value.display ++ " is outside [0, 1]"
  | .belowOne => "must be at least 1"
  | .empty => "must not be empty"
  | .notPositive => "must be positive"
  | .noInterpreter => "must name an interpreter"

/-- A value that the program cannot work with. -/
structure InvalidValue where
  field : String
  complaint : Complaint

/-- Whether a number lies in the interval from zero to one. -/
def inUnit (x : Binary64) : Bool := Binary64.zero.le x && x.le Binary64.one

/-- Passes over a value that is fine. -/
def check (fine : Bool) (field : String) (complaint : Complaint) : Except InvalidValue Unit :=
  if fine then .ok () else .error ⟨field, complaint⟩

/-- Passes over a confidence from zero to one. -/
def checkUnit (field : String) (value : Binary64) : Except InvalidValue Unit :=
  check (inUnit value) field (.outsideUnit value)

/-- Looks for the first value that the program cannot work with. -/
def validate (config : Config) : Except InvalidValue Unit := do
  checkUnit "pipeline.confidence_threshold" config.pipeline.confidenceThreshold
  config.fixer.confidences.forM fun (name, value) => checkUnit ("fixer." ++ name) value
  check (config.validator.branchScanWindow ≠ 0) "validator.branch_scan_window" .belowOne
  check (!Text.isBlankText config.validator.pendingOrderField) "validator.pending_order_field" .empty
  check (config.runner.timeoutMs ≠ 0) "runner.timeout_ms" .notPositive
  check (!config.runner.command.isEmpty) "runner.command" .noInterpreter

end Config

end StrategyMend
