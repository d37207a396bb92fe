import StrategyMend.Config.Basic
import StrategyMend.Issue.Basic

/-!
# Configurations as JSON

Every section and every value may be missing and then has its standard value. A value that is there
must have the right type; other members are ignored.
-/

set_option autoImplicit false

namespace StrategyMend.Config

/-- The largest natural number that a configuration may hold. -/
def maxNatural : Nat := Json.Number.maxNatural

/-- Reads the detectors' section. -/
def Validator.ofJson? (json : Json) : Option Validator :=
  if json.isObject then do
    let standard := Validator.standard
    let strategyBases ← json.withDefault "strategy_bases" standard.strategyBases Json.asStrings?
    let initializer ← json.withDefault "initializer" standard.initializer Json.asString?
    let stepHook ← json.withDefault "step_hook" standard.stepHook Json.asString?
    let pendingOrderField ←
      json.withDefault "pending_order_field" standard.pendingOrderField Json.asString?
    let branchScanWindow ←
      json.withDefault "branch_scan_window" standard.branchScanWindow Json.asNat?
    let allowedNames ← json.withDefault "allowed_names" standard.allowedNames Json.asStrings?
    let disabledDetectors ←
      json.withDefault "disabled_detectors" standard.disabledDetectors Json.asStrings?
    return { strategyBases, initializer, stepHook, pendingOrderField, branchScanWindow, allowedNames,
             disabledDetectors }
  else none

/-- Reads the fixes' section. -/
def Fixer.ofJson? (json : Json) : Option Fixer :=
  if json.isObject then do
    let standard := Fixer.standard
    let confidence (key : String) (value : Number.Binary64) := json.withDefault key value Json.asReal?
    let elifToIfConfidence ← confidence "elif_to_if_confidence" standard.elifToIfConfidence
    let deleteTrivialElseConfidence ←
      confidence "delete_trivial_else_confidence" standard.deleteTrivialElseConfidence
    let nontrivialElseConfidence ←
      confidence "nontrivial_else_confidence" standard.nontrivialElseConfidence
    let fieldInitConfidence ← confidence "field_init_confidence" standard.fieldInitConfidence
    let undefinedVariableConfidence ←
      confidence "undefined_variable_confidence" standard.undefinedVariableConfidence
    let callbackRelocationConfidence ←
      confidence "callback_relocation_confidence" standard.callbackRelocationConfidence
    let indentationRealignConfidence ←
      confidence "indentation_realign_confidence" standard.indentationRealignConfidence
    let guardInsertConfidence ← confidence "guard_insert_confidence" standard.guardInsertConfidence
    let autoFloor ← confidence "auto_floor" standard.autoFloor
    let fieldInitStatements ←
      json.withDefault "field_init_statements" standard.fieldInitStatements Json.asStrings?
    let disabledGenerators ←
      json.withDefault "disabled_generators" standard.disabledGenerators Json.asStrings?
    return { elifToIfConfidence, deleteTrivialElseConfidence, nontrivialElseConfidence,
             fieldInitConfidence, undefinedVariableConfidence, callbackRelocationConfidence,
             indentationRealignConfidence, guardInsertConfidence, autoFloor, fieldInitStatements,
             disabledGenerators }
  else none

/-- Reads the pipeline's section. -/
def Pipeline.ofJson? (json : Json) : Option Pipeline :=
  if json.isObject then do
    let standard := Pipeline.standard
    let confidenceThreshold ←
      json.withDefault "confidence_threshold" standard.confidenceThreshold Json.asReal?
    let autoApply ← json.withDefault "auto_apply" standard.autoApply Json.asBool?
    let execute ← json.withDefault "execute" standard.execute Json.asBool?
    let recoverSyntaxErrors ←
      json.withDefault "recover_syntax_errors" standard.recoverSyntaxErrors Json.asBool?
    let blockingSeverity ←
      json.withDefault "blocking_severity" standard.blockingSeverity Severity.ofJson?
    let parallel ← json.withDefault "parallel" standard.parallel Json.asBool?
    let writeFixed ← json.withDefault "write_fixed" standard.writeFixed Json.asBool?
    let parseCacheCapacity ←
      json.withDefault "parse_cache_capacity" standard.parseCacheCapacity Json.asNat?
    return { confidenceThreshold, autoApply, execute, recoverSyntaxErrors, blockingSeverity, parallel,
             writeFixed, parseCacheCapacity }
  else none

/-- Reads the runner's section. The limit of the memory may be null. -/
def Runner.ofJson? (json : Json) : Option Runner :=
  if json.isObject then do
    let standard := Runner.standard
    let command ← json.withDefault "command" standard.command Json.asStrings?
    let timeoutMs ← json.withDefault "timeout_ms" standard.timeoutMs Json.asNat?
    let memoryLimitMb ←
      match json.member? "memory_limit_mb" with
      | none => some standard.memoryLimitMb
      | some .null => some none
      | some value => value.asNat?.map some
    return { command, timeoutMs, memoryLimitMb }
  else none

/-- Reads a configuration. -/
def ofJson? (json : Json) : Option Config :=
  if json.isObject then do
    let validator ← json.withDefault "validator" Validator.standard Validator.ofJson?
    let fixer ← json.withDefault "fixer" Fixer.standard Fixer.ofJson?
    let pipeline ← json.withDefault "pipeline" Pipeline.standard Pipeline.ofJson?
    let runner ← json.withDefault "runner" Runner.standard Runner.ofJson?
    return { validator, fixer, pipeline, runner }
  else none

/-- The detectors' section in full. -/
def Validator.toJson (section_ : Validator) : Json :=
  .object
    [("strategy_bases", .strings section_.strategyBases),
      ("initializer", .string section_.initializer),
      ("step_hook", .string section_.stepHook),
      ("pending_order_field", .string section_.pendingOrderField),
      ("branch_scan_window", .nat section_.branchScanWindow),
      ("allowed_names", .strings section_.allowedNames),
      ("disabled_detectors", .strings section_.disabledDetectors)]

/-- The fixes' section in full. -/
def Fixer.toJson (section_ : Fixer) : Json :=
  .object
    ((section_.confidences.map fun (name, value) => (name, .real value)) ++
      [("field_init_statements", .strings section_.fieldInitStatements),
        ("disabled_generators", .strings section_.disabledGenerators)])

/-- The pipeline's section in full. -/
def Pipeline.toJson (section_ : Pipeline) : Json :=
  .object
    [("confidence_threshold", .real section_.confidenceThreshold),
      ("auto_apply", .bool section_.autoApply),
      ("execute", .bool section_.execute),
      ("recover_syntax_errors", .bool section_.recoverSyntaxErrors),
      ("blocking_severity", .string section_.blockingSeverity.name),
      ("parallel", .bool section_.parallel),
      ("write_fixed", .bool section_.writeFixed),
      ("parse_cache_capacity", .nat section_.parseCacheCapacity)]

/-- The runner's section in full. -/
def Runner.toJson (section_ : Runner) : Json :=
  .object
    [("command", .strings section_.command),
      ("timeout_ms", .nat section_.timeoutMs),
      ("memory_limit_mb", .optional section_.memoryLimitMb .nat)]

/-- A configuration in full. -/
def toJson (config : Config) : Json :=
  .object
    [("validator", config.validator.toJson),
      ("fixer", config.fixer.toJson),
      ("pipeline", config.pipeline.toJson),
      ("runner", config.runner.toJson)]

end StrategyMend.Config
