import StrategyMend.Detection.StrategyShape
import StrategyMend.Detection.UndefinedNames
import StrategyMend.Issue.Report

/-!
# Validation of scripts

A script that does not parse has one issue, its syntax error. Any other script has the issues of the
registered detectors. Issues lie on lines of the script: a line outside is moved to the nearest one.
-/

set_option autoImplicit false

namespace StrategyMend.Detection

open Source

/-- The built-in detectors, in the order of their issues. -/
def builtin : List Detector :=
  [orphanedBranch, indentationMismatch, requiredMethod, fieldInit, guardCheck, variableReference]

/-- The registry of the built-in detectors with those switched off that the configuration names. -/
def Registry.standard (config : Config.Validator) : Registry :=
  config.disabledDetectors.foldl Registry.disable (builtin.foldl Registry.register .empty)

/-- The nearest line number of a script with `count` lines; an empty script has line one. -/
def clampLine (count line : Nat) : Nat := max 1 (min line (max count 1))

/-- The issue moved to the nearest line of the script. -/
def clampIssue (script : Script) (issue : Issue) : Issue :=
  { issue with line := clampLine script.lineCount issue.line }

/-- The issue of a script that does not parse. -/
def syntaxIssue (script : Script) (diagnostic : Diagnostic) : Issue :=
  let line := clampLine script.lineCount diagnostic.line
  { severity := .critical
    category := .syntaxError
    line
    message :=
      "syntax error at line " ++ toString diagnostic.line ++ ", column " ++
        toString diagnostic.column ++ ": " ++ diagnostic.message
    snippet := (script.line? line).map Text.trim
    suggestion := none }

/-- A registry of detectors together with what they look for. -/
structure Validator where
  config : Config.Validator
  registry : Registry

namespace Validator

/-- The validator with the built-in detectors. -/
def standard (config : Config.Validator) : Validator := ⟨config, .standard config⟩

/-- The issues of a script. -/
def validate (validator : Validator) (script : Script) : List Issue :=
  match script.diagnostic? with
  | some diagnostic => [syntaxIssue script diagnostic]
  | none => (validator.registry.runAll ⟨script, validator.config⟩).map (clampIssue script)

/-- The issues that the lines of a script show, whether or not it parses. -/
def validateText (validator : Validator) (script : Script) : List Issue :=
  (validator.registry.runMode .text ⟨script, validator.config⟩).map (clampIssue script)

end Validator

end StrategyMend.Detection
