import StrategyMend.Execution.Outcome
import StrategyMend.Issue.Report
import StrategyMend.Repair.Json

/-!
# Results of the pipeline

What the pipeline learned about one script: the issues found in it, what was done about them, the
issues that remain, and how the run went if there was one.
-/

set_option autoImplicit false

namespace StrategyMend.Pipeline

open Execution Number Repair

/-- What the repair of a script came to. -/
inductive FixStatus where
  /-- There was nothing to repair. -/
  | skipped
  /-- The script was changed. -/
  | applied
  /-- There are issues, and the script was not changed. -/
  | proposed
  /-- The script does not parse. -/
  | notFixable
  deriving DecidableEq

/-- The name of a status in reports. -/
def FixStatus.name : FixStatus → String
  | .skipped => "skipped"
  | .applied => "applied"
  | .proposed => "proposed"
  | .notFixable => "not-fixable"

/-- What was done about the issues of a script. -/
structure FixSummary where
  status : FixStatus
  generated : Nat
  applied : Nat
  remainingIssues : Nat
  conflicts : List Conflict
  failures : List Failure
  /-- The number of issues before the repair less that after it. -/
  delta : Int
  fixes : List Fix
  deriving DecidableEq

/-- A run of a script. -/
structure ExecutionResult where
  success : Bool
  kind : Option FailureKind
  message : Option String
  metrics : Json
  durationMs : Nat

/-- A run with the given outcome and duration. -/
def ExecutionResult.ofOutcome (outcome : Outcome) (durationMs : Nat) : ExecutionResult :=
  match outcome with
  | .success metrics => ⟨true, none, none, metrics, durationMs⟩
  | .failure kind message => ⟨false, some kind, some message, .null, durationMs⟩

/-- What the pipeline learned about one script. -/
structure UnitResult where
  name : String
  /-- Whether the script parses, perhaps only after a repair. -/
  syntaxValid : Bool
  /-- Whether the script parses only after a repair. -/
  recovered : Bool
  /-- The issues of the script as given. -/
  validation : Report
  fixSummary : FixSummary
  /-- The issues of the script in the end. -/
  remaining : Report
  /-- The text in the end, if it was changed. -/
  fixedText : Option String
  execution : Option ExecutionResult
  success : Bool
  /-- Why the script could not be read. -/
  error : Option String
  processingMicros : Nat

namespace UnitResult

/-- The result for a script that could not be read. -/
def unreadable (name reason : String) : UnitResult where
  name := name
  syntaxValid := false
  recovered := false
  validation := ⟨[]⟩
  fixSummary := ⟨.notFixable, 0, 0, 0, [], [], 0, []⟩
  remaining := ⟨[]⟩
  fixedText := none
  execution := none
  success := false
  error := some reason
  processingMicros := 0

/-- The text of the script in the end, given the text at the beginning. -/
def finalText (result : UnitResult) (text : String) : String := result.fixedText.getD text

end UnitResult

/-! ## Results as JSON -/

/-- A member that is only written if there is a value. -/
def optionalMember {α : Type} (key : String) (value : Option α) (write : α → Json) :
    List (String × Json) :=
  (value.map fun x => (key, write x)).toList

/-- The repair in a report. -/
def FixSummary.toJson (summary : FixSummary) : Json :=
  .object
    [("status", .string summary.status.name),
      ("generated", .nat summary.generated),
      ("applied", .nat summary.applied),
      ("remaining_issues", .nat summary.remainingIssues),
      ("conflicts", .list summary.conflicts Conflict.toJson),
      ("failures", .list summary.failures Failure.toJson),
      ("delta", .int summary.delta),
      ("fixes", .list summary.fixes Fix.toJson)]

/-- The run in a report. -/
def ExecutionResult.toJson (result : ExecutionResult) : Json :=
  .object
    (("success", Json.bool result.success) ::
      (optionalMember "kind" result.kind (fun kind => .string kind.name) ++
        optionalMember "message" result.message .string ++
        [("metrics", result.metrics), ("duration_ms", .nat result.durationMs)]))

/-- Microseconds as a number of milliseconds. -/
def millisecondsOf (micros : Nat) : Binary64 := .ratio micros 1000

/-- The result in a report. The text in the end is not part of it. -/
def UnitResult.toJson (result : UnitResult) : Json :=
  .object
    ([("name", .string result.name),
      ("syntax_valid", .bool result.syntaxValid),
      ("recovered", .bool result.recovered),
      ("validation", result.validation.toJson),
      ("fix_summary", result.fixSummary.toJson),
      ("remaining", result.remaining.toJson)] ++
      optionalMember "execution" result.execution ExecutionResult.toJson ++
      [("success", .bool result.success)] ++
      optionalMember "error" result.error .string ++
      [("processing_ms", .real (millisecondsOf result.processingMicros))])

end StrategyMend.Pipeline
