import StrategyMend.Pipeline.Basic

/-!
# Listings

Reports as texts to be read by people: one line for each finding, and a summary at the end. Every line
ends in a newline.
-/

set_option autoImplicit false

namespace StrategyMend.Listing

open Number Pipeline Repair

/-- Lines as a text in which each ends in a newline. -/
def ofLines (lines : List String) : String := Text.joinLines lines true

/-- An issue of a script, with the suggestion on a line of its own. -/
def issueLines (name : String) (issue : Issue) : List String :=
  (name ++ ":" ++ toString issue.line ++ ": " ++ issue.severity.name ++ " [" ++
      issue.category.name ++ "] " ++ issue.message) ::
    (issue.suggestion.map ("    help: " ++ ·)).toList

/-! ## Validated scripts -/

/-- A script that was only validated: its report, or why it could not be read. -/
structure Checked where
  name : String
  outcome : Except String Report

namespace Checked

/-- Validates an input. -/
def ofInput (parse : (name text : String) → Source.Parsed) (validator : Detection.Validator) :
    Input → Checked
  | .source name text => ⟨name, .ok ⟨validator.validate ⟨name, text, parse name text⟩⟩⟩
  | .unreadable name reason => ⟨name, .error reason⟩

/-- Whether the script could be read and has no issue that blocks it. -/
def passes (least : Severity) (checked : Checked) : Bool :=
  match checked.outcome with
  | .ok report => report.blockingCount least = 0
  | .error _ => false

/-- The number of issues. -/
def total (checked : Checked) : Nat :=
  match checked.outcome with
  | .ok report => report.total
  | .error _ => 0

/-- The lines about a script. -/
def lines (checked : Checked) : List String :=
  match checked.outcome with
  | .ok report =>
    if report.isClean then [checked.name ++ ": ok"]
    else report.issues.flatMap (issueLines checked.name)
  | .error reason => [checked.name ++ ": error: " ++ reason]

/-- The script in a report. -/
def toJson (checked : Checked) : Json :=
  .object
    [("name", .string checked.name),
      match checked.outcome with
      | .ok report => ("report", report.toJson)
      | .error reason => ("error", .string reason)]

end Checked

/-- The listing of validated scripts. -/
def ofChecked (all : List Checked) : String :=
  let total := (all.map Checked.total).foldl (· + ·) 0
  ofLines
    (all.flatMap Checked.lines ++
      [toString all.length ++ " file(s), " ++ toString total ++ " issue(s)"])

/-! ## Batches -/

/-- The verdict on a script, and its counts or why it could not be read. -/
def resultLine (result : UnitResult) : String :=
  let verdict := if result.success then "ok" else "FAILED"
  let about :=
    match result.error with
    | some reason => reason
    | none =>
      "issues " ++ toString result.validation.total ++ ", applied " ++
        toString result.fixSummary.applied ++ ", remaining " ++
        toString result.fixSummary.remainingIssues ++ if result.recovered then ", recovered" else ""
  result.name ++ ": " ++ verdict ++ " (" ++ about ++ ")"

/-- The line about a fix. -/
def fixLine (fix : Fix) : String :=
  "  line " ++ toString fix.line ++ ": " ++ fix.generator ++ " " ++ fix.kind.name ++ " (" ++
    fix.confidence.fixed 2 ++ ") " ++ if fix.applied then "applied" else "proposed"

/-- The word for why a fix was skipped. -/
def reasonWord : ConflictReason → String
  | .overlap => "Overlap"
  | .duplicateInsert => "DuplicateInsert"
  | .outOfRange => "OutOfRange"

/-- The line about a skipped fix. -/
def conflictLine (conflict : Conflict) : String :=
  "  line " ++ toString conflict.skippedLine ++ ": " ++ conflict.skippedGenerator ++ " skipped (" ++
    reasonWord conflict.reason ++ ")"

/-- The line about a run. -/
def executionLine (execution : ExecutionResult) : String :=
  match execution.kind, execution.message with
  | some kind, some message => "  execute: " ++ kind.name ++ " " ++ message
  | _, _ => "  execute: ok (" ++ toString execution.durationMs ++ " ms)"

/-- The width of the names of stages. -/
def stageWidth : Nat := 9

/-- The line about a stage. The share is that of the scripts that passed, in percent. -/
def stageLine (stage : String) (counts : StageCounts) : String :=
  stage ++ padding stage ++ " " ++ toString counts.passed ++ " passed, " ++
    toString counts.failed ++ " failed (" ++ (counts.rate.timesNat 100).fixed 0 ++ "%)"
where
  /-- The blanks that fill up the name of a stage. -/
  padding (name : String) : String :=
    String.ofList (List.replicate (stageWidth - name.length) ' ')

/-- The line about a whole batch. -/
def summaryLine (report : BatchReport) : String :=
  toString report.total ++ " unit(s): " ++ toString report.overall.passed ++ " ok, " ++
    toString report.overall.failed ++ " failed, avg " ++ report.averageMs.fixed 1 ++ " ms"

/-- The listing of a batch with its fixes and the issues that remain. -/
def ofFixes (report : BatchReport) : String :=
  ofLines
    (report.results.flatMap (fun result =>
        resultLine result :: (result.fixSummary.fixes.map fixLine ++
          result.fixSummary.conflicts.map conflictLine ++
          result.remaining.issues.flatMap (issueLines result.name))) ++
      [summaryLine report])

/-- The listing of a batch with its runs and stages. -/
def ofBatch (report : BatchReport) : String :=
  let stages :=
    [stageLine "parse" report.parse, stageLine "validate" report.validation,
      stageLine "fix" report.fix]
  let execution :=
    if 0 < report.execution.attempted then [stageLine "execute" report.execution] else []
  ofLines
    (report.results.flatMap (fun result =>
        resultLine result :: (result.execution.map executionLine).toList) ++
      stages ++ execution ++ [summaryLine report])

end StrategyMend.Listing
