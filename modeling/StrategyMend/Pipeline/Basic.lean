import StrategyMend.Detection.Validator
import StrategyMend.Pipeline.Batch
import StrategyMend.Repair.Strategy

/-!
# The pipeline

A script is parsed, validated, repaired and run. A script that does not parse can first be repaired by
its lines, if that is asked for; it goes on only if it parses then. A patch that does not parse is
thrown away together with every mark of its application. A script is run only if no issue is left that
blocks it.

The pipeline takes its parser, detectors, generators and runner as values, so that what is said about
it holds for all of them.
-/

set_option autoImplicit false

namespace StrategyMend

open Detection Execution Repair Source

/-- What the pipeline works with. -/
structure Pipeline where
  options : Config.Pipeline
  /-- Reads a script by its name and text. -/
  parse : (name text : String) → Parsed
  validator : Validator
  generators : Repair.Registry
  /-- Runs the text of a script. -/
  runner : Option Runner

namespace Pipeline

/-! ## The ledger of fixes -/

/-- The fixes generated for one script so far and what came of them. -/
structure Ledger where
  fixes : List Fix
  failures : List Failure
  conflicts : List Conflict
  /-- The number of applied fixes. -/
  applied : Nat

namespace Ledger

/-- No fixes yet. -/
def empty : Ledger := ⟨[], [], [], 0⟩

/-- Enters fixes that are only proposed. -/
def propose (ledger : Ledger) (proposals : Proposals) : Ledger :=
  { ledger with
    fixes := ledger.fixes ++ proposals.fixes
    failures := ledger.failures ++ proposals.failures }

/-- Enters the fixes of a patch, together with the failures of their generation. -/
def record (ledger : Ledger) (patch : Patch) (failures : List Failure) : Ledger where
  fixes := ledger.fixes ++ patch.fixes
  failures := ledger.failures ++ failures
  conflicts := ledger.conflicts ++ patch.conflicts
  applied := ledger.applied + patch.appliedCount

/-- Forgets which fixes were applied since the earlier state `mark`, as their result was thrown away.
Fixes, failures and conflicts stay. -/
def revokeSince (ledger mark : Ledger) : Ledger :=
  { ledger with
    applied := mark.applied
    fixes :=
      ledger.fixes.take mark.fixes.length ++
        (ledger.fixes.drop mark.fixes.length).map fun fix => { fix with applied := false } }

/-- The summary, given the number of issues before and after the repair. -/
def summary (ledger : Ledger) (status : FixStatus) (before remaining : Nat) : FixSummary where
  status := status
  generated := ledger.fixes.length
  applied := ledger.applied
  remainingIssues := remaining
  conflicts := ledger.conflicts
  failures := ledger.failures
  delta := (before : Int) - remaining
  fixes := ledger.fixes

end Ledger

/-! ## Passes over a script -/

/-- The pipeline of a configuration, with the built-in detectors and generators and no runner. -/
def standard (config : Config) : Pipeline where
  options := config.pipeline
  parse _ text := Source.parse text
  validator := .standard config.validator
  generators := .standard config.fixer config.validator
  runner := none

/-- Reads a script. -/
def script (pipeline : Pipeline) (name text : String) : Script :=
  ⟨name, text, pipeline.parse name text⟩

/-- Generates fixes and applies those that need no review, if that is asked for. The text is that of
the patch, if it changed anything. -/
def fixPass (pipeline : Pipeline) (issues : List Issue) (script : Script) (ledger : Ledger) :
    Option String × Ledger :=
  let proposals := pipeline.generators.generateAll issues script.lines
  if pipeline.options.autoApply then
    let patch := Patch.apply script.lines proposals.fixes pipeline.options.confidenceThreshold
    (if patch.isChanged then some (patch.render script.trailing) else none,
      ledger.record patch proposals.failures)
  else (none, ledger.propose proposals)

/-- A fix pass whose patch counts only if it parses. Otherwise the ledger forgets the application. -/
def checkedPass (pipeline : Pipeline) (issues : List Issue) (script : Script) (ledger : Ledger) :
    Option Script × Ledger :=
  match pipeline.fixPass issues script ledger with
  | (none, after) => (none, after)
  | (some text, after) =>
    let patched := pipeline.script script.name text
    if patched.isValid then (some patched, after) else (none, after.revokeSince ledger)

/-! ## The stages -/

/-- A script that parses, ready to be validated. -/
structure Opened where
  script : Script
  /-- The issues of the script as given, if it parses only after a repair. -/
  recoveredFrom : Option (List Issue)
  ledger : Ledger

/-- The issues of a script that does not parse. -/
def brokenIssues (pipeline : Pipeline) (script : Script) : List Issue :=
  (script.diagnostic?.map (syntaxIssue script)).toList ++
    if pipeline.options.recoverSyntaxErrors then pipeline.validator.validateText script else []

/-- A fix pass over a script that does not parse; what it makes of the script counts only if that
parses. -/
def recover (pipeline : Pipeline) (issues : List Issue) (script : Script) : Option Script × Ledger :=
  match pipeline.fixPass issues script .empty with
  | (none, after) => (none, after)
  | (some text, after) =>
    let patched := pipeline.script script.name text
    (if patched.isValid then some patched else none, after)

/-- Reads a script, with a repair by its lines if it does not parse and that is asked for. Otherwise
the issues and the ledger are all there is, and the ledger forgets what the repair applied. -/
def openScript (pipeline : Pipeline) (name text : String) : Except (List Issue × Ledger) Opened :=
  let script := pipeline.script name text
  if script.isValid then .ok ⟨script, none, .empty⟩
  else
    let issues := pipeline.brokenIssues script
    if pipeline.options.recoverSyntaxErrors then
      match pipeline.recover issues script with
      | (some patched, ledger) => .ok ⟨patched, some issues, ledger⟩
      | (none, ledger) => .error (issues, ledger.revokeSince .empty)
    else .error (issues, .empty)

/-- A script after its repair. -/
structure Repaired where
  script : Script
  /-- The issues of the script now. -/
  issues : List Issue
  ledger : Ledger
  /-- Whether the repair changed the script. -/
  changed : Bool

/-- Repairs a script that parses and has the given issues. -/
def repair (pipeline : Pipeline) (issues : List Issue) (script : Script) (ledger : Ledger) :
    Repaired :=
  if issues.isEmpty then ⟨script, [], ledger, false⟩
  else
    match pipeline.checkedPass issues script ledger with
    | (some patched, after) => ⟨patched, pipeline.validator.validate patched, after, true⟩
    | (none, after) => ⟨script, issues, after, false⟩

/-- Whether no issue of the report blocks the script. -/
def isClear (pipeline : Pipeline) (report : Report) : Bool :=
  report.blockingCount pipeline.options.blockingSeverity = 0

/-- Runs a script if that is asked for and there is a runner. -/
def execute (pipeline : Pipeline) (script : Script) : Option ExecutionResult :=
  if pipeline.options.execute then
    pipeline.runner.map fun run => .ofOutcome (run script.text) 0
  else none

/-- The result for a script that does not parse. -/
def notFixable (name : String) (issues : List Issue) (ledger : Ledger) : UnitResult where
  name := name
  syntaxValid := false
  recovered := false
  validation := ⟨issues⟩
  fixSummary := ledger.summary .notFixable issues.length issues.length
  remaining := ⟨issues⟩
  fixedText := none
  execution := none
  success := false
  error := none
  processingMicros := 0

/-- What the repair came to. -/
def statusOf (inputIssues : List Issue) (ledger : Ledger) (recovered : Bool) : FixStatus :=
  if inputIssues.isEmpty then .skipped
  else if ledger.applied ≠ 0 || recovered then .applied
  else .proposed

/-- Validates, repairs and runs a script that parses. -/
def finish (pipeline : Pipeline) (name : String) (opened : Opened) : UnitResult :=
  let issues := pipeline.validator.validate opened.script
  let inputIssues := opened.recoveredFrom.getD issues
  let recovered := opened.recoveredFrom.isSome
  let repaired := pipeline.repair issues opened.script opened.ledger
  let remaining : Report := ⟨repaired.issues⟩
  let clear := pipeline.isClear remaining
  let execution := if clear then pipeline.execute repaired.script else none
  { name
    syntaxValid := true
    recovered
    validation := ⟨inputIssues⟩
    fixSummary :=
      repaired.ledger.summary (statusOf inputIssues repaired.ledger recovered) inputIssues.length
        remaining.total
    remaining
    fixedText := if recovered || repaired.changed then some repaired.script.text else none
    execution
    success := clear && (execution.map ExecutionResult.success).getD true
    error := none
    processingMicros := 0 }

/-- Puts a script through every stage. -/
def processUnit (pipeline : Pipeline) (name text : String) : UnitResult :=
  match pipeline.openScript name text with
  | .ok opened => pipeline.finish name opened
  | .error (issues, ledger) => notFixable name issues ledger

/-! ## Batches -/

/-- What is to be processed. -/
inductive Input where
  | source (name text : String)
  /-- A source that could not be read. -/
  | unreadable (name reason : String)

/-- The result for one input. -/
def processInput (pipeline : Pipeline) : Input → UnitResult
  | .source name text => pipeline.processUnit name text
  | .unreadable name reason => .unreadable name reason

/-- The report for a batch of inputs. -/
def processBatch (pipeline : Pipeline) (inputs : List Input) : BatchReport :=
  ⟨inputs.map pipeline.processInput⟩

end Pipeline

end StrategyMend
