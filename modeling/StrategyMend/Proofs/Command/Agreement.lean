import StrategyMend.Command.Run
import StrategyMend.Proofs.Pipeline.Discard
import StrategyMend.Proofs.Pipeline.Gate

/-!
# Validating and proposing

Two actions judge scripts without changing or running them: validation, and the pipeline when it may
neither apply fixes nor run scripts. The first goes over the scripts with the validator alone, the second
puts each through every stage, with the recovery of scripts that do not parse if that is asked for.

A pipeline that may not apply fixes leaves a script that parses as it is, with all its issues, and
gives up one that does not parse (`processUnit_manual_cases`). So the two judge each script
alike (`passes_eq_success`), and the issues that validation lists are those of the pipeline's report
(`Agrees`). Hence the exit codes agree for every list of inputs
(`validate_agrees_with_pipeline`).
-/

set_option autoImplicit false

namespace StrategyMend

open Detection Source

/-! ## Pipelines that only propose fixes -/

namespace Pipeline

section Manual

variable {pipeline : Pipeline} (manual : pipeline.options.autoApply = false)
include manual

theorem proposing_eq : pipeline.proposing = pipeline := by
  obtain ⟨options, _, _, _, _⟩ := pipeline
  cases options
  cases manual
  rfl

/-- No pass of a pipeline that only proposes fixes gives a new script. -/
theorem checkedPass_manual (issues : List Issue) (script : Script) (ledger : Ledger) :
    (pipeline.checkedPass issues script ledger).1 = none := by
  have proposed := pipeline.checkedPass_proposing issues script ledger
  rw [proposing_eq manual] at proposed
  rw [proposed]

theorem repair_issues_manual (issues : List Issue) (script : Script) (ledger : Ledger) :
    (pipeline.repair issues script ledger).issues = issues := by
  have none := checkedPass_manual manual issues script ledger
  rcases pipeline.repair_cases issues script ledger with
    ⟨empty, result⟩ | ⟨patched, after, -, passed, -⟩ | ⟨after, -, -, result⟩
  · rw [result, empty]
  · rw [passed] at none
    cases none
  · rw [result]

/-- **What a pipeline that only proposes fixes reports.** A script that parses has the issues of its
validation, before and after; one that does not parse has its syntax error first. -/
theorem processUnit_manual_cases (name text : String) :
    let script := pipeline.script name text
    let result := pipeline.processUnit name text
    (script.isValid = true ∧ result.syntaxValid = true ∧
        result.validation = ⟨pipeline.validator.validate script⟩ ∧
        result.remaining = ⟨pipeline.validator.validate script⟩) ∨
      (∃ diagnostic, script.diagnostic? = some diagnostic ∧ result.syntaxValid = false ∧
        result.validation.issues.head? = some (syntaxIssue script diagnostic)) := by
  intro script result
  cases valid : script.isValid with
  | true =>
    have opened : result = pipeline.finish name ⟨script, none, .empty⟩ :=
      processUnit_of_isValid valid
    have kept : (pipeline.repaired ⟨script, none, .empty⟩).issues =
        pipeline.validator.validate script := repair_issues_manual manual _ _ _
    refine .inl ⟨rfl, ?_, ?_, ?_⟩
    · rw [opened]
      rfl
    · rw [opened]
      rfl
    · rw [opened, finish_remaining, kept]
  | false =>
    obtain ⟨diagnostic, found⟩ := exists_diagnostic valid
    have none := checkedPass_manual manual (pipeline.brokenIssues script) script .empty
    have given : ∃ ledger, result = notFixable name (pipeline.brokenIssues script) ledger := by
      rcases pipeline.openScript_cases name text with
        ⟨parses, -⟩ | ⟨-, -, patched, ledger, passed, -⟩ | ⟨-, -, ledger, -, opened⟩ |
          ⟨-, -, opened⟩
      · rw [valid] at parses
        cases parses
      · rw [passed] at none
        cases none
      · exact ⟨ledger.revokeSince .empty, by simp only [result, processUnit, opened, script]⟩
      · exact ⟨.empty, by simp only [result, processUnit, opened, script]⟩
    obtain ⟨ledger, failed⟩ := given
    refine .inr ⟨diagnostic, found, by rw [failed]; rfl, ?_⟩
    rw [failed, notFixable, pipeline.brokenIssues_eq found]
    rfl

end Manual

/-- All scripts of a batch succeeded exactly if each did. -/
theorem BatchReport.allSucceeded_iff {report : BatchReport} :
    report.allSucceeded = true ↔ ∀ result ∈ report.results, result.success = true := by
  simp [allSucceeded, overall, StageCounts.tally, List.countP_map, List.countP_eq_zero]

end Pipeline

namespace Command

open Pipeline Listing

/-! ## One input -/

/-- What validation and the pipeline say about an input agrees. -/
inductive Agrees (pipeline : Pipeline) : Input → Checked → UnitResult → Prop where
  /-- The issues listed for a script that parses are those before and after the repair. -/
  | parses {name text : String} {report : Report} {result : UnitResult}
      (valid : (pipeline.script name text).isValid = true)
      (validation : result.validation = report) (remaining : result.remaining = report) :
      Agrees pipeline (.source name text) ⟨name, .ok report⟩ result
  /-- The one issue listed for a script that does not parse is the first one of the pipeline. -/
  | broken {name text : String} {issue : Issue} {result : UnitResult}
      (invalid : (pipeline.script name text).isValid = false)
      (syntaxError : issue.category = .syntaxError)
      (first : result.validation.issues.head? = some issue) :
      Agrees pipeline (.source name text) ⟨name, .ok ⟨[issue]⟩⟩ result
  /-- An input that cannot be read is reported with the same reason. -/
  | unreadable {name reason : String} {result : UnitResult} (error : result.error = some reason) :
      Agrees pipeline (.unreadable name reason) ⟨name, .error reason⟩ result

section Inputs

variable {pipeline : Pipeline} (manual : pipeline.options.autoApply = false) (input : Input)
include manual

theorem agrees_ofInput :
    Agrees pipeline input (.ofInput pipeline.parse pipeline.validator input)
      (pipeline.processInput input) := by
  cases input with
  | source name text =>
    rcases processUnit_manual_cases manual name text with
      ⟨valid, -, validation, remaining⟩ | ⟨diagnostic, found, -, first⟩
    · exact .parses valid validation remaining
    · have invalid : (pipeline.script name text).isValid = false := by
        simp [Script.isValid, found]
      have listed : Checked.ofInput pipeline.parse pipeline.validator (.source name text) =
          ⟨name, .ok ⟨[syntaxIssue (pipeline.script name text) diagnostic]⟩⟩ := by
        rw [← pipeline.validate_of_diagnostic found]
        rfl
      rw [listed]
      exact .broken invalid rfl first
  | unreadable name reason => exact .unreadable rfl

/-- **Validation and the pipeline judge an input alike**, if nothing is run. -/
theorem passes_eq_success (unrun : pipeline.options.execute = false) :
    (Checked.ofInput pipeline.parse pipeline.validator input).passes
        pipeline.options.blockingSeverity =
      (pipeline.processInput input).success := by
  cases input with
  | source name text =>
    have idle : (pipeline.processUnit name text).execution = none :=
      execution_of_not_mayRun fun may => by
        rw [may.execute] at unrun
        cases unrun
    have verdict : (pipeline.processInput (.source name text)).success = _ :=
      processUnit_success pipeline name text
    rw [verdict, idle]
    rcases processUnit_manual_cases manual name text with
      ⟨-, parses, -, remaining⟩ | ⟨diagnostic, found, invalid, -⟩
    · rw [parses, remaining, Bool.true_and, Option.map_none, Option.getD_none, Bool.and_true]
      rfl
    · have listed := pipeline.validate_of_diagnostic found
      have blocked := Severity.le_critical pipeline.options.blockingSeverity
      rw [script] at listed
      rw [invalid]
      simp [Checked.ofInput, Checked.passes, Report.blockingCount, listed, syntaxIssue, blocked]
  | unreadable name reason => rfl

end Inputs

/-! ## Jobs -/

section Jobs

variable {config : Config} {inputs : List Input}

/-- A job that may not run its scripts is done by the pipeline without a runner. -/
theorem pipeline_eq_standard (unrun : config.pipeline.execute = false) (options : PipelineOptions)
    (launch : Execution.Launcher) :
    Job.pipeline launch ⟨config, inputs, .pipeline options⟩ = Pipeline.standard config := by
  simp [Job.pipeline, Job.runsScripts, unrun, Pipeline.standard]

/-- Validation ends well exactly if every input passes. -/
theorem exitCode_validate_eq_zero_iff (tree : Files.Tree) (json : Bool) (report : BatchReport) :
    (Job.result tree ⟨config, inputs, .validate json⟩ report).exitCode = 0 ↔
      ∀ checked ∈ Job.checked ⟨config, inputs, .validate json⟩,
        checked.passes config.pipeline.blockingSeverity = true := by
  simp [Job.result, validateResult, Result.ofVerdict]

end Jobs

/-- **Validation and a pipeline that only proposes fixes agree** on every list of inputs: they end
well together, and what they say about each input agrees. -/
theorem validate_agrees_with_pipeline (config : Config) (inputs : List Input) (tree : Files.Tree)
    (launch : Execution.Launcher) (json : Bool) (options : PipelineOptions)
    (manual : config.pipeline.autoApply = false) (unrun : config.pipeline.execute = false) :
    let validating : Job := ⟨config, inputs, .validate json⟩
    let proposing : Job := ⟨config, inputs, .pipeline options⟩
    let report := proposing.report launch
    ((validating.result tree (validating.report launch)).exitCode = 0 ↔
        report.allSucceeded = true) ∧
      ∀ (place : Nat) (input : Input), inputs[place]? = some input →
        ∃ checked result, validating.checked[place]? = some checked ∧
          report.results[place]? = some result ∧
          Agrees (Pipeline.standard config) input checked result := by
  intro validating proposing report
  have off : (Pipeline.standard config).options.autoApply = false := manual
  have processed : report.results = inputs.map (Pipeline.standard config).processInput := by
    simp [report, Job.report, proposing, Job.usesPipeline, pipeline_eq_standard unrun, processBatch]
  constructor
  · rw [exitCode_validate_eq_zero_iff, BatchReport.allSucceeded_iff, processed]
    simp only [Job.checked, List.forall_mem_map]
    refine forall₂_congr fun input _ => ?_
    rw [← passes_eq_success off input unrun]
    rfl
  · intro place input here
    refine ⟨_, _, ?_, ?_, agrees_ofInput off input⟩
    · simp [validating, Job.checked, here]
    · simp [processed, here]

/-- A clean script, one that does not parse and that recovery gives up, and a file that is gone. -/
theorem validate_agrees_with_pipeline_brokenScript :
    let options := { Config.standard.pipeline with autoApply := false, recoverSyntaxErrors := true }
    let config := { Config.standard with pipeline := options }
    let inputs : List Input := [.source "clean.py" "x = 1\n", .source "bad.py" "elif True:\n    x\n",
      .unreadable "gone.py" "not found"]
    let action : PipelineOptions := ⟨none, false, false, false, false, none, false⟩
    let tree : Files.Tree := ⟨.directory [], []⟩
    let launch : Execution.Launcher := fun _ _ _ => .error ""
    let validating : Job := ⟨config, inputs, .validate true⟩
    let report := Job.report launch ⟨config, inputs, .pipeline action⟩
    config.pipeline.autoApply = false ∧ config.pipeline.execute = false ∧
      ((validating.result tree (validating.report launch)).exitCode = 0 ↔
        report.allSucceeded = true) ∧
      report.allSucceeded = false ∧
      (∃ checked result, validating.checked[1]? = some checked ∧
        report.results[1]? = some result ∧
        Agrees (Pipeline.standard config) (.source "bad.py" "elif True:\n    x\n") checked result) := by
  intro options config inputs action tree launch validating report
  have agreement := validate_agrees_with_pipeline config inputs tree launch true action rfl rfl
  exact ⟨rfl, rfl, agreement.1, by decide +kernel, agreement.2 1 _ rfl⟩

end Command

end StrategyMend
