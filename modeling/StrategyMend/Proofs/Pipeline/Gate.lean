import Mathlib.Logic.Function.Basic
import StrategyMend.Proofs.Issue.Blocking
import StrategyMend.Proofs.Pipeline.Reports

/-!
# The gate in front of the run

A script is run at the very end, and only if that is asked for, the script parses, and no issue that
remains blocks it (`MayRun`). What runs is the text in the end (`execution_of_mayRun`). A script
succeeds if it parses, is not blocked, and its run succeeded if there was one
(`processUnit_success`).

The runner and the bound from which issues block decide about the run and the verdict and about nothing
else, since every stage before the gate does without them (`withoutRun_withRunner`,
`withoutRun_blockingFrom`). So two results of one script with different runners are equal as soon as
their runs are. The runner is asked about a code if another answer to that one code gives
another result (`Asks`), and that is the text in the end of a script that may be run (`asks_iff`).

The main result puts these together (`processUnit_gated`). The last part of it compares two bounds: a
higher one can let a script through to a run that fails, but a script that succeeded was let
through before.
-/

set_option autoImplicit false

namespace StrategyMend.Pipeline

open Execution

/-! ## The run and the verdict -/

/-- The script of a result may be run: that is asked for, it parses, and nothing blocks it. -/
structure MayRun (pipeline : Pipeline) (result : UnitResult) : Prop where
  execute : pipeline.options.execute = true
  syntaxValid : result.syntaxValid = true
  unblocked : ∀ issue ∈ result.remaining.issues,
    ¬ pipeline.options.blockingSeverity ≤ issue.severity

section Results

variable {pipeline : Pipeline} {name text : String}

theorem isClear_iff {report : Report} :
    pipeline.isClear report = true ↔
      ∀ issue ∈ report.issues, ¬ pipeline.options.blockingSeverity ≤ issue.severity := by
  rw [isClear, decide_eq_true_eq, Report.blockingCount_eq_zero_iff]

/-- A script that was opened runs behind the gate, and what runs is the text in the end. -/
theorem finish_execution {opened : Opened} (origin : OpenedFrom pipeline name text opened) :
    let result := pipeline.finish name opened
    result.execution =
      if pipeline.isClear result.remaining then
        if pipeline.options.execute then
          pipeline.runner.map fun run => .ofOutcome (run (result.finalText text)) 0
        else none
      else none := by
  intro result
  have final : (pipeline.repaired opened).script.text = result.finalText text := by
    rw [← finish_script origin]
    rfl
  rw [← final]
  rfl

/-- **What runs is the text in the end**, if the script may be run and there is a runner. -/
theorem execution_of_mayRun (may : pipeline.MayRun (pipeline.processUnit name text)) :
    (pipeline.processUnit name text).execution =
      pipeline.runner.map fun run =>
        .ofOutcome (run ((pipeline.processUnit name text).finalText text)) 0 := by
  rcases pipeline.processUnit_cases name text with ⟨opened, origin, result⟩ | ⟨ledger, -, result⟩
  · rw [result] at may ⊢
    rw [finish_execution origin, if_pos (isClear_iff.mpr may.unblocked), if_pos may.execute]
  · rw [result] at may
    cases may.syntaxValid

/-- A script that may not be run is not run. -/
theorem execution_of_not_mayRun (mayNot : ¬ pipeline.MayRun (pipeline.processUnit name text)) :
    (pipeline.processUnit name text).execution = none := by
  rcases pipeline.processUnit_cases name text with ⟨opened, origin, result⟩ | ⟨ledger, -, result⟩
  · rw [result] at mayNot ⊢
    rw [finish_execution origin]
    split
    · next clear =>
      split
      · next execute => exact absurd ⟨execute, rfl, isClear_iff.mp clear⟩ mayNot
      · rfl
    · rfl
  · rw [result]
    rfl

/-- **The verdict**: a script succeeds if it parses, nothing blocks it, and its run succeeded if there
was one. -/
theorem processUnit_success (pipeline : Pipeline) (name text : String) :
    (pipeline.processUnit name text).success =
      ((pipeline.processUnit name text).syntaxValid &&
        pipeline.isClear (pipeline.processUnit name text).remaining &&
        ((pipeline.processUnit name text).execution.map ExecutionResult.success).getD true) := by
  rcases pipeline.processUnit_cases name text with ⟨opened, -, result⟩ | ⟨ledger, -, result⟩
  · rw [result]
    rfl
  · rw [result]
    rfl

theorem processUnit_success_iff :
    (pipeline.processUnit name text).success = true ↔
      (pipeline.processUnit name text).syntaxValid = true ∧
        (pipeline.processUnit name text).remaining.blockingCount
          pipeline.options.blockingSeverity = 0 ∧
        ∀ execution ∈ (pipeline.processUnit name text).execution, execution.success = true := by
  rw [processUnit_success]
  cases (pipeline.processUnit name text).execution <;> simp [isClear, and_assoc]

end Results

/-! ## Other runners and other bounds -/

/-- The pipeline with another runner. -/
def withRunner (pipeline : Pipeline) (runner : Option Runner) : Pipeline := { pipeline with runner }

/-- The pipeline in which issues block a script from another severity on. -/
def blockingFrom (pipeline : Pipeline) (least : Severity) : Pipeline :=
  { pipeline with options := { pipeline.options with blockingSeverity := least } }

/-- What a result says apart from the run and the verdict. -/
def UnitResult.withoutRun (result : UnitResult) : UnitResult :=
  { result with execution := none, success := false }

section Comparison

variable {first second : UnitResult}

theorem syntaxValid_of_withoutRun (same : first.withoutRun = second.withoutRun) :
    first.syntaxValid = second.syntaxValid := by
  show first.withoutRun.syntaxValid = second.withoutRun.syntaxValid
  rw [same]

theorem remaining_of_withoutRun (same : first.withoutRun = second.withoutRun) :
    first.remaining = second.remaining := by
  show first.withoutRun.remaining = second.withoutRun.remaining
  rw [same]

theorem finalText_of_withoutRun (same : first.withoutRun = second.withoutRun) (text : String) :
    first.finalText text = second.finalText text := by
  show first.withoutRun.finalText text = second.withoutRun.finalText text
  rw [same]

/-- The run and the verdict are all that can differ then. -/
theorem eq_of_withoutRun (same : first.withoutRun = second.withoutRun)
    (execution : first.execution = second.execution) (success : first.success = second.success) :
    first = second := by
  cases first
  cases second
  simp_all [UnitResult.withoutRun]

end Comparison

section Others

variable (pipeline : Pipeline) (name text : String)

/-- A pipeline that opens scripts alike, and finishes them alike apart from the run and the verdict,
gives the same results apart from these. -/
theorem withoutRun_processUnit {other : Pipeline}
    (opens : other.openScript name text = pipeline.openScript name text)
    (finishes : ∀ opened,
      (other.finish name opened).withoutRun = (pipeline.finish name opened).withoutRun) :
    (other.processUnit name text).withoutRun = (pipeline.processUnit name text).withoutRun := by
  rw [processUnit, processUnit, opens]
  cases pipeline.openScript name text with
  | ok opened => exact finishes opened
  | error broken => rfl

/-- The runner decides about nothing but the run and the verdict. -/
theorem withoutRun_withRunner (runner : Option Runner) :
    ((pipeline.withRunner runner).processUnit name text).withoutRun =
      (pipeline.processUnit name text).withoutRun :=
  pipeline.withoutRun_processUnit name text rfl fun _ => rfl

/-- Nor does the bound from which issues block. -/
theorem withoutRun_blockingFrom (least : Severity) :
    ((pipeline.blockingFrom least).processUnit name text).withoutRun =
      (pipeline.processUnit name text).withoutRun :=
  pipeline.withoutRun_processUnit name text rfl fun _ => rfl

theorem mayRun_withRunner_iff (runner : Option Runner) :
    (pipeline.withRunner runner).MayRun ((pipeline.withRunner runner).processUnit name text) ↔
      pipeline.MayRun (pipeline.processUnit name text) := by
  have same := pipeline.withoutRun_withRunner name text runner
  have valid := syntaxValid_of_withoutRun same
  have remaining := remaining_of_withoutRun same
  constructor
  · rintro ⟨execute, parses, unblocked⟩
    exact ⟨execute, valid ▸ parses, remaining ▸ unblocked⟩
  · rintro ⟨execute, parses, unblocked⟩
    exact ⟨execute, valid ▸ parses, remaining ▸ unblocked⟩

/-- A runner with which the run is the same gives the same result. -/
theorem processUnit_withRunner_eq {runner : Option Runner}
    (execution : ((pipeline.withRunner runner).processUnit name text).execution =
      (pipeline.processUnit name text).execution) :
    (pipeline.withRunner runner).processUnit name text = pipeline.processUnit name text := by
  have same := pipeline.withoutRun_withRunner name text runner
  refine eq_of_withoutRun same execution ?_
  rw [processUnit_success, processUnit_success, execution, syntaxValid_of_withoutRun same,
    remaining_of_withoutRun same]
  rfl

end Others

/-! ## The codes that the runner is asked about -/

/-- The runner is asked about the code: another answer to it, and to no other code, gives another
result. -/
def Asks (pipeline : Pipeline) (name text code : String) : Prop :=
  ∃ run outcome, pipeline.runner = some run ∧
    (pipeline.withRunner (some (Function.update run code outcome))).processUnit name text ≠
      pipeline.processUnit name text

section Asks

variable {pipeline : Pipeline} {name text code : String} {run : Runner}

/-- For each outcome there is one with the other verdict. -/
theorem exists_success_ne (outcome : Outcome) :
    ∃ other, (ExecutionResult.ofOutcome other 0).success ≠
      (ExecutionResult.ofOutcome outcome 0).success := by
  cases outcome with
  | success metrics =>
    exact ⟨.failure .runtimeException "", by simp [ExecutionResult.ofOutcome]⟩
  | failure kind message => exact ⟨.success .null, by simp [ExecutionResult.ofOutcome]⟩

/-- The run with another runner, if the script may be run. -/
theorem execution_withRunner (may : pipeline.MayRun (pipeline.processUnit name text))
    (run : Runner) :
    ((pipeline.withRunner (some run)).processUnit name text).execution =
      some (.ofOutcome (run ((pipeline.processUnit name text).finalText text)) 0) := by
  rw [execution_of_mayRun ((pipeline.mayRun_withRunner_iff name text _).mpr may),
    finalText_of_withoutRun (pipeline.withoutRun_withRunner name text _)]
  rfl

/-- An answer to a code that is not run changes nothing. -/
theorem processUnit_update_eq (attached : pipeline.runner = some run) (outcome : Outcome)
    (elsewhere : ¬ (pipeline.MayRun (pipeline.processUnit name text) ∧
      code = (pipeline.processUnit name text).finalText text)) :
    (pipeline.withRunner (some (Function.update run code outcome))).processUnit name text =
      pipeline.processUnit name text := by
  refine pipeline.processUnit_withRunner_eq name text ?_
  by_cases may : pipeline.MayRun (pipeline.processUnit name text)
  · have other : (pipeline.processUnit name text).finalText text ≠ code :=
      fun here => elsewhere ⟨may, here.symm⟩
    rw [execution_withRunner may, execution_of_mayRun may, attached, Function.update_of_ne other]
    rfl
  · rw [execution_of_not_mayRun (mt (pipeline.mayRun_withRunner_iff name text _).mp may),
      execution_of_not_mayRun may]

/-- **The runner is asked about the text in the end and about nothing else**, and only if the script
may be run. -/
theorem asks_iff :
    pipeline.Asks name text code ↔
      pipeline.runner.isSome = true ∧ pipeline.MayRun (pipeline.processUnit name text) ∧
        code = (pipeline.processUnit name text).finalText text := by
  constructor
  · rintro ⟨run, outcome, attached, different⟩
    refine ⟨by simp [attached], ?_⟩
    by_contra elsewhere
    exact different (processUnit_update_eq attached outcome elsewhere)
  · rintro ⟨attached, may, rfl⟩
    obtain ⟨run, attached⟩ := Option.isSome_iff_exists.mp attached
    obtain ⟨outcome, differs⟩ :=
      exists_success_ne (run ((pipeline.processUnit name text).finalText text))
    refine ⟨run, outcome, attached, fun same => differs ?_⟩
    have executions := congrArg UnitResult.execution same
    rw [execution_withRunner may, Function.update_self, execution_of_mayRun may, attached,
      Option.map_some, Option.some.injEq] at executions
    exact congrArg ExecutionResult.success executions

end Asks

/-! ## Raising the bound -/

section Raising

variable {pipeline : Pipeline} {name text : String} {higher : Severity}

/-- A script that is let through at both bounds runs alike. -/
theorem execution_blockingFrom
    (unblocked : (pipeline.processUnit name text).remaining.blockingCount
      pipeline.options.blockingSeverity = 0)
    (unblocked' : (pipeline.processUnit name text).remaining.blockingCount higher = 0) :
    ((pipeline.blockingFrom higher).processUnit name text).execution =
      (pipeline.processUnit name text).execution := by
  have same := pipeline.withoutRun_blockingFrom name text higher
  have valid := syntaxValid_of_withoutRun same
  have remaining := remaining_of_withoutRun same
  rw [Report.blockingCount_eq_zero_iff] at unblocked unblocked'
  by_cases may : pipeline.MayRun (pipeline.processUnit name text)
  · have may' : (pipeline.blockingFrom higher).MayRun
        ((pipeline.blockingFrom higher).processUnit name text) :=
      ⟨may.execute, valid ▸ may.syntaxValid, remaining ▸ unblocked'⟩
    rw [execution_of_mayRun may, execution_of_mayRun may', finalText_of_withoutRun same]
    rfl
  · have mayNot : ¬ (pipeline.blockingFrom higher).MayRun
        ((pipeline.blockingFrom higher).processUnit name text) :=
      fun may' => may ⟨may'.execute, valid ▸ may'.syntaxValid, unblocked⟩
    rw [execution_of_not_mayRun may, execution_of_not_mayRun mayNot]

/-- A script that succeeds also succeeds if fewer issues block it. -/
theorem success_blockingFrom (raised : pipeline.options.blockingSeverity ≤ higher)
    (success : (pipeline.processUnit name text).success = true) :
    ((pipeline.blockingFrom higher).processUnit name text).success = true := by
  have same := pipeline.withoutRun_blockingFrom name text higher
  obtain ⟨parses, unblocked, succeeded⟩ := processUnit_success_iff.mp success
  have unblocked' : (pipeline.processUnit name text).remaining.blockingCount higher = 0 :=
    Nat.eq_zero_of_le_zero (unblocked ▸ Report.blockingCount_anti raised _)
  rw [processUnit_success_iff, syntaxValid_of_withoutRun same, remaining_of_withoutRun same,
    execution_blockingFrom unblocked unblocked']
  exact ⟨parses, unblocked', succeeded⟩

end Raising

/-! ## The gate -/

/-- The run and the verdict of a result are those that the gate lets through. -/
structure Gated (pipeline : Pipeline) (name text : String) (result : UnitResult) : Prop where
  /-- The runner is asked exactly about the text in the end of a script that parses and that no
  remaining issue blocks, if a run is asked for. -/
  asks_iff : ∀ code, pipeline.Asks name text code ↔
    pipeline.options.execute = true ∧ pipeline.runner.isSome = true ∧
      result.syntaxValid = true ∧
      (∀ issue ∈ result.remaining.issues,
        ¬ pipeline.options.blockingSeverity ≤ issue.severity) ∧
      code = result.finalText text
  /-- The result holds the runner's answer if it was asked, and no run otherwise. -/
  execution_iff : ∀ execution, result.execution = some execution ↔
    pipeline.Asks name text (result.finalText text) ∧
      ∃ run, pipeline.runner = some run ∧
        execution = .ofOutcome (run (result.finalText text)) 0
  /-- No remaining issue blocks the script exactly if no severity from the bound on is counted. -/
  unblocked_iff :
    (∀ issue ∈ result.remaining.issues, ¬ pipeline.options.blockingSeverity ≤ issue.severity) ↔
      ∀ severity, pipeline.options.blockingSeverity ≤ severity →
        result.remaining.countSeverity severity = 0
  /-- A script succeeds if it parses, is not blocked, and its run succeeded if there was one. -/
  success_iff : result.success = true ↔
    result.syntaxValid = true ∧
      (∀ severity, pipeline.options.blockingSeverity ≤ severity →
        result.remaining.countSeverity severity = 0) ∧
      ∀ execution ∈ result.execution, execution.success = true
  /-- Nothing that succeeds fails when issues block from a higher severity on. -/
  raised : ∀ higher, pipeline.options.blockingSeverity ≤ higher → result.success = true →
    ((pipeline.blockingFrom higher).processUnit name text).success = true

/-- **A run is let through by the gate and by nothing else, and the verdict follows**, for any parser,
detectors, generators and runner. -/
theorem processUnit_gated (pipeline : Pipeline) (name text : String) :
    Gated pipeline name text (pipeline.processUnit name text) where
  asks_iff code := by
    rw [asks_iff]
    constructor
    · rintro ⟨attached, ⟨execute, parses, unblocked⟩, here⟩
      exact ⟨execute, attached, parses, unblocked, here⟩
    · rintro ⟨execute, attached, parses, unblocked, here⟩
      exact ⟨attached, ⟨execute, parses, unblocked⟩, here⟩
  execution_iff execution := by
    rw [asks_iff]
    by_cases may : pipeline.MayRun (pipeline.processUnit name text)
    · rw [execution_of_mayRun may]
      cases attached : pipeline.runner with
      | none => simp
      | some run => simp [may, eq_comm]
    · simp [execution_of_not_mayRun may, may]
  unblocked_iff := by
    rw [← Report.blockingCount_eq_zero_iff, Report.blockingCount_eq_zero_iff_countSeverity]
  success_iff := by
    rw [processUnit_success_iff, Report.blockingCount_eq_zero_iff_countSeverity]
  raised _ raised success := success_blockingFrom raised success

end StrategyMend.Pipeline
