import Mathlib.Data.List.Forall2
import StrategyMend.Proofs.Pipeline.Gate

/-!
# The counts of a batch

A report counts the scripts of a batch at five stages, each among the scripts that come to it. All counts
add up over the parts of a batch (`counts_append`) and do not depend on the order of its scripts
(`counts_perm`).

The counts of different stages fit together because the fields of a single result do: a script that
does not parse neither runs nor succeeds, a script whose run failed does not succeed, and a script
without issues has none that remain (`Coherent`). So a report on one script is consistent
(`Consistent.singleton`), consistent reports can be put together (`Consistent.append`), and a
batch is processed to a consistent report (`processBatch_consistent`).
-/

set_option autoImplicit false

namespace StrategyMend.Pipeline

/-! ## Counting at a stage -/

instance : Add StageCounts := ⟨fun a b => ⟨a.passed + b.passed, a.failed + b.failed⟩⟩

namespace StageCounts

theorem passed_add (a b : StageCounts) : (a + b).passed = a.passed + b.passed := rfl

theorem failed_add (a b : StageCounts) : (a + b).failed = a.failed + b.failed := rfl

theorem tally_append (first second : List Bool) :
    tally (first ++ second) = tally first + tally second := by
  simp only [tally, List.countP_append]
  rfl

theorem tally_perm {first second : List Bool} (same : first.Perm second) :
    tally first = tally second := by
  simp only [tally, same.countP_eq]

theorem attempted_tally (outcomes : List Bool) : (tally outcomes).attempted = outcomes.length := by
  have split := List.length_eq_countP_add_countP (fun ok => ok) (l := outcomes)
  simpa [attempted, tally] using split.symm

end StageCounts

/-- The stages at which scripts are counted. -/
inductive Stage where
  | parse
  | validation
  | fix
  | execution
  | overall
  deriving DecidableEq

namespace BatchReport

/-- The counts of a stage. -/
def counts (report : BatchReport) : Stage → StageCounts
  | .parse => report.parse
  | .validation => report.validation
  | .fix => report.fix
  | .execution => report.execution
  | .overall => report.overall

/-- **The counts of two batches add up.** -/
theorem counts_append (first second : List UnitResult) (stage : Stage) :
    counts ⟨first ++ second⟩ stage = counts ⟨first⟩ stage + counts ⟨second⟩ stage := by
  cases stage <;>
    simp only [counts, parse, validation, fix, execution, overall, List.filter_append,
      List.filterMap_append, List.map_append, StageCounts.tally_append]

/-- **The order of the scripts does not count.** -/
theorem counts_perm {first second : List UnitResult} (same : first.Perm second) (stage : Stage) :
    counts ⟨first⟩ stage = counts ⟨second⟩ stage := by
  cases stage with
  | parse => exact StageCounts.tally_perm (same.map _)
  | validation => exact StageCounts.tally_perm ((same.filter _).map _)
  | fix => exact StageCounts.tally_perm ((same.filter _).map _)
  | execution => exact StageCounts.tally_perm ((same.filterMap _).map _)
  | overall => exact StageCounts.tally_perm (same.map _)

/-! The scripts that come to a stage are those that the stage before it sends there. -/

theorem attempted_overall (report : BatchReport) : report.overall.attempted = report.total := by
  rw [overall, StageCounts.attempted_tally, List.length_map, total]

theorem attempted_parse (report : BatchReport) : report.parse.attempted = report.total := by
  rw [parse, StageCounts.attempted_tally, List.length_map, total]

theorem attempted_validation (report : BatchReport) :
    report.validation.attempted = report.parse.passed := by
  rw [validation, StageCounts.attempted_tally, List.length_map, ← List.countP_eq_length_filter,
    parse, StageCounts.tally, List.countP_map]
  rfl

theorem attempted_fix (report : BatchReport) :
    report.fix.attempted = report.validation.failed := by
  rw [fix, StageCounts.attempted_tally, List.length_map, ← List.countP_eq_length_filter]
  simp only [validation, StageCounts.tally, List.countP_map, List.countP_filter]
  refine List.countP_congr fun result _ => ?_
  simp [and_comm]

end BatchReport

/-! ## Single results -/

/-- What the stages say about one script fits together. -/
structure Coherent (options : Config.Pipeline) (result : UnitResult) : Prop where
  /-- A script that does not parse neither runs nor succeeds. -/
  broken : result.syntaxValid = false → result.execution = none ∧ result.success = false
  /-- A script whose run failed does not succeed. -/
  failedRun : ∀ execution, result.execution = some execution → execution.success = false →
    result.success = false
  /-- Nothing remains of a script without issues. -/
  clean : result.syntaxValid = true → result.validation.isClean = true →
    result.fixSummary.remainingIssues = 0
  /-- If every issue blocks and nothing is run, a script succeeds that parses and has no issues
  left. -/
  success_iff : options.blockingSeverity = .low → options.execute = false →
    (result.success = true ↔
      result.syntaxValid = true ∧ result.fixSummary.remainingIssues = 0)

section Results

variable (pipeline : Pipeline) {name text : String}

theorem processUnit_remainingIssues (name text : String) :
    (pipeline.processUnit name text).fixSummary.remainingIssues =
      (pipeline.processUnit name text).remaining.total := by
  rcases pipeline.processUnit_cases name text with ⟨opened, -, result⟩ | ⟨ledger, -, result⟩
  · rw [result]
    rfl
  · rw [result]
    rfl

/-- A script that parses and is reported without issues is left as it is. -/
theorem remaining_of_isClean (valid : (pipeline.processUnit name text).syntaxValid = true)
    (clean : (pipeline.processUnit name text).validation.isClean = true) :
    (pipeline.processUnit name text).remaining = ⟨[]⟩ := by
  have agrees := pipeline.processUnit_agrees name text
  have none : (pipeline.processUnit name text).validation.issues = [] := by
    simpa [Report.isClean, Report.total] using clean
  have direct : (pipeline.processUnit name text).recovered = false := by
    by_contra recovered
    obtain ⟨-, diagnostic, -, reported⟩ := agrees.recovered (by simpa using recovered)
    rw [reported] at none
    cases none
  have validated : pipeline.validator.validate (pipeline.script name text) = [] := by
    rw [agrees.validation direct (.inl valid)] at none
    exact none
  have parses : (pipeline.script name text).isValid = true := by
    by_contra broken
    obtain ⟨diagnostic, found⟩ := exists_diagnostic (by simpa using broken)
    rw [pipeline.validate_of_diagnostic found] at validated
    cases validated
  have alone := processUnit_leftAlone parses validated
  rw [agrees.unchanged alone.fixedText, agrees.validation direct (.inl valid), validated]

theorem processUnit_coherent (name text : String) :
    Coherent pipeline.options (pipeline.processUnit name text) where
  broken invalid := by
    refine ⟨execution_of_not_mayRun fun may => ?_, ?_⟩
    · rw [may.syntaxValid] at invalid
      cases invalid
    · simp [processUnit_success, invalid]
  failedRun execution run failed := by
    simp [processUnit_success, run, failed]
  clean valid clean := by
    rw [processUnit_remainingIssues, pipeline.remaining_of_isClean valid clean]
    rfl
  success_iff low manual := by
    have unrun : (pipeline.processUnit name text).execution = none :=
      execution_of_not_mayRun fun may => by
        rw [may.execute] at manual
        cases manual
    rw [processUnit_success_iff, low, Report.blockingCount_low, unrun,
      processUnit_remainingIssues]
    simp

theorem processInput_coherent (input : Input) :
    Coherent pipeline.options (pipeline.processInput input) := by
  cases input with
  | source name text => exact pipeline.processUnit_coherent name text
  | unreadable name reason =>
    exact
      { broken := fun _ => ⟨rfl, rfl⟩
        failedRun := fun _ run => by cases run
        clean := fun valid => by cases valid
        success_iff := fun _ _ => by simp [processInput, UnitResult.unreadable] }

end Results

/-! ## Reports -/

/-- The counts of a report fit together. -/
structure Consistent (options : Config.Pipeline) (report : BatchReport) : Prop where
  /-- Every script succeeds or fails. -/
  overall_attempted : report.overall.attempted = report.total
  /-- Every script parses or does not. -/
  parse_attempted : report.parse.attempted = report.total
  /-- The scripts that parse are validated. -/
  validation_attempted : report.validation.attempted = report.parse.passed
  /-- The scripts with issues are repaired. -/
  fix_attempted : report.fix.attempted = report.validation.failed
  /-- Scripts that do not parse fail, and so do others whose run failed. -/
  failed_le : report.parse.failed + report.execution.failed ≤ report.overall.failed
  /-- Scripts that succeed parse. -/
  passed_le : report.overall.passed ≤ report.parse.passed
  /-- If every issue blocks and nothing is run, the scripts that succeed are those without issues
  and those that were cleared of them. -/
  passed_eq : options.blockingSeverity = .low → options.execute = false →
    report.overall.passed = report.validation.passed + report.fix.passed

namespace Consistent

variable {options : Config.Pipeline}

theorem nil : Consistent options ⟨[]⟩ where
  overall_attempted := rfl
  parse_attempted := rfl
  validation_attempted := rfl
  fix_attempted := rfl
  failed_le := Nat.le_refl 0
  passed_le := Nat.le_refl 0
  passed_eq _ _ := rfl

/-- A report on one script. -/
theorem singleton {result : UnitResult} (coherent : Coherent options result) :
    Consistent options ⟨[result]⟩ := by
  refine ⟨BatchReport.attempted_overall _, BatchReport.attempted_parse _,
    BatchReport.attempted_validation _, BatchReport.attempted_fix _, ?_, ?_, ?_⟩
  · cases valid : result.syntaxValid with
    | false =>
      obtain ⟨unrun, failed⟩ := coherent.broken valid
      simp [BatchReport.parse, BatchReport.execution, BatchReport.overall, StageCounts.tally,
        valid, unrun, failed]
    | true =>
      cases run : result.execution with
      | none =>
        simp [BatchReport.parse, BatchReport.execution, StageCounts.tally, valid, run]
      | some execution =>
        cases succeeded : execution.success with
        | true =>
          simp [BatchReport.parse, BatchReport.execution, StageCounts.tally, valid, run, succeeded]
        | false =>
          have failed := coherent.failedRun execution run succeeded
          simp [BatchReport.parse, BatchReport.execution, BatchReport.overall,
            StageCounts.tally, valid, run, succeeded, failed]
  · cases valid : result.syntaxValid with
    | false =>
      have failed := (coherent.broken valid).2
      simp [BatchReport.overall, BatchReport.parse, StageCounts.tally, failed]
    | true =>
      simpa [BatchReport.overall, BatchReport.parse, StageCounts.tally, valid] using
        List.countP_le_length (p := fun ok => ok) (l := [result.success])
  · intro low manual
    have success := coherent.success_iff low manual
    cases valid : result.syntaxValid with
    | false =>
      have failed := (coherent.broken valid).2
      simp [BatchReport.overall, BatchReport.validation, BatchReport.fix, StageCounts.tally, valid,
        failed]
    | true =>
      rw [valid, eq_self, true_and] at success
      cases clean : result.validation.isClean with
      | true =>
        have succeeded := success.mpr (coherent.clean valid clean)
        simp [BatchReport.overall, BatchReport.validation, BatchReport.fix, StageCounts.tally,
          valid, clean, succeeded]
      | false =>
        simp [BatchReport.overall, BatchReport.validation, BatchReport.fix, StageCounts.tally,
          valid, clean, success]

/-- Reports on two batches that are put together. -/
theorem append {first second : List UnitResult} (front : Consistent options ⟨first⟩)
    (back : Consistent options ⟨second⟩) : Consistent options ⟨first ++ second⟩ := by
  have parse := BatchReport.counts_append first second .parse
  have validation := BatchReport.counts_append first second .validation
  have fix := BatchReport.counts_append first second .fix
  have execution := BatchReport.counts_append first second .execution
  have overall := BatchReport.counts_append first second .overall
  simp only [BatchReport.counts] at parse validation fix execution overall
  refine ⟨BatchReport.attempted_overall _, BatchReport.attempted_parse _,
    BatchReport.attempted_validation _, BatchReport.attempted_fix _, ?_, ?_, ?_⟩
  · have := front.failed_le
    have := back.failed_le
    simp only [parse, execution, overall, StageCounts.failed_add]
    omega
  · have := front.passed_le
    have := back.passed_le
    simp only [parse, overall, StageCounts.passed_add]
    omega
  · intro low manual
    have := front.passed_eq low manual
    have := back.passed_eq low manual
    simp only [validation, fix, overall, StageCounts.passed_add]
    omega

/-- A report on any number of scripts. -/
theorem of_forall {results : List UnitResult}
    (coherent : ∀ result ∈ results, Coherent options result) : Consistent options ⟨results⟩ := by
  induction results with
  | nil => exact nil
  | cons result rest ih =>
    have one : Consistent options ⟨[result]⟩ := singleton (coherent result (by simp))
    have others := ih fun other member => coherent other (List.mem_cons_of_mem _ member)
    exact one.append others

end Consistent

/-! ## Batches -/

/-- **The report of a batch is consistent with its scripts and with itself.** -/
theorem processBatch_consistent (pipeline : Pipeline) (inputs : List Input) :
    let report := pipeline.processBatch inputs
    List.Forall₂ (fun input result => result = pipeline.processInput input) inputs report.results ∧
      report.total = inputs.length ∧
      Consistent pipeline.options report ∧
      (∀ others, inputs.Perm others →
        ∀ stage, (pipeline.processBatch others).counts stage = report.counts stage) ∧
      ∀ more stage, (pipeline.processBatch (inputs ++ more)).counts stage =
        report.counts stage + (pipeline.processBatch more).counts stage := by
  intro report
  refine ⟨?_, ?_, ?_, ?_, ?_⟩
  · exact List.forall₂_map_right_iff.mpr (List.forall₂_same.mpr fun input _ => rfl)
  · simp [report, BatchReport.total, processBatch]
  · refine Consistent.of_forall fun result member => ?_
    obtain ⟨input, -, rfl⟩ := List.mem_map.mp member
    exact pipeline.processInput_coherent input
  · intro others same stage
    exact (BatchReport.counts_perm (same.map pipeline.processInput) stage).symm
  · intro more stage
    rw [processBatch, List.map_append]
    exact BatchReport.counts_append _ _ stage

end StrategyMend.Pipeline
