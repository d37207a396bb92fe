import StrategyMend.Proofs.Pipeline.Stages

/-!
# The text in the end and the reports

A result holds the report of the script as given, the report of what remains, and the text in the end if
it was changed. The three always fit together (`ReportsAgree`): what remains is what validation finds in
the text in the end, and a report that nothing changed is the one of the beginning.

The script after its repair is the one with the text in the end, whichever passes were kept, and its
issues are those of its validation (`finish_script`). From this the result agrees with the
text, and a second run begins where the first one ended (`processUnit_reportsAgree`). In particular
a script without remaining issues is left alone by it.

A script whose recovery fails is reported with the issues of its lines as well, and so with more than
validation alone finds in it (`failed_recovery_reports_more`).
-/

set_option autoImplicit false

namespace StrategyMend.Pipeline

open Detection Repair Source

/-! ## Scripts after the stages -/

section Stages

variable (pipeline : Pipeline) (ledger : Ledger) {issues : List Issue} {script : Script}

/-- A repair ends with a script of the same name that parses, and with its issues; without a change
it ends where it began. -/
theorem repair_script (valid : script.isValid = true)
    (read : script = pipeline.script script.name script.text)
    (found : issues = pipeline.validator.validate script) :
    let repaired := pipeline.repair issues script ledger
    repaired.script = pipeline.script script.name repaired.script.text ∧
      repaired.script.isValid = true ∧
      repaired.issues = pipeline.validator.validate repaired.script ∧
      (repaired.changed = false → repaired.script = script) := by
  intro repaired
  rcases pipeline.repair_cases issues script ledger with
    ⟨empty, result⟩ | ⟨patched, after, -, passed, result⟩ | ⟨after, -, -, result⟩
  · rw [show repaired = _ from result]
    exact ⟨read, valid, empty ▸ found, fun _ => rfl⟩
  · obtain ⟨reread, valid'⟩ := pipeline.checkedPass_some passed
    rw [show repaired = _ from result]
    exact ⟨reread, valid', rfl, fun unchanged => by cases unchanged⟩
  · rw [show repaired = _ from result]
    exact ⟨read, valid, found, fun _ => rfl⟩

end Stages

/-- How a script was opened: it parses now, and it is the given one unless it was recovered from the
issues of one that does not parse. -/
structure OpenedFrom (pipeline : Pipeline) (name text : String) (opened : Opened) : Prop where
  read : opened.script = pipeline.script name opened.script.text
  valid : opened.script.isValid = true
  given : opened.recoveredFrom = none → opened.script = pipeline.script name text
  recovered : ∀ issues, opened.recoveredFrom = some issues →
    (pipeline.script name text).isValid = false ∧
      pipeline.options.recoverSyntaxErrors = true ∧
      issues = pipeline.brokenIssues (pipeline.script name text)

/-- A script is opened and goes on, or it does not parse and all there is are its issues. -/
theorem processUnit_cases (pipeline : Pipeline) (name text : String) :
    (∃ opened, OpenedFrom pipeline name text opened ∧
        pipeline.processUnit name text = pipeline.finish name opened) ∨
      (∃ ledger, (pipeline.script name text).isValid = false ∧
        pipeline.processUnit name text =
          notFixable name (pipeline.brokenIssues (pipeline.script name text)) ledger) := by
  rcases pipeline.openScript_cases name text with
    ⟨valid, result⟩ | ⟨broken, recover, patched, ledger, passed, result⟩ |
      ⟨broken, -, ledger, -, result⟩ | ⟨broken, -, result⟩
  · have origin : OpenedFrom pipeline name text ⟨pipeline.script name text, none, .empty⟩ :=
      ⟨rfl, valid, fun _ => rfl, by simp⟩
    exact .inl ⟨_, origin, by rw [processUnit, result]⟩
  · obtain ⟨reread, valid⟩ := pipeline.checkedPass_some passed
    have origin : OpenedFrom pipeline name text
        ⟨patched, some (pipeline.brokenIssues (pipeline.script name text)), ledger⟩ :=
      ⟨reread, valid, by simp, by simp [broken, recover]⟩
    exact .inl ⟨_, origin, by rw [processUnit, result]⟩
  · exact .inr ⟨_, broken, by rw [processUnit, result]⟩
  · exact .inr ⟨_, broken, by rw [processUnit, result]⟩

/-- A script that parses is opened as it is. -/
theorem processUnit_of_isValid {pipeline : Pipeline} {name text : String}
    (valid : (pipeline.script name text).isValid = true) :
    pipeline.processUnit name text =
      pipeline.finish name ⟨pipeline.script name text, none, .empty⟩ := by
  simp [processUnit, openScript, valid]

/-! ## Agreement of the reports -/

/-- The reports of a result fit the text it was made from and the text in the end. -/
structure ReportsAgree (pipeline : Pipeline) (name text : String) (result : UnitResult) : Prop where
  /-- What remains of a script that parses is found in the text in the end, which parses. -/
  remaining : result.syntaxValid = true →
    (pipeline.script name (result.finalText text)).isValid = true ∧
      result.remaining =
        ⟨pipeline.validator.validate (pipeline.script name (result.finalText text))⟩
  /-- Without a change everything remains. -/
  unchanged : result.fixedText = none → result.remaining = result.validation
  /-- A script that was not recovered is reported as validated, unless its recovery failed. -/
  validation : result.recovered = false →
    result.syntaxValid = true ∨ pipeline.options.recoverSyntaxErrors = false →
      result.validation = ⟨pipeline.validator.validate (pipeline.script name text)⟩
  /-- A recovered script did not parse, was changed, and is reported with the issues of its lines. -/
  recovered : result.recovered = true →
    result.fixedText.isSome = true ∧
      ∃ diagnostic, (pipeline.script name text).diagnostic? = some diagnostic ∧
        result.validation =
          ⟨syntaxIssue (pipeline.script name text) diagnostic ::
            pipeline.validator.validateText (pipeline.script name text)⟩
  /-- A script that does not parse is not changed and not run, and everything remains. -/
  broken : result.syntaxValid = false →
    result.fixedText = none ∧ result.execution = none ∧ result.remaining = result.validation
  /-- A script whose recovery failed is reported like one that was recovered. -/
  unrecovered : result.syntaxValid = false → pipeline.options.recoverSyntaxErrors = true →
    ∃ diagnostic, (pipeline.script name text).diagnostic? = some diagnostic ∧
      result.validation =
        ⟨syntaxIssue (pipeline.script name text) diagnostic ::
          pipeline.validator.validateText (pipeline.script name text)⟩

section Agreement

variable {pipeline : Pipeline} {name text : String}

/-- A script is opened under its name. -/
theorem OpenedFrom.name_eq {opened : Opened} (origin : OpenedFrom pipeline name text opened) :
    opened.script.name = name := by
  rw [origin.read]
  rfl

theorem repaired_script {opened : Opened} (origin : OpenedFrom pipeline name text opened) :
    (pipeline.repaired opened).script =
        pipeline.script name (pipeline.repaired opened).script.text ∧
      (pipeline.repaired opened).script.isValid = true ∧
      (pipeline.repaired opened).issues =
        pipeline.validator.validate (pipeline.repaired opened).script ∧
      ((pipeline.repaired opened).changed = false →
        (pipeline.repaired opened).script = opened.script) := by
  have read : opened.script = pipeline.script opened.script.name opened.script.text := by
    rw [origin.name_eq]
    exact origin.read
  have facts := pipeline.repair_script opened.ledger origin.valid read rfl
  rw [origin.name_eq] at facts
  exact facts

/-- When nothing changed, the script was opened as given and its repair left it alone. -/
theorem finish_unchanged {opened : Opened} (origin : OpenedFrom pipeline name text opened)
    (unchanged : (pipeline.finish name opened).fixedText = none) :
    opened.recoveredFrom = none ∧ (pipeline.repaired opened).script = opened.script := by
  obtain ⟨direct, same⟩ :
      opened.recoveredFrom = none ∧ (pipeline.repaired opened).changed = false := by
    simpa [finish_fixedText] using unchanged
  exact ⟨direct, (repaired_script origin).2.2.2 same⟩

/-- The script with the text in the end is the repaired one. -/
theorem finish_script {opened : Opened} (origin : OpenedFrom pipeline name text opened) :
    pipeline.script name ((pipeline.finish name opened).finalText text) =
      (pipeline.repaired opened).script := by
  cases fixed : (pipeline.finish name opened).fixedText with
  | none =>
      obtain ⟨direct, same⟩ := finish_unchanged origin fixed
      rw [UnitResult.finalText, fixed, Option.getD_none, same, origin.given direct]
  | some final =>
      obtain ⟨-, rfl⟩ : _ ∧ (pipeline.repaired opened).script.text = final := by
        simpa [finish_fixedText] using fixed
      rw [UnitResult.finalText, fixed, Option.getD_some]
      exact (repaired_script origin).1.symm

/-- The result for a script that was opened agrees with the text. -/
theorem finish_reportsAgree {opened : Opened} (origin : OpenedFrom pipeline name text opened) :
    ReportsAgree pipeline name text (pipeline.finish name opened) := by
  obtain ⟨-, valid, found, -⟩ := repaired_script origin
  exact
    { remaining := by
        intro
        rw [finish_script origin, ← found]
        exact ⟨valid, rfl⟩
      unchanged := by
        intro unchanged
        obtain ⟨direct, same⟩ := finish_unchanged origin unchanged
        rw [finish_remaining, finish_validation, found, same, direct, Option.getD_none]
      validation := by
        intro unrecovered _
        have direct : opened.recoveredFrom = none := by simpa [finish] using unrecovered
        rw [finish_validation, direct, Option.getD_none, origin.given direct]
      recovered := by
        intro recovered
        obtain ⟨issues, given⟩ : ∃ issues, opened.recoveredFrom = some issues :=
          Option.isSome_iff_exists.mp recovered
        obtain ⟨broken, recover, rfl⟩ := origin.recovered issues given
        obtain ⟨diagnostic, diagnosed⟩ := exists_diagnostic broken
        refine ⟨by simp [finish_fixedText, given], diagnostic, diagnosed, ?_⟩
        simp [finish_validation, given, pipeline.brokenIssues_eq diagnosed, recover]
      broken := by
        intro invalid
        cases invalid
      unrecovered := by
        intro invalid
        cases invalid }

/-- The result for a script that does not parse agrees with the text. -/
theorem notFixable_reportsAgree (broken : (pipeline.script name text).isValid = false)
    (ledger : Ledger) :
    ReportsAgree pipeline name text
      (notFixable name (pipeline.brokenIssues (pipeline.script name text)) ledger) := by
  obtain ⟨diagnostic, found⟩ := exists_diagnostic broken
  exact
    { remaining := by
        intro valid
        cases valid
      unchanged := fun _ => rfl
      validation := by
        intro _ either
        rcases either with valid | recover
        · cases valid
        · simp [notFixable, pipeline.brokenIssues_eq found, pipeline.validate_of_diagnostic found,
            recover]
      recovered := by
        intro recovered
        cases recovered
      broken := fun _ => ⟨rfl, rfl, rfl⟩
      unrecovered := by
        intro _ recover
        refine ⟨diagnostic, found, ?_⟩
        simp [notFixable, pipeline.brokenIssues_eq found, recover] }

theorem processUnit_agrees (pipeline : Pipeline) (name text : String) :
    ReportsAgree pipeline name text (pipeline.processUnit name text) := by
  rcases pipeline.processUnit_cases name text with ⟨opened, origin, result⟩ | ⟨ledger, broken, result⟩
  · rw [result]
    exact finish_reportsAgree origin
  · rw [result]
    exact notFixable_reportsAgree broken ledger

/-- A script that does not parse in the end has issues that remain. -/
theorem processUnit_not_isClean
    (invalid : (pipeline.processUnit name text).syntaxValid = false) :
    (pipeline.processUnit name text).remaining.isClean = false := by
  rcases pipeline.processUnit_cases name text with ⟨opened, -, result⟩ | ⟨ledger, broken, result⟩
  · rw [result] at invalid
    cases invalid
  · rw [result]
    simpa [notFixable, Report.isClean, Report.total] using pipeline.brokenIssues_ne_nil broken

/-! ## Runs on the text in the end -/

/-- Nothing was generated for the script and nothing was changed. -/
structure LeftAlone (result : UnitResult) : Prop where
  fixes : result.fixSummary.fixes = []
  generated : result.fixSummary.generated = 0
  applied : result.fixSummary.applied = 0
  status : result.fixSummary.status = .skipped
  fixedText : result.fixedText = none

/-- A script that parses and has no issues is left alone. -/
theorem processUnit_leftAlone (valid : (pipeline.script name text).isValid = true)
    (clean : pipeline.validator.validate (pipeline.script name text) = []) :
    LeftAlone (pipeline.processUnit name text) := by
  rw [processUnit_of_isValid valid]
  constructor <;> simp [finish, clean, repair, statusOf, Ledger.summary, Ledger.empty]

/-- **The text in the end and the two reports always agree.** A second run on the text in the end
begins with what remained after the first, and leaves the script alone if nothing did. -/
theorem processUnit_reportsAgree (pipeline : Pipeline) (name text : String) :
    let result := pipeline.processUnit name text
    let second := pipeline.processUnit name (result.finalText text)
    ReportsAgree pipeline name text result ∧
      second.validation = result.remaining ∧
      (result.remaining.isClean = true → LeftAlone second) := by
  intro result second
  have agrees : ReportsAgree pipeline name text result := pipeline.processUnit_agrees name text
  refine ⟨agrees, ?_⟩
  cases parses : result.syntaxValid with
  | true =>
      obtain ⟨valid, remaining⟩ := agrees.remaining parses
      have direct : second = _ := processUnit_of_isValid valid
      refine ⟨?_, fun clean => processUnit_leftAlone valid ?_⟩
      · rw [direct, remaining]
        rfl
      · simpa [remaining, Report.isClean, Report.total] using clean
  | false =>
      -- the text is the given one, and both runs are the same
      obtain ⟨unchanged, -, remaining⟩ := agrees.broken parses
      have same : second = result := by
        simp only [second, UnitResult.finalText, unchanged, Option.getD_none, result]
      refine ⟨by rw [same, remaining], fun clean => ?_⟩
      have blocked : result.remaining.isClean = false := processUnit_not_isClean parses
      rw [blocked] at clean
      cases clean

end Agreement

/-- When the recovery only proposes its fixes, a detached `elif` is reported with the syntax error. -/
theorem failed_recovery_reports_more :
    let options := { Config.standard.pipeline with recoverSyntaxErrors := true, autoApply := false }
    let pipeline := Pipeline.standard { Config.standard with pipeline := options }
    let text := "def init(self):\n    self.x = 1\n    elif self.x > 0:\n        pass\n"
    let result := pipeline.processUnit "s.py" text
    result.recovered = false ∧
      result.validation ≠ ⟨pipeline.validator.validate (pipeline.script "s.py" text)⟩ := by
  decide +kernel

end StrategyMend.Pipeline
