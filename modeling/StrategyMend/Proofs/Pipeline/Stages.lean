import StrategyMend.Pipeline.Basic

/-!
# What the stages of the pipeline can do

A fix pass changes the text, finds nothing to change, or only proposes. A checked pass keeps the patch
of a fix pass, throws it away, or has none. A script is opened as it is, opened by a repair, or not at
all. Each of these is said once, as a case distinction with everything that the case fixes
(`fixPass_cases`, `checkedPass_cases`, `openScript_cases`, `repair_cases`). The result of a script that
was opened is read off the repair that follows (`repaired`).
-/

set_option autoImplicit false

namespace StrategyMend.Pipeline

open Detection Repair Source

variable (pipeline : Pipeline)

/-! ## Scripts that do not parse -/

theorem exists_diagnostic {script : Script} (broken : script.isValid = false) :
    ∃ diagnostic, script.diagnostic? = some diagnostic := by
  simpa [Script.isValid, Option.isSome_iff_exists] using broken

/-- The issues of a script that does not parse begin with its syntax error. -/
theorem brokenIssues_eq {script : Script} {diagnostic : Diagnostic}
    (found : script.diagnostic? = some diagnostic) :
    pipeline.brokenIssues script =
      syntaxIssue script diagnostic ::
        if pipeline.options.recoverSyntaxErrors then pipeline.validator.validateText script
        else [] := by
  simp [brokenIssues, found]

theorem brokenIssues_ne_nil {script : Script} (broken : script.isValid = false) :
    pipeline.brokenIssues script ≠ [] := by
  obtain ⟨diagnostic, found⟩ := exists_diagnostic broken
  simp [pipeline.brokenIssues_eq found]

/-- A script that does not parse is validated to its syntax error alone. -/
theorem validate_of_diagnostic {script : Script} {diagnostic : Diagnostic}
    (found : script.diagnostic? = some diagnostic) :
    pipeline.validator.validate script = [syntaxIssue script diagnostic] := by
  simp [Validator.validate, found]

/-! ## Passes -/

/-- The patch that a fix pass makes of the proposals for a script. -/
def passPatch (issues : List Issue) (script : Script) : Patch :=
  Patch.apply script.lines (pipeline.generators.generateAll issues script.lines).fixes
    pipeline.options.confidenceThreshold

/-- Only issues lead to a patch that changes something. -/
theorem issues_ne_nil_of_isChanged {issues : List Issue} {script : Script}
    (changed : (pipeline.passPatch issues script).isChanged = true) : issues ≠ [] := by
  rintro rfl
  simp [passPatch, Registry.generateAll, Patch.apply, candidates, select, Patch.isChanged,
    Selection.empty] at changed

/-- **What a fix pass can do.** It applies fixes and gives the new text, it applies none, or it may
not apply any. -/
theorem fixPass_cases (issues : List Issue) (script : Script) (ledger : Ledger) :
    (pipeline.options.autoApply = true ∧
        (pipeline.passPatch issues script).isChanged = true ∧
        pipeline.fixPass issues script ledger =
          (some ((pipeline.passPatch issues script).render script.trailing),
            ledger.record (pipeline.passPatch issues script)
              (pipeline.generators.generateAll issues script.lines).failures)) ∨
      (pipeline.options.autoApply = true ∧
        (pipeline.passPatch issues script).isChanged = false ∧
        pipeline.fixPass issues script ledger =
          (none,
            ledger.record (pipeline.passPatch issues script)
              (pipeline.generators.generateAll issues script.lines).failures)) ∨
      (pipeline.options.autoApply = false ∧
        pipeline.fixPass issues script ledger =
          (none, ledger.propose (pipeline.generators.generateAll issues script.lines))) := by
  cases auto : pipeline.options.autoApply with
  | false => exact .inr (.inr ⟨rfl, by simp [fixPass, auto]⟩)
  | true =>
    cases changed : (pipeline.passPatch issues script).isChanged with
    | false =>
        refine .inr (.inl ⟨rfl, rfl, ?_⟩)
        unfold passPatch at changed ⊢
        simp [fixPass, auto, changed]
    | true =>
        refine .inl ⟨rfl, rfl, ?_⟩
        unfold passPatch at changed ⊢
        simp [fixPass, auto, changed]

/-- **What a checked pass can do.** It keeps the new text of a fix pass, it throws it away, or there
is none. -/
theorem checkedPass_cases (issues : List Issue) (script : Script) (ledger : Ledger) :
    (∃ text after, pipeline.fixPass issues script ledger = (some text, after) ∧
        (pipeline.script script.name text).isValid = true ∧
        pipeline.checkedPass issues script ledger =
          (some (pipeline.script script.name text), after)) ∨
      (∃ text after, pipeline.fixPass issues script ledger = (some text, after) ∧
        (pipeline.script script.name text).isValid = false ∧
        pipeline.checkedPass issues script ledger = (none, after.revokeSince ledger)) ∨
      (∃ after, pipeline.fixPass issues script ledger = (none, after) ∧
        pipeline.checkedPass issues script ledger = (none, after)) := by
  rcases made : pipeline.fixPass issues script ledger with ⟨_ | text, after⟩
  · exact .inr (.inr ⟨after, rfl, by simp [checkedPass, made]⟩)
  · cases valid : (pipeline.script script.name text).isValid with
    | true => exact .inl ⟨text, after, rfl, valid, by simp [checkedPass, made, valid]⟩
    | false => exact .inr (.inl ⟨text, after, rfl, valid, by simp [checkedPass, made, valid]⟩)

/-- What a checked pass keeps is a script of the same name that parses. -/
theorem checkedPass_some {issues : List Issue} {script patched : Script} {ledger after : Ledger}
    (kept : pipeline.checkedPass issues script ledger = (some patched, after)) :
    patched = pipeline.script script.name patched.text ∧ patched.isValid = true := by
  rcases pipeline.checkedPass_cases issues script ledger with
    ⟨text, after', -, valid, result⟩ | ⟨text, after', -, -, result⟩ | ⟨after', -, result⟩
  · rw [result] at kept
    cases kept
    exact ⟨rfl, valid⟩
  · rw [result] at kept
    cases kept
  · rw [result] at kept
    cases kept

/-! ## Opening and repairing -/

/-- To forget everything that was applied once more changes nothing. -/
theorem Ledger.revokeSince_revokeSince_empty (ledger : Ledger) :
    (ledger.revokeSince .empty).revokeSince .empty = ledger.revokeSince .empty := by
  simp [revokeSince, empty]

/-- **What a recovery can do.** It keeps the script that a checked pass keeps, or it has none, and then
the two ledgers differ at most in what was applied. -/
theorem recover_cases (issues : List Issue) (script : Script) :
    (∃ patched after, pipeline.checkedPass issues script .empty = (some patched, after) ∧
        pipeline.recover issues script = (some patched, after)) ∨
      (∃ after after', pipeline.checkedPass issues script .empty = (none, after) ∧
        pipeline.recover issues script = (none, after') ∧
          after'.revokeSince .empty = after.revokeSince .empty) := by
  rcases pipeline.checkedPass_cases issues script .empty with
    ⟨text, after, made, valid, passed⟩ | ⟨text, after, made, broken, passed⟩ | ⟨after, made, passed⟩
  · exact .inl ⟨_, after, passed, by simp [recover, made, valid]⟩
  · refine .inr ⟨_, after, passed, by simp [recover, made, broken], ?_⟩
    exact after.revokeSince_revokeSince_empty.symm
  · exact .inr ⟨after, after, passed, by simp [recover, made], rfl⟩

/-- **How a script can be opened.** It parses; or it does not and is repaired; or the repair fails;
or no repair is asked for. -/
theorem openScript_cases (name text : String) :
    let script := pipeline.script name text
    let issues := pipeline.brokenIssues script
    (script.isValid = true ∧
        pipeline.openScript name text = .ok ⟨script, none, .empty⟩) ∨
      (script.isValid = false ∧ pipeline.options.recoverSyntaxErrors = true ∧
        ∃ patched ledger, pipeline.checkedPass issues script .empty = (some patched, ledger) ∧
          pipeline.openScript name text = .ok ⟨patched, some issues, ledger⟩) ∨
      (script.isValid = false ∧ pipeline.options.recoverSyntaxErrors = true ∧
        ∃ ledger, pipeline.checkedPass issues script .empty = (none, ledger) ∧
          pipeline.openScript name text = .error (issues, ledger.revokeSince .empty)) ∨
      (script.isValid = false ∧ pipeline.options.recoverSyntaxErrors = false ∧
        pipeline.openScript name text = .error (issues, .empty)) := by
  intro script issues
  cases valid : script.isValid with
  | true => exact .inl ⟨rfl, by simp [openScript, script, valid]⟩
  | false =>
    cases recover : pipeline.options.recoverSyntaxErrors with
    | false =>
        exact .inr (.inr (.inr ⟨rfl, rfl, by simp [openScript, script, issues, valid, recover]⟩))
    | true =>
        rcases pipeline.recover_cases issues script with
          ⟨patched, ledger, passed, recovered⟩ | ⟨ledger, ledger', passed, failed, same⟩
        · refine .inr (.inl ⟨rfl, rfl, patched, ledger, passed, ?_⟩)
          simp [openScript, script, valid, recover, recovered, issues]
        · refine .inr (.inr (.inl ⟨rfl, rfl, ledger, passed, ?_⟩))
          simp [openScript, script, valid, recover, failed, same, issues]

/-- **How a script can be repaired.** There is nothing to repair; or a patch is kept; or none is. -/
theorem repair_cases (issues : List Issue) (script : Script) (ledger : Ledger) :
    (issues = [] ∧ pipeline.repair issues script ledger = ⟨script, [], ledger, false⟩) ∨
      (∃ patched after, issues ≠ [] ∧
        pipeline.checkedPass issues script ledger = (some patched, after) ∧
        pipeline.repair issues script ledger =
          ⟨patched, pipeline.validator.validate patched, after, true⟩) ∨
      (∃ after, issues ≠ [] ∧ pipeline.checkedPass issues script ledger = (none, after) ∧
        pipeline.repair issues script ledger = ⟨script, issues, after, false⟩) := by
  by_cases empty : issues = []
  · exact .inl ⟨empty, by simp [repair, empty]⟩
  · rcases passed : pipeline.checkedPass issues script ledger with ⟨_ | patched, after⟩
    · exact .inr (.inr ⟨after, empty, rfl, by simp [repair, empty, passed]⟩)
    · exact .inr (.inl ⟨patched, after, empty, rfl, by simp [repair, empty, passed]⟩)

/-! ## Results of opened scripts -/

/-- The repair that follows when a script was opened. -/
def repaired (opened : Opened) : Repaired :=
  pipeline.repair (pipeline.validator.validate opened.script) opened.script opened.ledger

theorem finish_validation (name : String) (opened : Opened) :
    (pipeline.finish name opened).validation =
      ⟨opened.recoveredFrom.getD (pipeline.validator.validate opened.script)⟩ := rfl

theorem finish_remaining (name : String) (opened : Opened) :
    (pipeline.finish name opened).remaining = ⟨(pipeline.repaired opened).issues⟩ := rfl

/-- There is a text in the end if the script was repaired, then or later. -/
theorem finish_fixedText (name : String) (opened : Opened) :
    (pipeline.finish name opened).fixedText =
      if opened.recoveredFrom.isSome || (pipeline.repaired opened).changed then
        some (pipeline.repaired opened).script.text
      else none := rfl

theorem finish_fixSummary (name : String) (opened : Opened) :
    (pipeline.finish name opened).fixSummary =
      (pipeline.repaired opened).ledger.summary
        (statusOf (pipeline.finish name opened).validation.issues
          (pipeline.repaired opened).ledger opened.recoveredFrom.isSome)
        (pipeline.finish name opened).validation.total
        (pipeline.finish name opened).remaining.total := rfl

end StrategyMend.Pipeline
