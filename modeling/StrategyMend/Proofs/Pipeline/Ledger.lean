import StrategyMend.Proofs.Pipeline.Stages
import StrategyMend.Proofs.Repair.Marks

/-!
# The ledger of fixes

The ledger counts the applied fixes apart from the marks on the fixes themselves. It is balanced when
the count is that of the marks, and every marked fix was allowed to be applied (`Ledger.Balanced`).
Entering the fixes of a patch keeps the balance, and so does forgetting an application: the marks are
taken away and the count goes back to what it was.

Every pass keeps the balance, and changes the script exactly when the count grows (`Advance`). Hence
what the result of a script says about its fixes is consistent (`processUnit_ledgerAgrees`), however
its passes end.
-/

set_option autoImplicit false

namespace StrategyMend.Pipeline

open Number Repair Source

/-! ## Balance -/

/-- The count of applied fixes is that of the marked ones, and those were allowed to be applied. -/
structure Ledger.Balanced (options : Config.Pipeline) (ledger : Ledger) : Prop where
  count : ledger.applied = ledger.fixes.countP Fix.applied
  sure : ∀ fix ∈ ledger.fixes, fix.applied = true →
    options.autoApply = true ∧ fix.isEligible options.confidenceThreshold = true

namespace Ledger.Balanced

variable {options : Config.Pipeline} {ledger mark : Ledger}

theorem empty : Ledger.empty.Balanced options := ⟨rfl, by simp [Ledger.empty]⟩

/-- Fixes without a mark can always be entered. -/
theorem propose (balanced : ledger.Balanced options) {proposals : Proposals}
    (unapplied : ∀ fix ∈ proposals.fixes, fix.applied = false) :
    (ledger.propose proposals).Balanced options where
  count := by
    have unmarked : proposals.fixes.countP Fix.applied = 0 :=
      List.countP_eq_zero.mpr fun fix member => by simp [unapplied fix member]
    simp [Ledger.propose, unmarked, balanced.count]
  sure := by
    intro fix member applied
    rcases List.mem_append.mp member with earlier | proposed
    · exact balanced.sure fix earlier applied
    · rw [unapplied fix proposed] at applied
      cases applied

/-- The fixes of a patch can be entered when it is allowed to apply fixes. -/
theorem record (balanced : ledger.Balanced options) (auto : options.autoApply = true)
    {lines : List String} {fixes : List Fix} (unapplied : ∀ fix ∈ fixes, fix.applied = false)
    (failures : List Failure) :
    (ledger.record (Patch.apply lines fixes options.confidenceThreshold) failures).Balanced
      options where
  count := by
    simp [Ledger.record, balanced.count, countP_applied_apply unapplied]
  sure := by
    intro fix member applied
    rcases List.mem_append.mp member with earlier | patched
    · exact balanced.sure fix earlier applied
    · exact ⟨auto, isEligible_of_applied unapplied patched applied⟩

/-- Forgetting the applications since a balanced state leaves its balance. -/
theorem revokeSince (balanced : mark.Balanced options) {more : List Fix}
    (since : ledger.fixes = mark.fixes ++ more) :
    (ledger.revokeSince mark).Balanced options := by
  have fixes : (ledger.revokeSince mark).fixes =
      mark.fixes ++ more.map fun fix => { fix with applied := false } := by
    simp [Ledger.revokeSince, since]
  constructor
  · have unmarked :
        (more.map fun fix => { fix with applied := false }).countP Fix.applied = 0 := by
      simp [List.countP_eq_zero]
    rw [fixes, List.countP_append, unmarked, ← balanced.count]
    rfl
  · rw [fixes]
    intro fix member applied
    rcases List.mem_append.mp member with earlier | revoked
    · exact balanced.sure fix earlier applied
    · obtain ⟨_, -, rfl⟩ := List.mem_map.mp revoked
      cases applied

/-- When fixes may not be applied, none are. -/
theorem applied_eq_zero (balanced : ledger.Balanced options)
    (manual : options.autoApply = false) : ledger.applied = 0 := by
  rw [balanced.count, List.countP_eq_zero]
  intro fix member applied
  have allowed := (balanced.sure fix member applied).1
  rw [manual] at allowed
  cases allowed

end Ledger.Balanced

/-! ## Passes -/

/-- How a pass moves the ledger: it stays balanced, and the count grows exactly when the pass
changes the script. -/
structure Advance (options : Config.Pipeline) (before after : Ledger) (changed : Bool) : Prop where
  balanced : after.Balanced options
  applied_le : before.applied ≤ after.applied
  changed_iff : changed = true ↔ before.applied < after.applied

/-- The fixes of a pass are entered behind those of the passes before. -/
theorem fixPass_fixes (pipeline : Pipeline) (issues : List Issue) (script : Script)
    (ledger : Ledger) :
    ∃ more, (pipeline.fixPass issues script ledger).2.fixes = ledger.fixes ++ more := by
  rcases pipeline.fixPass_cases issues script ledger with
    ⟨-, -, result⟩ | ⟨-, -, result⟩ | ⟨-, result⟩
  · exact ⟨_, by rw [result]; rfl⟩
  · exact ⟨_, by rw [result]; rfl⟩
  · exact ⟨_, by rw [result]; rfl⟩

section Passes

variable {pipeline : Pipeline} (issues : List Issue) (script : Script) {ledger : Ledger}

theorem fixPass_advance (fresh : pipeline.generators.ProposesUnapplied)
    (balanced : ledger.Balanced pipeline.options) :
    Advance pipeline.options ledger (pipeline.fixPass issues script ledger).2
      (pipeline.fixPass issues script ledger).1.isSome := by
  have unapplied := fresh.generateAll issues script.lines
  rcases pipeline.fixPass_cases issues script ledger with
    ⟨auto, changed, result⟩ | ⟨auto, unchanged, result⟩ | ⟨-, result⟩
  · have positive : 0 < (pipeline.passPatch issues script).appliedCount := by
      simpa [Patch.isChanged, Patch.appliedCount, List.length_pos_iff] using changed
    rw [result]
    exact ⟨balanced.record auto unapplied _, by simp [Ledger.record],
      by simpa [Ledger.record] using positive⟩
  · have zero : (pipeline.passPatch issues script).appliedCount = 0 := by
      simpa [Patch.isChanged, Patch.appliedCount] using unchanged
    rw [result]
    exact ⟨balanced.record auto unapplied _, by simp [Ledger.record],
      by simp [Ledger.record, zero]⟩
  · rw [result]
    exact ⟨balanced.propose unapplied, by simp [Ledger.propose], by simp [Ledger.propose]⟩

theorem checkedPass_advance (fresh : pipeline.generators.ProposesUnapplied)
    (balanced : ledger.Balanced pipeline.options) :
    Advance pipeline.options ledger (pipeline.checkedPass issues script ledger).2
      (pipeline.checkedPass issues script ledger).1.isSome := by
  have advance := fixPass_advance issues script fresh balanced
  obtain ⟨more, since⟩ := pipeline.fixPass_fixes issues script ledger
  rcases pipeline.checkedPass_cases issues script ledger with
    ⟨text, after, made, -, result⟩ | ⟨text, after, made, -, result⟩ | ⟨after, made, result⟩
  · rw [made] at advance
    rw [result]
    exact ⟨advance.balanced, advance.applied_le, advance.changed_iff⟩
  · rw [made] at since
    rw [result]
    exact ⟨balanced.revokeSince since, Nat.le_refl _, by simp [Ledger.revokeSince]⟩
  · rw [made] at advance
    rw [result]
    exact advance

theorem repair_advance (fresh : pipeline.generators.ProposesUnapplied)
    (balanced : ledger.Balanced pipeline.options) :
    Advance pipeline.options ledger (pipeline.repair issues script ledger).ledger
      (pipeline.repair issues script ledger).changed := by
  have advance := checkedPass_advance issues script fresh balanced
  rcases pipeline.repair_cases issues script ledger with
    ⟨-, result⟩ | ⟨patched, after, -, passed, result⟩ | ⟨after, -, passed, result⟩
  · rw [result]
    exact ⟨balanced, Nat.le_refl _, by simp⟩
  · rw [passed] at advance
    rw [result]
    exact advance
  · rw [passed] at advance
    rw [result]
    exact advance

end Passes

/-! ## Results -/

/-- What a result says about the fixes is consistent with the fixes themselves, with the text in the
end and with the reports. -/
structure LedgerAgrees (options : Config.Pipeline) (result : UnitResult) : Prop where
  generated : result.fixSummary.generated = result.fixSummary.fixes.length
  applied : result.fixSummary.applied = result.fixSummary.fixes.countP Fix.applied
  sure : ∀ fix ∈ result.fixSummary.fixes, fix.applied = true →
    fix.kind = .auto ∧ options.confidenceThreshold.le fix.confidence = true
  autoApply : options.autoApply = false → result.fixSummary.applied = 0
  fixedText : result.fixedText.isSome = true ↔ 0 < result.fixSummary.applied
  status : result.fixSummary.status =
    if result.syntaxValid = false then .notFixable
    else if result.validation.isClean = true then .skipped
    else if 0 < result.fixSummary.applied then .applied
    else .proposed
  remaining : result.fixSummary.remainingIssues = result.remaining.total
  delta : result.fixSummary.delta =
    (result.validation.total : Int) - result.fixSummary.remainingIssues

theorem Ledger.Balanced.auto {options : Config.Pipeline} {ledger : Ledger}
    (balanced : ledger.Balanced options) :
    ∀ fix ∈ ledger.fixes, fix.applied = true →
      fix.kind = .auto ∧ options.confidenceThreshold.le fix.confidence = true := by
  intro fix member applied
  obtain ⟨kind, sure, -⟩ := isEligible_iff.mp (balanced.sure fix member applied).2
  exact ⟨kind, sure⟩

/-- A script that does not parse has no applied fixes. -/
theorem notFixable_ledgerAgrees {options : Config.Pipeline} {ledger : Ledger}
    (balanced : ledger.Balanced options) (zero : ledger.applied = 0) (name : String)
    (issues : List Issue) : LedgerAgrees options (notFixable name issues ledger) where
  generated := rfl
  applied := balanced.count
  sure := balanced.auto
  autoApply := balanced.applied_eq_zero
  fixedText := by simp [notFixable, Ledger.summary, zero]
  status := rfl
  remaining := rfl
  delta := rfl

/-- A script that was opened has applied fixes exactly if its repair, then or later, changed it. -/
theorem finish_ledgerAgrees {pipeline : Pipeline}
    (fresh : pipeline.generators.ProposesUnapplied) (name : String) {opened : Opened}
    (balanced : opened.ledger.Balanced pipeline.options)
    (recovered : opened.recoveredFrom.isSome = true ↔ 0 < opened.ledger.applied) :
    LedgerAgrees pipeline.options (pipeline.finish name opened) := by
  have advance : Advance pipeline.options opened.ledger (pipeline.repaired opened).ledger
      (pipeline.repaired opened).changed := repair_advance _ opened.script fresh balanced
  have grown := advance.applied_le
  have changed := advance.changed_iff
  exact
    { generated := rfl
      applied := advance.balanced.count
      sure := advance.balanced.auto
      autoApply := advance.balanced.applied_eq_zero
      fixedText := by
        simp only [finish_fixedText, finish_fixSummary, Ledger.summary, Option.isSome_ite,
          Bool.or_eq_true, recovered, changed]
        omega
      status := by
        simp only [finish_fixSummary, Ledger.summary, statusOf]
        by_cases first : opened.recoveredFrom.isSome = true
        · have before := recovered.mp first
          have positive : 0 < (pipeline.repaired opened).ledger.applied := by omega
          simp [finish, Report.isClean, Report.total, first, positive]
        · simp [finish, Report.isClean, Report.total, first, Nat.pos_iff_ne_zero]
      remaining := rfl
      delta := rfl }

/-- **The ledger never drifts from the fixes**, for any generators that leave the mark of application
to the pipeline. -/
theorem processUnit_ledgerAgrees (pipeline : Pipeline) (name text : String)
    (fresh : pipeline.generators.ProposesUnapplied) :
    LedgerAgrees pipeline.options (pipeline.processUnit name text) := by
  have recovery := checkedPass_advance (pipeline.brokenIssues (pipeline.script name text))
    (pipeline.script name text) fresh .empty
  rcases pipeline.openScript_cases name text with
    ⟨-, result⟩ | ⟨-, -, patched, ledger, passed, result⟩ | ⟨-, -, ledger, passed, result⟩ |
      ⟨-, -, result⟩
  · rw [processUnit, result]
    exact finish_ledgerAgrees fresh name .empty (by simp [Ledger.empty])
  · rw [passed] at recovery
    rw [processUnit, result]
    exact finish_ledgerAgrees fresh name recovery.balanced recovery.changed_iff
  · rw [processUnit, result]
    exact notFixable_ledgerAgrees (Ledger.Balanced.empty.revokeSince rfl) rfl name _
  · rw [processUnit, result]
    exact notFixable_ledgerAgrees .empty rfl name _

/-- With the built-in generators, and a detached `elif` turned into an `if` by the recovery. -/
theorem processUnit_ledgerAgrees_recovered :
    let options := { Config.standard.pipeline with recoverSyntaxErrors := true }
    let pipeline := Pipeline.standard { Config.standard with pipeline := options }
    let text := "elif True:\n    pass\n"
    let result := pipeline.processUnit "s.py" text
    pipeline.generators.ProposesUnapplied ∧ LedgerAgrees options result ∧
      result.recovered = true ∧ result.fixSummary.applied = 1 := by
  intro options pipeline text result
  have fresh : pipeline.generators.ProposesUnapplied := Registry.proposesUnapplied_standard _ _
  refine ⟨fresh, processUnit_ledgerAgrees pipeline "s.py" text fresh, ?_⟩
  decide +kernel

end StrategyMend.Pipeline
