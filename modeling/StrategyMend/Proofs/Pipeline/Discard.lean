import StrategyMend.Proofs.Pipeline.Ledger
import StrategyMend.Proofs.Pipeline.Reports

/-!
# Patches that are thrown away

A patch that does not parse is thrown away, by the repair of a script that parses or by the recovery
of one that does not (`Discards`). The ledger then forgets the application, and what it holds is what
it would hold had the fixes only been proposed, except for the conflicts between the fixes
(`revokeSince_record`).

So the result is the one of a run that may not apply fixes, with the conflicts of the discarded patch
in place of none. The two results are the same exactly if the patch had no conflicts
(`processUnit_of_discards`). A strategy class with a decorator is reported twice, so its fixes do
have one (`discarded_conflict_remains`).
-/

set_option autoImplicit false

namespace StrategyMend.Pipeline

open Detection Repair Source

/-! ## Forgetting an application -/

/-- Without their marks the fixes of a patch are those it was made from. -/
theorem fixes_apply_unmarked {lines : List String} {fixes : List Fix} {threshold : Number.Binary64}
    (unapplied : ∀ fix ∈ fixes, fix.applied = false) :
    ((Patch.apply lines fixes threshold).fixes.map fun fix => { fix with applied := false }) =
      fixes := by
  refine List.ext_getElem? fun place => ?_
  have marked : (Patch.apply lines fixes threshold).fixes[place]? = _ :=
    getElem?_markApplied fixes (Patch.apply lines fixes threshold).applied place
  rw [List.getElem?_map, marked, Option.map_map]
  cases here : fixes[place]? with
  | none => rfl
  | some fix =>
    have fresh := unapplied fix (List.mem_of_getElem? here)
    simp [← fresh]

/-- The ledger with the given conflicts in place of its own. -/
def Ledger.withConflicts (conflicts : List Conflict) (ledger : Ledger) : Ledger :=
  { ledger with conflicts }

/-- A ledger that forgets the application of a patch holds its fixes as proposals, and its
conflicts. -/
theorem revokeSince_record {lines : List String} {proposals : Proposals}
    {threshold : Number.Binary64} (unapplied : ∀ fix ∈ proposals.fixes, fix.applied = false) :
    let patch := Patch.apply lines proposals.fixes threshold
    (Ledger.empty.record patch proposals.failures).revokeSince .empty =
      (Ledger.empty.propose proposals).withConflicts patch.conflicts := by
  intro patch
  simp [Ledger.revokeSince, Ledger.record, Ledger.propose, Ledger.withConflicts, Ledger.empty,
    patch, fixes_apply_unmarked unapplied]

/-- Proposals that are not applied are kept when a ledger forgets every application. -/
theorem revokeSince_propose {proposals : Proposals}
    (unapplied : ∀ fix ∈ proposals.fixes, fix.applied = false) (conflicts : List Conflict) :
    ((Ledger.empty.propose proposals).withConflicts conflicts).revokeSince .empty =
      (Ledger.empty.propose proposals).withConflicts conflicts := by
  have same (fix : Fix) (member : fix ∈ proposals.fixes) : { fix with applied := false } = fix := by
    simp [← unapplied fix member]
  have unmarked : (proposals.fixes.map fun fix => { fix with applied := false }) = proposals.fixes :=
    (List.map_congr_left same).trans (List.map_id _)
  simp [Ledger.revokeSince, Ledger.propose, Ledger.withConflicts, Ledger.empty, unmarked]

/-! ## Discarded patches -/

/-- The pipeline that proposes the same fixes and applies none of them. -/
def proposing (pipeline : Pipeline) : Pipeline :=
  { pipeline with options := { pipeline.options with autoApply := false } }

/-- A fix pass over a script changes it to one that does not parse. -/
structure Spoils (pipeline : Pipeline) (issues : List Issue) (script : Script) : Prop where
  autoApply : pipeline.options.autoApply = true
  changed : (pipeline.passPatch issues script).isChanged = true
  broken : (pipeline.script script.name
    ((pipeline.passPatch issues script).render script.trailing)).isValid = false

/-- The patch is thrown away when the script with the given name and text is processed. -/
inductive Discards (pipeline : Pipeline) (name text : String) : Patch → Prop where
  /-- The script parses, and the patch is that of its repair. -/
  | repair (valid : (pipeline.script name text).isValid = true)
      (spoils : pipeline.Spoils (pipeline.validator.validate (pipeline.script name text))
        (pipeline.script name text)) :
      Discards pipeline name text
        (pipeline.passPatch (pipeline.validator.validate (pipeline.script name text))
          (pipeline.script name text))
  /-- The script does not parse, and the patch is that of its recovery. -/
  | recovery (invalid : (pipeline.script name text).isValid = false)
      (recover : pipeline.options.recoverSyntaxErrors = true)
      (spoils : pipeline.Spoils (pipeline.brokenIssues (pipeline.script name text))
        (pipeline.script name text)) :
      Discards pipeline name text
        (pipeline.passPatch (pipeline.brokenIssues (pipeline.script name text))
          (pipeline.script name text))

section Passes

variable {pipeline : Pipeline} {issues : List Issue} {script : Script}

/-- A pass whose patch is thrown away leaves its proposals and the conflicts of the patch. -/
theorem Spoils.checkedPass (spoils : pipeline.Spoils issues script)
    (fresh : pipeline.generators.ProposesUnapplied) :
    pipeline.checkedPass issues script .empty =
      (none, (Ledger.empty.propose (pipeline.generators.generateAll issues script.lines)).withConflicts
        (pipeline.passPatch issues script).conflicts) := by
  have forgotten : (Ledger.empty.record (pipeline.passPatch issues script)
      (pipeline.generators.generateAll issues script.lines).failures).revokeSince .empty = _ :=
    revokeSince_record (fresh.generateAll issues script.lines)
  rcases pipeline.fixPass_cases issues script .empty with
    ⟨-, -, made⟩ | ⟨-, unchanged, -⟩ | ⟨manual, -⟩
  · simp only [Pipeline.checkedPass, made, spoils.broken, forgotten]
    rfl
  · rw [spoils.changed] at unchanged
    cases unchanged
  · rw [spoils.autoApply] at manual
    cases manual

/-- Without issues there is no patch to throw away. -/
theorem Spoils.issues_ne_nil (spoils : pipeline.Spoils issues script) : issues ≠ [] :=
  pipeline.issues_ne_nil_of_isChanged spoils.changed

/-- A pass that may not apply fixes leaves its proposals. -/
theorem checkedPass_proposing (pipeline : Pipeline) (issues : List Issue) (script : Script)
    (ledger : Ledger) :
    pipeline.proposing.checkedPass issues script ledger =
      (none, ledger.propose (pipeline.generators.generateAll issues script.lines)) := by
  simp [Pipeline.checkedPass, fixPass, proposing]

end Passes

/-! ## Results -/

/-- A script keeps its issues when no patch of its repair is kept. -/
theorem repair_of_checkedPass_none {pipeline : Pipeline} {issues : List Issue} {script : Script}
    {ledger after : Ledger} (some : issues ≠ [])
    (passed : pipeline.checkedPass issues script ledger = (none, after)) :
    pipeline.repair issues script ledger = ⟨script, issues, after, false⟩ := by
  rcases pipeline.repair_cases issues script ledger with
    ⟨none, -⟩ | ⟨patched, _, -, passed', -⟩ | ⟨after', -, passed', result⟩
  · exact absurd none some
  · rw [passed] at passed'
    cases passed'
  · rw [passed] at passed'
    cases passed'
    exact result

/-- The result for a script that does not parse and whose recovery fails. -/
theorem processUnit_of_failed_recovery {pipeline : Pipeline} {name text : String} {after : Ledger}
    (invalid : (pipeline.script name text).isValid = false)
    (recover : pipeline.options.recoverSyntaxErrors = true)
    (passed : pipeline.checkedPass (pipeline.brokenIssues (pipeline.script name text))
      (pipeline.script name text) .empty = (none, after))
    (forgotten : after.revokeSince .empty = after) :
    pipeline.processUnit name text =
      notFixable name (pipeline.brokenIssues (pipeline.script name text)) after := by
  rcases pipeline.openScript_cases name text with
    ⟨valid, -⟩ | ⟨-, -, patched, ledger, passed', -⟩ | ⟨-, -, ledger, passed', result⟩ | ⟨-, manual, -⟩
  · rw [invalid] at valid
    cases valid
  · rw [passed] at passed'
    cases passed'
  · rw [passed] at passed'
    cases passed'
    rw [processUnit, result, forgotten]
  · rw [recover] at manual
    cases manual

/-- The result with the given conflicts in place of its own. -/
def withConflicts (conflicts : List Conflict) (result : UnitResult) : UnitResult :=
  { result with fixSummary := { result.fixSummary with conflicts } }

variable {pipeline : Pipeline} {name text : String} {patch : Patch}

/-- **A discarded patch leaves its conflicts and nothing else**: the result is that of the run which
only proposes fixes, with the conflicts of the patch. -/
theorem Discards.processUnit_eq (discards : Discards pipeline name text patch)
    (fresh : pipeline.generators.ProposesUnapplied) :
    pipeline.processUnit name text =
      withConflicts patch.conflicts (pipeline.proposing.processUnit name text) := by
  cases discards with
  | repair valid spoils =>
    have valid' : (pipeline.proposing.script name text).isValid = true := valid
    have kept := repair_of_checkedPass_none spoils.issues_ne_nil (spoils.checkedPass fresh)
    have proposed := repair_of_checkedPass_none spoils.issues_ne_nil
      (pipeline.checkedPass_proposing _ (pipeline.script name text) .empty)
    have same : pipeline.proposing.validator = pipeline.validator := rfl
    rw [processUnit_of_isValid valid, processUnit_of_isValid valid']
    simp only [finish, same, kept]
    rw [show pipeline.proposing.script name text = pipeline.script name text from rfl, proposed]
    rfl
  | recovery invalid recover spoils =>
    have invalid' : (pipeline.proposing.script name text).isValid = false := invalid
    have unapplied := fresh.generateAll (pipeline.brokenIssues (pipeline.script name text))
      (pipeline.script name text).lines
    rw [processUnit_of_failed_recovery invalid recover (spoils.checkedPass fresh)
        (revokeSince_propose unapplied _),
      processUnit_of_failed_recovery invalid' recover (pipeline.checkedPass_proposing _ _ _)
        (revokeSince_propose unapplied [])]
    rfl

/-- A run that only proposes fixes has no conflicts. -/
theorem conflicts_processUnit_proposing (pipeline : Pipeline) (name text : String) :
    (pipeline.proposing.processUnit name text).fixSummary.conflicts = [] := by
  have proposed := pipeline.checkedPass_proposing
  rcases pipeline.proposing.openScript_cases name text with
    ⟨-, result⟩ | ⟨-, -, patched, ledger, passed, result⟩ | ⟨-, -, ledger, passed, result⟩ |
      ⟨-, -, result⟩
  · rw [processUnit, result, finish_fixSummary]
    rcases pipeline.proposing.repair_cases
        (pipeline.proposing.validator.validate (pipeline.proposing.script name text))
        (pipeline.proposing.script name text) .empty with
      ⟨-, repaired⟩ | ⟨patched, after, -, passed, -⟩ | ⟨after, -, passed, repaired⟩
    · rw [Pipeline.repaired, repaired]
      rfl
    · rw [proposed] at passed
      cases passed
    · rw [proposed] at passed
      cases passed
      rw [Pipeline.repaired, repaired]
      rfl
  · rw [proposed] at passed
    cases passed
  · rw [proposed] at passed
    cases passed
    rw [processUnit, result]
    rfl
  · rw [processUnit, result]
    rfl

/-- **A discarded patch leaves no trace but its conflicts.** The result is that of the run which only
proposes fixes exactly if no two of the fixes were in conflict. -/
theorem processUnit_of_discards (fresh : pipeline.generators.ProposesUnapplied)
    (discards : Discards pipeline name text patch) :
    pipeline.processUnit name text =
        withConflicts patch.conflicts (pipeline.proposing.processUnit name text) ∧
      (pipeline.processUnit name text = pipeline.proposing.processUnit name text ↔
        patch.conflicts = []) := by
  have result := discards.processUnit_eq fresh
  have none := pipeline.conflicts_processUnit_proposing name text
  refine ⟨result, fun same => ?_, fun free => ?_⟩
  · have conflicts := congrArg (fun result => result.fixSummary.conflicts) same
    rw [result] at conflicts
    exact conflicts.trans none
  · rw [result, free, ← none]
    rfl

/-- A recovery that is thrown away, because a bracket stays open, without a conflict. -/
theorem processUnit_of_discards_recovery :
    let options := { Config.standard.pipeline with recoverSyntaxErrors := true }
    let pipeline := Pipeline.standard { Config.standard with pipeline := options }
    let text := "elif True:\n    x = (\n"
    ∃ patch, pipeline.generators.ProposesUnapplied ∧ Discards pipeline "s.py" text patch ∧
      patch.conflicts = [] ∧
      pipeline.processUnit "s.py" text = pipeline.proposing.processUnit "s.py" text := by
  intro options pipeline text
  have fresh : pipeline.generators.ProposesUnapplied := Registry.proposesUnapplied_standard _ _
  have discards : Discards pipeline "s.py" text _ :=
    .recovery (by decide +kernel) rfl ⟨rfl, by decide +kernel, by decide +kernel⟩
  have free : (pipeline.passPatch (pipeline.brokenIssues (pipeline.script "s.py" text))
      (pipeline.script "s.py" text)).conflicts = [] := by
    decide +kernel
  exact ⟨_, fresh, discards, free, (processUnit_of_discards fresh discards).2.mpr free⟩

/-- The class has a decorator, so the same statement is inserted twice. The inserted statement does not
parse, and the conflict of the two insertions is reported although nothing was inserted. -/
theorem discarded_conflict_remains :
    let fixer := { Config.standard.fixer with fieldInitStatements := ["("] }
    let pipeline := Pipeline.standard { Config.standard with fixer }
    let text := "@reg\nclass S(Strategy):\n  def __init__(self):\n    0\n"
    (∃ patch, Discards pipeline "s.py" text patch) ∧
      pipeline.processUnit "s.py" text ≠ pipeline.proposing.processUnit "s.py" text := by
  intro fixer pipeline text
  let script := pipeline.script "s.py" text
  let issues := pipeline.validator.validate script
  have ordered : (eligible (pipeline.generators.generateAll issues script.lines).fixes
        pipeline.options.confidenceThreshold).Pairwise (fun a b => a.precedes b = true) ∧
      (select script.lines.length (eligible (pipeline.generators.generateAll issues script.lines).fixes
        pipeline.options.confidenceThreshold)).accepted.Pairwise
          (fun a b => a.appliesBefore b = true) := by
    decide +kernel
  have patched : pipeline.passPatch issues script = _ := apply_of_pairwise ordered.1 ordered.2
  have outcome : (pipeline.passPatch issues script).isChanged = true ∧
      (pipeline.script script.name
        ((pipeline.passPatch issues script).render script.trailing)).isValid = false ∧
      (pipeline.passPatch issues script).conflicts ≠ [] := by
    rw [patched]
    decide +kernel
  obtain ⟨changed, broken, conflicts⟩ := outcome
  have discards : Discards pipeline "s.py" text (pipeline.passPatch issues script) :=
    .repair (by decide +kernel) ⟨rfl, changed, broken⟩
  refine ⟨⟨_, discards⟩, fun same => conflicts ?_⟩
  have result := discards.processUnit_eq (Registry.proposesUnapplied_standard _ _)
  have free := pipeline.conflicts_processUnit_proposing "s.py" text
  rwa [← same, result] at free

end StrategyMend.Pipeline
