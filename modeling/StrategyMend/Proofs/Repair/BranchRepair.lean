import StrategyMend.Detection.Branches
import StrategyMend.Proofs.Repair.Marks
import StrategyMend.Proofs.Repair.Mending
import StrategyMend.Proofs.Text.Cutting
import StrategyMend.Proofs.Text.Pieces

/-!
# The fixes for the branches of a script

Every fix that is made without a review for an issue with a branch repairs a stray branch
(`mending_of_isEligible`). So the patch of these fixes leaves as many stray branches less as it
applies fixes, and never takes its opener from a branch that had one (`apply_branchFixes`).
-/

set_option autoImplicit false

namespace StrategyMend.Repair

open Detection Number Source Text

/-- The issues with the branches of a script, found by its lines alone. -/
def branchIssues (config : Config) (script : Script) : List Issue :=
  (Detection.orphanedBranch.detect ⟨script, config.validator⟩).getD [] ++
    (indentationMismatch.detect ⟨script, config.validator⟩).getD []

/-- The fixes that the built-in generators propose for these issues. -/
def branchFixes (config : Config) (script : Script) : List Fix :=
  ((Registry.standard config.fixer config.validator).generateAll (branchIssues config script)
    script.lines).fixes

section Issues

variable {config : Config} {script : Script} {issue : Issue}

/-- An issue with a branch is about a stray one, by its line and by its category. -/
theorem stray_of_mem_branchIssues (member : issue ∈ branchIssues config script) :
    issue.line = issue.lineIndex + 1 ∧
      isStrayAt (markLines script.lines) config.validator.branchScanWindow issue.lineIndex = true ∧
      issue.category ∈
        [Category.orphanedBranch, .methodBoundaryConfusion, .indentationMismatch] := by
  have stray {branch : Branch}
      (listed : branch ∈ scriptBranches ⟨script, config.validator⟩)
      (unaligned : branch.isAligned = false) :
      isStrayAt (markLines script.lines) config.validator.branchScanWindow branch.index = true :=
    isStrayAt_iff.mpr ⟨branch, branchAt_of_mem_branches listed, unaligned⟩
  rcases List.mem_append.mp member with member | member
  · obtain ⟨⟨index, kind, found⟩, listed, reported⟩ := List.mem_filterMap.mp member
    cases found with
    | orphaned =>
      cases reported
      exact ⟨rfl, stray listed rfl, by simp [issueAt]⟩
    | crossMethod opener boundary =>
      cases reported
      exact ⟨rfl, stray listed rfl, by simp [issueAt]⟩
    | aligned opener => cases reported
    | misaligned opener indent => cases reported
  · obtain ⟨⟨index, kind, found⟩, listed, reported⟩ := List.mem_filterMap.mp member
    cases found with
    | misaligned opener indent =>
      cases reported
      exact ⟨rfl, stray listed rfl, by simp [issueAt]⟩
    | orphaned => cases reported
    | crossMethod opener boundary => cases reported
    | aligned opener => cases reported

end Issues

/-! ## What is proposed -/

section Fixes

variable {config : Config.Fixer} {issue : Issue} {lines : List String} {header : String} {fix : Fix}

/-- What an edit is that the generator of detached branches makes without a review. -/
inductive BranchEdit (issue : Issue) (lines : List String) (header : String) (fix : Fix) : Prop where
  /-- The header becomes that of an `if`. -/
  | standalone {standalone : String} (classified : classify header = some .elseIf)
      (rewritten : elseIfAsIf? header = some standalone) (endLine : fix.endLine = issue.line)
      (removed : fix.removed = unlines (span lines issue.lineIndex issue.lineIndex))
      (replacement : fix.replacement = unlines [standalone])
  /-- The block is deleted. -/
  | deleted (classified : classify header = some .otherwise)
      (idle : isTrivialElse lines issue.lineIndex (blockEnd lines issue.lineIndex) = true)
      (endLine : fix.endLine = blockEnd lines issue.lineIndex + 1)
      (removed : fix.removed =
        unlines (span lines issue.lineIndex (blockEnd lines issue.lineIndex)))
      (replacement : fix.replacement = "")

theorem branchEdit_of_orphanFix? (made : orphanFix? config issue lines header = some fix)
    (auto : fix.kind = .auto) : fix.line = issue.line ∧ BranchEdit issue lines header fix := by
  unfold orphanFix? at made
  split at made
  · cases made
  · next classified =>
    obtain ⟨standalone, rewritten, rfl⟩ := Option.map_eq_some_iff.mp made
    exact ⟨rfl, .standalone classified rewritten rfl rfl rfl⟩
  · next classified =>
    dsimp only at made
    split at made
    · next idle =>
      cases made
      exact ⟨rfl, .deleted classified idle rfl rfl rfl⟩
    · cases made
      simp [Fix.classified, Fix.explained] at auto

/-- Only the generator of detached branches makes fixes without a review for issues with branches. -/
theorem exists_branchEdit {validator : Config.Validator} {generator : Generator}
    (member : generator ∈ builtin config validator)
    (category : issue.category ∈
      [Category.orphanedBranch, .methodBoundaryConfusion, .indentationMismatch])
    (claims : generator.claims issue lines = true)
    (proposed : generator.generate issue lines = .proposed fix) (auto : fix.kind = .auto) :
    fix.line = issue.line ∧ ∃ header, lines[issue.lineIndex]? = some header ∧
      BranchEdit issue lines header fix := by
  have elsewhere {other : Category} (only : (issue.category == other) = true)
      (absent : other ∉ [Category.orphanedBranch, .methodBoundaryConfusion, .indentationMismatch]) :
      False := absent (eq_of_beq only ▸ category)
  simp only [builtin, List.mem_cons, List.not_mem_nil, or_false] at member
  rcases member with rfl | rfl | rfl | rfl | rfl | rfl
  · simp only [callbackRelocation] at proposed
    split at proposed
    · cases proposed
      simp [Fix.classified, Fix.explained] at auto
    · cases proposed
  · obtain ⟨header, here, made⟩ :=
      Option.bind_eq_some_iff.mp (Attempt.ofOption_eq_proposed.mp proposed)
    obtain ⟨line, edit⟩ := branchEdit_of_orphanFix? made auto
    exact ⟨line, header, here, edit⟩
  · have made := Attempt.ofOption_eq_proposed.mp proposed
    unfold realignFix? at made
    dsimp only at made
    split at made
    · obtain ⟨_, -, made⟩ := Option.bind_eq_some_iff.mp made
      obtain ⟨_, -, made⟩ := Option.bind_eq_some_iff.mp made
      cases made
      simp [Fix.classified, Fix.explained] at auto
    · cases made
  · exact (elsewhere claims (by decide)).elim
  · exact (elsewhere claims (by decide)).elim
  · exact (elsewhere claims (by decide)).elim

/-- A block is its header and the lines behind it. -/
theorem span_eq_cons {index last : Nat} (here : lines[index]? = some header)
    (upTo : index ≤ last) : span lines index last = header :: span lines (index + 1) last := by
  obtain ⟨inside, rfl⟩ := List.getElem?_eq_some_iff.mp here
  have more : last + 1 - index = last + 1 - (index + 1) + 1 := by omega
  rw [span, span, more, List.drop_eq_getElem_cons inside, List.take_succ_cons]

end Fixes

/-! ## What is repaired -/

theorem reach_of_removed {fix : Fix} (removed : fix.removed ≠ "") : fix.reach = fix.endLine := by
  rw [Fix.reach, Fix.isInsert_eq_decide, decide_eq_false removed, if_neg (by simp)]

/-- An edit that the generator of detached branches makes repairs the branch. -/
theorem BranchEdit.mending {window : Nat} {issue : Issue} {lines : List String} {header : String}
    {fix : Fix} (edit : BranchEdit issue lines header fix) (line : fix.line = issue.line)
    (place : issue.line = issue.lineIndex + 1) (here : lines[issue.lineIndex]? = some header)
    (newlineFree : ∀ line ∈ lines, '\n' ∉ line.toList)
    (stray : isStrayAt (markLines lines) window issue.lineIndex = true)
    (changes : fix.editKind ≠ .noChange) : Mending window lines fix := by
  have start : fix.line - 1 = issue.lineIndex := by omega
  obtain ⟨inside, -⟩ := List.getElem?_eq_some_iff.mp here
  obtain ⟨branch, found, -⟩ := isStrayAt_iff.mp stray
  obtain ⟨marked, markedHere, statement, begins, -⟩ := exists_of_branchAt_eq found
  obtain rfl : marked = ⟨header, true⟩ := by
    have text := map_text_getElem?_markLines lines issue.lineIndex
    rw [markedHere, here] at text
    rw [MarkedLine.isStatement, Bool.and_eq_true] at statement
    cases marked
    simp_all
  have closed := afterLines_of_starts markedHere rfl
  have solid : header.toList ≠ [] := by
    intro empty
    obtain ⟨rest, text⟩ := exists_of_classify begins
    rw [empty] at text
    cases text
  cases edit with
  | @standalone standalone classified rewritten endLine removed replacement =>
    have own := standalone_of_elseIfAsIf? classified rewritten
    have block := span_eq_cons here (Nat.le_refl _)
    have reach : fix.reach = issue.lineIndex + 1 := by
      rw [reach_of_removed (by rw [removed, block]; exact unlines_cons_ne_empty solid _), endLine,
        place]
    have lines' : fix.replacementLines = [standalone] := by
      have free := own.oneLine (newlineFree header (List.mem_of_getElem? here))
      rw [Fix.replacementLines, replacement,
        if_neg (unlines_cons_ne_empty own.toList_ne_nil _), pieces_unlines (by simpa using free) (by simp)]
    have only : ((markLines lines).take (issue.lineIndex + 1)).drop issue.lineIndex =
        [⟨header, true⟩] := by
      rw [List.take_add_one, markedHere, List.drop_append_of_le_length (by simp; omega)]
      simp
    refine ⟨changes, by omega, by omega, by rwa [start], ?_, .inr ?_⟩
    · rw [reach, start, only, lines']
      exact own.mends statement
    · rw [reach, lines', List.take_add_one, here, Carry.afterLines_append, closed]
      exact own.open_.symm
  | deleted classified idle endLine removed replacement =>
    obtain ⟨after, upTo, -⟩ := blockEnd_spec inside
    have block := span_eq_cons here after
    have reach : fix.reach = blockEnd lines issue.lineIndex + 1 := by
      rw [reach_of_removed (by rw [removed, block]; exact unlines_cons_ne_empty solid _), endLine]
    have lines' : fix.replacementLines = [] := by
      rw [Fix.replacementLines, if_pos replacement]
    have first : ((markLines lines).take (blockEnd lines issue.lineIndex + 1)).drop
        issue.lineIndex ≠ [] := by
      rw [← List.length_pos_iff, List.length_drop, List.length_take, length_markLines]
      omega
    obtain ⟨head, body, cons⟩ := List.exists_cons_of_ne_nil first
    refine ⟨changes, by omega, by omega, by rwa [start], ?_, ?_⟩
    · rw [reach, start, lines', cons]
      refine .removed fun line member statement kind => ?_
      rw [← cons] at member
      exact accepts_eq_false_of_isTrivialElse here classified idle member statement kind
    · rw [reach, lines']
      exact afterLines_blockEnd inside

/-- A fix that is made without a review for an issue with a branch repairs a stray branch. -/
theorem mending_of_isEligible {config : Config} {script : Script} {threshold : Binary64} {fix : Fix}
    (newlineFree : ∀ line ∈ script.lines, '\n' ∉ line.toList)
    (member : fix ∈ branchFixes config script) (eligible : fix.isEligible threshold = true) :
    Mending config.validator.branchScanWindow script.lines fix := by
  obtain ⟨issue, reported, made⟩ := Registry.mem_fixes_generateAll member
  obtain ⟨place, stray, category⟩ := stray_of_mem_branchIssues reported
  obtain ⟨generator, builtin, claims, proposed, asked, rfl⟩ := Registry.exists_of_generate made
  rw [Registry.generators_standard] at builtin
  simp only [Fix.isEligible, Bool.and_eq_true, decide_eq_true_eq] at eligible
  obtain ⟨⟨auto, -⟩, changes⟩ := eligible
  obtain ⟨line, header, here, edit⟩ := exists_branchEdit builtin category claims asked auto
  have mending := edit.mending line place here newlineFree stray changes
  exact { mending with }

/-! ## Texts with given lines -/

/-- Any lines without newlines are the lines of some script. -/
theorem exists_script_lines_eq {lines : List String}
    (newlineFree : ∀ line ∈ lines, '\n' ∉ line.toList) :
    ∃ script : Script, script.lines = lines := by
  have split : lineChars (lines.flatMap fun line => line.toList ++ ['\r', '\n']) =
      lines.map String.toList := by
    induction lines with
    | nil => rfl
    | cons line rest ih =>
      have free := newlineFree line (by simp)
      have within := ih fun other member => newlineFree other (List.mem_cons_of_mem line member)
      rw [List.flatMap_cons, List.append_assoc, List.map_cons, ← within]
      exact lineChars_append_crlf free _
  refine ⟨.ofText "" (String.ofList (lines.flatMap fun line => line.toList ++ ['\r', '\n'])), ?_⟩
  rw [Script.lines, Script.ofText, splitLines, String.toList_ofList, split, List.map_map]
  simp [Function.comp_def]

/-! ## The patch -/

/-- **Repairing branches makes progress and breaks no good branch.** Each applied fix leaves a stray
branch less, and a branch that is aligned with its opener stays so where the two have gone. -/
theorem apply_branchFixes (config : Config) (threshold : Binary64) (lines : List String)
    (newlineFree : ∀ line ∈ lines, '\n' ∉ line.toList) :
    (∃ script : Script, script.lines = lines) ∧
      ∀ script : Script, script.lines = lines →
        let window := config.validator.branchScanWindow
        let fixes := branchFixes config script
        let patch := Patch.apply lines fixes threshold
        let applied := patch.applied.filterMap fun place => fixes[place]?
        strayCount patch.lines window + patch.appliedCount ≤ strayCount lines window ∧
          ∀ index, (∀ fix ∈ applied, fix.covers (index + 1) = false) →
            patch.lines[newIndex applied index]? = lines[index]? ∧
              ∀ kind opener,
                matchAt lines window index = some ⟨index, kind, .aligned opener⟩ →
                  matchAt patch.lines window (newIndex applied index) =
                    some ⟨newIndex applied index, kind, .aligned (newIndex applied opener)⟩ := by
  refine ⟨exists_script_lines_eq newlineFree, ?_⟩
  rintro script rfl window fixes patch applied
  have made : applied = (appliedCandidates script.lines fixes threshold).map Candidate.fix :=
    filterMap_applied
  have mending : ∀ fix ∈ applied, Mending window script.lines fix := by
    intro fix member
    rw [made] at member
    obtain ⟨candidate, chosen, rfl⟩ := List.mem_map.mp member
    obtain ⟨listed, eligible⟩ := mem_eligible.mp (appliedCandidates_eligible chosen)
    exact mending_of_isEligible newlineFree (List.mem_of_getElem? listed) eligible
  have descending : applied.Pairwise fun later earlier => earlier.reach < later.line := by
    rw [made]
    exact List.pairwise_map.mpr (appliedCandidates_pairwise_before.imp fun before => before.1)
  have lines' : patch.lines = applied.foldl (fun patched fix => fix.edit patched) script.lines := by
    rw [made, List.foldl_map]
    rfl
  have count : patch.appliedCount = applied.length := by
    rw [made, List.length_map]
    exact List.length_map _
  rw [lines', count]
  exact foldl_edit_of_mending mending descending

/-- A script with an `else` that lost its conditional in front of one that did not. -/
def detachedElse : Script :=
  .ofText "detached" "a = 1\nelse:\n    pass\nif a:\n    b()\nelse:\n    c()\n"

theorem detachedElse_repaired :
    (∀ line ∈ detachedElse.lines, '\n' ∉ line.toList) ∧
      let patch := Patch.apply detachedElse.lines (branchFixes .standard detachedElse)
        Config.standard.pipeline.confidenceThreshold
      patch.appliedCount = 1 ∧ strayCount patch.lines 50 + 1 ≤ strayCount detachedElse.lines 50 ∧
        matchAt detachedElse.lines 50 5 = some ⟨5, .otherwise, .aligned 3⟩ ∧
          matchAt patch.lines 50 3 = some ⟨3, .otherwise, .aligned 1⟩ := by
  have newlineFree : ∀ line ∈ detachedElse.lines, '\n' ∉ line.toList := by decide +kernel
  have main := (apply_branchFixes .standard
    Config.standard.pipeline.confidenceThreshold detachedElse.lines newlineFree).2 detachedElse rfl
  have one : (Patch.apply detachedElse.lines (branchFixes .standard detachedElse)
      Config.standard.pipeline.confidenceThreshold).applied = [0] := by decide +kernel
  have uncovered : ∀ fix ∈ [0].filterMap fun place => (branchFixes .standard detachedElse)[place]?,
      fix.covers (5 + 1) = false := by decide +kernel
  have place : newIndex ([0].filterMap fun place => (branchFixes .standard detachedElse)[place]?) 5 =
      3 := by decide +kernel
  have openerPlace : newIndex
      ([0].filterMap fun place => (branchFixes .standard detachedElse)[place]?) 3 = 1 := by
    decide +kernel
  have parts : (matchAt detachedElse.lines 50 5).map (fun branch =>
      (branch.index, branch.kind, branch.found)) = some (5, .otherwise, .aligned 3) := by
    decide +kernel
  have aligned : matchAt detachedElse.lines 50 5 = some ⟨5, .otherwise, .aligned 3⟩ := by
    obtain ⟨⟨index, kind, found⟩, here, same⟩ := Option.map_eq_some_iff.mp parts
    cases same
    exact here
  generalize branchFixes .standard detachedElse = fixes at *
  generalize Config.standard.pipeline.confidenceThreshold = threshold at *
  obtain ⟨fewer, kept⟩ := main
  rw [one] at kept
  have moved := (kept 5 uncovered).2 .otherwise 3 aligned
  rw [place, openerPlace] at moved
  have count : (Patch.apply detachedElse.lines fixes threshold).appliedCount = 1 := by
    rw [Patch.appliedCount, one, List.length_singleton]
  rw [count] at fewer
  exact ⟨newlineFree, count, fewer, aligned, moved⟩

end StrategyMend.Repair
