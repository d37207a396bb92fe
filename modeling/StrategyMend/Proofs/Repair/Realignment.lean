import StrategyMend.Proofs.Repair.BranchRepair
import StrategyMend.Proofs.Repair.SoleFix
import StrategyMend.Proofs.Source.Opener

/-!
# Branches that are realigned

A branch with another indentation than its opener gets the indentation of the opener, as it is written
there. The statements between the two were deeper than the branch, and so they are deeper than the
opener. The search passes them again and stops at the opener, which now has the width of the branch
(`branchAt_realigned`).

The line keeps its text, so it leaves open what it did. Nothing else changes
(`generate_indentationRealign`).
-/

set_option autoImplicit false

namespace StrategyMend.Repair

open Source Text

/-! ## The search -/

section Search

variable {marked : List MarkedLine} {window index opener width : Nat} {kind : BranchKind}
  {header line : MarkedLine}

/-- **A branch with the indentation of its opener is aligned with it.** -/
theorem branchAt_realigned (headerHere : marked[opener]? = some header)
    (here : marked[index]? = some line)
    (misaligned : branchAt marked window index = some ⟨index, kind, .misaligned opener width⟩) :
    branchAt (marked.set index ⟨indentation header.text ++ trimStart line.text, true⟩) window index =
      some ⟨index, kind, .aligned opener⟩ := by
  obtain ⟨inside, -⟩ := List.getElem?_eq_some_iff.mp here
  obtain ⟨other, lineHere, statement, classified, -, belongs⟩ := exists_of_branchAt_eq misaligned
  obtain rfl : line = other := Option.some.inj (here.symm.trans lineHere)
  obtain ⟨other, nearest, near, accepts, -⟩ :=
    exists_of_belonging_eq_misaligned (Nat.le_of_lt inside) belongs.symm
  obtain rfl : header = other := Option.some.inj (headerHere.symm.trans nearest.here)
  have code := (MarkedLine.isStatement_iff.mp statement).2
  have level := indentWidth_realigned code header.text
  refine branchAt_eq_aligned_iff.mpr ⟨header, _, nearest.above, ?_, List.getElem?_set_self inside,
    { branchStatement := ?_
      classified := ?_
      headerStatement := nearest.statement
      accepts
      level := level.symm
      deeper := fun between member statement => ?_ }, ?_⟩
  · rw [List.getElem?_set_ne (Nat.ne_of_gt nearest.above), headerHere]
  · rw [MarkedLine.isStatement, isCode_realigned code, Bool.and_true]
  · rw [classify, trimStart_realigned code, ← classified, classify]
  · -- What was deeper than the branch is deeper than the opener, which stands further out.
    rw [List.take_set_of_le (Nat.le_refl index)] at member
    rw [level]
    exact Nat.lt_of_le_of_lt nearest.notDeeper (nearest.deeper between member statement)
  · rw [List.take_set_of_le (Nat.le_refl index)]
    rwa [nearest.statementCount_eq] at near

end Search

/-! ## The fix -/

/-- What an edit does that aligns the branch on the line `index` with its opener. -/
structure AlignedAlone (window : Nat) (lines patched : List String) (index : Nat)
    (kind : BranchKind) (opener : Nat) : Prop where
  length : patched.length = lines.length
  others : ∀ other, other ≠ index → patched[other]? = lines[other]?
  starts : statementStarts patched = statementStarts lines
  aligned : matchAt patched window index = some ⟨index, kind, .aligned opener⟩

section Fix

variable {issue : Issue} {lines : List String} {window index opener width : Nat}
  {kind : BranchKind} {header line : MarkedLine}

theorem alignedAlone_set (headerHere : (markLines lines)[opener]? = some header)
    (here : (markLines lines)[index]? = some line) (statement : line.isStatement = true)
    (misaligned : matchAt lines window index = some ⟨index, kind, .misaligned opener width⟩) :
    AlignedAlone window lines (lines.set index (indentation header.text ++ trimStart line.text))
      index kind opener := by
  obtain ⟨starts, code⟩ := MarkedLine.isStatement_iff.mp statement
  have marks := markLines_set here starts (after_closed_realigned code header.text)
  refine
    { length := List.length_set
      others := fun other away => List.getElem?_set_ne away.symm
      starts := ?_
      aligned := ?_ }
  · obtain ⟨inside, stands⟩ := List.getElem?_eq_some_iff.mp here
    have still : ((markLines lines).map MarkedLine.starts).set index _ = _ :=
      List.set_getElem_self (by rwa [List.length_map])
    rw [List.getElem_map, stands, starts] at still
    rw [← map_starts_markLines, marks, List.map_set, still, map_starts_markLines]
  · rw [matchAt, marks]
    exact branchAt_realigned headerHere here misaligned

/-- The fix for a misaligned branch puts its text behind the indentation of its opener. -/
theorem exists_realignment (config : Config.Fixer) (validator : Config.Validator)
    (free : '\n' ∉ line.text.toList) (headerHere : (markLines lines)[opener]? = some header)
    (here : (markLines lines)[index]? = some line) (code : isCode line.text = true)
    (otherWidth : indentWidth header.text ≠ indentWidth line.text)
    (misaligned : matchAt lines validator.branchScanWindow index =
      some ⟨index, kind, .misaligned opener width⟩)
    (place : issue.line = index + 1) :
    ∃ fix, (indentationRealign config validator).generate issue lines = .proposed fix ∧
      fix.inRange lines.length = true ∧
        fix.edit lines = lines.set index (indentation header.text ++ trimStart line.text) := by
  have lineIndex : issue.lineIndex = index := Nat.sub_eq_of_eq_add place
  have text := getElem?_of_markLines here
  have openerText := getElem?_of_markLines headerHere
  obtain ⟨inside, -⟩ := List.getElem?_eq_some_iff.mp text
  have old : span lines index index = [line.text] := by
    rw [span_eq_cons text (Nat.le_refl index), span, Nat.sub_self, List.take_zero]
  obtain ⟨fix, made, first, last, removed, replacement⟩ : ∃ fix,
      (indentationRealign config validator).generate issue lines = .proposed fix ∧
        fix.line = index + 1 ∧ fix.endLine = index + 1 ∧ fix.removed = unlines [line.text] ∧
          fix.replacement = unlines [indentation header.text ++ trimStart line.text] := by
    simp only [indentationRealign, Generator.claimingAll, realignFix?, lineIndex, misaligned,
      Option.map_some, openerText, text, old, Option.bind_eq_bind, Option.bind_some, Attempt.ofOption]
    exact ⟨_, rfl, place, place, rfl, rfl⟩
  have newFree : '\n' ∉ (indentation header.text ++ trimStart line.text).toList :=
    newline_not_mem_indented (newline_not_mem_trimStart free)
  have solid := toList_ne_nil_of_not_isBlankLine (isBlankLine_of_isCode code)
  have newSolid := toList_ne_nil_of_not_isBlankLine
    (isBlankLine_of_isCode (isCode_realigned code header.text))
  -- The line changes, since its width does.
  have changed : [line.text] ≠ [indentation header.text ++ trimStart line.text] := by
    intro same
    have level := indentWidth_realigned code header.text
    rw [← List.singleton_inj.mp same] at level
    exact otherWidth level.symm
  obtain ⟨replaces, replacementLines⟩ := editKind_of_lines (by simpa using free)
    (by simpa using newFree) removed replacement (unlines_cons_ne_empty solid [])
    (unlines_cons_ne_empty newSolid []) changed
  refine ⟨fix, made,
    inRange_of_replace replaces (by omega) (Nat.le_of_eq (first.trans last.symm)) (by omega), ?_⟩
  rw [edit_of_replace replaces, first, last, replacementLines, Nat.add_sub_cancel,
    List.set_eq_take_append_cons_drop, if_pos inside, List.singleton_append]

/-- **A misaligned branch is aligned with its opener**, and nothing else changes. -/
theorem generate_indentationRealign (config : Config.Fixer) (validator : Config.Validator)
    (free : ∀ line ∈ lines, '\n' ∉ line.toList)
    (misaligned : matchAt lines validator.branchScanWindow index =
      some ⟨index, kind, .misaligned opener width⟩)
    (place : issue.line = index + 1) :
    ∃ fix, (indentationRealign config validator).generate issue lines = .proposed fix ∧
      fix.inRange lines.length = true ∧
        AlignedAlone validator.branchScanWindow lines (fix.edit lines) index kind opener := by
  obtain ⟨line, here, statement, -, -, belongs⟩ := exists_of_branchAt_eq misaligned
  obtain ⟨inside, -⟩ := List.getElem?_eq_some_iff.mp here
  obtain ⟨header, nearest, -, -, otherWidth⟩ :=
    exists_of_belonging_eq_misaligned (Nat.le_of_lt inside) belongs.symm
  have text := getElem?_of_markLines here
  have code := (MarkedLine.isStatement_iff.mp statement).2
  obtain ⟨fix, made, within, edited⟩ :=
    exists_realignment config validator (free line.text (List.mem_of_getElem? text)) nearest.here
      here code otherWidth misaligned place
  refine ⟨fix, made, within, ?_⟩
  rw [edited]
  exact alignedAlone_set nearest.here here statement misaligned

end Fix

/-- A branch whose opener is indented by a space and a tab, and which is indented by a tab, a space, a
no-break space and another space. -/
def mixedIndentation : List String :=
  ["def f(self):", " \tif a:", "\t    b = (1,", "c)", "\t \u00a0 elif \"\"\"d", "\"\"\":", "\t\te()"]

theorem generate_indentationRealign_mixed :
    let issue : Issue := ⟨.medium, .indentationMismatch, 5, "misaligned", none, none⟩
    (∀ line ∈ mixedIndentation, '\n' ∉ line.toList) ∧
      matchAt mixedIndentation Config.standard.validator.branchScanWindow 4 =
          some ⟨4, .elseIf, .misaligned 1 8⟩ ∧
        ∃ fix, (indentationRealign Config.standard.fixer Config.standard.validator).generate issue
            mixedIndentation = .proposed fix ∧
          fix.inRange 7 = true ∧
            AlignedAlone 50 mixedIndentation (fix.edit mixedIndentation) 4 .elseIf 1 := by
  intro issue
  have free : ∀ line ∈ mixedIndentation, '\n' ∉ line.toList := by decide +kernel
  have misaligned : matchAt mixedIndentation Config.standard.validator.branchScanWindow 4 =
      some ⟨4, .elseIf, .misaligned 1 8⟩ := by decide +kernel
  exact ⟨free, misaligned, generate_indentationRealign Config.standard.fixer
    Config.standard.validator free misaligned (rfl : issue.line = 4 + 1)⟩

end StrategyMend.Repair
