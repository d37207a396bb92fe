import StrategyMend.Proofs.Repair.Application
import StrategyMend.Proofs.Text.Pieces
import StrategyMend.Repair.Branches

/-!
# A fix applied alone

A fix is made from the lines that it takes away and from those that it puts in their place, and
keeps both as texts. Its kind is told from whether the texts are empty. So a list of one empty line,
whose text is empty, is taken for no lines: an edit that takes away one empty line takes away
nothing, and one that puts one empty line puts nothing (`applyAlone_replace`).

Apart from these lists a fix that is applied alone does what it was made for (`applyAlone_iff`).
-/

set_option autoImplicit false

namespace StrategyMend.Repair

open Number Text

/-! ## The patch of one fix -/

/-- The lines after a fix is applied alone, as a sure one at the lowest threshold. -/
def Fix.applyAlone (fix : Fix) (lines : List String) : List String :=
  (Patch.apply lines [fix.classified .auto .one .zero] .zero).lines

section Sole

variable {fix : Fix} {lines : List String} {threshold : Binary64}

theorem eligible_singleton (able : fix.isEligible threshold = true) :
    eligible [fix] threshold = [⟨0, fix⟩] := by
  simp [eligible, able]

theorem eligible_singleton_of_not (unable : fix.isEligible threshold = false) :
    eligible [fix] threshold = [] := by
  simp [eligible, unable]

/-- A fix alone is applied if it is eligible and lies within the lines. -/
theorem lines_apply_singleton (able : fix.isEligible threshold = true)
    (inside : fix.inRange lines.length = true) :
    (Patch.apply lines [fix] threshold).lines = fix.edit lines := by
  have chosen : select lines.length (eligible [fix] threshold) = ⟨[⟨0, fix⟩], []⟩ := by
    rw [eligible_singleton able]
    simp [select, Selection.consider, Selection.winner?, Selection.empty, inside]
  rw [apply_of_pairwise (by simp [eligible_singleton able]) (by simp [chosen]), chosen]
  rfl

theorem lines_apply_singleton_of_not (unable : fix.isEligible threshold = false) :
    (Patch.apply lines [fix] threshold).lines = lines := by
  have chosen : select lines.length (eligible [fix] threshold) = ⟨[], []⟩ := by
    rw [eligible_singleton_of_not unable]
    rfl
  rw [apply_of_pairwise (by simp [eligible_singleton_of_not unable]) (by simp [chosen]), chosen]
  rfl

/-- A sure fix stays what it was, apart from the judgement. -/
theorem classified_one (fix : Fix) :
    fix.classified .auto .one .zero = { fix with confidence := .one, kind := .auto } := by
  have unit : Binary64.one.clampUnit = .one :=
    Binary64.clampUnit_of_le (by decide +kernel) (by decide +kernel)
  have floor : Binary64.one.lt .zero = false := by decide +kernel
  rw [Fix.classified, unit, floor]
  rfl

theorem isEligible_classified_one_iff :
    (fix.classified .auto .one .zero).isEligible .zero = true ↔ fix.editKind ≠ .noChange := by
  have least : Binary64.zero.le .one = true := by decide +kernel
  rw [classified_one, isEligible_iff]
  exact ⟨fun able => able.2.2, fun changes => ⟨rfl, least, changes⟩⟩

/-- An edit within the lines cuts out the lines up to its reach and puts its own lines there. -/
theorem applyAlone_eq (changes : fix.editKind ≠ .noChange)
    (inside : fix.inRange lines.length = true) :
    fix.applyAlone lines =
      lines.take (fix.line - 1) ++ fix.replacementLines ++ lines.drop fix.reach := by
  have able := isEligible_classified_one_iff.mpr changes
  rw [classified_one] at able
  rw [Fix.applyAlone, classified_one, lines_apply_singleton able inside]
  exact Fix.edit_eq changes lines

theorem applyAlone_eq_edit (changes : fix.editKind ≠ .noChange)
    (inside : fix.inRange lines.length = true) : fix.applyAlone lines = fix.edit lines :=
  (applyAlone_eq changes inside).trans (Fix.edit_eq changes lines).symm

theorem applyAlone_of_noChange (nothing : fix.editKind = .noChange) :
    fix.applyAlone lines = lines := by
  refine lines_apply_singleton_of_not ?_
  rw [← Bool.not_eq_true, isEligible_classified_one_iff]
  exact not_not_intro nothing

end Sole

/-! ## Fixes made from lines -/

/-- The lines that a fix finds in the text that it keeps for them: none for a single empty line. -/
def readBack (lines : List String) : List String := if lines = [""] then [] else lines

section Made

variable {issue : Issue} {lines old new : List String} {first last before : Nat}

theorem replacementLines_eq_readBack {fix : Fix} (free : ∀ line ∈ new, '\n' ∉ line.toList)
    (replacement : fix.replacement = unlines new) : fix.replacementLines = readBack new := by
  rw [Fix.replacementLines, replacement]
  by_cases empty : unlines new = ""
  · rcases unlines_eq_empty_iff.mp empty with rfl | rfl <;> rfl
  · have many : ¬ (new = [] ∨ new = [""]) := unlines_eq_empty_iff.not.mp empty
    rw [if_neg empty, pieces_unlines free fun none => many (.inl none), readBack,
      if_neg fun one => many (.inr one)]

/-- A fix made from lines on both sides that are told from none replaces lines if it changes any. -/
theorem editKind_of_lines {fix : Fix} (oldFree : ∀ line ∈ old, '\n' ∉ line.toList)
    (newFree : ∀ line ∈ new, '\n' ∉ line.toList) (removed : fix.removed = unlines old)
    (replacement : fix.replacement = unlines new) (oldAny : unlines old ≠ "")
    (newAny : unlines new ≠ "") (changed : old ≠ new) :
    fix.editKind = .replace ∧ fix.replacementLines = new := by
  obtain ⟨oldSome, -⟩ := not_or.mp (unlines_eq_empty_iff.not.mp oldAny)
  obtain ⟨newSome, newMany⟩ := not_or.mp (unlines_eq_empty_iff.not.mp newAny)
  have different : unlines old ≠ unlines new :=
    (unlines_inj oldFree newFree oldSome newSome).not.mpr changed
  constructor
  · rw [Fix.editKind, removed, replacement, if_neg oldAny, if_neg newAny, if_neg different]
  · rw [replacementLines_eq_readBack newFree replacement, readBack, if_neg newMany]

/-- A fix that replaces lines cuts them out and puts its own lines there. -/
theorem edit_of_replace {fix : Fix} (replaces : fix.editKind = .replace) (lines : List String) :
    fix.edit lines =
      lines.take (fix.line - 1) ++ (fix.replacementLines ++ lines.drop fix.endLine) := by
  simp only [Fix.edit, replaces, List.append_assoc]

theorem inRange_of_replace {fix : Fix} {count : Nat} (replaces : fix.editKind = .replace)
    (start : 1 ≤ fix.line) (ordered : fix.line ≤ fix.endLine) (inside : fix.endLine ≤ count) :
    fix.inRange count = true := by
  simp [Fix.inRange, Fix.isInsert, replaces, start, ordered, inside]

/-- The lines between two numbers, those in front and those behind make up all lines. -/
theorem take_append_span_append_drop (lines : List String) (start : 1 ≤ first)
    (ordered : first ≤ last) :
    lines.take (first - 1) ++ span lines (first - 1) (last - 1) ++ lines.drop last = lines := by
  have behind : (lines.drop (first - 1)).drop (last - 1 + 1 - (first - 1)) = lines.drop last := by
    rw [List.drop_drop]
    congr 1
    omega
  rw [span, List.append_assoc, ← behind, List.take_append_drop, List.take_append_drop]

/-- **What replacing lines does**: it puts the new lines in the place of the old ones, but a single
empty line counts as no line among either. -/
theorem applyAlone_replace (free : ∀ line ∈ lines, '\n' ∉ line.toList)
    (newFree : ∀ line ∈ new, '\n' ∉ line.toList) (start : 1 ≤ first) (ordered : first ≤ last)
    (inside : last ≤ lines.length) (held : old = span lines (first - 1) (last - 1)) :
    (Fix.replace issue first last old new).applyAlone lines =
      lines.take (first - 1) ++ readBack new ++
        lines.drop (if old = [""] then first - 1 else last) := by
  have any : old ≠ [] := by
    rw [← List.length_pos_iff, held, span, List.length_take, List.length_drop]
    omega
  have oldFree : ∀ line ∈ old, '\n' ∉ line.toList := fun line member =>
    free line (List.mem_of_mem_drop (List.mem_of_mem_take (held ▸ member)))
  have empty : (Fix.replace issue first last old new).removed = "" ↔ old = [""] :=
    unlines_eq_empty_iff.trans (or_iff_right any)
  by_cases nothing : (Fix.replace issue first last old new).editKind = .noChange
  · obtain ⟨solid, -, same⟩ := Fix.editKind_eq_noChange_iff.mp nothing
    have newAny : new ≠ [] := by
      rintro rfl
      exact solid same
    obtain rfl : old = new := (unlines_inj oldFree newFree any newAny).mp same
    have many : old ≠ [""] := fun one => solid (empty.mpr one)
    rw [applyAlone_of_noChange nothing, readBack, if_neg many, if_neg many, held,
      take_append_span_append_drop lines start ordered]
  · have insert : (Fix.replace issue first last old new).isInsert = decide (old = [""]) := by
      rw [Fix.isInsert_eq_decide, decide_eq_decide]
      exact empty
    have within : (Fix.replace issue first last old new).inRange lines.length = true := by
      rw [Fix.inRange]
      split
      · simp only [Bool.and_eq_true, decide_eq_true_eq]
        exact ⟨start, by show first ≤ lines.length + 1; omega⟩
      · simp only [Bool.and_eq_true, decide_eq_true_eq]
        exact ⟨⟨start, ordered⟩, inside⟩
    rw [applyAlone_eq nothing within, replacementLines_eq_readBack newFree rfl, Fix.reach, insert]
    simp only [decide_eq_true_eq]
    rfl

/-- **What inserting lines does**: it puts them in front of a line, but not a single empty line. -/
theorem applyAlone_insert (newFree : ∀ line ∈ new, '\n' ∉ line.toList) (start : 1 ≤ before)
    (inside : before ≤ lines.length + 1) :
    (Fix.insert issue before new).applyAlone lines =
      lines.take (before - 1) ++ readBack new ++ lines.drop (before - 1) := by
  have within : (Fix.insert issue before new).inRange lines.length = true := by
    simp [Fix.inRange, Fix.isInsert, Fix.editKind, Fix.insert, Fix.ofFragments, start, inside]
  rw [applyAlone_eq (by simp [Fix.editKind, Fix.insert, Fix.ofFragments]) within,
    replacementLines_eq_readBack newFree rfl]
  rfl

/-- Judging and explaining an insertion does not change what it does. -/
theorem edit_insert_judged {place : Nat} {kind : FixKind} {confidence floor : Binary64}
    {explanation : String} (newFree : ∀ line ∈ new, '\n' ∉ line.toList) (many : new ≠ [""])
    (inside : place ≤ lines.length) :
    let fix := ((Fix.insert issue (place + 1) new).classified kind confidence floor).explained
      explanation
    fix.editKind ≠ .noChange ∧ fix.inRange lines.length = true ∧
      fix.edit lines = lines.take place ++ (new ++ lines.drop place) := by
  intro fix
  have inserts : fix.editKind = .insert := rfl
  have changes : fix.editKind ≠ .noChange := by simp [inserts]
  refine ⟨changes, ?_, (Fix.edit_eq changes lines).trans ?_⟩
  · rw [Fix.inRange, if_pos (Fix.isInsert_iff.mpr inserts)]
    simpa [fix, Fix.insert, Fix.ofFragments, Fix.classified, Fix.explained] using inside
  · rw [replacementLines_eq_readBack newFree rfl, readBack, if_neg many, List.append_assoc]
    rfl

/-- The lines in the place of the old ones are the new ones exactly if neither or both are a single
empty line. -/
theorem replaced_iff (new : List String) (start : 1 ≤ first) (ordered : first ≤ last)
    (inside : last ≤ lines.length) (held : old = span lines (first - 1) (last - 1)) :
    lines.take (first - 1) ++ readBack new ++
          lines.drop (if old = [""] then first - 1 else last) =
        lines.take (first - 1) ++ new ++ lines.drop last ↔
      (old = [""] ↔ new = [""]) := by
  have whole := take_append_span_append_drop lines start ordered
  rw [← held] at whole
  by_cases oldEmpty : old = [""] <;> by_cases newEmpty : new = [""]
  · refine iff_of_true ?_ (iff_of_true oldEmpty newEmpty)
    rw [if_pos oldEmpty, readBack, if_pos newEmpty, newEmpty, ← oldEmpty, whole, List.append_nil,
      List.take_append_drop]
  · -- The old line is still there behind the new ones.
    refine iff_of_false (fun same => ?_) fun both => newEmpty (both.mp oldEmpty)
    rw [if_pos oldEmpty, readBack, if_neg newEmpty] at same
    have lengths := congrArg List.length same
    simp only [List.length_append, List.length_drop] at lengths
    omega
  · -- The new line is missing.
    refine iff_of_false (fun same => ?_) fun both => oldEmpty (both.mpr newEmpty)
    rw [if_neg oldEmpty, readBack, if_pos newEmpty, newEmpty] at same
    have lengths := congrArg List.length same
    simp at lengths
  · refine iff_of_true ?_ (iff_of_false oldEmpty newEmpty)
    rw [if_neg oldEmpty, readBack, if_neg newEmpty]

/-- **When a fix alone does what it was made for.** Replacing lines puts the new ones in their place
exactly if neither or both are a single empty line. Deleting lines and putting in new ones does so
exactly if they are not a single empty line. -/
theorem applyAlone_iff (issue : Issue) (first last before : Nat)
    (free : ∀ line ∈ lines, '\n' ∉ line.toList)
    (newFree : ∀ line ∈ new, '\n' ∉ line.toList) (start : 1 ≤ first) (ordered : first ≤ last)
    (inside : last ≤ lines.length) (beforeStart : 1 ≤ before)
    (beforeInside : before ≤ lines.length + 1) :
    let old := span lines (first - 1) (last - 1)
    ((Fix.replace issue first last old new).applyAlone lines =
        lines.take (first - 1) ++ new ++ lines.drop last ↔ (old = [""] ↔ new = [""])) ∧
      ((Fix.delete issue first last old).applyAlone lines =
        lines.take (first - 1) ++ lines.drop last ↔ old ≠ [""]) ∧
      ((Fix.insert issue before new).applyAlone lines =
        lines.take (before - 1) ++ new ++ lines.drop (before - 1) ↔ new ≠ [""]) := by
  intro old
  refine ⟨?_, ?_, ?_⟩
  · rw [applyAlone_replace free newFree start ordered inside rfl]
    exact replaced_iff new start ordered inside rfl
  · have removal := replaced_iff [] start ordered inside (rfl : old = _)
    rw [List.append_nil] at removal
    rw [show Fix.delete issue first last old = Fix.replace issue first last old [] from rfl,
      applyAlone_replace free (by simp) start ordered inside rfl, removal]
    simp
  · rw [applyAlone_insert newFree beforeStart beforeInside, readBack]
    split
    · next one =>
      refine iff_of_false (fun same => ?_) (not_not_intro one)
      have lengths := congrArg List.length same
      rw [one] at lengths
      simp at lengths
      omega
    · next many => simp [many]

end Made

/-- An issue on the first line. -/
def firstLineIssue : Issue := ⟨.low, .custom "t", 1, "t", none, none⟩

/-- Empty lines among others are replaced, deleted and put in like any line. -/
theorem applyAlone_iff_emptyLines :
    let lines := ["a", "", "c"]
    (∀ line ∈ lines, '\n' ∉ line.toList) ∧ (∀ line ∈ ["x", ""], '\n' ∉ line.toList) ∧
      (Fix.replace firstLineIssue 1 2 ["a", ""] ["x", ""]).applyAlone lines = ["x", "", "c"] ∧
        (Fix.delete firstLineIssue 1 2 ["a", ""]).applyAlone lines = ["c"] ∧
          (Fix.insert firstLineIssue 4 ["x", ""]).applyAlone lines = ["a", "", "c", "x", ""] := by
  intro lines
  have free : ∀ line ∈ lines, '\n' ∉ line.toList := by decide +kernel
  have newFree : ∀ line ∈ ["x", ""], '\n' ∉ line.toList := by decide +kernel
  obtain ⟨replaced, deleted, inserted⟩ := applyAlone_iff firstLineIssue 1 2 4 free newFree
    (by decide) (by decide) (by decide) (by decide) (by decide)
  exact ⟨free, newFree, replaced.mpr (by decide +kernel), deleted.mpr (by decide +kernel),
    inserted.mpr (by decide +kernel)⟩

/-- A single empty line is not deleted, not replaced, and not put in. -/
theorem emptyLine_not_deleted :
    (Fix.delete firstLineIssue 1 1 (span [""] 0 0)).applyAlone [""] = [""] ∧
      (Fix.replace firstLineIssue 1 1 (span [""] 0 0) ["x"]).applyAlone [""] = ["x", ""] ∧
        (Fix.insert firstLineIssue 1 [""]).applyAlone ["a"] = ["a"] := by
  decide +kernel

end StrategyMend.Repair
