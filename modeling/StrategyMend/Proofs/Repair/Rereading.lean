import StrategyMend.Proofs.Repair.SoleFix
import StrategyMend.Proofs.Text.Joining
import StrategyMend.Source.Script

/-!
# Reading a patched text again

The text of a patch is cut into lines again when the patched script is read. Neither the lines of a script
nor those that a fix puts in hold a newline, and edits keep it so (`newline_not_mem_edit`,
`newline_not_mem_apply`). So the script that is read again has the patched lines, apart from the two
exceptions of joined lines (`reread_iff`).
-/

set_option autoImplicit false

namespace StrategyMend.Repair

open Number Source Text

/-! ## Patched lines -/

theorem newline_not_mem_replacementLines (fix : Fix) :
    ∀ line ∈ fix.replacementLines, '\n' ∉ line.toList := by
  rw [Fix.replacementLines]
  split
  · exact List.forall_mem_nil _
  · exact newline_not_mem_pieces

/-- An edit puts in no line with a newline. -/
theorem newline_not_mem_edit (fix : Fix) {lines : List String}
    (free : ∀ line ∈ lines, '\n' ∉ line.toList) :
    ∀ line ∈ fix.edit lines, '\n' ∉ line.toList := by
  intro line member
  by_cases changes : fix.editKind = .noChange
  · rw [Fix.edit, changes] at member
    exact free line member
  · rw [Fix.edit_eq changes, List.mem_append, List.mem_append] at member
    rcases member with (above | added) | below
    · exact free line (List.mem_of_mem_take above)
    · exact newline_not_mem_replacementLines fix line added
    · exact free line (List.mem_of_mem_drop below)

/-- No line of a patch holds a newline if none did before. -/
theorem newline_not_mem_apply {lines : List String} (fixes : List Fix) (threshold : Binary64)
    (free : ∀ line ∈ lines, '\n' ∉ line.toList) :
    ∀ line ∈ (Patch.apply lines fixes threshold).lines, '\n' ∉ line.toList := by
  have edited (candidates : List Candidate) {lines : List String}
      (free : ∀ line ∈ lines, '\n' ∉ line.toList) :
      ∀ line ∈ candidates.foldl (fun patched candidate => candidate.fix.edit patched) lines,
        '\n' ∉ line.toList := by
    induction candidates generalizing lines with
    | nil => exact free
    | cons candidate rest ih => exact ih (newline_not_mem_edit candidate.fix free)
  exact edited _ free

/-! ## Scripts that are read again -/

/-- **Joining and cutting undo each other** apart from the known exceptions. Joined lines are found again
unless there is none to end or an empty last one has no end. Cut texts are joined again unless they
hold a carriage return in front of a newline. So the text of a patch has the patched lines. -/
theorem reread_iff :
    (∀ (lines : List String) (trailing : Bool),
      (∀ line ∈ lines, '\n' ∉ line.toList ∧ line.toList.getLast? ≠ some '\r') →
        ((splitLines (joinLines lines trailing), endsInNewline (joinLines lines trailing)) =
            (lines, trailing) ↔
          ¬(lines = [] ∧ trailing = true) ∧
            ¬(trailing = false ∧ lines.getLast? = some ""))) ∧
      (∀ text : String,
        joinLines (splitLines text) (endsInNewline text) = text ↔
          ¬ ['\r', '\n'] <:+: text.toList) ∧
      ∀ (script : Script) (fixes : List Fix) (threshold : Binary64) (name : String),
        let patch := Patch.apply script.lines fixes threshold
        let reread := Script.ofText name (patch.render script.trailing)
        (∀ line ∈ patch.lines, line.toList.getLast? ≠ some '\r') →
          ((reread.lines, reread.trailing) = (patch.lines, script.trailing) ↔
            ¬(patch.lines = [] ∧ script.trailing = true) ∧
              ¬(script.trailing = false ∧ patch.lines.getLast? = some "")) := by
  refine ⟨fun lines trailing plain => ?_, joinLines_splitLines_iff, ?_⟩
  · exact splitLines_joinLines_iff (fun line member => (plain line member).1)
      (fun line member => (plain line member).2) trailing
  · intro script fixes threshold name patch reread ends
    exact splitLines_joinLines_iff
      (newline_not_mem_apply fixes threshold newline_not_mem_splitLines) ends script.trailing

/-- A script with an empty line, and without a newline behind the last line. -/
def unendedScript : Script := .ofText "unended" "a = 1\n\nb = 2"

/-- Replaces the first line by two. -/
def leadingBlankFix : Fix :=
  (Fix.replace firstLineIssue 1 1 ["a = 1"] ["", "a = \r3"]).classified .auto .one .zero

/-- Empty lines in front and within, and carriage returns within lines, are found again. -/
theorem reread_iff_unended :
    let lines := ["", "a = \r3", "", "b = 2"]
    let patch := Patch.apply unendedScript.lines [leadingBlankFix] .one
    let reread := Script.ofText "again" (patch.render unendedScript.trailing)
    (∀ line ∈ lines, '\n' ∉ line.toList ∧ line.toList.getLast? ≠ some '\r') ∧
      (splitLines (joinLines lines true), endsInNewline (joinLines lines true)) = (lines, true) ∧
        patch.lines = lines ∧ reread.lines = lines ∧ reread.trailing = false := by
  intro lines patch reread
  have plain : ∀ line ∈ lines, '\n' ∉ line.toList ∧ line.toList.getLast? ≠ some '\r' := by
    decide +kernel
  have patched : patch.lines = lines := by decide +kernel
  have unended : unendedScript.trailing = false := by decide +kernel
  obtain ⟨joined, -, again⟩ := reread_iff
  have found := (again unendedScript [leadingBlankFix] .one "again"
    (patched ▸ fun line member => (plain line member).2)).mpr
      ⟨fun both => absurd both.2 (by rw [unended]; decide),
        fun both => absurd (patched ▸ both.2 : lines.getLast? = some "") (by decide)⟩
  obtain ⟨cut, ended⟩ := Prod.mk.inj found
  exact ⟨plain, (joined lines true plain).mpr (by decide), patched, cut.trans patched,
    ended.trans unended⟩

end StrategyMend.Repair
