import Mathlib.Data.List.Basic
import StrategyMend.Text.Lines

/-!
# Lines in one text

Lines without newlines are joined to one text with a newline between neighbours, and the pieces of
the text are the lines again (`pieces_unlines`). Only the empty list is not read back: its text is
that of a single empty line, and no other two lists have the same text (`unlines_inj`).
-/

set_option autoImplicit false

namespace StrategyMend.Text

theorem piecesChars_of_not_mem {cs : List Char} (free : '\n' ∉ cs) : piecesChars cs = [cs] := by
  induction cs with
  | nil => rfl
  | cons c rest ih =>
    have other : c ≠ '\n' := fun same => free (by simp [same])
    have within := ih fun member => free (List.mem_cons_of_mem c member)
    rw [piecesChars, within]
    exact other

theorem newline_not_mem_piecesChars (cs : List Char) : ∀ piece ∈ piecesChars cs, '\n' ∉ piece := by
  fun_induction piecesChars cs with
  | case1 => simp
  | case2 rest ih => simpa using ih
  | case3 c rest other empty ih => simpa [eq_comm] using other
  | case4 c rest other first others cut ih =>
    rw [cut] at ih
    rintro piece (_ | ⟨_, member⟩)
    · rw [List.mem_cons, not_or]
      exact ⟨fun same => other same.symm, ih first List.mem_cons_self⟩
    · exact ih piece (List.mem_cons_of_mem first member)

/-- No piece holds a newline. -/
theorem newline_not_mem_pieces {text : String} : ∀ piece ∈ pieces text, '\n' ∉ piece.toList := by
  intro piece member
  obtain ⟨chars, cut, rfl⟩ := List.mem_map.mp member
  rw [String.toList_ofList]
  exact newline_not_mem_piecesChars text.toList chars cut

/-- A newline ends the first piece. -/
theorem piecesChars_append_newline {line : List Char} (free : '\n' ∉ line) (rest : List Char) :
    piecesChars (line ++ '\n' :: rest) = line :: piecesChars rest := by
  induction line with
  | nil => rfl
  | cons c line ih =>
    have other : c ≠ '\n' := fun same => free (by simp [same])
    have within := ih fun member => free (List.mem_cons_of_mem c member)
    rw [List.cons_append, piecesChars, within]
    exact other

theorem piecesChars_joinChars {lines : List (List Char)} (free : ∀ line ∈ lines, '\n' ∉ line)
    (any : lines ≠ []) : piecesChars (joinChars lines) = lines := by
  induction lines with
  | nil => exact absurd rfl any
  | cons line others ih =>
    have first := free line (by simp)
    cases others with
    | nil => exact piecesChars_of_not_mem first
    | cons next others =>
      have behind := ih (fun other member => free other (List.mem_cons_of_mem line member)) (by simp)
      rw [joinChars, piecesChars_append_newline first, behind]

/-- **Joined lines are read back**, if there are any. -/
theorem pieces_unlines {lines : List String} (free : ∀ line ∈ lines, '\n' ∉ line.toList)
    (any : lines ≠ []) : pieces (unlines lines) = lines := by
  have contents : ∀ line ∈ lines.map String.toList, '\n' ∉ line := by simpa using free
  rw [pieces, unlines, String.toList_ofList, piecesChars_joinChars contents (by simpa using any),
    List.map_map]
  exact (List.map_congr_left fun line _ => String.ofList_toList).trans (List.map_id lines)

/-- The text of no lines is also that of a single empty line. -/
theorem unlines_eq_empty_iff {lines : List String} :
    unlines lines = "" ↔ lines = [] ∨ lines = [""] := by
  match lines with
  | [] => simp [unlines, joinChars]
  | [line] => simp [unlines, joinChars]
  | line :: next :: others =>
    have newline : '\n' ∈ (unlines (line :: next :: others)).toList := by
      simp [unlines, joinChars]
    refine iff_of_false (fun empty => ?_) (by simp)
    rw [empty] at newline
    cases newline

theorem unlines_cons_ne_empty {line : String} (solid : line.toList ≠ []) (rest : List String) :
    unlines (line :: rest) ≠ "" := by
  intro empty
  rcases unlines_eq_empty_iff.mp empty with none | one
  · cases none
  · cases one
    exact solid rfl

/-- Lists with some line have different texts. -/
theorem unlines_inj {first second : List String} (free : ∀ line ∈ first, '\n' ∉ line.toList)
    (free' : ∀ line ∈ second, '\n' ∉ line.toList) (any : first ≠ []) (any' : second ≠ []) :
    unlines first = unlines second ↔ first = second := by
  refine ⟨fun same => ?_, congrArg unlines⟩
  rw [← pieces_unlines free any, same, pieces_unlines free' any']

end StrategyMend.Text
