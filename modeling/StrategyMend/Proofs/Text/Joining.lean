import StrategyMend.Proofs.Text.Cutting
import StrategyMend.Proofs.Text.Endings

/-!
# Cutting joined lines

Lines that are joined to one text are found again by cutting the text, as long as they hold no newline and
do not end in a carriage return. There are two exceptions (`splitLines_joinLines_iff`). Without lines
there is none that could end in a newline. An empty last line without an end leaves no trace of itself:
its text ends with the newline in front of it, so the line before it is taken for the last.
-/

set_option autoImplicit false

namespace StrategyMend.Text

/-! ## The lines of a text -/

/-- A line without an end is not empty. -/
theorem content_ne_nil_of_missing (chars : List Char) :
    ∀ line ∈ endedChars chars, line.lineEnd = .missing → line.content ≠ [] := by
  fun_induction endedChars chars with
  | case1 => exact List.forall_mem_nil _
  | case2 rest ih => simpa using ih
  | case3 rest ih => simpa using ih
  | case4 c rest noNewline noReturn ih =>
    cases cut : endedChars rest with
    | nil => simp [consChar]
    | cons first others =>
      rw [cut] at ih
      rintro line (_ | ⟨_, member⟩) missing
      · exact List.cons_ne_nil c first.content
      · exact ih line (List.mem_cons_of_mem first member) missing

/-- A text with an empty last line ends in a newline. -/
theorem endsInNewline_of_getLast? {text : String} (last : (splitLines text).getLast? = some "") :
    endsInNewline text = true := by
  rw [← map_text_endedLines, List.getLast?_map] at last
  obtain ⟨line, final, empty⟩ := Option.map_eq_some_iff.mp last
  have content : line.content = [] := by
    rw [← String.toList_inj, EndedLine.text, String.toList_ofList] at empty
    exact empty
  have ended : lastEnd (endedLines text) ≠ .missing := by
    rw [lastEnd, final]
    exact fun missing => content_ne_nil_of_missing text.toList line
      (List.mem_of_getLast? final) missing content
  have newline := (lastEnd_endedChars text.toList).not.mp ended
  exact decide_eq_true (not_not.mp newline)

/-! ## The lines of joined lines -/

theorem lineChars_joinChars {lines : List (List Char)} (free : ∀ line ∈ lines, '\n' ∉ line)
    (ends : ∀ line ∈ lines, line.getLast? ≠ some '\r') (solid : lines.getLast? ≠ some []) :
    lineChars (joinChars lines) = lines := by
  induction lines with
  | nil => rfl
  | cons line others ih =>
    cases others with
    | nil =>
      refine lineChars_of_not_mem (free line (by simp)) ?_
      rintro rfl
      exact solid rfl
    | cons next others =>
      rw [List.getLast?_cons_cons] at solid
      rw [joinChars, lineChars_append_newline (free line (by simp)) (ends line (by simp)),
        ih (fun other member => free other (List.mem_cons_of_mem line member))
          (fun other member => ends other (List.mem_cons_of_mem line member)) solid]

theorem lineChars_joinChars_newline {lines : List (List Char)}
    (free : ∀ line ∈ lines, '\n' ∉ line) (ends : ∀ line ∈ lines, line.getLast? ≠ some '\r')
    (any : lines ≠ []) : lineChars (joinChars lines ++ ['\n']) = lines := by
  induction lines with
  | nil => exact absurd rfl any
  | cons line others ih =>
    have first := lineChars_append_newline (free line (by simp)) (ends line (by simp))
    cases others with
    | nil => exact first []
    | cons next others =>
      rw [joinChars, List.append_assoc, List.cons_append, first,
        ih (fun other member => free other (List.mem_cons_of_mem line member))
          (fun other member => ends other (List.mem_cons_of_mem line member)) (by simp)]

/-- Joined lines end as the last of them does, if this is not empty. -/
theorem getLast?_joinChars {lines : List (List Char)} {last : List Char}
    (ends : lines.getLast? = some last) (solid : last ≠ []) :
    (joinChars lines).getLast? = last.getLast? := by
  induction lines with
  | nil => cases ends
  | cons line others ih =>
    cases others with
    | nil =>
      obtain rfl : line = last := Option.some.inj ends
      rfl
    | cons next others =>
      rw [List.getLast?_cons_cons] at ends
      obtain ⟨c, final⟩ := List.getLast?_isSome.mpr solid |> Option.isSome_iff_exists.mp
      rw [joinChars, List.getLast?_append, List.getLast?_cons, ih ends, final]
      rfl

section Joined

variable {lines : List String} (free : ∀ line ∈ lines, '\n' ∉ line.toList)
  (ends : ∀ line ∈ lines, line.toList.getLast? ≠ some '\r')

theorem splitLines_of_lineChars {text : String}
    (cut : lineChars text.toList = lines.map String.toList) : splitLines text = lines := by
  rw [splitLines, cut, List.map_map]
  exact (List.map_congr_left fun line _ => String.ofList_toList).trans (List.map_id lines)

include free ends

theorem splitLines_joinLines_newline (any : lines ≠ []) :
    splitLines (joinLines lines true) = lines ∧ endsInNewline (joinLines lines true) = true := by
  have text : (joinLines lines true).toList = joinChars (lines.map String.toList) ++ ['\n'] := by
    simp [joinLines, any, unlines]
  constructor
  · refine splitLines_of_lineChars ?_
    rw [text, lineChars_joinChars_newline (by simpa using free) (by simpa using ends)
      (by simpa using any)]
  · rw [endsInNewline, text, List.getLast?_concat]
    rfl

theorem splitLines_joinLines_missing (solid : lines.getLast? ≠ some "") :
    splitLines (joinLines lines false) = lines ∧ endsInNewline (joinLines lines false) = false := by
  have text : (joinLines lines false).toList = joinChars (lines.map String.toList) := by
    simp [joinLines, unlines]
  have nonempty : ∀ line, lines.getLast? = some line → line.toList ≠ [] := by
    rintro line last empty
    obtain rfl : line = "" := String.toList_inj.mp empty
    exact solid last
  constructor
  · refine splitLines_of_lineChars ?_
    rw [text, lineChars_joinChars (by simpa using free) (by simpa using ends)]
    rw [List.getLast?_map]
    intro last
    obtain ⟨line, final, empty⟩ := Option.map_eq_some_iff.mp last
    exact nonempty line final empty
  · cases final : lines.getLast? with
    | none =>
      rw [List.getLast?_eq_none_iff.mp final]
      rfl
    | some line =>
      have last : (lines.map String.toList).getLast? = some line.toList := by
        rw [List.getLast?_map, final, Option.map_some]
      rw [endsInNewline, text, getLast?_joinChars last (nonempty line final)]
      exact decide_eq_false fun newline =>
        free line (List.mem_of_getLast? final) (List.mem_of_getLast? newline)

/-- **Joining lines and cutting the text gives the lines back**, if they hold no newline and do not end
in a carriage return, unless there is no line to end or an empty last line without an end. -/
theorem splitLines_joinLines_iff (trailing : Bool) :
    (splitLines (joinLines lines trailing), endsInNewline (joinLines lines trailing)) =
        (lines, trailing) ↔
      ¬(lines = [] ∧ trailing = true) ∧ ¬(trailing = false ∧ lines.getLast? = some "") := by
  rw [Prod.mk.injEq]
  constructor
  · rintro ⟨cut, ended⟩
    constructor
    · rintro ⟨rfl, rfl⟩
      cases ended
    · rintro ⟨rfl, last⟩
      rw [← cut] at last
      rw [endsInNewline_of_getLast? last] at ended
      cases ended
  · rintro ⟨endable, ended⟩
    cases trailing with
    | true => exact splitLines_joinLines_newline free ends fun empty => endable ⟨empty, rfl⟩
    | false => exact splitLines_joinLines_missing free ends fun last => ended ⟨rfl, last⟩

end Joined

end StrategyMend.Text
