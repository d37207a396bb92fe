import StrategyMend.Proofs.Repair.Application
import StrategyMend.Proofs.Text.Endings

/-!
# Patched texts

A patch holds lines without their ends, and a patched text is made by putting the same end behind each of
them, except that the last one ends as the text did before. A text that is edited line by line would
keep the ends of the lines that stay (`spliced`).

The two are the same text exactly if no line that stays ends in a carriage return and a newline, and
the last line that is left ends as the text did (`Rendered.faithful_iff`). So nothing outside of
the edited lines changes in a text whose lines all end in a newline alone (`Rendered.plain`). A
carriage return in front of a newline is dropped even by a patch without fixes
(`returnNewline_dropped`).
-/

set_option autoImplicit false

namespace StrategyMend.Repair

open Number Text

/-! ## Edits that keep the ends of lines -/

/-- New lines for a text, with an end that is given to all of them. -/
def newLines (lineEnd : LineEnd) (lines : List String) : List EndedLine :=
  lines.map fun line => ⟨line.toList, lineEnd⟩

/-- What stands for the line with this number after all accepted fixes are made at once: the new lines
in front of it, and then the line itself with its own end, unless a fix takes it away. -/
def splicedAt (accepted : List Fix) (lineEnd : LineEnd) (lines : List EndedLine) (number : Nat) :
    List EndedLine :=
  newLines lineEnd (insertedAt accepted number) ++
    match accepted.find? fun fix => fix.covers number with
    | some fix =>
      if fix.editKind = .replace ∧ fix.line = number then newLines lineEnd fix.replacementLines
      else []
    | none => lines[number - 1]?.toList

/-- The lines after all accepted fixes are made at once, each that stays with its own end. -/
def spliced (accepted : List Fix) (lineEnd : LineEnd) (lines : List EndedLine) :
    List EndedLine :=
  (List.range' 1 (lines.length + 1)).flatMap (splicedAt accepted lineEnd lines)

section Spliced

variable {accepted : List Fix} {lineEnd : LineEnd} {lines : List EndedLine}

theorem map_text_newLines (added : List String) :
    (newLines lineEnd added).map EndedLine.text = added := by
  rw [newLines, List.map_map]
  exact (List.map_congr_left fun line _ => String.ofList_toList).trans (List.map_id added)

theorem map_text_splicedAt (number : Nat) :
    (splicedAt accepted lineEnd lines number).map EndedLine.text =
      insertedAt accepted number ++
        remainderAt accepted (lines.map EndedLine.text) number := by
  rw [splicedAt, remainderAt, List.map_append, map_text_newLines]
  cases accepted.find? fun fix => fix.covers number with
  | some fix =>
    by_cases first : fix.editKind = .replace ∧ fix.line = number
    · simp only [if_pos first, map_text_newLines]
    · simp only [if_neg first, List.map_nil]
  | none => simp only [List.getElem?_map, Option.toList_map]

/-- Without their ends, the lines are those of an edit without ends. -/
theorem map_text_spliced :
    (spliced accepted lineEnd lines).map EndedLine.text =
      simultaneous accepted (lines.map EndedLine.text) := by
  rw [spliced, simultaneous, between, List.map_flatMap, List.length_map]
  exact List.flatMap_congr fun number _ => map_text_splicedAt number

theorem lineEnd_of_mem_newLines {added : List String} {line : EndedLine}
    (member : line ∈ newLines lineEnd added) : line.lineEnd = lineEnd := by
  obtain ⟨_, _, rfl⟩ := List.mem_map.mp member
  rfl

/-- A line stays or is new. -/
theorem mem_or_lineEnd_of_mem_spliced {line : EndedLine}
    (member : line ∈ spliced accepted lineEnd lines) : line ∈ lines ∨ line.lineEnd = lineEnd := by
  obtain ⟨number, -, here⟩ := List.mem_flatMap.mp member
  rcases List.mem_append.mp here with inserted | remains
  · exact .inr (lineEnd_of_mem_newLines inserted)
  · split at remains
    · split at remains
      · exact .inr (lineEnd_of_mem_newLines remains)
      · cases remains
    · exact .inl (List.mem_of_getElem? (Option.mem_toList.mp remains))

end Spliced

/-! ## Patched texts -/

/-- The lines of a text after all accepted fixes are made at once, each that stays with its own end. New
lines end in a newline, except that one at the end of the text ends as the text did. -/
def faithfulLines (accepted : List Fix) (text : String) : List EndedLine :=
  spliced accepted (.ofTrailing (endsInNewline text)) (endedLines text)

/-- How a patched text relates to the text that an edit line by line would give. -/
structure Rendered (text : String) (accepted : List Fix) (rendered : String) : Prop where
  /-- The patched text holds the same lines, all with one end. -/
  unified : rendered =
    textOf ((faithfulLines accepted text).map (.withEnd (.ofTrailing (endsInNewline text))))
  /-- The two texts are the same exactly if no line that stays ends in a carriage return and a newline
  and the last line that is left ends as the text did. -/
  faithful_iff : rendered = textOf (faithfulLines accepted text) ↔
    (∀ line ∈ faithfulLines accepted text, line.lineEnd ≠ .returnNewline) ∧
      (faithfulLines accepted text ≠ [] →
        lastEnd (faithfulLines accepted text) = .ofTrailing (endsInNewline text))
  /-- They are the same whatever is edited if all lines of the text end in a newline alone. -/
  plain : ¬ ['\r', '\n'] <:+: text.toList → endsInNewline text = true →
    rendered = textOf (faithfulLines accepted text)
  /-- Without fixes, the text stays exactly if it has no carriage return in front of a newline. -/
  unchanged_iff : accepted = [] → (rendered = text ↔ ¬ ['\r', '\n'] <:+: text.toList)

/-- In a text of lines that end in newlines alone, so does every line after an edit. -/
theorem lineEnd_faithfulLines {accepted : List Fix} {text : String}
    (short : ¬ ['\r', '\n'] <:+: text.toList) (ended : endsInNewline text = true)
    {line : EndedLine} (member : line ∈ faithfulLines accepted text) :
    line.lineEnd = .newline := by
  rcases mem_or_lineEnd_of_mem_spliced member with stays | new
  · exact lineEnd_of_plain short ended stays
  · rw [new, ended]
    rfl

/-- **A patched text is the text edited line by line, with one end for all lines.** -/
theorem render_apply (text : String) (fixes : List Fix) (threshold : Binary64) :
    let patch := Patch.apply (splitLines text) fixes threshold
    Rendered text (patch.applied.filterMap fun place => fixes[place]?)
      (patch.render (endsInNewline text)) := by
  intro patch
  generalize made : (patch.applied.filterMap fun place => fixes[place]?) = accepted
  have lines : patch.lines = simultaneous accepted (splitLines text) := by
    rw [← made]
    exact lines_apply
  have kept : patch.lines = (faithfulLines accepted text).map EndedLine.text := by
    rw [lines, faithfulLines, map_text_spliced, map_text_endedLines]
  have faithful_iff := joinLines_eq_textOf_iff (faithfulLines accepted text) (endsInNewline text)
  rw [← kept] at faithful_iff
  exact
    { unified := by rw [Patch.render, kept, joinLines_eq_textOf]
      faithful_iff
      plain := fun short ended => by
        refine faithful_iff.mpr ⟨fun line member => ?_, fun any => ?_⟩
        · rw [lineEnd_faithfulLines short ended member]
          decide
        · rw [lastEnd, List.getLast?_eq_some_getLast any, ended]
          exact lineEnd_faithfulLines short ended (List.getLast_mem any)
      unchanged_iff := fun none => by
        rw [Patch.render, lines, none, simultaneous_nil, joinLines_splitLines_iff] }

/-- A text of one line that no fix touches loses its carriage return. -/
theorem returnNewline_dropped :
    let text := "a\r\n"
    let patch := Patch.apply (splitLines text) [] .zero
    patch.applied = [] ∧ patch.render (endsInNewline text) = "a\n" ∧
      patch.render (endsInNewline text) ≠ text := by
  decide +kernel

end StrategyMend.Repair
