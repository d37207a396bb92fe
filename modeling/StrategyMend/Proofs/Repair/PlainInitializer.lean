import StrategyMend.Proofs.Python.InitialStatement
import StrategyMend.Proofs.Repair.Displacement
import StrategyMend.Proofs.Repair.Rereading
import StrategyMend.Proofs.Repair.TopOfBody
import StrategyMend.Proofs.Source.WholeText

/-!
# Plain initializers

An initializer is plain if its lines are, up to the top of its body, a header with a plain head, idle
lines and at most a docstring, and if no line of its block reads as the standard initial value
(`PlainInitializer`). That is a condition on the lines before a repair. In the text of a patch that
applies the fix for the initializer, the initializer has the same lines, and then the initial value
at the top of its body (`PlainInitializer.exists_hasHeader`).
-/

set_option autoImplicit false

namespace StrategyMend.Repair

open Number Python Source Text

/-- The line `index` is the header of a function that reads `margin` and `head` before the colon, and
behind it, up to the top of the body, there are idle lines and at most a docstring. No line of the
function reads as the initial value. -/
structure PlainInitializer (lines : List String) (index : Nat) (top : BodyTop)
    (margin head : List Char) (idles : List (List Char)) (preamble : List Char) : Prop where
  found : bodyTop? lines index = some top
  shown : endedText ((lines.take top.index).drop index) ++ top.indent.toList =
    margin ++ (head ++ ':' :: (idleText idles ++ (top.indent.toList ++ preamble)))
  blank : ∀ c ∈ margin, c = ' ' ∨ c = '\t'
  headed : IsPlainHead head
  nonempty : idles ≠ []
  idle : ∀ line ∈ idles, '\n' ∉ line ∧ Python.isIdle line = true
  deeper : marginColumn margin < marginColumn top.indent.toList
  begins : IsPreamble top.indent.toList preamble
  /-- No backslash joins the header to the line above. -/
  whole : ∀ line ∈ (lines.take index).getLast?, IsWhole line.toList
  unset : ∀ line ∈ span lines index (blockEnd lines index), trim line ≠ "self.order = None"

/-! ## Text above a line -/

theorem endsLine_endedText (lines : List String) : EndsLine (endedText lines) := by
  rcases List.eq_nil_or_concat lines with rfl | ⟨front, line, rfl⟩
  · exact .inl rfl
  · exact .inr ⟨endedText front ++ line.toList, by simp [endedText]⟩

/-- A text that ends in a whole line is whole. -/
theorem isWhole_append {before line : List Char} (ends : EndsLine before) (whole : IsWhole line) :
    IsWhole (before ++ line) := by
  have within {mark : List Char} (plain : '\n' ∉ mark) (ended : mark <:+ before ++ line) :
      mark <:+ line := by
    rcases ends with rfl | ⟨top, rfl⟩
    · exact ended
    · rw [List.append_assoc] at ended
      rcases List.suffix_or_suffix_of_suffix ended (List.suffix_append top _) with inside | outside
      · rcases List.suffix_cons_iff.mp inside with same | inside
        · exact absurd (same ▸ List.mem_cons_self) plain
        · exact inside
      · exact absurd (outside.subset (by simp)) plain
  exact ⟨fun ended => whole.1 (within (by decide) ended),
    fun ended => whole.2 (within (by decide) ended)⟩

/-- The text of lines is whole where its last line is. -/
theorem isWhole_of_endedText {lines : List String} {top : List Char}
    (whole : ∀ line ∈ lines.getLast?, IsWhole line.toList) (same : endedText lines = top ++ ['\n']) :
    IsWhole top := by
  rcases List.eq_nil_or_concat lines with rfl | ⟨front, line, rfl⟩
  · exact absurd (congrArg List.length same) (by simp [endedText])
  · have split : endedText (front ++ [line]) = endedText front ++ line.toList ++ ['\n'] := by
      simp [endedText]
    rw [List.concat_eq_append, split] at same
    obtain ⟨rfl, -⟩ := List.append_inj' same rfl
    exact isWhole_append (endsLine_endedText front) (whole line (by simp))

/-! ## The initial value in the patched text -/

section Patch

variable {lines : List String} {index : Nat} {top : BodyTop} {margin head preamble : List Char}
  {idles : List (List Char)}

/-- An indentation consists of spaces and tabulators. -/
theorem eq_of_mem_indentation {line : String} {c : Char} (member : c ∈ (indentation line).toList) :
    c = ' ' ∨ c = '\t' := by
  rw [indentation, String.toList_ofList] at member
  simpa [isIndentChar] using List.mem_takeWhile_imp member

/-- A preamble and the initial value begin with a character of program text. -/
theorem exists_cons_of_preamble {indent : List Char} (begins : IsPreamble indent preamble)
    (rest : List Char) : ∃ c shown, preamble ++ ("self.order = ".toList ++ rest) = c :: shown ∧
      (isGapChar c = false ∧ c ≠ '\n') ∧ c ≠ '#' ∧ c ≠ '\\' := by
  cases begins with
  | none => exact ⟨'s', _, rfl, by decide, by decide, by decide⟩
  | @docstring quote content trailing docstring free idle =>
    have quotes := docstring.quotes
    simp only [isQuote, Bool.or_eq_true, decide_eq_true_eq] at quotes
    refine ⟨quote, _, rfl, ?_⟩
    rcases quotes with rfl | rfl <;> decide

variable (plain : PlainInitializer lines index top margin head idles preamble)
include plain

/-- The fix for the initializer puts the initial value in first. -/
theorem PlainInitializer.initialLines_eq (others : List String) : ∃ more,
    initialLines top ("self.order = None" :: others) lines index =
      (top.indent ++ "self.order = None") :: more := by
  have missing : "self.order = None" ∉ (span lines index (blockEnd lines index)).map trim := by
    intro member
    obtain ⟨line, inside, reads⟩ := List.mem_map.mp member
    exact plain.unset line inside reads
  rw [initialLines, missingStatements, List.filter_cons_of_pos (by simpa using missing)]
  exact ⟨_, rfl⟩

/-- The last line above the header is whole, also where other lines stand above it. -/
theorem PlainInitializer.isWhole_above {front : List String} (upTo : index ≤ lines.length)
    (none : index = 0 → front = []) :
    ∀ line ∈ (front ++ (lines.take index).drop (index - 1)).getLast?, IsWhole line.toList := by
  cases index with
  | zero => simp [none rfl]
  | succ above =>
    have last : (front ++ (lines.take (above + 1)).drop above).getLast? =
        (lines.take (above + 1)).getLast? := by
      have more : ((lines.take (above + 1)).drop above).getLast? = (lines.take (above + 1)).getLast? := by
        rw [List.getLast?_drop, if_neg (by simp; omega)]
      have some : (lines.take (above + 1)).getLast?.isSome = true :=
        List.getLast?_isSome.mpr (List.ne_nil_of_length_pos (by simp; omega))
      rw [List.getLast?_append, more, Option.or_of_isSome some]
    rw [Nat.add_sub_cancel, last]
    exact plain.whole

/-- The lines of the initializer and the initial value are the text of a header and the first line of its
body. -/
theorem PlainInitializer.joinLines_eq (upper back : List String) (trailing : Bool) :
    ∃ c shown tail, c :: shown = preamble ++ ("self.order = ".toList ++ tail) ∧
      (isGapChar c = false ∧ c ≠ '\n') ∧ c ≠ '#' ∧ c ≠ '\\' ∧
      (joinLines (upper ++ ((lines.take top.index).drop index ++
          (top.indent ++ "self.order = None") :: back)) trailing).toList =
        endedText upper ++ (margin ++ (head ++ ':' :: (idleText idles ++
          (top.indent.toList ++ c :: shown)))) := by
  obtain ⟨rest, joined⟩ := @exists_joinLines_eq (upper ++ (lines.take top.index).drop index) back
    (top.indent ++ "self.order = None") trailing
  obtain ⟨c, shown, first, visible, code, unescaped⟩ :=
    exists_cons_of_preamble plain.begins ("None".toList ++ rest)
  refine ⟨c, shown, "None".toList ++ rest, first.symm, visible, code, unescaped, ?_⟩
  calc (joinLines (upper ++ ((lines.take top.index).drop index ++
          (top.indent ++ "self.order = None") :: back)) trailing).toList
      = endedText (upper ++ (lines.take top.index).drop index) ++
          ((top.indent ++ "self.order = None").toList ++ rest) := by
        rw [← joined, List.append_assoc upper]
    _ = endedText upper ++ (endedText ((lines.take top.index).drop index) ++ top.indent.toList ++
          ("self.order = ".toList ++ ("None".toList ++ rest))) := by
        simp [endedText_append, String.toList_append]
    _ = endedText upper ++ (margin ++ (head ++ ':' :: (idleText idles ++
          (top.indent.toList ++ c :: shown)))) := by
        rw [plain.shown, ← first]
        simp only [List.append_assoc, List.cons_append]

/-- **The patched text has the header with the initial value at the top of its body,** if the other
applied fixes leave the lines from the one above the header to the top alone. -/
theorem PlainInitializer.exists_hasHeader {fixes : List Fix} {threshold : Binary64}
    (unapplied : ∀ fix ∈ fixes, fix.applied = false) (free : ∀ line ∈ lines, '\n' ∉ line.toList)
    {fix : Fix} (member : fix ∈ (Patch.apply lines fixes threshold).fixes) (applied : fix.applied = true)
    (inserts : fix.isInsert = true) (placed : fix.line = top.index + 1) {more : List String}
    (puts : fix.replacementLines = (top.indent ++ "self.order = None") :: more)
    (apart : ∀ other ∈ (Patch.apply lines fixes threshold).fixes, other.applied = true →
      other ≠ fix → other.IsAbove index ∨ top.index < other.line) (trailing : Bool) :
    ∃ above c shown tail, HasHeader ((Patch.apply lines fixes threshold).render trailing).toList above
        margin head idles top.indent.toList c shown ∧
      c :: shown = preamble ++ ("self.order = ".toList ++ tail) ∧
      (above.count '\n' : Int) =
        index + displacement (Patch.apply lines fixes threshold).fixes index := by
  obtain ⟨inside, behind, within⟩ := lt_of_bodyTop? plain.found
  obtain ⟨front, back, patched, length⟩ := @exists_lines_apply_eq lines fixes threshold unapplied fix
    (index - 1) top.index member applied inserts placed (by omega) within
      fun other listed marked differ =>
        (apart other listed marked differ).imp_left (Fix.IsAbove.mono (by omega))
  have moved : (front.length : Int) =
      (index - 1 : Nat) + displacement (Patch.apply lines fixes threshold).fixes index := by
    rw [length, displacement_congr fun other listed marked => ?_]
    have outside : other.IsAbove index ∨ top.index < other.line := by
      by_cases same : other = fix
      · exact .inr (same ▸ placed ▸ Nat.lt_succ_self _)
      · exact apart other listed marked same
    simp only [Fix.IsAbove] at outside ⊢
    omega
  -- The line above the header, if there is one, stands above it in the patch, too.
  let upper := front ++ (lines.take index).drop (index - 1)
  have lower : (lines.take top.index).drop (index - 1) =
      (lines.take index).drop (index - 1) ++ (lines.take top.index).drop index := by
    have split := List.take_append_drop index (lines.take top.index)
    rw [List.take_take, Nat.min_eq_left (Nat.le_of_lt behind)] at split
    rw [← split, List.drop_append_of_le_length (by simp; omega), split]
  rw [lower, puts, List.append_assoc, ← List.append_assoc front] at patched
  have count : upper.length = front.length + (index - (index - 1)) := by
    simp [upper]
    omega
  have rows : (endedText upper).count '\n' = upper.length := by
    refine count_endedText fun line member => ?_
    refine newline_not_mem_apply fixes threshold free line ?_
    rw [patched]
    exact List.mem_append_left _ member
  have whole : ∀ line ∈ upper.getLast?, IsWhole line.toList := by
    refine plain.isWhole_above (Nat.le_of_lt inside) fun first => ?_
    subst first
    rw [displacement_zero] at moved
    exact List.eq_nil_of_length_eq_zero (by omega)
  obtain ⟨c, shown, tail, first, visible, code, unescaped, joined⟩ :=
    plain.joinLines_eq upper (more ++ back) trailing
  obtain ⟨line, indented⟩ := exists_indentation plain.found
  refine ⟨endedText upper, c, shown, tail, ?_, first, by omega⟩
  refine ⟨?_, endsLine_endedText _, fun before => isWhole_of_endedText whole, plain.blank, plain.headed,
    plain.nonempty, plain.idle, fun d member => eq_of_mem_indentation (indented ▸ member), plain.deeper,
    visible, code, unescaped⟩
  rw [Patch.render, patched]
  exact joined

end Patch

end StrategyMend.Repair
