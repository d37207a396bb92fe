import StrategyMend.Proofs.Python.Beginnings
import StrategyMend.Proofs.Python.Gaps

/-!
# Lexemes at the start of a line

What opens a line is the first thing on it behind its margin (`Cursor.Opens.lookahead_eq`), and it
stands in the column of the margin unless a backslash joins the line to the one above
(`Cursor.Opens.column?_of_hasLine`).
-/

set_option autoImplicit false

namespace StrategyMend.Python

/-! ## The start of a line in a text -/

/-- The text behind which a line begins: none, or one that ends in a line break. -/
def EndsLine (above : List Char) : Prop := above = [] ∨ ∃ top, above = top ++ ['\n']

variable {text above before margin shown rest : List Char} {cursor : Cursor}

/-- A line is told by the number of lines above it. -/
theorem eq_of_count_newline (ends : EndsLine above) (ends' : EndsLine before)
    (same : above ++ shown = before ++ rest) (rows : above.count '\n' = before.count '\n') :
    above = before ∧ shown = rest := by
  have whole {first second more : List Char} (ends : EndsLine second) (split : second = first ++ more)
      (rows : first.count '\n' = second.count '\n') : more = [] := by
    rcases List.eq_nil_or_concat more with none | ⟨front, last, rfl⟩
    · exact none
    · rcases ends with rfl | ⟨top, rfl⟩
      · simp at split
      · rw [List.concat_eq_append, ← List.append_assoc] at split
        obtain ⟨rfl, same⟩ := List.append_inj' split rfl
        obtain rfl : last = '\n' := (List.cons.inj same).1.symm
        simp at rows
  rcases List.append_eq_append_iff.mp same with ⟨more, split, rest⟩ | ⟨more, split, rest⟩
  · obtain rfl := whole ends' split rows
    exact ⟨by rw [split, List.append_nil], by simpa using rest⟩
  · obtain rfl := whole ends split rows.symm
    exact ⟨by rw [split, List.append_nil], by simpa using rest.symm⟩

/-- Blanks before a visible text. -/
theorem dropWhile_append_of_isVisible (blank : ∀ c ∈ margin, isGapChar c = true)
    (visible : IsVisible shown) : (margin ++ shown).dropWhile isGapChar = shown := by
  rw [List.dropWhile_append_of_pos blank]
  cases shown with
  | nil => rfl
  | cons c shown => exact List.dropWhile_cons_of_neg (by simp [(visible c rfl).1])

namespace Cursor

/-- What opens a line has only blanks before it on the line. -/
theorem Opens.starts_line (opens : cursor.Opens text) (present : cursor.lookahead.2 ≠ []) :
    ∃ before margin, text = before ++ (margin ++ cursor.lookahead.2) ∧ EndsLine before ∧
      before.count '\n' = cursor.lookahead.1.row ∧ ∀ c ∈ margin, isGapChar c = true := by
  obtain ⟨past, same, row⟩ := opens.isAt
  obtain ⟨skipped, split, rows, -, covers⟩ := Gap.begins_scan false ⟨[], 0, false, false, cursor.row⟩
    cursor.rest
  change cursor.rest = skipped ++ cursor.lookahead.2 at split
  change cursor.lookahead.1.row = cursor.row + skipped.count '\n' at rows
  cases covers with
  | finish _ ended => exact absurd ended present
  | @broken top margin blank =>
    refine ⟨past ++ top ++ ['\n'], margin, ?_, .inr ⟨past ++ top, rfl⟩, ?_, blank⟩
    · rw [same, split]
      simp
    · rw [rows, ← row]
      simp [count_newline_of_blank blank]
  | unbroken _ blank quiet =>
    rcases opens.first with broken | rfl
    · rcases quiet broken with columns | breaks
      · exact absurd rfl columns
      · cases breaks
    · refine ⟨[], skipped, split, .inl rfl, ?_, blank⟩
      rw [rows, count_newline_of_blank blank]
      rfl

/-- **What opens a line is what stands on it behind the margin.** -/
theorem Opens.lookahead_eq (opens : cursor.Opens text) (present : cursor.lookahead.2 ≠ [])
    (same : text = above ++ (margin ++ shown)) (ends : EndsLine above)
    (row : cursor.lookahead.1.row = above.count '\n') (blank : ∀ c ∈ margin, isGapChar c = true)
    (visible : IsVisible shown) : cursor.lookahead.2 = shown := by
  obtain ⟨before, margin', split, ends', rows, blank'⟩ := opens.starts_line present
  obtain ⟨rfl, line⟩ := eq_of_count_newline ends ends' (same.symm.trans split) (by rw [rows, row])
  rw [← dropWhile_append_of_isVisible blank visible, line,
    dropWhile_append_of_isVisible blank' opens.isAt.settled.2]

end Cursor

/-! ## Columns -/

/-- The line break behind the text is not joined to it by a backslash. -/
def IsWhole (above : List Char) : Prop := ¬['\\'] <:+ above ∧ ¬['\\', '\r'] <:+ above

theorem IsWhole.of_suffix (whole : IsWhole above) (ends : rest <:+ above) : IsWhole rest :=
  ⟨fun escape => whole.1 (escape.trans ends), fun escape => whole.2 (escape.trans ends)⟩

theorem IsWhole.tail {c : Char} (whole : IsWhole (c :: above)) : IsWhole above :=
  whole.of_suffix (List.suffix_cons c above)

/-- The line break behind a text comes behind each of its characters. -/
theorem eq_cons_of_ne_newline {c : Char} (plain : c ≠ '\n')
    (same : c :: rest = above ++ '\n' :: shown) :
    ∃ left, above = c :: left ∧ rest = left ++ '\n' :: shown := by
  cases above with
  | nil => exact absurd (List.cons.inj same).1 plain
  | cons d left =>
    obtain ⟨rfl, rest⟩ := List.cons.inj same
    exact ⟨left, rfl, rest⟩

/-- A line break that a backslash joins is not the one behind a whole text. -/
theorem IsWhole.eq_append_of_escape (whole : IsWhole above)
    (same : '\\' :: '\n' :: rest = above ++ '\n' :: shown) :
    ∃ left, rest = left ++ '\n' :: shown ∧ IsWhole left := by
  obtain ⟨above, rfl, split⟩ := eq_cons_of_ne_newline (by decide) same
  cases above with
  | nil => exact absurd (List.suffix_refl _) whole.1
  | cons d above => exact ⟨above, (List.cons.inj split).2, whole.tail.tail⟩

theorem IsWhole.eq_append_of_escapeReturn (whole : IsWhole above)
    (same : '\\' :: '\r' :: '\n' :: rest = above ++ '\n' :: shown) :
    ∃ left, rest = left ++ '\n' :: shown ∧ IsWhole left := by
  obtain ⟨line, rfl, split⟩ := eq_cons_of_ne_newline (by decide) same
  obtain ⟨line, rfl, split'⟩ := eq_cons_of_ne_newline (by decide) split
  cases line with
  | nil => exact absurd (List.suffix_refl _) whole.2
  | cons d line => exact ⟨line, (List.cons.inj split').2, whole.tail.tail.tail⟩

namespace Gap

/-- Behind a column that was found a line break is found, or comes behind the comment that is read. -/
structure Marks (comment : Bool) (state : GapState) : Prop where
  breaks : state.columns ≠ [] → comment = true ∨ state.broken = true
  shown : comment = true → state.hidden = false

variable {c : Char} {comment : Bool} {state : GapState}

theorem Marks.newline (marks : Marks comment state) : Marks false state.newline where
  breaks := fun found => .inr <| by
    rcases marks.breaks found with comment | broken
    · simp [GapState.newline, marks.shown comment]
    · simp [GapState.newline, broken]
  shown := nofun

/-- A blank outside of a comment changes nothing about that. -/
theorem Marks.blank (marks : Marks comment state) (code : ¬comment = true) {next : GapState}
    (same : next.columns = state.columns ∧ next.broken = state.broken) : Marks false next where
  breaks := fun found => by simpa [code, same] using marks.breaks (same.1 ▸ found)
  shown := nofun

/-- At the start of a line. -/
theorem columns_of_margin_line (blank : ∀ c ∈ margin, c = ' ' ∨ c = '\t')
    (visible : isGapChar c = false ∧ c ≠ '\n') (code : c ≠ '#') (plain : c ≠ '\\')
    (marks : Marks false state) (first : state.column = 0) :
    let gap := scan false state (margin ++ c :: shown)
    gap.columns = [] ∨ gap.columns.getLast? = some (marginColumn margin) := by
  intro gap
  have found : gap = _ := scan_margin margin blank state (c :: shown)
  rw [scan_visible visible code plain, first, Nat.zero_add] at found
  rw [found]
  cases breaks : state.broken with
  | true => simp [GapState.finish, GapState.mark]
  | false =>
    have none : state.columns = [] := by
      by_contra columns
      simpa [breaks] using marks.breaks columns
    simp [GapState.finish, GapState.mark, none]

/-- **What a gap ends in front of stands in the column of its margin,** where a line break that no
backslash joins comes before the margin. -/
theorem columns_of_margin (blank : ∀ c ∈ margin, c = ' ' ∨ c = '\t')
    (visible : isGapChar c = false ∧ c ≠ '\n') (code : c ≠ '#') (plain : c ≠ '\\')
    (whole : IsWhole above) (text : List Char) (same : text = above ++ '\n' :: (margin ++ c :: shown))
    (marks : Marks comment state) (reached : (scan comment state text).rest = c :: shown) :
    (scan comment state text).columns = [] ∨
      (scan comment state text).columns.getLast? = some (marginColumn margin) := by
  fun_induction scan comment state text generalizing above with
  | case1 => simp at same
  | case2 comment state rest ih =>
    cases above with
    | nil =>
      obtain rfl := (List.cons.inj same).2
      exact columns_of_margin_line blank visible code plain marks.newline rfl
    | cons d above => exact ih whole.tail (List.cons.inj same).2 marks.newline reached
  | case3 state rest ih =>
    obtain ⟨left, split, whole⟩ := whole.eq_append_of_escape same
    exact ih whole split marks.newline reached
  | case4 comment state rest inside ih =>
    obtain ⟨left, split, whole⟩ := whole.eq_append_of_escape same
    exact ih whole split (marks.blank inside ⟨rfl, rfl⟩) reached
  | case5 state rest ih =>
    obtain ⟨left, split, whole⟩ := whole.eq_append_of_escapeReturn same
    exact ih whole split marks.newline reached
  | case6 comment state rest inside ih =>
    obtain ⟨left, split, whole⟩ := whole.eq_append_of_escapeReturn same
    exact ih whole split (marks.blank inside ⟨rfl, rfl⟩) reached
  | case7 state c rest plain _ _ ih =>
    obtain ⟨left, rfl, split⟩ := eq_cons_of_ne_newline plain same
    exact ih whole.tail split marks reached
  | case8 comment state rest inside _ _ _ ih =>
    obtain ⟨left, rfl, split⟩ := eq_cons_of_ne_newline (by decide) same
    exact ih whole.tail split (marks.blank inside ⟨rfl, rfl⟩) reached
  | case9 comment state rest inside _ _ _ _ ih =>
    obtain ⟨left, rfl, split⟩ := eq_cons_of_ne_newline (by decide) same
    exact ih whole.tail split (marks.blank inside ⟨rfl, rfl⟩) reached
  | case10 comment state c rest plain _ _ inside _ _ _ ih =>
    obtain ⟨left, rfl, split⟩ := eq_cons_of_ne_newline plain same
    exact ih whole.tail split (marks.blank inside ⟨rfl, rfl⟩) reached
  | case11 comment state c rest plain _ _ inside _ _ _ _ ih =>
    obtain ⟨left, rfl, split⟩ := eq_cons_of_ne_newline plain same
    exact ih whole.tail split (marks.blank inside ⟨rfl, rfl⟩) reached
  | case12 comment state rest _ _ _ _ _ _ _ _ ih =>
    obtain ⟨left, rfl, split⟩ := eq_cons_of_ne_newline (by decide) same
    exact ih whole.tail split ⟨fun _ => .inl rfl, fun _ => rfl⟩ reached
  | case13 comment state c rest plain _ _ inside _ _ _ _ _ last ih =>
    obtain ⟨left, rfl, split⟩ := eq_cons_of_ne_newline plain same
    exact ih whole.tail split (marks.blank inside ⟨rfl, rfl⟩) reached
  | case14 comment state d rest =>
    have longer := congrArg List.length (reached.symm.trans same)
    simp at longer
    omega

end Gap

/-- Behind the text `above` a line begins with a margin of spaces and tabulators and a character of
program text, and no backslash joins it to the line above. -/
structure HasLine (text above margin : List Char) (c : Char) (shown : List Char) : Prop where
  text_eq : text = above ++ (margin ++ c :: shown)
  ends : EndsLine above
  whole : ∀ top, above = top ++ ['\n'] → IsWhole top
  blank : ∀ c ∈ margin, c = ' ' ∨ c = '\t'
  visible : isGapChar c = false ∧ c ≠ '\n'
  code : c ≠ '#'
  plain : c ≠ '\\'

namespace Cursor

variable {c : Char} (line : HasLine text above margin c shown) (opens : cursor.Opens text)
  (row : cursor.lookahead.1.row = above.count '\n')
include line opens row

/-- What opens the line is its first character. -/
theorem Opens.lookahead_of_hasLine (present : cursor.lookahead.2 ≠ []) :
    cursor.lookahead.2 = c :: shown := by
  refine opens.lookahead_eq present line.text_eq line.ends row (fun d member => ?_) ?_
  · rcases line.blank d member with rfl | rfl
    · rfl
    · rfl
  · rintro d ⟨⟩
    exact line.visible

/-- **It stands in the column of the margin.** -/
theorem Opens.column?_of_hasLine (broken : cursor.IsBroken) (present : cursor.lookahead.2 ≠ []) :
    cursor.lookahead.1.column? = some (marginColumn margin) := by
  have lexeme := opens.lookahead_of_hasLine line row present
  obtain ⟨past, whole, rows⟩ := opens.isAt
  obtain ⟨skipped, split, rows', -, covers⟩ := Gap.begins_scan false ⟨[], 0, false, false, cursor.row⟩
    cursor.rest
  change cursor.rest = skipped ++ cursor.lookahead.2 at split
  change cursor.lookahead.1.row = cursor.row + skipped.count '\n' at rows'
  cases covers with
  | finish _ ended => exact absurd ended present
  | @broken top margin' blank' =>
    have before : (past ++ top ++ ['\n']).count '\n' = above.count '\n' := by
      rw [← row, rows', ← rows]
      simp [count_newline_of_blank blank']
    have split' : past ++ top ++ ['\n'] ++ (margin' ++ c :: shown) = above ++ (margin ++ c :: shown) := by
      rw [← line.text_eq, whole, split, lexeme]
      simp
    obtain ⟨above_eq, same⟩ := eq_of_count_newline (.inr ⟨past ++ top, rfl⟩) line.ends split' before
    obtain rfl := List.append_cancel_right same
    have upTo : IsWhole top :=
      (line.whole (past ++ top) above_eq.symm).of_suffix (List.suffix_append past top)
    have initial : Gap.Marks false ⟨[], 0, false, false, cursor.row⟩ :=
      ⟨fun found => absurd rfl found, nofun⟩
    rcases Gap.columns_of_margin line.blank line.visible line.code line.plain upTo cursor.rest
      (by rw [split, lexeme]; simp) initial lexeme with none | found
    · exact absurd none broken
    · exact found
  | unbroken _ _ quiet =>
    rcases quiet broken with columns | breaks
    · exact absurd rfl columns
    · cases breaks

/-- So the block around it is not indented further. -/
theorem Opens.indent_le (inside : cursor.Inside) (present : cursor.lookahead.2 ≠ []) :
    cursor.indent ≤ marginColumn margin := by
  by_cases broken : cursor.IsBroken
  · exact inside _ (opens.column?_of_hasLine line row broken present)
  · rcases opens.first with broken' | rfl
    · exact absurd broken' broken
    · exact Nat.zero_le _

end Cursor

end StrategyMend.Python
