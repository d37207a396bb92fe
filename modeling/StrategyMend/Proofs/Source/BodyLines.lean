import StrategyMend.Proofs.Source.BodyTop
import StrategyMend.Proofs.Source.InnermostFunction
import StrategyMend.Proofs.Source.Silenced

/-!
# Statements put in at the top of a body

Lines of code that leave nothing open, begin with the indentation of a body and are no function
headers may be put in at its top (`FitsBody`). Each of them is then a statement of the function: the way
up from it meets no other header first, since between the header and the top there is none
(`enclosingFunction?_of_body`). The lines around are read as before, and the block of the function
becomes longer by just the new lines (`insertedIntoBody_top`).

How far a block reaches into lines on which a statement may begin is told by the first statement among
them (`blockEndFrom_eq_iff`).
-/

set_option autoImplicit false

namespace StrategyMend.Source

/-! ## Lines that fit a body -/

/-- A line of code that leaves nothing open, begins with an indentation and is no function header. -/
structure FitsBody (indent line : String) : Prop where
  code : isCode line = true
  contained : Carry.closed.after line = .closed
  indented : indent.toList <+: line.toList
  plain : isDefHeader line = false

theorem isIndentChar_of_mem_indentation {line : String} :
    ∀ c ∈ (indentation line).toList, isIndentChar c = true := by
  rw [indentation, String.toList_ofList]
  exact fun _ => List.mem_takeWhile_imp

/-- A line that begins with an indentation is at least as wide. -/
theorem indentWidth_le_of_prefix {indent line : String}
    (indents : ∀ c ∈ indent.toList, isIndentChar c = true) (indented : indent.toList <+: line.toList) :
    indentWidth indent ≤ indentWidth line := by
  obtain ⟨rest, text⟩ := indented
  rw [indentWidth, indentWidth, ← text, columnAfter_append_of_indents indents]
  exact le_columnAfter _ rest

/-! ## The function around a line of its body -/

/-- On the way up from a body, its header is the first function header that is met. -/
theorem enclosingAbove_append {indent : Nat} {header : MarkedLine} {inner above : List MarkedLine}
    (statement : header.isStatement = true) (definition : isDefHeader header.text = true)
    (below : indentWidth header.text < indent)
    (body : ∀ line ∈ inner, line.isStatement = true →
      indentWidth header.text < indentWidth line.text ∧ isDefHeader line.text = false) :
    enclosingAbove indent (inner ++ header :: above) = definedName? header.text := by
  induction inner generalizing indent with
  | nil => simp [enclosingAbove, statement, definition, Nat.not_le_of_lt below]
  | cons line rest ih =>
    have here := body line (by simp)
    rw [List.cons_append, enclosingAbove_cons fun begins _ => (here begins).2]
    refine ih ?_ fun other member => body other (List.mem_cons_of_mem line member)
    split
    · next begins => exact Nat.lt_min.mpr ⟨below, (here begins).1⟩
    · exact below

/-- **A line of a body belongs to the function,** if all statements in front of it are deeper than the
header and none is a function header. -/
theorem enclosingFunction?_of_body {lines : List String} {front inner behind : List MarkedLine}
    {header line : MarkedLine} (marks : markLines lines = front ++ header :: (inner ++ line :: behind))
    (statement : header.isStatement = true) (definition : isDefHeader header.text = true)
    (below : indentWidth header.text < indentWidth line.text)
    (body : ∀ line ∈ inner, line.isStatement = true →
      indentWidth header.text < indentWidth line.text ∧ isDefHeader line.text = false) :
    enclosingFunction? lines (front.length + 1 + inner.length) = definedName? header.text := by
  have length : (front ++ header :: inner).length = front.length + 1 + inner.length := by
    rw [List.length_append, List.length_cons]
    omega
  have split : markLines lines = (front ++ header :: inner) ++ line :: behind := by
    rw [marks, List.append_assoc, List.cons_append]
  have here : lines[front.length + 1 + inner.length]? = some line.text := by
    refine getElem?_of_markLines ?_
    rw [split, ← length, List.getElem?_append_right (Nat.le_refl _), Nat.sub_self]
    rfl
  have above : ((markLines lines).take (front.length + 1 + inner.length)).reverse =
      inner.reverse ++ header :: front.reverse := by
    rw [split, ← length, List.take_left]
    simp
  rw [enclosingFunction?, here, above]
  exact enclosingAbove_append statement definition below fun other member =>
    body other (List.mem_reverse.mp member)

/-! ## New lines at the top -/

/-- Lines put in in front of the line `place` are statements of the function `name` whose header is on
the line `header`. The lines around them begin statements as before, and the block of the function
becomes longer by just these lines. -/
structure InsertedIntoBody (lines inserted patched : List String) (header place : Nat)
    (name : String) : Prop where
  edited : patched = lines.take place ++ (inserted ++ lines.drop place)
  starts : statementStarts patched = (statementStarts lines).take place ++
    (List.replicate inserted.length true ++ (statementStarts lines).drop place)
  enclosed : ∀ offset < inserted.length, enclosingFunction? patched (place + offset) = some name
  grown : blockEnd patched header = blockEnd lines header + inserted.length

section Insert

variable {lines inserted : List String} {index place : Nat} {top : BodyTop}

/-- New lines that leave nothing open begin statements themselves, and the others do as before. -/
theorem statementStarts_insert (nothing : Carry.closed.afterLines (lines.take place) = .closed)
    (contained : ∀ line ∈ inserted, Carry.closed.after line = .closed) :
    statementStarts (lines.take place ++ (inserted ++ lines.drop place)) =
      (statementStarts lines).take place ++
        (List.replicate inserted.length true ++ (statementStarts lines).drop place) := by
  have above : (markLines lines).take place = markLines (lines.take place) :=
    take_markFrom .closed lines place
  have below : (markLines lines).drop place = markFrom .closed (lines.drop place) := by
    rw [markLines_eq_markFrom, drop_markFrom, nothing]
  have marks : (inserted.map fun line => MarkedLine.mk line true).map MarkedLine.starts =
      List.replicate inserted.length true := by
    rw [List.map_map]
    exact List.map_const'
  rw [← map_starts_markLines, markLines_insert _ nothing contained, List.map_append, List.map_append,
    marks, ← above, ← below, List.map_take, List.map_drop, map_starts_markLines]

/-- What fits a body is at least as wide as the body. -/
theorem indentWidth_le_of_fitsBody (found : bodyTop? lines index = some top) {line : String}
    (fits : FitsBody top.indent line) : indentWidth top.indent ≤ indentWidth line := by
  obtain ⟨inner, indented⟩ := exists_indentation found
  exact indentWidth_le_of_prefix (indented ▸ isIndentChar_of_mem_indentation) fits.indented

section Header

variable {header : MarkedLine} {name : String} (found : bodyTop? lines index = some top)
  (closed : Carry.closed.afterLines lines = .closed)
  (here : (markLines lines)[index]? = some header) (starts : header.starts = true)
  (names : NamesFunction header.text name) (fits : ∀ line ∈ inserted, FitsBody top.indent line)

include found closed here starts names fits

/-- New lines that fit a body belong to its function. -/
theorem enclosingFunction?_insert_top {first rest : List String} {line : String}
    (split : inserted = first ++ line :: rest) :
    enclosingFunction? (lines.take top.index ++ (inserted ++ lines.drop top.index))
      (top.index + first.length) = some name := by
  subst split
  have definition := isDefHeader_of_bodyTop? found here
  have statement := MarkedLine.isStatement_iff.mpr ⟨starts, isCode_of_isDefHeader definition⟩
  have wide := fun line member => indentWidth_le_of_fitsBody found (fits line member)
  obtain ⟨front, opener, passed, rfl, marks, topBehind, marks'⟩ :=
    exists_marks_insert_top found closed fun line member => (fits line member).contained
  obtain rfl : opener = header := by
    rw [marks, List.getElem?_append_right (Nat.le_refl _), Nat.sub_self] at here
    exact Option.some.inj here
  obtain ⟨inner, indented, below⟩ := topBehind.indent
  have deeper (text : String) (member : text ∈ first ++ line :: rest) :
      indentWidth opener.text < indentWidth text := by
    have level := wide text member
    rw [indented, indentWidth_indentation] at level
    exact Nat.lt_of_lt_of_le below level
  -- In front of the line stand the lines in front of the top and the new lines before it.
  have body : ∀ other ∈ passed ++ first.map fun text => MarkedLine.mk text true,
      other.isStatement = true →
        indentWidth opener.text < indentWidth other.text ∧ isDefHeader other.text = false := by
    intro other member begins
    rcases List.mem_append.mp member with early | new
    · refine ⟨?_, topBehind.plain other early begins⟩
      obtain ⟨starts, code⟩ := MarkedLine.isStatement_iff.mp begins
      rcases topBehind.stays other early with continued | blank | deep
      · simp [starts] at continued
      · simp [code] at blank
      · exact deep
    · obtain ⟨text, listed, rfl⟩ := List.mem_map.mp new
      have member := List.mem_append_left (line :: rest) listed
      exact ⟨deeper text member, (fits text member).plain⟩
  have spread : passed ++ ((first ++ line :: rest).map (fun text => MarkedLine.mk text true) ++
        markFrom .closed (lines.drop top.index)) =
      (passed ++ first.map fun text => MarkedLine.mk text true) ++ ⟨line, true⟩ ::
        ((rest.map fun text => MarkedLine.mk text true) ++
          markFrom .closed (lines.drop top.index)) := by
    simp
  rw [spread] at marks'
  have number : top.index + first.length = front.length + 1 +
      (passed ++ first.map fun text => MarkedLine.mk text true).length := by
    rw [List.length_append, List.length_map, topBehind.place, Nat.add_assoc _ passed.length]
  rw [number, ← names.definedName?]
  exact enclosingFunction?_of_body marks' statement definition (deeper line (by simp)) body

/-- **New lines that fit a body land in it at its top and disturb nothing.** -/
theorem insertedIntoBody_top (any : inserted ≠ []) :
    InsertedIntoBody lines inserted (lines.take top.index ++ (inserted ++ lines.drop top.index)) index
      top.index name := by
  have contained := fun line member => (fits line member).contained
  refine ⟨rfl, statementStarts_insert (afterLines_bodyTop? found closed) contained, ?enclosed,
    blockEnd_insert_within found closed any contained fun line member =>
      ⟨(fits line member).code, indentWidth_le_of_fitsBody found (fits line member)⟩⟩
  case enclosed =>
    intro offset inside
    have split : inserted =
        inserted.take offset ++ inserted[offset] :: inserted.drop (offset + 1) := by
      rw [← List.drop_eq_getElem_cons inside, List.take_append_drop]
    have belongs := enclosingFunction?_insert_top found closed here starts names fits split
    rwa [List.length_take_of_le (Nat.le_of_lt inside)] at belongs

end Header

end Insert

/-! ## How far a block reaches into lines that begin statements -/

/-- From where nothing is open, no line joins a block exactly if the first statement is not deeper than
its header. -/
theorem blockEndFrom_eq_iff {indent last index : Nat} (order : last < index) (lines : List String) :
    blockEndFrom indent last index (markFrom .closed lines) = last ↔
      ∀ next, (markFrom .closed lines).find? MarkedLine.isStatement = some next →
        indentWidth next.text ≤ indent := by
  induction lines generalizing index with
  | nil => simp [blockEndFrom]
  | cons line rest ih =>
    have first : markFrom .closed (line :: rest) =
        ⟨line, true⟩ :: markFrom (Carry.closed.after line) rest := rfl
    cases code : isCode line with
    | false =>
      have idle : MarkedLine.isStatement ⟨line, true⟩ = false := code
      rw [first, after_closed_of_not_isCode code, List.find?_cons_of_neg (by simp [idle]),
        ← ih (Nat.lt_succ_of_lt order), blockEndFrom]
      simp [code]
    | true =>
      have begins : MarkedLine.isStatement ⟨line, true⟩ = true := code
      rw [first, List.find?_cons_of_pos begins, blockEndFrom]
      simp only [code, Bool.not_true, Bool.false_eq_true, if_false, Option.some.injEq, forall_eq']
      split
      · next deeper =>
        have further : index ≤ blockEndFrom indent index (index + 1)
            (markFrom (Carry.closed.after line) rest) := le_blockEndFrom (Nat.le_succ index) _
        exact iff_of_false (by omega) (Nat.not_le_of_lt deeper)
      · next shallow => exact iff_of_true rfl (Nat.le_of_not_lt shallow)

/-- **A conditional of two lines ends with its second line** exactly if the next statement behind the
place where it is put in is not deeper than its first. -/
theorem blockEnd_insert_pair {lines : List String} {opener body : String} {place : Nat}
    (placed : place ≤ lines.length) (nothing : Carry.closed.afterLines (lines.take place) = .closed)
    (contained : ∀ line ∈ [opener, body], Carry.closed.after line = .closed)
    (code : isCode body = true) (deeper : indentWidth opener < indentWidth body) :
    blockEnd (lines.take place ++ ([opener, body] ++ lines.drop place)) place = place + 1 ↔
      ∀ next, ((markLines lines).drop place).find? MarkedLine.isStatement = some next →
        indentWidth next.text ≤ indentWidth opener := by
  have below : (markLines lines).drop place = markFrom .closed (lines.drop place) := by
    rw [markLines_eq_markFrom, drop_markFrom, nothing]
  have front : (markLines (lines.take place)).length = place := by
    rw [length_markLines, List.length_take_of_le placed]
  have marks : markLines (lines.take place ++ ([opener, body] ++ lines.drop place)) =
      markLines (lines.take place) ++ ⟨opener, true⟩ ::
        ([⟨body, true⟩] ++ markFrom .closed (lines.drop place)) :=
    markLines_insert (lines.drop place) nothing contained
  have reached := blockEnd_eq_blockEndFrom marks
  have joins : ∀ line ∈ [MarkedLine.mk body true], JoinsBlock (indentWidth opener) line := by
    simp [JoinsBlock, code, deeper]
  rw [front, blockEndFrom_append_joining (List.cons_ne_nil _ _) joins] at reached
  rw [reached, below]
  exact blockEndFrom_eq_iff (Nat.lt_succ_self _) (lines.drop place)

end StrategyMend.Source
