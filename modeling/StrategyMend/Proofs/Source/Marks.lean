import Mathlib.Data.List.Basic
import StrategyMend.Source.Statement

/-!
# The marks of consecutive lines

The marks of lines depend on the lines before them only through what those leave open
(`markFrom_append`). A statement may begin on a line exactly if nothing is open there
(`startsStatement_iff`), so lines behind the beginning of a statement are marked as if they stood
alone.
-/

set_option autoImplicit false

namespace StrategyMend.Source

/-! ## What lines leave open -/

namespace Carry

/-- What is open after several lines. -/
def afterLines (carry : Carry) (lines : List String) : Carry := lines.foldl after carry

@[simp]
theorem afterLines_nil (carry : Carry) : carry.afterLines [] = carry := rfl

@[simp]
theorem afterLines_cons (carry : Carry) (line : String) (rest : List String) :
    carry.afterLines (line :: rest) = (carry.after line).afterLines rest := rfl

theorem afterLines_append (carry : Carry) (first second : List String) :
    carry.afterLines (first ++ second) = (carry.afterLines first).afterLines second :=
  List.foldl_append

/-- A statement may begin exactly where nothing is open. -/
theorem startsStatement_iff {carry : Carry} :
    carry.startsStatement = true ↔ carry = .closed := by
  obtain ⟨depth, triple, continued⟩ := carry
  cases triple <;> cases continued <;> simp [startsStatement, closed]

end Carry

/-! ## Marks -/

/-- The lines with their marks, given what is open before them. -/
def markFrom (carry : Carry) (lines : List String) : List MarkedLine :=
  List.zipWith MarkedLine.mk lines (startsAfter carry lines)

theorem markLines_eq_markFrom (lines : List String) : markLines lines = markFrom .closed lines := rfl

@[simp]
theorem markFrom_nil (carry : Carry) : markFrom carry [] = [] := rfl

@[simp]
theorem markFrom_cons (carry : Carry) (line : String) (rest : List String) :
    markFrom carry (line :: rest) =
      ⟨line, carry.startsStatement⟩ :: markFrom (carry.after line) rest := rfl

/-- The marks of further lines depend on what the first ones leave open. -/
theorem markFrom_append (carry : Carry) (first second : List String) :
    markFrom carry (first ++ second) =
      markFrom carry first ++ markFrom (carry.afterLines first) second := by
  induction first generalizing carry with
  | nil => rfl
  | cons line rest ih => simp [ih]

@[simp]
theorem map_text_markFrom (carry : Carry) (lines : List String) :
    (markFrom carry lines).map MarkedLine.text = lines := by
  induction lines generalizing carry with
  | nil => rfl
  | cons line rest ih => simp [ih]

@[simp]
theorem length_markFrom (carry : Carry) (lines : List String) :
    (markFrom carry lines).length = lines.length := by
  rw [← List.length_map, map_text_markFrom]

@[simp]
theorem length_markLines (lines : List String) : (markLines lines).length = lines.length :=
  length_markFrom .closed lines

/-- The marks of the first lines do not depend on further lines. -/
theorem markLines_append (first second : List String) :
    markLines (first ++ second) =
      markLines first ++ markFrom (Carry.closed.afterLines first) second :=
  markFrom_append .closed first second

theorem take_markFrom (carry : Carry) (lines : List String) (count : Nat) :
    (markFrom carry lines).take count = markFrom carry (lines.take count) := by
  induction lines generalizing carry count with
  | nil => simp
  | cons line rest ih => cases count <;> simp [ih]

theorem drop_markFrom (carry : Carry) (lines : List String) (count : Nat) :
    (markFrom carry lines).drop count =
      markFrom (carry.afterLines (lines.take count)) (lines.drop count) := by
  induction lines generalizing carry count with
  | nil => simp
  | cons line rest ih => cases count <;> simp [ih]

/-- A marked line is the line with that number, marked by what is open before it. -/
theorem getElem?_markFrom (carry : Carry) (lines : List String) (index : Nat) :
    (markFrom carry lines)[index]? =
      lines[index]?.map fun line =>
        ⟨line, (carry.afterLines (lines.take index)).startsStatement⟩ := by
  induction lines generalizing carry index with
  | nil => rfl
  | cons line rest ih =>
    cases index with
    | zero => rfl
    | succ index => simp [ih]

theorem map_starts_markFrom (carry : Carry) (lines : List String) :
    (markFrom carry lines).map MarkedLine.starts = startsAfter carry lines := by
  induction lines generalizing carry with
  | nil => rfl
  | cons line rest ih => simp [ih, startsAfter]

theorem map_starts_markLines (lines : List String) :
    (markLines lines).map MarkedLine.starts = statementStarts lines :=
  map_starts_markFrom .closed lines

/-- Whether a statement may begin on a line is told by what is open before it. -/
theorem getElem?_statementStarts (lines : List String) (index : Nat) :
    (statementStarts lines)[index]? =
      lines[index]?.map fun _ => (Carry.closed.afterLines (lines.take index)).startsStatement := by
  rw [statementStarts, ← map_starts_markFrom, List.getElem?_map, getElem?_markFrom, Option.map_map]
  rfl

/-- Among lines that leave nothing open, each may begin a statement. -/
theorem markLines_of_closed {lines : List String}
    (closed : ∀ line ∈ lines, Carry.closed.after line = .closed) :
    markLines lines = lines.map fun line => ⟨line, true⟩ := by
  rw [markLines_eq_markFrom]
  induction lines with
  | nil => rfl
  | cons line rest ih =>
    rw [markFrom_cons, closed line (by simp),
      ih fun other member => closed other (List.mem_cons_of_mem line member)]
    rfl

/-- Marking keeps the lines. -/
theorem map_text_getElem?_markLines (lines : List String) (index : Nat) :
    (markLines lines)[index]?.map MarkedLine.text = lines[index]? := by
  rw [← List.getElem?_map, markLines_eq_markFrom, map_text_markFrom]

theorem getElem?_of_markLines {lines : List String} {index : Nat} {line : MarkedLine}
    (here : (markLines lines)[index]? = some line) : lines[index]? = some line.text := by
  rw [← map_text_getElem?_markLines, here, Option.map_some]

theorem drop_markLines {lines : List String} {index : Nat} {line : MarkedLine}
    (here : (markLines lines)[index]? = some line) :
    (markLines lines).drop index = line :: (markLines lines).drop (index + 1) := by
  rw [List.drop_eq_getElem?_toList_append, here]
  rfl

theorem MarkedLine.isStatement_iff {line : MarkedLine} :
    line.isStatement = true ↔ line.starts = true ∧ isCode line.text = true := by
  rw [isStatement, Bool.and_eq_true]

/-- The line on which a statement begins finds nothing open. -/
theorem afterLines_of_starts {lines : List String} {index : Nat} {line : MarkedLine}
    (here : (markLines lines)[index]? = some line) (starts : line.starts = true) :
    Carry.closed.afterLines (lines.take index) = .closed := by
  rw [markLines_eq_markFrom, getElem?_markFrom] at here
  obtain ⟨text, -, rfl⟩ := Option.map_eq_some_iff.mp here
  exact Carry.startsStatement_iff.mp starts

/-- Another line in the place of one on which a statement begins does not change how the others are
read, if it leaves open the same. -/
theorem markLines_set {lines : List String} {index : Nat} {line : MarkedLine} {new : String}
    (here : (markLines lines)[index]? = some line) (starts : line.starts = true)
    (same : Carry.closed.after new = Carry.closed.after line.text) :
    markLines (lines.set index new) = (markLines lines).set index ⟨new, true⟩ := by
  have closed := afterLines_of_starts here starts
  have text := getElem?_of_markLines here
  obtain ⟨inside, -⟩ := List.getElem?_eq_some_iff.mp text
  have behind : Carry.closed.afterLines (lines.take (index + 1)) = Carry.closed.after new := by
    rw [List.take_add_one, text, Option.toList_some, Carry.afterLines_append, closed,
      Carry.afterLines_cons, Carry.afterLines_nil, same]
  have first : Carry.closed.startsStatement = true := rfl
  rw [List.set_eq_take_append_cons_drop, if_pos inside, List.set_eq_take_append_cons_drop,
    if_pos (by rwa [length_markLines]), markLines_eq_markFrom, markLines_eq_markFrom,
    take_markFrom, drop_markFrom, behind, markFrom_append, closed, markFrom_cons, first]

end StrategyMend.Source
