import Mathlib.Order.Bounds.Basic
import StrategyMend.Proofs.Source.Extent

/-!
# Blocks are nested or apart

The search for the end of a block stops at the first statement behind the header that is not deeper,
or at the end of the lines (`IsStop`). The block ends with a line of code or one that continues another,
and all that lies between it and the stop is blank lines and comments (`exists_isStop`). So a statement
lies within a block exactly if all statements from the header down to it are deeper than the header
(`le_blockEnd_iff`).

A statement within a block has its stop not behind that of the block, so its own block ends there too
(`blockEnd_le_of_le`). Together with how the lines around a block are read once the block is gone:
`blockReach_blockEnd`.
-/

set_option autoImplicit false

namespace StrategyMend.Source

/-! ## Lines by their numbers -/

/-- A line that continues an earlier one or holds code. -/
def IsSolid (lines : List String) (index : Nat) : Prop :=
  ∃ line, (markLines lines)[index]? = some line ∧
    (line.starts = false ∨ isCode line.text = true)

/-- A blank line or a comment that continues no earlier line. -/
def IsIdleLine (lines : List String) (index : Nat) : Prop :=
  ∃ line, (markLines lines)[index]? = some line ∧ line.starts = true ∧ isCode line.text = false

/-- A line of code on which a statement begins. -/
def IsStatementLine (lines : List String) (index : Nat) : Prop :=
  ∃ line, (markLines lines)[index]? = some line ∧ line.isStatement = true

/-- A line on which a statement begins that is no deeper than the line `header`. -/
def LeavesBlock (lines : List String) (header index : Nat) : Prop :=
  ∃ opener line, lines[header]? = some opener ∧ (markLines lines)[index]? = some line ∧
    line.isStatement = true ∧ indentWidth line.text ≤ indentWidth opener

/-- The first line behind a header on which a statement begins that is no deeper; the number of lines
if there is none. -/
def IsStop (lines : List String) (header stop : Nat) : Prop :=
  IsLeast {index | header < index ∧ (index = lines.length ∨ LeavesBlock lines header index)} stop

section Block

variable {lines : List String} {header index stop : Nat}

theorem IsStatementLine.isSolid (statement : IsStatementLine lines index) : IsSolid lines index := by
  obtain ⟨line, here, begins⟩ := statement
  exact ⟨line, here, .inr (MarkedLine.isStatement_iff.mp begins).2⟩

theorem IsStatementLine.lt (statement : IsStatementLine lines index) : index < lines.length := by
  obtain ⟨line, here, -⟩ := statement
  obtain ⟨inside, -⟩ := List.getElem?_eq_some_iff.mp here
  rwa [length_markLines] at inside

theorem IsIdleLine.not_isSolid (idle : IsIdleLine lines index) : ¬ IsSolid lines index := by
  obtain ⟨line, here, starts, blank⟩ := idle
  rintro ⟨other, there, solid⟩
  obtain rfl : line = other := Option.some.inj (here.symm.trans there)
  simp [starts, blank] at solid

theorem LeavesBlock.isStatementLine (leaves : LeavesBlock lines header index) :
    IsStatementLine lines index := by
  obtain ⟨-, line, -, here, statement, -⟩ := leaves
  exact ⟨line, here, statement⟩

theorem IsStop.lt (isStop : IsStop lines header stop) : header < stop := isStop.1.1

theorem IsStop.le_length (isStop : IsStop lines header stop) : stop ≤ lines.length := by
  rcases isStop.1.2 with rfl | leaves
  · exact Nat.le_refl _
  · exact Nat.le_of_lt leaves.isStatementLine.lt

/-- Between a header and its stop no statement leaves the block. -/
theorem IsStop.deeper (isStop : IsStop lines header stop) {opener : String} {line : MarkedLine}
    (here : lines[header]? = some opener) (behind : header < index) (before : index < stop)
    (there : (markLines lines)[index]? = some line) (statement : line.isStatement = true) :
    indentWidth opener < indentWidth line.text := by
  by_contra shallow
  have leaves : LeavesBlock lines header index :=
    ⟨opener, line, here, there, statement, Nat.le_of_not_lt shallow⟩
  exact Nat.not_le_of_lt before (isStop.2 ⟨behind, .inr leaves⟩)

/-! ## What lies in front of the stop -/

section Behind

variable {front inner between outer : List MarkedLine} {first : MarkedLine}

/-- A line behind the header, counted from the one right behind it. -/
theorem getElem?_belowHeader {behind : List MarkedLine}
    (marks : markLines lines = front ++ first :: behind) (offset : Nat) :
    (markLines lines)[front.length + 1 + offset]? = behind[offset]? := by
  rw [marks, List.getElem?_append_right (by omega), Nat.add_assoc, Nat.add_sub_cancel_left,
    Nat.add_comm 1, List.getElem?_cons_succ]

theorem getElem?_header {behind : List MarkedLine}
    (marks : markLines lines = front ++ first :: behind) :
    lines[front.length]? = some first.text := by
  refine getElem?_of_markLines ?_
  rw [marks, List.getElem?_append_right (Nat.le_refl _), Nat.sub_self]
  rfl

/-- No statement among the lines in front of the outer ones leaves the block. -/
theorem Extent.not_leavesBlock (extent : Extent (indentWidth first.text) inner between outer)
    (marks : markLines lines = front ++ first :: (inner ++ (between ++ outer))) {offset : Nat}
    (before : offset < inner.length + between.length) :
    ¬ LeavesBlock lines front.length (front.length + 1 + offset) := by
  rintro ⟨_, line, here, there, statement, shallow⟩
  obtain rfl := Option.some.inj ((getElem?_header marks).symm.trans here)
  obtain ⟨starts, code⟩ := MarkedLine.isStatement_iff.mp statement
  rw [getElem?_belowHeader marks] at there
  rcases Nat.lt_or_ge offset inner.length with within | upTo
  · rw [List.getElem?_append_left within] at there
    rcases extent.stays line (List.mem_of_getElem? there) with continued | idle | deep
    · simp [starts] at continued
    · simp [code] at idle
    · omega
  · rw [List.getElem?_append_right upTo, List.getElem?_append_left (by omega)] at there
    have idle := (extent.idle line (List.mem_of_getElem? there)).2
    simp [code] at idle

theorem Extent.isStop (extent : Extent (indentWidth first.text) inner between outer)
    (marks : markLines lines = front ++ first :: (inner ++ (between ++ outer))) :
    IsStop lines front.length (front.length + 1 + (inner.length + between.length)) := by
  have length : lines.length = front.length + 1 + (inner.length + between.length) + outer.length := by
    rw [← length_markLines lines, marks]
    simp only [List.length_append, List.length_cons]
    omega
  refine ⟨⟨by omega, ?_⟩, ?_⟩
  · cases outer with
    | nil => exact .inl length.symm
    | cons line rest =>
      obtain ⟨statement, shallow⟩ := extent.leaves line rfl
      refine .inr ⟨first.text, line, getElem?_header marks, ?_, statement, shallow⟩
      rw [getElem?_belowHeader marks, ← List.append_assoc,
        List.getElem?_append_right (Nat.le_of_eq List.length_append), List.length_append,
        Nat.sub_self]
      rfl
  · rintro index ⟨after, last⟩
    by_contra before
    obtain ⟨offset, rfl⟩ := Nat.exists_eq_add_of_le after
    rcases last with last | leaves
    · omega
    · exact extent.not_leavesBlock marks (by omega) leaves

theorem Extent.isSolid (extent : Extent (indentWidth first.text) inner between outer)
    (marks : markLines lines = front ++ first :: (inner ++ (between ++ outer))) :
    inner = [] ∨ IsSolid lines (front.length + inner.length) := by
  rcases inner.eq_nil_or_concat with rfl | ⟨others, last, rfl⟩
  · exact .inl rfl
  · refine .inr ⟨last, ?_, extent.solid last (by simp)⟩
    have place : front.length + (others.concat last).length = front.length + 1 + others.length := by
      rw [List.length_concat]
      omega
    rw [place, getElem?_belowHeader marks, List.concat_eq_append, List.append_assoc,
      List.getElem?_append_right (Nat.le_refl _), Nat.sub_self]
    rfl

theorem Extent.isIdleLine (extent : Extent (indentWidth first.text) inner between outer)
    (marks : markLines lines = front ++ first :: (inner ++ (between ++ outer))) {offset : Nat}
    (inBetween : offset < between.length) :
    IsIdleLine lines (front.length + 1 + (inner.length + offset)) := by
  refine ⟨between[offset], ?_, extent.idle _ (List.getElem_mem inBetween)⟩
  rw [getElem?_belowHeader marks, List.getElem?_append_right (Nat.le_add_right _ _),
    Nat.add_sub_cancel_left, List.getElem?_append_left inBetween,
    List.getElem?_eq_getElem inBetween]

end Behind

/-- **The block of a header is solid at its end, and only blank lines and comments lie between it and
its stop.** -/
theorem exists_isStop (inside : header < lines.length) :
    ∃ stop, IsStop lines header stop ∧ header ≤ blockEnd lines header ∧
      blockEnd lines header < stop ∧
        (blockEnd lines header = header ∨ IsSolid lines (blockEnd lines header)) ∧
          ∀ index, blockEnd lines header < index → index < stop → IsIdleLine lines index := by
  have marked : header < (markLines lines).length := by rwa [length_markLines]
  obtain ⟨front, first, behind, rfl, marks⟩ : ∃ front first behind,
      front.length = header ∧ markLines lines = front ++ first :: behind :=
    ⟨_, _, _, List.length_take_of_le (Nat.le_of_lt marked), by
      rw [← List.drop_eq_getElem_cons marked, List.take_append_drop]⟩
  obtain ⟨inner, between, outer, rfl, extent, reached⟩ := exists_extent marks
  refine ⟨_, extent.isStop marks, by omega, by omega, ?_, fun index after before => ?_⟩
  · rw [reached]
    rcases extent.isSolid marks with rfl | solid
    · exact .inl rfl
    · exact .inr solid
  · obtain ⟨offset, rfl⟩ := Nat.exists_eq_add_of_le
      (show front.length + 1 + inner.length ≤ index by omega)
    rw [Nat.add_assoc]
    exact extent.isIdleLine marks (by omega)

/-- Solid lines in front of the stop belong to the block. -/
theorem IsStop.le_blockEnd (isStop : IsStop lines header stop) (before : index < stop)
    (solid : IsSolid lines index) : index ≤ blockEnd lines header := by
  have inside : header < lines.length := Nat.lt_of_lt_of_le isStop.lt isStop.le_length
  obtain ⟨stop', isStop', -, -, -, idle⟩ := exists_isStop inside
  obtain rfl : stop' = stop := isStop'.unique isStop
  by_contra outside
  exact (idle index (Nat.lt_of_not_le outside) before).not_isSolid solid

/-- **A statement lies within a block** if from the header down to it all statements are deeper than
the header. -/
theorem le_blockEnd_iff {opener : String} (here : lines[header]? = some opener)
    (statement : IsStatementLine lines index) :
    index ≤ blockEnd lines header ↔
      ∀ between line, header < between → between ≤ index →
        (markLines lines)[between]? = some line → line.isStatement = true →
          indentWidth opener < indentWidth line.text := by
  obtain ⟨inside, -⟩ := List.getElem?_eq_some_iff.mp here
  obtain ⟨stop, isStop, -, before, -, -⟩ := exists_isStop inside
  constructor
  · intro within between line after upTo there begins
    exact isStop.deeper here after (by omega) there begins
  · intro deeper
    refine isStop.le_blockEnd ?_ statement.isSolid
    by_contra beyond
    rcases isStop.1.2 with last | ⟨_, line, here', there, begins, shallow⟩
    · exact beyond (last ▸ statement.lt)
    · obtain rfl := Option.some.inj (here.symm.trans here')
      have deep := deeper stop line isStop.lt (Nat.le_of_not_lt beyond) there begins
      omega

/-! ## Nested blocks -/

/-- A statement within a block has its block within it too. -/
theorem blockEnd_le_of_le {second : Nat} (behind : header < second)
    (statement : IsStatementLine lines second) (within : second ≤ blockEnd lines header) :
    blockEnd lines second ≤ blockEnd lines header := by
  have inside : header < lines.length := Nat.lt_trans behind statement.lt
  obtain ⟨stop, isStop, -, before, -, -⟩ := exists_isStop inside
  obtain ⟨stop', isStop', -, before', ends, -⟩ := exists_isStop statement.lt
  have order : second < stop := Nat.lt_of_le_of_lt within before
  -- What leaves the outer block is not deeper than its header, hence not deeper than the statement.
  have earlier : stop' ≤ stop := by
    refine isStop'.2 ⟨order, ?_⟩
    rcases isStop.1.2 with last | ⟨opener, line, here, there, begins, shallow⟩
    · exact .inl last
    · obtain ⟨opener', here', begins'⟩ := statement
      have deeper := isStop.deeper here behind order here' begins'
      exact .inr ⟨opener'.text, line, getElem?_of_markLines here', there, begins, by omega⟩
  have solid : IsSolid lines (blockEnd lines second) := by
    rcases ends with same | solid
    · rw [same]
      exact statement.isSolid
    · exact solid
  exact isStop.le_blockEnd (Nat.lt_of_lt_of_le before' earlier) solid

/-- Without a block that begins with a statement the lines around it are read as before. -/
theorem statementStarts_eraseBlock (starts : (statementStarts lines)[header]? = some true) :
    statementStarts (lines.take header ++ lines.drop (blockEnd lines header + 1)) =
      (statementStarts lines).take header ++
        (statementStarts lines).drop (blockEnd lines header + 1) := by
  rw [← map_starts_markLines, List.getElem?_map] at starts
  obtain ⟨line, here, begins⟩ := Option.map_eq_some_iff.mp starts
  have marks := markLines_exchangeBlock here begins (List.forall_mem_nil _)
  rw [List.nil_append, List.map_nil, List.nil_append] at marks
  rw [← map_starts_markLines, marks, List.map_append, List.map_take, List.map_drop,
    map_starts_markLines]

/-- The block that the line `header` opens ends with the line `last`. -/
structure BlockReach (lines : List String) (header last stop : Nat) : Prop where
  isStop : IsStop lines header stop
  /-- In front of the stop the block ends with the last line that is code or continues another. -/
  isGreatest : IsGreatest
    {index | header ≤ index ∧ index < stop ∧ (index = header ∨ IsSolid lines index)} last
  idle : ∀ index, last < index → index < stop → IsIdleLine lines index
  /-- The line behind the block, if there is one, continues none. -/
  next : ∀ starts, (statementStarts lines)[last + 1]? = some starts → starts = true
  /-- Without the block of a statement the lines around it are read as before. -/
  erased : (statementStarts lines)[header]? = some true →
    statementStarts (lines.take header ++ lines.drop (last + 1)) =
      (statementStarts lines).take header ++ (statementStarts lines).drop (last + 1)
  /-- The block of a statement further down is nested in this one or lies behind it. -/
  nested : ∀ second, header < second → IsStatementLine lines second →
    last < second ∨ blockEnd lines second ≤ last

/-- **How far blocks reach.** -/
theorem blockReach_blockEnd (inside : header < lines.length) :
    ∃ stop, BlockReach lines header (blockEnd lines header) stop := by
  obtain ⟨stop, isStop, order, before, ends, idle⟩ := exists_isStop inside
  refine ⟨stop, isStop, ⟨⟨order, before, ends⟩, ?_⟩, idle, fun starts here => ?_,
    statementStarts_eraseBlock, fun second behind statement => ?_⟩
  · rintro index ⟨-, upTo, rfl | solid⟩
    · exact order
    · exact isStop.le_blockEnd upTo solid
  · rw [← map_starts_markLines, List.getElem?_map] at here
    obtain ⟨line, there, rfl⟩ := Option.map_eq_some_iff.mp here
    exact (blockEnd_spec inside).2.2 line there
  · rcases Nat.lt_or_ge (blockEnd lines header) second with apart | within
    · exact .inl apart
    · exact .inr (blockEnd_le_of_le behind statement within)

end Block

/-- A loop with a nested conditional, a string and a call that run on at the margin, and a comment
and a blank line behind it. -/
def unevenLoop : List String :=
  ["for a in b:", "  if a:", "\tc = '''", "else:", "'''", "  # done", "  d(", "e)", "    # so far", "",
    "f()"]

theorem blockReach_unevenLoop :
    0 < unevenLoop.length ∧ 1 < unevenLoop.length ∧
      (∃ stop, BlockReach unevenLoop 0 7 stop) ∧ ∃ stop, BlockReach unevenLoop 1 4 stop := by
  have outerEnd : blockEnd unevenLoop 0 = 7 := by decide +kernel
  have innerEnd : blockEnd unevenLoop 1 = 4 := by decide +kernel
  refine ⟨by decide, by decide, ?_, ?_⟩
  · rw [← outerEnd]
    exact blockReach_blockEnd (by decide)
  · rw [← innerEnd]
    exact blockReach_blockEnd (by decide)

end StrategyMend.Source
