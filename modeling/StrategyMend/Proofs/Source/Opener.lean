import StrategyMend.Proofs.Source.Nearest

/-!
# Which line a branch belongs to

A branch is aligned exactly with the header of its own indentation that it may continue, when all
statements between the two are deeper and fewer than the window (`branchAt_eq_aligned_iff`). Such a
header is the nearest statement above the branch that is not deeper.
-/

set_option autoImplicit false

namespace StrategyMend.Source

/-! ## Aligned branches -/

/-- The branch may continue the header: the two are statements of one indentation, and all
statements between them are deeper. -/
structure Continues (kind : BranchKind) (header : MarkedLine) (between : List MarkedLine)
    (branch : MarkedLine) : Prop where
  branchStatement : branch.isStatement = true
  classified : classify branch.text = some kind
  headerStatement : header.isStatement = true
  accepts : kind.accepts header.text = true
  level : indentWidth header.text = indentWidth branch.text
  deeper : ∀ line ∈ between, line.isStatement = true →
    indentWidth branch.text < indentWidth line.text

/-- A header that a branch may continue is the nearest statement above it that is not deeper. -/
theorem Continues.isNearest {marked : List MarkedLine} {index opener : Nat} {kind : BranchKind}
    {header branch : MarkedLine} (above : opener < index) (here : marked[opener]? = some header)
    (continues : Continues kind header ((marked.take index).drop (opener + 1)) branch) :
    IsNearest marked (indentWidth branch.text) index opener header where
  above := above
  here := here
  statement := continues.headerStatement
  notDeeper := Nat.le_of_eq continues.level
  deeper := continues.deeper

/-- A branch is aligned with the header that it may continue, or an orphan if the header does not
lie within the window. -/
theorem Continues.branchAt_eq {marked : List MarkedLine} {window index opener : Nat}
    {kind : BranchKind} {header branch : MarkedLine} (above : opener < index)
    (headerHere : marked[opener]? = some header) (branchHere : marked[index]? = some branch)
    (continues : Continues kind header ((marked.take index).drop (opener + 1)) branch) :
    branchAt marked window index =
      some ⟨index, kind,
        if ((marked.take index).drop (opener + 1)).countP MarkedLine.isStatement < window
        then .aligned opener else .orphaned⟩ := by
  obtain ⟨inside, -⟩ := List.getElem?_eq_some_iff.mp branchHere
  have nearest := continues.isNearest above headerHere
  have found := (nearest?_eq_some_iff (Nat.le_of_lt inside)).mpr nearest
  rw [StrategyMend.Source.branchAt_eq branchHere continues.branchStatement continues.classified,
    belonging, found]
  simp only [continues.accepts, continues.level, nearest.statementCount_eq, ↓reduceIte]
  by_cases near : ((marked.take index).drop (opener + 1)).countP MarkedLine.isStatement < window
  · rw [if_pos near, if_neg (Nat.not_lt.mpr near)]
  · rw [if_neg near, if_pos (Nat.lt_succ_of_le (Nat.not_lt.mp near))]

/-- **A branch is aligned exactly with the header that it may continue**, within the window. -/
theorem branchAt_eq_aligned_iff {marked : List MarkedLine} {window index opener : Nat}
    {kind : BranchKind} :
    branchAt marked window index = some ⟨index, kind, .aligned opener⟩ ↔
      ∃ header branch, opener < index ∧ marked[opener]? = some header ∧
        marked[index]? = some branch ∧
          Continues kind header ((marked.take index).drop (opener + 1)) branch ∧
            ((marked.take index).drop (opener + 1)).countP MarkedLine.isStatement < window := by
  constructor
  · intro found
    obtain ⟨branch, here, statement, classified, -, aligned⟩ := exists_of_branchAt_eq found
    obtain ⟨inside, -⟩ := List.getElem?_eq_some_iff.mp here
    obtain ⟨header, nearest, near, accepts, level⟩ :=
      exists_of_belonging_eq_aligned (Nat.le_of_lt inside) aligned.symm
    rw [nearest.statementCount_eq] at near
    exact ⟨header, branch, nearest.above, nearest.here, here,
      ⟨statement, classified, nearest.statement, accepts, level, nearest.deeper⟩, near⟩
  · rintro ⟨header, branch, above, headerHere, branchHere, continues, near⟩
    rw [continues.branchAt_eq above headerHere branchHere, if_pos near]

/-! ## All branches -/

theorem branchAt_eq_none {marked : List MarkedLine} {window index : Nat} {line : MarkedLine}
    (here : marked[index]? = some line)
    (plain : line.isStatement = false ∨ classify line.text = none) :
    branchAt marked window index = none := by
  rcases plain with other | plain
  · simp [branchAt, here, other]
  · cases statement : line.isStatement <;> simp [branchAt, here, plain, statement]

/-- The lines behind a line do not matter to what begins on it. -/
theorem branchAt_append_of_lt {front : List MarkedLine} {index : Nat} (inside : index < front.length)
    (back : List MarkedLine) (window : Nat) :
    branchAt (front ++ back) window index = branchAt front window index := by
  have above : linesAbove (front ++ back) index = linesAbove front index := by
    rw [linesAbove_of_le (by simp; omega), linesAbove_of_le (by omega),
      List.take_append_of_le_length (by omega)]
  simp only [branchAt, List.getElem?_append_left inside, above]

/-- A listed branch is the one on its line. -/
theorem branchAt_of_mem_branches {lines : List String} {window : Nat} {branch : Branch}
    (member : branch ∈ branches lines window) :
    branchAt (markLines lines) window branch.index = some branch := by
  obtain ⟨index, -, found⟩ := List.mem_filterMap.mp member
  obtain ⟨_, -, -, -, rfl, -⟩ := exists_of_branchAt_eq found
  exact found

/-- The branches that begin on lines, where `front` stands above them. -/
def branchesFrom (window : Nat) (front : List MarkedLine) : List MarkedLine → List Branch
  | [] => []
  | line :: rest =>
    (branchAt (front ++ [line]) window front.length).toList ++
      branchesFrom window (front ++ [line]) rest

theorem branchesFrom_append (window : Nat) (front first second : List MarkedLine) :
    branchesFrom window front (first ++ second) =
      branchesFrom window front first ++ branchesFrom window (front ++ first) second := by
  induction first generalizing front with
  | nil => simp [branchesFrom]
  | cons line rest ih => simp [branchesFrom, ih]

/-- The branches of a text can be listed from above, line by line. -/
theorem branches_eq_branchesFrom (lines : List String) (window : Nat) :
    branches lines window = branchesFrom window [] (markLines lines) := by
  have listed (front rest : List MarkedLine) :
      (List.range' front.length rest.length).filterMap (branchAt (front ++ rest) window) =
        branchesFrom window front rest := by
    induction rest generalizing front with
    | nil => rfl
    | cons line rest ih =>
      have below := ih (front ++ [line])
      rw [List.append_assoc, List.singleton_append, List.length_append, List.length_singleton]
        at below
      have first : branchAt (front ++ line :: rest) window front.length =
          branchAt (front ++ [line]) window front.length := by
        rw [← List.singleton_append, ← List.append_assoc, branchAt_append_of_lt (by simp)]
      rw [List.length_cons, List.range'_succ, branchesFrom, ← below, ← first, List.filterMap_cons]
      cases branchAt (front ++ line :: rest) window front.length <;> rfl
  have whole := listed [] (markLines lines)
  rw [length_markLines] at whole
  rw [branches, List.range_eq_range', ← whole]
  rfl

end StrategyMend.Source
