import Mathlib.Data.List.Basic
import StrategyMend.Proofs.Source.Marks
import StrategyMend.Source.Branch

/-!
# The line that decides about a branch

Where a branch belongs is decided by the nearest statement above it that is not deeper, if that one
lies within the window. If it is a function header further out, the nearest such statement above
the header decides (`belonging`). The search line by line finds the same (`matchAt_eq_belonging`):
it passes over the lines in front of the deciding one at the cost of their statements, and the
deciding one ends the search or is the boundary behind which the search goes on.

What is found within a window is also found within a wider one (`belonging_of_le`).
-/

set_option autoImplicit false

namespace StrategyMend.Source

/-! ## The search -/

section Search

variable {kind : BranchKind} {indent budget : Nat} {boundary : Option Nat}

theorem findOpener_zero (kind : BranchKind) (indent : Nat) (boundary : Option Nat)
    (above : List (Nat × MarkedLine)) : findOpener kind indent 0 boundary above = .orphaned := by
  cases above <;> rfl

theorem findOpener_cons_of_not_isStatement {entry : Nat × MarkedLine}
    {above : List (Nat × MarkedLine)} (other : entry.2.isStatement = false) :
    findOpener kind indent budget boundary (entry :: above) =
      findOpener kind indent budget boundary above := by
  cases budget with
  | zero => rw [findOpener_zero, findOpener_zero]
  | succ budget => simp [findOpener, other]

theorem findOpener_cons_of_deeper {entry : Nat × MarkedLine} {above : List (Nat × MarkedLine)}
    (statement : entry.2.isStatement = true) (deeper : indent < indentWidth entry.2.text) :
    findOpener kind indent budget boundary (entry :: above) =
      findOpener kind indent (budget - 1) boundary above := by
  cases budget with
  | zero => rw [findOpener_zero, findOpener_zero]
  | succ budget => simp [findOpener, statement, deeper]

/-- **Deeper statements are passed over at the cost of one each.** -/
theorem findOpener_append_of_deeper {between above : List (Nat × MarkedLine)}
    (deeper : ∀ entry ∈ between, entry.2.isStatement = true → indent < indentWidth entry.2.text) :
    findOpener kind indent budget boundary (between ++ above) =
      findOpener kind indent (budget - between.countP fun entry => entry.2.isStatement) boundary
        above := by
  induction between generalizing budget with
  | nil => rfl
  | cons entry rest ih =>
    have deeper' := fun other member => deeper other (List.mem_cons_of_mem entry member)
    rw [List.cons_append]
    cases statement : entry.2.isStatement with
    | false =>
      rw [findOpener_cons_of_not_isStatement statement, ih deeper', List.countP_cons_of_neg]
      simp [statement]
    | true =>
      rw [findOpener_cons_of_deeper statement (deeper entry (by simp) statement), ih deeper',
        List.countP_cons_of_pos (by simp [statement]), Nat.sub_sub, Nat.add_comm 1]

end Search

/-! ## Lines above a line -/

/-- The lines with their numbers, the first of which is `start`. -/
def numbered (start : Nat) (lines : List MarkedLine) : List (Nat × MarkedLine) :=
  (List.range' start lines.length).zip lines

theorem numbered_append (start : Nat) (first second : List MarkedLine) :
    numbered start (first ++ second) =
      numbered start first ++ numbered (start + first.length) second := by
  rw [numbered, List.length_append, ← List.range'_append_1, List.zip_append (by simp)]
  rfl

theorem numbered_cons (start : Nat) (line : MarkedLine) (rest : List MarkedLine) :
    numbered start (line :: rest) = (start, line) :: numbered (start + 1) rest := by
  simp [numbered, List.range'_succ]

theorem map_snd_numbered (start : Nat) (lines : List MarkedLine) :
    (numbered start lines).map Prod.snd = lines :=
  List.map_snd_zip (by simp)

theorem linesAbove_append (front back : List MarkedLine) :
    linesAbove (front ++ back) front.length = (numbered 0 front).reverse := by
  have cut : ((List.range' 0 front.length ++ []).zip (front ++ back)) = _ :=
    List.zip_append (by simp)
  rw [linesAbove, List.range_eq_range', numbered, ← List.append_nil (List.range' 0 front.length), cut]
  simp

theorem linesAbove_of_le {marked : List MarkedLine} {index : Nat} (inside : index ≤ marked.length) :
    linesAbove marked index = (numbered 0 (marked.take index)).reverse := by
  have above := linesAbove_append (marked.take index) (marked.drop index)
  rwa [List.take_append_drop, List.length_take, Nat.min_eq_left inside] at above

/-- A numbered line is found under its number, between the lines numbered before and after it. -/
theorem of_numbered_eq_append {start number : Nat} {line : MarkedLine} {lines : List MarkedLine}
    {before after : List (Nat × MarkedLine)}
    (split : numbered start lines = before ++ (number, line) :: after) :
    lines = before.map Prod.snd ++ line :: after.map Prod.snd ∧ number = start + before.length := by
  have texts := map_snd_numbered start lines
  rw [split, List.map_append, List.map_cons] at texts
  refine ⟨texts.symm, ?_⟩
  rw [← texts, numbered_append, List.length_map] at split
  have same := List.append_inj_right split (by simp [numbered])
  rw [numbered_cons] at same
  exact (congrArg Prod.fst (List.cons.inj same).1).symm

/-- What stands in front of an entry of the lines above a line are the lines between the two. -/
theorem of_linesAbove_eq_append {marked : List MarkedLine} {index number : Nat} {line : MarkedLine}
    {passed further : List (Nat × MarkedLine)} (inside : index ≤ marked.length)
    (above : linesAbove marked index = passed ++ (number, line) :: further) :
    number < index ∧ marked[number]? = some line ∧
      (marked.take index).drop (number + 1) = (passed.map Prod.snd).reverse := by
  rw [linesAbove_of_le inside, List.reverse_eq_iff, List.reverse_append, List.reverse_cons,
    List.append_assoc] at above
  obtain ⟨shape, count⟩ := of_numbered_eq_append above
  have length : number = (further.reverse.map Prod.snd).length := by simpa using count
  have total : (marked.take index).length = index := by
    rw [List.length_take]
    omega
  have below : number < index := by
    rw [← total, shape, length]
    simp
  refine ⟨below, ?_, ?_⟩
  · rw [← List.getElem?_take_of_lt below, shape, length, List.getElem?_append_right (by omega)]
    simp
  · rw [shape, length, List.drop_append]
    simp

/-- The lines above a line are those between it and another one above it, then that one, then the
lines above that one. -/
theorem linesAbove_split {marked : List MarkedLine} {index opener : Nat} {header : MarkedLine}
    (inside : index ≤ marked.length) (above : opener < index)
    (here : marked[opener]? = some header) :
    linesAbove marked index =
      (numbered (opener + 1) ((marked.take index).drop (opener + 1))).reverse ++
        (opener, header) :: linesAbove marked opener := by
  have shape : marked.take index =
      marked.take opener ++ header :: (marked.take index).drop (opener + 1) := by
    rw [← List.getElem?_take_of_lt above] at here
    obtain ⟨headerInside, headerEq⟩ := List.getElem?_eq_some_iff.mp here
    have cut := List.take_append_drop opener (marked.take index)
    rw [List.take_take, Nat.min_eq_left (by omega)] at cut
    rw [← headerEq, List.getElem_cons_drop, cut]
  have length : (marked.take opener).length = opener := by
    rw [List.length_take]
    omega
  rw [linesAbove_of_le inside, linesAbove_of_le (by omega), shape, numbered_append, numbered_cons,
    length, ← shape]
  simp

/-! ## The nearest statement that is not deeper -/

/-- The nearest one of the lines above that is a statement and not deeper than `indent`, with its
number. -/
def nearest? (indent : Nat) (above : List (Nat × MarkedLine)) : Option (Nat × MarkedLine) :=
  above.find? fun entry => entry.2.isStatement && decide (indentWidth entry.2.text ≤ indent)

/-- The number of statements from the line `first` on, in front of the line `index`. -/
def statementCount (marked : List MarkedLine) (first index : Nat) : Nat :=
  ((marked.take index).drop first).countP MarkedLine.isStatement

/-- On the line `opener` above the line `index` stands the statement `line`, which is not deeper
than `indent`, and all statements between the two lines are. -/
structure IsNearest (marked : List MarkedLine) (indent index opener : Nat) (line : MarkedLine) :
    Prop where
  above : opener < index
  here : marked[opener]? = some line
  statement : line.isStatement = true
  notDeeper : indentWidth line.text ≤ indent
  deeper : ∀ between ∈ (marked.take index).drop (opener + 1), between.isStatement = true →
    indent < indentWidth between.text

section Nearest

variable {marked : List MarkedLine} {indent index opener : Nat} {line : MarkedLine}

/-- The nearest statement is counted behind those between it and the line. -/
theorem IsNearest.statementCount_eq (nearest : IsNearest marked indent index opener line) :
    statementCount marked opener index =
      ((marked.take index).drop (opener + 1)).countP MarkedLine.isStatement + 1 := by
  have here := nearest.here
  rw [← List.getElem?_take_of_lt nearest.above] at here
  obtain ⟨inside, found⟩ := List.getElem?_eq_some_iff.mp here
  rw [statementCount, List.drop_eq_getElem_cons inside, found, List.countP_cons_of_pos]
  exact nearest.statement

/-- The statements up to a line and those from it on are counted apart. -/
theorem statementCount_add {first middle : Nat} (ordered : first ≤ middle) (upTo : middle ≤ index) :
    statementCount marked first index =
      statementCount marked first middle + statementCount marked middle index := by
  have cut := List.take_append_drop (middle - first) ((marked.take index).drop first)
  rw [List.take_drop, List.drop_drop, Nat.add_sub_cancel' ordered, List.take_take,
    Nat.min_eq_left upTo] at cut
  rw [statementCount, ← cut, List.countP_append]
  rfl

theorem deeper_of_numbered (start : Nat) {between : List MarkedLine}
    (deeper : ∀ line ∈ between, line.isStatement = true → indent < indentWidth line.text) :
    ∀ entry ∈ (numbered start between).reverse, entry.2.isStatement = true →
      indent < indentWidth entry.2.text := by
  intro entry member
  have member' := List.mem_map_of_mem (f := Prod.snd) (List.mem_reverse.mp member)
  rw [map_snd_numbered] at member'
  exact deeper entry.2 member'

theorem countP_numbered (start : Nat) (between : List MarkedLine) :
    ((numbered start between).reverse.countP fun entry => entry.2.isStatement) =
      between.countP MarkedLine.isStatement := by
  conv_rhs => rw [← map_snd_numbered start between, List.countP_map]
  exact List.countP_reverse

/-- Looking up from a line finds the one that is nearest by its place among the lines. -/
theorem nearest?_eq_some_iff (inside : index ≤ marked.length) :
    nearest? indent (linesAbove marked index) = some (opener, line) ↔
      IsNearest marked indent index opener line := by
  constructor
  · intro found
    obtain ⟨fits, passed, further, above, deeper⟩ := List.find?_eq_some_iff_append.mp found
    obtain ⟨below, here, between⟩ := of_linesAbove_eq_append inside above
    simp only [Bool.and_eq_true, decide_eq_true_eq] at fits
    refine ⟨below, here, fits.1, fits.2, ?_⟩
    intro line member
    rw [between] at member
    obtain ⟨entry, passedEntry, rfl⟩ := List.mem_map.mp (List.mem_reverse.mp member)
    intro statement
    simpa [statement] using deeper entry passedEntry
  · intro nearest
    have split := linesAbove_split inside nearest.above nearest.here
    refine List.find?_eq_some_iff_append.mpr ⟨?_, _, _, split, ?_⟩
    · simp [nearest.statement, nearest.notDeeper]
    · intro entry member
      have deeper := deeper_of_numbered _ nearest.deeper entry member
      cases statement : entry.2.isStatement with
      | false => rfl
      | true => simpa using deeper statement

theorem nearest?_eq_none_iff (inside : index ≤ marked.length) :
    nearest? indent (linesAbove marked index) = none ↔
      ∀ line ∈ marked.take index, line.isStatement = true → indent < indentWidth line.text := by
  rw [nearest?, List.find?_eq_none]
  constructor
  · intro none line member statement
    rw [← map_snd_numbered 0 (marked.take index)] at member
    obtain ⟨entry, numberedEntry, rfl⟩ := List.mem_map.mp member
    have above : entry ∈ linesAbove marked index := by
      rw [linesAbove_of_le inside]
      exact List.mem_reverse.mpr numberedEntry
    have deeper := none entry above
    simpa [statement] using deeper
  · intro deeper entry member
    rw [linesAbove_of_le inside] at member
    have deep := deeper_of_numbered 0 deeper entry member
    cases statement : entry.2.isStatement with
    | false => simp
    | true => simpa using deep statement

end Nearest

/-! ## Where a branch belongs -/

/-- Where a branch of width `indent` on the line `index` belongs. -/
def belonging (kind : BranchKind) (indent window : Nat) (marked : List MarkedLine) (index : Nat) :
    BranchMatch :=
  match nearest? indent (linesAbove marked index) with
  | none => .orphaned
  | some (first, line) =>
    let width := indentWidth line.text
    if window < statementCount marked first index then .orphaned
    else if kind.accepts line.text then
      if width = indent then .aligned first else .misaligned first width
    else if width = indent ∨ isDefHeader line.text = false then .orphaned
    else
      match nearest? indent (linesAbove marked first) with
      | none => .orphaned
      | some (second, header) =>
        if statementCount marked second index ≤ window ∧ kind.accepts header.text = true ∧
            indentWidth header.text = indent
        then .crossMethod second first
        else .orphaned

section Belonging

variable {kind : BranchKind} {marked : List MarkedLine} {indent index opener budget : Nat}
  {boundary : Option Nat} {line : MarkedLine}

/-- Where nothing is found, the search runs off the first line. -/
theorem findOpener_of_nearest?_eq_none (inside : index ≤ marked.length)
    (none : nearest? indent (linesAbove marked index) = none) :
    findOpener kind indent budget boundary (linesAbove marked index) = .orphaned := by
  have deeper := deeper_of_numbered 0 ((nearest?_eq_none_iff inside).mp none)
  rw [linesAbove_of_le inside, ← List.append_nil (numbered 0 (marked.take index)).reverse,
    findOpener_append_of_deeper deeper, findOpener]

/-- **The search gets to the nearest statement** with what the statements in front of it leave of
the budget. -/
theorem IsNearest.findOpener_eq (nearest : IsNearest marked indent index opener line)
    (inside : index ≤ marked.length) :
    findOpener kind indent budget boundary (linesAbove marked index) =
      if budget < statementCount marked opener index then .orphaned
      else findOpener kind indent (budget - statementCount marked opener index + 1) boundary
        ((opener, line) :: linesAbove marked opener) := by
  have deeper := deeper_of_numbered (opener + 1) nearest.deeper
  rw [linesAbove_split inside nearest.above nearest.here, findOpener_append_of_deeper deeper,
    countP_numbered, nearest.statementCount_eq]
  split
  · next short =>
    rw [Nat.sub_eq_zero_of_le (by omega), findOpener_zero]
  · next enough =>
    congr 1
    omega

/-- Behind a function header only an opener of the branch's own indentation counts. -/
theorem findOpener_some_eq (inside : index ≤ marked.length) (crossed : Nat) :
    findOpener kind indent budget (some crossed) (linesAbove marked index) =
      match nearest? indent (linesAbove marked index) with
      | none => .orphaned
      | some (second, header) =>
        if statementCount marked second index ≤ budget ∧ kind.accepts header.text = true ∧
            indentWidth header.text = indent
        then .crossMethod second crossed
        else .orphaned := by
  cases found : nearest? indent (linesAbove marked index) with
  | none => exact findOpener_of_nearest?_eq_none inside found
  | some entry =>
    obtain ⟨second, header⟩ := entry
    have nearest := (nearest?_eq_some_iff inside).mp found
    have shallow := Nat.not_lt_of_le nearest.notDeeper
    rw [nearest.findOpener_eq inside]
    by_cases short : budget < statementCount marked second index
    · simp only [short, Nat.not_le_of_lt short, false_and, ↓reduceIte]
    · have enough := Nat.le_of_not_lt short
      cases accepts : kind.accepts header.text <;>
        by_cases level : indentWidth header.text = indent <;>
        simp [findOpener, nearest.statement, shallow, short, enough, accepts, level]

/-- **The search finds where the branch belongs.** -/
theorem findOpener_none_eq (kind : BranchKind) (indent window : Nat)
    (inside : index ≤ marked.length) :
    findOpener kind indent window none (linesAbove marked index) =
      belonging kind indent window marked index := by
  rw [belonging]
  cases found : nearest? indent (linesAbove marked index) with
  | none => exact findOpener_of_nearest?_eq_none inside found
  | some entry =>
    obtain ⟨first, line⟩ := entry
    have nearest := (nearest?_eq_some_iff inside).mp found
    have firstInside := Nat.le_trans (Nat.le_of_lt nearest.above) inside
    have shallow := Nat.not_lt_of_le nearest.notDeeper
    rw [nearest.findOpener_eq inside]
    by_cases short : window < statementCount marked first index
    · simp [short]
    simp only [findOpener, nearest.statement, shallow, short, Bool.not_true, Bool.false_eq_true,
      ↓reduceIte]
    cases accepts : kind.accepts line.text with
    | true => rfl
    | false =>
      by_cases level : indentWidth line.text = indent
      · simp [level]
      cases header : isDefHeader line.text with
      | false => simp [level]
      | true =>
        simp only [level, Bool.false_eq_true, ↓reduceIte, or_self, reduceCtorEq]
        -- The search goes on with what the header leaves of the window.
        rw [findOpener_some_eq firstInside]
        cases found' : nearest? indent (linesAbove marked first) with
        | none => rfl
        | some entry' =>
          obtain ⟨second, header'⟩ := entry'
          have nearest' := (nearest?_eq_some_iff firstInside).mp found'
          have total : statementCount marked second index =
              statementCount marked second first + statementCount marked first index :=
            statementCount_add (Nat.le_of_lt nearest'.above) (Nat.le_of_lt nearest.above)
          have enough :
              statementCount marked second first ≤ window - statementCount marked first index ↔
                statementCount marked second index ≤ window := by omega
          simp only [enough]

/-- **A wider window finds what a narrower one has found.** -/
theorem belonging_of_le {window wider : Nat} (wide : window ≤ wider)
    (found : belonging kind indent window marked index ≠ .orphaned) :
    belonging kind indent wider marked index = belonging kind indent window marked index := by
  unfold belonging at found ⊢
  cases nearest : nearest? indent (linesAbove marked index) with
  | none => rfl
  | some entry =>
    obtain ⟨first, line⟩ := entry
    simp only [nearest] at found ⊢
    have near : ¬window < statementCount marked first index := by
      intro short
      simp [short] at found
    have near' : ¬wider < statementCount marked first index := by omega
    simp only [near, near', ↓reduceIte] at found ⊢
    split
    · rfl
    · next refuses =>
      split
      · rfl
      · next crossing =>
        simp only [refuses, crossing, Bool.false_eq_true, ↓reduceIte] at found ⊢
        cases nearest' : nearest? indent (linesAbove marked first) with
        | none => rfl
        | some entry' =>
          obtain ⟨second, header⟩ := entry'
          simp only [nearest'] at found ⊢
          split at found
          · next fits => rw [if_pos fits, if_pos ⟨Nat.le_trans fits.1 wide, fits.2⟩]
          · exact absurd rfl found

/-- Only the nearest statement within the window is found, or one beyond it. -/
theorem belonging_cases (kind : BranchKind) (indent window : Nat) (inside : index ≤ marked.length) :
    belonging kind indent window marked index = .orphaned ∨
      ∃ first line, IsNearest marked indent index first line ∧
        statementCount marked first index ≤ window ∧
          (kind.accepts line.text = true ∧ belonging kind indent window marked index =
              (if indentWidth line.text = indent then .aligned first
                else .misaligned first (indentWidth line.text)) ∨
            ∃ second, belonging kind indent window marked index = .crossMethod second first) := by
  unfold belonging
  split
  · exact .inl rfl
  · next first line found =>
    have nearest := (nearest?_eq_some_iff inside).mp found
    dsimp only
    split
    · exact .inl rfl
    · next near =>
      split
      · next accepts =>
        exact .inr ⟨first, line, nearest, Nat.le_of_not_lt near, .inl ⟨accepts, rfl⟩⟩
      · split
        · exact .inl rfl
        · split
          · exact .inl rfl
          · next second header _ =>
            split
            · exact .inr ⟨first, line, nearest, Nat.le_of_not_lt near, .inr ⟨second, rfl⟩⟩
            · exact .inl rfl

/-- An aligned opener is the nearest statement that is not deeper, and may be continued. -/
theorem exists_of_belonging_eq_aligned {window : Nat} (inside : index ≤ marked.length)
    (found : belonging kind indent window marked index = .aligned opener) :
    ∃ line, IsNearest marked indent index opener line ∧
      statementCount marked opener index ≤ window ∧ kind.accepts line.text = true ∧
        indentWidth line.text = indent := by
  rcases belonging_cases kind indent window inside with
    orphaned | ⟨first, line, nearest, near, ⟨accepts, placed⟩ | ⟨second, crossed⟩⟩
  · cases orphaned.symm.trans found
  · rw [placed] at found
    split at found
    · next level =>
      cases found
      exact ⟨line, nearest, near, accepts, level⟩
    · cases found
  · cases crossed.symm.trans found

/-- A misaligned opener is the nearest statement that is not deeper, has another indentation and may be
continued. -/
theorem exists_of_belonging_eq_misaligned {window width : Nat} (inside : index ≤ marked.length)
    (found : belonging kind indent window marked index = .misaligned opener width) :
    ∃ line, IsNearest marked indent index opener line ∧
      statementCount marked opener index ≤ window ∧ kind.accepts line.text = true ∧
        indentWidth line.text ≠ indent := by
  rcases belonging_cases kind indent window inside with
    orphaned | ⟨first, line, nearest, near, ⟨accepts, placed⟩ | ⟨second, crossed⟩⟩
  · cases orphaned.symm.trans found
  · rw [placed] at found
    split at found
    · cases found
    · next other =>
      cases found
      exact ⟨line, nearest, near, accepts, other⟩
  · cases crossed.symm.trans found

theorem lt_of_belonging_eq_misaligned {window width : Nat} (inside : index ≤ marked.length)
    (found : belonging kind indent window marked index = .misaligned opener width) :
    opener < index := by
  obtain ⟨line, nearest, -⟩ := exists_of_belonging_eq_misaligned inside found
  exact nearest.above

end Belonging

/-! ## The branch on a line -/

deriving instance DecidableEq for Branch

/-- The branch on a line is where its nearest statements put it. -/
theorem branchAt_eq_belonging (marked : List MarkedLine) (window index : Nat) :
    branchAt marked window index =
      marked[index]?.bind fun line =>
        if line.isStatement then
          (classify line.text).map fun kind =>
            ⟨index, kind, belonging kind (indentWidth line.text) window marked index⟩
        else none := by
  cases here : marked[index]? with
  | none => simp [branchAt, here]
  | some line =>
    obtain ⟨below, -⟩ := List.getElem?_eq_some_iff.mp here
    simp only [branchAt, here, Option.bind_some,
      findOpener_none_eq _ _ _ (Nat.le_of_lt below)]

theorem branchAt_eq {marked : List MarkedLine} {window index : Nat} {line : MarkedLine}
    {kind : BranchKind} (here : marked[index]? = some line) (statement : line.isStatement = true)
    (classified : classify line.text = some kind) :
    branchAt marked window index =
      some ⟨index, kind, belonging kind (indentWidth line.text) window marked index⟩ := by
  rw [branchAt_eq_belonging, here, Option.bind_some, if_pos statement, classified, Option.map_some]

theorem exists_of_branchAt_eq {marked : List MarkedLine} {window index : Nat} {branch : Branch}
    (found : branchAt marked window index = some branch) :
    ∃ line, marked[index]? = some line ∧ line.isStatement = true ∧
      classify line.text = some branch.kind ∧ branch.index = index ∧
      branch.found = belonging branch.kind (indentWidth line.text) window marked index := by
  rw [branchAt_eq_belonging] at found
  obtain ⟨line, here, begins⟩ := Option.bind_eq_some_iff.mp found
  split at begins
  · next statement =>
    obtain ⟨kind, classified, rfl⟩ := Option.map_eq_some_iff.mp begins
    exact ⟨line, here, statement, classified, rfl, rfl⟩
  · cases begins

/-- A wider window changes at most what was an orphan. -/
theorem branchAt_add (marked : List MarkedLine) (window more index : Nat) :
    branchAt marked (window + more) index = branchAt marked window index ∨
      (branchAt marked window index).map Branch.found = some .orphaned := by
  rw [branchAt_eq_belonging, branchAt_eq_belonging]
  cases marked[index]? with
  | none => exact .inl rfl
  | some line =>
    simp only [Option.bind_some]
    split
    · cases classify line.text with
      | none => exact .inl rfl
      | some kind =>
        by_cases orphan : belonging kind (indentWidth line.text) window marked index = .orphaned
        · exact .inr (by simp [orphan])
        · have same := belonging_of_le (Nat.le_add_right window more) orphan
          exact .inl (by simp only [Option.map_some, same])
    · exact .inl rfl

/-- **The search for an opener without its loop**: the branch on a line of a text is where its
nearest statements put it, and a wider window changes at most what was an orphan. -/
theorem matchAt_eq_belonging (lines : List String) (window index : Nat) :
    (matchAt lines window index =
      (markLines lines)[index]?.bind fun line =>
        if line.isStatement then
          (classify line.text).map fun kind =>
            ⟨index, kind, belonging kind (indentWidth line.text) window (markLines lines) index⟩
        else none) ∧
      ∀ more, matchAt lines (window + more) index = matchAt lines window index ∨
        (matchAt lines window index).map Branch.found = some .orphaned :=
  ⟨branchAt_eq_belonging (markLines lines) window index,
    fun more => branchAt_add (markLines lines) window more index⟩

/-- The opener beyond the header is the third statement above the branch. -/
example :
    let lines := ["if x:", "    y", "def f():", "    z", "    if a:", "        b", "def g():",
      "    elif c:"]
    (matchAt lines 3 7).map Branch.found = some (.crossMethod 4 6) ∧
      (matchAt lines 2 7).map Branch.found = some .orphaned := by
  decide +kernel

end StrategyMend.Source
