import StrategyMend.Proofs.Source.Marks
import StrategyMend.Proofs.Source.Opener

/-!
# Stray branches and their replacement

A branch is stray if it is not aligned with an opener. The lines around a stray branch may be
replaced so that no other branch notices (`Mends`): its header by one that opens a statement of its
own, or its block by nothing, if nothing in the block is an opener. All aligned branches elsewhere
stay aligned (`Mends.branchAt_eq_aligned`), and the text has at least one stray branch less
(`Mends.countP_isStrayAt`).
-/

set_option autoImplicit false

namespace StrategyMend.Source

/-! ## Stray branches -/

/-- Whether the branch has an opener of its own indentation in its own function. -/
def Branch.isAligned (branch : Branch) : Bool :=
  match branch.found with
  | .aligned _ => true
  | _ => false

/-- Whether a branch without an aligned opener begins on the line `index`. -/
def isStrayAt (marked : List MarkedLine) (window index : Nat) : Bool :=
  (branchAt marked window index).any fun branch => !branch.isAligned

/-- The number of branches without an aligned opener. -/
def strayCount (lines : List String) (window : Nat) : Nat :=
  (branches lines window).countP fun branch => !branch.isAligned

theorem Branch.isAligned_iff {branch : Branch} :
    branch.isAligned = true ↔ ∃ opener, branch.found = .aligned opener := by
  obtain ⟨index, kind, found⟩ := branch
  cases found <;> simp [isAligned]

theorem isStrayAt_iff {marked : List MarkedLine} {window index : Nat} :
    isStrayAt marked window index = true ↔
      ∃ branch, branchAt marked window index = some branch ∧ branch.isAligned = false := by
  rw [isStrayAt]
  cases branchAt marked window index <;> simp

theorem strayCount_eq_countP (lines : List String) (window : Nat) :
    strayCount lines window =
      (List.range (markLines lines).length).countP (isStrayAt (markLines lines) window) := by
  rw [strayCount, branches, List.countP_filterMap, length_markLines]
  congr 1
  funext index
  rw [isStrayAt]
  cases branchAt (markLines lines) window index <;> rfl

/-- A line without a branch is not stray. -/
theorem isStrayAt_of_classify_none {marked : List MarkedLine} {window index : Nat}
    {line : MarkedLine} (here : marked[index]? = some line) (plain : classify line.text = none) :
    isStrayAt marked window index = false := by
  rw [isStrayAt, branchAt_eq_none here (.inr plain)]
  rfl

theorem isStrayAt_append {front : List MarkedLine} {index : Nat} (inside : index < front.length)
    (back : List MarkedLine) (window : Nat) :
    isStrayAt (front ++ back) window index = isStrayAt front window index := by
  rw [isStrayAt, isStrayAt, branchAt_append_of_lt inside]

/-! ## Replaced lines -/

theorem countP_range_add (first second : Nat) (holds : Nat → Bool) :
    (List.range (first + second)).countP holds =
      (List.range first).countP holds +
        (List.range second).countP fun index => holds (first + index) := by
  rw [List.range_add, List.countP_append, List.countP_map]
  rfl

/-- Where a line goes if, from the line `start` on, `removed` lines give way to `added` others. -/
def shift (start removed added index : Nat) : Nat :=
  if start + removed ≤ index then index + added - removed else index

section Replacement

variable {front old new back : List MarkedLine} {index : Nat}

theorem getElem?_behind (below : front.length + old.length ≤ index) :
    (front ++ (old ++ back))[index]? = back[index - (front.length + old.length)]? := by
  rw [List.getElem?_append_right (by omega), List.getElem?_append_right (by omega), Nat.sub_sub]

theorem take_behind (below : front.length + old.length ≤ index) :
    (front ++ (old ++ back)).take index =
      front ++ (old ++ back.take (index - (front.length + old.length))) := by
  rw [List.take_append, List.take_append, List.take_of_length_le (by omega),
    List.take_of_length_le (by omega), Nat.sub_sub]

theorem drop_behind (below : front.length + old.length ≤ index) :
    (front ++ (old ++ back)).drop index = back.drop (index - (front.length + old.length)) := by
  rw [List.drop_append, List.drop_append, List.drop_of_length_le (by omega),
    List.drop_of_length_le (by omega), Nat.sub_sub]
  rfl

theorem shift_of_lt {start removed added : Nat} (above : index < start + removed) :
    shift start removed added index = index := if_neg (by omega)

theorem shift_of_le {start removed added : Nat} (below : start + removed ≤ index) :
    shift start removed added index = index - (start + removed) + (start + added) := by
  unfold shift
  rw [if_pos below]
  omega

/-- A line that is not replaced stands where it has gone. -/
theorem getElem?_shift (outside : index < front.length ∨ front.length + old.length ≤ index) :
    (front ++ (new ++ back))[shift front.length old.length new.length index]? =
      (front ++ (old ++ back))[index]? := by
  rcases outside with above | below
  · rw [shift_of_lt (by omega), List.getElem?_append_left above, List.getElem?_append_left above]
  · rw [shift_of_le below, getElem?_behind (by omega), getElem?_behind below,
      Nat.add_sub_cancel]

end Replacement

/-- Lines around a stray branch and what replaces them. -/
inductive Mends : List MarkedLine → List MarkedLine → Prop where
  /-- A header that needs an opener becomes one that needs none. -/
  | standalone {header standalone : MarkedLine} (statement : standalone.isStatement = true)
      (level : indentWidth standalone.text = indentWidth header.text)
      (plain : classify standalone.text = none)
      (accepts : ∀ kind : BranchKind, kind.accepts header.text = true →
        kind.accepts standalone.text = true)
      (headerStatement : header.isStatement = true) : Mends [header] [standalone]
  /-- Lines without an opener are removed. -/
  | removed {header : MarkedLine} {body : List MarkedLine}
      (unaccepted : ∀ line ∈ header :: body, line.isStatement = true →
        ∀ kind : BranchKind, kind.accepts line.text = false) : Mends (header :: body) []

namespace Mends

variable {front old new back : List MarkedLine} {window index opener : Nat} {kind : BranchKind}

/-- Mended lines between a branch and its header do not come between the two. -/
theorem continues {header branch : MarkedLine} {above below : List MarkedLine}
    (mends : Mends old new)
    (continued : Continues kind header (above ++ (old ++ below)) branch) :
    Continues kind header (above ++ (new ++ below)) branch := by
  have deeper := continued.deeper
  cases mends with
  | standalone statement level plain accepts headerStatement =>
    refine { continued with deeper := ?_ }
    simp only [List.mem_append, List.mem_singleton] at deeper ⊢
    rintro line (member | rfl | member) isStatement
    · exact deeper line (.inl member) isStatement
    · rw [level]
      exact deeper _ (.inr (.inl rfl)) headerStatement
    · exact deeper line (.inr (.inr member)) isStatement
  | removed unaccepted =>
    refine { continued with deeper := ?_ }
    simp only [List.mem_append] at deeper ⊢
    rintro line (member | absent | member) isStatement
    · exact deeper line (.inl member) isStatement
    · cases absent
    · exact deeper line (.inr (.inr member)) isStatement

/-- Mending adds no statement. -/
theorem countP_isStatement_le (mends : Mends old new) :
    new.countP MarkedLine.isStatement ≤ old.countP MarkedLine.isStatement := by
  cases mends with
  | standalone statement level plain accepts headerStatement =>
    simp [statement, headerStatement]
  | removed unaccepted => simp

/-- **Branches elsewhere stay aligned**, with their opener where it has gone. -/
theorem branchAt_eq_aligned (mends : Mends old new)
    (outside : index < front.length ∨ front.length + old.length ≤ index)
    (aligned : branchAt (front ++ (old ++ back)) window index =
      some ⟨index, kind, .aligned opener⟩) :
    let moved := shift front.length old.length new.length
    branchAt (front ++ (new ++ back)) window (moved index) =
      some ⟨moved index, kind, .aligned (moved opener)⟩ := by
  intro moved
  obtain ⟨header, branch, order, headerHere, branchHere, continued, near⟩ :=
    branchAt_eq_aligned_iff.mp aligned
  have fewer := mends.countP_isStatement_le
  rcases outside with above | below
  · have still : moved index = index := shift_of_lt (by omega)
    have openerStill : moved opener = opener := shift_of_lt (by omega)
    rw [branchAt_append_of_lt above] at aligned
    rw [still, openerStill, branchAt_append_of_lt above, aligned]
  · have indexMoved : moved index =
        index - (front.length + old.length) + (front.length + new.length) := shift_of_le below
    have inNew : front.length + new.length ≤ moved index := by omega
    have branchMoved : (front ++ (new ++ back))[moved index]? = some branch :=
      (getElem?_shift (.inr below)).trans branchHere
    have rest : moved index - (front.length + new.length) = index - (front.length + old.length) := by
      omega
    rw [take_behind below] at continued near
    refine branchAt_eq_aligned_iff.mpr ?_
    rw [take_behind inNew, rest]
    rcases Nat.lt_or_ge opener front.length with openerAbove | openerBelow
    · -- the replaced lines stand between the branch and its opener
      have openerStill : moved opener = opener := shift_of_lt (by omega)
      rw [List.drop_append_of_le_length (by omega)] at continued near
      rw [List.getElem?_append_left openerAbove] at headerHere
      rw [openerStill, List.drop_append_of_le_length (by omega)]
      refine ⟨header, branch, by omega, ?_, branchMoved, mends.continues continued, ?_⟩
      · rw [List.getElem?_append_left openerAbove, headerHere]
      · simp only [List.countP_append] at near ⊢
        omega
    · rcases Nat.lt_or_ge opener (front.length + old.length) with openerOld | openerBehind
      · -- the opener is replaced itself, so it is a header that is accepted as before
        rw [List.getElem?_append_right openerBelow, List.getElem?_append_left (by omega)]
          at headerHere
        cases mends with
        | @standalone stray replaced statement level plain accepts headerStatement =>
          obtain rfl : opener = front.length := by
            simp at openerOld
            omega
          obtain rfl : stray = header := by simpa using headerHere
          have openerStill : moved front.length = front.length := shift_of_lt openerOld
          rw [openerStill]
          rw [drop_behind (by simp), List.length_singleton, Nat.sub_self] at continued near ⊢
          refine ⟨replaced, branch, ?_, ?_, branchMoved, { continued with
            headerStatement := statement
            accepts := accepts kind continued.accepts
            level := level.trans continued.level }, near⟩
          · simp only [List.length_singleton] at indexMoved ⊢
            omega
          · rw [List.getElem?_append_right (Nat.le_refl _), Nat.sub_self]
            rfl
        | removed unaccepted =>
          have refused := unaccepted header (List.mem_of_getElem? headerHere)
            continued.headerStatement kind
          rw [continued.accepts] at refused
          cases refused
      · -- the opener stands behind the replaced lines
        have openerMoved : moved opener =
            opener - (front.length + old.length) + (front.length + new.length) :=
          shift_of_le openerBehind
        rw [drop_behind (by omega)] at continued near
        rw [getElem?_behind openerBehind] at headerHere
        have same : opener - (front.length + old.length) + (front.length + new.length) + 1 -
            (front.length + new.length) = opener + 1 - (front.length + old.length) := by omega
        rw [drop_behind (by omega), openerMoved, same]
        refine ⟨header, branch, by omega, ?_, branchMoved, continued, near⟩
        rw [getElem?_behind (by omega), Nat.add_sub_cancel, headerHere]

/-- A branch that is stray after the replacement was stray before. -/
theorem isStrayAt_of_shift (mends : Mends old new)
    (outside : index < front.length ∨ front.length + old.length ≤ index)
    (stray : isStrayAt (front ++ (new ++ back)) window
      (shift front.length old.length new.length index) = true) :
    isStrayAt (front ++ (old ++ back)) window index = true := by
  obtain ⟨branch, found, unaligned⟩ := isStrayAt_iff.mp stray
  obtain ⟨line, here, statement, classified, -, -⟩ := exists_of_branchAt_eq found
  rw [getElem?_shift outside] at here
  have before : branchAt (front ++ (old ++ back)) window index = some _ :=
    branchAt_eq here statement classified
  refine isStrayAt_iff.mpr ⟨_, before, ?_⟩
  rw [Bool.eq_false_iff]
  intro aligned
  obtain ⟨opener, foundBefore⟩ := Branch.isAligned_iff.mp aligned
  dsimp only at foundBefore
  rw [foundBefore] at before
  have after := found.symm.trans (mends.branchAt_eq_aligned outside before)
  rw [Option.some.inj after] at unaligned
  cases unaligned

theorem old_length_pos (mends : Mends old new) : 0 < old.length := by
  cases mends <;> simp

/-- No branch begins on the new lines. -/
theorem isStrayAt_front_eq_false (mends : Mends old new) {index : Nat} (inside : index < new.length) :
    isStrayAt (front ++ (new ++ back)) window (front.length + index) = false := by
  cases mends with
  | @standalone _ replaced _ _ plain =>
    obtain rfl : index = 0 := by simpa using inside
    have here : (front ++ ([replaced] ++ back))[front.length + 0]? = some replaced := by simp
    exact isStrayAt_of_classify_none here plain
  | removed => cases inside

/-- **Mending a stray branch leaves at least one less.** -/
theorem countP_isStrayAt (mends : Mends old new)
    (stray : isStrayAt (front ++ (old ++ back)) window front.length = true) :
    (List.range (front ++ (new ++ back)).length).countP
        (isStrayAt (front ++ (new ++ back)) window) + 1 ≤
      (List.range (front ++ (old ++ back)).length).countP
        (isStrayAt (front ++ (old ++ back)) window) := by
  rw [List.length_append, List.length_append, List.length_append, List.length_append,
    ← Nat.add_assoc, ← Nat.add_assoc, countP_range_add, countP_range_add, countP_range_add,
    countP_range_add]
  have above : (List.range front.length).countP (isStrayAt (front ++ (new ++ back)) window) ≤
      (List.range front.length).countP (isStrayAt (front ++ (old ++ back)) window) := by
    refine List.countP_mono_left fun index member strayAfter => ?_
    have inside := List.mem_range.mp member
    rw [← shift_of_lt (show index < front.length + old.length by omega)] at strayAfter
    exact mends.isStrayAt_of_shift (.inl inside) strayAfter
  have replaced : (List.range new.length).countP
      (fun index => isStrayAt (front ++ (new ++ back)) window (front.length + index)) = 0 := by
    refine List.countP_eq_zero.mpr fun index member => ?_
    rw [mends.isStrayAt_front_eq_false (List.mem_range.mp member)]
    simp
  have mended : 0 < (List.range old.length).countP
      (fun index => isStrayAt (front ++ (old ++ back)) window (front.length + index)) :=
    List.countP_pos_iff.mpr ⟨0, List.mem_range.mpr mends.old_length_pos, stray⟩
  have below : (List.range back.length).countP (fun index =>
        isStrayAt (front ++ (new ++ back)) window (front.length + new.length + index)) ≤
      (List.range back.length).countP (fun index =>
        isStrayAt (front ++ (old ++ back)) window (front.length + old.length + index)) := by
    refine List.countP_mono_left fun index _ strayAfter => ?_
    have behind : front.length + old.length ≤ front.length + old.length + index := by omega
    refine mends.isStrayAt_of_shift (.inr behind) ?_
    rw [shift_of_le behind, Nat.add_sub_cancel_left, Nat.add_comm index]
    exact strayAfter
  omega

end Mends

end StrategyMend.Source
