import StrategyMend.Proofs.Number.Order
import StrategyMend.Repair.Patch

/-!
# The order in which fixes are considered

The fixes that are eligible at a threshold are considered by their confidence, the surest first, and
equally sure ones in the order of the list. Every eligible fix has a defined confidence, so any two
candidates are ranked one way or the other, and the considered list is sorted strictly by rank
(`candidates_pairwise_outranks`). It is a rearrangement of the eligible fixes with their places
(`candidates_perm`).

The order among equally sure fixes is the stability of the sorting: a part of the list that is sorted
already keeps its order (`filter_mergeSort_of_pairwise`).
-/

set_option autoImplicit false

namespace StrategyMend.Repair

open Number

/-! ## Eligible fixes -/

/-- The fixes eligible at a threshold, each with its place, in the order of the list. -/
def eligible (fixes : List Fix) (threshold : Binary64) : List Candidate :=
  (fixes.zipIdx.map fun (fix, index) => Candidate.mk index fix).filter fun candidate =>
    candidate.fix.isEligible threshold

variable {fixes : List Fix} {threshold : Binary64}

theorem mem_eligible {candidate : Candidate} :
    candidate ∈ eligible fixes threshold ↔
      fixes[candidate.index]? = some candidate.fix ∧
        candidate.fix.isEligible threshold = true := by
  obtain ⟨index, fix⟩ := candidate
  simp only [eligible, List.mem_filter, List.mem_map, List.mem_zipIdx_iff_getElem?, Prod.exists,
    Candidate.mk.injEq]
  constructor
  · rintro ⟨⟨_, _, here, rfl, rfl⟩, sure⟩
    exact ⟨here, sure⟩
  · rintro ⟨here, sure⟩
    exact ⟨⟨fix, index, here, rfl, rfl⟩, sure⟩

theorem eligible_pairwise_index :
    (eligible fixes threshold).Pairwise fun first second => first.index < second.index := by
  refine List.Pairwise.filter _ (List.pairwise_map.mpr ?_)
  have places : (fixes.zipIdx.map Prod.snd).Pairwise (· < ·) := by
    rw [List.zipIdx_map_snd]
    exact List.pairwise_lt_range'
  exact List.pairwise_map.mp places

theorem isEligible_iff {fix : Fix} :
    fix.isEligible threshold = true ↔
      fix.kind = .auto ∧ threshold.le fix.confidence = true ∧ fix.editKind ≠ .noChange := by
  simp [Fix.isEligible, and_assoc]

theorem isDefined_of_mem_eligible {candidate : Candidate}
    (member : candidate ∈ eligible fixes threshold) : candidate.fix.confidence.IsDefined :=
  (Binary64.isDefined_of_le (isEligible_iff.mp (mem_eligible.mp member).2).2.1).2

/-! ## Ranks -/

/-- The first candidate is surer than the second, or as sure and before it in the list. -/
def Candidate.Outranks (first second : Candidate) : Prop :=
  second.fix.confidence.lt first.fix.confidence = true ∨
    (first.fix.confidence.le second.fix.confidence = true ∧
      second.fix.confidence.le first.fix.confidence = true ∧ first.index < second.index)

theorem Candidate.outranks_iff_position {first second : Candidate}
    (defined : first.fix.confidence.IsDefined) (defined' : second.fix.confidence.IsDefined) :
    first.Outranks second ↔
      second.fix.confidence.position < first.fix.confidence.position ∨
        (first.fix.confidence.position = second.fix.confidence.position ∧
          first.index < second.index) := by
  unfold Candidate.Outranks
  rw [Binary64.lt_iff_position defined' defined, Binary64.le_iff_position defined defined',
    Binary64.le_iff_position defined' defined]
  omega

/-- Only candidates with a defined confidence are ranked. -/
theorem Candidate.Outranks.isDefined {first second : Candidate} (above : first.Outranks second) :
    first.fix.confidence.IsDefined ∧ second.fix.confidence.IsDefined := by
  rcases above with surer | ⟨notSurer, -, -⟩
  · exact (Binary64.isDefined_of_lt surer).symm
  · exact Binary64.isDefined_of_le notSurer

theorem Candidate.Outranks.asymm {first second : Candidate} (above : first.Outranks second) :
    ¬ second.Outranks first := by
  obtain ⟨defined, defined'⟩ := above.isDefined
  rw [Candidate.outranks_iff_position defined defined'] at above
  rw [Candidate.outranks_iff_position defined' defined]
  omega

theorem Candidate.Outranks.irrefl (candidate : Candidate) : ¬ candidate.Outranks candidate :=
  fun above => above.asymm above

/-! ## Sorting keeps the order of equals -/

/-- A part of a list that is sorted already is left in its order by sorting the list. -/
theorem filter_mergeSort_of_pairwise {α : Type} {le : α → α → Bool}
    (trans : ∀ a b c, le a b = true → le b c = true → le a c = true)
    (total : ∀ a b, (le a b || le b a) = true) (list : List α) (part : α → Bool)
    (sorted : (list.filter part).Pairwise fun a b => le a b = true) :
    (list.mergeSort le).filter part = list.filter part := by
  have within : (list.filter part).Sublist (list.mergeSort le) :=
    List.sublist_mergeSort trans total sorted List.filter_sublist
  have kept : (list.filter part).Sublist ((list.mergeSort le).filter part) := by
    simpa using within.filter part
  refine (kept.eq_of_length ?_).symm
  exact ((List.mergeSort_perm list le).filter part).symm.length_eq

/-- Whether the first candidate has the higher position or the same. -/
def Candidate.positionLe (first second : Candidate) : Bool :=
  decide (second.fix.confidence.position ≤ first.fix.confidence.position)

theorem Candidate.positionLe_trans (first second third : Candidate)
    (above : first.positionLe second = true) (below : second.positionLe third = true) :
    first.positionLe third = true := by
  simp only [Candidate.positionLe, decide_eq_true_eq] at *
  omega

theorem Candidate.positionLe_total (first second : Candidate) :
    (first.positionLe second || second.positionLe first) = true := by
  simp only [Candidate.positionLe, Bool.or_eq_true, decide_eq_true_eq]
  omega

/-- On eligible fixes the comparison by confidence is the one by positions, which is total. -/
theorem candidates_eq_mergeSort :
    candidates fixes threshold = (eligible fixes threshold).mergeSort Candidate.positionLe := by
  have agree : ∀ first ∈ eligible fixes threshold, ∀ second ∈ eligible fixes threshold,
      first.precedes second = Candidate.positionLe (id first) (id second) := by
    intro first member second member'
    rw [Bool.eq_iff_iff]
    simp only [Candidate.precedes, Candidate.positionLe, id_eq, decide_eq_true_eq]
    exact Binary64.le_iff_position (isDefined_of_mem_eligible member')
      (isDefined_of_mem_eligible member)
  simpa [candidates, eligible] using List.map_mergeSort agree

/-! ## The considered list -/

theorem candidates_perm : (candidates fixes threshold).Perm (eligible fixes threshold) :=
  List.mergeSort_perm _ _

theorem mem_candidates {candidate : Candidate} :
    candidate ∈ candidates fixes threshold ↔ candidate ∈ eligible fixes threshold :=
  candidates_perm.mem_iff

theorem candidates_pairwise_position :
    (candidates fixes threshold).Pairwise fun first second =>
      second.fix.confidence.position ≤ first.fix.confidence.position := by
  have sorted := List.pairwise_mergeSort Candidate.positionLe_trans Candidate.positionLe_total
    (eligible fixes threshold)
  rw [← candidates_eq_mergeSort] at sorted
  exact sorted.imp fun ordered => by simpa [Candidate.positionLe] using ordered

/-- Equally sure candidates are considered in the order of the list. -/
theorem filter_candidates_position (position : Int) :
    ((candidates fixes threshold).filter fun candidate =>
        candidate.fix.confidence.position = position) =
      (eligible fixes threshold).filter fun candidate =>
        candidate.fix.confidence.position = position := by
  rw [candidates_eq_mergeSort]
  refine filter_mergeSort_of_pairwise Candidate.positionLe_trans Candidate.positionLe_total _ _ ?_
  refine List.pairwise_of_forall_mem_list fun first member second member' => ?_
  simp only [List.mem_filter, decide_eq_true_eq] at member member'
  simp [Candidate.positionLe, member.2, member'.2]

/-- **Fixes are considered strictly by rank.** -/
theorem candidates_pairwise_outranks :
    (candidates fixes threshold).Pairwise Candidate.Outranks := by
  rw [List.pairwise_iff_forall_sublist]
  intro first second within
  have defined : ∀ candidate ∈ [first, second], candidate.fix.confidence.IsDefined :=
    fun candidate member => isDefined_of_mem_eligible (mem_candidates.mp (within.subset member))
  rw [Candidate.outranks_iff_position (defined first (by simp)) (defined second (by simp))]
  have ordered : second.fix.confidence.position ≤ first.fix.confidence.position :=
    List.pairwise_iff_forall_sublist.mp candidates_pairwise_position within
  rcases Int.lt_or_eq_of_le ordered with surer | same
  · exact .inl surer
  · -- Both are in the part of the list with this confidence, which sorting leaves in its order.
    have together := within.filter fun candidate =>
      candidate.fix.confidence.position = first.fix.confidence.position
    rw [filter_candidates_position] at together
    have placed : [first, second].Sublist (eligible fixes threshold) := by
      simpa [same] using together.trans List.filter_sublist
    exact .inr ⟨same.symm, List.pairwise_iff_forall_sublist.mp eligible_pairwise_index placed⟩

end StrategyMend.Repair
