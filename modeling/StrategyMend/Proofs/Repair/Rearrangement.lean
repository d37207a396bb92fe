import Mathlib.Data.List.Induction
import StrategyMend.Proofs.Repair.Marks
import StrategyMend.Proofs.Repair.Threshold

/-!
# Fixes in another order

The order in which fixes are listed decides only between equally sure ones, and of those only
between fixes that clash. So fixes that are listed in another order are accepted and applied as
before, if all eligible fixes within the lines that are equally sure and clash keep their order
(`apply_rearranged`).

A fix is accepted exactly if no accepted fix of higher rank clashes with it
(`mem_appliedCandidates_iff`). This says who is accepted without the order in which fixes are
considered. For clashing fixes the ranks in the two lists agree (`outranks_moved_iff`), so going
down the ranks of one list the same fixes are accepted in the other
(`moved_mem_appliedCandidates_iff`).
-/

set_option autoImplicit false

namespace StrategyMend.Repair

open Number

/-! ## Who is applied -/

section Applied

variable {lines : List String} {fixes : List Fix} {threshold : Binary64}

/-- **Who is applied**: an eligible fix within the lines with which no applied one of higher rank
clashes. -/
theorem mem_appliedCandidates_iff {candidate : Candidate} :
    candidate ∈ appliedCandidates lines fixes threshold ↔
      candidate ∈ eligible fixes threshold ∧ candidate.fix.inRange lines.length = true ∧
        ∀ kept ∈ appliedCandidates lines fixes threshold, kept.Outranks candidate →
          clash? kept.fix candidate.fix = none := by
  obtain ⟨_, decided⟩ := exists_decided_candidates lines fixes threshold
  simp only [appliedCandidates_perm.mem_iff]
  rw [decided.mem_accepted_iff, mem_candidates]

/-- Whoever outranks a candidate is considered before it. -/
theorem mem_front_of_outranks {front back : List Candidate} {candidate other : Candidate}
    (split : candidates fixes threshold = front ++ candidate :: back)
    (considered : other ∈ candidates fixes threshold) (above : other.Outranks candidate) :
    other ∈ front := by
  have ranked : (candidates fixes threshold).Pairwise Candidate.Outranks :=
    candidates_pairwise_outranks
  rw [split] at considered ranked
  rcases List.mem_append.mp considered with earlier | later
  · exact earlier
  · have below := List.pairwise_cons.mp (List.pairwise_append.mp ranked).2.1
    rcases List.mem_cons.mp later with rfl | behind
    · exact absurd above (Candidate.Outranks.irrefl other)
    · exact absurd above (below.1 other behind).asymm

end Applied

/-! ## Rearranged fixes -/

/-- The fixes at the places that are listed, in the order of the places. -/
def rearrange (fixes : List Fix) (order : List Nat) : List Fix :=
  order.filterMap fun place => fixes[place]?

/-- Two eligible fixes within `count` lines are equally sure and clash, so that their order in the
list decides which of them is kept. -/
def Fix.TiesWith (count : Nat) (threshold : Binary64) (first second : Fix) : Prop :=
  (first.isEligible threshold = true ∧ first.inRange count = true) ∧
    (second.isEligible threshold = true ∧ second.inRange count = true) ∧
      (first.confidence.le second.confidence = true ∧
        second.confidence.le first.confidence = true) ∧ clash? first second ≠ none

instance (count : Nat) (threshold : Binary64) (first second : Fix) :
    Decidable (first.TiesWith count threshold second) :=
  inferInstanceAs (Decidable ((_ ∧ _) ∧ (_ ∧ _) ∧ (_ ∧ _) ∧ _))

theorem Fix.TiesWith.symm {count : Nat} {threshold : Binary64} {first second : Fix}
    (tie : first.TiesWith count threshold second) : second.TiesWith count threshold first := by
  obtain ⟨able, able', ⟨below, above⟩, clashes⟩ := tie
  exact ⟨able', able, ⟨above, below⟩, clash?_comm first second ▸ clashes⟩

/-- The places are in an order in which the fixes that tie with each other stand as before. -/
def KeepsTies (count : Nat) (fixes : List Fix) (threshold : Binary64) (order : List Nat) : Prop :=
  order.Pairwise fun place later =>
    ∀ fix ∈ fixes[place]?, ∀ other ∈ fixes[later]?,
      fix.TiesWith count threshold other → place < later

instance (count : Nat) (fixes : List Fix) (threshold : Binary64) (order : List Nat) :
    Decidable (KeepsTies count fixes threshold order) :=
  inferInstanceAs (Decidable (order.Pairwise _))

/-- A candidate at the place that it has in a rearranged list. -/
def Candidate.moved (order : List Nat) (candidate : Candidate) : Candidate :=
  ⟨order.idxOf candidate.index, candidate.fix⟩

section Rearranged

variable {lines : List String} {fixes : List Fix} {threshold : Binary64} {order : List Nat}

theorem mem_order_iff (places : order.Perm (List.range fixes.length)) {place : Nat} :
    place ∈ order ↔ place < fixes.length := by
  rw [places.mem_iff, List.mem_range]

theorem nodup_order (places : order.Perm (List.range fixes.length)) : order.Nodup :=
  places.nodup_iff.mpr List.nodup_range

theorem getElem?_rearrange (inside : ∀ place ∈ order, place < fixes.length) (position : Nat) :
    (rearrange fixes order)[position]? = order[position]?.bind fun place => fixes[place]? := by
  induction order generalizing position with
  | nil => rfl
  | cons place rest ih =>
    have here := List.getElem?_eq_getElem (inside place (by simp))
    rw [rearrange, List.filterMap_cons_some here]
    cases position with
    | zero => simp [here]
    | succ position => exact ih (fun other member => inside other (by simp [member])) position

/-- The rearranged list holds the same candidates, each moved. -/
theorem mem_eligible_rearrange_iff (places : order.Perm (List.range fixes.length))
    {candidate : Candidate} :
    candidate ∈ eligible (rearrange fixes order) threshold ↔
      ∃ old ∈ eligible fixes threshold, old.moved order = candidate := by
  have inside : ∀ place ∈ order, place < fixes.length := fun place => (mem_order_iff places).mp
  constructor
  · intro member
    obtain ⟨here, able⟩ := mem_eligible.mp member
    rw [getElem?_rearrange inside] at here
    obtain ⟨place, placed, found⟩ := Option.bind_eq_some_iff.mp here
    refine ⟨⟨place, candidate.fix⟩, mem_eligible.mpr ⟨found, able⟩, ?_⟩
    obtain ⟨below, rfl⟩ := List.getElem?_eq_some_iff.mp placed
    rw [Candidate.moved, (nodup_order places).idxOf_getElem]
  · rintro ⟨old, member, rfl⟩
    obtain ⟨here, able⟩ := mem_eligible.mp member
    have listed : old.index ∈ order :=
      (mem_order_iff places).mpr (List.getElem?_eq_some_iff.mp here).1
    refine mem_eligible.mpr ⟨?_, able⟩
    rw [getElem?_rearrange inside, Candidate.moved, List.getElem?_idxOf listed]
    exact here

theorem moved_mem_eligible (places : order.Perm (List.range fixes.length)) {old : Candidate}
    (member : old ∈ eligible fixes threshold) :
    old.moved order ∈ eligible (rearrange fixes order) threshold :=
  (mem_eligible_rearrange_iff places).mpr ⟨old, member, rfl⟩

/-- Where fixes tie, the first one in the list is the first one in the rearranged list. -/
theorem idxOf_lt_idxOf_iff (places : order.Perm (List.range fixes.length))
    (keeps : KeepsTies lines.length fixes threshold order) {first second : Candidate}
    (here : fixes[first.index]? = some first.fix) (here' : fixes[second.index]? = some second.fix)
    (tie : first.fix.TiesWith lines.length threshold second.fix) :
    order.idxOf first.index < order.idxOf second.index ↔ first.index < second.index := by
  have listed : first.index ∈ order :=
    (mem_order_iff places).mpr (List.getElem?_eq_some_iff.mp here).1
  have listed' : second.index ∈ order :=
    (mem_order_iff places).mpr (List.getElem?_eq_some_iff.mp here').1
  have kept {place later : Nat} (member : place ∈ order) (member' : later ∈ order)
      (before : order.idxOf place < order.idxOf later) :
      ∀ fix ∈ fixes[place]?, ∀ other ∈ fixes[later]?,
        fix.TiesWith lines.length threshold other → place < later := by
    have pair := List.pairwise_iff_getElem.mp keeps _ _ (List.idxOf_lt_length_of_mem member)
      (List.idxOf_lt_length_of_mem member') before
    rwa [List.getElem_idxOf, List.getElem_idxOf] at pair
  constructor
  · intro before
    exact kept listed listed' before _ here _ here' tie
  · intro before
    by_contra notBefore
    rcases Nat.lt_or_eq_of_le (Nat.not_lt.mp notBefore) with after | same
    · have := kept listed' listed after _ here' _ here tie.symm
      omega
    · have := List.idxOf_inj listed' |>.mp same
      omega

/-- **Ranks of clashing candidates are the same in the rearranged list.** -/
theorem outranks_moved_iff (places : order.Perm (List.range fixes.length))
    (keeps : KeepsTies lines.length fixes threshold order) {first second : Candidate}
    (member : first ∈ eligible fixes threshold) (member' : second ∈ eligible fixes threshold)
    (inside : first.fix.inRange lines.length = true)
    (inside' : second.fix.inRange lines.length = true)
    (clashes : clash? first.fix second.fix ≠ none) :
    (first.moved order).Outranks (second.moved order) ↔ first.Outranks second := by
  obtain ⟨here, able⟩ := mem_eligible.mp member
  obtain ⟨here', able'⟩ := mem_eligible.mp member'
  refine or_congr_right ?_
  refine and_congr_right fun below => and_congr_right fun above => ?_
  exact idxOf_lt_idxOf_iff places keeps here here'
    ⟨⟨able, inside⟩, ⟨able', inside'⟩, ⟨below, above⟩, clashes⟩

/-- Going down the ranks, a fix is applied in the rearranged list exactly if it is in the list. -/
theorem moved_mem_appliedCandidates_iff (places : order.Perm (List.range fixes.length))
    (keeps : KeepsTies lines.length fixes threshold order) {candidate : Candidate}
    (member : candidate ∈ eligible fixes threshold) :
    candidate.moved order ∈ appliedCandidates lines (rearrange fixes order) threshold ↔
      candidate ∈ appliedCandidates lines fixes threshold := by
  -- The induction is on the candidates considered so far, in the order of the first list.
  suffices upTo : ∀ front back, candidates fixes threshold = front ++ back → ∀ first ∈ front,
      (first.moved order ∈ appliedCandidates lines (rearrange fixes order) threshold ↔
        first ∈ appliedCandidates lines fixes threshold) from
    upTo _ [] (List.append_nil _).symm candidate (mem_candidates.mpr member)
  intro front
  induction front using List.reverseRecOn with
  | nil => simp
  | append_singleton front last ih =>
    intro back split first listed
    rw [List.append_assoc, List.singleton_append] at split
    have earlier := ih (last :: back) split
    rcases List.mem_append.mp listed with before | here
    · exact earlier first before
    · obtain rfl : first = last := List.mem_singleton.mp here
      have able : first ∈ eligible fixes threshold := mem_candidates.mp (by simp [split])
      rw [mem_appliedCandidates_iff, mem_appliedCandidates_iff]
      refine and_congr (iff_of_true (moved_mem_eligible places able) able)
        (and_congr_right fun inside => ?_)
      have agrees {old : Candidate} (oldAble : old ∈ eligible fixes threshold)
          (oldInside : old.fix.inRange lines.length = true)
          (clashes : clash? old.fix first.fix ≠ none) :=
        outranks_moved_iff places keeps oldAble able oldInside inside clashes
      constructor
      · intro free kept applied above
        by_contra clashes
        have oldAble := appliedCandidates_eligible applied
        have before := mem_front_of_outranks split (mem_candidates.mpr oldAble) above
        exact clashes (free (kept.moved order) ((earlier kept before).mpr applied)
          ((agrees oldAble (appliedCandidates_inRange applied) clashes).mpr above))
      · intro free kept applied above
        obtain ⟨old, oldAble, rfl⟩ :=
          (mem_eligible_rearrange_iff places).mp (appliedCandidates_eligible applied)
        have oldInside : (old.moved order).fix.inRange lines.length = true :=
          appliedCandidates_inRange applied
        by_contra clashes
        have above' := (agrees oldAble oldInside clashes).mp above
        have before := mem_front_of_outranks split (mem_candidates.mpr oldAble) above'
        exact clashes (free old ((earlier old before).mp applied) above')

theorem mem_appliedCandidates_rearrange_iff (places : order.Perm (List.range fixes.length))
    (keeps : KeepsTies lines.length fixes threshold order) {candidate : Candidate} :
    candidate ∈ appliedCandidates lines (rearrange fixes order) threshold ↔
      ∃ old ∈ appliedCandidates lines fixes threshold, old.moved order = candidate := by
  constructor
  · intro applied
    obtain ⟨old, able, rfl⟩ :=
      (mem_eligible_rearrange_iff places).mp (appliedCandidates_eligible applied)
    exact ⟨old, (moved_mem_appliedCandidates_iff places keeps able).mp applied, rfl⟩
  · rintro ⟨old, applied, rfl⟩
    exact (moved_mem_appliedCandidates_iff places keeps (appliedCandidates_eligible applied)).mpr
      applied

/-- The same fixes are applied from the rearranged list, in the same order. -/
theorem appliedCandidates_rearrange (places : order.Perm (List.range fixes.length))
    (keeps : KeepsTies lines.length fixes threshold order) :
    appliedCandidates lines (rearrange fixes order) threshold =
      (appliedCandidates lines fixes threshold).map (Candidate.moved order) := by
  have descending : ((appliedCandidates lines fixes threshold).map
      (Candidate.moved order)).Pairwise Candidate.Descends :=
    appliedCandidates_pairwise_descending.map _ fun _ _ descends => descends
  refine eq_of_perm_of_descending ?_ appliedCandidates_pairwise_descending descending
  refine (List.perm_ext_iff_of_nodup (nodup_of_descending appliedCandidates_pairwise_descending)
    (nodup_of_descending descending)).mpr fun candidate => ?_
  rw [mem_appliedCandidates_rearrange_iff places keeps, List.mem_map]

/-- A place of a rearranged list is marked exactly if the place that it is taken from is. -/
theorem markApplied_rearrange (places : order.Perm (List.range fixes.length)) (applied : List Nat) :
    Patch.markApplied (rearrange fixes order) (applied.map fun place => order.idxOf place) =
      rearrange (Patch.markApplied fixes applied) order := by
  have inside : ∀ place ∈ order, place < fixes.length := fun place => (mem_order_iff places).mp
  have inside' : ∀ place ∈ order, place < (Patch.markApplied fixes applied).length := by
    simpa [Patch.markApplied] using inside
  refine List.ext_getElem? fun position => ?_
  rw [getElem?_markApplied, getElem?_rearrange inside, getElem?_rearrange inside']
  cases placed : order[position]? with
  | none => rfl
  | some place =>
    obtain ⟨below, here⟩ := List.getElem?_eq_some_iff.mp placed
    have moved : position = order.idxOf place := by
      rw [← here, (nodup_order places).idxOf_getElem]
    have member : (applied.map fun place => order.idxOf place).contains position =
        applied.contains place := by
      rw [Bool.eq_iff_iff, List.contains_iff_mem, List.contains_iff_mem, List.mem_map, moved]
      constructor
      · rintro ⟨other, listed, same⟩
        exact (List.idxOf_inj (List.mem_of_getElem? placed)).mp same.symm ▸ listed
      · intro listed
        exact ⟨place, listed, rfl⟩
    simp only [Option.bind_some, getElem?_markApplied, member]

/-- **The order of the fixes matters only between ties that clash.** Fixes that are listed in
another order, in which the eligible fixes within the lines that are equally sure and clash stand as
before, are applied and marked as before, and give the same lines. -/
theorem apply_rearranged (lines : List String) (fixes : List Fix) (threshold : Binary64)
    {order : List Nat} (places : order.Perm (List.range fixes.length))
    (keeps : KeepsTies lines.length fixes threshold order) :
    let patch := Patch.apply lines fixes threshold
    let rearranged := Patch.apply lines (rearrange fixes order) threshold
    rearranged.applied = patch.applied.map (fun place => order.idxOf place) ∧
      rearranged.fixes = rearrange patch.fixes order ∧ rearranged.lines = patch.lines := by
  intro patch rearranged
  have same := appliedCandidates_rearrange places keeps
  have applied : rearranged.applied = patch.applied.map fun place => order.idxOf place := by
    show (appliedCandidates lines (rearrange fixes order) threshold).map Candidate.index =
      ((appliedCandidates lines fixes threshold).map Candidate.index).map _
    rw [same, List.map_map, List.map_map]
    rfl
  have edits : (appliedCandidates lines (rearrange fixes order) threshold).map Candidate.fix =
      (appliedCandidates lines fixes threshold).map Candidate.fix := by
    rw [same, List.map_map]
    rfl
  refine ⟨applied, ?_, ?_⟩
  · show Patch.markApplied (rearrange fixes order) rearranged.applied = _
    rw [applied]
    exact markApplied_rearrange places patch.applied
  · rw [lines_apply, lines_apply, filterMap_applied, filterMap_applied, edits]

/-- Two deletions of the first line tie and keep their order, while the others are moved around
them. -/
theorem apply_rearranged_deletions :
    let lines := ["x", "y", "x"]
    let fixes := [deletion 3 95, deletion 3 85, deletion 1 85, deletion 1 85]
    let order := [2, 1, 3, 0]
    let patch := Patch.apply lines (rearrange fixes order) (Config.hundredths 80)
    order.Perm (List.range fixes.length) ∧
      KeepsTies lines.length fixes (Config.hundredths 80) order ∧
        ¬ KeepsTies lines.length fixes (Config.hundredths 80) [3, 2, 1, 0] ∧
          patch.applied = [3, 0] ∧ patch.lines = ["y"] := by
  intro lines fixes order patch
  have places : order.Perm (List.range fixes.length) := by decide +kernel
  have keeps : KeepsTies lines.length fixes (Config.hundredths 80) order := by decide +kernel
  have swapped : ¬ KeepsTies lines.length fixes (Config.hundredths 80) [3, 2, 1, 0] := by
    decide +kernel
  obtain ⟨applied, -, kept⟩ := apply_rearranged lines fixes (Config.hundredths 80) places keeps
  have unsorted : Patch.apply lines fixes (Config.hundredths 80) = _ :=
    apply_of_pairwise (by decide +kernel) (by decide +kernel)
  refine ⟨places, keeps, swapped, ?_, ?_⟩
  · rw [applied, unsorted]
    decide +kernel
  · rw [kept, unsorted]
    decide +kernel

end Rearranged

end StrategyMend.Repair
