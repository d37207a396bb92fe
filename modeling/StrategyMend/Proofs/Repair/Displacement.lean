import Mathlib.Algebra.BigOperators.Group.List.Basic
import Mathlib.Data.List.Induction
import StrategyMend.Proofs.Repair.Marks

/-!
# Where lines stand after a patch

An edit above a line moves the line by the number of lines that it adds (`Fix.growth`). If the lines
from one on are left alone up to where new lines go, they stand in the patched text as they were, by as
many lines further down as the applied fixes above them add (`exists_lines_apply_eq`).
-/

set_option autoImplicit false

namespace StrategyMend.Repair

open Number

namespace Fix

/-- How many lines the edit adds; negative if it takes away more. -/
def growth (fix : Fix) : Int := fix.replacementLines.length - (fix.reach + 1 - fix.line : Nat)

/-- Everything that the fix changes lies above the line with this number. -/
def IsAbove (fix : Fix) (number : Nat) : Prop := fix.line < number ∧ fix.reach < number

instance (fix : Fix) (number : Nat) : Decidable (fix.IsAbove number) :=
  inferInstanceAs (Decidable (_ ∧ _))

theorem IsAbove.mono {fix : Fix} {number number' : Nat} (upTo : number ≤ number')
    (above : fix.IsAbove number) : fix.IsAbove number' :=
  ⟨Nat.lt_of_lt_of_le above.1 upTo, Nat.lt_of_lt_of_le above.2 upTo⟩

end Fix

/-- How many lines the fixes above a line add. -/
def growthAbove (fixes : List Fix) (number : Nat) : Int :=
  (fixes.filter fun fix => fix.IsAbove number).foldr (fun fix lines => fix.growth + lines) 0

/-- How far down a line is moved by the applied ones among the fixes. -/
def displacement (fixes : List Fix) (number : Nat) : Int :=
  growthAbove (fixes.filter Fix.applied) number

theorem displacement_congr {fixes : List Fix} {number number' : Nat}
    (agree : ∀ fix ∈ fixes, fix.applied = true → (fix.IsAbove number ↔ fix.IsAbove number')) :
    displacement fixes number = displacement fixes number' := by
  rw [displacement, displacement, growthAbove, growthAbove]
  congr 1
  refine List.filter_congr fun fix member => ?_
  obtain ⟨listed, applied⟩ := List.mem_filter.mp member
  exact decide_eq_decide.mpr (agree fix listed applied)

/-- No line stands above the first one. -/
theorem displacement_zero (fixes : List Fix) : displacement fixes 0 = 0 := by
  simp [displacement, growthAbove, Fix.IsAbove]

section Growth

variable {accepted : List Fix} {lines : List String} {fix : Fix} {count : Nat}

theorem growthAbove_perm {fixes others : List Fix} (same : fixes.Perm others) (number : Nat) :
    growthAbove fixes number = growthAbove others number :=
  have : LeftCommutative fun (fix : Fix) (lines : Int) => fix.growth + lines :=
    ⟨fun first second lines => Int.add_left_comm first.growth second.growth lines⟩
  (same.filter _).foldr_eq 0

/-- The mark of application does not matter. -/
theorem growthAbove_marked {α : Type} {items : List α} (made : α → Fix) (number : Nat) :
    growthAbove (items.map fun item => { made item with applied := true }) number =
      growthAbove (items.map made) number := by
  simp only [growthAbove, List.filter_map, List.foldr_map]
  rfl

theorem growthAbove_concat (number : Nat) : growthAbove (accepted ++ [fix]) number =
    growthAbove accepted number + if fix.IsAbove number then fix.growth else 0 := by
  have starts (fixes : List Fix) (lines : Int) :
      fixes.foldr (fun fix lines => fix.growth + lines) lines =
        fixes.foldr (fun fix lines => fix.growth + lines) 0 + lines := by
    induction fixes with
    | nil => exact (Int.zero_add lines).symm
    | cons fix rest ih => rw [List.foldr_cons, List.foldr_cons, ih, Int.add_assoc]
  rw [growthAbove, List.filter_append, List.foldr_append, starts, growthAbove]
  by_cases above : fix.IsAbove number <;> simp [above]

/-- Where a fix with a span acts, the lines are its own, and the others are those of the fixes behind
it. -/
theorem length_between_concat (before : ∀ later ∈ accepted, fix.Before later)
    (inside : fix.inRange lines.length = true) (changes : fix.editKind ≠ .noChange)
    (upTo : count ≤ lines.length) (above : fix.IsAbove (count + 1)) :
    ((between (accepted ++ [fix]) lines 1 count).length : Int) =
      (between accepted lines 1 count).length + fix.growth := by
  have positive := Fix.line_pos_of_inRange inside
  have ordered := Fix.line_le_reach inside
  obtain ⟨line, reach⟩ := above
  cases kind : fix.isInsert with
  | true =>
    have reached : fix.reach = fix.line - 1 := by simp [Fix.reach, kind]
    have split : count = (fix.line - 1) + (count - fix.line + 1) := by omega
    have place : 1 + (fix.line - 1) = fix.line := by omega
    have made : between (accepted ++ [fix]) lines 1 count =
        between accepted lines 1 (fix.line - 1) ++
          (fix.replacementLines ++ between accepted lines fix.line (count - fix.line + 1)) := by
      rw [split, between_add, place, ← split, between_insert kind before, between_front before ordered,
        between_before before (Nat.le_of_eq reached.symm)]
    have old : between accepted lines 1 count =
        between accepted lines 1 (fix.line - 1) ++
          between accepted lines fix.line (count - fix.line + 1) := by
      rw [split, between_add, place, ← split]
    simp only [made, old, List.length_append, Fix.growth, reached]
    omega
  | false =>
    have span := (Fix.isInsert_eq_false_iff changes).mp kind
    have reached : fix.reach = fix.endLine := by simp [Fix.reach, kind]
    have upTo' : fix.line ≤ fix.endLine :=
      ((Fix.inRange_iff_reach positive).mp inside).2 kind
    rw [reached] at reach
    have split : count = (fix.line - 1) + (fix.endLine + 1 - fix.line) + (count - fix.endLine) := by
      omega
    have split' : count = fix.endLine + (count - fix.endLine) := by omega
    have place : 1 + (fix.line - 1) = fix.line := by omega
    have next : 1 + ((fix.line - 1) + (fix.endLine + 1 - fix.line)) = 1 + fix.endLine := by omega
    have back : between (accepted ++ [fix]) lines (1 + fix.endLine) (count - fix.endLine) =
        between accepted lines (1 + fix.endLine) (count - fix.endLine) := by
      refine between_concat_of_not _ _ fun number start _ => ?_
      rcases span with removes | replaces
      · simp [Fix.insertsAt, Fix.covers, removes]
        omega
      · simp [Fix.insertsAt, Fix.covers, replaces]
        omega
    have made : (between (accepted ++ [fix]) lines 1 count).length =
        (fix.line - 1) + fix.replacementLines.length +
          (between accepted lines (1 + fix.endLine) (count - fix.endLine)).length := by
      rw [split, between_add, between_add, between_front before ordered, place,
        between_span span before upTo', next, ← split, back]
      simp only [List.length_append, List.length_take]
      omega
    have old : (between accepted lines 1 count).length =
        fix.endLine + (between accepted lines (1 + fix.endLine) (count - fix.endLine)).length := by
      rw [split', between_add, between_before before (Nat.le_of_eq reached.symm), ← split']
      simp only [List.length_append, List.length_take]
      omega
    simp only [Fix.growth, reached, made, old]
    omega

/-- **The lines above a place grow by what the fixes above it add.** -/
theorem length_between (before : accepted.Pairwise fun later earlier => earlier.Before later)
    (inside : ∀ fix ∈ accepted, fix.inRange lines.length = true ∧ fix.editKind ≠ .noChange)
    (upTo : count ≤ lines.length)
    (apart : ∀ fix ∈ accepted, fix.IsAbove (count + 1) ∨ count < fix.line) :
    ((between accepted lines 1 count).length : Int) = count + growthAbove accepted (count + 1) := by
  induction accepted using List.reverseRecOn with
  | nil =>
    have kept : between [] lines 1 count = lines.take count := between_one_of_forall count (by simp)
    rw [kept, List.length_take, Nat.min_eq_left upTo]
    simp [growthAbove]
  | append_singleton accepted fix ih =>
    obtain ⟨others, -, last⟩ := List.pairwise_append.mp before
    have behind : ∀ later ∈ accepted, fix.Before later := fun later member =>
      last later member fix (List.mem_singleton_self fix)
    have shown := ih others (fun other member => inside other (List.mem_append_left _ member))
      fun other member => apart other (List.mem_append_left _ member)
    obtain ⟨within, changes⟩ := inside fix (by simp)
    rw [growthAbove_concat]
    rcases apart fix (by simp) with above | below
    · rw [length_between_concat behind within changes upTo above, shown, if_pos above, Int.add_assoc]
    · have outside : ¬fix.IsAbove (count + 1) := fun above => by
        have := above.1
        omega
      have elsewhere : between (accepted ++ [fix]) lines 1 count = between accepted lines 1 count := by
        refine between_concat_of_not _ _ fun number _ small => ?_
        simp only [Fix.insertsAt, Fix.covers, decide_eq_false_iff_not, not_and]
        omega
      rw [elsewhere, shown, if_neg outside, Int.add_zero]

end Growth

/-! ## Lines that new lines go behind -/

section Place

variable {accepted : List Fix} {lines : List String} {fix : Fix} {start place : Nat}

/-- Lines that no fix changes stay, wherever they begin. -/
theorem between_of_forall (count : Nat)
    (free : ∀ number, start < number → number ≤ start + count → ∀ fix ∈ accepted,
      fix.insertsAt number = false ∧ fix.covers number = false) :
    between accepted lines (start + 1) count = (lines.take (start + count)).drop start := by
  induction count with
  | zero => simp [between]
  | succ count ih =>
    have last : between accepted lines (start + 1 + count) 1 = lines[start + count]?.toList := by
      have here := free (start + 1 + count) (by omega) (by omega)
      have index : start + 1 + count - 1 = start + count := by omega
      rw [between_succ, insertedAt_of_forall fun fix member => (here fix member).1,
        remainderAt_of_forall fun fix member => (here fix member).2, index]
      simp [between]
    rw [between_add, last, ih fun number above upTo => free number above (by omega),
      ← Nat.add_assoc, List.take_add_one, List.drop_append]
    cases below : lines[start + count]? with
    | none => simp
    | some line =>
      have inside := (List.getElem?_eq_some_iff.mp below).1
      rw [List.length_take_of_le (by omega), Nat.sub_eq_zero_of_le (by omega), List.drop_zero]

/-- Only one fix puts lines at a place. -/
theorem insertedAt_of_mem (before : accepted.Pairwise fun later earlier => earlier.Before later)
    (member : fix ∈ accepted) (inserts : fix.isInsert = true) :
    insertedAt accepted fix.line = fix.replacementLines := by
  have here : fix.insertsAt fix.line = true := by simp [Fix.insertsAt, Fix.isInsert_iff.mp inserts]
  have apart : ∀ other ∈ accepted, other ≠ fix → other.Before fix ∨ fix.Before other := by
    have either : accepted.Pairwise fun first second => first.Before second ∨ second.Before first :=
      before.imp Or.inr
    have : Std.Symm fun first second : Fix => first.Before second ∨ second.Before first :=
      ⟨fun _ _ => Or.symm⟩
    exact fun other listed differ => either.forall listed member differ
  cases found : accepted.find? fun other => other.insertsAt fix.line with
  | none =>
    have nowhere := List.find?_eq_none.mp found fix member
    exact absurd here nowhere
  | some other =>
    have also := @List.find?_some _ (fun other : Fix => other.insertsAt fix.line) _ _ found
    simp only [Fix.insertsAt, decide_eq_true_eq] at also
    have inserts' := Fix.isInsert_iff.mpr also.1
    by_cases differ : other = fix
    · rw [insertedAt, found, differ]
    · rcases apart other (List.mem_of_find?_eq_some found) differ with front | front
      · have := front.2 inserts' inserts
        omega
      · have := front.2 inserts inserts'
        omega

/-- **Lines that new lines go behind** stand in front of them as they were, if all other fixes act
above or behind, and are moved by what those above add. -/
theorem exists_simultaneous_eq
    (before : accepted.Pairwise fun later earlier => earlier.Before later)
    (inside : ∀ fix ∈ accepted, fix.inRange lines.length = true ∧ fix.editKind ≠ .noChange)
    (member : fix ∈ accepted) (inserts : fix.isInsert = true) (placed : fix.line = place + 1)
    (upTo : start ≤ place) (within : place ≤ lines.length)
    (apart : ∀ other ∈ accepted, other ≠ fix → other.IsAbove (start + 1) ∨ place < other.line) :
    ∃ front back, simultaneous accepted lines =
        front ++ ((lines.take place).drop start ++ (fix.replacementLines ++ back)) ∧
      (front.length : Int) = start + growthAbove accepted (start + 1) := by
  have apart' : ∀ other ∈ accepted, other.IsAbove (start + 1) ∨ place < other.line := by
    intro other listed
    by_cases same : other = fix
    · exact .inr (same ▸ placed ▸ Nat.lt_succ_self place)
    · exact apart other listed same
  have front := length_between before inside (Nat.le_trans upTo within) fun other listed =>
    (apart' other listed).imp_right fun behind => Nat.lt_of_le_of_lt upTo behind
  have middle : between accepted lines (start + 1) (place - start) =
      (lines.take place).drop start := by
    rw [between_of_forall (place - start), Nat.add_sub_cancel' upTo]
    intro number above below other listed
    simp only [Fix.insertsAt, Fix.covers, decide_eq_false_iff_not, not_and]
    have outside := apart' other listed
    have reaches : (other.editKind = .delete ∨ other.editKind = .replace) →
        other.endLine = other.reach := by
      rintro (kind | kind) <;> simp [Fix.reach, Fix.isInsert, kind]
    simp only [Fix.IsAbove] at outside
    refine ⟨fun _ => ?_, fun kind => ?_⟩
    · omega
    · have := reaches kind
      omega
  have back := @between_succ accepted lines (place + 1) (lines.length - place)
  rw [← placed, insertedAt_of_mem before member inserts, placed, List.append_assoc] at back
  have count : lines.length + 1 - start = (place - start) + (lines.length - place + 1) := by omega
  have next : start + 1 + (place - start) = place + 1 := by omega
  refine ⟨between accepted lines 1 start, remainderAt accepted lines (place + 1) ++
    between accepted lines (place + 1 + 1) (lines.length - place), ?_, front⟩
  rw [simultaneous_split start (by omega), count, between_add, next, middle, back]

end Place

/-! ## Patches -/

section Patch

open Patch

variable {lines : List String} {fixes : List Fix} {threshold : Binary64}

/-- The mark is all that it changes. -/
theorem Fix.eq_of_marked_eq {first second : Fix} (fresh : first.applied = false)
    (fresh' : second.applied = false)
    (same : { first with applied := true } = { second with applied := true }) : first = second := by
  cases first
  cases second
  simp_all

/-- The marked fixes are the applied ones, with the mark. -/
theorem filter_applied_perm (unapplied : ∀ fix ∈ fixes, fix.applied = false) :
    ((Patch.apply lines fixes threshold).fixes.filter Fix.applied).Perm
      ((appliedCandidates lines fixes threshold).map fun candidate =>
        { candidate.fix with applied := true }) := by
  let places := (Patch.apply lines fixes threshold).applied
  let listed := fixes.zipIdx.filter fun entry => places.contains entry.2
  have shown : ∀ entry ∈ fixes.zipIdx, entry.1.applied = false := fun entry member =>
    unapplied _ (List.fst_mem_of_mem_zipIdx member)
  have marked : (Patch.apply lines fixes threshold).fixes.filter Fix.applied =
      listed.map fun entry => { entry.1 with applied := true } := by
    change (markApplied fixes places).filter Fix.applied = _
    rw [markApplied, List.filter_map, List.filter_congr (q := fun entry => places.contains entry.2)]
    · refine List.map_congr_left fun entry member => ?_
      exact if_pos (List.mem_filter.mp member).2
    · intro entry member
      have fresh := shown entry member
      by_cases here : entry.2 ∈ places <;> simp [here, fresh]
  have same : (listed.map fun entry => Candidate.mk entry.2 entry.1).Perm
      (appliedCandidates lines fixes threshold) := by
    refine (List.perm_ext_iff_of_nodup ?_ ?_).mpr fun candidate => ?_
    · refine List.Pairwise.of_map (S := (· ≠ ·)) Candidate.index (fun _ _ => ne_of_apply_ne _) ?_
      rw [List.map_map]
      have indices : (fixes.zipIdx.map Prod.snd).Nodup := by
        rw [List.zipIdx_map_snd]
        exact List.nodup_range'
      exact (List.filter_sublist.map Prod.snd).nodup indices
    · exact nodup_of_descending appliedCandidates_pairwise_descending
    · obtain ⟨index, fix⟩ := candidate
      simp only [listed, places, List.mem_map, List.mem_filter, List.mem_zipIdx_iff_getElem?,
        List.contains_iff_mem, Prod.exists, Candidate.mk.injEq]
      constructor
      · rintro ⟨fix', index', ⟨here, applied⟩, rfl, rfl⟩
        obtain ⟨candidate, member, rfl⟩ := List.mem_map.mp applied
        have there := (mem_eligible.mp (appliedCandidates_eligible member)).1
        obtain rfl := Option.some.inj (there.symm.trans here)
        exact member
      · intro member
        exact ⟨fix, index, ⟨(mem_eligible.mp (appliedCandidates_eligible member)).1,
          List.mem_map_of_mem member⟩, rfl, rfl⟩
  rw [marked]
  simpa [List.map_map, Function.comp_def] using same.map fun candidate : Candidate =>
    { candidate.fix with applied := true }

/-- An applied fix is one of the given ones, with the mark. -/
theorem exists_of_applied (unapplied : ∀ fix ∈ fixes, fix.applied = false) {fix : Fix}
    (member : fix ∈ (Patch.apply lines fixes threshold).fixes) (applied : fix.applied = true) :
    ∃ original ∈ fixes, { original with applied := true } = fix := by
  obtain ⟨candidate, chosen, rfl⟩ := List.mem_map.mp
    ((filter_applied_perm unapplied).mem_iff.mp (List.mem_filter.mpr ⟨member, applied⟩))
  exact ⟨candidate.fix,
    List.mem_of_getElem? (mem_eligible.mp (appliedCandidates_eligible chosen)).1, rfl⟩

/-- **Behind which lines of a patch the new lines stand.** The lines of an applied fix that puts new ones
in stand behind those above its place, from some line on as they were, if every other applied fix acts
above or behind these. -/
theorem exists_lines_apply_eq (unapplied : ∀ fix ∈ fixes, fix.applied = false) {fix : Fix}
    {start place : Nat} (member : fix ∈ (Patch.apply lines fixes threshold).fixes)
    (applied : fix.applied = true) (inserts : fix.isInsert = true) (placed : fix.line = place + 1)
    (upTo : start ≤ place) (within : place ≤ lines.length)
    (apart : ∀ other ∈ (Patch.apply lines fixes threshold).fixes, other.applied = true →
      other ≠ fix → other.IsAbove (start + 1) ∨ place < other.line) :
    ∃ front back, (Patch.apply lines fixes threshold).lines =
        front ++ ((lines.take place).drop start ++ (fix.replacementLines ++ back)) ∧
      (front.length : Int) =
        start + displacement (Patch.apply lines fixes threshold).fixes (start + 1) := by
  have same := @filter_applied_perm lines fixes threshold unapplied
  let accepted := (appliedCandidates lines fixes threshold).map Candidate.fix
  have marked {other : Fix} (listed : other ∈ accepted) :
      { other with applied := true } ∈ (Patch.apply lines fixes threshold).fixes := by
    obtain ⟨candidate, chosen, rfl⟩ := List.mem_map.mp listed
    exact (List.mem_filter.mp (same.mem_iff.mpr (List.mem_map_of_mem chosen))).1
  have fresh {other : Fix} (listed : other ∈ accepted) : other.applied = false := by
    obtain ⟨candidate, chosen, rfl⟩ := List.mem_map.mp listed
    exact unapplied _ (List.mem_of_getElem? (mem_eligible.mp (appliedCandidates_eligible chosen)).1)
  obtain ⟨candidate, chosen, rfl⟩ :=
    List.mem_map.mp (same.mem_iff.mp (List.mem_filter.mpr ⟨member, applied⟩))
  have before : accepted.Pairwise fun later earlier => earlier.Before later :=
    List.pairwise_map.mpr appliedCandidates_pairwise_before
  have inside : ∀ other ∈ accepted,
      other.inRange lines.length = true ∧ other.editKind ≠ .noChange := by
    intro other listed
    obtain ⟨candidate, chosen, rfl⟩ := List.mem_map.mp listed
    exact ⟨appliedCandidates_inRange chosen,
      (isEligible_iff.mp (mem_eligible.mp (appliedCandidates_eligible chosen)).2).2.2⟩
  have apart' : ∀ other ∈ accepted, other ≠ candidate.fix →
      other.IsAbove (start + 1) ∨ place < other.line := by
    intro other listed differ
    have outside := apart _ (marked listed) rfl fun alike =>
      differ (Fix.eq_of_marked_eq (fresh listed) (fresh (List.mem_map_of_mem chosen)) alike)
    exact outside
  obtain ⟨front, back, shown, length⟩ := exists_simultaneous_eq before inside
    (List.mem_map_of_mem chosen) inserts placed upTo within apart'
  refine ⟨front, back, ?_, ?_⟩
  · rw [lines_apply, filterMap_applied]
    exact shown
  · rw [length, displacement, growthAbove_perm same]
    exact congrArg (_ + ·) (growthAbove_marked Candidate.fix _).symm

end Patch

end StrategyMend.Repair
