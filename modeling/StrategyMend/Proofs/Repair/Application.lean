import StrategyMend.Proofs.Repair.Edits
import StrategyMend.Proofs.Repair.Selection

/-!
# Applying fixes

The accepted fixes are applied from the last line to the first. As they do not clash, each of them lies
in front of all that were applied before it (`appliedCandidates_pairwise_before`), so the line
numbers of the original lines stay right throughout.

There are two main results. The lines after the application are those of all accepted fixes made at once,
and no edit reaches outside of the lines it is made in (`apply_eq_simultaneous`). And the
application resolves every conflict between eligible fixes and justifies each one that is skipped
(`apply_resolves_conflicts`).
-/

set_option autoImplicit false

namespace StrategyMend.Repair

open Number

/-! ## The order of application -/

/-- The accepted candidates in the order of application. -/
def appliedCandidates (lines : List String) (fixes : List Fix) (threshold : Binary64) :
    List Candidate :=
  (select lines.length (candidates fixes threshold)).accepted.mergeSort Candidate.appliesBefore

theorem Candidate.appliesBefore_iff {first second : Candidate} :
    first.appliesBefore second = true ↔
      second.fix.line < first.fix.line ∨
        (first.fix.line = second.fix.line ∧
          (first.fix.isInsert = false ∨ second.fix.isInsert = true)) := by
  simp [Candidate.appliesBefore]

theorem Candidate.appliesBefore_trans (first second third : Candidate)
    (above : first.appliesBefore second = true) (below : second.appliesBefore third = true) :
    first.appliesBefore third = true := by
  rw [Candidate.appliesBefore_iff] at *
  rcases above with lower | ⟨same, kinds⟩ <;> rcases below with lower' | ⟨same', kinds'⟩
  · exact .inl (by omega)
  · exact .inl (by omega)
  · exact .inl (by omega)
  · refine .inr ⟨same.trans same', ?_⟩
    rcases kinds with edit | insert
    · exact .inl edit
    · rcases kinds' with edit' | insert'
      · rw [insert] at edit'
        cases edit'
      · exact .inr insert'

theorem Candidate.appliesBefore_total (first second : Candidate) :
    (first.appliesBefore second || second.appliesBefore first) = true := by
  rw [Bool.or_eq_true, Candidate.appliesBefore_iff, Candidate.appliesBefore_iff]
  cases first.fix.isInsert <;> cases second.fix.isInsert <;> simp <;> omega

variable {lines : List String} {fixes : List Fix} {threshold : Binary64}

theorem appliedCandidates_perm :
    (appliedCandidates lines fixes threshold).Perm
      (select lines.length (candidates fixes threshold)).accepted :=
  List.mergeSort_perm _ _

/-- What is known about the selection from the eligible fixes. -/
theorem exists_decided_candidates (lines : List String) (fixes : List Fix)
    (threshold : Binary64) :
    ∃ skipped, Decided lines.length (candidates fixes threshold)
      (select lines.length (candidates fixes threshold)) skipped :=
  exists_decided_select lines.length candidates_pairwise_outranks

theorem appliedCandidates_inRange {candidate : Candidate}
    (member : candidate ∈ appliedCandidates lines fixes threshold) :
    candidate.fix.inRange lines.length = true := by
  obtain ⟨_, decided⟩ := exists_decided_candidates lines fixes threshold
  exact decided.inside candidate (appliedCandidates_perm.mem_iff.mp member)

theorem appliedCandidates_eligible {candidate : Candidate}
    (member : candidate ∈ appliedCandidates lines fixes threshold) :
    candidate ∈ eligible fixes threshold := by
  obtain ⟨_, decided⟩ := exists_decided_candidates lines fixes threshold
  have accepted := appliedCandidates_perm.mem_iff.mp member
  exact mem_candidates.mp (decided.accepted_sublist.subset accepted)

/-- Applied fixes do not clash, whichever of the two is the other's candidate. -/
theorem appliedCandidates_pairwise_compatible :
    (appliedCandidates lines fixes threshold).Pairwise fun first second =>
      clash? first.fix second.fix = none := by
  obtain ⟨_, decided⟩ := exists_decided_candidates lines fixes threshold
  refine (appliedCandidates_perm.pairwise_iff ?_).mpr decided.compatible
  intro first second free
  rwa [clash?_comm]

/-- The first candidate has a later line than the second, or at the same line it edits in front of
which the second puts new lines. -/
def Candidate.Descends (first second : Candidate) : Prop :=
  second.fix.line < first.fix.line ∨
    (first.fix.line = second.fix.line ∧ first.fix.isInsert = false ∧ second.fix.isInsert = true)

instance (first second : Candidate) : Decidable (first.Descends second) :=
  inferInstanceAs (Decidable (_ ∨ _))

theorem Candidate.Descends.asymm {first second : Candidate} (descends : first.Descends second) :
    ¬ second.Descends first := by
  intro ascends
  rcases descends with lower | ⟨same, edit, insert⟩ <;>
    rcases ascends with lower' | ⟨same', edit', insert'⟩
  · omega
  · omega
  · omega
  · rw [edit] at insert'
    cases insert'

/-- A list of candidates from the last line to the first is determined by its members. -/
theorem eq_of_perm_of_descending {first second : List Candidate} (same : first.Perm second)
    (descending : first.Pairwise Candidate.Descends)
    (descending' : second.Pairwise Candidate.Descends) : first = second :=
  same.eq_of_pairwise (fun _ _ _ _ below above => absurd above below.asymm) descending descending'

theorem nodup_of_descending {candidates : List Candidate}
    (descending : candidates.Pairwise Candidate.Descends) : candidates.Nodup := by
  refine descending.imp fun descends same => ?_
  subst same
  exact descends.asymm descends

/-- Two fixes without a clash are applied from the later line to the earlier one, and at the same
line the edit comes before the new lines. -/
theorem descending_of_appliesBefore {first second : Candidate} {count : Nat}
    (ordered : first.appliesBefore second = true)
    (free : clash? first.fix second.fix = none) (inside : first.fix.inRange count = true)
    (inside' : second.fix.inRange count = true) : first.Descends second := by
  rcases Candidate.appliesBefore_iff.mp ordered with lower | ⟨same, kinds⟩
  · exact .inl lower
  · refine .inr ⟨same, ?_⟩
    have span := (Fix.inRange_iff_reach (Fix.line_pos_of_inRange inside)).mp inside
    have span' := (Fix.inRange_iff_reach (Fix.line_pos_of_inRange inside')).mp inside'
    rw [clash?_eq_none_iff] at free
    cases kind : first.fix.isInsert with
    | true =>
      cases kind' : second.fix.isInsert with
      | true => exact absurd same (free.1 kind kind')
      | false => simp [kind, kind'] at kinds
    | false =>
      cases kind' : second.fix.isInsert with
      | true => exact ⟨rfl, rfl⟩
      | false =>
        have apart := free.2.2.2 kind kind'
        have upTo := span.2 kind
        have upTo' := span'.2 kind'
        omega

theorem appliedCandidates_pairwise_descending :
    (appliedCandidates lines fixes threshold).Pairwise Candidate.Descends := by
  have sorted : (appliedCandidates lines fixes threshold).Pairwise fun first second =>
      first.appliesBefore second = true :=
    List.pairwise_mergeSort Candidate.appliesBefore_trans Candidate.appliesBefore_total _
  refine (sorted.and appliedCandidates_pairwise_compatible).imp_of_mem ?_
  intro first second member member' ⟨ordered, free⟩
  exact descending_of_appliesBefore ordered free (appliedCandidates_inRange member)
    (appliedCandidates_inRange member')

/-- **Each applied fix lies in front of all that were applied before it.** -/
theorem appliedCandidates_pairwise_before :
    (appliedCandidates lines fixes threshold).Pairwise fun later earlier =>
      earlier.fix.Before later.fix := by
  refine (appliedCandidates_pairwise_descending.and
    appliedCandidates_pairwise_compatible).imp_of_mem ?_
  intro later earlier member member' ⟨descending, free⟩
  have inside := appliedCandidates_inRange member
  have inside' := appliedCandidates_inRange member'
  have positive := Fix.line_pos_of_inRange inside'
  have span := (Fix.inRange_iff_reach (Fix.line_pos_of_inRange inside)).mp inside
  rw [clash?_eq_none_iff] at free
  constructor
  · cases kind' : earlier.fix.isInsert with
    | true =>
      simp only [Fix.reach, kind', ↓reduceIte]
      rcases descending with lower | ⟨same, -, -⟩ <;> omega
    | false =>
      simp only [Fix.reach, kind', Bool.false_eq_true, ↓reduceIte]
      have lower : earlier.fix.line < later.fix.line := by
        rcases descending with lower | ⟨-, -, insert⟩
        · exact lower
        · rw [kind'] at insert
          cases insert
      cases kind : later.fix.isInsert with
      | true =>
        have outside := free.2.1 kind kind'
        omega
      | false =>
        have apart := free.2.2.2 kind kind'
        have upTo := span.2 kind
        omega
  · intro _ insert
    rcases descending with lower | ⟨-, edit, -⟩
    · exact lower
    · rw [insert] at edit
      cases edit

/-! ## The lines after the application -/

/-- The fixes at the places of a patch are those of the applied candidates. -/
theorem filterMap_applied :
    ((Patch.apply lines fixes threshold).applied.filterMap fun place => fixes[place]?) =
      (appliedCandidates lines fixes threshold).map Candidate.fix := by
  have places : ∀ candidate ∈ appliedCandidates lines fixes threshold,
      fixes[candidate.index]? = some candidate.fix := fun candidate member =>
    (mem_eligible.mp (appliedCandidates_eligible member)).1
  show ((appliedCandidates lines fixes threshold).map Candidate.index).filterMap _ = _
  rw [List.filterMap_map, ← List.filterMap_eq_map]
  exact List.filterMap_congr places

/-- Edits that all fit give the same lines when nothing checks whether they fit. -/
theorem foldl_edit_of_foldlM_edit? {edits : List Fix} {start patched : List String}
    (made : edits.foldlM (fun lines fix => fix.edit? lines) start = some patched) :
    edits.foldl (fun lines fix => fix.edit lines) start = patched := by
  induction edits generalizing start with
  | nil => simpa using made
  | cons fix rest ih =>
    rw [List.foldlM_cons] at made
    obtain ⟨next, one, others⟩ := Option.bind_eq_some_iff.mp made
    have edited : fix.edit start = next := by
      unfold Fix.edit? at one
      split at one
      · exact Option.some.inj one
      · cases one
    rw [List.foldl_cons, edited]
    exact ih others

/-- The accepted fixes, applied one after the other, fit and give the lines of all of them made at
once. -/
theorem foldlM_edit?_appliedCandidates :
    ((appliedCandidates lines fixes threshold).map Candidate.fix).foldlM
        (fun patched fix => fix.edit? patched) lines =
      some (simultaneous ((appliedCandidates lines fixes threshold).map Candidate.fix) lines) := by
  have run := foldlM_edit?_simultaneous lines []
    ((appliedCandidates lines fixes threshold).map Candidate.fix) ?_ ?_ ?_
  · rwa [simultaneous_nil, List.nil_append] at run
  · intro fix member
    obtain ⟨candidate, applied, rfl⟩ := List.mem_map.mp member
    exact (isEligible_iff.mp (mem_eligible.mp (appliedCandidates_eligible applied)).2).2.2
  · intro fix member
    obtain ⟨candidate, applied, rfl⟩ := List.mem_map.mp member
    exact appliedCandidates_inRange applied
  · rw [List.nil_append, List.pairwise_map]
    exact appliedCandidates_pairwise_before

/-- The lines of a patch are those of its accepted fixes made at once. -/
theorem lines_apply :
    (Patch.apply lines fixes threshold).lines =
      simultaneous ((Patch.apply lines fixes threshold).applied.filterMap fun place => fixes[place]?)
        lines := by
  rw [filterMap_applied, ← foldl_edit_of_foldlM_edit? foldlM_edit?_appliedCandidates,
    List.foldl_map]
  rfl

/-- **Applying fixes is editing at once.** Every edit fits the lines left by those before it, and
the lines in the end are those of all accepted fixes made at once in the original lines. -/
theorem apply_eq_simultaneous (lines : List String) (fixes : List Fix) (threshold : Binary64) :
    let patch := Patch.apply lines fixes threshold
    let accepted := patch.applied.filterMap fun place => fixes[place]?
    accepted.foldlM (fun patched fix => fix.edit? patched) lines = some patch.lines ∧
      patch.lines = simultaneous accepted lines := by
  intro patch accepted
  have candidatesOf : accepted = (appliedCandidates lines fixes threshold).map Candidate.fix :=
    filterMap_applied
  have lines_eq : patch.lines = simultaneous accepted lines := lines_apply
  refine ⟨?_, lines_eq⟩
  rw [lines_eq, candidatesOf]
  exact foldlM_edit?_appliedCandidates

/-! ## Fixes that are in order already -/

/-- Nothing is sorted when the eligible fixes are listed by their confidence and the accepted ones from
the last line to the first. -/
theorem apply_of_pairwise
    (ranked : (eligible fixes threshold).Pairwise fun first second => first.precedes second = true)
    (descending : (select lines.length (eligible fixes threshold)).accepted.Pairwise
      fun first second => first.appliesBefore second = true) :
    let selection := select lines.length (eligible fixes threshold)
    Patch.apply lines fixes threshold =
      { lines := selection.accepted.foldl (fun patched candidate => candidate.fix.edit patched) lines
        applied := selection.accepted.map Candidate.index
        conflicts := selection.conflicts
        fixes := Patch.markApplied fixes (selection.accepted.map Candidate.index) } := by
  intro selection
  have considered : candidates fixes threshold = eligible fixes threshold :=
    List.mergeSort_of_pairwise ranked
  have ordered : selection.accepted.mergeSort Candidate.appliesBefore = selection.accepted :=
    List.mergeSort_of_pairwise descending
  simp only [Patch.apply, considered]
  rw [ordered]

/-- The accepted fixes are sorted by giving them in the order of application. -/
theorem apply_of_perm {ordered : List Candidate}
    (ranked : (eligible fixes threshold).Pairwise fun first second => first.precedes second = true)
    (same : ordered.Perm (select lines.length (eligible fixes threshold)).accepted)
    (descending : ordered.Pairwise Candidate.Descends) :
    Patch.apply lines fixes threshold =
      { lines := ordered.foldl (fun patched candidate => candidate.fix.edit patched) lines
        applied := ordered.map Candidate.index
        conflicts := (select lines.length (eligible fixes threshold)).conflicts
        fixes := Patch.markApplied fixes (ordered.map Candidate.index) } := by
  have considered : candidates fixes threshold = eligible fixes threshold :=
    List.mergeSort_of_pairwise ranked
  have sorted : (select lines.length (candidates fixes threshold)).accepted.mergeSort
      Candidate.appliesBefore = ordered :=
    eq_of_perm_of_descending (appliedCandidates_perm.trans (considered ▸ same.symm))
      appliedCandidates_pairwise_descending descending
  rw [considered] at sorted
  simp only [Patch.apply, considered, sorted]

/-! ## The resolution of conflicts -/

/-- How a patch came about from fixes for some lines at a threshold, of which the candidates
`applied` were applied, in this order, and the candidates `skipped` were not. -/
structure Resolution (lines : List String) (fixes : List Fix) (threshold : Binary64)
    (patch : Patch) (applied skipped : List Candidate) : Prop where
  /-- Every eligible fix is either applied or skipped, once, and no other fix is. -/
  complete : (applied ++ skipped).Perm (eligible fixes threshold)
  /-- The patch lists the places of the applied fixes. -/
  places : patch.applied = applied.map Candidate.index
  /-- No two applied fixes clash. -/
  compatible : applied.Pairwise fun first second =>
    clash? first.fix second.fix = none ∧ clash? second.fix first.fix = none
  /-- Later lines come first, and at the same line an edit before new lines. -/
  descending : applied.Pairwise fun first second =>
    second.fix.line < first.fix.line ∨
      (first.fix.line = second.fix.line ∧ first.fix.isInsert = false ∧
        second.fix.isInsert = true)
  /-- There is one conflict for each skipped fix, with a reason that is right. -/
  justified : List.Forall₂ (Justified lines.length applied) skipped patch.conflicts
  /-- A fix is reported as out of range exactly if it lies outside of the lines. -/
  outOfRange : List.Forall₂
    (fun candidate conflict =>
      conflict.reason = .outOfRange ↔ candidate.fix.inRange lines.length = false)
    skipped patch.conflicts
  /-- The fixes stay as they are, except that the applied ones are marked. -/
  marked : ∀ place : Nat, patch.fixes[place]? = fixes[place]?.map fun fix =>
    { fix with applied := fix.applied || patch.applied.contains place }

theorem getElem?_markApplied (fixes : List Fix) (applied : List Nat) (place : Nat) :
    (Patch.markApplied fixes applied)[place]? = fixes[place]?.map fun fix =>
      { fix with applied := fix.applied || applied.contains place } := by
  simp only [Patch.markApplied, List.getElem?_map, List.getElem?_zipIdx, Nat.zero_add,
    Option.map_map]
  congr 1
  funext fix
  by_cases member : place ∈ applied <;> simp [member]

/-- The report of a skipped candidate does not depend on the order of the accepted ones. -/
theorem Justified.perm {count : Nat} {accepted accepted' : List Candidate} {skipped : Candidate}
    {conflict : Conflict} (justified : Justified count accepted skipped conflict)
    (same : accepted'.Perm accepted) : Justified count accepted' skipped conflict := by
  cases justified with
  | outOfRange outside => exact .outOfRange outside
  | clash inside member above clashes first =>
      exact .clash inside (same.mem_iff.mpr member) above clashes fun other member' =>
        first other (same.mem_iff.mp member')

/-- **Conflicts are resolved exactly, stably and with a reason.** -/
theorem apply_resolves_conflicts (lines : List String) (fixes : List Fix) (threshold : Binary64) :
    ∃ applied skipped,
      Resolution lines fixes threshold (Patch.apply lines fixes threshold) applied skipped := by
  obtain ⟨skipped, decided⟩ := exists_decided_candidates lines fixes threshold
  have justified : List.Forall₂ (Justified lines.length (appliedCandidates lines fixes threshold))
      skipped (Patch.apply lines fixes threshold).conflicts :=
    decided.justified.imp fun _ _ justified => justified.perm appliedCandidates_perm
  exact ⟨appliedCandidates lines fixes threshold, skipped,
    { complete :=
        (appliedCandidates_perm.append_right _).trans (decided.complete.trans candidates_perm)
      places := rfl
      compatible := appliedCandidates_pairwise_compatible.imp fun free =>
        ⟨free, (clash?_comm _ _).trans free⟩
      descending := appliedCandidates_pairwise_descending
      justified
      outOfRange := justified.imp fun _ _ justified => justified.outOfRange_iff
      marked := getElem?_markApplied fixes _ }⟩

end StrategyMend.Repair
