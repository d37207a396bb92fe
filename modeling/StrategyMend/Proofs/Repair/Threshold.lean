import StrategyMend.Config.Basic
import StrategyMend.Proofs.Repair.Application

/-!
# Raising the threshold

Two applications of the same fixes at different thresholds are compared. The fixes that are eligible at
the higher threshold are considered first at the lower one too, in the same order
(`candidates_eq_append`). What is considered later only adds to what has been decided
(`foldl_consider_extends`), so the decisions of the stricter application are the beginning of those
of the more lenient one (`select_extends`).

Hence a raised threshold leaves out the less sure of the applied fixes and of the conflicts, and changes
nothing about the others (`apply_raisedThreshold`).
-/

set_option autoImplicit false

namespace StrategyMend.Repair

open Number

/-! ## Candidates at two thresholds -/

/-- Whether a fix is at least as sure as a threshold. -/
def Fix.reaches (threshold : Binary64) (fix : Fix) : Bool := threshold.le fix.confidence

variable {lines : List String} {fixes : List Fix} {low high : Binary64}

/-- Above a lower threshold, only the confidence decides which fixes are eligible at a higher one. -/
theorem isEligible_of_raised (raised : low.le high = true) (fix : Fix) :
    fix.isEligible high = (fix.isEligible low && fix.reaches high) := by
  rw [Bool.eq_iff_iff, Bool.and_eq_true, isEligible_iff, isEligible_iff, Fix.reaches]
  constructor
  · rintro ⟨auto, sure, changes⟩
    exact ⟨⟨auto, Binary64.le_trans raised sure, changes⟩, sure⟩
  · rintro ⟨⟨auto, -, changes⟩, sure⟩
    exact ⟨auto, sure, changes⟩

theorem eligible_eq_filter (raised : low.le high = true) :
    eligible fixes high = (eligible fixes low).filter fun candidate => candidate.fix.reaches high := by
  rw [eligible, eligible, List.filter_filter]
  refine List.filter_congr fun candidate _ => ?_
  rw [isEligible_of_raised raised, Bool.and_comm]

/-- Two lists of the same candidates that are both ranked are equal. -/
theorem eq_of_perm_of_outranks {first second : List Candidate} (same : first.Perm second)
    (ranked : first.Pairwise Candidate.Outranks) (ranked' : second.Pairwise Candidate.Outranks) :
    first = second :=
  same.eq_of_pairwise (fun _ _ _ _ above below => absurd below above.asymm) ranked ranked'

theorem candidates_eq_filter (raised : low.le high = true) :
    candidates fixes high =
      (candidates fixes low).filter fun candidate => candidate.fix.reaches high := by
  refine eq_of_perm_of_outranks ?_ candidates_pairwise_outranks
    (candidates_pairwise_outranks.filter _)
  calc (candidates fixes high).Perm (eligible fixes high) := candidates_perm
    _ = (eligible fixes low).filter fun candidate => candidate.fix.reaches high :=
        eligible_eq_filter raised
    _ |>.Perm ((candidates fixes low).filter fun candidate => candidate.fix.reaches high) :=
        (candidates_perm.filter _).symm

/-- A list in which the elements of a part come before the others is that part and the others. -/
theorem eq_filter_append_filter {α : Type} {before : α → α → Prop} {part : α → Bool}
    (closed : ∀ first second, before first second → part second = true → part first = true)
    {list : List α} (ordered : list.Pairwise before) :
    list = list.filter part ++ list.filter fun element => !part element := by
  induction list with
  | nil => rfl
  | cons element rest ih =>
    obtain ⟨above, rest_ordered⟩ := List.pairwise_cons.mp ordered
    cases member : part element with
    | true => simpa [member] using ih rest_ordered
    | false =>
      have outside : ∀ other ∈ rest, part other = false := by
        intro other listed
        rw [← Bool.not_eq_true]
        intro inside
        rw [closed element other (above other listed) inside] at member
        cases member
      have none : rest.filter part = [] := by
        simpa [List.filter_eq_nil_iff] using outside
      have all : rest.filter (fun element => !part element) = rest := by
        simpa [List.filter_eq_self] using outside
      simp [member, none, all]

/-- **The candidates at a raised threshold are considered first.** -/
theorem candidates_eq_append (fixes : List Fix) (raised : low.le high = true) :
    ∃ later, candidates fixes low = candidates fixes high ++ later ∧
      ∀ candidate ∈ later, candidate.fix.reaches high = false := by
  refine ⟨(candidates fixes low).filter fun candidate => !candidate.fix.reaches high, ?_, ?_⟩
  · rw [candidates_eq_filter raised]
    refine eq_filter_append_filter ?_ candidates_pairwise_outranks
    intro first second above sure
    obtain ⟨defined, defined'⟩ := above.isDefined
    rw [Candidate.outranks_iff_position defined defined'] at above
    refine Binary64.le_trans sure ((Binary64.le_iff_position defined' defined).mpr ?_)
    omega
  · intro candidate member
    simpa using (List.mem_filter.mp member).2

theorem reaches_of_mem_candidates {candidate : Candidate}
    (member : candidate ∈ candidates fixes high) : candidate.fix.reaches high = true :=
  (isEligible_iff.mp (mem_eligible.mp (mem_candidates.mp member)).2).2.1

/-! ## Decisions are never taken back -/

/-- The second selection has all decisions of the first, in front of decisions about the candidates
`considered`. -/
structure Selection.Extends (considered : List Candidate) (first second : Selection) : Prop where
  accepted : ∃ more, second.accepted = first.accepted ++ more ∧ ∀ kept ∈ more, kept ∈ considered
  conflicts : ∃ more, second.conflicts = first.conflicts ++ more ∧
    ∀ conflict ∈ more, ∃ skipped ∈ considered, conflict.skippedConfidence = skipped.fix.confidence

/-- One step only adds a decision about its candidate. -/
theorem consider_extends (count : Nat) (selection : Selection) (candidate : Candidate) :
    selection.Extends [candidate] (selection.consider count candidate) := by
  have nothing : ∃ more : List Candidate, selection.accepted = selection.accepted ++ more ∧
      ∀ kept ∈ more, kept ∈ [candidate] := ⟨[], by simp, by simp⟩
  rcases consider_cases count selection candidate with
    ⟨-, step⟩ | ⟨-, before, winner, after, reason, -, -, -, step⟩ | ⟨-, -, step⟩
  · rw [step]
    exact ⟨nothing, [_], rfl, by simp [Conflict.ofFix]⟩
  · rw [step]
    exact ⟨nothing, [_], rfl, by simp [Conflict.ofFix]⟩
  · rw [step]
    exact ⟨⟨[candidate], rfl, by simp⟩, [], by simp, by simp⟩

/-- A run of steps only adds decisions about its candidates. -/
theorem foldl_consider_extends (count : Nat) (later : List Candidate) (selection : Selection) :
    selection.Extends later (later.foldl (Selection.consider count) selection) := by
  induction later generalizing selection with
  | nil => exact ⟨⟨[], by simp, by simp⟩, [], by simp, by simp⟩
  | cons candidate rest ih =>
    obtain ⟨⟨kept, one, about⟩, skipped, first, reported⟩ :=
      consider_extends count selection candidate
    obtain ⟨⟨kept', run, about'⟩, skipped', others, reported'⟩ :=
      ih (selection.consider count candidate)
    rw [List.foldl_cons]
    refine ⟨⟨kept ++ kept', by rw [run, one, List.append_assoc], ?_⟩, skipped ++ skipped',
      by rw [others, first, List.append_assoc], ?_⟩
    · intro other member
      rcases List.mem_append.mp member with here | there
      · exact List.mem_cons.mpr (.inl (List.mem_singleton.mp (about other here)))
      · exact List.mem_cons_of_mem _ (about' other there)
    · intro conflict member
      rcases List.mem_append.mp member with here | there
      · obtain ⟨other, only, confidence⟩ := reported conflict here
        exact ⟨candidate, List.mem_cons_self, by rw [confidence, List.mem_singleton.mp only]⟩
      · obtain ⟨other, listed, confidence⟩ := reported' conflict there
        exact ⟨other, List.mem_cons_of_mem _ listed, confidence⟩

/-- **The decisions at a raised threshold are the first ones at the lower threshold.** All others are
about fixes that do not reach the raised threshold. -/
theorem select_extends (fixes : List Fix) (raised : low.le high = true) (count : Nat) :
    ∃ later, (∀ candidate ∈ later, candidate.fix.reaches high = false) ∧
      (select count (candidates fixes high)).Extends later (select count (candidates fixes low)) := by
  obtain ⟨later, split, unsure⟩ := candidates_eq_append fixes raised
  refine ⟨later, unsure, ?_⟩
  rw [split, select, select, List.foldl_append]
  exact foldl_consider_extends count later _

/-- All decisions are about candidates. -/
theorem select_decides (count : Nat) (considered : List Candidate) :
    (∀ kept ∈ (select count considered).accepted, kept ∈ considered) ∧
      ∀ conflict ∈ (select count considered).conflicts,
        ∃ skipped ∈ considered, conflict.skippedConfidence = skipped.fix.confidence := by
  obtain ⟨⟨kept, accepted, about⟩, skipped, conflicts, reported⟩ :=
    foldl_consider_extends count considered .empty
  refine ⟨?_, ?_⟩
  · rw [select, accepted]
    simpa [Selection.empty] using about
  · rw [select, conflicts]
    simpa [Selection.empty] using reported

/-! ## Patches at two thresholds -/

/-- The applied fixes at a raised threshold are those of the lower threshold that reach it. -/
theorem appliedCandidates_eq_filter (raised : low.le high = true) :
    appliedCandidates lines fixes high =
      (appliedCandidates lines fixes low).filter fun candidate => candidate.fix.reaches high := by
  obtain ⟨later, unsure, ⟨more, accepted, about⟩, -⟩ :=
    select_extends fixes raised lines.length
  have sure : (select lines.length (candidates fixes high)).accepted.filter
      (fun candidate => candidate.fix.reaches high) =
        (select lines.length (candidates fixes high)).accepted :=
    List.filter_eq_self.mpr fun kept member =>
      reaches_of_mem_candidates ((select_decides _ _).1 kept member)
  have none : more.filter (fun candidate => candidate.fix.reaches high) = [] :=
    List.filter_eq_nil_iff.mpr fun kept member => by
      simp [unsure kept (about kept member)]
  refine eq_of_perm_of_descending ?_ appliedCandidates_pairwise_descending
    (appliedCandidates_pairwise_descending.filter _)
  calc (appliedCandidates lines fixes high).Perm
        (select lines.length (candidates fixes high)).accepted := appliedCandidates_perm
    _ = (select lines.length (candidates fixes low)).accepted.filter
          (fun candidate => candidate.fix.reaches high) := by
        rw [accepted, List.filter_append, sure, none, List.append_nil]
    _ |>.Perm ((appliedCandidates lines fixes low).filter
          fun candidate => candidate.fix.reaches high) := (appliedCandidates_perm.filter _).symm

/-- **Raising the threshold leaves out the less sure fixes and conflicts, and nothing else.** The fixes
applied at the raised threshold are those applied at the lower one that reach it, in the same order, and
its conflicts are the first ones at the lower threshold, up to where the skipped fixes cease to
reach it. -/
theorem apply_raisedThreshold (lines : List String) (fixes : List Fix) {low high : Binary64}
    (raised : low.le high = true) :
    let lenient := Patch.apply lines fixes low
    let strict := Patch.apply lines fixes high
    strict.applied =
        lenient.applied.filter (fun place => (fixes[place]?).any (Fix.reaches high)) ∧
      ∃ later, lenient.conflicts = strict.conflicts ++ later ∧
        (∀ conflict ∈ strict.conflicts, high.le conflict.skippedConfidence = true) ∧
          ∀ conflict ∈ later, high.le conflict.skippedConfidence = false := by
  intro lenient strict
  obtain ⟨later, unsure, -, more, conflicts, reported⟩ :=
    select_extends fixes raised lines.length
  refine ⟨?_, more, conflicts, ?_, ?_⟩
  · have chosen : strict.applied = (appliedCandidates lines fixes high).map Candidate.index := rfl
    have among : lenient.applied = (appliedCandidates lines fixes low).map Candidate.index := rfl
    rw [chosen, among, appliedCandidates_eq_filter raised, List.filter_map]
    refine congrArg (List.map Candidate.index) (List.filter_congr fun candidate member => ?_)
    have here := (mem_eligible.mp (appliedCandidates_eligible member)).1
    simp [here]
  · intro conflict member
    obtain ⟨skipped, considered, confidence⟩ := (select_decides _ _).2 conflict member
    rw [confidence]
    exact reaches_of_mem_candidates considered
  · intro conflict member
    obtain ⟨skipped, considered, confidence⟩ := reported conflict member
    rw [confidence]
    exact unsure skipped considered

/-- A fix that deletes one line, with a confidence of so many hundredths. -/
def deletion (line confidence : Nat) : Fix :=
  (Fix.delete ⟨.low, .custom "t", line, "t", none, none⟩ line line ["x"]).classified .auto
    (Config.hundredths confidence) .zero

/-- At 90 hundredths the third fix and the conflict of the second with the first are left out. -/
theorem apply_raisedThreshold_deletions :
    let lines := ["x", "y", "x"]
    let fixes := [deletion 3 95, deletion 3 85, deletion 1 80]
    let lenient := Patch.apply lines fixes (Config.hundredths 80)
    let strict := Patch.apply lines fixes (Config.hundredths 90)
    (Config.hundredths 80).le (Config.hundredths 90) = true ∧
      lenient.applied = [0, 2] ∧ strict.applied = [0] ∧
        lenient.conflicts.map Conflict.reason = [.overlap] ∧ strict.conflicts = [] := by
  intro lines fixes lenient strict
  have raised : (Config.hundredths 80).le (Config.hundredths 90) = true := by decide +kernel
  obtain ⟨applied, later, conflicts, sure, -⟩ := apply_raisedThreshold lines fixes raised
  have unsorted : lenient = _ := apply_of_pairwise (by decide +kernel) (by decide +kernel)
  have first : lenient.applied = [0, 2] := by
    rw [unsorted]
    decide +kernel
  have reports : lenient.conflicts = [⟨.overlap, 3, "", Config.hundredths 85, some 3⟩] := by
    rw [unsorted]
    decide +kernel
  refine ⟨raised, first, ?_, ?_, ?_⟩
  · show (Patch.apply lines fixes (Config.hundredths 90)).applied = [0]
    rw [applied, first]
    decide +kernel
  · rw [reports]
    rfl
  · -- The only conflict is too unsure to be one of the stricter patch.
    refine List.eq_nil_iff_forall_not_mem.mpr fun conflict member => ?_
    have listed : conflict ∈ lenient.conflicts := by
      rw [conflicts]
      exact List.mem_append_left _ member
    rw [reports, List.mem_singleton] at listed
    have reached := sure conflict member
    rw [listed] at reached
    revert reached
    decide +kernel

end StrategyMend.Repair
