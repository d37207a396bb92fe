import Mathlib.Data.List.Forall2
import Mathlib.Data.List.Pairwise
import StrategyMend.Proofs.Repair.Ranking

/-!
# Deciding which fixes are accepted

Candidates are considered one after the other. One step skips a candidate that lies outside the lines,
skips one that clashes with a candidate accepted before, or accepts it (`consider_cases`).

What has been decided about the candidates seen so far is kept as an invariant (`Decided`): each is
accepted or skipped, the accepted ones lie within the lines and do not clash, and the report of every
skipped one names the highest ranked of the accepted candidates it clashes with. A step keeps the
invariant (`Decided.consider`), because a candidate that is accepted later is outranked by all
that were accepted before and so never takes the place of a named one. Hence it holds of the whole
selection (`exists_decided_select`).
-/

set_option autoImplicit false

namespace StrategyMend.Repair

open Number

/-! ## Clashes -/

/-- Clashing does not depend on which of the two fixes was accepted first. -/
theorem clash?_comm (first second : Fix) : clash? first second = clash? second first := by
  unfold clash?
  cases first.isInsert <;> cases second.isInsert <;> simp [and_comm, eq_comm]

/-- When two fixes can be applied together, by their kinds: new lines go to different places, no new
lines go between the lines of a span, and spans have no line in common. -/
theorem clash?_eq_none_iff {kept candidate : Fix} :
    clash? kept candidate = none ↔
      (kept.isInsert = true → candidate.isInsert = true → kept.line ≠ candidate.line) ∧
      (kept.isInsert = true → candidate.isInsert = false →
        ¬ (candidate.line < kept.line ∧ kept.line ≤ candidate.endLine)) ∧
      (kept.isInsert = false → candidate.isInsert = true →
        ¬ (kept.line < candidate.line ∧ candidate.line ≤ kept.endLine)) ∧
      (kept.isInsert = false → candidate.isInsert = false →
        ¬ (kept.line ≤ candidate.endLine ∧ candidate.line ≤ kept.endLine)) := by
  unfold clash?
  cases kept.isInsert <;> cases candidate.isInsert <;> simp

/-- Lying outside the lines is not a clash. -/
theorem clash?_ne_outOfRange (kept candidate : Fix) :
    clash? kept candidate ≠ some .outOfRange := by
  unfold clash?
  cases kept.isInsert <;> cases candidate.isInsert <;> simp

/-! ## One step -/

/-- **What one step decides.** The candidate lies outside the lines, or it clashes with an accepted
one and with none before that, or it is accepted. -/
theorem consider_cases (count : Nat) (selection : Selection) (candidate : Candidate) :
    (candidate.fix.inRange count = false ∧
        selection.consider count candidate =
          { selection with
            conflicts := selection.conflicts ++ [.ofFix candidate.fix .outOfRange none] }) ∨
      (candidate.fix.inRange count = true ∧
        ∃ before winner after reason, selection.accepted = before ++ winner :: after ∧
          clash? winner.fix candidate.fix = some reason ∧
          (∀ other ∈ before, clash? other.fix candidate.fix = none) ∧
          selection.consider count candidate =
            { selection with
              conflicts :=
                selection.conflicts ++ [.ofFix candidate.fix reason (some winner.fix.line)] }) ∨
      (candidate.fix.inRange count = true ∧
        (∀ kept ∈ selection.accepted, clash? kept.fix candidate.fix = none) ∧
        selection.consider count candidate =
          { selection with accepted := selection.accepted ++ [candidate] }) := by
  cases inside : candidate.fix.inRange count with
  | false => exact .inl ⟨rfl, by simp [Selection.consider, inside]⟩
  | true =>
    cases found : Selection.winner? selection.accepted candidate.fix with
    | none =>
        refine .inr (.inr ⟨rfl, ?_, by simp [Selection.consider, inside, found]⟩)
        intro kept member
        simpa using List.findSome?_eq_none_iff.mp found kept member
    | some result =>
        obtain ⟨winner, reason⟩ := result
        obtain ⟨before, kept, after, split, clashes, free⟩ := List.findSome?_eq_some_iff.mp found
        simp only [Option.map_eq_some_iff, Prod.mk.injEq] at clashes
        obtain ⟨_, clashes, rfl, rfl⟩ := clashes
        refine .inr (.inl ⟨rfl, before, kept, after, _, split, clashes, ?_, ?_⟩)
        · intro other member
          simpa using free other member
        · simp [Selection.consider, inside, found]

/-! ## Justified reports -/

/-- Why the report of a skipped candidate is right, given the accepted ones: the candidate lies
outside the lines, or the report is about the highest ranked accepted candidate that clashes with
it, and that one outranks it. -/
inductive Justified (count : Nat) (accepted : List Candidate) (skipped : Candidate) :
    Conflict → Prop where
  | outOfRange (outside : skipped.fix.inRange count = false) :
      Justified count accepted skipped (.ofFix skipped.fix .outOfRange none)
  | clash {winner : Candidate} {reason : ConflictReason}
      (inside : skipped.fix.inRange count = true) (member : winner ∈ accepted)
      (above : winner.Outranks skipped) (clashes : clash? winner.fix skipped.fix = some reason)
      (first : ∀ other ∈ accepted, other.Outranks winner →
        clash? other.fix skipped.fix = none) :
      Justified count accepted skipped (.ofFix skipped.fix reason (some winner.fix.line))

theorem Justified.outOfRange_iff {count : Nat} {accepted : List Candidate} {skipped : Candidate}
    {conflict : Conflict} (justified : Justified count accepted skipped conflict) :
    conflict.reason = .outOfRange ↔ skipped.fix.inRange count = false := by
  cases justified with
  | outOfRange outside => simp [Conflict.ofFix, outside]
  | @clash winner reason inside _ _ clashes _ =>
      have inRange : reason ≠ .outOfRange := by
        rintro rfl
        exact clash?_ne_outOfRange winner.fix skipped.fix clashes
      simp [Conflict.ofFix, inside, inRange]

/-- Accepting a candidate that all accepted ones outrank changes no report. -/
theorem Justified.accept {count : Nat} {accepted : List Candidate} {skipped candidate : Candidate}
    {conflict : Conflict} (justified : Justified count accepted skipped conflict)
    (below : ∀ kept ∈ accepted, kept.Outranks candidate) :
    Justified count (accepted ++ [candidate]) skipped conflict := by
  cases justified with
  | outOfRange outside => exact .outOfRange outside
  | clash inside member above clashes first =>
      refine .clash inside (List.mem_append_left _ member) above clashes ?_
      intro other member' higher
      rcases List.mem_append.mp member' with earlier | last
      · exact first other earlier higher
      · rw [List.mem_singleton.mp last] at higher
        exact absurd higher (below _ member).asymm

/-! ## The invariant -/

/-- What is known once the candidates `seen` have been considered, of which `skipped` were not
accepted. -/
structure Decided (count : Nat) (seen : List Candidate) (selection : Selection)
    (skipped : List Candidate) : Prop where
  accepted_sublist : selection.accepted.Sublist seen
  skipped_sublist : skipped.Sublist seen
  complete : (selection.accepted ++ skipped).Perm seen
  inside : ∀ kept ∈ selection.accepted, kept.fix.inRange count = true
  compatible : selection.accepted.Pairwise fun first second =>
    clash? first.fix second.fix = none
  justified : List.Forall₂ (Justified count selection.accepted) skipped selection.conflicts

namespace Decided

variable {count : Nat} {seen skipped : List Candidate} {selection : Selection}
  {candidate : Candidate}

theorem empty (count : Nat) : Decided count [] .empty [] where
  accepted_sublist := .slnil
  skipped_sublist := .slnil
  complete := .nil
  inside := by simp [Selection.empty]
  compatible := .nil
  justified := .nil

/-- A skipped candidate with a justified report. -/
theorem skip (decided : Decided count seen selection skipped) {conflict : Conflict}
    (justified : Justified count selection.accepted candidate conflict) :
    Decided count (seen ++ [candidate])
      { selection with conflicts := selection.conflicts ++ [conflict] }
      (skipped ++ [candidate]) where
  accepted_sublist := decided.accepted_sublist.trans (List.sublist_append_left _ _)
  skipped_sublist := decided.skipped_sublist.append_right _
  complete := by
    rw [← List.append_assoc]
    exact decided.complete.append_right _
  inside := decided.inside
  compatible := decided.compatible
  justified := List.rel_append decided.justified (.cons justified .nil)

/-- An accepted candidate that clashes with none before and is outranked by all seen. -/
theorem accept (decided : Decided count seen selection skipped)
    (inside : candidate.fix.inRange count = true)
    (free : ∀ kept ∈ selection.accepted, clash? kept.fix candidate.fix = none)
    (below : ∀ earlier ∈ seen, earlier.Outranks candidate) :
    Decided count (seen ++ [candidate])
      { selection with accepted := selection.accepted ++ [candidate] } skipped where
  accepted_sublist := decided.accepted_sublist.append_right _
  skipped_sublist := decided.skipped_sublist.trans (List.sublist_append_left _ _)
  complete := by
    have moved : (selection.accepted ++ [candidate] ++ skipped).Perm
        (selection.accepted ++ skipped ++ [candidate]) := by
      have swapped : ([candidate] ++ skipped).Perm (skipped ++ [candidate]) :=
        List.perm_append_comm
      simpa using swapped.append_left selection.accepted
    exact moved.trans (decided.complete.append_right _)
  inside := by
    intro kept member
    rcases List.mem_append.mp member with earlier | last
    · exact decided.inside kept earlier
    · rwa [List.mem_singleton.mp last]
  compatible := by
    refine List.pairwise_append.mpr ⟨decided.compatible, List.pairwise_singleton _ _, ?_⟩
    intro kept member last equal
    rw [List.mem_singleton.mp equal]
    exact free kept member
  justified := decided.justified.imp fun _ _ justified =>
    justified.accept fun kept member => below kept (decided.accepted_sublist.subset member)

/-- **A step keeps the invariant**, if the candidates are considered by rank. -/
theorem consider (decided : Decided count seen selection skipped)
    (ranked : (seen ++ [candidate]).Pairwise Candidate.Outranks) :
    ∃ skipped', Decided count (seen ++ [candidate]) (selection.consider count candidate)
      skipped' := by
  have below : ∀ earlier ∈ seen, earlier.Outranks candidate := fun earlier member =>
    (List.pairwise_append.mp ranked).2.2 earlier member candidate (by simp)
  have acceptedRanked : selection.accepted.Pairwise Candidate.Outranks :=
    (List.pairwise_append.mp ranked).1.sublist decided.accepted_sublist
  rcases consider_cases count selection candidate with
    ⟨outside, step⟩ | ⟨inside, before, winner, after, reason, split, clashes, free, step⟩ |
      ⟨inside, free, step⟩
  · rw [step]
    exact ⟨_, decided.skip (.outOfRange outside)⟩
  · rw [step]
    have member : winner ∈ selection.accepted := by simp [split]
    refine ⟨_, decided.skip (.clash inside member
      (below winner (decided.accepted_sublist.subset member)) clashes ?_)⟩
    intro other otherMember higher
    rw [split] at otherMember acceptedRanked
    rcases List.mem_append.mp otherMember with earlier | rest
    · exact free other earlier
    · -- The accepted candidates are in the order of their ranks, so none from here on is higher.
      rcases List.mem_cons.mp rest with rfl | later
      · exact absurd higher (Candidate.Outranks.irrefl _)
      · have lower := (List.pairwise_cons.mp (List.pairwise_append.mp acceptedRanked).2.1).1
        exact absurd higher (lower other later).asymm
  · rw [step]
    exact ⟨_, decided.accept inside free below⟩

/-- A run of steps keeps the invariant. -/
theorem foldl_consider (rest : List Candidate) (decided : Decided count seen selection skipped)
    (ranked : (seen ++ rest).Pairwise Candidate.Outranks) :
    ∃ skipped', Decided count (seen ++ rest) (rest.foldl (Selection.consider count) selection)
      skipped' := by
  induction rest generalizing seen selection skipped with
  | nil => exact ⟨skipped, by simpa using decided⟩
  | cons candidate rest ih =>
    rw [List.append_cons] at ranked ⊢
    obtain ⟨_, next⟩ := decided.consider (List.pairwise_append.mp ranked).1
    exact ih next ranked

theorem exists_justified (decided : Decided count seen selection skipped)
    (member : candidate ∈ skipped) :
    ∃ conflict, Justified count selection.accepted candidate conflict := by
  obtain ⟨place, rfl⟩ := List.mem_iff_get.mp member
  exact ⟨_, decided.justified.get place.2 (decided.justified.length_eq ▸ place.2)⟩

/-- **Who is accepted**: a candidate within the lines with which no accepted one of higher rank
clashes. -/
theorem mem_accepted_iff (decided : Decided count seen selection skipped) :
    candidate ∈ selection.accepted ↔
      candidate ∈ seen ∧ candidate.fix.inRange count = true ∧
        ∀ kept ∈ selection.accepted, kept.Outranks candidate →
          clash? kept.fix candidate.fix = none := by
  constructor
  · intro member
    refine ⟨decided.accepted_sublist.subset member, decided.inside _ member, ?_⟩
    intro kept listed above
    have distinct : kept ≠ candidate := fun same =>
      Candidate.Outranks.irrefl candidate (same ▸ above)
    have symmetric : Std.Symm fun first second : Candidate =>
        clash? first.fix second.fix = none := ⟨fun _ _ free => (clash?_comm _ _).trans free⟩
    exact decided.compatible.forall listed member distinct
  · rintro ⟨considered, inside, free⟩
    rcases List.mem_append.mp (decided.complete.mem_iff.mpr considered) with accepted | missed
    · exact accepted
    · obtain ⟨conflict, justified⟩ := decided.exists_justified missed
      cases justified with
      | outOfRange outside =>
        rw [inside] at outside
        cases outside
      | clash _ member above clashes _ =>
        rw [free _ member above] at clashes
        cases clashes

end Decided

/-- **The selection decides about every candidate**, if they are considered by rank. -/
theorem exists_decided_select (count : Nat) {candidates : List Candidate}
    (ranked : candidates.Pairwise Candidate.Outranks) :
    ∃ skipped, Decided count candidates (select count candidates) skipped :=
  (Decided.empty count).foldl_consider candidates ranked

end StrategyMend.Repair
