import StrategyMend.Proofs.Repair.Application
import StrategyMend.Repair.Strategy

/-!
# Marks of application

A patch marks the fixes it applied. If none was marked before, then the marked fixes are as many as the
patch applied, and each of them is eligible (`countP_applied_apply`, `isEligible_of_applied`).

Generators leave the mark to patches. A registry whose generators all do is one that proposes unapplied
fixes, and the registry of the built-in generators is of that kind for every configuration
(`proposesUnapplied_standard`).
-/

set_option autoImplicit false

namespace StrategyMend.Repair

open Number Source

variable {lines : List String} {fixes : List Fix} {threshold : Binary64}

/-! ## Patches -/

/-- No place is listed twice. -/
theorem nodup_applied : (Patch.apply lines fixes threshold).applied.Nodup := by
  obtain ⟨skipped, decided⟩ := exists_decided_candidates lines fixes threshold
  have places : ((eligible fixes threshold).map Candidate.index).Nodup :=
    List.pairwise_map.mpr (eligible_pairwise_index.imp Nat.ne_of_lt)
  have considered : ((candidates fixes threshold).map Candidate.index).Nodup :=
    (candidates_perm.map _).nodup_iff.mpr places
  have accepted := (decided.accepted_sublist.map Candidate.index).nodup considered
  exact (appliedCandidates_perm.map _).nodup_iff.mpr accepted

/-- A listed place is that of an eligible fix. -/
theorem exists_of_mem_applied {place : Nat}
    (member : place ∈ (Patch.apply lines fixes threshold).applied) :
    ∃ fix, fixes[place]? = some fix ∧ fix.isEligible threshold = true := by
  obtain ⟨candidate, applied, rfl⟩ := List.mem_map.mp member
  exact ⟨candidate.fix, mem_eligible.mp (appliedCandidates_eligible applied)⟩

/-- Distinct places below a bound are as many as the numbers below it that are among them. -/
theorem countP_range'_contains {places : List Nat} (nodup : places.Nodup) {count : Nat}
    (below : ∀ place ∈ places, place < count) :
    (List.range' 0 count).countP (fun place => places.contains place) = places.length := by
  rw [List.countP_eq_length_filter]
  refine List.Perm.length_eq ?_
  refine (List.perm_ext_iff_of_nodup ?_ nodup).mpr fun place => ?_
  · exact List.filter_sublist.nodup List.nodup_range'
  · simp only [List.mem_filter, List.mem_range'_1, List.contains_iff_mem]
    constructor
    · rintro ⟨-, member⟩
      exact member
    · intro member
      have small := below place member
      exact ⟨⟨by omega, by omega⟩, member⟩

/-- Marking unmarked fixes marks as many as there are listed places among theirs. -/
theorem countP_applied_markApplied (unapplied : ∀ fix ∈ fixes, fix.applied = false)
    (places : List Nat) :
    (Patch.markApplied fixes places).countP Fix.applied =
      (List.range' 0 fixes.length).countP fun place => places.contains place := by
  rw [Patch.markApplied, List.countP_map, ← List.zipIdx_map_snd 0 fixes, List.countP_map]
  refine List.countP_congr fun entry member => ?_
  have fresh := unapplied entry.1 (List.fst_mem_of_mem_zipIdx member)
  by_cases listed : entry.2 ∈ places <;> simp [listed, fresh]

/-- **The marked fixes are as many as the applied ones.** -/
theorem countP_applied_apply (unapplied : ∀ fix ∈ fixes, fix.applied = false) :
    (Patch.apply lines fixes threshold).fixes.countP Fix.applied =
      (Patch.apply lines fixes threshold).appliedCount := by
  have below : ∀ place ∈ (Patch.apply lines fixes threshold).applied, place < fixes.length := by
    intro place member
    obtain ⟨fix, found, -⟩ := exists_of_mem_applied member
    exact (List.getElem?_eq_some_iff.mp found).1
  calc (Patch.apply lines fixes threshold).fixes.countP Fix.applied
      = (List.range' 0 fixes.length).countP
          fun place => (Patch.apply lines fixes threshold).applied.contains place :=
        countP_applied_markApplied unapplied _
    _ = (Patch.apply lines fixes threshold).appliedCount :=
        countP_range'_contains nodup_applied below

/-- A marked fix is eligible. -/
theorem isEligible_of_applied (unapplied : ∀ fix ∈ fixes, fix.applied = false) {fix : Fix}
    (member : fix ∈ (Patch.apply lines fixes threshold).fixes) (applied : fix.applied = true) :
    fix.isEligible threshold = true := by
  obtain ⟨place, found⟩ := List.mem_iff_getElem?.mp member
  have marked : (Patch.apply lines fixes threshold).fixes[place]? = _ :=
    getElem?_markApplied fixes (Patch.apply lines fixes threshold).applied place
  rw [found] at marked
  obtain ⟨original, here, rfl⟩ := Option.map_eq_some_iff.mp marked.symm
  have fresh := unapplied original (List.mem_of_getElem? here)
  simp only [fresh, Bool.false_or, List.contains_iff_mem] at applied
  obtain ⟨chosen, there, sure⟩ := exists_of_mem_applied applied
  rw [here] at there
  cases there
  exact sure

/-! ## Generators -/

/-- The fixes that the registry gives are not marked as applied. -/
def Registry.ProposesUnapplied (registry : Registry) : Prop :=
  ∀ issue lines fix, registry.generate issue lines = .ok fix → fix.applied = false

/-- A fix for an issue is what one of the generators that claim it proposed, with that generator's
id. -/
theorem Registry.exists_of_generate {registry : Registry} {issue : Issue} {lines : List String}
    {fix : Fix} (made : registry.generate issue lines = .ok fix) :
    ∃ generator ∈ registry.generators, generator.claims issue lines = true ∧ ∃ proposed,
      generator.generate issue lines = .proposed proposed ∧
        fix = proposed.fromGenerator generator.id := by
  unfold Registry.generate at made
  split at made
  · cases made
  · next generator found =>
    have member : generator ∈ registry.generators := List.mem_of_find?_eq_some found
    have claims := (Bool.and_eq_true _ _ ▸ List.find?_some found : _ ∧ _).2
    split at made
    · next proposed asked =>
      cases made
      exact ⟨generator, member, claims, proposed, asked, rfl⟩
    · cases made
    · cases made

theorem Registry.mem_fixes_generateAll {registry : Registry} {issues : List Issue}
    {lines : List String} {fix : Fix} (member : fix ∈ (registry.generateAll issues lines).fixes) :
    ∃ issue ∈ issues, registry.generate issue lines = .ok fix := by
  simp only [Registry.generateAll, List.mem_filterMap, List.mem_map] at member
  obtain ⟨attempt, ⟨issue, asked, rfl⟩, given⟩ := member
  refine ⟨issue, asked, ?_⟩
  cases outcome : registry.generate issue lines with
  | error failure => simp [outcome, Except.toOption] at given
  | ok made =>
      rw [outcome] at given
      exact congrArg Except.ok (Option.some.inj given)

theorem Registry.ProposesUnapplied.generateAll {registry : Registry}
    (fresh : registry.ProposesUnapplied) (issues : List Issue) (lines : List String) :
    ∀ fix ∈ (registry.generateAll issues lines).fixes, fix.applied = false := by
  intro fix member
  obtain ⟨issue, -, made⟩ := Registry.mem_fixes_generateAll member
  exact fresh issue lines fix made

/-! ## The built-in generators -/

section Folds

variable {α β γ : Type} (step : α → β → α) (items : List β) (state : α)

/-- What every step keeps is kept in the end. -/
theorem project_foldl_of_kept (project : α → γ)
    (kept : ∀ state item, project (step state item) = project state) :
    project (items.foldl step state) = project state := by
  induction items generalizing state with
  | nil => rfl
  | cons item rest ih => rw [List.foldl_cons, ih, kept]

/-- If every step adds its item behind the others, all of them stand there in the end. -/
theorem project_foldl_of_appended (project : α → List β)
    (appended : ∀ state item, project (step state item) = project state ++ [item]) :
    project (items.foldl step state) = project state ++ items := by
  induction items generalizing state with
  | nil => exact (List.append_nil _).symm
  | cons item rest ih => rw [List.foldl_cons, ih, appended, List.append_assoc, List.singleton_append]

/-- If every step adds its item in front of the others, all of them stand there in the end. -/
theorem project_foldl_of_prepended (project : α → List β)
    (prepended : ∀ state item, project (step state item) = item :: project state) :
    project (items.foldl step state) = items.reverse ++ project state := by
  induction items generalizing state with
  | nil => rfl
  | cons item rest ih => rw [List.foldl_cons, ih, prepended, List.reverse_cons, List.append_cons]

end Folds

theorem Registry.generators_standard (config : Config.Fixer) (validator : Config.Validator) :
    (Registry.standard config validator).generators = builtin config validator := by
  rw [Registry.standard, project_foldl_of_kept Registry.disable _ _ Registry.generators fun _ _ => rfl,
    project_foldl_of_appended Registry.register _ _ Registry.generators fun _ _ => rfl]
  rfl

/-- What an attempt from an optional fix proposes. -/
theorem Attempt.ofOption_eq_proposed {option : Option Fix} {fix : Fix} :
    Attempt.ofOption option = .proposed fix ↔ option = some fix := by
  cases option <;> simp [Attempt.ofOption]

theorem applied_of_orphanFix? {config : Config.Fixer} {issue : Issue} {lines : List String}
    {header : String} {fix : Fix} (made : orphanFix? config issue lines header = some fix) :
    fix.applied = false := by
  unfold orphanFix? at made
  split at made
  · cases made
  · obtain ⟨_, -, rfl⟩ := Option.map_eq_some_iff.mp made
    rfl
  · dsimp only at made
    split at made
    · cases made
      rfl
    · cases made
      rfl

theorem applied_of_realignFix? {config : Config.Fixer} {window : Nat} {issue : Issue}
    {lines : List String} {fix : Fix} (made : realignFix? config window issue lines = some fix) :
    fix.applied = false := by
  unfold realignFix? at made
  dsimp only at made
  split at made
  · obtain ⟨_, -, made⟩ := Option.bind_eq_some_iff.mp made
    obtain ⟨_, -, made⟩ := Option.bind_eq_some_iff.mp made
    cases made
    rfl
  · cases made

theorem applied_of_fieldInitFix? {config : Config.Fixer} {statements : List String}
    {issue : Issue} {lines : List String} {fix : Fix}
    (made : fieldInitFix? config statements issue lines = some fix) : fix.applied = false := by
  obtain ⟨_, -, made⟩ := Option.bind_eq_some_iff.mp made
  dsimp only at made
  split at made
  · cases made
  · cases made
    rfl

theorem applied_of_guardFix? {config : Config.Fixer} {field : String} {issue : Issue}
    {lines : List String} {fix : Fix} (made : guardFix? config field issue lines = some fix) :
    fix.applied = false := by
  obtain ⟨_, -, made⟩ := Option.bind_eq_some_iff.mp made
  cases made
  rfl

theorem applied_of_undefinedNameFix? {config : Config.Fixer} {issue : Issue}
    {lines : List String} {fix : Fix} (made : undefinedNameFix? config issue lines = some fix) :
    fix.applied = false := by
  obtain ⟨_, -, made⟩ := Option.bind_eq_some_iff.mp made
  cases made
  rfl

/-- No built-in generator marks its fixes as applied. -/
theorem applied_of_builtin {config : Config.Fixer} {validator : Config.Validator}
    {generator : Generator} (member : generator ∈ builtin config validator) {issue : Issue}
    {lines : List String} {fix : Fix}
    (made : generator.generate issue lines = .proposed fix) : fix.applied = false := by
  simp only [builtin, List.mem_cons, List.not_mem_nil, or_false] at member
  rcases member with rfl | rfl | rfl | rfl | rfl | rfl
  · simp only [callbackRelocation] at made
    split at made
    · cases made
      rfl
    · cases made
  · obtain ⟨_, -, made⟩ := Option.bind_eq_some_iff.mp (Attempt.ofOption_eq_proposed.mp made)
    exact applied_of_orphanFix? made
  · exact applied_of_realignFix? (Attempt.ofOption_eq_proposed.mp made)
  · exact applied_of_fieldInitFix? (Attempt.ofOption_eq_proposed.mp made)
  · exact applied_of_guardFix? (Attempt.ofOption_eq_proposed.mp made)
  · exact applied_of_undefinedNameFix? (Attempt.ofOption_eq_proposed.mp made)

/-- **The built-in generators leave the mark of application to patches**, whatever is switched off. -/
theorem Registry.proposesUnapplied_standard (config : Config.Fixer)
    (validator : Config.Validator) : (Registry.standard config validator).ProposesUnapplied := by
  intro issue lines fix made
  obtain ⟨generator, member, -, proposed, asked, rfl⟩ := Registry.exists_of_generate made
  rw [Registry.generators_standard] at member
  show proposed.applied = false
  exact applied_of_builtin member asked

end StrategyMend.Repair
