import StrategyMend.Proofs.Number.Order
import StrategyMend.Proofs.Repair.Bounds
import StrategyMend.Proofs.Repair.Marks

/-!
# What is proposed for issues

The built-in generators draft edits of lines that are there (`drafted_of_builtin`). With the confidences
of a valid configuration such a draft is well judged (`Drafted.wellFormed`): its confidence lies between
zero and one, and it is automatic only from the floor on.

For issues on lines that are there, each issue has one outcome: a well-formed fix from the generator that
the issue goes to, or a failure that says why there is none. No patch of these fixes skips one because
its lines are not there (`generateAll_outcomes`).
-/

set_option autoImplicit false

namespace StrategyMend.Repair

open Number Source Text

/-! ## Valid configurations -/

/-- A run of checks passes only if each of them does. -/
theorem forall_of_forM_eq_ok {α ε : Type} {check : α → Except ε Unit} {elements : List α}
    (passed : elements.forM check = .ok ()) : ∀ element ∈ elements, check element = .ok () := by
  induction elements with
  | nil => simp
  | cons first rest ih =>
    change (check first >>= fun _ => rest.forM check) = .ok () at passed
    cases one : check first with
    | error fault =>
      rw [one] at passed
      cases passed
    | ok =>
      rw [one] at passed
      intro element member
      rcases List.mem_cons.mp member with rfl | later
      · exact one
      · exact ih passed element later

theorem inUnit_of_checkUnit {field : String} {value : Binary64}
    (passed : Config.checkUnit field value = .ok ()) : Config.inUnit value = true := by
  unfold Config.checkUnit Config.check at passed
  split at passed
  · next fine => exact fine
  · cases passed

/-- The confidences of a valid configuration lie between zero and one, and so does the floor. -/
theorem inUnit_of_validate {config : Config} (valid : config.validate = .ok ()) :
    ∀ entry ∈ config.fixer.confidences, Config.inUnit entry.2 = true := by
  unfold Config.validate at valid
  cases threshold : Config.checkUnit "pipeline.confidence_threshold"
      config.pipeline.confidenceThreshold with
  | error fault =>
    rw [threshold] at valid
    cases valid
  | ok =>
    rw [threshold] at valid
    generalize fixes : config.fixer.confidences.forM (_ : _ → Except _ Unit) = outcome at valid
    cases outcome with
    | error fault => cases valid
    | ok =>
      intro entry member
      exact inUnit_of_checkUnit (forall_of_forM_eq_ok fixes entry member)

theorem inUnit_iff {value : Binary64} :
    Config.inUnit value = true ↔
      Binary64.zero.le value = true ∧ value.le Binary64.one = true := by
  rw [Config.inUnit, Bool.and_eq_true]

/-! ## Targets -/

/-- The edit is about lines that are there: it puts new lines in front of one of them or behind the last,
or it takes away exactly the lines from its first to its last one. -/
inductive Target (lines : List String) (fix : Fix) : Prop where
  | insertion (insert : fix.isInsert = true) (first : 1 ≤ fix.line)
      (upTo : fix.line ≤ lines.length + 1) (only : fix.endLine = fix.line)
  | edit (first : 1 ≤ fix.line) (ordered : fix.line ≤ fix.endLine)
      (upTo : fix.endLine ≤ lines.length)
      (removed : fix.removed = unlines (span lines (fix.line - 1) (fix.endLine - 1)))

theorem Target.inRange {lines : List String} {fix : Fix} (target : Target lines fix) :
    fix.inRange lines.length = true := by
  cases target with
  | insertion insert first upTo only =>
    rw [Fix.inRange, insert]
    simp [first, upTo]
  | edit first ordered upTo removed =>
    rw [Fix.inRange]
    split
    · simp only [Bool.and_eq_true, decide_eq_true_eq]
      omega
    · simp [first, ordered, upTo]

/-- The target of an edit is in its lines and its fragments, not in what is said about it. -/
theorem Target.of_same {lines : List String} {fix other : Fix} (target : Target lines fix)
    (line : other.line = fix.line) (endLine : other.endLine = fix.endLine)
    (removed : other.removed = fix.removed) (replacement : other.replacement = fix.replacement) :
    Target lines other := by
  have kind : other.isInsert = fix.isInsert := by
    rw [Fix.isInsert, Fix.isInsert, Fix.editKind, Fix.editKind, removed, replacement]
  cases target with
  | insertion insert first upTo only =>
    exact .insertion (kind.trans insert) (by omega) (by omega) (by omega)
  | edit first ordered upTo taken =>
    exact .edit (by omega) (by omega) (by omega) (by rw [removed, line, endLine, taken])

/-! ## Drafts -/

/-- An edit for an issue before it is judged. -/
structure Sketch (issue : Issue) (lines : List String) (fix : Fix) : Prop where
  issue : fix.issue = issue
  unapplied : fix.applied = false
  target : Target lines fix

/-- An edit for an issue, judged by one of the configured confidences. -/
inductive Drafted (config : Config.Fixer) (issue : Issue) (lines : List String) : Fix → Prop where
  | judged {fix : Fix} (entry : String × Binary64) (kind : FixKind) (explanation : String)
      (sketch : Sketch issue lines fix) (listed : entry ∈ config.confidences) :
      Drafted config issue lines
        ((fix.classified kind entry.2 config.autoFloor).explained explanation)

section Sketches

variable {issue : Issue} {lines : List String}

/-- An edit of the lines from that of the issue to another one. -/
theorem sketch_edit {last endLine : Nat} {removed : String} (replacement : String)
    (place : issue.line = issue.lineIndex + 1) (after : issue.lineIndex ≤ last)
    (upTo : last < lines.length) (reach : endLine = last + 1)
    (taken : removed = unlines (span lines issue.lineIndex last)) :
    Sketch issue lines (.ofFragments issue issue.line endLine removed replacement) := by
  refine ⟨rfl, rfl, .edit ?_ ?_ ?_ ?_⟩
  · show 1 ≤ issue.line
    omega
  · show issue.line ≤ endLine
    omega
  · show endLine ≤ lines.length
    omega
  · show removed = unlines (span lines (issue.line - 1) (endLine - 1))
    rw [taken, reach, Nat.add_sub_cancel]
    rfl

/-- New lines in front of a line or behind the last one. -/
theorem sketch_insert {before : Nat} (newLines : List String) (upTo : before ≤ lines.length) :
    Sketch issue lines (.insert issue (before + 1) newLines) :=
  ⟨rfl, rfl, .insertion rfl (Nat.succ_pos before) (Nat.succ_le_succ upTo) rfl⟩

theorem span_singleton {index : Nat} {line : String} (here : lines[index]? = some line) :
    span lines index index = [line] := by
  rw [span_eq_cons here (Nat.le_refl index), span, Nat.sub_self, List.take_zero]

theorem unlines_span_singleton {index : Nat} {line : String} (here : lines[index]? = some line) :
    line = unlines (span lines index index) := by
  rw [span_singleton here]
  simp [unlines, joinChars]

/-- A hint is about the line that it repeats. -/
theorem sketch_suggestion {line : String} (place : issue.line = issue.lineIndex + 1)
    (here : lines[issue.lineIndex]? = some line) :
    Sketch issue lines (.suggestion issue issue.line line) :=
  sketch_edit line place (Nat.le_refl _) (List.getElem?_eq_some_iff.mp here).1 place
    (unlines_span_singleton here)

end Sketches

section Generators

variable {config : Config.Fixer} {validator : Config.Validator} {issue : Issue}
  {lines : List String} {fix : Fix}

theorem drafted_of_callbackRelocation (place : issue.line = issue.lineIndex + 1)
    (made : (callbackRelocation config).generate issue lines = .proposed fix) :
    Drafted config issue lines fix := by
  simp only [callbackRelocation] at made
  split at made
  · next inside =>
    obtain ⟨after, upTo, -⟩ := blockEnd_spec inside
    cases made
    exact .judged ("callback_relocation_confidence", _) _ _
      (sketch_edit _ place after upTo rfl rfl) (by simp [Config.Fixer.confidences])
  · cases made

theorem drafted_of_orphanFix? {header : String} (place : issue.line = issue.lineIndex + 1)
    (here : lines[issue.lineIndex]? = some header)
    (made : orphanFix? config issue lines header = some fix) : Drafted config issue lines fix := by
  have inside := (List.getElem?_eq_some_iff.mp here).1
  unfold orphanFix? at made
  split at made
  · cases made
  · obtain ⟨standalone, -, rfl⟩ := Option.map_eq_some_iff.mp made
    exact .judged ("elif_to_if_confidence", _) _ _
      (sketch_edit _ place (Nat.le_refl _) inside place rfl) (by simp [Config.Fixer.confidences])
  · dsimp only at made
    split at made
    · obtain ⟨after, upTo, -⟩ := blockEnd_spec inside
      cases made
      exact .judged ("delete_trivial_else_confidence", _) _ _
        (sketch_edit _ place after upTo rfl rfl) (by simp [Config.Fixer.confidences])
    · cases made
      exact .judged ("nontrivial_else_confidence", _) _ _
        (sketch_suggestion place here) (by simp [Config.Fixer.confidences])

theorem drafted_of_realignFix? {window : Nat} (place : issue.line = issue.lineIndex + 1)
    (made : realignFix? config window issue lines = some fix) : Drafted config issue lines fix := by
  unfold realignFix? at made
  dsimp only at made
  split at made
  · obtain ⟨header, -, made⟩ := Option.bind_eq_some_iff.mp made
    obtain ⟨line, here, made⟩ := Option.bind_eq_some_iff.mp made
    cases made
    exact .judged ("indentation_realign_confidence", _) _ _
      (sketch_edit _ place (Nat.le_refl _) (List.getElem?_eq_some_iff.mp here).1 place rfl)
      (by simp [Config.Fixer.confidences])
  · cases made

theorem drafted_of_fieldInitFix? {statements : List String}
    (made : fieldInitFix? config statements issue lines = some fix) :
    Drafted config issue lines fix := by
  obtain ⟨top, found, made⟩ := Option.bind_eq_some_iff.mp made
  dsimp only at made
  split at made
  · cases made
  · cases made
    exact .judged ("field_init_confidence", _) _ _
      (sketch_insert _ (lt_of_bodyTop? found).2.2) (by simp [Config.Fixer.confidences])

theorem drafted_of_guardFix? {field : String}
    (made : guardFix? config field issue lines = some fix) : Drafted config issue lines fix := by
  obtain ⟨top, found, made⟩ := Option.bind_eq_some_iff.mp made
  cases made
  exact .judged ("guard_insert_confidence", _) _ _
    (sketch_insert _ (lt_of_bodyTop? found).2.2) (by simp [Config.Fixer.confidences])

theorem drafted_of_undefinedNameFix? (place : issue.line = issue.lineIndex + 1)
    (made : undefinedNameFix? config issue lines = some fix) : Drafted config issue lines fix := by
  obtain ⟨line, here, made⟩ := Option.bind_eq_some_iff.mp made
  cases made
  exact .judged ("undefined_variable_confidence", _) _ _
    (sketch_suggestion place here) (by simp [Config.Fixer.confidences])

/-- **The built-in generators draft edits of lines that are there.** -/
theorem drafted_of_builtin {generator : Generator} (member : generator ∈ builtin config validator)
    (place : issue.line = issue.lineIndex + 1)
    (made : generator.generate issue lines = .proposed fix) : Drafted config issue lines fix := by
  simp only [builtin, List.mem_cons, List.not_mem_nil, or_false] at member
  rcases member with rfl | rfl | rfl | rfl | rfl | rfl
  · exact drafted_of_callbackRelocation place made
  · obtain ⟨header, here, made⟩ :=
      Option.bind_eq_some_iff.mp (Attempt.ofOption_eq_proposed.mp made)
    exact drafted_of_orphanFix? place here made
  · exact drafted_of_realignFix? place (Attempt.ofOption_eq_proposed.mp made)
  · exact drafted_of_fieldInitFix? (Attempt.ofOption_eq_proposed.mp made)
  · exact drafted_of_guardFix? (Attempt.ofOption_eq_proposed.mp made)
  · exact drafted_of_undefinedNameFix? place (Attempt.ofOption_eq_proposed.mp made)

/-- No built-in generator breaks down. -/
theorem ne_brokeDown_of_builtin {generator : Generator}
    (member : generator ∈ builtin config validator) :
    generator.generate issue lines ≠ .brokeDown := by
  have ofOption (option : Option Fix) : Attempt.ofOption option ≠ .brokeDown := by
    cases option <;> simp [Attempt.ofOption]
  simp only [builtin, List.mem_cons, List.not_mem_nil, or_false] at member
  rcases member with rfl | rfl | rfl | rfl | rfl | rfl
  · simp only [callbackRelocation]
    split <;> simp
  all_goals exact ofOption _

end Generators

/-! ## The generator that an issue goes to -/

/-- The generator is the first built-in one that is switched on and claims the issue. -/
def IsClaimant (config : Config) (lines : List String) (issue : Issue) (generator : Generator) :
    Prop :=
  ∃ before after, builtin config.fixer config.validator = before ++ generator :: after ∧
    generator.id ∉ config.fixer.disabledGenerators ∧ generator.claims issue lines = true ∧
      ∀ other ∈ before, other.id ∈ config.fixer.disabledGenerators ∨
        other.claims issue lines = false

theorem IsClaimant.mem {config : Config} {lines : List String} {issue : Issue}
    {generator : Generator} (claimant : IsClaimant config lines issue generator) :
    generator ∈ builtin config.fixer config.validator := by
  obtain ⟨before, after, split, -⟩ := claimant
  rw [split]
  exact List.mem_append_right _ List.mem_cons_self

namespace Registry

/-- A generator is switched on unless the configuration names it. -/
theorem isEnabled_standard {config : Config.Fixer} {validator : Config.Validator}
    {generator : Generator} :
    (Registry.standard config validator).isEnabled generator = true ↔
      generator.id ∉ config.disabledGenerators := by
  rw [Registry.isEnabled, Registry.standard,
    project_foldl_of_prepended Registry.disable _ _ Registry.disabled fun _ _ => rfl,
    project_foldl_of_kept Registry.register _ _ Registry.disabled fun _ _ => rfl]
  simp [Registry.empty]

variable {config : Config} {lines : List String} {issue : Issue}

/-- An issue goes to the first generator that is switched on and claims it. -/
theorem claimant?_standard_eq_some_iff {generator : Generator} :
    (Registry.standard config.fixer config.validator).claimant? issue lines = some generator ↔
      IsClaimant config lines issue generator := by
  have passed (other : Generator) :
      (!((Registry.standard config.fixer config.validator).isEnabled other &&
          other.claims issue lines)) = true ↔
        other.id ∈ config.fixer.disabledGenerators ∨ other.claims issue lines = false := by
    rw [Bool.not_eq_true', Bool.and_eq_false_iff, ← Bool.not_eq_true, isEnabled_standard,
      not_not]
  rw [Registry.claimant?, Registry.generators_standard, List.find?_eq_some_iff_append, IsClaimant]
  simp only [Bool.and_eq_true, isEnabled_standard, passed]
  constructor
  · rintro ⟨⟨enabled, claims⟩, before, after, split, others⟩
    exact ⟨before, after, split, enabled, claims, others⟩
  · rintro ⟨before, after, split, enabled, claims, others⟩
    exact ⟨⟨enabled, claims⟩, before, after, split, others⟩

end Registry

/-! ## Outcomes -/

/-- What every proposed fix satisfies. -/
structure WellFormed (config : Config) (lines : List String) (issue : Issue) (fix : Fix) :
    Prop where
  issue : fix.issue = issue
  unapplied : fix.applied = false
  confidence : Config.inUnit fix.confidence = true
  /-- A fix needs no review only if it is as sure as the floor asks. -/
  sure : fix.kind = .auto → config.fixer.autoFloor.le fix.confidence = true
  target : Target lines fix
  /-- The numbers of the lines fit into a report. -/
  fits : fix.line ≤ Issue.maxLine ∧ fix.endLine ≤ Issue.maxLine

/-- What comes of one issue. -/
inductive Outcome (config : Config) (lines : List String) (issue : Issue) :
    Except Failure Fix → Prop where
  | fixed {generator : Generator} {fix : Fix} (claimant : IsClaimant config lines issue generator)
      (wellFormed : WellFormed config lines issue fix) (by_ : fix.generator = generator.id) :
      Outcome config lines issue (.ok fix)
  | declined {generator : Generator} (claimant : IsClaimant config lines issue generator)
      (declines : generator.generate issue lines = .declined) :
      Outcome config lines issue (.error ⟨issue, some generator.id, "no fix available"⟩)
  | unclaimed (unclaimed : ∀ generator, ¬IsClaimant config lines issue generator) :
      Outcome config lines issue
        (.error ⟨issue, none, "no generator handles \x60" ++ issue.category.name ++ "\x60"⟩)

/-- The failure, if there is no fix. -/
def failureOf? : Except Failure Fix → Option Failure
  | .error failure => some failure
  | .ok _ => none

section Outcomes

variable {config : Config} {lines : List String} {issue : Issue} {fix : Fix}

/-- **A draft is well judged** under a valid configuration. -/
theorem Drafted.wellFormed (valid : config.validate = .ok ())
    (few : lines.length < Issue.maxLine) (drafted : Drafted config.fixer issue lines fix) :
    WellFormed config lines issue fix := by
  obtain ⟨entry, kind, explanation, sketch, listed⟩ := drafted
  next base =>
  have unit := inUnit_of_validate valid entry listed
  have floor := inUnit_of_validate valid ("auto_floor", config.fixer.autoFloor)
    (by simp [Config.Fixer.confidences])
  obtain ⟨lower, upper⟩ := inUnit_iff.mp unit
  have same : entry.2.clampUnit = entry.2 := Binary64.clampUnit_of_le lower upper
  refine ⟨sketch.issue, sketch.unapplied, ?_, ?_, ?_, ?_⟩
  · show Config.inUnit entry.2.clampUnit = true
    rwa [same]
  · intro auto
    show config.fixer.autoFloor.le entry.2.clampUnit = true
    have defined := (Binary64.isDefined_of_le lower).2
    have defined' := (Binary64.isDefined_of_le (inUnit_iff.mp floor).1).2
    rw [same, ← Binary64.lt_eq_false_iff defined defined']
    have kept : (if kind = .auto && entry.2.clampUnit.lt config.fixer.autoFloor then
        FixKind.semiAuto else kind) = .auto := auto
    rw [same] at kept
    cases below : entry.2.lt config.fixer.autoFloor with
    | false => rfl
    | true => cases kind <;> simp [below] at kept
  · exact sketch.target.of_same rfl rfl rfl rfl
  · show base.line ≤ Issue.maxLine ∧ base.endLine ≤ Issue.maxLine
    cases sketch.target with
    | insertion insert first upTo only => omega
    | edit first ordered upTo removed => omega

/-- **Each issue has one outcome.** -/
theorem outcome_generate (valid : config.validate = .ok ()) (few : lines.length < Issue.maxLine)
    (place : issue.line = issue.lineIndex + 1) :
    Outcome config lines issue
      ((Registry.standard config.fixer config.validator).generate issue lines) := by
  unfold Registry.generate
  cases found : (Registry.standard config.fixer config.validator).claimant? issue lines with
  | none =>
    refine .unclaimed fun generator claimant => ?_
    rw [Registry.claimant?_standard_eq_some_iff.mpr claimant] at found
    cases found
  | some generator =>
    have claimant := Registry.claimant?_standard_eq_some_iff.mp found
    dsimp only
    cases attempt : generator.generate issue lines with
    | proposed proposed =>
      have drafted := drafted_of_builtin claimant.mem place attempt
      have well := drafted.wellFormed valid few
      exact .fixed claimant { well with target := well.target.of_same rfl rfl rfl rfl } rfl
    | declined => exact .declined claimant attempt
    | brokeDown => exact (ne_brokeDown_of_builtin claimant.mem attempt).elim

end Outcomes

/-! ## Patches of what is proposed -/

/-- If the skipped fixes lie within the lines, none is skipped for its lines. -/
theorem reason_ne_outOfRange {count : Nat} {accepted skipped : List Candidate}
    {conflicts : List Conflict}
    (justified : List.Forall₂ (Justified count accepted) skipped conflicts)
    (inside : ∀ candidate ∈ skipped, candidate.fix.inRange count = true) :
    ∀ conflict ∈ conflicts, conflict.reason ≠ .outOfRange := by
  induction justified with
  | nil => simp
  | cons one others ih =>
    intro conflict member
    rcases List.mem_cons.mp member with rfl | later
    · rw [ne_eq, one.outOfRange_iff, inside _ List.mem_cons_self]
      simp
    · exact ih (fun candidate listed => inside candidate (List.mem_cons_of_mem _ listed)) conflict
        later

/-- No fix is skipped for its lines if all fixes lie within the lines. -/
theorem apply_of_inRange {lines : List String} {fixes : List Fix}
    (inside : ∀ fix ∈ fixes, fix.inRange lines.length = true) (threshold : Binary64) :
    ∀ conflict ∈ (Patch.apply lines fixes threshold).conflicts,
      conflict.reason ≠ .outOfRange := by
  obtain ⟨skipped, decided⟩ := exists_decided_candidates lines fixes threshold
  refine reason_ne_outOfRange decided.justified fun candidate member => ?_
  have listed := (mem_eligible.mp (mem_candidates.mp (decided.skipped_sublist.subset member))).1
  exact inside candidate.fix (List.mem_of_getElem? listed)

/-- **Every issue on a line that is there gets a well-formed fix or a reason why there is none.** The
generators look only at lines that are there, the fixes and failures are the outcomes of the issues in
their order, and no patch of the fixes skips one for its lines. -/
theorem generateAll_outcomes (config : Config) (lines : List String) (issues : List Issue)
    (valid : config.validate = .ok ()) (few : lines.length < Issue.maxLine)
    (inside : ∀ issue ∈ issues, 1 ≤ issue.line ∧ issue.line ≤ lines.length) :
    let proposals := (Registry.standard config.fixer config.validator).generateAll issues lines
    List.Forall₂ StrictGenerator.Follows (StrictGenerator.builtin config.fixer config.validator)
        (builtin config.fixer config.validator) ∧
      (∃ outcomes, List.Forall₂ (Outcome config lines) issues outcomes ∧
        proposals.fixes = outcomes.filterMap Except.toOption ∧
          proposals.failures = outcomes.filterMap failureOf?) ∧
        ∀ threshold, ∀ conflict ∈ (Patch.apply lines proposals.fixes threshold).conflicts,
          conflict.reason ≠ .outOfRange := by
  intro proposals
  have outcome : ∀ issue ∈ issues, Outcome config lines issue
      ((Registry.standard config.fixer config.validator).generate issue lines) := by
    intro issue member
    have positive := (inside issue member).1
    refine outcome_generate valid few ?_
    show issue.line = issue.line - 1 + 1
    omega
  refine ⟨StrictGenerator.follows_builtin config.fixer config.validator, ⟨_, ?_, rfl, ?_⟩, ?_⟩
  · exact List.forall₂_map_right_iff.mpr (List.forall₂_same.mpr outcome)
  · exact List.filterMap_congr fun attempt _ => by cases attempt <;> rfl
  · refine apply_of_inRange fun fix member => ?_
    obtain ⟨issue, asked, made⟩ := Registry.mem_fixes_generateAll member
    have result := outcome issue asked
    rw [made] at result
    cases result with
    | fixed claimant wellFormed by_ => exact wellFormed.target.inRange

/-- An issue without details. -/
def bareIssue (category : Category) (line : Nat) : Issue := ⟨.high, category, line, "", none, none⟩

/-- A detached `else` reported twice, on a line that is no function header, and an issue of a category
that no generator knows. The two fixes for the `else` clash. -/
theorem generateAll_outcomes_detachedElse :
    let lines := ["a = 1", "else:", "    pass"]
    let issues := [bareIssue .orphanedBranch 2, bareIssue .missingFieldInit 1,
      bareIssue (.custom "t") 3, bareIssue .methodBoundaryConfusion 2]
    let proposals := (Registry.standard Config.standard.fixer Config.standard.validator).generateAll
      issues lines
    let patch := Patch.apply lines proposals.fixes (Config.hundredths 80)
    Config.standard.validate = .ok () ∧ lines.length < Issue.maxLine ∧
      (∀ issue ∈ issues, 1 ≤ issue.line ∧ issue.line ≤ lines.length) ∧
        proposals.fixes.map (fun fix => (fix.line, fix.endLine, fix.generator)) =
          [(2, 3, "orphaned-branch"), (2, 3, "orphaned-branch")] ∧
        proposals.failures.map Failure.generator = [some "field-init", none] ∧
        patch.lines = ["a = 1"] ∧ patch.conflicts.length = 1 ∧
          ∀ conflict ∈ patch.conflicts, conflict.reason ≠ .outOfRange := by
  intro lines issues proposals patch
  have valid : Config.standard.validate = .ok () := by
    have fine : Config.standard.validate.isOk = true := by decide +kernel
    cases checked : Config.standard.validate with
    | ok => rfl
    | error invalid =>
      rw [checked] at fine
      cases fine
  have few : lines.length < Issue.maxLine := by decide
  have inside : ∀ issue ∈ issues, 1 ≤ issue.line ∧ issue.line ≤ lines.length := by decide
  have main := generateAll_outcomes Config.standard lines issues valid few inside
  have unsorted : patch = _ := apply_of_pairwise (by decide +kernel) (by decide +kernel)
  refine ⟨valid, few, inside, by decide +kernel, by decide +kernel, ?_, ?_,
    main.2.2 (Config.hundredths 80)⟩
  · rw [unsorted]
    decide +kernel
  · rw [unsorted]
    decide +kernel

end StrategyMend.Repair
