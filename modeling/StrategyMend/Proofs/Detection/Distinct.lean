import StrategyMend.Proofs.Detection.Undefined
import StrategyMend.Proofs.Pipeline.SoundBranches
import StrategyMend.Proofs.Strategy.Collection
import StrategyMend.Proofs.Strategy.Inheritance

/-!
# Issues that are reported once

Issues of different detectors have different categories (`reporter_of_mem_detect`). Those of one detector
stand on different lines or name different things: a branch is told by its line, an undefined name is
reported once for each row, and a class and its methods begin on rows of their own. So an issue comes
twice only if one class is checked twice. That happens to classes under decorators, which are collected
twice, and a method is looked for twice if the initializer and the step hook have one name. In all other
cases the issues of a script that parses are different from each other (`nodup_validate_iff`).
-/

set_option autoImplicit false

namespace StrategyMend.Detection

open Source Strategy Python

variable {context : Context} {issue : Issue} {text : List Char}

/-- The id of the built-in detector whose issues have a category. -/
def reporter : Category → String
  | .orphanedBranch => "orphaned-branch"
  | .methodBoundaryConfusion => "orphaned-branch"
  | .indentationMismatch => "indentation-mismatch"
  | .missingRequiredMethod => "required-method"
  | .missingFieldInit => "field-init"
  | .missingGuardCheck => "guard-check"
  | .undefinedVariable => "variable-reference"
  | .syntaxError => ""
  | .custom _ => ""

/-! ## Branches -/

theorem branches_pairwise (lines : List String) (window : Nat) :
    (branches lines window).Pairwise fun branch later => branch.index < later.index := by
  refine List.pairwise_filterMap.mpr (List.pairwise_lt_range.imp ?_)
  intro index later lt branch found branch' found'
  obtain ⟨_, -, -, -, rfl, -⟩ := exists_of_branchAt_eq found
  obtain ⟨_, -, -, -, rfl, -⟩ := exists_of_branchAt_eq found'
  exact lt

theorem index_lt_of_mem_branches {lines : List String} {window : Nat} {branch : Branch}
    (member : branch ∈ branches lines window) : branch.index < lines.length := by
  obtain ⟨index, listed, found⟩ := List.mem_filterMap.mp member
  obtain ⟨_, -, -, -, rfl, -⟩ := exists_of_branchAt_eq found
  exact List.mem_range.mp listed

theorem of_orphanIssue? {branch : Branch} (reported : orphanIssue? context branch = some issue) :
    issue.line = branch.index + 1 ∧ reporter issue.category = "orphaned-branch" := by
  unfold orphanIssue? at reported
  dsimp only at reported
  split at reported
  · cases reported
    exact ⟨rfl, rfl⟩
  · cases reported
    exact ⟨rfl, rfl⟩
  · cases reported

theorem of_mismatchIssue? {branch : Branch}
    (reported : mismatchIssue? context branch = some issue) :
    issue.line = branch.index + 1 ∧ reporter issue.category = "indentation-mismatch" := by
  unfold mismatchIssue? at reported
  split at reported
  · cases reported
    exact ⟨rfl, rfl⟩
  · cases reported

/-- Issues that stand on the lines of different branches are different. -/
theorem nodup_of_branches {report : Branch → Option Issue}
    (stands : ∀ branch issue, report branch = some issue → issue.line = branch.index + 1) :
    ((scriptBranches context).filterMap report).Nodup := by
  refine List.pairwise_filterMap.mpr ((branches_pairwise _ _).imp ?_)
  intro branch later lt issue reported issue' reported' same
  have here := stands branch issue reported
  have there := stands later issue' reported'
  rw [same, there] at here
  omega

/-! ## Undefined names -/

theorem quoted_injective : Function.Injective quoted := fun _ _ same =>
  (String.append_right_inj _).mp ((String.append_left_inj _).mp same)

theorem nodup_variableReference : ((variableReference.detect context).getD []).Nodup := by
  simp only [variableReference, Option.getD_some]
  split
  · rename_i tree _
    refine List.pairwise_map.mpr ?_
    have pairwise : (undefinedReads context.config.allowedNames (walkModule tree.statements)).Pairwise
        fun read later => (read.name, read.row) ≠ (later.name, later.row) := by
      unfold undefinedReads
      split
      · exact .nil
      · exact firstReads_pairwise _ _
    refine pairwise.imp fun {read later} differs same => differs ?_
    have row : read.row = later.row := Nat.succ.inj (congrArg Issue.line same)
    have name : read.name = later.name :=
      quoted_injective ((String.append_left_inj _).mp (congrArg Issue.message same))
    rw [row, name]
  · exact .nil

/-! ## Strategy classes -/

/-- A detector checks one strategy class after the other. What it reports about a class stands on the
rows of the class, and it reports something if the class has the defect. -/
structure ChecksClasses (context : Context) (detector : Detector) (index : ClassIndex)
    (check : ClassInfo → List Issue) (defect : ClassInfo → Prop) : Prop where
  detects : (detector.detect context).getD [] = index.strategies.flatMap check
  stands : ∀ info, ∀ issue ∈ check info, ∃ row ∈ info.rows, issue.line = row + 1
  eq_nil_iff : ∀ info, check info = [] ↔ ¬defect info

section Classes

variable {detector : Detector} {index : ClassIndex} {statements : List Statement}
  {check : ClassInfo → List Issue} {defect : ClassInfo → Prop}

/-- The strategies among the classes that are defined, and once more those under decorators. -/
theorem strategies_perm_defined (collected : index.classes = classesIn statements) :
    index.strategies.Perm ((definedClasses statements).filter index.inherits ++
      (decoratedClasses statements).filter index.inherits) := by
  rw [ClassIndex.strategies_eq_filter, collected, ← List.filter_append]
  exact (classesIn_perm statements).filter _

theorem inherits_of_mem_strategies {info : ClassInfo} (strategy : info ∈ index.strategies) :
    index.inherits info = true := by
  rw [ClassIndex.strategies_eq_filter] at strategy
  exact (List.mem_filter.mp strategy).2

/-- **The issues of strategy classes are different from each other** if those of each class are, unless
a class under decorators has the defect. -/
theorem ChecksClasses.nodup_iff (checks : ChecksClasses context detector index check defect)
    (collected : index.classes = classesIn statements) (placed : Placed text statements) :
    ((detector.detect context).getD []).Nodup ↔
      (∀ info ∈ index.strategies, (check info).Nodup) ∧
        ∀ info ∈ decoratedClasses statements, info ∈ index.strategies → ¬defect info := by
  have perm := strategies_perm_defined collected
  rw [checks.detects]
  constructor
  · intro nodup
    refine ⟨(List.nodup_flatMap.mp nodup).1, fun info decorated strategy => ?_⟩
    rw [(perm.flatMap_right check).nodup_iff, List.flatMap_append] at nodup
    refine (checks.eq_nil_iff info).mp (List.eq_nil_iff_forall_not_mem.mpr fun issue reported => ?_)
    have heir := inherits_of_mem_strategies strategy
    have again := List.mem_filter.mpr ⟨decorated, heir⟩
    have once := List.mem_filter.mpr ⟨decoratedClasses_subset statements decorated, heir⟩
    exact (List.nodup_append.mp nodup).2.2 issue (List.mem_flatMap.mpr ⟨info, once, reported⟩) issue
      (List.mem_flatMap.mpr ⟨info, again, reported⟩) rfl
  · rintro ⟨each, quiet⟩
    have nothing : ((decoratedClasses statements).filter index.inherits).flatMap check = [] := by
      refine List.flatMap_eq_nil_iff.mpr fun info member => (checks.eq_nil_iff info).mpr ?_
      exact quiet info (List.mem_filter.mp member).1
        (perm.mem_iff.mpr (List.mem_append_right _ member))
    rw [(perm.flatMap_right check).nodup_iff, List.flatMap_append, nothing, List.append_nil]
    refine List.nodup_flatMap.mpr ⟨fun info member => ?_, ?_⟩
    · exact each info (perm.mem_iff.mpr (List.mem_append_left _ member))
    -- Two classes have no row in common, so no issue stands on rows of both.
    · have rows := (List.nodup_flatMap.mp (nodup_rows_definedClasses placed)).2
      refine (rows.sublist List.filter_sublist).imp fun {info other} disjoint issue here there => ?_
      obtain ⟨row, begins, stands⟩ := checks.stands info issue here
      obtain ⟨row', begins', stands'⟩ := checks.stands other issue there
      obtain rfl : row = row' := Nat.succ.inj (stands.symm.trans stands')
      exact disjoint begins begins'

theorem ChecksClasses.isRow (checks : ChecksClasses context detector index check defect)
    (collected : index.classes = classesIn statements) (placed : Placed text statements)
    (member : issue ∈ (detector.detect context).getD []) :
    ∃ row, IsRow text row ∧ issue.line = row + 1 := by
  rw [checks.detects] at member
  obtain ⟨info, strategy, reported⟩ := List.mem_flatMap.mp member
  obtain ⟨row, begins, stands⟩ := checks.stands info issue reported
  have defined : info ∈ definedClasses statements := by
    rcases List.mem_append.mp ((strategies_perm_defined collected).mem_iff.mp strategy) with once | again
    · exact (List.mem_filter.mp once).1
    · exact decoratedClasses_subset statements (List.mem_filter.mp again).1
  exact ⟨row, isRow_of_mem_rows placed defined begins, stands⟩

/-- A check with at most one issue for each class. -/
theorem ChecksClasses.of_single
    (detects : (detector.detect context).getD [] = index.strategies.flatMap check)
    (single : ∀ info, check info = [] ∧ ¬defect info ∨
      defect info ∧ ∃ issue, check info = [issue] ∧ ∃ row ∈ info.rows, issue.line = row + 1) :
    ChecksClasses context detector index check defect ∧ ∀ info, (check info).Nodup := by
  refine ⟨⟨detects, fun info issue member => ?_, fun info => ?_⟩, fun info => ?_⟩
  · rcases single info with ⟨nothing, -⟩ | ⟨-, only, reported, stands⟩
    · rw [nothing] at member
      cases member
    · rw [reported] at member
      obtain rfl := List.mem_singleton.mp member
      exact stands
  · rcases single info with ⟨nothing, sound⟩ | ⟨here, only, reported, -⟩
    · exact iff_of_true nothing sound
    · exact iff_of_false (by simp [reported]) (not_not_intro here)
  · rcases single info with ⟨nothing, -⟩ | ⟨-, only, reported, -⟩
    · rw [nothing]
      exact .nil
    · rw [reported]
      exact List.nodup_singleton only

end Classes

/-! ## Defects of strategy classes -/

/-- A class neither has nor inherits the initializer or the step hook. -/
def MissesMethod (config : Config.Validator) (index : ClassIndex) (info : ClassInfo) : Prop :=
  index.resolveMethod? info config.initializer = none ∨ index.resolveMethod? info config.stepHook = none

/-- The initializer of a class does not set the field, nor does one of an ancestor when it is called. -/
def LeavesUnset (config : Config.Validator) (index : ClassIndex) (info : ClassInfo) : Prop :=
  ∃ method, info.ownMethod? config.initializer = some method ∧
    assignedIn config.pendingOrderField method.body = false ∧
      inheritsField config index info method = false

/-- The step hook of a class does not check the field first. -/
def IsUnguarded (config : Config.Validator) (info : ClassInfo) : Prop :=
  ∃ hook, info.ownMethod? config.stepHook = some hook ∧
    isGuarded config.pendingOrderField hook.body = false

section Defects

variable {index : ClassIndex}

theorem strategyIssues_of_built (built : classIndex? context = some index)
    (check : ClassIndex → ClassInfo → List Issue) :
    strategyIssues context check = index.strategies.flatMap (check index) := by
  rw [strategyIssues, built]

theorem mem_rows_of_ownMethod? {info : ClassInfo} {name : String} {method : FunctionInfo}
    (own : info.ownMethod? name = some method) : method.row ∈ info.rows :=
  List.mem_cons_of_mem _ (List.mem_map_of_mem (List.mem_of_find?_eq_some own))

theorem missingMethodIssue_injective (context : Context) (info : ClassInfo) :
    Function.Injective (missingMethodIssue context info) := fun _ _ same =>
  quoted_injective ((String.append_right_inj _).mp (congrArg Issue.message same))

/-- A class is reported once for each method that it misses, if the two methods have different names. -/
theorem exists_check_requiredMethod (built : classIndex? context = some index) :
    ∃ check, ChecksClasses context requiredMethod index check (MissesMethod context.config index) ∧
      ∀ info, (check info).Nodup ↔ (context.config.initializer = context.config.stepHook →
        (index.resolveMethod? info context.config.initializer).isSome = true) := by
  refine ⟨_, ⟨strategyIssues_of_built built _, fun info issue member => ?_, fun info => ?_⟩,
    fun info => ?_⟩
  · obtain ⟨method, -, rfl⟩ := List.mem_map.mp member
    exact ⟨info.row, List.mem_cons_self, rfl⟩
  · simp [MissesMethod, List.filter_eq_nil_iff]
  · rw [List.nodup_map_iff (missingMethodIssue_injective context info)]
    constructor
    · intro nodup same
      by_contra missing
      rw [← same] at nodup
      simp [Option.not_isSome_iff_eq_none.mp missing] at nodup
    · intro found
      by_cases same : context.config.initializer = context.config.stepHook
      · rw [← same]
        simp [Option.isSome_iff_ne_none.mp (found same)]
      · exact (List.nodup_cons.mpr ⟨by simpa using same, List.nodup_singleton _⟩).filter _

theorem exists_check_fieldInit (built : classIndex? context = some index) :
    ∃ check, ChecksClasses context Detection.fieldInit index check
      (LeavesUnset context.config index) ∧ ∀ info, (check info).Nodup := by
  refine ⟨_, ChecksClasses.of_single (strategyIssues_of_built built _) fun info => ?_⟩
  dsimp only
  split
  · rename_i none
    exact .inl ⟨rfl, by simp [LeavesUnset, none]⟩
  rename_i method own
  split
  · rename_i assigned
    exact .inl ⟨rfl, by simp [LeavesUnset, own, assigned]⟩
  split
  · rename_i inherits
    exact .inl ⟨rfl, by simp [LeavesUnset, own, inherits]⟩
  · rename_i unassigned alone
    refine .inr ⟨⟨method, own, ?_, ?_⟩, _, rfl, method.row, mem_rows_of_ownMethod? own, rfl⟩
    · simpa using unassigned
    · simpa using alone

theorem exists_check_guardCheck (built : classIndex? context = some index) :
    ∃ check, ChecksClasses context Detection.guardCheck index check (IsUnguarded context.config) ∧
      ∀ info, (check info).Nodup := by
  refine ⟨_, ChecksClasses.of_single (strategyIssues_of_built built _) fun info => ?_⟩
  dsimp only
  split
  · rename_i none
    exact .inl ⟨rfl, by simp [IsUnguarded, none]⟩
  rename_i hook own
  split
  · rename_i guarded
    exact .inl ⟨rfl, by simp [IsUnguarded, own, guarded]⟩
  · rename_i unguarded
    refine .inr ⟨⟨hook, own, ?_⟩, _, rfl, hook.row, mem_rows_of_ownMethod? own, rfl⟩
    simpa using unguarded

end Defects

/-! ## Detectors -/

theorem reporter_of_mem_detect {detector : Detector} (listed : detector ∈ builtin)
    (member : issue ∈ (detector.detect context).getD []) :
    reporter issue.category = detector.id := by
  simp only [builtin, List.mem_cons, List.not_mem_nil, or_false] at listed
  rcases listed with rfl | rfl | rfl | rfl | rfl | rfl
  · obtain ⟨branch, -, reported⟩ := List.mem_filterMap.mp member
    exact (of_orphanIssue? reported).2
  · obtain ⟨branch, -, reported⟩ := List.mem_filterMap.mp member
    exact (of_mismatchIssue? reported).2
  · rw [category_of_requiredMethod member]
    rfl
  · rw [category_of_fieldInit member]
    rfl
  · rw [category_of_guardCheck member]
    rfl
  · rw [category_of_variableReference member]
    rfl

/-- No issue is found by two detectors. -/
theorem detectors_pairwise_disjoint (context : Context) :
    builtin.Pairwise fun detector other =>
      List.Disjoint ((detector.detect context).getD []) ((other.detect context).getD []) := by
  have ids : builtin.Pairwise fun detector other => detector.id ≠ other.id := by
    simp [builtin, orphanedBranch, indentationMismatch, requiredMethod, Detection.fieldInit,
      Detection.guardCheck, variableReference]
  refine ids.imp_of_mem fun listed listed' differs issue here there => differs ?_
  rw [← reporter_of_mem_detect listed here, ← reporter_of_mem_detect listed' there]

/-! ## Scripts -/

section Scripts

variable {config : Config.Validator} {name source : String} {tree : Module}

theorem read_of_parse (parsed : Source.parse source = .ok tree) : Module.read source = .ok tree := by
  unfold Source.parse at parsed
  cases read : Module.read source with
  | error bad =>
    rw [read] at parsed
    cases parsed
  | ok found =>
    rw [read] at parsed
    cases parsed
    rfl

/-- An issue on a line of the script stays there. -/
theorem clampIssue_of_isRow {script : Script} {row : Nat} (isRow : IsRow script.text.toList row)
    (stands : issue.line = row + 1) : clampIssue script issue = issue := by
  have inside : row < script.lineCount := by
    rw [Script.lineCount, Script.lines, Text.splitLines, List.length_map]
    exact isRow
  have same : clampLine script.lineCount issue.line = issue.line := by
    rw [clampLine, stands]
    omega
  rw [clampIssue, same]

theorem classIndex?_of_parse (config : Config.Validator) (name : String)
    (parsed : Source.parse source = .ok tree) :
    classIndex? ⟨.ofText name source, config⟩ =
      some (.ofStatements config.strategyBases tree.statements) := by
  rw [classIndex?, tree?_of_parse parsed]
  rfl

theorem isRow_of_mem_branches {branch : Branch}
    (member : branch ∈ scriptBranches ⟨.ofText name source, config⟩) :
    IsRow source.toList branch.index := by
  have inside := index_lt_of_mem_branches member
  rwa [Script.lines, Script.ofText, Text.splitLines, List.length_map] at inside

theorem isRow_of_mem_undefinedReads (placed : Placed text tree.statements) {allowed : List String}
    {read : NameRead} (member : read ∈ undefinedReads allowed (walkModule tree.statements)) :
    IsRow text read.row := by
  unfold undefinedReads at member
  split at member
  · cases member
  · have found := (firstReads_sublist _ _).subset member
    exact placed.names _ _ read (List.mem_filter.mp found).1

/-- The built-in detectors find issues on lines of the script. -/
theorem isRow_of_mem_detect (parsed : Source.parse source = .ok tree) {detector : Detector}
    (listed : detector ∈ builtin)
    (member : issue ∈ (detector.detect ⟨.ofText name source, config⟩).getD []) :
    ∃ row, IsRow source.toList row ∧ issue.line = row + 1 := by
  have placed := Module.placed_of_read (read_of_parse parsed)
  have built := classIndex?_of_parse config name parsed
  simp only [builtin, List.mem_cons, List.not_mem_nil, or_false] at listed
  rcases listed with rfl | rfl | rfl | rfl | rfl | rfl
  · obtain ⟨branch, found, reported⟩ := List.mem_filterMap.mp member
    exact ⟨branch.index, isRow_of_mem_branches found, (of_orphanIssue? reported).1⟩
  · obtain ⟨branch, found, reported⟩ := List.mem_filterMap.mp member
    exact ⟨branch.index, isRow_of_mem_branches found, (of_mismatchIssue? reported).1⟩
  · obtain ⟨check, checks, -⟩ := exists_check_requiredMethod built
    exact checks.isRow rfl placed member
  · obtain ⟨check, checks, -⟩ := exists_check_fieldInit built
    exact checks.isRow rfl placed member
  · obtain ⟨check, checks, -⟩ := exists_check_guardCheck built
    exact checks.isRow rfl placed member
  · simp only [variableReference, tree?_of_parse parsed, Option.getD_some] at member
    obtain ⟨read, found, rfl⟩ := List.mem_map.mp member
    exact ⟨read.row, isRow_of_mem_undefinedReads placed found, rfl⟩

/-- The detectors that are switched on find the issues of a script that parses, one after the other. -/
theorem validate_eq_flatMap (parsed : Source.parse source = .ok tree) :
    (Validator.standard config).validate (.ofText name source) =
      (builtin.filter fun detector => !config.disabledDetectors.contains detector.id).flatMap
        fun detector => (detector.detect ⟨.ofText name source, config⟩).getD [] := by
  have valid : (Script.ofText name source).diagnostic? = none := by
    rw [Script.diagnostic?, Script.ofText, parsed]
  have chosen (detector : Detector) :
      ((Registry.standard config).isEnabled detector && true &&
        detector.appliesTo ⟨.ofText name source, config⟩) =
          !config.disabledDetectors.contains detector.id := by
    have applies : detector.appliesTo ⟨.ofText name source, config⟩ = true := by
      unfold Detector.appliesTo
      split
      · rw [tree?_of_parse parsed]
        rfl
      · rfl
    rw [applies, Registry.isEnabled, Registry.disabled_standard]
    simp
  rw [Validator.validate, valid]
  show List.map _ ((Registry.standard config).runAll ⟨.ofText name source, config⟩) = _
  rw [Registry.runAll, Registry.runFiltered, Registry.detectors_standard]
  simp only [chosen]
  refine (List.map_congr_left fun issue member => ?_).trans (List.map_id _)
  obtain ⟨detector, found, reported⟩ := List.mem_flatMap.mp member
  obtain ⟨row, isRow, stands⟩ := isRow_of_mem_detect parsed (List.mem_filter.mp found).1 reported
  exact clampIssue_of_isRow isRow stands

theorem nodup_validate_iff_detectors (parsed : Source.parse source = .ok tree) :
    ((Validator.standard config).validate (.ofText name source)).Nodup ↔
      ∀ detector ∈ builtin, detector.id ∉ config.disabledDetectors →
        ((detector.detect ⟨.ofText name source, config⟩).getD []).Nodup := by
  rw [validate_eq_flatMap parsed, List.nodup_flatMap]
  constructor
  · intro nodup detector listed enabled
    exact nodup.1 detector (List.mem_filter.mpr ⟨listed, by simpa using enabled⟩)
  · intro nodup
    refine ⟨fun detector member => ?_, ?_⟩
    · obtain ⟨listed, enabled⟩ := List.mem_filter.mp member
      exact nodup detector listed (by simpa using enabled)
    · exact (detectors_pairwise_disjoint _).sublist List.filter_sublist

/-- A detector that is switched on reports the class. -/
inductive IsReported (config : Config.Validator) (index : ClassIndex) (info : ClassInfo) : Prop where
  | method (enabled : "required-method" ∉ config.disabledDetectors)
      (misses : MissesMethod config index info)
  | field (enabled : "field-init" ∉ config.disabledDetectors) (unset : LeavesUnset config index info)
  | guard (enabled : "guard-check" ∉ config.disabledDetectors) (unguarded : IsUnguarded config info)

/-- **An issue comes twice only with classes under decorators, or if one method is looked for twice.**
The issues of a script that parses are different from each other if and only if no strategy class under
decorators has a defect that is looked for, and the initializer and the step hook have different names
or no strategy class misses the method. -/
theorem nodup_validate_iff (parsed : Source.parse source = .ok tree) :
    ((Validator.standard config).validate (.ofText name source)).Nodup ↔
      let index := ClassIndex.ofStatements config.strategyBases tree.statements
      (∀ info ∈ decoratedClasses tree.statements, info ∈ index.strategies →
        ¬IsReported config index info) ∧
      (config.initializer = config.stepHook → "required-method" ∉ config.disabledDetectors →
        ∀ info ∈ index.strategies, (index.resolveMethod? info config.initializer).isSome) := by
  have placed := Module.placed_of_read (read_of_parse parsed)
  have built := classIndex?_of_parse config name parsed
  obtain ⟨methods, misses, methodsNodup⟩ := exists_check_requiredMethod built
  obtain ⟨fields, unset, fieldsNodup⟩ := exists_check_fieldInit built
  obtain ⟨guards, unguarded, guardsNodup⟩ := exists_check_guardCheck built
  have methodsIff := misses.nodup_iff rfl placed
  have fieldsIff := unset.nodup_iff rfl placed
  have guardsIff := unguarded.nodup_iff rfl placed
  rw [nodup_validate_iff_detectors parsed]
  constructor
  · intro nodup
    refine ⟨fun info decorated strategy reported => ?_, fun same enabled info strategy => ?_⟩
    · cases reported with
      | method enabled defect =>
        have once := nodup requiredMethod (by simp [builtin]) enabled
        exact (methodsIff.mp once).2 info decorated strategy defect
      | field enabled defect =>
        have once := nodup Detection.fieldInit (by simp [builtin]) enabled
        exact (fieldsIff.mp once).2 info decorated strategy defect
      | guard enabled defect =>
        have once := nodup Detection.guardCheck (by simp [builtin]) enabled
        exact (guardsIff.mp once).2 info decorated strategy defect
    · have once := nodup requiredMethod (by simp [builtin]) enabled
      exact (methodsNodup info).mp ((methodsIff.mp once).1 info strategy) same
  · rintro ⟨quiet, found⟩ detector listed enabled
    simp only [builtin, List.mem_cons, List.not_mem_nil, or_false] at listed
    rcases listed with rfl | rfl | rfl | rfl | rfl | rfl
    · exact nodup_of_branches fun _ _ reported => (of_orphanIssue? reported).1
    · exact nodup_of_branches fun _ _ reported => (of_mismatchIssue? reported).1
    · refine methodsIff.mpr ⟨fun info strategy => (methodsNodup info).mpr fun same => ?_, ?_⟩
      · exact found same enabled info strategy
      · exact fun info decorated strategy defect =>
          quiet info decorated strategy (.method enabled defect)
    · exact fieldsIff.mpr ⟨fun info _ => fieldsNodup info, fun info decorated strategy defect =>
        quiet info decorated strategy (.field enabled defect)⟩
    · exact guardsIff.mpr ⟨fun info _ => guardsNodup info, fun info decorated strategy defect =>
        quiet info decorated strategy (.guard enabled defect)⟩
    · exact nodup_variableReference

end Scripts

/-- A decorated class that has everything, and a class that has nothing. -/
def decoratedBase : String := "@note
class Calm(Strategy):
  def __init__(self): self.order = 0
  def next(self):
    if self.order: 0
class Rash(Strategy): 0
"

theorem nodup_validate_iff_decoratedBase :
    ∃ tree, Source.parse decoratedBase = .ok tree ∧ decoratedClasses tree.statements ≠ [] ∧
      ((Validator.standard .standard).validate (.ofText "calm.py" decoratedBase)).Nodup := by
  let config : Config.Validator := .standard
  have shown : (Source.parse decoratedBase).toOption.any fun tree =>
      let index := ClassIndex.ofStatements config.strategyBases tree.statements
      !(decoratedClasses tree.statements).isEmpty && (decoratedClasses tree.statements).all fun info =>
        (index.resolveMethod? info config.initializer).isSome &&
          (index.resolveMethod? info config.stepHook).isSome &&
            (info.ownMethod? config.initializer).all (assignedIn config.pendingOrderField ·.body) &&
              (info.ownMethod? config.stepHook).all (isGuarded config.pendingOrderField ·.body) := by
    decide +kernel
  obtain ⟨tree, read, shown⟩ := (Option.any_eq_true _ _).mp shown
  have parsed : Source.parse decoratedBase = .ok tree := by
    generalize Source.parse decoratedBase = parsed at read
    cases parsed with
    | error diagnostic => cases read
    | ok found =>
      cases read
      rfl
  obtain ⟨decorates, complete⟩ := Bool.and_eq_true_iff.mp shown
  refine ⟨tree, parsed, by simpa using decorates, (nodup_validate_iff parsed).mpr
    ⟨fun info decorated _ reported => ?_, fun same => absurd same (by decide)⟩⟩
  have here := List.all_eq_true.mp complete info decorated
  simp only [Bool.and_eq_true, Option.isSome_iff_ne_none, Option.all_eq_true] at here
  obtain ⟨⟨⟨initializer, stepHook⟩, sets⟩, guarded⟩ := here
  cases reported with
  | method _ misses => exact misses.elim initializer stepHook
  | field _ unset =>
    obtain ⟨method, own, unassigned, -⟩ := unset
    rw [sets method own] at unassigned
    cases unassigned
  | guard _ unguarded =>
    obtain ⟨hook, own, unguarded⟩ := unguarded
    rw [guarded hook own] at unguarded
    cases unguarded

/-- A decorated class without methods. -/
def decoratedShell : String := "@bt.register
class S(bt.Strategy):
    pass
"

theorem decoratedShell_reportedTwice :
    (Script.ofText "s.py" decoratedShell).isValid = true ∧
      ¬((Validator.standard .standard).validate (.ofText "s.py" decoratedShell)).Nodup := by
  decide +kernel

end StrategyMend.Detection
