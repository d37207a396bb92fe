import StrategyMend.Detection.Validator
import StrategyMend.Proofs.Pipeline.Stages
import StrategyMend.Proofs.Repair.Marks
import StrategyMend.Proofs.Source.Attached
import StrategyMend.Proofs.Source.Layout

/-!
# Sound branches stay

One detector reports branches without an opener, and only where the search for openers fails
(`isBranchDefect_of_hasOpener`). Only two generators make fixes for such issues (`generator_of_generate`).
So the branches of a legible text that parses are left alone where each of them is attached to its clause
(`processUnit_of_attached`). None of the conditions for that can be left out
(`reportsOrphan_without_conditions`): the search ends with its window, and it knows nothing of what the
grammar does over line breaks, with odd margins, and in strings and comments.
-/

set_option autoImplicit false

namespace StrategyMend

open Detection Repair Source

/-- The generators of fixes for branches without an opener. -/
def branchGenerators : List String := ["callback-relocation", "orphaned-branch"]

/-! ## Issues -/

namespace Detection

theorem Registry.detectors_standard (config : Config.Validator) :
    (Registry.standard config).detectors = builtin := by
  rw [Registry.standard, project_foldl_of_kept Registry.disable _ _ Registry.detectors fun _ _ => rfl,
    project_foldl_of_appended Registry.register _ _ Registry.detectors fun _ _ => rfl]
  rfl

theorem Registry.disabled_standard (config : Config.Validator) :
    (Registry.standard config).disabled = config.disabledDetectors.reverse := by
  rw [Registry.standard, project_foldl_of_prepended Registry.disable _ _ Registry.disabled fun _ _ => rfl,
    project_foldl_of_kept Registry.register _ _ Registry.disabled fun _ _ => rfl]
  exact List.append_nil _

variable {context : Context} {issue : Issue}

theorem category_of_mem_strategyIssues {check : Strategy.ClassIndex → Strategy.ClassInfo → List Issue}
    {category : Category}
    (checks : ∀ index info, ∀ issue ∈ check index info, issue.category = category)
    (member : issue ∈ strategyIssues context check) : issue.category = category := by
  unfold strategyIssues at member
  split at member
  · obtain ⟨info, -, found⟩ := List.mem_flatMap.mp member
    exact checks _ info issue found
  · cases member

theorem category_of_requiredMethod (member : issue ∈ (requiredMethod.detect context).getD []) :
    issue.category = .missingRequiredMethod := by
  refine category_of_mem_strategyIssues (fun index info issue found => ?_) member
  obtain ⟨method, -, rfl⟩ := List.mem_map.mp found
  rfl

theorem category_of_fieldInit (member : issue ∈ (Detection.fieldInit.detect context).getD []) :
    issue.category = .missingFieldInit := by
  refine category_of_mem_strategyIssues (fun index info issue found => ?_) member
  dsimp only at found
  split at found
  · cases found
  · split at found
    · cases found
    · split at found
      · cases found
      · obtain rfl := List.mem_singleton.mp found
        rfl

theorem category_of_guardCheck (member : issue ∈ (Detection.guardCheck.detect context).getD []) :
    issue.category = .missingGuardCheck := by
  refine category_of_mem_strategyIssues (fun index info issue found => ?_) member
  dsimp only at found
  split at found
  · cases found
  · split at found
    · cases found
    · obtain rfl := List.mem_singleton.mp found
      rfl

theorem category_of_variableReference
    (member : issue ∈ (variableReference.detect context).getD []) :
    issue.category = .undefinedVariable := by
  simp only [variableReference, Option.getD_some] at member
  split at member
  · obtain ⟨read, -, rfl⟩ := List.mem_map.mp member
    rfl
  · cases member

theorem isBranchDefect_of_orphanedBranch (member : issue ∈ (orphanedBranch.detect context).getD []) :
    issue.category.isBranchDefect = true := by
  obtain ⟨branch, -, reported⟩ := List.mem_filterMap.mp member
  unfold orphanIssue? at reported
  dsimp only at reported
  split at reported
  · cases reported
    rfl
  · cases reported
    rfl
  · cases reported

theorem category_of_indentationMismatch
    (member : issue ∈ (Detection.indentationMismatch.detect context).getD []) :
    issue.category = .indentationMismatch := by
  obtain ⟨branch, -, reported⟩ := List.mem_filterMap.mp member
  unfold mismatchIssue? at reported
  split at reported
  · cases reported
    rfl
  · cases reported

/-- Where all branches have openers, no built-in detector reports one without. -/
theorem isBranchDefect_of_hasOpener (opened : ∀ branch ∈ scriptBranches context, branch.found.HasOpener)
    {detector : Detector} (listed : detector ∈ builtin)
    (member : issue ∈ (detector.detect context).getD []) : issue.category.isBranchDefect = false := by
  simp only [builtin, List.mem_cons, List.not_mem_nil, or_false] at listed
  rcases listed with rfl | rfl | rfl | rfl | rfl | rfl
  · obtain ⟨branch, found, reported⟩ := List.mem_filterMap.mp member
    obtain ⟨opener, aligned | ⟨width, misaligned⟩⟩ := opened branch found
    · simp [orphanIssue?, aligned] at reported
    · simp [orphanIssue?, misaligned] at reported
  · rw [category_of_indentationMismatch member]
    rfl
  · rw [category_of_requiredMethod member]
    rfl
  · rw [category_of_fieldInit member]
    rfl
  · rw [category_of_guardCheck member]
    rfl
  · rw [category_of_variableReference member]
    rfl

/-- The issues of a script that parses are those of the built-in detectors. -/
theorem exists_detector_of_mem_validate {config : Config.Validator} {script : Script}
    {module : Python.Module} (parsed : script.parsed = .ok module)
    (member : issue ∈ (Validator.standard config).validate script) :
    ∃ detector ∈ builtin, ∃ found ∈ (detector.detect ⟨script, config⟩).getD [],
      issue = clampIssue script found := by
  simp only [Validator.validate, Script.diagnostic?, parsed] at member
  obtain ⟨found, run, rfl⟩ := List.mem_map.mp member
  obtain ⟨detector, chosen, detected⟩ := List.mem_flatMap.mp run
  have listed := (List.mem_filter.mp chosen).1
  rw [Validator.standard, Registry.detectors_standard] at listed
  exact ⟨detector, listed, found, detected, rfl⟩

/-- So a script that parses has no issues with branches. -/
theorem isBranchDefect_of_mem_validate {config : Config.Validator} {script : Script}
    {module : Python.Module} (parsed : script.parsed = .ok module)
    (opened : ∀ branch ∈ scriptBranches ⟨script, config⟩, branch.found.HasOpener)
    (member : issue ∈ (Validator.standard config).validate script) :
    issue.category.isBranchDefect = false := by
  obtain ⟨detector, listed, found, detected, rfl⟩ := exists_detector_of_mem_validate parsed member
  show found.category.isBranchDefect = false
  exact isBranchDefect_of_hasOpener opened listed detected

end Detection

/-! ## Fixes -/

namespace Repair

/-- The generators of fixes for branches without an opener claim no other issues. -/
theorem generator_of_generate {config : Config.Fixer} {validator : Config.Validator} {issue : Issue}
    {lines : List String} {fix : Fix} (other : issue.category.isBranchDefect = false)
    (made : (Registry.standard config validator).generate issue lines = .ok fix) :
    fix.generator ∉ branchGenerators := by
  obtain ⟨generator, listed, claims, proposed, -, rfl⟩ := Registry.exists_of_generate made
  rw [Registry.generators_standard] at listed
  simp only [builtin, List.mem_cons, List.not_mem_nil, or_false] at listed
  rcases listed with rfl | rfl | rfl | rfl | rfl | rfl
  · simp [callbackRelocation, other] at claims
  · simp [Repair.orphanedBranch, Generator.claimingAll, other] at claims
  · show "indentation-realign" ∉ branchGenerators
    decide
  · show "field-init" ∉ branchGenerators
    decide
  · show "guard-check" ∉ branchGenerators
    decide
  · show "undefined-variable" ∉ branchGenerators
    decide

end Repair

namespace Pipeline

section Passes

variable {pipeline : Pipeline} {issues : List Issue} {script : Script} {ledger : Ledger}
  {property : Fix → Prop}

/-- What holds of a fix whether or not it was applied, and of all proposals, holds of all fixes that a
pass enters. -/
theorem fixPass_forall (markless : ∀ fix applied, property fix → property { fix with applied })
    (proposed : ∀ fix ∈ (pipeline.generators.generateAll issues script.lines).fixes, property fix)
    (before : ∀ fix ∈ ledger.fixes, property fix) :
    ∀ fix ∈ (pipeline.fixPass issues script ledger).2.fixes, property fix := by
  have patched : ∀ fix ∈ (pipeline.passPatch issues script).fixes, property fix := by
    intro fix member
    obtain ⟨⟨original, place⟩, listed, rfl⟩ := List.mem_map.mp member
    have holds := proposed original (List.fst_mem_of_mem_zipIdx listed)
    dsimp only
    split
    · exact markless original true holds
    · exact holds
  intro fix member
  rcases pipeline.fixPass_cases issues script ledger with
    ⟨-, -, result⟩ | ⟨-, -, result⟩ | ⟨-, result⟩
  · rw [result] at member
    exact (List.mem_append.mp member).elim (before fix) (patched fix)
  · rw [result] at member
    exact (List.mem_append.mp member).elim (before fix) (patched fix)
  · rw [result] at member
    exact (List.mem_append.mp member).elim (before fix) (proposed fix)

theorem checkedPass_forall (markless : ∀ fix applied, property fix → property { fix with applied })
    (proposed : ∀ fix ∈ (pipeline.generators.generateAll issues script.lines).fixes, property fix)
    (before : ∀ fix ∈ ledger.fixes, property fix) :
    ∀ fix ∈ (pipeline.checkedPass issues script ledger).2.fixes, property fix := by
  have entered := fixPass_forall markless proposed before
  rcases pipeline.checkedPass_cases issues script ledger with
    ⟨text, after, made, -, result⟩ | ⟨text, after, made, -, result⟩ | ⟨after, made, result⟩
  · rw [result]
    rwa [made] at entered
  · rw [made] at entered
    rw [result]
    intro fix member
    rcases List.mem_append.mp member with kept | revoked
    · exact entered fix (List.mem_of_mem_take kept)
    · obtain ⟨original, listed, rfl⟩ := List.mem_map.mp revoked
      exact markless original false (entered original (List.mem_of_mem_drop listed))
  · rw [result]
    rwa [made] at entered

theorem repair_forall (markless : ∀ fix applied, property fix → property { fix with applied })
    (proposed : ∀ fix ∈ (pipeline.generators.generateAll issues script.lines).fixes, property fix)
    (before : ∀ fix ∈ ledger.fixes, property fix) :
    ∀ fix ∈ (pipeline.repair issues script ledger).ledger.fixes, property fix := by
  have checked := checkedPass_forall markless proposed before
  rcases pipeline.repair_cases issues script ledger with
    ⟨-, result⟩ | ⟨patched, after, -, made, result⟩ | ⟨after, -, made, result⟩
  · rwa [result]
  · rw [result]
    rwa [made] at checked
  · rw [result]
    rwa [made] at checked

end Passes

/-- The fixes for a unit that parses are those of its repair. -/
theorem processUnit_fixes_of_isValid {pipeline : Pipeline} {name text : String}
    (valid : (pipeline.script name text).isValid = true) :
    (pipeline.processUnit name text).fixSummary.fixes =
      (pipeline.repair (pipeline.validator.validate (pipeline.script name text))
        (pipeline.script name text) .empty).ledger.fixes := by
  rcases pipeline.openScript_cases name text with
    ⟨-, opened⟩ | ⟨broken, -⟩ | ⟨broken, -⟩ | ⟨broken, -⟩
  · rw [processUnit, opened]
    rfl
  all_goals
    rw [broken] at valid
    cases valid

/-- **The branches of a legible text that parses are left alone where each is attached to its clause.** -/
theorem processUnit_of_attached (config : Config) (name : String) {text : String}
    {module : Python.Module} (parsed : Source.parse text = .ok module) (legible : IsLegible text.toList)
    (attached : Attached config.validator.branchScanWindow text module) :
    (∀ issue ∈ (Validator.standard config.validator).validate (.ofText name text),
        issue.category.isBranchDefect = false) ∧
      ∀ fix ∈ ((Pipeline.standard config).processUnit name text).fixSummary.fixes,
        fix.generator ∉ branchGenerators := by
  have read : Python.Module.read text = .ok module := by
    rw [Source.parse] at parsed
    cases given : Python.Module.read text with
    | error bad =>
      rw [given] at parsed
      cases parsed
    | ok found =>
      rw [given] at parsed
      cases parsed
      rfl
  have tree : (Script.ofText name text).parsed = .ok module := parsed
  have opened : ∀ branch ∈ scriptBranches ⟨.ofText name text, config.validator⟩,
      branch.found.HasOpener := by
    intro branch found
    rw [scriptBranches] at found
    exact hasOpener_of_attached read legible attached found
  have sound : ∀ issue ∈ (Validator.standard config.validator).validate (.ofText name text),
      issue.category.isBranchDefect = false := fun issue member =>
    isBranchDefect_of_mem_validate tree opened member
  refine ⟨sound, ?_⟩
  have valid : ((Pipeline.standard config).script name text).isValid = true := by
    show (Script.ofText name text).isValid = true
    simp [Script.isValid, Script.diagnostic?, Script.ofText, parsed]
  rw [processUnit_fixes_of_isValid valid]
  have markless : ∀ (fix : Fix) (applied : Bool), fix.generator ∉ branchGenerators →
      { fix with applied }.generator ∉ branchGenerators := fun _ _ other => other
  refine repair_forall markless (fun fix member => ?_) (by simp [Ledger.empty])
  obtain ⟨issue, reported, made⟩ := Registry.mem_fixes_generateAll member
  exact generator_of_generate (sound issue reported) made

/-- A loop and a conditional, each with a branch, around strings, comments and lines that continue
others. -/
def legibleLines : String :=
  "for a in b:  # each\n    '''A loop\nelse:\n'''\n    if a:\n        c = \x7b\n1: 'it\\'s'\x7d\n" ++
    "        d = c + \\\n0\n# elif\n    elif 0: d()\nelse:\n    e\n"

theorem attached_legibleLines {module : Python.Module} (joints : module.joints =
      [⟨4, .ifStatement, 10, .elifClause⟩, ⟨0, .forStatement, 11, .elseClause⟩]) :
    Attached Config.standard.validator.branchScanWindow legibleLines module := by
  -- Two of the statement lines begin like branches.
  have places : (List.range (markLines (Text.splitLines legibleLines)).length).all (fun index =>
      (markLines (Text.splitLines legibleLines))[index]?.all fun line =>
        !line.isStatement || (classify line.text).isNone || index = 10 || index = 11) = true := by
    decide +kernel
  have loop : (markLines (Text.splitLines legibleLines))[0]? = some ⟨"for a in b:  # each", true⟩ ∧
      (markLines (Text.splitLines legibleLines))[11]? = some ⟨"else:", true⟩ := by
    decide +kernel
  have conditional : (markLines (Text.splitLines legibleLines))[4]? = some ⟨"    if a:", true⟩ ∧
      (markLines (Text.splitLines legibleLines))[10]? = some ⟨"    elif 0: d()", true⟩ := by
    decide +kernel
  -- Only strings in the loop need be deeper than its `else`, as its header ends with its line.
  have inLoop : (((markLines (Text.splitLines legibleLines)).take 11).drop 1).all (fun line =>
      !line.isStatement || !beginsWithQuote line.text ||
        decide (indentWidth "else:" < indentWidth line.text)) = true := by
    decide +kernel
  have inConditional : (((markLines (Text.splitLines legibleLines)).take 10).drop 5).all (fun line =>
      !line.isStatement || decide (indentWidth "    elif 0: d()" < indentWidth line.text)) = true := by
    decide +kernel
  have closes : Python.ClosesAt legibleLines.toList [] "for a in b".toList "  # each".toList
      (legibleLines.toList.drop 20) :=
    Python.closesAt_of_not_mem (by decide +kernel) (.inl rfl) ⟨by decide +kernel, by decide +kernel⟩
      (by decide +kernel) (by decide +kernel) (by decide +kernel) (by decide +kernel)
  intro index line kind here statement begins
  have below := (List.getElem?_eq_some_iff.mp here).1
  have place := List.all_eq_true.mp places index (List.mem_range.mpr below)
  simp only [here, Option.all_some, statement, begins, Bool.not_true, Bool.false_or,
    Option.isNone_some, Bool.or_eq_true, decide_eq_true_eq] at place
  rw [joints]
  rcases place with rfl | rfl
  · obtain rfl := Option.some.inj (conditional.2.symm.trans here)
    refine ⟨_, List.mem_cons_self, rfl, ?_, ⟨"    if a:", true⟩, conditional.1, by decide +kernel,
      by decide +kernel, fun index line after before found begins => .inl ?_, by decide +kernel⟩
    · rw [← begins]
      decide +kernel
    · have deeper := List.all_eq_true.mp inConditional line (mem_between_of_getElem? after before found)
      simpa [begins] using deeper
  · obtain rfl := Option.some.inj (loop.2.symm.trans here)
    refine ⟨_, List.mem_cons_of_mem _ List.mem_cons_self, rfl, ?_, ⟨"for a in b:  # each", true⟩,
      loop.1, by decide +kernel, by decide +kernel, fun index line after before found begins => ?_,
      by decide +kernel⟩
    · rw [← begins]
      decide +kernel
    · have deeper := List.all_eq_true.mp inLoop line (mem_between_of_getElem? after before found)
      cases plain : beginsWithQuote line.text with
      | false => exact .inr ⟨rfl, _, _, _, _, closes, rfl, after⟩
      | true => exact .inl (by simpa [begins, plain] using deeper)

theorem processUnit_legibleLines :
    ∃ module, Source.parse legibleLines = .ok module ∧ IsLegible legibleLines.toList ∧
      Attached Config.standard.validator.branchScanWindow legibleLines module ∧
        (∀ issue ∈ (Validator.standard Config.standard.validator).validate (.ofText "a" legibleLines),
            issue.category.isBranchDefect = false) ∧
          ∀ fix ∈ ((Pipeline.standard .standard).processUnit "a" legibleLines).fixSummary.fixes,
            fix.generator ∉ branchGenerators := by
  have legible : IsLegible legibleLines.toList := isLegible_of_isPlainText (by decide +kernel)
  have shape : (Source.parse legibleLines).toOption.map Python.Module.joints =
      some [⟨4, .ifStatement, 10, .elifClause⟩, ⟨0, .forStatement, 11, .elseClause⟩] := by
    decide +kernel
  cases parsed : Source.parse legibleLines with
  | error diagnostic => simp [parsed, Except.toOption] at shape
  | ok module =>
    have attached := @attached_legibleLines module (by simpa [parsed, Except.toOption] using shape)
    exact ⟨module, rfl, legible, attached, processUnit_of_attached .standard "a" parsed legible attached⟩

/-! ## Branches that do not stay -/

/-- An orphan is reported, if orphans are looked for. -/
theorem exists_issue_of_orphaned {config : Config.Validator} {script : Script}
    (valid : script.isValid = true) (enabled : "orphaned-branch" ∉ config.disabledDetectors)
    {branch : Branch} (member : branch ∈ scriptBranches ⟨script, config⟩)
    (orphaned : branch.found = .orphaned) :
    ∃ issue ∈ (Validator.standard config).validate script, issue.category = .orphanedBranch := by
  have reads : script.diagnostic? = none := Option.isNone_iff_eq_none.mp valid
  have listed : Detection.orphanedBranch ∈ (Detection.Registry.standard config).detectors := by
    rw [Detection.Registry.detectors_standard]
    exact List.mem_cons_self
  have runs : (Detection.Registry.standard config).isEnabled Detection.orphanedBranch = true := by
    rw [Detection.Registry.isEnabled, Detection.Registry.disabled_standard]
    simpa [Detection.orphanedBranch] using enabled
  obtain ⟨issue, reported, category⟩ : ∃ issue, orphanIssue? ⟨script, config⟩ branch = some issue ∧
      issue.category = .orphanedBranch := by
    rw [orphanIssue?, orphaned]
    exact ⟨_, rfl, rfl⟩
  refine ⟨clampIssue script issue, ?_, category⟩
  rw [Validator.validate, reads]
  refine List.mem_map_of_mem (List.mem_flatMap.mpr ⟨Detection.orphanedBranch, ?_, ?_⟩)
  · refine List.mem_filter.mpr ⟨listed, ?_⟩
    show ((Detection.Registry.standard config).isEnabled _ && true && true) = true
    rw [runs]
    rfl
  · exact List.mem_filterMap.mpr ⟨branch, member, reported⟩

/-- A conditional with `count` statements before its `elif`. -/
def longBody (count : Nat) : List String :=
  "if 1:" :: (List.replicate count "    pass" ++ ["elif 2: pass"])

/-- The clause before a branch is too far above if the window ends with its body. -/
theorem exists_orphaned_longBody {count window : Nat} (far : window ≤ count) :
    ∃ branch ∈ branches (longBody count) window, branch.found = .orphaned := by
  have header : isCode "if 1:" = true ∧ BranchKind.elseIf.accepts "if 1:" = true ∧
      indentWidth "if 1:" = indentWidth "elif 2: pass" := by decide +kernel
  have clause : isCode "elif 2: pass" = true ∧ classify "elif 2: pass" = some .elseIf := by
    decide +kernel
  have body : isCode "    pass" = true ∧
      indentWidth "elif 2: pass" < indentWidth "    pass" := by decide +kernel
  have closed : ∀ line ∈ longBody count, Carry.closed.after line = .closed := by
    have kinds : ∀ line ∈ ["if 1:", "    pass", "elif 2: pass"],
        Carry.closed.after line = .closed := by decide +kernel
    intro line member
    refine kinds line ?_
    simp only [longBody, List.mem_cons, List.mem_append, List.mem_replicate, List.not_mem_nil,
      or_false] at member ⊢
    exact member.imp_right (Or.imp_left And.right)
  have deeper : ∀ line ∈ List.replicate count "    pass", isCode line = true →
      indentWidth "elif 2: pass" < indentWidth line := by
    intro line member _
    rw [List.eq_of_mem_replicate member]
    exact body.2
  have within : ([] ++ "if 1:" :: List.replicate count "    pass") ++ "elif 2: pass" :: [] <+:
      longBody count := List.prefix_rfl
  have found := branchAt_concat_of_clause window clause.1 clause.2 header.1 header.2.1 header.2.2
    deeper within
  have number : ([] ++ "if 1:" :: List.replicate count "    pass").length = count + 1 := by simp
  have statements : (((longBody count).take (count + 1)).drop 0).countP isCode = count + 1 := by
    have cut : (longBody count).take (count + 1) = "if 1:" :: List.replicate count "    pass" := by
      simp [longBody]
    rw [List.drop_zero, cut, List.countP_cons_of_pos header.1, List.countP_replicate, if_pos body.1]
  rw [number] at found
  have marked : markLines (longBody count) =
      allStarting ([] ++ "if 1:" :: List.replicate count "    pass" ++ ["elif 2: pass"]) :=
    markLines_of_closed closed
  rw [← marked] at found
  refine ⟨_, List.mem_filterMap.mpr ⟨count + 1, by simp [longBody], found⟩, ?_⟩
  simp only [Attachment.expected, List.length_nil, statements]
  exact if_neg (by omega)

/-- The text parses, but the standard configuration finds an orphan in it. -/
def ReportsOrphan (text : String) : Prop :=
  (Script.ofText "a" text).isValid = true ∧
    ∃ issue ∈ (Validator.standard Config.standard.validator).validate (.ofText "a" text),
      issue.category = .orphanedBranch

theorem reportsOrphan_of_branch {text : String} (valid : (Script.ofText "a" text).isValid = true)
    (orphan : ∃ branch ∈ branches (Text.splitLines text) 50, branch.found = .orphaned) :
    ReportsOrphan text := by
  obtain ⟨branch, member, orphaned⟩ := orphan
  exact ⟨valid, exists_issue_of_orphaned valid (by decide) member orphaned⟩

theorem reportsOrphan_longBody : ReportsOrphan (Text.unlines (longBody 50)) := by
  have chars : (Text.unlines (longBody 50)).toList =
      Text.joinChars ((longBody 50).map String.toList) := String.toList_ofList
  have lines : Text.splitLines (Text.unlines (longBody 50)) = longBody 50 := by
    have cut : Text.lineChars (Text.joinChars ((longBody 50).map String.toList)) =
        (longBody 50).map String.toList := by decide +kernel
    rw [Text.splitLines, chars, cut, List.map_map]
    simp [Function.comp_def]
  have reads : (Python.Module.readFrom
      ((Text.joinChars ((longBody 50).map String.toList)).length + 1) []
        ⟨Text.joinChars ((longBody 50).map String.toList), 0, []⟩).toOption.isSome = true := by
    decide +kernel
  refine reportsOrphan_of_branch ?_ (lines.symm ▸ exists_orphaned_longBody (Nat.le_refl 50))
  rw [Script.isValid, Script.diagnostic?, Script.ofText, Source.parse, Python.Module.read, chars]
  generalize Text.joinChars ((longBody 50).map String.toList) = text at reads
  cases given : Python.Module.readFrom (text.length + 1) [] ⟨text, 0, []⟩ with
  | error bad => simp [given, Except.toOption] at reads
  | ok statements => simp [Except.map, Except.mapError]

/-- Texts with branches that are not attached, or not in reach. -/
def unattachedTexts : List String :=
  [ -- There is no clause, but a name with an annotation.
    "else: 1",
    -- The header stands deeper than the clause.
    "if 1:\n    0\n      if 2:\n          0\n    else: 0",
    -- The words of the header stand on two lines.
    "async \\\nfor a in b:\n    0\nelse: 0",
    -- A string on a line of its own ends the statement above.
    "if 1:\n    x =\n'a'\nelse: 0",
    -- The header does not end with its line; nor does the statement beside it.
    "if 1\n: 0\nelse: 0",
    "if 1: x =\n2\nelse: 0"]

/-- Texts that are not legible. -/
def illegibleTexts : List String :=
  [ -- A blank character hides a line break, or the beginning of a line.
    "if 1: x = (1)\x0b\n+2\nelse: 0",
    "\uFEFFif 1: 0\nelse: 0",
    -- A margin has spaces in front of a tabulator, or behind a form feed; or a backslash stands for it.
    "\tif 1:\n \t0\n\telse: 0",
    "if 1:\n\x0c    pass\nelse: pass",
    "\\\nif 1: 0\nelse: 0",
    -- A string that one quote ends is open at the end of a line.
    "if 1: '\n'\nelse: 0",
    "s = 'a\\\n('\nif 1: s = 'a\\\n)'\nelse: 0",
    -- A string stands between grave accents.
    "\x60(\x60\nif 1: \x60)\x60\nelse: 0",
    -- A quote stands in an interpolated expression, in the name of a character, or behind what would begin
    -- such a name in a text.
    "f'\x7b'('\x7d'\nif 1: f'\x7b')'\x7d'\nelse: 0",
    "'\\N\x7b'('\x7d'\nif 1: '\\N\x7b')'\x7d'\nelse: 0",
    "b'\\N'('\nif 1: b'\\N')'\nelse: 0",
    -- A comment behind a statement ends in a backslash; so does a line that only begins like a comment.
    "x = 1 # \\\nif a: b()\nelse: c()",
    "if 1:\n    x = '''\n# ''' + \\\n1\nelse: 0"]

theorem reportsOrphan_of_all {texts : List String}
    (orphans : (texts.all fun text => (Script.ofText "a" text).isValid &&
      (branches (Text.splitLines text) 50).any fun branch => branch.found = .orphaned) = true) :
    ∀ text ∈ texts, ReportsOrphan text := by
  intro text member
  have here := List.all_eq_true.mp orphans text member
  rw [Bool.and_eq_true, List.any_eq_true] at here
  obtain ⟨valid, branch, listed, orphaned⟩ := here
  exact reportsOrphan_of_branch valid ⟨branch, listed, of_decide_eq_true orphaned⟩

/-- **None of the conditions can be left out.** -/
theorem reportsOrphan_without_conditions :
    ReportsOrphan (Text.unlines (longBody 50)) ∧ (∀ text ∈ unattachedTexts, ReportsOrphan text) ∧
      ∀ text ∈ illegibleTexts, ReportsOrphan text := by
  refine ⟨reportsOrphan_longBody, reportsOrphan_of_all ?_, reportsOrphan_of_all ?_⟩
  · decide +kernel
  · decide +kernel

end Pipeline

end StrategyMend
