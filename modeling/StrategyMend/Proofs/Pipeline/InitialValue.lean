import StrategyMend.Proofs.Pipeline.Discard
import StrategyMend.Proofs.Pipeline.Initializers
import StrategyMend.Proofs.Repair.PlainInitializer

/-!
# Repaired initializers

The patch of a script that parses is kept exactly if it changes something and its text parses
(`keeps_of_fixedText`, `processUnit_of_keeps`). What remains is then what is reported for that text. So
an initializer is repaired for good if it is plain before the repair: the fix puts the initial value at
the top of its body, where it becomes a statement (`remaining_of_plainInitializer`).

Not every initializer is repaired. The generator takes a value as present if any line of the block reads
like it, while the detector does not look into nested functions. A strategy that sets the field in one of
them is given the other initial value only, and the issue remains (`nestedInitialValue_remains`).
-/

set_option autoImplicit false

namespace StrategyMend.Pipeline

open Detection Python Repair Source

/-! ## Kept patches -/

/-- The patch of the repair of a script that parses is kept. -/
structure Keeps (pipeline : Pipeline) (script : Script) : Prop where
  autoApply : pipeline.options.autoApply = true
  changed : (pipeline.passPatch (pipeline.validator.validate script) script).isChanged = true
  parses : (pipeline.script script.name
    ((pipeline.passPatch (pipeline.validator.validate script) script).render
      script.trailing)).isValid = true

/-- The script after a patch that is kept. -/
def patchedScript (pipeline : Pipeline) (script : Script) : Script :=
  pipeline.script script.name
    ((pipeline.passPatch (pipeline.validator.validate script) script).render script.trailing)

section Kept

variable {pipeline : Pipeline} {name text : String}

/-- The result when a patch is kept: the issues before, its fixes, its text, and the issues of that
text. -/
theorem processUnit_of_keeps (valid : (pipeline.script name text).isValid = true)
    (keeps : pipeline.Keeps (pipeline.script name text)) :
    let script := pipeline.script name text
    let result := pipeline.processUnit name text
    result.validation = ⟨pipeline.validator.validate script⟩ ∧
      result.fixedText = some (pipeline.patchedScript script).text ∧
      result.fixSummary.fixes =
        (pipeline.passPatch (pipeline.validator.validate script) script).fixes ∧
      result.remaining = ⟨pipeline.validator.validate (pipeline.patchedScript script)⟩ := by
  intro script result
  have issues : pipeline.validator.validate script ≠ [] :=
    pipeline.issues_ne_nil_of_isChanged keeps.changed
  have passed : ∃ ledger, ledger.fixes =
        (pipeline.passPatch (pipeline.validator.validate script) script).fixes ∧
      pipeline.checkedPass (pipeline.validator.validate script) script .empty =
        (some (pipeline.patchedScript script), ledger) := by
    rcases pipeline.fixPass_cases (pipeline.validator.validate script) script .empty with
      ⟨-, -, made⟩ | ⟨-, unchanged, -⟩ | ⟨manual, -⟩
    · simp only [checkedPass, made]
      rw [if_pos keeps.parses]
      exact ⟨_, List.nil_append _, rfl⟩
    · rw [keeps.changed] at unchanged
      cases unchanged
    · rw [keeps.autoApply] at manual
      cases manual
  obtain ⟨ledger, fixes, passed⟩ := passed
  have repaired : pipeline.repair (pipeline.validator.validate script) script .empty =
      ⟨pipeline.patchedScript script,
        pipeline.validator.validate (pipeline.patchedScript script), ledger, true⟩ := by
    simp [repair, issues, passed]
  have result_eq : result = pipeline.finish name ⟨script, none, .empty⟩ :=
    processUnit_of_isValid valid
  rw [result_eq, finish]
  simp only [repaired, Option.isSome_none, Bool.false_or, if_true]
  exact ⟨rfl, trivial, fixes, trivial⟩

/-- A script that parses has a text in the end only if its patch is kept. -/
theorem keeps_of_fixedText (valid : (pipeline.script name text).isValid = true) {fixed : String}
    (given : (pipeline.processUnit name text).fixedText = some fixed) :
    pipeline.Keeps (pipeline.script name text) := by
  rw [processUnit_of_isValid valid, finish_fixedText] at given
  have changed : (pipeline.repaired ⟨pipeline.script name text, none, .empty⟩).changed = true := by
    simpa using (Option.ite_none_right_eq_some.mp given).1
  rw [repaired] at changed
  rcases pipeline.repair_cases (pipeline.validator.validate (pipeline.script name text))
      (pipeline.script name text) .empty with
    ⟨-, result⟩ | ⟨patched, after, -, passed, -⟩ | ⟨after, -, -, result⟩
  · rw [result] at changed
    cases changed
  · rcases pipeline.checkedPass_cases (pipeline.validator.validate (pipeline.script name text))
        (pipeline.script name text) .empty with
      ⟨text', after', made, parses, -⟩ | ⟨_, _, -, -, result⟩ | ⟨_, -, result⟩
    · rcases pipeline.fixPass_cases (pipeline.validator.validate (pipeline.script name text))
          (pipeline.script name text) .empty with
        ⟨auto, changed, result⟩ | ⟨-, -, result⟩ | ⟨-, result⟩
      · rw [made] at result
        cases result
        exact ⟨auto, changed, parses⟩
      · rw [made] at result
        cases result
      · rw [made] at result
        cases result
    · rw [passed] at result
      cases result
    · rw [passed] at result
      cases result
  · rw [result] at changed
    cases changed

end Kept

/-! ## Patches in order -/

/-- Those of the fixes that are accepted when they are taken in their order, the last one first. -/
def acceptedFixes (pipeline : Pipeline) (script : Script) (fixes : List Fix) : List Candidate :=
  (select script.lines.length (eligible fixes pipeline.options.confidenceThreshold)).accepted.reverse

/-- The fixes, with those marked that are accepted then. -/
def markedFixes (pipeline : Pipeline) (script : Script) (fixes : List Fix) : List Fix :=
  Patch.markApplied fixes ((pipeline.acceptedFixes script fixes).map Candidate.index)

/-- The fixes that are proposed for the issues stand in the order of their confidence and of their
lines, and make this text of the script; nothing has to be sorted to see that. -/
structure PatchesTo (pipeline : Pipeline) (issues : List Issue) (script : Script) (fixes : List Fix)
    (patched : String) : Prop where
  proposes : (pipeline.generators.generateAll issues script.lines).fixes = fixes
  ranked : (eligible fixes pipeline.options.confidenceThreshold).Pairwise
    fun first second => first.precedes second = true
  descending : (pipeline.acceptedFixes script fixes).Pairwise Candidate.Descends
  accepts : pipeline.acceptedFixes script fixes ≠ []
  rendered : Text.joinLines ((pipeline.acceptedFixes script fixes).foldl
    (fun lines candidate => candidate.fix.edit lines) script.lines) script.trailing = patched

instance (pipeline : Pipeline) (issues : List Issue) (script : Script) (fixes : List Fix)
    (patched : String) : Decidable (pipeline.PatchesTo issues script fixes patched) :=
  decidable_of_iff (_ ∧ _ ∧ _ ∧ _ ∧ _)
    ⟨fun ⟨proposes, ranked, descending, accepts, rendered⟩ =>
      ⟨proposes, ranked, descending, accepts, rendered⟩,
    fun ⟨proposes, ranked, descending, accepts, rendered⟩ =>
      ⟨proposes, ranked, descending, accepts, rendered⟩⟩

section PatchesTo

variable {pipeline : Pipeline} {name text : String}

/-- The result when such a patch parses. -/
theorem PatchesTo.processUnit {issues : List Issue} {fixes : List Fix} {patched : String}
    (patches : pipeline.PatchesTo issues (pipeline.script name text) fixes patched)
    (valid : (pipeline.script name text).isValid = true)
    (found : pipeline.validator.validate (pipeline.script name text) = issues)
    (auto : pipeline.options.autoApply = true)
    (parses : (pipeline.script name patched).isValid = true) :
    let result := pipeline.processUnit name text
    result.validation = ⟨issues⟩ ∧ result.fixedText = some patched ∧
      result.fixSummary.fixes = pipeline.markedFixes (pipeline.script name text) fixes ∧
      result.remaining = ⟨pipeline.validator.validate (pipeline.script name patched)⟩ := by
  subst found
  have made : pipeline.passPatch (pipeline.validator.validate (pipeline.script name text))
      (pipeline.script name text) = _ :=
    (congrArg (fun fixes => Patch.apply (pipeline.script name text).lines fixes
      pipeline.options.confidenceThreshold) patches.proposes).trans
        (apply_of_perm patches.ranked (List.reverse_perm _) patches.descending)
  have rendered : (pipeline.passPatch (pipeline.validator.validate (pipeline.script name text))
      (pipeline.script name text)).render (pipeline.script name text).trailing = patched := by
    rw [made]
    exact patches.rendered
  have keeps : pipeline.Keeps (pipeline.script name text) := by
    refine ⟨auto, ?_, rendered.symm ▸ parses⟩
    rw [made]
    simpa [Patch.isChanged, acceptedFixes] using patches.accepts
  have after : pipeline.patchedScript (pipeline.script name text) = pipeline.script name patched := by
    rw [patchedScript, rendered]
    rfl
  obtain ⟨before, fixed, applied, remaining⟩ := processUnit_of_keeps valid keeps
  rw [after] at fixed remaining
  refine ⟨before, fixed, ?_, remaining⟩
  rw [applied, made]
  rfl

end PatchesTo

/-! ## Initial values -/

/-- The statements that the fix of an initializer puts in. -/
theorem selfContained_initialValues :
    ∀ statement ∈ Config.Fixer.standard.expandedFieldInit "order", SelfContained statement := by
  have facts : ∀ statement ∈ Config.Fixer.standard.expandedFieldInit "order",
      Text.trim statement = statement ∧ '\n' ∉ statement.toList ∧ isCode statement = true ∧
        Carry.closed.after statement = .closed := by
    decide +kernel
  intro statement member
  obtain ⟨trimmed, oneLine, code, closed⟩ := facts statement member
  exact ⟨trimmed, oneLine, code, closed⟩

/-- A fix of that generator was made for an issue with an initializer, and puts lines in at the top of
its body. -/
theorem exists_fieldInitFix?_of_generate {config : Config.Fixer} {validator : Config.Validator}
    {issue : Issue} {lines : List String} {fix : Fix}
    (made : (Repair.Registry.standard config validator).generate issue lines = .ok fix)
    (generator : fix.generator = "field-init") :
    issue.category = .missingFieldInit ∧ ∃ proposed, fieldInitFix? config
        (config.expandedFieldInit validator.pendingOrderField) issue lines = some proposed ∧
      fix = proposed.fromGenerator "field-init" := by
  obtain ⟨claimer, listed, claims, proposed, asked, rfl⟩ := Registry.exists_of_generate made
  have id : claimer.id = "field-init" := generator
  rw [Registry.generators_standard] at listed
  simp only [Repair.builtin, List.mem_cons, List.not_mem_nil, or_false] at listed
  rcases listed with rfl | rfl | rfl | rfl | rfl | rfl
  · simp [callbackRelocation] at id
  · simp [Repair.orphanedBranch, Generator.claimingAll] at id
  · simp [indentationRealign, Generator.claimingAll] at id
  · exact ⟨eq_of_beq claims, proposed, Attempt.ofOption_eq_proposed.mp asked, rfl⟩
  · simp [Repair.guardCheck, Generator.claimingAll] at id
  · simp [undefinedVariable, Generator.claimingAll] at id

theorem issue_of_fieldInitFix? {config : Config.Fixer} {statements : List String} {issue : Issue}
    {lines : List String} {fix : Fix}
    (made : fieldInitFix? config statements issue lines = some fix) : fix.issue = issue := by
  obtain ⟨_, -, made⟩ := Option.bind_eq_some_iff.mp made
  dsimp only at made
  split at made
  · cases made
  · cases made
    rfl

/-- **A plain initializer is repaired:** once its fix is applied and the patch is kept, nothing is
reported for the initializer where it stands then. -/
theorem remaining_of_plainInitializer {name text fixed : String} {fix : Fix} {top : BodyTop}
    {margin head preamble : List Char} {idles : List (List Char)}
    (valid : ((standard .standard).script name text).isValid = true)
    (given : ((standard .standard).processUnit name text).fixedText = some fixed)
    (member : fix ∈ ((standard .standard).processUnit name text).fixSummary.fixes)
    (applied : fix.applied = true) (generator : fix.generator = "field-init")
    (plain : PlainInitializer (Text.splitLines text) fix.issue.lineIndex top margin head idles preamble)
    (apart : ∀ other ∈ ((standard .standard).processUnit name text).fixSummary.fixes,
      other.applied = true → other ≠ fix →
        other.IsAbove fix.issue.lineIndex ∨ top.index < other.line) :
    let result := (standard .standard).processUnit name text
    fix.issue ∈ result.validation.issues ∧ fix.issue.category = .missingFieldInit ∧
      ∀ issue ∈ result.remaining.issues, issue.category = .missingFieldInit →
        (issue.line : Int) ≠
          fix.issue.line + displacement result.fixSummary.fixes fix.issue.lineIndex := by
  intro result
  have keeps := keeps_of_fixedText valid given
  obtain ⟨found, -, fixes, remaining⟩ := processUnit_of_keeps valid keeps
  rw [fixes] at member apart ⊢
  rw [found, remaining]
  have unapplied := (Registry.proposesUnapplied_standard .standard .standard).generateAll
    ((standard .standard).validator.validate ((standard .standard).script name text))
    (Text.splitLines text)
  obtain ⟨original, listed, rfl⟩ := exists_of_applied unapplied member applied
  obtain ⟨issue, asked, made⟩ := Registry.mem_fixes_generateAll listed
  obtain ⟨category, proposed, proposes, rfl⟩ := exists_fieldInitFix?_of_generate made generator
  obtain rfl : proposed.issue = issue := issue_of_fieldInitFix? proposes
  refine ⟨asked, category, fun issue left category' => ?_⟩
  obtain ⟨tree, parsed⟩ := exists_tree_of_isValid valid
  obtain ⟨function, -, -, row⟩ := exists_function_of_mem_validate parsed asked category
  obtain ⟨more, first⟩ := plain.initialLines_eq ["self.buyprice = None"]
  obtain ⟨inserts, placed, puts⟩ :=
    replacementLines_of_fieldInitFix? selfContained_initialValues proposes plain.found
  obtain ⟨above, c, shown, tail, header, begins, rows⟩ := plain.exists_hasHeader unapplied
    Text.newline_not_mem_splitLines member applied inserts placed (puts.trans first) apart
      ((standard .standard).script name text).trailing
  have elsewhere := ne_line_of_header keeps.parses header plain.begins begins left category'
  have index : proposed.issue.lineIndex = function.row := by
    rw [Issue.lineIndex, row, Nat.add_sub_cancel]
  have below (moved : Int) (rows : (above.count '\n' : Int) = proposed.issue.lineIndex + moved) :
      (proposed.issue.line : Int) + moved = (above.count '\n' + 1 : Nat) := by
    omega
  exact fun there => elsewhere (Int.ofNat_inj.mp (there.trans (below _ rows)))

/-- Two strategies. The initializer of the second one has a header of two lines and a docstring. -/
def plainInitializers : String :=
  "import Strategy\nclass A(Strategy):\n def __init__(self):\n  0\nclass S(Strategy):\n" ++
    " def __init__(self,\n   n=(1)):  # n\n\n  \"\"\"Keeps\n  n.\"\"\"\n  0\n"

/-- The issue with a strategy that has no step hook, whose header is on this line. -/
def stepHookIssue (name : String) (line : Nat) : Issue :=
  ⟨.high, .missingRequiredMethod, line,
    "strategy class \x60" ++ name ++ "\x60 is missing required method \x60next\x60",
    some ("class " ++ name ++ "(Strategy):"),
    some ("define \x60def next(self):\x60 in \x60" ++ name ++ "\x60")⟩

/-- The issue with an initializer that does not set the pending-order field, with its header. -/
def initializerIssue (name header : String) (line : Nat) : Issue :=
  ⟨.medium, .missingFieldInit, line,
    "\x60__init__\x60 of \x60" ++ name ++ "\x60 never initializes \x60self.order\x60",
    some header, some "add \x60self.order = None\x60 to \x60__init__\x60"⟩

/-- The fix for such an issue that puts initial values in front of a line. -/
def initializerFix (issue : Issue) (line : Nat) (values : List String) : Fix :=
  (((Fix.insert issue line (values.map fun value => "  " ++ value)).classified .auto
    Config.Fixer.standard.fieldInitConfidence Config.Fixer.standard.autoFloor).explained
      "initialize the pending-order state before the first bar").fromGenerator "field-init"

/-- The second initializer is plain. -/
theorem plain_plainInitializers :
    PlainInitializer (Text.splitLines plainInitializers) 5 ⟨10, "  ", " "⟩ [' ']
      "def __init__(self,\n   n=(1))".toList ["  # n".toList, []]
      "\"\"\"Keeps\n  n.\"\"\"\n  ".toList where
  found := by decide +kernel
  shown := by decide +kernel
  blank := by simp
  headed := by decide +kernel
  nonempty := List.cons_ne_nil _ _
  idle := by decide +kernel
  deeper := by decide
  begins := by
    have content : IsDocstring '"' "Keeps\n  n.".toList :=
      isDocstring_of_not_mem (by decide) (by decide +kernel)
    exact .docstring content (List.not_mem_nil : '\n' ∉ []) rfl
  whole := by
    have above : ((Text.splitLines plainInitializers).take 5).getLast? = some "class S(Strategy):" := by
      decide +kernel
    rw [above]
    rintro line ⟨⟩
    exact ⟨by decide +kernel, by decide +kernel⟩
  unset := by decide +kernel

/-- The header of the second initializer is the sixth line before the repair and the eighth one
afterwards. -/
theorem plainInitializers_repaired :
    let result := (standard .standard).processUnit "s.py" plainInitializers
    let issue := initializerIssue "S" "def __init__(self," 6
    issue ∈ result.validation.issues ∧
      (∃ fix ∈ result.fixSummary.fixes, fix.applied = true ∧ fix.issue = issue) ∧
        ∀ issue ∈ result.remaining.issues, issue.category = .missingFieldInit → issue.line ≠ 8 := by
  let values := ["self.order = None", "self.buyprice = None"]
  let above := initializerFix (initializerIssue "A" "def __init__(self):" 3) 4 values
  let proposed := initializerFix (initializerIssue "S" "def __init__(self," 6) 11 values
  let fix := { proposed with applied := true }
  obtain ⟨patched, text⟩ : ∃ patched, "import Strategy\nclass A(Strategy):\n def __init__(self):\n" ++
      "  self.order = None\n  self.buyprice = None\n  0\nclass S(Strategy):\n def __init__(self,\n" ++
      "   n=(1)):  # n\n\n  \"\"\"Keeps\n  n.\"\"\"\n  self.order = None\n" ++
      "  self.buyprice = None\n  0\n" = patched := ⟨_, rfl⟩
  let script := (standard .standard).script "s.py" plainInitializers
  let issues := [stepHookIssue "A" 2, stepHookIssue "S" 5, above.issue, fix.issue]
  have found : (standard .standard).validator.validate script = issues := by decide +kernel
  have reported : stepHookIssue "S" 5 ∈ (standard .standard).validator.validate script := by
    rw [found]
    exact .tail _ (.head _)
  have valid : script.isValid = true := isValid_of_mem_validate reported (by decide)
  have patches : (standard .standard).PatchesTo issues script [above, proposed] patched := by
    subst text
    decide +kernel
  have marked : (standard .standard).markedFixes script [above, proposed] =
      [{ above with applied := true }, fix] := by
    decide +kernel
  have parses : ((standard .standard).script "s.py" patched).isValid = true := by
    subst text
    decide +kernel
  obtain ⟨before, fixed, fixes, -⟩ := patches.processUnit valid found rfl parses
  rw [marked] at fixes
  have member : fix ∈ ((standard .standard).processUnit "s.py" plainInitializers).fixSummary.fixes := by
    rw [fixes]
    exact .tail _ (.head _)
  have apart : ∀ other ∈ ((standard .standard).processUnit "s.py" plainInitializers).fixSummary.fixes,
      other.applied = true → other ≠ fix → other.IsAbove fix.issue.lineIndex ∨ 10 < other.line := by
    rw [fixes]
    decide +kernel
  have generator : fix.generator = "field-init" := rfl
  have index : fix.issue.lineIndex = 5 := rfl
  have moved : displacement [{ above with applied := true }, fix] 5 = 2 := by decide +kernel
  obtain ⟨asked, -, repaired⟩ := remaining_of_plainInitializer valid fixed member rfl generator
    (index ▸ plain_plainInitializers) apart
  dsimp only
  refine ⟨asked, ⟨fix, member, rfl, rfl⟩, fun issue left category there => ?_⟩
  refine repaired issue left category ?_
  rw [fixes, index, moved, there]
  rfl

/-- A strategy whose initializer sets the pending-order field in a nested function only. -/
def nestedInitialValue : String :=
  "import Strategy\nclass S(Strategy):\n def __init__(self):\n  def f():\n   self.order = None\n"

/-- A fix is applied and kept, and the field is still never set. -/
theorem nestedInitialValue_remains :
    let result := (standard .standard).processUnit "s.py" nestedInitialValue
    (result.fixSummary.fixes.map fun fix => (fix.generator, fix.kind, fix.applied)) =
        [("field-init", .auto, true)] ∧
      result.fixedText.isSome = true ∧
        .missingFieldInit ∈ result.remaining.issues.map Issue.category := by
  obtain ⟨patched, text⟩ : ∃ patched, "import Strategy\nclass S(Strategy):\n def __init__(self):\n" ++
      "  self.buyprice = None\n  def f():\n   self.order = None\n" = patched := ⟨_, rfl⟩
  let issues := [stepHookIssue "S" 2, initializerIssue "S" "def __init__(self):" 3]
  have found : (standard .standard).validator.validate
      ((standard .standard).script "s.py" nestedInitialValue) = issues := by
    decide +kernel
  have reported : stepHookIssue "S" 2 ∈ (standard .standard).validator.validate
      ((standard .standard).script "s.py" nestedInitialValue) := by
    rw [found]
    exact .head _
  have valid : ((standard .standard).script "s.py" nestedInitialValue).isValid = true :=
    isValid_of_mem_validate reported (by decide)
  let fixes := [initializerFix (initializerIssue "S" "def __init__(self):" 3) 4 ["self.buyprice = None"]]
  have patches : (standard .standard).PatchesTo issues
      ((standard .standard).script "s.py" nestedInitialValue) fixes patched := by
    subst text
    decide +kernel
  have marked : ((standard .standard).markedFixes
      ((standard .standard).script "s.py" nestedInitialValue) fixes).map
        (fun fix => (fix.generator, fix.kind, fix.applied)) = [("field-init", .auto, true)] := by
    decide +kernel
  have left : .missingFieldInit ∈ ((standard .standard).validator.validate
      ((standard .standard).script "s.py" patched)).map Issue.category := by
    subst text
    decide +kernel
  have parses : ((standard .standard).script "s.py" patched).isValid = true := by
    obtain ⟨issue, member, category⟩ := List.mem_map.mp left
    exact isValid_of_mem_validate member (by simp [category])
  obtain ⟨-, fixed, applied, remaining⟩ := patches.processUnit valid found rfl parses
  dsimp only
  rw [fixed, applied, remaining]
  exact ⟨marked, rfl, left⟩

end StrategyMend.Pipeline
