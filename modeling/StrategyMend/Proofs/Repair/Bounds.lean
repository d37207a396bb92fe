import StrategyMend.Proofs.Repair.BranchRepair
import StrategyMend.Proofs.Source.BodyTop

/-!
# The built-in generators read only lines that are there

A strict generator reads a range of lines, or a line by its number, only if it is there, and fails as a
whole otherwise. Each built-in generator has a strict counterpart that takes its lines in this way;
the searches for ends, openers and tops walk along the lines and read none by its number. The ends
of blocks (`blockEnd_spec`), the openers of branches (`lt_of_matchAt_eq_misaligned`) and the tops of
bodies (`lt_of_bodyTop?`) lie within the lines, so no strict counterpart ever fails, and each does
what the generator does, for all issues and lines (`follows_builtin`).
-/

set_option autoImplicit false

namespace StrategyMend.Repair

open Source Text

/-! ## Strict generators -/

/-- The elements from `first` to `last`, counted from zero, if all of them are there. -/
def slice? {α : Type} (elements : List α) (first last : Nat) : Option (List α) :=
  if first ≤ last + 1 ∧ last < elements.length then
    some ((elements.drop first).take (last + 1 - first))
  else none

/-- A generator that gives no answer at all when it reads a line that is not there. -/
structure StrictGenerator where
  id : String
  claims? : Issue → List String → Option Bool
  generate? : Issue → List String → Option Attempt

namespace StrictGenerator

/-- A generator that looks whether a line is there whenever it reads one. -/
def ofGenerator (generator : Generator) : StrictGenerator where
  id := generator.id
  claims? issue lines := some (generator.claims issue lines)
  generate? issue lines := some (generator.generate issue lines)

/-- The strict counterpart of `Repair.callbackRelocation`. -/
def callbackRelocation (config : Config.Fixer) : StrictGenerator where
  id := "callback-relocation"
  claims? issue lines :=
    let index := issue.lineIndex
    if !issue.category.isBranchDefect || lines.length ≤ index || insideNotification lines index then
      some false
    else (slice? lines index (blockEnd lines index)).map (·.any mentionsCallbackField)
  generate? issue lines :=
    let index := issue.lineIndex
    match lines[index]? with
    | none => some .declined
    | some header => do
      let last := blockEnd lines index
      let body ← slice? lines (index + 1) last
      let block ← slice? lines index last
      return .proposed <|
        (Fix.replace issue issue.line (last + 1) block (commentOutBlock (header :: body)))
          |>.classified .semiAuto config.callbackRelocationConfidence config.autoFloor
          |>.explained
            "order/trade callback logic found outside notify_order; commented out for relocation"

/-- The strict counterpart of `Repair.isTrivialElse`. -/
def isTrivialElse? (lines : List String) (index last : Nat) : Option Bool := do
  let header ← lines[index]?
  match inlineBody header with
  | some body => return isIdle body && last = index
  | none =>
    let body ← slice? (markLines lines) (index + 1) last
    return body.all fun line => !line.isStatement || isTrivialStatement (trim line.text)

/-- The strict counterpart of `Repair.orphanFix?`. -/
def orphanAttempt? (config : Config.Fixer) (issue : Issue) (lines : List String) (header : String) :
    Option Attempt :=
  let index := issue.lineIndex
  match classify header with
  | none => some .declined
  | some .elseIf =>
    match elseIfAsIf? header with
    | none => some .declined
    | some standalone => do
      let removed ← slice? lines index index
      return .proposed <| (Fix.replace issue issue.line issue.line removed [standalone])
        |>.classified .auto config.elifToIfConfidence config.autoFloor
        |>.explained "turn the detached else-if into a standalone if"
  | some .otherwise => do
    let last := blockEnd lines index
    let trivial ← isTrivialElse? lines index last
    if trivial then
      let removed ← slice? lines index last
      return .proposed <| (Fix.delete issue issue.line (last + 1) removed)
        |>.classified .auto config.deleteTrivialElseConfidence config.autoFloor
        |>.explained "delete the detached else; its body does nothing"
    else
      return .proposed <| (Fix.suggestion issue issue.line header)
        |>.classified .manualOnly config.nontrivialElseConfidence config.autoFloor
        |>.explained "the detached else has side effects; attach it to its conditional by hand"

/-- The strict counterpart of `Repair.orphanedBranch`. -/
def orphanedBranch (config : Config.Fixer) : StrictGenerator where
  id := "orphaned-branch"
  claims? issue _ := some issue.category.isBranchDefect
  generate? issue lines :=
    match lines[issue.lineIndex]? with
    | none => some .declined
    | some header => orphanAttempt? config issue lines header

/-- The strict counterpart of `Repair.indentationRealign`. -/
def indentationRealign (config : Config.Fixer) (validator : Config.Validator) :
    StrictGenerator where
  id := "indentation-realign"
  claims? issue _ := some (issue.category == .indentationMismatch)
  generate? issue lines :=
    let index := issue.lineIndex
    match (matchAt lines validator.branchScanWindow index).map Branch.found with
    | some (.misaligned opener _) => do
      let header ← lines[opener]?
      let line ← lines[index]?
      let removed ← slice? lines index index
      return .proposed <|
        (Fix.replace issue issue.line issue.line removed [indentation header ++ trimStart line])
          |>.classified .semiAuto config.indentationRealignConfidence config.autoFloor
          |>.explained ("align the branch with its opener at line " ++ toString (opener + 1))
    | _ => some .declined

/-- The strict counterpart of `Repair.fieldInit`. -/
def fieldInit (config : Config.Fixer) (validator : Config.Validator) : StrictGenerator where
  id := "field-init"
  claims? issue _ := some (issue.category == .missingFieldInit)
  generate? issue lines :=
    let index := issue.lineIndex
    match bodyTop? lines index with
    | none => some .declined
    | some top => do
      let block ← slice? lines index (blockEnd lines index)
      let missing := (config.expandedFieldInit validator.pendingOrderField).filter fun statement =>
        !(block.map trim).contains statement
      if missing.isEmpty then return .declined
      else
        return .proposed <|
          (Fix.insert issue (top.index + 1) (missing.map fun statement => top.indent ++ statement))
            |>.classified .auto config.fieldInitConfidence config.autoFloor
            |>.explained "initialize the pending-order state before the first bar"

/-- The strict counterparts of the built-in generators by priority. -/
def builtin (config : Config.Fixer) (validator : Config.Validator) : List StrictGenerator :=
  [callbackRelocation config, orphanedBranch config, indentationRealign config validator,
    fieldInit config validator, ofGenerator (guardCheck config validator),
    ofGenerator (undefinedVariable config)]

/-- The strict generator never fails, and it does what the other generator does. -/
structure Follows (strict : StrictGenerator) (generator : Generator) : Prop where
  id : strict.id = generator.id
  claims : ∀ issue lines, strict.claims? issue lines = some (generator.claims issue lines)
  generate : ∀ issue lines, strict.generate? issue lines = some (generator.generate issue lines)

end StrictGenerator

/-! ## The numbers of lines -/

variable {lines : List String} {index : Nat}

theorem slice?_eq {α : Type} {elements : List α} {first last : Nat} (ordered : first ≤ last + 1)
    (inside : last < elements.length) :
    slice? elements first last = some ((elements.drop first).take (last + 1 - first)) :=
  if_pos ⟨ordered, inside⟩

/-- The block of a line that is there can be read. -/
theorem slice?_block (inside : index < lines.length) :
    slice? lines index (blockEnd lines index) = some (span lines index (blockEnd lines index)) := by
  obtain ⟨after, upTo, -⟩ := blockEnd_spec inside
  exact slice?_eq (by omega) upTo

/-- A line that is there can be read as a range. -/
theorem slice?_line (inside : index < lines.length) :
    slice? lines index index = some (span lines index index) :=
  slice?_eq (Nat.le_succ index) inside

/-- A misplaced branch and its opener are lines that are there. -/
theorem lt_of_matchAt_eq_misaligned {window opener openerIndent : Nat}
    (found : (matchAt lines window index).map Branch.found =
      some (.misaligned opener openerIndent)) : opener < index ∧ index < lines.length := by
  obtain ⟨branch, here, misaligned⟩ := Option.map_eq_some_iff.mp found
  obtain ⟨line, marked, -, -, -, searched⟩ := exists_of_branchAt_eq here
  rw [misaligned] at searched
  have inside := (List.getElem?_eq_some_iff.mp marked).1
  have above := lt_of_belonging_eq_misaligned (Nat.le_of_lt inside) searched.symm
  rw [length_markLines] at inside
  exact ⟨above, inside⟩

/-! ## Each generator is followed -/

namespace StrictGenerator

variable {config : Config.Fixer} {validator : Config.Validator}

theorem follows_ofGenerator (generator : Generator) : (ofGenerator generator).Follows generator :=
  ⟨rfl, fun _ _ => rfl, fun _ _ => rfl⟩

theorem follows_callbackRelocation :
    (callbackRelocation config).Follows (Repair.callbackRelocation config) where
  id := rfl
  claims issue lines := by
    rcases Nat.lt_or_ge issue.lineIndex lines.length with inside | outside
    · simp only [callbackRelocation, Repair.callbackRelocation, slice?_block inside, inside]
      cases issue.category.isBranchDefect <;>
        cases insideNotification lines issue.lineIndex <;> simp [Nat.not_le.mpr inside]
    · simp [callbackRelocation, Repair.callbackRelocation, Nat.not_lt.mpr outside, outside]
  generate issue lines := by
    rcases Nat.lt_or_ge issue.lineIndex lines.length with inside | outside
    · have here := List.getElem?_eq_getElem inside
      obtain ⟨after, upTo, -⟩ := blockEnd_spec inside
      have body : slice? lines (issue.lineIndex + 1) (blockEnd lines issue.lineIndex) =
          some (span lines (issue.lineIndex + 1) (blockEnd lines issue.lineIndex)) :=
        slice?_eq (by omega) upTo
      simp only [callbackRelocation, Repair.callbackRelocation, here, body, slice?_block inside,
        if_pos inside, Option.bind_eq_bind, Option.bind_some, ← span_eq_cons here after]
      rfl
    · simp [callbackRelocation, Repair.callbackRelocation, Nat.not_lt.mpr outside]

theorem isTrivialElse?_eq (inside : index < lines.length) :
    isTrivialElse? lines index (blockEnd lines index) =
      some (isTrivialElse lines index (blockEnd lines index)) := by
  have here := List.getElem?_eq_getElem inside
  obtain ⟨after, upTo, -⟩ := blockEnd_spec inside
  have body : slice? (markLines lines) (index + 1) (blockEnd lines index) =
      some (((markLines lines).drop (index + 1)).take (blockEnd lines index - index)) := by
    rw [slice?_eq (by omega) (by rwa [length_markLines]), Nat.add_sub_add_right]
  simp only [isTrivialElse?, isTrivialElse, here, body, Option.bind_eq_bind, Option.bind_some]
  cases inlineBody lines[index] <;> rfl

theorem orphanAttempt?_eq {issue : Issue} {header : String}
    (here : lines[issue.lineIndex]? = some header) :
    orphanAttempt? config issue lines header =
      some (.ofOption (orphanFix? config issue lines header)) := by
  have inside := (List.getElem?_eq_some_iff.mp here).1
  simp only [orphanAttempt?, orphanFix?, slice?_line inside, isTrivialElse?_eq inside,
    slice?_block inside, Option.bind_eq_bind, Option.bind_some]
  cases classify header with
  | none => rfl
  | some kind =>
    cases kind with
    | elseIf => cases elseIfAsIf? header <;> rfl
    | otherwise =>
      cases isTrivialElse lines issue.lineIndex (blockEnd lines issue.lineIndex) <;> rfl

theorem follows_orphanedBranch :
    (orphanedBranch config).Follows (Repair.orphanedBranch config) where
  id := rfl
  claims _ _ := rfl
  generate issue lines := by
    show (match lines[issue.lineIndex]? with
        | none => some Attempt.declined
        | some header => orphanAttempt? config issue lines header) =
      some (.ofOption (lines[issue.lineIndex]?.bind (orphanFix? config issue lines)))
    cases here : lines[issue.lineIndex]? with
    | none => rfl
    | some header => exact orphanAttempt?_eq here

theorem follows_indentationRealign :
    (indentationRealign config validator).Follows (Repair.indentationRealign config validator) where
  id := rfl
  claims _ _ := rfl
  generate issue lines := by
    simp only [indentationRealign, Repair.indentationRealign, Generator.claimingAll, realignFix?]
    cases found : (matchAt lines validator.branchScanWindow issue.lineIndex).map Branch.found with
    | none => rfl
    | some place =>
      cases place with
      | misaligned opener width =>
        obtain ⟨above, inside⟩ := lt_of_matchAt_eq_misaligned found
        simp only [List.getElem?_eq_getElem inside, List.getElem?_eq_getElem (above.trans inside),
          slice?_line inside, Option.bind_eq_bind, Option.bind_some]
        rfl
      | aligned opener => rfl
      | crossMethod opener boundary => rfl
      | orphaned => rfl

theorem follows_fieldInit :
    (fieldInit config validator).Follows (Repair.fieldInit config validator) where
  id := rfl
  claims _ _ := rfl
  generate issue lines := by
    simp only [fieldInit, Repair.fieldInit, Generator.claimingAll, fieldInitFix?]
    cases found : bodyTop? lines issue.lineIndex with
    | none => rfl
    | some top =>
      simp only [slice?_block (lt_of_bodyTop? found).1, missingStatements, List.isEmpty_map,
        Option.bind_eq_bind, Option.bind_some]
      split <;> rfl

/-- **The built-in generators read only lines that are there**: their strict counterparts never fail,
and they do the same. -/
theorem follows_builtin (config : Config.Fixer) (validator : Config.Validator) :
    List.Forall₂ Follows (builtin config validator) (Repair.builtin config validator) :=
  .cons follows_callbackRelocation <| .cons follows_orphanedBranch <|
    .cons follows_indentationRealign <| .cons follows_fieldInit <|
      .cons (follows_ofGenerator _) <| .cons (follows_ofGenerator _) .nil

end StrictGenerator

end StrategyMend.Repair
