import Mathlib.Data.List.Forall2
import Mathlib.Data.List.Induction
import StrategyMend.Detection.Validator

/-!
# The issues of a registry with a history

Detectors are registered one after the other, and between that ids are switched off and on. What a
registry finds in the end is told by its history alone (`contributions`): each registered detector
contributes its issues in its turn, unless it breaks down, its id was switched off by the last operation
that names it, or it needs a tree and there is none. An operation adds its detector, if it has one
(`detectors_ofHistory`), and decides about the id that it names (`contains_disabled_ofHistory`), so the
registry runs the detectors that contribute (`runFiltered_ofHistory`).

A validator reports these issues on lines of the script and leaves the rest of them as it was:
`reports_ofHistory`.
-/

set_option autoImplicit false

namespace StrategyMend.Detection

open Source

/-! ## Histories -/

/-- Something that is done to a registry. -/
inductive Operation where
  | register (detector : Detector)
  | disable (id : String)
  | enable (id : String)

namespace Operation

/-- The detector that is registered, if one is. -/
def detector? : Operation → Option Detector
  | .register detector => some detector
  | .disable _ => none
  | .enable _ => none

/-- Whether an id is switched on or off, if the operation names it. -/
def switch? (id : String) : Operation → Option Bool
  | .register _ => none
  | .disable other => if other = id then some false else none
  | .enable other => if other = id then some true else none

end Operation

/-- Whether the last operation that names an id switches it off. -/
def isSwitchedOff (history : List Operation) (id : String) : Bool :=
  (history.filterMap (Operation.switch? id)).getLast? = some false

/-- Whether a detector of a history looks at a script: it is not switched off, and if it works on trees
the script has one. -/
def takesPart (history : List Operation) (context : Context) (detector : Detector) : Bool :=
  !isSwitchedOff history detector.id &&
    (detector.mode = .text || context.script.tree?.isSome)

/-- The issues found by the detectors of a history, each with its detector. A detector that breaks down
finds none. -/
def contributions (history : List Operation) (context : Context) : List (Detector × Issue) :=
  ((history.filterMap Operation.detector?).filter (takesPart history context)).flatMap
    fun detector =>
      match detector.detect context with
      | some issues => issues.map fun issue => (detector, issue)
      | none => []

namespace Registry

/-- The registry after an operation. -/
def perform (registry : Registry) : Operation → Registry
  | .register detector => registry.register detector
  | .disable id => registry.disable id
  | .enable id => registry.enable id

/-- The registry after a history that begins with no detectors. -/
def ofHistory (history : List Operation) : Registry := history.foldl perform .empty

theorem ofHistory_concat (history : List Operation) (operation : Operation) :
    ofHistory (history ++ [operation]) = (ofHistory history).perform operation := by
  rw [ofHistory, List.foldl_concat, ofHistory]

theorem detectors_ofHistory (history : List Operation) :
    (ofHistory history).detectors = history.filterMap Operation.detector? := by
  induction history using List.reverseRecOn with
  | nil => rfl
  | append_singleton history operation ih =>
    rw [ofHistory_concat, List.filterMap_append, ← ih]
    cases operation with
    | register detector => rfl
    | disable id => exact (List.append_nil _).symm
    | enable id => exact (List.append_nil _).symm

/-- **The last operation that names an id decides** whether it is switched off. -/
theorem contains_disabled_ofHistory (history : List Operation) (id : String) :
    (ofHistory history).disabled.contains id = isSwitchedOff history id := by
  induction history using List.reverseRecOn with
  | nil => rfl
  | append_singleton history operation ih =>
    rw [ofHistory_concat, isSwitchedOff, List.filterMap_append, List.getLast?_append]
    rw [isSwitchedOff] at ih
    cases operation with
    | register detector => exact ih
    | disable other =>
      rw [perform, disable, List.contains_cons]
      by_cases same : other = id
      · simp [Operation.switch?, same]
      · rw [ih]
        simp [Operation.switch?, same, Ne.symm same]
    | enable other =>
      by_cases same : other = id
      · simp [perform, enable, Operation.switch?, same]
      · have kept : ((ofHistory history).enable other).disabled.contains id =
            (ofHistory history).disabled.contains id := by
          simp [enable, Ne.symm same]
        rw [perform, kept, ih]
        simp [Operation.switch?, same]

theorem takesPart_eq (history : List Operation) (context : Context) (detector : Detector) :
    takesPart history context detector =
      ((ofHistory history).isEnabled detector && detector.appliesTo context) := by
  rw [takesPart, isEnabled, contains_disabled_ofHistory, Detector.appliesTo]
  cases detector.mode with
  | tree => rfl
  | text => simp

theorem flatMap_filter_eq {α β : Type} (p : α → Bool) (f : α → List β) (l : List α) :
    (l.filter p).flatMap f = l.flatMap fun a => if p a then f a else [] := by
  induction l with
  | nil => rfl
  | cons a l ih => cases chosen : p a <;> simp [chosen, ih]

/-- A choice of detectors finds the contributions of these detectors. -/
theorem runFiltered_ofHistory (history : List Operation) (keep : Detector → Bool)
    (context : Context) :
    (ofHistory history).runFiltered keep context =
      ((contributions history context).filter fun entry => keep entry.1).map Prod.snd := by
  rw [runFiltered, detectors_ofHistory, contributions, flatMap_filter_eq, flatMap_filter_eq,
    List.filter_flatMap, List.map_flatMap]
  congr 1
  funext detector
  rw [takesPart_eq]
  cases (ofHistory history).isEnabled detector with
  | false => rfl
  | true =>
    cases detector.appliesTo context with
    | false => simp
    | true =>
      cases detector.detect context with
      | none => simp
      | some issues =>
        cases kept : keep detector <;> simp [List.filter_map, Function.comp_def, kept]

end Registry

/-! ## Lines of issues -/

/-- What is reported for an issue that was found: it lies on a line of the script, or on the first line
if there are none, and differs from what was found in its line at most, and only if that lay outside. -/
structure PlacedIssue (script : Script) (found reported : Issue) : Prop where
  positive : 1 ≤ reported.line
  inside : reported.line ≤ max 1 script.lineCount
  kept : 1 ≤ found.line → found.line ≤ max 1 script.lineCount → reported.line = found.line
  others : reported = { found with line := reported.line }

theorem clampLine_bounds (script : Script) (line : Nat) :
    1 ≤ clampLine script.lineCount line ∧
      clampLine script.lineCount line ≤ max 1 script.lineCount := by
  rw [clampLine]
  omega

theorem placedIssue_clampIssue (script : Script) (issue : Issue) :
    PlacedIssue script issue (clampIssue script issue) where
  positive := (clampLine_bounds script issue.line).1
  inside := (clampLine_bounds script issue.line).2
  kept positive inside := by
    show clampLine script.lineCount issue.line = issue.line
    rw [clampLine]
    omega
  others := rfl

/-- Issues that are moved to the nearest line are reported in the same order. -/
theorem placedIssue_map_clampIssue (script : Script) (issues : List Issue) :
    List.Forall₂ (PlacedIssue script) issues (issues.map (clampIssue script)) :=
  List.forall₂_map_right_iff.mpr (List.forall₂_same.mpr fun issue _ =>
    placedIssue_clampIssue script issue)

theorem bounds_of_mem_map_clampIssue {script : Script} {issues : List Issue} {issue : Issue}
    (member : issue ∈ issues.map (clampIssue script)) :
    1 ≤ issue.line ∧ issue.line ≤ max 1 script.lineCount := by
  obtain ⟨found, -, rfl⟩ := List.mem_map.mp member
  exact clampLine_bounds script found.line

/-! ## What is reported -/

theorem diagnostic?_eq_none_of_tree {script : Script} (hasTree : script.tree?.isSome = true) :
    script.diagnostic? = none := by
  rw [Script.tree?] at hasTree
  rw [Script.diagnostic?]
  cases parsed : script.parsed with
  | ok tree => rfl
  | error diagnostic =>
    rw [parsed] at hasTree
    cases hasTree

theorem exists_diagnostic_of_treeless {script : Script} (treeless : script.tree? = none) :
    ∃ diagnostic, script.diagnostic? = some diagnostic := by
  rw [Script.tree?] at treeless
  rw [Script.diagnostic?]
  cases parsed : script.parsed with
  | ok tree =>
    rw [parsed] at treeless
    cases treeless
  | error diagnostic => exact ⟨diagnostic, rfl⟩

/-- What a validator with the detectors of a history finds and reports in a script. -/
structure Reports (history : List Operation) (validator : Validator) (script : Script) : Prop where
  runAll : validator.registry.runAll ⟨script, validator.config⟩ =
    (contributions history ⟨script, validator.config⟩).map Prod.snd
  runMode : ∀ mode, validator.registry.runMode mode ⟨script, validator.config⟩ =
    ((contributions history ⟨script, validator.config⟩).filter fun entry =>
      entry.1.mode == mode).map Prod.snd
  /-- A script with a tree has the issues of all detectors. -/
  parsed : script.tree?.isSome = true →
    List.Forall₂ (PlacedIssue script) (validator.registry.runAll ⟨script, validator.config⟩)
      (validator.validate script)
  /-- A script without a tree has its syntax error and no other issue. -/
  broken : script.tree? = none → ∃ diagnostic, script.diagnostic? = some diagnostic ∧
    validator.validate script = [syntaxIssue script diagnostic]
  text : List.Forall₂ (PlacedIssue script)
    (validator.registry.runMode .text ⟨script, validator.config⟩) (validator.validateText script)
  inside : ∀ issue ∈ validator.validate script ++ validator.validateText script,
    1 ≤ issue.line ∧ issue.line ≤ max 1 script.lineCount

/-- **The history tells what is found and reported.** -/
theorem reports_ofHistory (history : List Operation) (config : Config.Validator) (script : Script) :
    Reports history ⟨config, .ofHistory history⟩ script where
  runAll := by
    rw [Registry.runAll, Registry.runFiltered_ofHistory, List.filter_true]
  runMode mode := Registry.runFiltered_ofHistory _ _ _
  parsed hasTree := by
    rw [Validator.validate, diagnostic?_eq_none_of_tree hasTree]
    exact placedIssue_map_clampIssue script _
  broken treeless := by
    obtain ⟨diagnostic, found⟩ := exists_diagnostic_of_treeless treeless
    exact ⟨diagnostic, found, by rw [Validator.validate, found]⟩
  text := placedIssue_map_clampIssue script _
  inside issue member := by
    rcases List.mem_append.mp member with validated | shown
    · rw [Validator.validate] at validated
      split at validated
      · obtain rfl := List.mem_singleton.mp validated
        exact clampLine_bounds script _
      · exact bounds_of_mem_map_clampIssue validated
    · exact bounds_of_mem_map_clampIssue shown

end StrategyMend.Detection
