import StrategyMend.Proofs.Detection.Distinct
import StrategyMend.Proofs.Pipeline.SoundBranches
import StrategyMend.Proofs.Python.InitialStatement
import StrategyMend.Proofs.Strategy.Inheritance

/-!
# What is reported for initializers

Only one detector reports that an initializer never sets the pending-order field. It does so at a
function of the source, the initializer of a strategy class, that has no statement in the tree that
assigns the field (`exists_function_of_mem_validate`). So where a line at the top of the body of a
function with a plain head assigns it, nothing is reported for this function
(`ne_line_of_header`).
-/

set_option autoImplicit false

namespace StrategyMend

open Source

/-! ## Methods -/

namespace Strategy

open Python

theorem functions_undecorated (statement : Statement) :
    statement.undecorated.functions = statement.functions := by
  cases statement with
  | decorated _ _ _ => rfl
  | _ => rfl

/-- The methods of a class are functions of its definition. -/
theorem mem_functions_of_classOf? {statement : Statement} {info : ClassInfo}
    (found : classOf? statement = some info) {method : FunctionInfo} (has : method ∈ info.methods) :
    method ∈ statement.functions := by
  cases statement with
  | classDef row name types bases body =>
    cases found
    obtain ⟨part, member, defined⟩ := List.mem_filterMap.mp has
    rw [Statement.functions, functionsIn_eq_flatMap]
    refine List.mem_flatMap.mpr ⟨part, member, ?_⟩
    rw [← functions_undecorated]
    cases undecorated : part.undecorated with
    | function _ _ _ _ _ _ =>
      rw [undecorated] at defined
      cases defined
      exact List.mem_cons_self
    | _ =>
      rw [undecorated] at defined
      cases defined
  | _ => cases found

mutual

theorem mem_functions_of_mem_classesBelow {info : ClassInfo} {method : FunctionInfo}
    (has : method ∈ info.methods) : (statement : Statement) → info ∈ classesBelow statement →
      method ∈ statement.functions
  | .block _ _ _ body, member => mem_functionsIn_of_mem_classesIn has body member
  | .function _ _ _ _ _ body, member =>
    List.mem_cons_of_mem _ (mem_functionsIn_of_mem_classesIn has body member)
  | .classDef _ _ _ _ body, member => mem_functionsIn_of_mem_classesIn has body member
  | .decorated _ _ definition, member => by
    rcases List.mem_append.mp member with own | below
    · exact mem_functions_of_classOf? (Option.mem_toList.mp own) has
    · exact mem_functions_of_mem_classesBelow has definition below
  | .expression _ _, member => nomatch member
  | .assignment _ _ _, member => nomatch member
  | .simple _ _, member => nomatch member
  | .imports _ _ _, member => nomatch member
  | .declaration _ _, member => nomatch member

/-- The methods of the classes of a source are functions of the source. -/
theorem mem_functionsIn_of_mem_classesIn {info : ClassInfo} {method : FunctionInfo}
    (has : method ∈ info.methods) : (statements : List Statement) → info ∈ classesIn statements →
      method ∈ functionsIn statements
  | [], member => nomatch member
  | statement :: rest, member => by
    rw [classesIn, List.mem_append, List.mem_append] at member
    rw [functionsIn, List.mem_append]
    rcases member with (own | below) | there
    · rw [← functions_undecorated]
      exact .inl (mem_functions_of_classOf? (Option.mem_toList.mp own) has)
    · exact .inl (mem_functions_of_mem_classesBelow has statement below)
    · exact .inr (mem_functionsIn_of_mem_classesIn has rest there)

end

end Strategy

/-! ## Issues of initializers -/

namespace Detection

open Python Strategy

variable {context : Context} {issue : Issue}

/-- Only one built-in detector looks at initializers. -/
theorem eq_fieldInit_of_category {detector : Detector} (listed : detector ∈ builtin)
    (member : issue ∈ (detector.detect context).getD [])
    (category : issue.category = .missingFieldInit) : detector = Detection.fieldInit := by
  simp only [builtin, List.mem_cons, List.not_mem_nil, or_false] at listed
  rcases listed with rfl | rfl | rfl | rfl | rfl | rfl
  · exact absurd (category ▸ isBranchDefect_of_orphanedBranch member) (by decide)
  · exact nomatch category.symm.trans (category_of_indentationMismatch member)
  · exact nomatch category.symm.trans (category_of_requiredMethod member)
  · rfl
  · exact nomatch category.symm.trans (category_of_guardCheck member)
  · exact nomatch category.symm.trans (category_of_variableReference member)

/-- The detector reports strategy classes at an initializer of their own that does not set the
field. -/
theorem exists_initializer_of_mem_fieldInit
    (member : issue ∈ (Detection.fieldInit.detect context).getD []) :
    ∃ tree info method, context.script.tree? = some tree ∧
      info ∈ (ClassIndex.ofStatements context.config.strategyBases tree.statements).strategies ∧
      info.ownMethod? context.config.initializer = some method ∧
      assignedIn context.config.pendingOrderField method.body = false ∧
      issue.line = method.row + 1 := by
  simp only [Detection.fieldInit, Option.getD_some, strategyIssues, classIndex?] at member
  cases parsed : context.script.tree? with
  | none =>
    rw [parsed] at member
    cases member
  | some tree =>
    rw [parsed] at member
    obtain ⟨info, strategy, found⟩ := List.mem_flatMap.mp member
    refine ⟨tree, info, ?_⟩
    cases own : info.ownMethod? context.config.initializer with
    | none =>
      rw [own] at found
      cases found
    | some method =>
      rw [own] at found
      dsimp only at found
      split at found
      · cases found
      rename_i unassigned
      split at found
      · cases found
      obtain rfl := List.mem_singleton.mp found
      exact ⟨method, rfl, strategy, rfl, by simpa using unassigned, rfl⟩

theorem exists_tree_of_isValid {name source : String}
    (valid : (Script.ofText name source).isValid = true) : ∃ tree, Source.parse source = .ok tree := by
  cases parsed : Source.parse source with
  | ok tree => exact ⟨tree, rfl⟩
  | error diagnostic => simp [Script.isValid, Script.ofText, Script.diagnostic?, parsed] at valid

/-- A script for which anything but a syntax error is reported parses. -/
theorem isValid_of_mem_validate {validator : Validator} {script : Script}
    (member : issue ∈ validator.validate script) (other : issue.category ≠ .syntaxError) :
    script.isValid = true := by
  rw [Validator.validate] at member
  rw [Script.isValid]
  split at member
  · obtain rfl := List.mem_singleton.mp member
    exact absurd rfl other
  · next none => rw [none, Option.isNone_none]

/-- What is reported for an initializer of a source that parses stands at a function of the source that
does not set the field. -/
theorem exists_function_of_mem_validate {name source : String} {tree : Module}
    (parsed : Source.parse source = .ok tree)
    (member : issue ∈ (Validator.standard .standard).validate (Script.ofText name source))
    (category : issue.category = .missingFieldInit) :
    ∃ function, FunctionBegun source.toList function ∧ assignedIn "order" function.body = false ∧
      issue.line = function.row + 1 := by
  rw [validate_eq_flatMap parsed] at member
  obtain ⟨detector, listed, detected⟩ := List.mem_flatMap.mp member
  obtain rfl := eq_fieldInit_of_category (List.mem_filter.mp listed).1 detected category
  obtain ⟨tree', info, method, here, strategy, own, unassigned, line⟩ :=
    exists_initializer_of_mem_fieldInit detected
  obtain rfl : tree' = tree := Option.some.inj (here.symm.trans (tree?_of_parse parsed))
  have inside := mem_functionsIn_of_mem_classesIn (List.mem_of_find?_eq_some own) _
    (ClassIndex.mem_classes_of_mem_strategies strategy)
  exact ⟨method, (Module.allBegun_of_read (read_of_parse parsed)).functions _ inside, unassigned, line⟩

/-- **Nothing is reported for a function that sets the field at the top of its body.** -/
theorem ne_line_of_header {name source : String} {above margin head indent preamble tail shown : List Char}
    {idles : List (List Char)} {c : Char} (valid : (Script.ofText name source).isValid = true)
    (header : HasHeader source.toList above margin head idles indent c shown)
    (begins : IsPreamble indent preamble)
    (first : c :: shown = preamble ++ ("self.order = ".toList ++ tail))
    (member : issue ∈ (Validator.standard .standard).validate (Script.ofText name source))
    (category : issue.category = .missingFieldInit) : issue.line ≠ above.count '\n' + 1 := by
  intro here
  obtain ⟨tree, parsed⟩ := exists_tree_of_isValid valid
  obtain ⟨function, begun, unassigned, line⟩ := exists_function_of_mem_validate parsed member category
  have assigned := begun.assignedIn_of_header header (Nat.succ.inj (line.symm.trans here)) begins first
  exact Bool.false_ne_true (unassigned.symm.trans assigned)

end Detection

end StrategyMend
