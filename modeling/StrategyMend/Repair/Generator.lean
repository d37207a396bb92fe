import StrategyMend.Repair.Fix

/-!
# Generators of fixes and their registry

A generator proposes fixes for the issues that it claims. A registry holds generators by priority, in
the order in which they were registered. Each issue goes to the first generator that claims it and is
not switched off, and to that one only: it is the issue's single attempt.
-/

set_option autoImplicit false

namespace StrategyMend.Repair

/-- What comes of asking a generator for a fix. -/
inductive Attempt where
  | proposed (fix : Fix)
  /-- The generator has no fix. -/
  | declined
  /-- The generator could not work. -/
  | brokeDown
  deriving DecidableEq

/-- The attempt of a generator that cannot break down. -/
def Attempt.ofOption : Option Fix → Attempt
  | some fix => .proposed fix
  | none => .declined

/-- A way to propose fixes. -/
structure Generator where
  id : String
  /-- Whether the generator is for such issues at all. -/
  canFix : Issue → Bool
  /-- Whether the generator claims an issue in these lines. -/
  claims : Issue → List String → Bool
  generate : Issue → List String → Attempt

/-- A generator that claims every issue it is for. -/
def Generator.claimingAll (id : String) (canFix : Issue → Bool)
    (generate : Issue → List String → Attempt) : Generator :=
  ⟨id, canFix, fun issue _ => canFix issue, generate⟩

/-- Generators by priority, and the ids of those that are switched off. -/
structure Registry where
  generators : List Generator
  disabled : List String

/-- What comes of one pass over issues. -/
structure Proposals where
  fixes : List Fix
  failures : List Failure

namespace Registry

/-- No generators. -/
def empty : Registry := ⟨[], []⟩

/-- Adds a generator with the lowest priority. -/
def register (registry : Registry) (generator : Generator) : Registry :=
  { registry with generators := registry.generators ++ [generator] }

/-- Switches off the generators with an id. -/
def disable (registry : Registry) (id : String) : Registry :=
  { registry with disabled := id :: registry.disabled }

/-- Switches on the generators with an id. -/
def enable (registry : Registry) (id : String) : Registry :=
  { registry with disabled := registry.disabled.filter (· ≠ id) }

/-- Whether a generator is switched on. -/
def isEnabled (registry : Registry) (generator : Generator) : Bool :=
  !registry.disabled.contains generator.id

/-- The number of generators. -/
def count (registry : Registry) : Nat := registry.generators.length

/-- The ids of the generators by priority. -/
def ids (registry : Registry) : List String := registry.generators.map Generator.id

/-- The generator that an issue goes to. -/
def claimant? (registry : Registry) (issue : Issue) (lines : List String) : Option Generator :=
  registry.generators.find? fun generator =>
    registry.isEnabled generator && generator.claims issue lines

/-- The fix for an issue, or why there is none. -/
def generate (registry : Registry) (issue : Issue) (lines : List String) : Except Failure Fix :=
  match registry.claimant? issue lines with
  | none => .error ⟨issue, none, "no generator handles \x60" ++ issue.category.name ++ "\x60"⟩
  | some generator =>
    match generator.generate issue lines with
    | .proposed fix => .ok (fix.fromGenerator generator.id)
    | .declined => .error ⟨issue, some generator.id, "no fix available"⟩
    | .brokeDown => .error ⟨issue, some generator.id, "generator panicked"⟩

/-- The fixes for issues and the failures, both in the order of the issues. -/
def generateAll (registry : Registry) (issues : List Issue) (lines : List String) : Proposals :=
  let attempts := issues.map fun issue => registry.generate issue lines
  { fixes := attempts.filterMap Except.toOption
    failures := attempts.filterMap fun attempt =>
      match attempt with
      | .error failure => some failure
      | .ok _ => none }

end Registry

end StrategyMend.Repair
