import Mathlib.Data.List.Nodup
import StrategyMend.Proofs.Python.ScopeComposition

/-!
# Names and the definitions around them

This module says where the names of a source are used, without any scope: `occurrencesIn` lists in the
order of the text what reads or binds names, each with the parts of definitions that enclose it. The
scope follows from these alone. Names belong to the outermost function that encloses them, else to the
innermost class body, else to the module (`owner`).

The walk agrees with that rule. It opens one scope for the module and one for each definition that no
function encloses, in the order of the text (`scopeOwners`); and what it records is what occurs, each
name in the scope of its owner (`walkModule_eq_collect`). No two definitions share a place in the tree,
so no two of them share a scope (`nodup_scopeOwners`).
-/

set_option autoImplicit false

namespace StrategyMend.Python

/-! ## What uses names -/

/-- What a part of a source does with names. -/
inductive NameUse where
  /-- A name is read. -/
  | read (name : String) (row : Nat)
  /-- Names are bound here: by an import, an assignment, a parameter, the clause of a loop or of a
  comprehension, `:=`, `as`, a pattern, or a definition. -/
  | bind (names : List String)
  /-- Names are declared `global` or `nonlocal`. -/
  | declare (names : List String)
  /-- A module is imported whole. -/
  | importAll
  deriving DecidableEq

/-- The names that are bound, if any. -/
def NameUse.boundNames : NameUse → List String
  | .bind names => names
  | .declare names => names
  | _ => []

/-- Whether names are declared. -/
def NameUse.isDeclaration : NameUse → Bool
  | .declare _ => true
  | _ => false

mutual

/-- An expression and all that it consists of, in the order of the text. -/
def Expression.subterms : Expression → List Expression
  | .name text row => [.name text row]
  | .attribute object member tail => .attribute object member tail :: object.subterms
  | .subscript parts => .subscript parts :: subtermsIn parts
  | .call function arguments =>
    .call function arguments :: (function.subterms ++ subtermsIn arguments)
  | .keyword label value => .keyword label value :: value.subterms
  | .string interpolated => .string interpolated :: subtermsIn interpolated
  | .collection items => .collection items :: subtermsIn items
  | .splat value => .splat value :: value.subterms
  | .lambda parameters body => .lambda parameters body :: (subtermsIn parameters ++ body.subterms)
  | .binding target parts => .binding target parts :: (target.subterms ++ subtermsIn parts)
  | .alias value target => .alias value target :: (value.subterms ++ target.subterms)
  | .capture names => [.capture names]
  | .operation operands => .operation operands :: subtermsIn operands

/-- Expressions and all that they consist of, in the order of the text. -/
def subtermsIn : List Expression → List Expression
  | [] => []
  | part :: rest => part.subterms ++ subtermsIn rest

end

/-- What an expression itself, its parts aside, does with names. -/
def Expression.use : Expression → List NameUse
  | .name text row => [.read text row]
  | .binding target _ => [.bind target.boundNames]
  | .alias _ target => [.bind target.boundNames]
  | .capture names => [.bind names]
  | _ => []

/-- What expressions do with names. -/
def usesIn (parts : List Expression) : List NameUse := (subtermsIn parts).flatMap Expression.use

/-- What the target of an assignment and its annotation do with names. -/
def Assigned.uses (assigned : Assigned) : List NameUse :=
  .bind assigned.target.boundNames :: usesIn (assigned.target :: assigned.hint.toList)

/-! ## The definitions around -/

/-- A place in a tree: the numbers of the statements on the way down to it, the last one first. -/
abbrev TreePath := List Nat

/-- A part of a definition that encloses what stands in it. -/
inductive Enclosure where
  /-- The body of the class that is defined at a place. -/
  | classBody (place : TreePath)
  /-- The parameters and the body of the function that is defined at a place. -/
  | function (place : TreePath)
  deriving DecidableEq

namespace Enclosure

/-- The place of the definition. -/
def place : Enclosure → TreePath
  | classBody place => place
  | function place => place

/-- Whether the definition is that of a function. -/
def isFunction : Enclosure → Bool
  | classBody _ => false
  | function _ => true

end Enclosure

/-- What has a scope of its own. -/
inductive ScopeOwner where
  | module
  /-- The class or function that is defined at a place. -/
  | definition (place : TreePath)
  deriving DecidableEq

/-- What owns the names that stand within parts of definitions, the outermost first: the outermost
function, else the innermost class, else the module. -/
def owner (within : List Enclosure) : ScopeOwner :=
  match within.find? Enclosure.isFunction with
  | some enclosure => .definition enclosure.place
  | none => (within.getLast?.map fun enclosure => .definition enclosure.place).getD .module

/-- A use of names with the parts of definitions around it, the outermost first. -/
structure Occurrence where
  use : NameUse
  within : List Enclosure
  deriving DecidableEq

/-- Uses of names within parts of definitions. -/
def occurring (within : List Enclosure) (uses : List NameUse) : List Occurrence :=
  uses.map fun use => ⟨use, within⟩

mutual

/-- The uses of names in the statement at a place. -/
def Statement.occurrences (place : TreePath) (within : List Enclosure) : Statement → List Occurrence
  | .expression _ parts => occurring within (usesIn parts)
  | .assignment _ targets value =>
    occurring within (targets.flatMap Assigned.uses ++ usesIn value)
  | .simple _ parts => occurring within (usesIn parts)
  | .imports _ names wildcard =>
    occurring within (.bind names :: if wildcard then [.importAll] else [])
  | .declaration _ names => occurring within [.declare names]
  | .block _ _ head body =>
    occurring within (usesIn head) ++ occurrencesIn place within 0 body
  | .classDef _ name _ bases body =>
    occurring within (.bind [name] :: usesIn bases) ++
      occurrencesIn place (within ++ [.classBody place]) 0 body
  | .function _ name _ parameters returns body =>
    ⟨.bind [name], within⟩ ::
      (occurring (within ++ [.function place]) (usesIn parameters) ++
        (occurring within (usesIn returns) ++
          occurrencesIn place (within ++ [.function place]) 0 body))
  | .decorated _ decorators definition =>
    occurring within (usesIn decorators) ++ definition.occurrences place within

/-- The uses of names in the statements below a place, the first of which has the number `index`. -/
def occurrencesIn (place : TreePath) (within : List Enclosure) (index : Nat) :
    List Statement → List Occurrence
  | [] => []
  | statement :: rest =>
    statement.occurrences (index :: place) within ++ occurrencesIn place within (index + 1) rest

end

/-- A definition with its place and the parts of definitions around it. -/
structure Site where
  place : TreePath
  within : List Enclosure
  definition : Statement

mutual

/-- The definitions in the statement at a place, an outer one before those inside it. -/
def Statement.sites (place : TreePath) (within : List Enclosure) : Statement → List Site
  | .block _ _ _ body => sitesIn place within 0 body
  | .classDef row name typeParameters bases body =>
    ⟨place, within, .classDef row name typeParameters bases body⟩ ::
      sitesIn place (within ++ [.classBody place]) 0 body
  | .function row name typeParameters parameters returns body =>
    ⟨place, within, .function row name typeParameters parameters returns body⟩ ::
      sitesIn place (within ++ [.function place]) 0 body
  | .decorated _ _ definition => definition.sites place within
  | _ => []

/-- The definitions in the statements below a place, the first of which has the number `index`. -/
def sitesIn (place : TreePath) (within : List Enclosure) (index : Nat) : List Statement → List Site
  | [] => []
  | statement :: rest =>
    statement.sites (index :: place) within ++ sitesIn place within (index + 1) rest

end

/-- Whether a definition has a scope of its own: no function encloses it. -/
def Site.ownsScope (site : Site) : Bool := !site.within.any Enclosure.isFunction

/-- The definitions among these that have scopes of their own. -/
def ownersAt (sites : List Site) : List ScopeOwner :=
  (sites.filter Site.ownsScope).map fun site => .definition site.place

/-- What has a scope in a module, in the order of the text. -/
def scopeOwners (statements : List Statement) : List ScopeOwner :=
  .module :: ownersAt (sitesIn [] [] 0 statements)

/-! ## What a walk records of occurrences -/

/-- What is recorded of a use of names if the scopes are numbered like this. -/
def Occurrence.walk (number : ScopeOwner → ScopeId) (occurrence : Occurrence) : Walk :=
  let scope := number (owner occurrence.within)
  match occurrence.use with
  | .read name row => .read name row scope
  | .bind names => .bind names scope
  | .declare names => .bind names scope ++ .bind names moduleScope
  | .importAll => ⟨[], [], true⟩

/-- What is recorded of uses of names. -/
def collect (number : ScopeOwner → ScopeId) : List Occurrence → Walk
  | [] => .empty
  | occurrence :: rest => occurrence.walk number ++ collect number rest

section Collect

variable {number : ScopeOwner → ScopeId} {within : List Enclosure} {scope : ScopeId}

theorem Walk.append_empty (walk : Walk) : walk ++ Walk.empty = walk := by
  change Walk.mk _ _ _ = walk
  simp [Walk.empty]

@[simp]
theorem collect_nil : collect number [] = .empty := rfl

theorem collect_cons (occurrence : Occurrence) (rest : List Occurrence) :
    collect number (occurrence :: rest) = occurrence.walk number ++ collect number rest := rfl

theorem collect_append (first second : List Occurrence) :
    collect number (first ++ second) = collect number first ++ collect number second := by
  induction first with
  | nil => rfl
  | cons occurrence rest ih =>
    rw [List.cons_append, collect_cons, collect_cons, ih, Walk.append_assoc]

theorem collect_occurring_cons (use : NameUse) (uses : List NameUse) :
    collect number (occurring within (use :: uses)) =
      (Occurrence.mk use within).walk number ++ collect number (occurring within uses) := rfl

theorem collect_occurring_append (first second : List NameUse) :
    collect number (occurring within (first ++ second)) =
      collect number (occurring within first) ++ collect number (occurring within second) := by
  rw [occurring, List.map_append, collect_append]
  rfl

mutual

/-- What is recorded of an expression is what it and its parts do with names. -/
theorem Expression.walk_eq_collect (current : number (owner within) = scope) :
    (expression : Expression) → expression.walk scope =
      collect number (occurring within (expression.subterms.flatMap Expression.use))
  | .name _ _ => by
    rw [Expression.walk, ← current]
    exact (Walk.append_empty _).symm
  | .attribute object _ _ => by
    rw [Expression.walk, object.walk_eq_collect current]
    rfl
  | .subscript parts => by
    rw [Expression.walk, walkAll_eq_collect current parts]
    rfl
  | .call function arguments => by
    rw [Expression.walk, function.walk_eq_collect current, walkAll_eq_collect current arguments,
      Expression.subterms, List.flatMap_cons, List.flatMap_append, usesIn,
      ← collect_occurring_append]
    rfl
  | .keyword _ value => by
    rw [Expression.walk, value.walk_eq_collect current]
    rfl
  | .string interpolated => by
    rw [Expression.walk, walkAll_eq_collect current interpolated]
    rfl
  | .collection items => by
    rw [Expression.walk, walkAll_eq_collect current items]
    rfl
  | .splat value => by
    rw [Expression.walk, value.walk_eq_collect current]
    rfl
  | .lambda parameters body => by
    rw [Expression.walk, walkAll_eq_collect current parameters, body.walk_eq_collect current,
      Expression.subterms, List.flatMap_cons, List.flatMap_append, usesIn,
      ← collect_occurring_append]
    rfl
  | .binding target parts => by
    rw [Expression.walk, target.walk_eq_collect current, walkAll_eq_collect current parts,
      Expression.subterms, List.flatMap_cons, List.flatMap_append, Walk.append_assoc, usesIn,
      ← collect_occurring_append, ← current]
    rfl
  | .alias value target => by
    rw [Expression.walk, value.walk_eq_collect current, target.walk_eq_collect current,
      Expression.subterms, List.flatMap_cons, List.flatMap_append, Walk.append_assoc,
      ← collect_occurring_append, ← current]
    rfl
  | .capture _ => by
    rw [Expression.walk, ← current]
    exact (Walk.append_empty _).symm
  | .operation operands => by
    rw [Expression.walk, walkAll_eq_collect current operands]
    rfl

theorem walkAll_eq_collect (current : number (owner within) = scope) :
    (parts : List Expression) →
      walkAll scope parts = collect number (occurring within (usesIn parts))
  | [] => rfl
  | part :: rest => by
    rw [walkAll, part.walk_eq_collect current, walkAll_eq_collect current rest, usesIn, usesIn,
      subtermsIn, List.flatMap_append, collect_occurring_append]

end

theorem Assigned.walk_eq_collect (current : number (owner within) = scope) (assigned : Assigned) :
    assigned.walk scope = collect number (occurring within assigned.uses) := by
  have parts := walkAll_eq_collect current (assigned.target :: assigned.hint.toList)
  rw [Assigned.uses, collect_occurring_cons, ← parts, Assigned.walk, walkAll, Walk.append_assoc,
    ← current]
  cases assigned.hint with
  | none => rfl
  | some hint => rw [Option.toList_some, walkAll, walkAll, Walk.append_empty]; rfl

theorem walkTargets_eq_collect (current : number (owner within) = scope) (targets : List Assigned) :
    walkTargets scope targets = collect number (occurring within (targets.flatMap Assigned.uses)) := by
  induction targets with
  | nil => rfl
  | cons assigned rest ih =>
    rw [walkTargets, assigned.walk_eq_collect current, ih, List.flatMap_cons,
      collect_occurring_append]

end Collect

/-! ## The scopes of definitions -/

section Owners

variable {within : List Enclosure} {place : TreePath}

theorem owner_of_encloses (inside : within.any Enclosure.isFunction = true) (inner : Enclosure) :
    owner (within ++ [inner]) = owner within := by
  have enclosed : (within.find? Enclosure.isFunction).isSome = true :=
    List.find?_isSome.mpr (List.any_eq_true.mp inside)
  obtain ⟨enclosure, found⟩ := Option.isSome_iff_exists.mp enclosed
  rw [owner, owner, List.find?_append, found]
  rfl

/-- Outside of functions, what stands in a part of a definition belongs to that definition. -/
theorem owner_of_not_encloses (outside : within.any Enclosure.isFunction = false)
    (inner : Enclosure) : owner (within ++ [inner]) = .definition inner.place := by
  have none : within.find? Enclosure.isFunction = none :=
    List.find?_eq_none.mpr (by simpa using outside)
  rw [owner, List.find?_append, none, List.getLast?_concat]
  cases inner <;> rfl

end Owners

/-- Owners have numbers in their order from `next` on. -/
def NumberedFrom (number : ScopeOwner → ScopeId) (next : ScopeId) (owners : List ScopeOwner) : Prop :=
  owners.map number = List.range' next owners.length

/-- Statements that are enclosed by parts of definitions have the scope of what owns their names. -/
structure Follows (number : ScopeOwner → ScopeId) (within : List Enclosure) (context : ScopeContext) :
    Prop where
  scope : number (owner within) = context.scope
  kind : context.kind = .function ↔ within.any Enclosure.isFunction = true

section Numbering

variable {number : ScopeOwner → ScopeId} {next : ScopeId} {within : List Enclosure}

theorem numberedFrom_append {first second : List ScopeOwner} :
    NumberedFrom number next (first ++ second) ↔
      NumberedFrom number next first ∧ NumberedFrom number (next + first.length) second := by
  rw [NumberedFrom, List.map_append, List.length_append, ← List.range'_append_1]
  exact ⟨fun same => List.append_inj same (by simp), fun ⟨front, back⟩ => front ▸ back ▸ rfl⟩

theorem numberedFrom_cons {first : ScopeOwner} {rest : List ScopeOwner} :
    NumberedFrom number next (first :: rest) ↔
      number first = next ∧ NumberedFrom number (next + 1) rest := by
  rw [NumberedFrom, List.map_cons, List.length_cons, List.range'_succ, List.cons_eq_cons]
  rfl

theorem ownersAt_append (first second : List Site) :
    ownersAt (first ++ second) = ownersAt first ++ ownersAt second := by
  rw [ownersAt, List.filter_append, List.map_append]
  rfl

theorem ownersAt_cons_of_encloses {site : Site}
    (inside : site.within.any Enclosure.isFunction = true) (rest : List Site) :
    ownersAt (site :: rest) = ownersAt rest := by
  rw [ownersAt, List.filter_cons_of_neg (by simp [Site.ownsScope, inside])]
  rfl

theorem ownersAt_cons_of_not_encloses {site : Site}
    (outside : site.within.any Enclosure.isFunction = false) (rest : List Site) :
    ownersAt (site :: rest) = .definition site.place :: ownersAt rest := by
  rw [ownersAt, List.filter_cons_of_pos (by simp [Site.ownsScope, outside])]
  rfl

/-- The scope of the statements in a definition is again that of what owns their names. -/
theorem Follows.enter {context : ScopeContext} (follows : Follows number within context)
    (kind : ScopeKind) (inner : Enclosure) (fits : kind = .function ↔ inner.isFunction = true)
    {definition : Statement} {rest : List Site}
    (numbered : NumberedFrom number next (ownersAt (⟨inner.place, within, definition⟩ :: rest))) :
    Follows number (within ++ [inner]) (context.enter kind next).1 ∧
      NumberedFrom number (context.enter kind next).2 (ownersAt rest) ∧
        (context.enter kind next).2 + (ownersAt rest).length =
          next + (ownersAt (⟨inner.place, within, definition⟩ :: rest)).length := by
  cases inside : within.any Enclosure.isFunction with
  | true =>
    have entered : context.enter kind next = (context, next) := by
      rw [ScopeContext.enter, follows.kind.mpr inside]
    rw [ownersAt_cons_of_encloses inside] at numbered ⊢
    rw [entered]
    refine ⟨⟨?_, ?_⟩, numbered, rfl⟩
    · rw [owner_of_encloses inside, follows.scope]
    · rw [follows.kind, List.any_append, inside, Bool.true_or]
  | false =>
    have entered : context.enter kind next = (⟨next, kind⟩, next + 1) := by
      have outside : context.kind ≠ .function := fun same => by
        rw [follows.kind, inside] at same
        cases same
      obtain ⟨scope, _ | _ | _⟩ := context
      · rfl
      · rfl
      · exact absurd rfl outside
    rw [ownersAt_cons_of_not_encloses inside] at numbered ⊢
    obtain ⟨first, numbered⟩ := numberedFrom_cons.mp numbered
    rw [entered]
    refine ⟨⟨?_, ?_⟩, numbered, by rw [List.length_cons, Nat.add_right_comm, Nat.add_assoc]⟩
    · rw [owner_of_not_encloses inside, first]
    · rw [fits, List.any_append, inside]
      simp

mutual

/-- **The walk over a statement records what occurs in it, in the scopes of the owners.** -/
theorem Statement.walk_eq_collect {context : ScopeContext} {next : ScopeId} {place : TreePath}
    {within : List Enclosure} (follows : Follows number within context) : (statement : Statement) →
      NumberedFrom number next (ownersAt (statement.sites place within)) →
      statement.walk context next = (collect number (statement.occurrences place within),
        next + (ownersAt (statement.sites place within)).length)
  | .expression _ parts, _ => by
    rw [Statement.walk, walkAll_eq_collect follows.scope]
    rfl
  | .assignment _ targets value, _ => by
    rw [Statement.walk, walkTargets_eq_collect follows.scope, walkAll_eq_collect follows.scope,
      ← collect_occurring_append]
    rfl
  | .simple _ parts, _ => by
    rw [Statement.walk, walkAll_eq_collect follows.scope]
    rfl
  | .imports _ names wildcard, _ => by
    rw [Statement.walk, Statement.occurrences, ← follows.scope]
    cases wildcard <;> rfl
  | .declaration _ names, _ => by
    rw [Statement.walk, Statement.occurrences, ← follows.scope]
    exact Prod.ext (Walk.append_empty _).symm rfl
  | .block _ _ head body, numbered => by
    simp only [Statement.walk, walkStatements_eq_collect follows 0 body numbered,
      walkAll_eq_collect follows.scope, Statement.occurrences, collect_append]
    rfl
  | .classDef row name typeParameters bases body, numbered => by
    obtain ⟨inner, numbered, count⟩ := follows.enter .classBody (.classBody place)
      (by simp [Enclosure.isFunction]) numbered
    simp only [Statement.walk, walkStatements_eq_collect inner 0 body numbered, count,
      walkAll_eq_collect follows.scope, Statement.occurrences, collect_append,
      collect_occurring_cons]
    rw [← follows.scope]
    rfl
  | .function row name typeParameters parameters returns body, numbered => by
    obtain ⟨inner, numbered, count⟩ := follows.enter .function (.function place)
      (by simp [Enclosure.isFunction]) numbered
    simp only [Statement.walk, walkStatements_eq_collect inner 0 body numbered, count,
      walkAll_eq_collect follows.scope, walkAll_eq_collect inner.scope, Statement.occurrences,
      collect_cons, collect_append, Walk.append_assoc]
    rw [← follows.scope]
    rfl
  | .decorated _ decorators definition, numbered => by
    simp only [Statement.walk, definition.walk_eq_collect follows numbered,
      walkAll_eq_collect follows.scope, Statement.occurrences, collect_append]
    rfl

theorem walkStatements_eq_collect {context : ScopeContext} {next : ScopeId} {place : TreePath}
    {within : List Enclosure} (follows : Follows number within context) (index : Nat) :
    (statements : List Statement) →
      NumberedFrom number next (ownersAt (sitesIn place within index statements)) →
      walkStatements context next statements =
        (collect number (occurrencesIn place within index statements),
          next + (ownersAt (sitesIn place within index statements)).length)
  | [], _ => rfl
  | statement :: rest, numbered => by
    rw [sitesIn, ownersAt_append, numberedFrom_append] at numbered
    simp only [walkStatements, statement.walk_eq_collect follows numbered.1,
      walkStatements_eq_collect follows (index + 1) rest numbered.2, occurrencesIn, collect_append,
      sitesIn, ownersAt_append, List.length_append, Nat.add_assoc]

end

end Numbering

/-! ## Places -/

/-- Definitions that stand at a place or below it, no two of them at the same place. -/
structure StandAt (place : TreePath) (sites : List Site) : Prop where
  suffix : ∀ site ∈ sites, place <:+ site.place
  nodup : (sites.map Site.place).Nodup

/-- Definitions in the statements below a place from the number `index` on, no two of them at the same
place. -/
structure StandBelow (place : TreePath) (index : Nat) (sites : List Site) : Prop where
  suffix : ∀ site ∈ sites, ∃ number, index ≤ number ∧ number :: place <:+ site.place
  nodup : (sites.map Site.place).Nodup

section Places

variable {place : TreePath} {index : Nat} {first second : List Site}

theorem StandBelow.at (below : StandBelow place index first) : StandAt place first where
  suffix site member := by
    obtain ⟨number, -, suffix⟩ := below.suffix site member
    exact (List.suffix_cons number place).trans suffix
  nodup := below.nodup

/-- A definition stands above those inside it. -/
theorem StandBelow.cons (below : StandBelow place index first) (within : List Enclosure)
    (definition : Statement) : StandAt place (⟨place, within, definition⟩ :: first) where
  suffix site member := by
    rcases List.mem_cons.mp member with rfl | inside
    · exact List.suffix_rfl
    · exact below.at.suffix site inside
  nodup := by
    refine List.nodup_cons.mpr ⟨fun member => ?_, below.nodup⟩
    obtain ⟨site, member, same⟩ := List.mem_map.mp member
    obtain ⟨number, -, suffix⟩ := below.suffix site member
    have longer := suffix.length_le
    rw [same, List.length_cons] at longer
    exact Nat.not_succ_le_self _ longer

theorem StandAt.append (here : StandAt (index :: place) first)
    (behind : StandBelow place (index + 1) second) : StandBelow place index (first ++ second) where
  suffix site member := by
    rcases List.mem_append.mp member with member | member
    · exact ⟨index, Nat.le_refl index, here.suffix site member⟩
    · obtain ⟨number, order, suffix⟩ := behind.suffix site member
      exact ⟨number, Nat.le_of_succ_le order, suffix⟩
  nodup := by
    rw [List.map_append]
    refine here.nodup.append behind.nodup fun shared inFirst inSecond => ?_
    obtain ⟨site, member, rfl⟩ := List.mem_map.mp inFirst
    obtain ⟨other, member', same⟩ := List.mem_map.mp inSecond
    obtain ⟨number, order, suffix⟩ := behind.suffix other member'
    rw [same] at suffix
    have meets := List.suffix_of_suffix_length_le suffix (here.suffix site member) (Nat.le_refl _)
    have numbers := (List.cons.inj (meets.eq_of_length rfl)).1
    omega

mutual

theorem Statement.sites_standAt (place : TreePath) (within : List Enclosure) :
    (statement : Statement) → StandAt place (statement.sites place within)
  | .expression _ _ => ⟨nofun, List.nodup_nil⟩
  | .assignment _ _ _ => ⟨nofun, List.nodup_nil⟩
  | .simple _ _ => ⟨nofun, List.nodup_nil⟩
  | .imports _ _ _ => ⟨nofun, List.nodup_nil⟩
  | .declaration _ _ => ⟨nofun, List.nodup_nil⟩
  | .block _ _ _ body => (sitesIn_standBelow place within 0 body).at
  | .classDef row name typeParameters bases body => by
    rw [Statement.sites]
    exact (sitesIn_standBelow place _ 0 body).cons within _
  | .function row name typeParameters parameters returns body => by
    rw [Statement.sites]
    exact (sitesIn_standBelow place _ 0 body).cons within _
  | .decorated _ _ definition => definition.sites_standAt place within

/-- No two definitions stand at the same place. -/
theorem sitesIn_standBelow (place : TreePath) (within : List Enclosure) (index : Nat) :
    (statements : List Statement) → StandBelow place index (sitesIn place within index statements)
  | [] => ⟨nofun, List.nodup_nil⟩
  | statement :: rest =>
    (statement.sites_standAt (index :: place) within).append
      (sitesIn_standBelow place within (index + 1) rest)

end

end Places

/-- **No two definitions of a module have the same scope.** -/
theorem nodup_scopeOwners (statements : List Statement) : (scopeOwners statements).Nodup := by
  have places := (sitesIn_standBelow [] [] 0 statements).nodup
  have kept : (((sitesIn [] [] 0 statements).filter Site.ownsScope).map Site.place).Nodup :=
    places.sublist (List.filter_sublist.map _)
  refine List.nodup_cons.mpr ⟨fun member => ?_, ?_⟩
  · obtain ⟨site, -, same⟩ := List.mem_map.mp member
    cases same
  · rw [ownersAt, ← Function.comp_def, ← List.map_map]
    exact kept.map fun _ _ same => ScopeOwner.definition.inj same

/-! ## Whole modules -/

/-- The uses of names in a module. -/
def occurrencesOf (statements : List Statement) : List Occurrence := occurrencesIn [] [] 0 statements

/-- The scope of an owner in a module. -/
def scopeOf (statements : List Statement) (owner : ScopeOwner) : ScopeId :=
  (scopeOwners statements).idxOf owner

theorem scopeOf_module (statements : List Statement) : scopeOf statements .module = moduleScope :=
  List.idxOf_cons_self

/-- Owners with the same scope are the same. -/
theorem scopeOf_inj {statements : List Statement} {owned other : ScopeOwner}
    (member : owned ∈ scopeOwners statements) :
    scopeOf statements owned = scopeOf statements other ↔ owned = other :=
  List.idxOf_inj member

theorem map_idxOf {α : Type} [DecidableEq α] {l : List α} (nodup : l.Nodup) :
    l.map l.idxOf = List.range l.length := by
  refine List.ext_getElem (by simp) fun index inside _ => ?_
  rw [List.length_map] at inside
  simp [nodup.idxOf_getElem]

/-- **The walk over a module records what occurs in it, in the scopes of the owners,** and it opens no
other scopes. -/
theorem walkModule_eq_collect (statements : List Statement) :
    walkModule statements = collect (scopeOf statements) (occurrencesOf statements) ∧
      1 + opened statements = (scopeOwners statements).length := by
  have numbers := map_idxOf (nodup_scopeOwners statements)
  rw [List.range_eq_range', scopeOwners] at numbers
  obtain ⟨module, numbered⟩ := numberedFrom_cons.mp numbers
  have follows : Follows (scopeOf statements) [] moduleContext := ⟨module, by decide⟩
  have walked := walkStatements_eq_collect follows 0 statements numbered
  rw [← next_eq_opened, walked, scopeOwners, List.length_cons, Nat.add_comm]
  exact ⟨congrArg Prod.fst walked, rfl⟩

/-! ## Owners of what occurs -/

/-- What occurs within parts of definitions belongs to what owns the names there, or to a definition
among these. -/
def Owned (within : List Enclosure) (sites : List Site) (occurrences : List Occurrence) : Prop :=
  ∀ occurrence ∈ occurrences,
    owner occurrence.within = owner within ∨ owner occurrence.within ∈ ownersAt sites

section Owned

variable {within : List Enclosure} {first second : List Site} {here there : List Occurrence}

theorem owned_occurring (sites : List Site) (uses : List NameUse) :
    Owned within sites (occurring within uses) := by
  intro occurrence member
  obtain ⟨use, -, rfl⟩ := List.mem_map.mp member
  exact .inl rfl

theorem Owned.append (owned : Owned within first here) (owned' : Owned within second there) :
    Owned within (first ++ second) (here ++ there) := by
  intro occurrence member
  rw [ownersAt_append, List.mem_append]
  rcases List.mem_append.mp member with member | member
  · exact (owned occurrence member).imp_right .inl
  · exact (owned' occurrence member).imp_right .inr

/-- What occurs beside the same definitions. -/
theorem Owned.both (owned : Owned within first here) (owned' : Owned within first there) :
    Owned within first (here ++ there) :=
  fun occurrence member => (List.mem_append.mp member).elim (owned occurrence) (owned' occurrence)

/-- What occurs in a definition belongs to it, unless a function encloses the definition. -/
theorem Owned.enter (inner : Enclosure) (definition : Statement)
    (owned : Owned (within ++ [inner]) first here) :
    Owned within (⟨inner.place, within, definition⟩ :: first) here := by
  intro occurrence member
  have belongs := owned occurrence member
  cases inside : within.any Enclosure.isFunction with
  | true =>
    rw [owner_of_encloses inside] at belongs
    rwa [ownersAt_cons_of_encloses inside]
  | false =>
    rw [owner_of_not_encloses inside, ← List.mem_cons] at belongs
    rw [ownersAt_cons_of_not_encloses inside]
    exact .inr belongs

mutual

theorem Statement.occurrences_owned (place : TreePath) (within : List Enclosure) :
    (statement : Statement) →
      Owned within (statement.sites place within) (statement.occurrences place within)
  | .expression _ _ => owned_occurring _ _
  | .assignment _ _ _ => owned_occurring _ _
  | .simple _ _ => owned_occurring _ _
  | .imports _ _ _ => owned_occurring _ _
  | .declaration _ _ => owned_occurring _ _
  | .block _ _ _ body => (owned_occurring _ _).both (occurrencesIn_owned place within 0 body)
  | .classDef _ _ _ _ body => by
    rw [Statement.sites, Statement.occurrences]
    exact (owned_occurring _ _).both
      ((occurrencesIn_owned place _ 0 body).enter (.classBody place) _)
  | .function _ name _ parameters returns body => by
    have signature := (owned_occurring _ (usesIn parameters)).both
      (occurrencesIn_owned place (within ++ [.function place]) 0 body)
    rw [Statement.sites, Statement.occurrences]
    refine (owned_occurring _ [.bind [name]]).both (fun occurrence member => ?_)
    rcases List.mem_append.mp member with parameter | outside
    · exact signature.enter (.function place) _ occurrence (List.mem_append_left _ parameter)
    · rcases List.mem_append.mp outside with returned | inside
      · exact owned_occurring _ _ occurrence returned
      · exact signature.enter (.function place) _ occurrence (List.mem_append_right _ inside)
  | .decorated _ _ definition =>
    (owned_occurring _ _).both (definition.occurrences_owned place within)

theorem occurrencesIn_owned (place : TreePath) (within : List Enclosure) (index : Nat) :
    (statements : List Statement) →
      Owned within (sitesIn place within index statements)
        (occurrencesIn place within index statements)
  | [] => nofun
  | statement :: rest =>
    (statement.occurrences_owned (index :: place) within).append
      (occurrencesIn_owned place within (index + 1) rest)

end

/-- What occurs in a module belongs to something that has a scope there. -/
theorem owner_mem_scopeOwners {statements : List Statement} {occurrence : Occurrence}
    (member : occurrence ∈ occurrencesOf statements) :
    owner occurrence.within ∈ scopeOwners statements :=
  List.mem_cons.mpr (occurrencesIn_owned [] [] 0 statements occurrence member)

end Owned

/-! ## Definitions among others -/

section Inside

variable {site : Site}

mutual

/-- A definition stands in the statement, so what occurs in it occurs in the statement. -/
theorem Statement.occurrences_subset (place : TreePath) (within : List Enclosure) :
    (statement : Statement) → site ∈ statement.sites place within →
      site.definition.occurrences site.place site.within ⊆ statement.occurrences place within
  | .block _ _ _ body, member =>
    List.subset_append_of_subset_right _ (occurrencesIn_subset place within 0 body member)
  | .classDef _ _ _ _ body, member => by
    rcases List.mem_cons.mp member with rfl | inside
    · exact List.Subset.refl _
    · exact List.subset_append_of_subset_right _ (occurrencesIn_subset place _ 0 body inside)
  | .function _ _ _ _ _ body, member => by
    rcases List.mem_cons.mp member with rfl | inside
    · exact List.Subset.refl _
    · refine List.subset_cons_of_subset _ (List.subset_append_of_subset_right _ ?_)
      exact List.subset_append_of_subset_right _ (occurrencesIn_subset place _ 0 body inside)
  | .decorated _ _ definition, member =>
    List.subset_append_of_subset_right _ (definition.occurrences_subset place within member)

theorem occurrencesIn_subset (place : TreePath) (within : List Enclosure) (index : Nat) :
    (statements : List Statement) → site ∈ sitesIn place within index statements →
      site.definition.occurrences site.place site.within ⊆
        occurrencesIn place within index statements
  | statement :: rest, member => by
    rw [sitesIn, List.mem_append] at member
    rcases member with here | there
    · exact List.subset_append_of_subset_left _ (statement.occurrences_subset _ within here)
    · exact List.subset_append_of_subset_right _ (occurrencesIn_subset place within _ rest there)

end

end Inside

/-! ## What a module reads and binds -/

/-- What is recorded of a name that is read. -/
def Occurrence.read? (number : ScopeOwner → ScopeId) (occurrence : Occurrence) : Option NameRead :=
  match occurrence.use with
  | .read name row => some ⟨name, row, number (owner occurrence.within)⟩
  | _ => none

/-- Whether a name is bound for an owner: where a construct stands that belongs to it, or, if it is
the module, by any declaration. The empty name is never bound. -/
def Occurrence.Binds (occurrence : Occurrence) (name : String) (owned : ScopeOwner) : Prop :=
  name ≠ "" ∧ name ∈ occurrence.use.boundNames ∧
    (owned = owner occurrence.within ∨ owned = .module ∧ occurrence.use.isDeclaration = true)

instance (occurrence : Occurrence) (name : String) (owned : ScopeOwner) :
    Decidable (occurrence.Binds name owned) :=
  inferInstanceAs (Decidable (_ ∧ _ ∧ _))

/-- Whether a name of an owner resolves: it is bound for the owner or for the module. -/
def ResolvesFor (occurrences : List Occurrence) (name : String) (owned : ScopeOwner) : Prop :=
  ∃ occurrence ∈ occurrences, occurrence.Binds name owned ∨ occurrence.Binds name .module

instance (occurrences : List Occurrence) (name : String) (owned : ScopeOwner) :
    Decidable (ResolvesFor occurrences name owned) :=
  inferInstanceAs (Decidable (∃ occurrence ∈ occurrences, _))

section Recorded

variable {number : ScopeOwner → ScopeId} {statements : List Statement} {name : String}

theorem reads_collect (occurrences : List Occurrence) :
    (collect number occurrences).reads = occurrences.filterMap (Occurrence.read? number) := by
  induction occurrences with
  | nil => rfl
  | cons occurrence rest ih =>
    obtain ⟨use, within⟩ := occurrence
    rw [collect_cons, Walk.reads_append, ih]
    cases use <;> rfl

/-- The names that are read, each in the scope of its owner. -/
theorem reads_walkModule (statements : List Statement) :
    (walkModule statements).reads =
      (occurrencesOf statements).filterMap (Occurrence.read? (scopeOf statements)) := by
  rw [(walkModule_eq_collect statements).1, reads_collect]

theorem wildcard_collect (occurrences : List Occurrence) :
    (collect number occurrences).wildcard =
      occurrences.any fun occurrence => occurrence.use = .importAll := by
  induction occurrences with
  | nil => rfl
  | cons occurrence rest ih =>
    have here : (occurrence.walk number).wildcard = decide (occurrence.use = .importAll) := by
      obtain ⟨use, within⟩ := occurrence
      cases use <;> rfl
    rw [List.any_cons, ← ih, ← here]
    rfl

theorem mem_bindings_bind {names : List String} {scope other : ScopeId} :
    ⟨name, scope⟩ ∈ (Walk.bind names other).bindings ↔ name ≠ "" ∧ name ∈ names ∧ scope = other := by
  simp only [Walk.bind, List.mem_map, List.mem_filter, decide_eq_true_eq, NameBinding.mk.injEq]
  constructor
  · rintro ⟨_, ⟨member, solid⟩, rfl, rfl⟩
    exact ⟨solid, member, rfl⟩
  · rintro ⟨solid, member, rfl⟩
    exact ⟨name, ⟨member, solid⟩, rfl, rfl⟩

theorem mem_bindings_walk {occurrence : Occurrence} {scope : ScopeId} :
    ⟨name, scope⟩ ∈ (occurrence.walk number).bindings ↔
      name ≠ "" ∧ name ∈ occurrence.use.boundNames ∧
        (scope = number (owner occurrence.within) ∨
          scope = moduleScope ∧ occurrence.use.isDeclaration = true) := by
  obtain ⟨use, within⟩ := occurrence
  cases use with
  | read => simp [Occurrence.walk, Walk.read, NameUse.boundNames]
  | bind => simp [Occurrence.walk, mem_bindings_bind, NameUse.boundNames, NameUse.isDeclaration]
  | declare =>
    simp only [Occurrence.walk, Walk.bindings_append, List.mem_append, mem_bindings_bind,
      NameUse.boundNames, NameUse.isDeclaration, and_true]
    grind
  | importAll => simp [Occurrence.walk, NameUse.boundNames]

theorem mem_bindings_collect {occurrences : List Occurrence} {binding : NameBinding} :
    binding ∈ (collect number occurrences).bindings ↔
      ∃ occurrence ∈ occurrences, binding ∈ (occurrence.walk number).bindings := by
  induction occurrences with
  | nil => simp [Walk.empty]
  | cons occurrence rest ih =>
    rw [collect_cons, Walk.bindings_append, List.mem_append, ih, List.exists_mem_cons_iff]

/-- **A scope binds a name if and only if a construct that belongs to its owner does.** -/
theorem binds_scopeOf {owned : ScopeOwner} (member : owned ∈ scopeOwners statements) :
    (walkModule statements).binds name (scopeOf statements owned) = true ↔
      ∃ occurrence ∈ occurrencesOf statements, occurrence.Binds name owned := by
  rw [Walk.binds_iff, (walkModule_eq_collect statements).1, mem_bindings_collect]
  refine exists_congr fun occurrence => and_congr_right fun occurs => ?_
  rw [mem_bindings_walk, Occurrence.Binds, ← scopeOf_module statements, scopeOf_inj member,
    scopeOf_inj member]

theorem resolves_scopeOf {owned : ScopeOwner} (member : owned ∈ scopeOwners statements) :
    (walkModule statements).resolves name (scopeOf statements owned) = true ↔
      ResolvesFor (occurrencesOf statements) name owned := by
  rw [Walk.resolves, Bool.or_eq_true, binds_scopeOf member, ← scopeOf_module statements,
    binds_scopeOf List.mem_cons_self, ResolvesFor]
  simp only [and_or_left, exists_or]

end Recorded

end StrategyMend.Python
