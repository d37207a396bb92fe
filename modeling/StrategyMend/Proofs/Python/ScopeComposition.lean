import Mathlib.Logic.Function.Basic
import StrategyMend.Python.Scope

/-!
# Names of a module, statement by statement

The walk over a module numbers its scopes as it opens them, so the walk over some of its statements
depends on those before them. It does so through the numbers only: if more scopes were opened before,
the walk is the same with its scopes renumbered (`walkStatements_shift`). Hence the walk over two lists
of statements is the one over the first and, renumbered, the one over the second
(`walkModule_append`).

The lists share the module's scope and no other. So a name that one of them reads resolves if it does
in this list alone, or if the other list binds it in the module (`resolves_append_left`,
`resolves_append_right`). That is why names may be used in front of the statements that bind them, and
why adding statements never takes a name away.
-/

set_option autoImplicit false

namespace StrategyMend.Python

variable {name : String} {scope number : ScopeId} {first second walk : Walk}

/-! ## Walks with renumbered scopes -/

namespace Walk

/-- The walk with its scopes renumbered. -/
def renumber (walk : Walk) (f : ScopeId → ScopeId) : Walk :=
  ⟨walk.reads.map fun read => { read with scope := f read.scope },
    walk.bindings.map fun binding => { binding with scope := f binding.scope }, walk.wildcard⟩

/-- The scopes in which a walk reads or binds names. -/
def scopes (walk : Walk) : List ScopeId :=
  walk.reads.map NameRead.scope ++ walk.bindings.map NameBinding.scope

variable {f g : ScopeId → ScopeId}

@[simp]
theorem reads_append (first second : Walk) : (first ++ second).reads = first.reads ++ second.reads :=
  rfl

@[simp]
theorem bindings_append (first second : Walk) :
    (first ++ second).bindings = first.bindings ++ second.bindings :=
  rfl

theorem append_assoc (first second third : Walk) :
    first ++ second ++ third = first ++ (second ++ third) := by
  change Walk.mk _ _ _ = Walk.mk _ _ _
  simp only [reads_append, bindings_append, List.append_assoc, Walk.mk.injEq, true_and]
  exact Bool.or_assoc _ _ _

@[simp]
theorem renumber_empty (f : ScopeId → ScopeId) : empty.renumber f = empty := rfl

@[simp]
theorem renumber_append (first second : Walk) (f : ScopeId → ScopeId) :
    (first ++ second).renumber f = first.renumber f ++ second.renumber f := by
  change Walk.mk _ _ _ = Walk.mk _ _ _
  simp only [reads_append, bindings_append, List.map_append]
  rfl

@[simp]
theorem renumber_read (name : String) (row : Nat) (scope : ScopeId) (f : ScopeId → ScopeId) :
    (read name row scope).renumber f = read name row (f scope) :=
  rfl

@[simp]
theorem renumber_bind (names : List String) (scope : ScopeId) (f : ScopeId → ScopeId) :
    (bind names scope).renumber f = bind names (f scope) := by
  simp [renumber, bind]

@[simp]
theorem renumber_wildcard (wildcard : Bool) (f : ScopeId → ScopeId) :
    (Walk.mk [] [] wildcard).renumber f = ⟨[], [], wildcard⟩ :=
  rfl

theorem mem_scopes_append :
    number ∈ (first ++ second).scopes ↔ number ∈ first.scopes ∨ number ∈ second.scopes := by
  simp only [scopes, reads_append, bindings_append, List.map_append, List.mem_append]
  exact or_or_or_comm

theorem eq_of_mem_scopes_bind {names : List String} (member : number ∈ (bind names scope).scopes) :
    number = scope := by
  simp [scopes, bind] at member
  exact member.2.symm

theorem mem_scopes_renumber :
    number ∈ (walk.renumber f).scopes ↔ ∃ other ∈ walk.scopes, f other = number := by
  simp [scopes, renumber, or_and_right, exists_or]

theorem renumber_id (walk : Walk) : walk.renumber id = walk := by
  simp [renumber]

theorem renumber_renumber (walk : Walk) (f g : ScopeId → ScopeId) :
    (walk.renumber f).renumber g = walk.renumber (g ∘ f) := by
  simp [renumber]

/-- A renumbering is told by what it does to the scopes of the walk. -/
theorem renumber_congr (same : ∀ number ∈ walk.scopes, f number = g number) :
    walk.renumber f = walk.renumber g := by
  have reads : ∀ read ∈ walk.reads, f read.scope = g read.scope := fun read member =>
    same _ (List.mem_append_left _ (List.mem_map_of_mem member))
  have bindings : ∀ binding ∈ walk.bindings, f binding.scope = g binding.scope := fun binding member =>
    same _ (List.mem_append_right _ (List.mem_map_of_mem member))
  simp +contextual [renumber, reads, bindings]

/-! ## Names bound in a scope -/

theorem binds_iff : walk.binds name scope = true ↔ ⟨name, scope⟩ ∈ walk.bindings := by
  simp only [binds, List.any_eq_true, Bool.and_eq_true, beq_iff_eq]
  constructor
  · rintro ⟨binding, member, rfl, rfl⟩
    exact member
  · exact fun member => ⟨_, member, rfl, rfl⟩

theorem binds_append (first second : Walk) (name : String) (scope : ScopeId) :
    (first ++ second).binds name scope = (first.binds name scope || second.binds name scope) :=
  List.any_append

theorem binds_renumber (injective : f.Injective) (walk : Walk) (name : String) (scope : ScopeId) :
    (walk.renumber f).binds name (f scope) = walk.binds name scope := by
  simp only [binds, renumber, List.any_map, Function.comp_def, injective.beq_eq]

theorem binds_eq_false (outside : scope ∉ walk.scopes) : walk.binds name scope = false := by
  rw [Bool.eq_false_iff, ne_eq, binds_iff]
  exact fun member => outside (List.mem_append_right _ (List.mem_map_of_mem member))

end Walk

/-! ## Expressions -/

mutual

/-- An expression is evaluated in one scope. -/
theorem Expression.walk_renumber (scope : ScopeId) (f : ScopeId → ScopeId) :
    (expression : Expression) → (expression.walk scope).renumber f = expression.walk (f scope)
  | .name _ _ => by simp only [Expression.walk, Walk.renumber_read]
  | .attribute object _ _ => by
    rw [Expression.walk, Expression.walk, object.walk_renumber scope f]
  | .subscript parts => by rw [Expression.walk, Expression.walk, walkAll_renumber scope f parts]
  | .call function arguments => by
    rw [Expression.walk, Expression.walk, Walk.renumber_append, function.walk_renumber scope f,
      walkAll_renumber scope f arguments]
  | .keyword _ value => by rw [Expression.walk, Expression.walk, value.walk_renumber scope f]
  | .string interpolated => by
    rw [Expression.walk, Expression.walk, walkAll_renumber scope f interpolated]
  | .collection items => by rw [Expression.walk, Expression.walk, walkAll_renumber scope f items]
  | .splat value => by rw [Expression.walk, Expression.walk, value.walk_renumber scope f]
  | .lambda parameters body => by
    rw [Expression.walk, Expression.walk, Walk.renumber_append, walkAll_renumber scope f parameters,
      body.walk_renumber scope f]
  | .binding target parts => by
    rw [Expression.walk, Expression.walk, Walk.renumber_append, Walk.renumber_append,
      Walk.renumber_bind, target.walk_renumber scope f, walkAll_renumber scope f parts]
  | .alias value target => by
    rw [Expression.walk, Expression.walk, Walk.renumber_append, Walk.renumber_append,
      Walk.renumber_bind, value.walk_renumber scope f, target.walk_renumber scope f]
  | .capture names => by rw [Expression.walk, Expression.walk, Walk.renumber_bind]
  | .operation operands => by
    rw [Expression.walk, Expression.walk, walkAll_renumber scope f operands]

theorem walkAll_renumber (scope : ScopeId) (f : ScopeId → ScopeId) :
    (parts : List Expression) → (walkAll scope parts).renumber f = walkAll (f scope) parts
  | [] => by rw [walkAll, walkAll, Walk.renumber_empty]
  | part :: rest => by
    rw [walkAll, walkAll, Walk.renumber_append, part.walk_renumber scope f,
      walkAll_renumber scope f rest]

end

/-- So all names in expressions belong to the scope in which these are evaluated. -/
theorem eq_of_mem_scopes_walkAll {parts : List Expression}
    (member : number ∈ (walkAll scope parts).scopes) : number = scope := by
  rw [← walkAll_renumber scope (fun _ => scope) parts, Walk.mem_scopes_renumber] at member
  obtain ⟨_, -, same⟩ := member
  exact same.symm

theorem Assigned.walk_renumber (scope : ScopeId) (f : ScopeId → ScopeId) (assigned : Assigned) :
    (assigned.walk scope).renumber f = assigned.walk (f scope) := by
  obtain ⟨target, hint⟩ := assigned
  cases hint with
  | none => simp [Assigned.walk, Expression.walk_renumber]
  | some hint => simp [Assigned.walk, Expression.walk_renumber]

theorem walkTargets_renumber (scope : ScopeId) (f : ScopeId → ScopeId) (targets : List Assigned) :
    (walkTargets scope targets).renumber f = walkTargets (f scope) targets := by
  induction targets with
  | nil => rfl
  | cons assigned rest ih =>
    rw [walkTargets, walkTargets, Walk.renumber_append, assigned.walk_renumber, ih]

theorem eq_of_mem_scopes_walkTargets {targets : List Assigned}
    (member : number ∈ (walkTargets scope targets).scopes) : number = scope := by
  rw [← walkTargets_renumber scope (fun _ => scope) targets, Walk.mem_scopes_renumber] at member
  obtain ⟨_, -, same⟩ := member
  exact same.symm

/-! ## Statements -/

/-- The number of a scope if some more scopes were opened before. -/
def shift (opened : Nat) (number : ScopeId) : ScopeId :=
  if number = moduleScope then moduleScope else number + opened

@[simp]
theorem shift_moduleScope (opened : Nat) : shift opened moduleScope = moduleScope := rfl

theorem shift_of_ne {opened : Nat} (ne : number ≠ moduleScope) :
    shift opened number = number + opened :=
  if_neg ne

theorem shift_ne {opened : Nat} (ne : number ≠ moduleScope) : shift opened number ≠ moduleScope := by
  rw [shift_of_ne ne]
  exact fun zero => ne (Nat.eq_zero_of_add_eq_zero_right zero)

theorem shift_injective (opened : Nat) : (shift opened).Injective := by
  intro first second same
  by_cases zero : first = moduleScope <;> by_cases zero' : second = moduleScope
  · rw [zero, zero']
  · rw [zero, shift_moduleScope] at same
    exact absurd same.symm (shift_ne zero')
  · rw [zero', shift_moduleScope] at same
    exact absurd same (shift_ne zero)
  · rw [shift_of_ne zero, shift_of_ne zero'] at same
    exact Nat.add_right_cancel same

/-- The scope of statements if some more scopes were opened before. -/
def ScopeContext.shift (context : ScopeContext) (opened : Nat) : ScopeContext :=
  ⟨Python.shift opened context.scope, context.kind⟩

@[simp]
theorem ScopeContext.shift_scope (context : ScopeContext) (opened : Nat) :
    (context.shift opened).scope = Python.shift opened context.scope :=
  rfl

section Enter

variable {context : ScopeContext} {next : ScopeId}

theorem ScopeContext.enter_scope (kind : ScopeKind) (inside : context.scope < next) :
    next ≤ (context.enter kind next).2 ∧
      (context.enter kind next).1.scope < (context.enter kind next).2 := by
  obtain ⟨scope, _ | _ | _⟩ := context
  · exact ⟨Nat.le_succ next, Nat.lt_succ_self next⟩
  · exact ⟨Nat.le_succ next, Nat.lt_succ_self next⟩
  · exact ⟨Nat.le_refl next, inside⟩

theorem ScopeContext.enter_shift {kind : ScopeKind} (inside : context.scope < next) (opened : Nat) :
    (context.shift opened).enter kind (next + opened) =
      ((context.enter kind next).1.shift opened, (context.enter kind next).2 + opened) := by
  have numbered : Python.shift opened next = next + opened :=
    shift_of_ne (Nat.ne_of_gt (Nat.zero_lt_of_lt inside))
  obtain ⟨scope, _ | _ | _⟩ := context
  · simp only [ScopeContext.enter, ScopeContext.shift, numbered, Nat.add_right_comm next opened 1]
  · simp only [ScopeContext.enter, ScopeContext.shift, numbered, Nat.add_right_comm next opened 1]
  · rfl

end Enter

/-- What a walk over statements results in when `next` scopes are open: its names belong to these or
to scopes that it opens. -/
structure Opens (next : ScopeId) (result : Walk × ScopeId) : Prop where
  le : next ≤ result.2
  lt : ∀ number ∈ result.1.scopes, number < result.2

section Opens

variable {next : ScopeId} {result : Walk × ScopeId}

/-- Names of scopes that are open may be added. -/
theorem Opens.append (opens : Opens next result) (outer : ∀ number ∈ walk.scopes, number < next) :
    Opens next (walk ++ result.1, result.2) where
  le := opens.le
  lt := by
    intro number member
    rcases Walk.mem_scopes_append.mp member with here | there
    · exact Nat.lt_of_lt_of_le (outer number here) opens.le
    · exact opens.lt number there

theorem Opens.of_le {opened : ScopeId} (le : opened ≤ next) (opens : Opens next result) :
    Opens opened result :=
  ⟨Nat.le_trans le opens.le, opens.lt⟩

/-- Names of one scope belong to a scope that is open. -/
theorem opens_of_eq (inside : scope < next) (same : ∀ number ∈ walk.scopes, number = scope) :
    Opens next (walk, next) :=
  ⟨Nat.le_refl next, fun number member => same number member ▸ inside⟩

end Opens

mutual

theorem Statement.walk_opens (context : ScopeContext) (next : ScopeId) (inside : context.scope < next) :
    (statement : Statement) → Opens next (statement.walk context next)
  | .expression _ parts => opens_of_eq inside fun _ => eq_of_mem_scopes_walkAll
  | .assignment _ targets value => by
    refine opens_of_eq inside fun number member => ?_
    rcases Walk.mem_scopes_append.mp member with target | part
    · exact eq_of_mem_scopes_walkTargets target
    · exact eq_of_mem_scopes_walkAll part
  | .simple _ parts => opens_of_eq inside fun _ => eq_of_mem_scopes_walkAll
  | .imports _ names wildcard => by
    refine opens_of_eq inside fun number member => ?_
    rcases Walk.mem_scopes_append.mp member with bound | nothing
    · exact Walk.eq_of_mem_scopes_bind bound
    · cases nothing
  | .declaration _ names => by
    refine ⟨Nat.le_refl next, fun number member => ?_⟩
    rcases Walk.mem_scopes_append.mp member with bound | global
    · exact Walk.eq_of_mem_scopes_bind bound ▸ inside
    · exact Walk.eq_of_mem_scopes_bind global ▸ Nat.zero_lt_of_lt inside
  | .block _ _ head body => by
    refine (walkStatements_opens context next inside body).append fun number member => ?_
    exact eq_of_mem_scopes_walkAll member ▸ inside
  | .classDef _ name _ bases body => by
    obtain ⟨le, inner⟩ := context.enter_scope .classBody inside
    refine (walkStatements_opens _ _ inner body).append (fun number member => ?_) |>.of_le le
    refine Nat.lt_of_lt_of_le ?_ le
    rcases Walk.mem_scopes_append.mp member with bound | part
    · exact Walk.eq_of_mem_scopes_bind bound ▸ inside
    · exact eq_of_mem_scopes_walkAll part ▸ inside
  | .function _ name _ parameters returns body => by
    obtain ⟨le, inner⟩ := context.enter_scope .function inside
    refine (walkStatements_opens _ _ inner body).append (fun number member => ?_) |>.of_le le
    rcases Walk.mem_scopes_append.mp member with bound | result
    · rcases Walk.mem_scopes_append.mp bound with bound | parameter
      · exact Nat.lt_of_lt_of_le (Walk.eq_of_mem_scopes_bind bound ▸ inside) le
      · exact eq_of_mem_scopes_walkAll parameter ▸ inner
    · exact Nat.lt_of_lt_of_le (eq_of_mem_scopes_walkAll result ▸ inside) le
  | .decorated _ decorators definition => by
    refine (definition.walk_opens context next inside).append fun number member => ?_
    exact eq_of_mem_scopes_walkAll member ▸ inside

/-- The names of statements belong to open scopes. -/
theorem walkStatements_opens (context : ScopeContext) (next : ScopeId)
    (inside : context.scope < next) :
    (statements : List Statement) → Opens next (walkStatements context next statements)
  | [] => ⟨Nat.le_refl next, nofun⟩
  | statement :: rest => by
    have here := statement.walk_opens context next inside
    have there := walkStatements_opens context _ (Nat.lt_of_lt_of_le inside here.le) rest
    exact (there.append here.lt).of_le here.le

end

/-- The walk, and the number of the next scope, if some more scopes were opened before. -/
def shiftResult (opened : Nat) (result : Walk × ScopeId) : Walk × ScopeId :=
  (result.1.renumber (shift opened), result.2 + opened)

mutual

theorem Statement.walk_shift (context : ScopeContext) (next : ScopeId) (inside : context.scope < next)
    (opened : Nat) :
    (statement : Statement) → statement.walk (context.shift opened) (next + opened) =
      shiftResult opened (statement.walk context next)
  | .expression _ parts => by
    simp only [Statement.walk, shiftResult, walkAll_renumber, ScopeContext.shift_scope]
  | .assignment _ targets value => by
    simp only [Statement.walk, shiftResult, Walk.renumber_append, walkTargets_renumber,
      walkAll_renumber, ScopeContext.shift_scope]
  | .simple _ parts => by
    simp only [Statement.walk, shiftResult, walkAll_renumber, ScopeContext.shift_scope]
  | .imports _ names wildcard => by
    simp only [Statement.walk, shiftResult, Walk.renumber_append, Walk.renumber_bind,
      Walk.renumber_wildcard, ScopeContext.shift_scope]
  | .declaration _ names => by
    simp only [Statement.walk, shiftResult, Walk.renumber_append, Walk.renumber_bind,
      ScopeContext.shift_scope, shift_moduleScope]
  | .block _ _ head body => by
    simp only [Statement.walk, walkStatements_shift context next inside opened body, shiftResult,
      Walk.renumber_append, walkAll_renumber, ScopeContext.shift_scope]
  | .classDef _ name _ bases body => by
    have inner := (context.enter_scope .classBody inside).2
    simp only [Statement.walk, ScopeContext.enter_shift inside, shiftResult,
      walkStatements_shift _ _ inner opened body, Walk.renumber_append, Walk.renumber_bind,
      walkAll_renumber, ScopeContext.shift_scope]
  | .function _ name _ parameters returns body => by
    have inner := (context.enter_scope .function inside).2
    simp only [Statement.walk, ScopeContext.enter_shift inside, shiftResult,
      walkStatements_shift _ _ inner opened body, Walk.renumber_append, Walk.renumber_bind,
      walkAll_renumber, ScopeContext.shift_scope]
  | .decorated _ decorators definition => by
    simp only [Statement.walk, definition.walk_shift context next inside opened, shiftResult,
      Walk.renumber_append, walkAll_renumber, ScopeContext.shift_scope]

/-- If more scopes were opened before, the walk over statements is the same with its scopes
renumbered. -/
theorem walkStatements_shift (context : ScopeContext) (next : ScopeId) (inside : context.scope < next)
    (opened : Nat) :
    (statements : List Statement) →
      walkStatements (context.shift opened) (next + opened) statements =
        shiftResult opened (walkStatements context next statements)
  | [] => rfl
  | statement :: rest => by
    have inside' := Nat.lt_of_lt_of_le inside (statement.walk_opens context next inside).le
    simp only [walkStatements, statement.walk_shift context next inside opened, shiftResult,
      walkStatements_shift context _ inside' opened rest, Walk.renumber_append]

end

theorem walkStatements_append (context : ScopeContext) (next : ScopeId) (first second : List Statement) :
    walkStatements context next (first ++ second) =
      ((walkStatements context next first).1 ++
          (walkStatements context (walkStatements context next first).2 second).1,
        (walkStatements context (walkStatements context next first).2 second).2) := by
  induction first generalizing next with
  | nil => rfl
  | cons statement rest ih =>
    simp only [List.cons_append, walkStatements, ih, Walk.append_assoc]

/-! ## Modules -/

/-- The scope of the statements of a module. -/
def moduleContext : ScopeContext := ⟨moduleScope, .module⟩

theorem moduleContext_opens (statements : List Statement) :
    Opens 1 (walkStatements moduleContext 1 statements) :=
  walkStatements_opens moduleContext 1 Nat.zero_lt_one statements

/-- How many scopes the statements of a module open. -/
def opened (statements : List Statement) : Nat := (walkStatements moduleContext 1 statements).2 - 1

theorem next_eq_opened (statements : List Statement) :
    (walkStatements moduleContext 1 statements).2 = 1 + opened statements :=
  (Nat.add_sub_cancel' (moduleContext_opens statements).le).symm

theorem le_opened {statements : List Statement} (member : number ∈ (walkModule statements).scopes) :
    number ≤ opened statements := by
  have less := (moduleContext_opens statements).lt number member
  rw [next_eq_opened, Nat.add_comm] at less
  exact Nat.le_of_lt_succ less

/-- **The walk over two lists of statements is that over the first and, renumbered, that over the
second.** -/
theorem walkModule_append (first second : List Statement) :
    walkModule (first ++ second) =
      walkModule first ++ (walkModule second).renumber (shift (opened first)) := by
  have shifted := walkStatements_shift moduleContext 1 Nat.zero_lt_one (opened first) second
  rw [← next_eq_opened] at shifted
  change (walkStatements moduleContext 1 (first ++ second)).1 = _
  rw [walkStatements_append]
  exact congrArg (_ ++ Prod.fst ·) shifted

theorem walkModule_cons (statement : Statement) (rest : List Statement) :
    walkModule (statement :: rest) =
      walkModule [statement] ++ (walkModule rest).renumber (shift (opened [statement])) :=
  walkModule_append [statement] rest

/-- The scopes that statements open are not those of statements before them. -/
theorem shift_opened_notMem {statements : List Statement} (ne : number ≠ moduleScope) :
    shift (opened statements) number ∉ (walkModule statements).scopes := by
  intro member
  have le := le_opened member
  rw [shift_of_ne ne] at le
  exact ne (Nat.eq_zero_of_le_zero (Nat.le_of_add_le_add_right (by rwa [Nat.zero_add])))

/-! ## Resolution -/

section Resolution

variable {p q : List Statement}

/-- A name that the first list reads resolves there, or the second binds it in the module. -/
theorem resolves_append_left (member : number ∈ (walkModule p).scopes) :
    (walkModule (p ++ q)).resolves name number =
      ((walkModule p).resolves name number || (walkModule q).binds name moduleScope) := by
  have shared : ((walkModule q).renumber (shift (opened p))).binds name moduleScope =
      (walkModule q).binds name moduleScope :=
    Walk.binds_renumber (shift_injective (opened p)) _ name moduleScope
  rw [walkModule_append, Walk.resolves, Walk.resolves, Walk.binds_append, Walk.binds_append, shared]
  by_cases zero : number = moduleScope
  · rw [zero, shared, Bool.or_self, Bool.or_self]
  · have other : ((walkModule q).renumber (shift (opened p))).binds name number = false := by
      refine Walk.binds_eq_false fun renumbered => ?_
      obtain ⟨own, -, rfl⟩ := Walk.mem_scopes_renumber.mp renumbered
      have ne : own ≠ moduleScope := fun same => zero (by rw [same, shift_moduleScope])
      exact shift_opened_notMem ne member
    rw [other, Bool.or_false, Bool.or_assoc]

/-- A name that the second list reads resolves there, or the first binds it in the module. -/
theorem resolves_append_right :
    (walkModule (p ++ q)).resolves name (shift (opened p) number) =
      ((walkModule q).resolves name number || (walkModule p).binds name moduleScope) := by
  have own := Walk.binds_renumber (shift_injective (opened p)) (walkModule q) name
  have shared : ((walkModule q).renumber (shift (opened p))).binds name moduleScope =
      (walkModule q).binds name moduleScope :=
    own moduleScope
  rw [walkModule_append, Walk.resolves, Walk.resolves, Walk.binds_append, Walk.binds_append, own number,
    shared]
  by_cases zero : number = moduleScope
  · rw [zero, shift_moduleScope, Bool.or_self, Bool.or_self, Bool.or_comm]
  · rw [Walk.binds_eq_false (shift_opened_notMem zero), Bool.false_or, Bool.or_assoc]
    exact congrArg _ (Bool.or_comm _ _)

/-- The names that a walk reads and does not resolve, with the rows. -/
def Walk.unresolved (walk : Walk) : List (String × Nat) :=
  (walk.reads.filter fun read => !walk.resolves read.name read.scope).map fun read =>
    (read.name, read.row)

/-- Those of them that another walk does not bind in the module either. -/
def Walk.unresolvedBeside (walk other : Walk) : List (String × Nat) :=
  (walk.reads.filter fun read =>
    !(walk.resolves read.name read.scope || other.binds read.name moduleScope)).map fun read =>
      (read.name, read.row)

theorem unresolved_append (p q : List Statement) :
    (walkModule (p ++ q)).unresolved =
      (walkModule p).unresolvedBeside (walkModule q) ++
        (walkModule q).unresolvedBeside (walkModule p) := by
  have reads : (walkModule (p ++ q)).reads =
      (walkModule p).reads ++ ((walkModule q).renumber (shift (opened p))).reads := by
    rw [walkModule_append, Walk.reads_append]
  rw [Walk.unresolved, reads, List.filter_append, List.map_append]
  congr 1
  · refine congrArg _ (List.filter_congr fun read member => ?_)
    rw [resolves_append_left (List.mem_append_left _ (List.mem_map_of_mem member))]
  · rw [Walk.renumber, List.filter_map, List.map_map]
    refine congrArg _ (List.filter_congr fun read member => ?_)
    exact congrArg (!·) resolves_append_right

end Resolution

/-! ## More statements -/

/-- A walk keeps what another reads and binds, up to the numbers of scopes. -/
structure Walk.Embeds (small large : Walk) (f : ScopeId → ScopeId) : Prop where
  injective : f.Injective
  module : f moduleScope = moduleScope
  reads : (small.renumber f).reads.Sublist large.reads
  bindings : (small.renumber f).bindings ⊆ large.bindings

section Embeds

variable {small large : Walk} {f : ScopeId → ScopeId}

/-- What resolves in a walk resolves in one that keeps it. -/
theorem Walk.Embeds.resolves (embeds : small.Embeds large f)
    (known : small.resolves name number = true) : large.resolves name (f number) = true := by
  have keeps {scope : ScopeId} (bound : small.binds name scope = true) :
      large.binds name (f scope) = true := by
    rw [← Walk.binds_renumber embeds.injective] at bound
    exact Walk.binds_iff.mpr (embeds.bindings (Walk.binds_iff.mp bound))
  rcases Bool.or_eq_true_iff.mp known with own | global
  · exact Bool.or_eq_true_iff.mpr (.inl (keeps own))
  · exact Bool.or_eq_true_iff.mpr (.inr (embeds.module ▸ keeps global))

theorem Walk.embeds_self (walk : Walk) : walk.Embeds walk id where
  injective := Function.injective_id
  module := rfl
  reads := by simp only [Walk.renumber_id, List.Sublist.refl]
  bindings := fun _ member => by rwa [Walk.renumber_id] at member

/-- Statements may be added in front. -/
theorem Walk.Embeds.cons (statement : Statement) {small : Walk} {statements : List Statement}
    (embeds : small.Embeds (walkModule statements) f) :
    small.Embeds (walkModule (statement :: statements)) (shift (opened [statement]) ∘ f) where
  injective := (shift_injective _).comp embeds.injective
  module := by rw [Function.comp_apply, embeds.module, shift_moduleScope]
  reads := by
    rw [walkModule_cons, ← Walk.renumber_renumber]
    exact (embeds.reads.map _).trans (List.sublist_append_right _ _)
  bindings := by
    rw [walkModule_cons, ← Walk.renumber_renumber]
    exact List.Subset.trans (List.map_subset _ embeds.bindings) (List.subset_append_right _ _)

/-- The renumbering of scopes behind the first `opened` ones. -/
def beyond (opened : Nat) (f : ScopeId → ScopeId) (number : ScopeId) : ScopeId :=
  if number ≤ opened then number else f (number - opened) + opened

theorem beyond_moduleScope (opened : Nat) : beyond opened f moduleScope = moduleScope := rfl

theorem beyond_of_le {opened : Nat} (le : number ≤ opened) : beyond opened f number = number := if_pos le

theorem beyond_shift (opened : Nat) (injective : f.Injective) (module : f moduleScope = moduleScope) :
    beyond opened f ∘ shift opened = shift opened ∘ f := by
  funext number
  by_cases zero : number = moduleScope
  · rw [Function.comp_apply, Function.comp_apply, zero, module, shift_moduleScope,
      beyond_moduleScope]
  · have ne : f number ≠ moduleScope := fun same => zero (injective (same.trans module.symm))
    have more : ¬number + opened ≤ opened := by
      rw [Nat.not_le]
      exact Nat.lt_add_of_pos_left (Nat.pos_of_ne_zero zero)
    rw [Function.comp_apply, Function.comp_apply, shift_of_ne zero, shift_of_ne ne, beyond, if_neg more,
      Nat.add_sub_cancel]

theorem beyond_injective (opened : Nat) (injective : f.Injective)
    (module : f moduleScope = moduleScope) : (beyond opened f).Injective := by
  have behind {number : ScopeId} (more : ¬number ≤ opened) :
      ¬beyond opened f number ≤ opened ∧ f (number - opened) = beyond opened f number - opened := by
    have ne : f (number - opened) ≠ moduleScope := fun same =>
      Nat.sub_ne_zero_of_lt (Nat.lt_of_not_le more) (injective (same.trans module.symm))
    rw [beyond, if_neg more, Nat.add_sub_cancel, Nat.not_le]
    exact ⟨Nat.lt_add_of_pos_left (Nat.pos_of_ne_zero ne), rfl⟩
  intro first second same
  by_cases le : first ≤ opened <;> by_cases le' : second ≤ opened
  · rwa [beyond_of_le le, beyond_of_le le'] at same
  · rw [beyond_of_le le] at same
    exact absurd (same ▸ le) (behind le').1
  · rw [beyond_of_le le'] at same
    exact absurd (same ▸ le') (behind le).1
  · have inner := injective ((behind le).2.trans (same ▸ (behind le').2.symm))
    calc first
        = first - opened + opened := (Nat.sub_add_cancel (Nat.le_of_not_le le)).symm
      _ = second - opened + opened := congrArg (· + opened) inner
      _ = second := Nat.sub_add_cancel (Nat.le_of_not_le le')

/-- Statements may be added behind the first. -/
theorem Walk.Embeds.cons_cons (statement : Statement) {p more : List Statement}
    (embeds : (walkModule p).Embeds (walkModule more) f) :
    (walkModule (statement :: p)).Embeds (walkModule (statement :: more))
      (beyond (opened [statement]) f) := by
  have first : (walkModule [statement]).renumber (beyond (opened [statement]) f) =
      walkModule [statement] := by
    refine Eq.trans (Walk.renumber_congr fun number member => ?_) (Walk.renumber_id _)
    exact beyond_of_le (le_opened member)
  have rest : (walkModule (statement :: p)).renumber (beyond (opened [statement]) f) =
      walkModule [statement] ++
        ((walkModule p).renumber f).renumber (shift (opened [statement])) := by
    rw [walkModule_cons, Walk.renumber_append, first, Walk.renumber_renumber, Walk.renumber_renumber,
      beyond_shift _ embeds.injective embeds.module]
  refine ⟨beyond_injective _ embeds.injective embeds.module, beyond_moduleScope _, ?_, ?_⟩
  · rw [rest, walkModule_cons statement more]
    exact (embeds.reads.map _).append_left _
  · rw [rest, walkModule_cons statement more]
    exact List.append_subset.mpr ⟨List.subset_append_left _ _,
      List.subset_append_of_subset_right _ (List.map_subset _ embeds.bindings)⟩

/-- The walk over more statements keeps that over fewer. -/
theorem exists_embeds {p more : List Statement} (sublist : p.Sublist more) :
    ∃ f, (walkModule p).Embeds (walkModule more) f := by
  induction sublist with
  | slnil => exact ⟨_, Walk.embeds_self _⟩
  | cons statement _ ih =>
    obtain ⟨f, embeds⟩ := ih
    exact ⟨_, embeds.cons statement⟩
  | cons_cons statement _ ih =>
    obtain ⟨f, embeds⟩ := ih
    exact ⟨_, embeds.cons_cons statement⟩

end Embeds

/-- **Names of a module can be resolved list by list, in any order of the lists.** The reads of two lists
of statements are those of the first and then, with renumbered scopes, those of the second. A read
resolves if it does in its own list, or if the other list binds its name in the module. So the lists
can change places, and no name is lost when statements are added. -/
theorem resolution_compositional (p q : List Statement) :
    (∃ f : ScopeId → ScopeId, f.Injective ∧ f moduleScope = moduleScope ∧
        (∀ read ∈ (walkModule p).reads, ∀ other ∈ (walkModule q).reads,
          f other.scope = read.scope → read.scope = moduleScope) ∧
        (walkModule (p ++ q)).reads = (walkModule p).reads ++
          (walkModule q).reads.map (fun read => { read with scope := f read.scope }) ∧
        ∀ read ∈ (walkModule q).reads,
          ((walkModule (p ++ q)).resolves read.name (f read.scope) = true ↔
            (walkModule q).resolves read.name read.scope = true ∨
              (walkModule p).binds read.name moduleScope = true)) ∧
      (∀ read ∈ (walkModule p).reads,
        ((walkModule (p ++ q)).resolves read.name read.scope = true ↔
          (walkModule p).resolves read.name read.scope = true ∨
            (walkModule q).binds read.name moduleScope = true)) ∧
      (walkModule (p ++ q)).unresolved.Perm (walkModule (q ++ p)).unresolved ∧
      ∀ more : List Statement, p.Sublist more →
        ∃ f : ScopeId → ScopeId, f.Injective ∧ f moduleScope = moduleScope ∧
          ((walkModule p).reads.map fun read => { read with scope := f read.scope }).Sublist
            (walkModule more).reads ∧
          ∀ read ∈ (walkModule p).reads, (walkModule p).resolves read.name read.scope = true →
            (walkModule more).resolves read.name (f read.scope) = true := by
  refine ⟨⟨shift (opened p), shift_injective _, shift_moduleScope _, ?disjoint, ?reads, ?second⟩,
    ?first, ?swap, fun more sublist => ?more⟩
  case disjoint =>
    intro read member other _ same
    by_contra ne
    have opens : other.scope ≠ moduleScope := fun zero =>
      ne (by rw [← same, zero, shift_moduleScope])
    have there : read.scope ∈ (walkModule p).scopes :=
      List.mem_append_left _ (List.mem_map_of_mem member)
    rw [← same] at there
    exact shift_opened_notMem opens there
  case reads =>
    rw [walkModule_append, Walk.reads_append]
    rfl
  case second =>
    intro read _
    rw [resolves_append_right, Bool.or_eq_true_iff]
  case first =>
    intro read member
    rw [resolves_append_left (List.mem_append_left _ (List.mem_map_of_mem member)),
      Bool.or_eq_true_iff]
  case swap =>
    rw [unresolved_append, unresolved_append]
    exact List.perm_append_comm
  case more =>
    obtain ⟨f, embeds⟩ := exists_embeds sublist
    exact ⟨f, embeds.injective, embeds.module, embeds.reads, fun _ _ => embeds.resolves⟩

/-- A name resolves that a method declares global further down. -/
example :
    let use : Statement := .expression 0 [.name "limit" 0]
    let declares : Statement := .classDef 1 "Trend" [] []
      [.function 2 "next" [] [] [] [.declaration 3 ["limit"]]]
    (walkModule [use]).unresolved = [("limit", 0)] ∧ (walkModule [use, declares]).unresolved = [] := by
  decide

end StrategyMend.Python
