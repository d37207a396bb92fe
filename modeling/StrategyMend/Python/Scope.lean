import StrategyMend.Python.Tree

/-!
# Scopes and name resolution

A source has a module scope, a scope for each class body, and a scope for each function. Whatever is
nested inside a function, even a class or another function, belongs to that function's scope. A name
resolves in its own scope and then in the module's; class bodies are not visible from methods.

`Walk` records, in the order of the text, every name that is read, with its scope, and every name
that is bound in a scope. Whether a read resolves is asked when all bindings are known.
-/

set_option autoImplicit false

namespace StrategyMend.Python

/-- The number of a scope. The module has number zero; the others are numbered as they are opened. -/
abbrev ScopeId := Nat

/-- The scope of the module. -/
def moduleScope : ScopeId := 0

/-- A name that is read. -/
structure NameRead where
  name : String
  row : Nat
  scope : ScopeId
  deriving DecidableEq

/-- A name that is bound. -/
structure NameBinding where
  name : String
  scope : ScopeId
  deriving DecidableEq

/-- What the names of a source are used for. -/
structure Walk where
  reads : List NameRead
  bindings : List NameBinding
  /-- Whether a module is imported whole, so that any name may be bound. -/
  wildcard : Bool

namespace Walk

/-- No names. -/
def empty : Walk := ⟨[], [], false⟩

/-- One walk after another. -/
def append (first second : Walk) : Walk :=
  ⟨first.reads ++ second.reads, first.bindings ++ second.bindings, first.wildcard || second.wildcard⟩

instance : Append Walk := ⟨append⟩

/-- One read. -/
def read (name : String) (row : Nat) (scope : ScopeId) : Walk := ⟨[⟨name, row, scope⟩], [], false⟩

/-- Names bound in a scope; the empty name binds nothing. -/
def bind (names : List String) (scope : ScopeId) : Walk :=
  ⟨[], (names.filter (· ≠ "")).map fun name => ⟨name, scope⟩, false⟩

/-- Whether a name is bound in a scope. -/
def binds (walk : Walk) (name : String) (scope : ScopeId) : Bool :=
  walk.bindings.any fun binding => binding.name == name && binding.scope == scope

/-- Whether a name that is read in a scope is bound there or in the module. -/
def resolves (walk : Walk) (name : String) (scope : ScopeId) : Bool :=
  walk.binds name scope || walk.binds name moduleScope

end Walk

/-! ## Targets -/

mutual

/-- The names that a target binds. Attributes and subscripts bind none. -/
def Expression.boundNames : Expression → List String
  | .name text _ => [text]
  | .attribute _ _ _ => []
  | .subscript _ => []
  | .call function arguments => function.boundNames ++ boundNamesIn arguments
  | .keyword label value => label :: value.boundNames
  | .string interpolated => boundNamesIn interpolated
  | .collection items => boundNamesIn items
  | .splat value => value.boundNames
  | .lambda parameters body => boundNamesIn parameters ++ body.boundNames
  | .binding target parts => target.boundNames ++ boundNamesIn parts
  | .alias value target => value.boundNames ++ target.boundNames
  | .capture names => names
  | .operation operands => boundNamesIn operands

/-- The names that targets bind. -/
def boundNamesIn : List Expression → List String
  | [] => []
  | item :: rest => item.boundNames ++ boundNamesIn rest

end

/-! ## Expressions -/

mutual

/-- The names used in an expression that is evaluated in a scope. -/
def Expression.walk (scope : ScopeId) : Expression → Walk
  | .name text row => .read text row scope
  | .attribute object _ _ => object.walk scope
  | .subscript parts => walkAll scope parts
  | .call function arguments => function.walk scope ++ walkAll scope arguments
  | .keyword _ value => value.walk scope
  | .string interpolated => walkAll scope interpolated
  | .collection items => walkAll scope items
  | .splat value => value.walk scope
  | .lambda parameters body => walkAll scope parameters ++ body.walk scope
  | .binding target parts =>
    .bind target.boundNames scope ++ target.walk scope ++ walkAll scope parts
  | .alias value target => .bind target.boundNames scope ++ value.walk scope ++ target.walk scope
  | .capture names => .bind names scope
  | .operation operands => walkAll scope operands

/-- The names used in expressions that are evaluated in a scope. -/
def walkAll (scope : ScopeId) : List Expression → Walk
  | [] => .empty
  | part :: rest => part.walk scope ++ walkAll scope rest

end

/-- The names used in a target of an assignment and its annotation. -/
def Assigned.walk (scope : ScopeId) (assigned : Assigned) : Walk :=
  .bind assigned.target.boundNames scope ++ assigned.target.walk scope ++
    match assigned.hint with
    | some hint => hint.walk scope
    | none => .empty

/-- The names used in the targets of an assignment. -/
def walkTargets (scope : ScopeId) : List Assigned → Walk
  | [] => .empty
  | assigned :: rest => assigned.walk scope ++ walkTargets scope rest

/-! ## Statements -/

/-- The kinds of scope that a statement may belong to. -/
inductive ScopeKind where
  | module
  | classBody
  | function
  deriving DecidableEq

/-- The scope that statements belong to. -/
structure ScopeContext where
  scope : ScopeId
  kind : ScopeKind

/-- The scope of a body that is nested in `outer`: a new one of the given kind with the number `next`,
unless a function encloses it. Second, the number of the scope opened after it. -/
def ScopeContext.enter (outer : ScopeContext) (kind : ScopeKind) (next : ScopeId) :
    ScopeContext × ScopeId :=
  match outer.kind with
  | .function => (outer, next)
  | _ => (⟨next, kind⟩, next + 1)

mutual

/-- The names used in a statement, and the number of the next scope. -/
def Statement.walk (context : ScopeContext) (next : ScopeId) : Statement → Walk × ScopeId
  | .expression _ parts => (walkAll context.scope parts, next)
  | .assignment _ targets value =>
    (walkTargets context.scope targets ++ walkAll context.scope value, next)
  | .simple _ parts => (walkAll context.scope parts, next)
  | .imports _ names wildcard => (.bind names context.scope ++ ⟨[], [], wildcard⟩, next)
  | .declaration _ names => (.bind names context.scope ++ .bind names moduleScope, next)
  | .block _ _ head body =>
    let (inner, after) := walkStatements context next body
    (walkAll context.scope head ++ inner, after)
  | .classDef _ name _ bases body =>
    let (inner, opened) := context.enter .classBody next
    let (walk, after) := walkStatements inner opened body
    (.bind [name] context.scope ++ walkAll context.scope bases ++ walk, after)
  | .function _ name _ parameters returns body =>
    let (inner, opened) := context.enter .function next
    let (walk, after) := walkStatements inner opened body
    (.bind [name] context.scope ++ walkAll inner.scope parameters ++
      walkAll context.scope returns ++ walk, after)
  | .decorated _ decorators definition =>
    let (walk, after) := definition.walk context next
    (walkAll context.scope decorators ++ walk, after)

/-- The names used in statements, and the number of the next scope. -/
def walkStatements (context : ScopeContext) (next : ScopeId) : List Statement → Walk × ScopeId
  | [] => (.empty, next)
  | statement :: rest =>
    let (first, opened) := statement.walk context next
    let (others, after) := walkStatements context opened rest
    (first ++ others, after)

end

/-- The names used in a module. -/
def walkModule (statements : List Statement) : Walk :=
  (walkStatements ⟨moduleScope, .module⟩ (moduleScope + 1) statements).1

end StrategyMend.Python
