import StrategyMend.Proofs.Python.NameRows

/-!
# Names and definitions of statements

The rows on which functions and classes begin are collected from a statement (`definitionRows`), and the
names that a statement reads stand on lines of the source if those of its parts do (`NamesOnLines`). A
simple statement has expressions as its parts and defines nothing (`Reader.tells_simpleStatement`).
-/

set_option autoImplicit false

namespace StrategyMend.Python

variable {text : List Char} {row : Nat}

/-! ## Rows in statements -/

mutual

/-- The rows on which functions and classes begin in a statement. -/
def Statement.definitionRows : Statement → List Nat
  | .block _ _ _ body => definitionRowsIn body
  | .function row _ _ _ _ body => row :: definitionRowsIn body
  | .classDef row _ _ _ body => row :: definitionRowsIn body
  | .decorated _ _ definition => definition.definitionRows
  | _ => []

/-- The rows on which functions and classes begin in statements. -/
def definitionRowsIn : List Statement → List Nat
  | [] => []
  | statement :: rest => statement.definitionRows ++ definitionRowsIn rest

end

theorem definitionRowsIn_append (first second : List Statement) :
    definitionRowsIn (first ++ second) = definitionRowsIn first ++ definitionRowsIn second := by
  induction first with
  | nil => rfl
  | cons statement rest ih =>
    rw [List.cons_append, definitionRowsIn, definitionRowsIn, ih, List.append_assoc]

theorem definitionRowsIn_singleton (statement : Statement) :
    definitionRowsIn [statement] = statement.definitionRows := by
  rw [definitionRowsIn, definitionRowsIn, List.append_nil]

/-- All names that statements read stand on lines of the text. -/
def NamesOnLines (text : List Char) (statements : List Statement) : Prop :=
  ∀ context next, (walkStatements context next statements).1.OnLines text

section NamesOnLines

variable {first second body : List Statement} {head : List Expression}

theorem namesOnLines_nil : NamesOnLines text [] := fun _ _ => nofun

theorem NamesOnLines.append (names : NamesOnLines text first) (names' : NamesOnLines text second) :
    NamesOnLines text (first ++ second) := by
  intro context next
  rw [walkStatements_append]
  exact Walk.onLines_append.mpr ⟨names context next, names' _ _⟩

theorem namesOnLines_singleton {statement : Statement}
    (names : ∀ context next, (statement.walk context next).1.OnLines text) :
    NamesOnLines text [statement] := by
  intro context next
  exact Walk.onLines_append.mpr ⟨names context next, nofun⟩

theorem NamesOnLines.walk {statement : Statement} (names : NamesOnLines text [statement])
    (context : ScopeContext) (next : ScopeId) : (statement.walk context next).1.OnLines text :=
  (Walk.onLines_append.mp (names context next)).1

theorem Walk.onLines_bind (names : List String) (scope : ScopeId) :
    (Walk.bind names scope).OnLines text :=
  nofun

theorem namesOnLines_block {kind : BlockKind} (parts : AllOnLines text head)
    (names : NamesOnLines text body) : NamesOnLines text [.block row kind head body] :=
  namesOnLines_singleton fun _ _ =>
    Walk.onLines_append.mpr ⟨(onLines_walkAll _).mpr parts, names _ _⟩

theorem namesOnLines_function {name : String} {types parameters returns : List Expression}
    (parts : AllOnLines text parameters) (parts' : AllOnLines text returns)
    (names : NamesOnLines text body) :
    NamesOnLines text [.function row name types parameters returns body] := by
  refine namesOnLines_singleton fun _ _ => ?_
  refine Walk.onLines_append.mpr ⟨Walk.onLines_append.mpr ⟨Walk.onLines_append.mpr ⟨?_, ?_⟩, ?_⟩, ?_⟩
  · exact Walk.onLines_bind _ _
  · exact (onLines_walkAll _).mpr parts
  · exact (onLines_walkAll _).mpr parts'
  · exact names _ _

theorem namesOnLines_classDef {name : String} {types bases : List Expression}
    (parts : AllOnLines text bases) (names : NamesOnLines text body) :
    NamesOnLines text [.classDef row name types bases body] := by
  refine namesOnLines_singleton fun _ _ => ?_
  refine Walk.onLines_append.mpr ⟨Walk.onLines_append.mpr ⟨?_, ?_⟩, ?_⟩
  · exact Walk.onLines_bind _ _
  · exact (onLines_walkAll _).mpr parts
  · exact names _ _

theorem namesOnLines_decorated {definition : Statement} (parts : AllOnLines text head)
    (names : NamesOnLines text [definition]) :
    NamesOnLines text [.decorated row head definition] :=
  namesOnLines_singleton fun _ _ =>
    Walk.onLines_append.mpr ⟨(onLines_walkAll _).mpr parts, names.walk _ _⟩

end NamesOnLines

/-! ## Simple statements -/

/-- A target and its annotation read names on lines of the text. -/
def Assigned.OnLines (text : List Char) (assigned : Assigned) : Prop :=
  assigned.target.OnLines text ∧ ∀ hint ∈ assigned.hint, hint.OnLines text

theorem Assigned.onLines_walk {assigned : Assigned} (lies : assigned.OnLines text) (scope : ScopeId) :
    (assigned.walk scope).OnLines text := by
  obtain ⟨target, hint⟩ := assigned
  refine Walk.onLines_append.mpr ⟨Walk.onLines_append.mpr ⟨Walk.onLines_bind _ _, ?_⟩, ?_⟩
  · exact (Expression.onLines_walk scope).mpr lies.1
  · cases hint with
    | none => exact nofun
    | some hint => exact (Expression.onLines_walk scope).mpr (lies.2 hint rfl)

theorem onLines_walkTargets {targets : List Assigned}
    (lie : ∀ assigned ∈ targets, assigned.OnLines text) (scope : ScopeId) :
    (walkTargets scope targets).OnLines text := by
  induction targets with
  | nil => exact nofun
  | cons assigned rest ih =>
    obtain ⟨here, there⟩ := List.forall_mem_cons.mp lie
    exact Walk.onLines_append.mpr ⟨Assigned.onLines_walk here scope, ih there⟩

/-- A statement without definitions that reads names on lines of the text. -/
structure Statement.IsPlain (text : List Char) (statement : Statement) : Prop where
  names : NamesOnLines text [statement]
  rows : statement.definitionRows = []

theorem isPlain_simple {parts : List Expression} (lie : AllOnLines text parts) :
    (Statement.simple row parts).IsPlain text :=
  ⟨namesOnLines_singleton fun _ _ => (onLines_walkAll _).mpr lie, rfl⟩

theorem isPlain_imports {names : List String} {wildcard : Bool} :
    (Statement.imports row names wildcard).IsPlain text :=
  ⟨namesOnLines_singleton fun _ _ => nofun, rfl⟩

theorem isPlain_declaration {names : List String} : (Statement.declaration row names).IsPlain text :=
  ⟨namesOnLines_singleton fun _ _ => nofun, rfl⟩

/-- What an assignment has been read as so far reads names on lines of the text. -/
def AssignmentState.OnLines (text : List Char) (state : AssignmentState) : Prop :=
  (∀ assigned ∈ state.targets, assigned.OnLines text) ∧ ∀ value ∈ state.value, AllOnLines text value

namespace Reader

theorem tells_sideItems (place : Place) :
    Tells text (sideItems place) fun found => AllOnLines text found.1 := by
  refine tells_peek fun _ shows => tells_ite ?_ (tells_expressions tells_expression _ _ _)
  exact pass_shown shows ((tells_yieldTail tells_expression _).then fun _ lies =>
    tells_pure (by simpa using lies))

theorem onLines_sideExpression {items : List Expression} (lie : AllOnLines text items)
    (trailing : Bool) : (sideExpression items trailing).OnLines text := by
  unfold sideExpression
  split <;> simpa using lie

theorem tells_assignmentSide {state : AssignmentState} (here : state.OnLines text) :
    Tells text (assignmentSide state) fun next => ∀ state' ∈ next, state'.OnLines text := by
  have targets {items : List Expression} {trailing : Bool} {hint : Option Expression}
      (lie : AllOnLines text items) (hinted : ∀ value ∈ hint, value.OnLines text) :
      ∀ assigned ∈ state.targets ++ [⟨sideExpression items trailing, hint⟩],
        Assigned.OnLines text assigned :=
    List.forall_mem_append.mpr ⟨here.1, List.forall_mem_singleton.mpr
      ⟨onLines_sideExpression lie trailing, hinted⟩⟩
  refine tells_ite tells_none ((tells_sideItems _).then fun found lie => ?_)
  refine tells_peek fun _ shows => tells_ite ?_ (tells_ite ?_ ?_)
  · exact leads_unless (pass_shown shows (tells_some ⟨targets lie nofun, here.2⟩))
  · refine leads_unless (pass_shown shows ?_)
    refine (tells_typeExpression tells_expression _ _ _).then fun hint hinted => ?_
    have hinted : ∀ value ∈ some hint, value.OnLines text := by
      rintro _ ⟨⟩
      exact hinted
    refine (stays_tryMark _ _).bind fun _ => tells_ite (tells_some ⟨targets lie hinted, here.2⟩) ?_
    refine tells_some ⟨targets lie hinted, ?_⟩
    rintro _ ⟨⟩
    exact allOnLines_nil
  · refine tells_some ⟨here.1, ?_⟩
    rintro _ ⟨⟩
    exact lie

theorem tells_expressionStatement (row : Nat) :
    Tells text (expressionStatement row) (Statement.IsPlain text) := by
  have begins : AssignmentState.OnLines text ⟨[], none⟩ :=
    ⟨fun _ member => (nomatch member), fun _ given => (nomatch given)⟩
  refine (tells_iterate (AssignmentState.OnLines text) begins fun _ => tells_assignmentSide).then
    fun state lies => tells_pure ?_
  have value : AllOnLines text (state.value.getD []) := by
    cases given : state.value with
    | none => exact allOnLines_nil
    | some value => exact lies.2 value given
  split
  · exact ⟨namesOnLines_singleton fun _ _ => (onLines_walkAll _).mpr value, rfl⟩
  · refine ⟨namesOnLines_singleton fun _ _ => Walk.onLines_append.mpr ⟨?_, ?_⟩, rfl⟩
    · exact onLines_walkTargets lies.1 _
    · exact (onLines_walkAll _).mpr value

theorem Tells.complete {reader : Reader Statement} {holds : Statement → Prop}
    (tells : Tells text reader holds) : Tells text (reader >>= complete) holds :=
  tells.then fun _ here => tells_peek fun _ _ => tells_ite (tells_pure here) tells_failure

theorem tells_optionalExpressions : Tells text optionalExpressions (AllOnLines text) :=
  tells_peek fun _ _ => tells_ite (tells_pure allOnLines_nil)
    ((tells_expressions tells_expression _ _ _).then fun _ lie => tells_pure lie)

theorem tells_raiseTail : Tells text raiseTail (AllOnLines text) := by
  refine tells_peek fun _ _ => ?_
  extract_lets cause
  have tells (items : List Expression) (lie : AllOnLines text items) :
      Tells text (cause items) (AllOnLines text) := by
    refine tells_peek fun _ shows => tells_ite ?_ (tells_pure lie)
    exact pass_shown shows ((tells_expression _ _).then fun _ lies =>
      tells_pure (by simp [lie, lies]))
  refine tells_ite (Tells.then (tells_pure allOnLines_nil) tells) ?_
  exact (tells_expressions tells_expression _ _ _).then fun _ lie => Tells.then (tells_pure lie) tells

theorem tells_fromImport (row : Nat) : Tells text (fromImport row) (Statement.IsPlain text) := by
  refine stays_leadingDots.bind fun relative => tells_peek fun _ shows => ?_
  extract_lets future names
  have tells (result : Unit) : Tells text (names result) (Statement.IsPlain text) := by
    refine (stays_expectWord _ _).bind fun _ => tells_peek fun _ shows => tells_ite ?_ (tells_ite ?_ ?_)
    · exact pass_shown shows (tells_pure isPlain_imports)
    · exact pass_shown shows ((stays_importedNames _ _ _).bind fun _ =>
        (stays_expectMark _ _).bind fun _ => tells_pure isPlain_imports)
    · exact (stays_importedNames _ _ _).bind fun _ => tells_pure isPlain_imports
  refine leads_ite (fun _ => (stays_pass shows.toIsIn).bind tells) fun _ => ?_
  refine leads_ite (fun _ => ?_) fun _ => tells ()
  exact (stays_dottedName _ _).bind fun _ => tells ()

theorem tells_printTail (row : Nat) : Tells text (printTail row) (Statement.IsPlain text) := by
  refine tells_peek fun _ shows => tells_ite ?_ ?_
  · exact pass_shown shows ((tells_expression _ _).then fun _ lies =>
      (tells_moreExpressions tells_expression _ _ lies).then fun _ lie =>
        tells_pure (isPlain_simple lie))
  · exact (tells_expressions tells_expression _ _ _).then fun _ lie => tells_pure (isPlain_simple lie)

theorem tells_execTail (row : Nat) : Tells text (execTail row) (Statement.IsPlain text) := by
  refine tells_peek fun ahead shows => ?_
  extract_lets scopes
  have tells (code : Expression) (lies : code.OnLines text) :
      Tells text (scopes code) (Statement.IsPlain text) := by
    refine tells_peek fun _ shows => tells_ite ?_ (tells_pure (isPlain_simple (by simpa using lies)))
    exact pass_shown shows ((tells_strictExpressions tells_expression _).then fun _ lie =>
      tells_pure (isPlain_simple (by simp [lies, lie])))
  split
  · rename_i form opened
    exact pass_shown shows
      ((tells_stringLiteral tells_expression (shows.quoted form opened)).then tells)
  · rename_i word read
    exact leads_unless (pass_shown shows
      (Tells.then (tells_pure (by simpa using shows.isRow word read)) tells))
  · exact tells_failure.then tells

theorem tells_typeAliasTail (row : Nat) : Tells text (typeAliasTail row) (Statement.IsPlain text) :=
  (tells_typeExpression tells_expression _ _ _).then fun _ name =>
    (stays_expectMark _ _).bind fun _ =>
      (tells_typeExpression tells_expression _ _ _).then fun _ value =>
        tells_pure (isPlain_simple (by simp [name, value]))

/-- A simple statement defines nothing. -/
theorem tells_simpleStatement : Tells text simpleStatement (Statement.IsPlain text) := by
  have line {row : Nat} {reader : Reader (List Expression)}
      (tells : Tells text reader (AllOnLines text)) :
      Tells text (reader >>= fun items => pure (.simple row items)) (Statement.IsPlain text) :=
    tells.then fun _ lie => tells_pure (isPlain_simple lie)
  refine tells_peek fun ahead shows => ?_
  extract_lets row
  have expressions : Tells text (expressionStatement row) (Statement.IsPlain text) :=
    tells_expressionStatement row
  split
  · exact expressions
  refine tells_ite (pass_shown shows (tells_pure (isPlain_simple allOnLines_nil))) ?_
  refine tells_ite (pass_shown shows (line tells_optionalExpressions)) ?_
  refine tells_ite (pass_shown shows ?_) ?_
  · exact (tells_expressions tells_expression _ _ _).then fun _ lie => tells_pure (isPlain_simple lie)
  refine tells_ite (pass_shown shows (line tells_raiseTail)) ?_
  refine tells_ite (pass_shown shows (line (tells_strictExpressions tells_expression _))) ?_
  refine tells_ite (pass_shown shows ?_) ?_
  · exact stays_nameList.bind fun _ => tells_pure isPlain_declaration
  refine tells_ite (pass_shown shows ?_) ?_
  · exact (stays_importedNames _ _ _).bind fun _ => tells_pure isPlain_imports
  refine tells_ite (pass_shown shows (tells_fromImport _)) ?_
  have prints : Tells text (pass ahead >>= fun _ => printTail row) (Statement.IsPlain text) :=
    pass_shown shows (tells_printTail row)
  refine tells_ite (tells_ite prints (.orElse expressions.complete prints)) ?_
  refine tells_ite (.orElse (pass_shown shows (tells_execTail _).complete) expressions) ?_
  exact tells_ite (.orElse (pass_shown shows (tells_typeAliasTail _).complete) expressions) expressions

end Reader

end StrategyMend.Python
