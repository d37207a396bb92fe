import StrategyMend.Python.Module

/-!
# The order of clauses

The grammar attaches every later clause to the clause before it: an `elif` to an `if` or `elif`, an
`else` to one of these, a loop or a handler. So it is in every source that can be read
(`Module.ordered_of_read`).
-/

set_option autoImplicit false

namespace StrategyMend.Python

/-! ## What a reader gives -/

namespace Reader

variable {α β : Type}

/-- Whatever the reader gives has the property. -/
def Gives (reader : Reader α) (property : α → Prop) : Prop :=
  ∀ cursor result after, reader cursor = some (result, after) → property result

theorem gives_pure {property : α → Prop} {result : α} (holds : property result) :
    Gives (pure result) property := by
  intro cursor given after read
  cases read
  exact holds

theorem gives_failure {property : α → Prop} : Gives failure property := by
  intro cursor given after read
  cases read

theorem Gives.bind {reader : Reader α} {next : α → Reader β} {middle : α → Prop}
    {property : β → Prop} (first : Gives reader middle)
    (second : ∀ result, middle result → Gives (next result) property) :
    Gives (reader >>= next) property := by
  intro cursor result after read
  obtain ⟨⟨between, cursor'⟩, here, there⟩ := Option.bind_eq_some_iff.mp read
  exact second between (first cursor between cursor' here) cursor' result after there

/-- Nothing need be known about the first part. -/
theorem gives_bind {reader : Reader α} {next : α → Reader β} {property : β → Prop}
    (second : ∀ result, Gives (next result) property) : Gives (reader >>= next) property :=
  Gives.bind (fun _ _ _ _ => trivial) fun result (_ : True) => second result

theorem Gives.orElse {reader other : Reader α} {property : α → Prop}
    (first : Gives reader property) (second : Gives other property) :
    Gives (reader <|> other) property := by
  intro cursor result after read
  change (reader cursor <|> other cursor) = some (result, after) at read
  cases here : reader cursor with
  | none =>
    rw [here] at read
    exact second cursor result after read
  | some given =>
    rw [here] at read
    cases read
    exact first cursor result after here

theorem gives_ite {condition : Prop} [Decidable condition] {first second : Reader α}
    {property : α → Prop} (yes : Gives first property) (no : Gives second property) :
    Gives (if condition then first else second) property := by
  split
  · exact yes
  · exact no

theorem gives_iterateFor {step : α → Reader (Option α)} {property : α → Prop}
    (preserves : ∀ state, property state →
      Gives (step state) fun next => ∀ state', next = some state' → property state')
    (fuel : Nat) {state : α} (holds : property state) :
    Gives (iterateFor step fuel state) property := by
  induction fuel generalizing state with
  | zero => exact gives_failure
  | succ fuel ih =>
    refine (preserves state holds).bind fun next kept => ?_
    cases next with
    | none => exact gives_pure holds
    | some state' => exact ih (kept state' rfl)

/-- What each step keeps holds in the end. -/
theorem gives_iterate {step : α → Reader (Option α)} (property : α → Prop) {start : α}
    (holds : property start)
    (preserves : ∀ state, property state →
      Gives (step state) fun next => ∀ state', next = some state' → property state') :
    Gives (iterate step start) property :=
  gives_bind fun _ => gives_iterateFor preserves _ holds

end Reader

/-! ## Clauses and the clauses before them -/

namespace BlockKind

/-- Whether the block is a later clause of a statement. -/
def isLater (kind : BlockKind) : Bool :=
  kind = elifClause || kind = elseClause || kind = exceptClause || kind = finallyClause

/-- Whether a clause of this kind may come after a clause of the kind `previous`. -/
def follows (kind previous : BlockKind) : Bool :=
  match kind with
  | elifClause => previous = ifStatement || previous = elifClause
  | elseClause => previous = ifStatement || previous = elifClause || previous = whileStatement ||
      previous = forStatement || previous = exceptClause
  | exceptClause => previous = tryStatement || previous = exceptClause
  | finallyClause => previous = tryStatement || previous = exceptClause || previous = elseClause
  | _ => false

end BlockKind

/-- A later clause and the clause before it, by their rows and kinds. -/
structure Joint where
  openerRow : Nat
  openerKind : BlockKind
  row : Nat
  kind : BlockKind
  deriving DecidableEq

/-- The row and the kind of a later clause. -/
def Statement.clause? : Statement → Option (Nat × BlockKind)
  | .block row kind _ _ => if kind.isLater then some (row, kind) else none
  | _ => none

mutual

/-- All later clauses in a statement. -/
def Statement.joints : Statement → List Joint
  | .block row kind _ body => jointsBehind row kind body
  | .function _ _ _ _ _ body => jointsIn body
  | .classDef _ _ _ _ body => jointsIn body
  | .decorated _ _ definition => definition.joints
  | _ => []

/-- All later clauses in statements none of which is one. -/
def jointsIn : List Statement → List Joint
  | [] => []
  | statement :: rest => statement.joints ++ jointsIn rest

/-- All later clauses in the parts of a statement, where the clause before has the given row and
kind. -/
def jointsBehind (row : Nat) (kind : BlockKind) : List Statement → List Joint
  | [] => []
  | statement :: rest =>
    match statement.clause? with
    | some (row', kind') =>
      ⟨row, kind, row', kind'⟩ :: (statement.joints ++ jointsBehind row' kind' rest)
    | none => statement.joints ++ jointsBehind row kind rest

end

/-- All later clauses in a source. -/
def Module.joints (module : Module) : List Joint := jointsIn module.statements

/-- In the statement every later clause may come after the clause before it. -/
def Statement.Ordered (statement : Statement) : Prop :=
  ∀ joint ∈ statement.joints, joint.kind.follows joint.openerKind = true

/-- The statements are no later clauses, and in them every later clause may come after the clause
before it. -/
def Ordered (statements : List Statement) : Prop :=
  ∀ statement ∈ statements, statement.clause? = none ∧ statement.Ordered

/-- The statement is a later clause of the given kind, and in order. -/
structure Statement.IsClause (kind : BlockKind) (statement : Statement) : Prop where
  later : ∃ row, statement.clause? = some (row, kind)
  ordered : statement.Ordered

/-- Later clauses each of which may come after the one before, the first after the kind `previous`. -/
inductive Chain : (previous : BlockKind) → List Statement → Prop where
  | nil {previous : BlockKind} : Chain previous []
  | cons {previous kind : BlockKind} {clause : Statement} {rest : List Statement}
      (follows : kind.follows previous = true) (isClause : clause.IsClause kind)
      (more : Chain kind rest) : Chain previous (clause :: rest)

theorem ordered_nil : Ordered [] := fun _ member => by cases member

theorem Ordered.append {first second : List Statement} (ordered : Ordered first)
    (ordered' : Ordered second) : Ordered (first ++ second) := by
  intro statement member
  rcases List.mem_append.mp member with here | there
  · exact ordered statement here
  · exact ordered' statement there

theorem ordered_singleton {statement : Statement} (plain : statement.clause? = none)
    (ordered : statement.Ordered) : Ordered [statement] := by
  intro other member
  obtain rfl := List.mem_singleton.mp member
  exact ⟨plain, ordered⟩

theorem Ordered.of_mem_jointsIn {statements : List Statement} (ordered : Ordered statements)
    {joint : Joint} (member : joint ∈ jointsIn statements) :
    joint.kind.follows joint.openerKind = true := by
  induction statements with
  | nil => cases member
  | cons statement rest ih =>
    rcases List.mem_append.mp member with here | there
    · exact (ordered statement (by simp)).2 joint here
    · exact ih (fun other listed => ordered other (List.mem_cons_of_mem statement listed)) there

theorem Chain.of_mem_jointsBehind {clauses : List Statement} {previous : BlockKind}
    (chain : Chain previous clauses) {row : Nat} {joint : Joint}
    (member : joint ∈ jointsBehind row previous clauses) :
    joint.kind.follows joint.openerKind = true := by
  induction chain generalizing row with
  | nil => cases member
  | cons follows isClause more ih =>
    obtain ⟨row', later⟩ := isClause.later
    rw [jointsBehind, later] at member
    rcases List.mem_cons.mp member with rfl | member
    · exact follows
    · rcases List.mem_append.mp member with here | there
      · exact isClause.ordered joint here
      · exact ih there

/-- Clauses that may repeat themselves come before clauses that may come after them. -/
theorem Chain.append {previous kind : BlockKind} {clauses rest : List Statement}
    (run : ∀ clause ∈ clauses, clause.IsClause kind) (repeats : kind.follows kind = true)
    (follows : kind.follows previous = true) (more : Chain kind rest)
    (bare : clauses = [] → Chain previous rest) : Chain previous (clauses ++ rest) := by
  induction clauses generalizing previous with
  | nil => exact bare rfl
  | cons clause clauses ih =>
    refine .cons follows (run clause (by simp)) ?_
    exact ih (fun other listed => run other (List.mem_cons_of_mem clause listed)) repeats
      fun _ => more

/-- A statement is in order if its body is and its clauses follow one another. -/
theorem ordered_block (row : Nat) {kind : BlockKind} (head : List Expression)
    {body clauses : List Statement} (ordered : Ordered body) (chain : Chain kind clauses) :
    (Statement.block row kind head (body ++ clauses)).Ordered := by
  intro joint member
  change joint ∈ jointsBehind row kind (body ++ clauses) at member
  induction body with
  | nil => exact chain.of_mem_jointsBehind member
  | cons statement rest ih =>
    obtain ⟨plain, here⟩ := ordered statement (by simp)
    rw [List.cons_append, jointsBehind, plain] at member
    rcases List.mem_append.mp member with inside | behind
    · exact here joint inside
    · exact ih (fun other listed => ordered other (List.mem_cons_of_mem statement listed)) behind

/-- So a statement with its clauses is no later clause, and in order. -/
theorem ordered_statement (row : Nat) {kind : BlockKind} (head : List Expression)
    {body clauses : List Statement} (first : kind.isLater = false) (ordered : Ordered body)
    (chain : Chain kind clauses) : Ordered [Statement.block row kind head (body ++ clauses)] :=
  ordered_singleton (by simp [Statement.clause?, first]) (ordered_block row head ordered chain)

/-- A statement without later clauses. -/
theorem ordered_body {row : Nat} {kind : BlockKind} {head : List Expression}
    {body : List Statement} (first : kind.isLater = false) (ordered : Ordered body) :
    Ordered [Statement.block row kind head body] := by
  simpa using ordered_statement row head first ordered .nil

/-! ## Simple statements -/

/-- A statement on one line has no clauses. -/
theorem ordered_simple (row : Nat) (parts : List Expression) :
    Ordered [Statement.simple row parts] :=
  ordered_singleton rfl fun _ member => nomatch member

theorem ordered_imports (row : Nat) (names : List String) (wildcard : Bool) :
    Ordered [Statement.imports row names wildcard] :=
  ordered_singleton rfl fun _ member => nomatch member

theorem ordered_declaration (row : Nat) (names : List String) :
    Ordered [Statement.declaration row names] :=
  ordered_singleton rfl fun _ member => nomatch member

namespace Reader

/-- What the reader gives is no later clause, and in order. -/
abbrev GivesOrdered (reader : Reader Statement) : Prop :=
  Gives reader fun statement => Ordered [statement]

theorem gives_expressionStatement (row : Nat) : GivesOrdered (expressionStatement row) := by
  refine gives_bind fun state => gives_pure ?_
  split
  · exact ordered_singleton rfl fun _ member => nomatch member
  · exact ordered_singleton rfl fun _ member => nomatch member

theorem gives_complete {statement : Statement} (ordered : Ordered [statement]) :
    GivesOrdered (complete statement) := by
  refine gives_bind fun ahead => ?_
  split
  · exact gives_pure ordered
  · exact gives_failure

theorem gives_fromImport (row : Nat) : GivesOrdered (fromImport row) := by
  refine gives_bind fun relative => gives_bind fun ahead => ?_
  dsimp only
  repeat' first
    | exact gives_pure (ordered_imports _ _ _)
    | refine gives_bind fun _ => ?_
    | split

theorem gives_printTail (row : Nat) : GivesOrdered (printTail row) := by
  refine gives_bind fun ahead => ?_
  split
  · exact gives_bind fun _ => gives_bind fun _ => gives_bind fun _ =>
      gives_pure (ordered_simple _ _)
  · exact gives_bind fun _ => gives_pure (ordered_simple _ _)

theorem gives_execTail (row : Nat) : GivesOrdered (execTail row) := by
  refine gives_bind fun ahead => ?_
  dsimp only
  repeat' first
    | exact gives_pure (ordered_simple _ _)
    | refine gives_bind fun _ => ?_
    | split

theorem gives_typeAliasTail (row : Nat) : GivesOrdered (typeAliasTail row) :=
  gives_bind fun _ => gives_bind fun _ => gives_bind fun _ => gives_pure (ordered_simple _ _)

theorem gives_simpleStatement : GivesOrdered simpleStatement := by
  have expressions (row : Nat) := gives_expressionStatement row
  have simple (row : Nat) (reader : Reader (List Expression)) :
      GivesOrdered (reader >>= fun items => pure (.simple row items)) :=
    gives_bind fun items => gives_pure (ordered_simple row items)
  refine gives_bind fun ahead => ?_
  dsimp only
  split
  · exact expressions _
  refine gives_ite (gives_bind fun _ => gives_pure (ordered_simple _ _)) ?_
  refine gives_ite (gives_bind fun _ => simple _ _) ?_
  refine gives_ite (gives_bind fun _ => gives_bind fun _ => gives_pure (ordered_simple _ _)) ?_
  refine gives_ite (gives_bind fun _ => simple _ _) ?_
  refine gives_ite (gives_bind fun _ => simple _ _) ?_
  refine gives_ite (gives_bind fun _ => gives_bind fun _ => gives_pure (ordered_declaration _ _)) ?_
  refine gives_ite (gives_bind fun _ => gives_bind fun _ => gives_pure (ordered_imports _ _ _)) ?_
  refine gives_ite (gives_bind fun _ => gives_fromImport _) ?_
  refine gives_ite (gives_ite (gives_bind fun _ => gives_printTail _) ?_) ?_
  · exact ((expressions _).bind fun _ => gives_complete).orElse
      (gives_bind fun _ => gives_printTail _)
  refine gives_ite (Gives.orElse ?_ (expressions _)) ?_
  · exact gives_bind fun _ => (gives_execTail _).bind fun _ => gives_complete
  refine gives_ite (Gives.orElse ?_ (expressions _)) (expressions _)
  exact gives_bind fun _ => (gives_typeAliasTail _).bind fun _ => gives_complete

theorem gives_simpleStatements : Gives simpleStatements Ordered := by
  refine gives_simpleStatement.bind fun first ordered => ?_
  refine Gives.bind (gives_iterate (fun state => Ordered state.1) ordered ?_)
    fun state kept => gives_pure kept
  rintro ⟨statements, done⟩ kept
  have finished : ∀ state, some (statements, true) = some state → Ordered state.1 := by
    rintro state ⟨⟩
    exact kept
  refine gives_ite (gives_pure nofun) (gives_bind fun ahead => ?_)
  refine gives_ite (gives_pure finished) (gives_ite (gives_bind fun _ => ?_) gives_failure)
  refine gives_bind fun next => gives_ite (gives_pure finished) ?_
  refine gives_simpleStatement.bind fun statement ordered => gives_pure ?_
  rintro state ⟨⟩
  exact kept.append ordered

/-! ## Blocks -/

/-- A block is in order if its parts are. -/
theorem gives_indented {part : Lookahead → Reader (List Statement)}
    (parts : ∀ ahead, Gives (part ahead) Ordered) (column : Nat) :
    Gives (indented column part) Ordered := by
  refine gives_bind fun _ => Gives.bind (gives_iterate Ordered ordered_nil ?_)
    fun statements ordered => gives_bind fun _ => gives_pure ordered
  intro statements ordered
  refine gives_bind fun ahead? => ?_
  split
  · refine (parts _).bind fun found ordered' => gives_pure ?_
    rintro state ⟨⟩
    exact ordered.append ordered'
  · exact gives_pure nofun

section Blocks

variable {statement : Reader (List Statement)} (inner : Gives statement Ordered)
include inner

theorem gives_suite : Gives (suite statement) Ordered := by
  refine gives_bind fun cursor => gives_bind fun ahead => ?_
  split
  · exact gives_simpleStatements
  · exact gives_ite (gives_indented (fun _ => inner) _) (gives_pure ordered_nil)

theorem gives_colonSuite : Gives (colonSuite statement) Ordered :=
  gives_bind fun _ => gives_suite inner

/-! ## Clauses -/

theorem gives_clause (row : Nat) {kind : BlockKind} (later : kind.isLater = true)
    (head : Reader (List Expression)) :
    Gives (clause row kind head statement) (Statement.IsClause kind) := by
  refine gives_bind fun head => (gives_colonSuite inner).bind fun body ordered => gives_pure ?_
  refine ⟨⟨row, by simp [Statement.clause?, later]⟩, ?_⟩
  simpa using ordered_block row head ordered .nil

/-- One clause without a head, or none: what may come after either may come after both. -/
theorem gives_optionalClause {kind : BlockKind} (later : kind.isLater = true) (keyword : String) :
    Gives (optionalClause kind keyword statement) fun found =>
      ∀ previous rest, kind.follows previous = true → Chain kind rest → Chain previous rest →
        Chain previous (found ++ rest) := by
  refine gives_bind fun ahead? => ?_
  have none : ∀ previous rest, kind.follows previous = true → Chain kind rest →
      Chain previous rest → Chain previous ([] ++ rest) := fun _ _ _ _ more => more
  split
  · refine gives_ite (gives_bind fun _ => ?_) (gives_pure none)
    refine (gives_clause inner _ later _).bind fun found isClause => gives_pure ?_
    exact fun previous rest follows more _ => .cons follows isClause more
  · exact gives_pure none

theorem gives_elifClauses :
    Gives (elifClauses statement) fun found => ∀ clause ∈ found, clause.IsClause .elifClause := by
  refine gives_iterate _ (fun _ member => nomatch member) fun clauses kept => ?_
  refine gives_bind fun ahead? => ?_
  split
  · refine gives_ite (gives_bind fun _ => ?_) (gives_pure nofun)
    refine (gives_clause inner _ rfl _).bind fun found isClause => gives_pure ?_
    rintro state ⟨⟩ clause member
    rcases List.mem_append.mp member with before | last
    · exact kept clause before
    · obtain rfl := List.mem_singleton.mp last
      exact isClause
  · exact gives_pure nofun

/-! ## Statements with blocks -/

theorem gives_ifTail (row : Nat) : GivesOrdered (ifTail row statement) := by
  refine gives_bind fun condition => (gives_colonSuite inner).bind fun body ordered => ?_
  refine (gives_elifClauses inner).bind fun elifs run => ?_
  refine (gives_optionalClause inner rfl _).bind fun otherwise last => gives_pure ?_
  have ending (previous : BlockKind) (follows : BlockKind.elseClause.follows previous = true) :
      Chain previous otherwise := by simpa using last previous [] follows .nil .nil
  rw [List.append_assoc]
  exact ordered_statement _ _ rfl ordered
    (.append run rfl rfl (ending _ rfl) fun _ => ending _ rfl)

theorem gives_whileTail (row : Nat) : GivesOrdered (whileTail row statement) := by
  refine gives_bind fun condition => (gives_colonSuite inner).bind fun body ordered => ?_
  refine (gives_optionalClause inner rfl _).bind fun otherwise last => gives_pure ?_
  exact ordered_statement _ _ rfl ordered (by simpa using last _ [] rfl .nil .nil)

theorem gives_forTail (row : Nat) : GivesOrdered (forTail row statement) := by
  refine gives_bind fun target => gives_bind fun sources => ?_
  refine (gives_colonSuite inner).bind fun body ordered => ?_
  refine (gives_optionalClause inner rfl _).bind fun otherwise last => gives_pure ?_
  exact ordered_statement _ _ rfl ordered (by simpa using last _ [] rfl .nil .nil)

theorem gives_withTail (row : Nat) : GivesOrdered (withTail row statement) :=
  gives_bind fun _ => (gives_colonSuite inner).bind fun _ ordered =>
    gives_pure (ordered_body rfl ordered)

theorem gives_tryTail (row : Nat) : GivesOrdered (tryTail row statement) := by
  refine (gives_colonSuite inner).bind fun body ordered => ?_
  refine Gives.bind (gives_iterate (fun found => ∀ clause ∈ found, clause.IsClause .exceptClause)
    (fun _ member => nomatch member) fun handlers run => ?_) fun handlers run => ?_
  · have extend (head : Reader (List Expression)) (row : Nat) :
        Gives (clause row .exceptClause head statement >>= fun found =>
          pure (some (handlers ++ [found]))) fun next =>
            ∀ state, next = some state → ∀ clause ∈ state, clause.IsClause .exceptClause := by
      refine (gives_clause inner row rfl head).bind fun found isClause => gives_pure ?_
      rintro state ⟨⟩ clause member
      rcases List.mem_append.mp member with before | last
      · exact run clause before
      · obtain rfl := List.mem_singleton.mp last
        exact isClause
    refine gives_bind fun ahead? => ?_
    split
    · refine gives_ite (gives_bind fun _ => ?_) (gives_pure nofun)
      exact gives_ite (gives_bind fun _ => extend _ _) (extend _ _)
    · exact gives_pure nofun
  · cases handlers with
    | nil =>
      simp only [List.isEmpty_nil, ↓reduceIte, pure_bind, Bool.true_and]
      refine (gives_optionalClause inner rfl _).bind fun last behind => ?_
      have ending : Chain .tryStatement last := by simpa using behind _ [] rfl .nil .nil
      have done := ordered_statement row [] rfl ordered ending
      refine gives_ite (gives_bind fun _ => gives_pure ?_) (gives_pure ?_)
      all_goals simpa using done
    | cons handler handlers =>
      simp only [List.isEmpty_cons, Bool.false_eq_true, ↓reduceIte, Bool.false_and]
      refine (gives_optionalClause inner rfl _).bind fun otherwise next => ?_
      refine (gives_optionalClause inner rfl _).bind fun last behind => gives_pure ?_
      have ending (previous : BlockKind) (follows : BlockKind.finallyClause.follows previous = true) :
          Chain previous last := by simpa using behind previous [] follows .nil .nil
      rw [List.append_assoc, List.append_assoc]
      refine ordered_statement _ _ rfl ordered (.append run rfl rfl ?_ nofun)
      exact next _ last rfl (ending _ rfl) (ending _ rfl)

theorem gives_caseTail (row : Nat) : GivesOrdered (caseTail row statement) := by
  refine gives_bind fun first => gives_bind fun names => gives_bind fun ahead => ?_
  dsimp only
  refine gives_ite (gives_bind fun _ => gives_bind fun _ => ?_) ?_
  all_goals
    refine gives_bind fun guard => (gives_colonSuite inner).bind fun body ordered => ?_
    exact gives_pure (ordered_body rfl ordered)

theorem gives_matchTail (row : Nat) : GivesOrdered (matchTail row statement) := by
  refine gives_bind fun subjects => gives_bind fun _ => gives_bind fun cursor => ?_
  refine gives_bind fun ahead => ?_
  split
  · exact gives_failure
  · refine gives_ite (Gives.bind (gives_indented (fun next => ?_) _) fun cases ordered => ?_) ?_
    · refine gives_ite (gives_bind fun _ => (gives_caseTail inner _).bind fun found ordered => ?_)
        gives_failure
      exact gives_pure ordered
    · exact gives_pure (ordered_body rfl ordered)
    · exact gives_pure (ordered_body rfl ordered_nil)

theorem gives_functionTail (row : Nat) : GivesOrdered (functionTail row statement) := by
  refine gives_bind fun name => gives_bind fun types => gives_bind fun _ => ?_
  refine gives_bind fun parameters => gives_bind fun _ => gives_bind fun arrow => ?_
  dsimp only
  refine gives_ite (gives_bind fun value => ?_) ?_
  all_goals
    refine gives_bind fun returns => (gives_colonSuite inner).bind fun body ordered => ?_
    exact gives_pure (ordered_singleton rfl fun joint member => ordered.of_mem_jointsIn member)

theorem gives_classTail (row : Nat) : GivesOrdered (classTail row statement) := by
  refine gives_bind fun name => gives_bind fun types => gives_bind fun bracket => ?_
  dsimp only
  refine gives_ite ?_ ?_
  all_goals
    refine gives_bind fun bases => (gives_colonSuite inner).bind fun body ordered => ?_
    exact gives_pure (ordered_singleton rfl fun joint member => ordered.of_mem_jointsIn member)

theorem gives_decoratedDefinition (row : Nat) :
    GivesOrdered (decoratedDefinition row statement) := by
  have decorated (decorators : List Expression) {definition : Reader Statement}
      (gives : GivesOrdered definition) :
      GivesOrdered (definition >>= fun found => pure (.decorated row decorators found)) :=
    gives.bind fun found ordered => gives_pure (ordered_singleton rfl (ordered found (by simp)).2)
  refine gives_bind fun decorators => gives_bind fun ahead => ?_
  split
  · exact gives_bind fun _ => decorated _ (gives_classTail inner _)
  · exact gives_bind fun _ => decorated _ (gives_functionTail inner _)
  · exact gives_bind fun _ => gives_bind fun _ => decorated _ (gives_functionTail inner _)
  · exact gives_failure

theorem gives_asyncTail (row : Nat) :
    Gives (asyncTail row statement) fun found? => ∀ found, found? = some found → Ordered [found] := by
  have certain {reader : Reader Statement} (gives : GivesOrdered reader) :
      Gives (reader >>= fun found => pure (some found)) fun found? =>
        ∀ found, found? = some found → Ordered [found] := by
    refine gives.bind fun found ordered => gives_pure ?_
    rintro found ⟨⟩
    exact ordered
  refine gives_bind fun ahead => ?_
  split
  · exact gives_bind fun _ => certain (gives_functionTail inner row)
  · exact gives_bind fun _ => certain (gives_forTail inner row)
  · exact gives_bind fun _ => certain (gives_withTail inner row)
  · exact gives_pure nofun

theorem gives_compoundTail? {word : String} {tail : Nat → Reader (List Statement) → Reader Statement}
    (chosen : compoundTail? word = some tail) (row : Nat) : GivesOrdered (tail row statement) := by
  unfold compoundTail? at chosen
  split at chosen
  · cases chosen
    exact gives_ifTail inner row
  split at chosen
  · cases chosen
    exact gives_whileTail inner row
  split at chosen
  · cases chosen
    exact gives_forTail inner row
  split at chosen
  · cases chosen
    exact gives_tryTail inner row
  split at chosen
  · cases chosen
    exact gives_withTail inner row
  split at chosen
  · cases chosen
    exact gives_functionTail inner row
  split at chosen
  · cases chosen
    exact gives_classTail inner row
  · cases chosen

end Blocks

/-- By induction on the nesting: whatever a statement is read as is in order. -/
theorem gives_statementOfDepth (depth : Nat) : Gives (statementOfDepth depth) Ordered := by
  induction depth with
  | zero => exact gives_failure
  | succ depth inner =>
    refine gives_bind fun _ => gives_bind fun cursor => gives_bind fun ahead => ?_
    refine gives_ite ((gives_decoratedDefinition inner _).bind fun _ => gives_pure) ?_
    split
    · exact gives_simpleStatements
    split
    · rename_i chosen
      exact gives_bind fun _ => (gives_compoundTail? inner chosen _).bind fun _ => gives_pure
    refine gives_ite (gives_bind fun _ => ?_) (gives_ite (Gives.orElse ?_ ?_) ?_)
    · refine (gives_asyncTail inner _).bind fun found? ordered => ?_
      split
      · exact gives_pure (ordered _ rfl)
      · exact gives_bind fun _ => gives_simpleStatements
    · exact gives_bind fun _ => (gives_matchTail inner _).bind fun _ => gives_pure
    · exact gives_simpleStatements
    · exact gives_simpleStatements

end Reader

/-! ## Sources -/

namespace Module

/-- A source that can be read is read from its start. -/
theorem readFrom_of_read {source : String} {module : Module} (read : Module.read source = .ok module) :
    readFrom (source.toList.length + 1) [] ⟨source.toList, 0, []⟩ = .ok module.statements := by
  unfold Module.read at read
  cases given : readFrom (source.toList.length + 1) [] ⟨source.toList, 0, []⟩ with
  | error bad => simp [given, Except.map] at read
  | ok statements =>
    simp only [given, Except.map, Except.ok.injEq] at read
    rw [← read]

theorem ordered_of_readFrom {fuel : Nat} {before statements : List Statement} {cursor : Cursor}
    (ordered : Ordered before) (read : readFrom fuel before cursor = .ok statements) :
    Ordered statements := by
  induction fuel generalizing before cursor with
  | zero => cases read
  | succ fuel ih =>
    rw [readFrom] at read
    dsimp only at read
    split at read
    · cases read
      exact ordered
    · split at read
      · rename_i found next here
        exact ih (ordered.append (Reader.gives_statementOfDepth _ _ _ _ here)) read
      · cases read

/-- **Every later clause in a source comes after a clause that it may continue.** -/
theorem ordered_of_read {text : String} {module : Module} (read : Module.read text = .ok module)
    {joint : Joint} (member : joint ∈ module.joints) :
    joint.kind.follows joint.openerKind = true :=
  (ordered_of_readFrom ordered_nil (readFrom_of_read read)).of_mem_jointsIn member

end Module

end StrategyMend.Python
