import StrategyMend.Proofs.Python.Derivation
import StrategyMend.Python.Definition

/-!
# Where statements begin

A statement without a block is read at a position where a statement may begin, and its row is the one
of that position (`Begun`). A function is read from the first lexeme of a line, with its header and its
body (`FunctionBegun`). So it is for all statements that can be derived (`Derives.begunUpTo`), those in
blocks included, and for all statements of a source (`Module.allBegun_of_read`).

What is read behind a statement begins a line again, since every statement ends at a line break
(`Cursor.Ended`), and only the beginning of the source stands behind none.
-/

set_option autoImplicit false

namespace StrategyMend.Python

/-! ## Positions -/

namespace Cursor

variable {text : List Char} {cursor : Cursor}

/-- A statement may begin at the cursor. -/
structure Ready (text : List Char) (cursor : Cursor) : Prop where
  isAt : cursor.IsAt text
  starts : cursor.Starts text

/-- A statement has ended at the cursor. -/
structure Ended (text : List Char) (cursor : Cursor) : Prop where
  isAt : cursor.IsAt text
  broken : cursor.IsBroken

/-- What comes next begins a line. -/
structure Opens (text : List Char) (cursor : Cursor) : Prop where
  isAt : cursor.IsAt text
  first : cursor.IsBroken ∨ cursor = ⟨text, 0, []⟩

theorem Ended.opens (ended : cursor.Ended text) : cursor.Opens text :=
  ⟨ended.isAt, .inl ended.broken⟩

theorem Opens.ready (opens : cursor.Opens text) : cursor.Ready text := by
  refine ⟨opens.isAt, ?_⟩
  rcases opens.first with broken | rfl
  · exact opens.isAt.starts broken
  · exact starts_of_ready (show text = [] ++ [] ++ text from rfl) rfl nofun (.inl nofun)

theorem Ready.settled (ready : cursor.Ready text) : cursor.settled.Ready text :=
  ⟨ready.isAt.settled.1, ready.starts.settled⟩

/-- Where the next lexeme has a column, a line break stands before it. -/
theorem isBroken_of_column? {column : Nat} (here : cursor.lookahead.1.column? = some column) :
    cursor.IsBroken := by
  intro none
  rw [Lookahead.column?, none] at here
  cases here

end Cursor

/-! ## Statements -/

/-- The statement is read from a position where a statement may begin. -/
def Begun (text : List Char) (statement : Statement) : Prop :=
  ∃ cursor after, cursor.Starts text ∧ simpleStatement cursor = some (statement, after) ∧
    statement.row = cursor.lookahead.1.row

/-- The function is read from the beginning of a line: its header and then its body. -/
inductive FunctionBegun (text : List Char) (function : FunctionInfo) : Prop where
  | intro {start behind next : Cursor} (opens : start.Opens text) (inside : start.Inside)
    (row_eq : function.row = start.lookahead.1.row) (heads : start.Heads "def" behind)
    (suite : Derives .suite behind function.body next)

/-- All statements without a block and all functions are read from such positions. -/
structure AllBegun (text : List Char) (statements : List Statement) : Prop where
  lines : ∀ statement ∈ simplesIn true statements, Begun text statement
  functions : ∀ function ∈ functionsIn statements, FunctionBegun text function

theorem functionsIn_eq_flatMap (statements : List Statement) :
    functionsIn statements = statements.flatMap Statement.functions := by
  induction statements with
  | nil => rfl
  | cons statement rest ih => rw [functionsIn, ih, List.flatMap_cons]

@[simp] theorem functionsIn_append (first second : List Statement) :
    functionsIn (first ++ second) = functionsIn first ++ functionsIn second := by
  simp only [functionsIn_eq_flatMap, List.flatMap_append]

section AllBegun

variable {text : List Char} {first second body : List Statement}

theorem allBegun_nil : AllBegun text [] := ⟨nofun, nofun⟩

theorem AllBegun.append (begun : AllBegun text first) (begun' : AllBegun text second) :
    AllBegun text (first ++ second) := by
  refine ⟨fun statement member => ?_, fun function member => ?_⟩
  · rw [simplesIn_append] at member
    exact (List.mem_append.mp member).elim (begun.lines statement) (begun'.lines statement)
  · rw [functionsIn_append] at member
    exact (List.mem_append.mp member).elim (begun.functions function) (begun'.functions function)

/-- A statement whose block is the body of another one has the same statements in it. -/
theorem AllBegun.enclose {statement : Statement} (begun : AllBegun text body)
    (simples : statement.simples true = simplesIn true body)
    (functions : statement.functions = functionsIn body) : AllBegun text [statement] := by
  refine ⟨fun other member => begun.lines other ?_, fun function member => begun.functions function ?_⟩
  · rwa [simplesIn, simplesIn, List.append_nil, simples] at member
  · rwa [functionsIn, functionsIn, List.append_nil, functions] at member

/-- A function is one more than those in its body. -/
theorem AllBegun.function {row : Nat} {name : String} {types parameters returns : List Expression}
    (begun : AllBegun text body) (function : FunctionBegun text ⟨row, name, body⟩) :
    AllBegun text [.function row name types parameters returns body] := by
  refine ⟨fun other member => begun.lines other ?_, fun other member => ?_⟩
  · simpa [simplesIn, Statement.simples] using member
  · rw [functionsIn, functionsIn, List.append_nil, Statement.functions] at member
    rcases List.mem_cons.mp member with rfl | inside
    · exact function
    · exact begun.functions other inside

/-- A statement without a block. -/
theorem AllBegun.simple {statement : Statement} (simple : statement.isSimple = true)
    (begun : Begun text statement) : AllBegun text [statement] := by
  have functions : statement.functions = [] := by
    cases statement <;> first | rfl | cases simple
  refine ⟨fun other member => ?_, fun other member => ?_⟩
  · rw [simplesIn, simplesIn, List.append_nil, Statement.simples_of_isSimple simple] at member
    exact List.mem_singleton.mp member ▸ begun
  · rw [functionsIn, functionsIn, List.append_nil, functions] at member
    cases member

end AllBegun

/-! ## Lines of statements -/

namespace Reader

variable {text : List Char}

theorem leads_begun : Leads (Cursor.Ready text) simpleStatement fun statement cursor =>
    AllBegun text [statement] ∧ cursor.IsAt text := by
  intro cursor statement after ready read
  obtain ⟨line, here⟩ := @Track.leads_simpleStatement (.along text) 1 Track.readsStrings_along
    (.inr trivial) _ cursor statement after ⟨ready.isAt, .inl Nat.one_pos, rfl⟩ read
  exact ⟨.simple line.isSimple ⟨cursor, after, ready.starts, read, line.row_eq⟩, here⟩

/-- The statements of a line begin at its start or behind a semicolon. -/
theorem leads_begunLine : Leads (Cursor.Ready text) simpleStatements fun found cursor =>
    AllBegun text found ∧ cursor.Ended text := by
  refine leads_begun.bind fun first => ((leads_iterate
    (fun state cursor => AllBegun text state.1 ∧ cursor.IsAt text ∧
      (state.2 = true → cursor.IsBroken))
    (fun state cursor => AllBegun text state.1 ∧ cursor.Ended text) fun state => ?_).weaken ?_).bind
      fun state => leads_pure fun _ found => found
  · obtain ⟨statements, done⟩ := state
    refine leads_from fun cursor ⟨begun, here, ended⟩ => ?_
    refine leads_ite (fun finished => leads_pure_from ⟨begun, here, ended finished⟩) fun _ => ?_
    refine leads_peek_from fun ahead seen => leads_ite (fun lineBreak => leads_pure_from ?_) fun _ => ?_
    · exact ⟨begun, here, fun _ => Cursor.isBroken_of_peek? seen lineBreak⟩
    refine leads_ite (fun semicolon => leads_pass_from ?_) fun _ => leads_failure
    have inside := here.peek? seen
    refine leads_peek_from fun next seen' => leads_ite (fun lineBreak => leads_pure_from ?_) fun _ => ?_
    · exact ⟨begun, inside.isAt, fun _ => Cursor.isBroken_of_peek? seen' lineBreak⟩
    refine (leads_begun.from ⟨inside.isAt, inside.starts (.inr semicolon)⟩).bind fun statement => ?_
    exact leads_pure fun _ ⟨more, here⟩ => ⟨begun.append more, here, nofun⟩
  · exact fun cursor ⟨begun, here⟩ => ⟨begun, here, nofun⟩

end Reader

/-! ## Derivations -/

section Derives

variable {text : List Char} {part : Part} {start next behind : Cursor} {found : List Statement}
  {keyword : String}

/-- Behind a header a statement may begin. -/
theorem Cursor.Heads.ready (heads : start.Heads keyword behind) (here : start.IsAt text) :
    behind.Ready text := by
  obtain ⟨⟨begun, announces, reaches⟩, seen, isColon⟩ := heads
  have last := reaches (.along text) Track.readsStrings_along
    (announces.along (here.settled.1 : (Track.along text).On 0 start.settled))
  have inside := Cursor.IsAt.peek? last seen
  exact ⟨inside.isAt, inside.starts (.inl isColon)⟩

/-- Where the derivation of a part begins. -/
def Part.Expects (text : List Char) : Part → Cursor → Prop
  | .line => fun cursor => cursor.Opens text ∧ cursor.Inside
  | .lines => Cursor.Opens text
  | .suite => Cursor.Ready text
  | .clauses _ _ => Cursor.Ended text

/-- Whether the part is made of any number of lines, perhaps none. -/
def Part.isLines : Part → Bool
  | .lines => true
  | _ => false

/-- The statements of a part begin where they may, and what comes next begins a line. A block without
lines ends where it begins. -/
structure BegunUpTo (text : List Char) (part : Part) (start : Cursor) (found : List Statement)
    (next : Cursor) : Prop where
  begun : AllBegun text found
  opens : next.Opens text
  broken : (part.isLines = true → start.IsBroken) → next.IsBroken

theorem BegunUpTo.ended (begun : BegunUpTo text part start found next)
    (other : part.isLines = false) : next.Ended text :=
  ⟨begun.opens.isAt, begun.broken fun lines => absurd (lines.symm.trans other) (by decide)⟩

theorem begunUpTo_of_ended (begun : AllBegun text found) (ended : next.Ended text) :
    BegunUpTo text part start found next :=
  ⟨begun, ended.opens, fun _ => ended.broken⟩

/-- **What is derived begins where it may,** and ends at a line break. -/
theorem Derives.begunUpTo (derives : Derives part start found next) (expects : part.Expects text start) :
    BegunUpTo text part start found next := by
  induction derives with
  | simple _ read =>
    obtain ⟨begun, ended⟩ := Reader.leads_begunLine _ _ _ expects.1.ready.settled read
    exact begunUpTo_of_ended begun ended
  | @block _ _ _ _ _ _ _ _ _ heads _ _ suite clauses =>
    have body := suite (heads.ready expects.1.isAt)
    have later := clauses (body.ended rfl)
    refine begunUpTo_of_ended ?_ (later.ended rfl)
    exact (body.begun.append later.begun).enclose rfl rfl
  | function heads body suite =>
    have inside := suite (heads.ready expects.1.isAt)
    refine begunUpTo_of_ended (inside.begun.function ?_) (inside.ended rfl)
    exact .intro expects.1 expects.2 rfl heads body
  | classDef heads _ suite =>
    have inside := suite (heads.ready expects.1.isAt)
    exact begunUpTo_of_ended (inside.begun.enclose rfl rfl) (inside.ended rfl)
  | @decorated start between next _ _ _ reaches broken below _ definition =>
    have settled : (Track.along text).On 0 start.settled := expects.1.isAt.settled.1
    have there := reaches (.along text) Track.readsStrings_along settled
    have inside := definition ⟨⟨there, .inl broken⟩, below⟩
    refine begunUpTo_of_ended (inside.begun.enclose ?_ ?_) (inside.ended rfl)
    · rw [simplesIn, simplesIn, List.append_nil]
      rfl
    · rw [functionsIn, functionsIn, List.append_nil]
      rfl
  | none => exact ⟨allBegun_nil, expects, fun broken => broken rfl⟩
  | more _ inside _ lines line =>
    have before := lines expects
    have last := line ⟨before.opens, inside⟩
    exact begunUpTo_of_ended (before.begun.append last.begun) (last.ended rfl)
  | beside _ read =>
    obtain ⟨begun, ended⟩ := Reader.leads_begunLine _ _ _ expects read
    exact begunUpTo_of_ended begun ended
  | empty here =>
    exact begunUpTo_of_ended allBegun_nil ⟨expects.isAt, Cursor.isBroken_of_column? here⟩
  | deeper here _ _ _ lines =>
    have broken := Cursor.isBroken_of_column? here
    have inside := lines ⟨expects.isAt, .inl broken⟩
    exact begunUpTo_of_ended inside.begun ⟨inside.opens.isAt, inside.broken fun _ => broken⟩
  | last => exact begunUpTo_of_ended allBegun_nil expects
  | clause _ _ _ heads _ _ suite clauses =>
    have body := suite (heads.ready expects.isAt)
    have others := clauses (body.ended rfl)
    exact begunUpTo_of_ended ((body.begun.enclose rfl rfl).append others.begun) (others.ended rfl)

end Derives

/-! ## Sources -/

/-- **Every statement without a block is read where a statement may begin:** at the start of a line,
or behind a colon or a semicolon. Every function is read from the start of a line. -/
theorem Module.allBegun_of_read {source : String} {module : Module}
    (read : Module.read source = .ok module) : AllBegun source.toList module.statements := by
  obtain ⟨next, derives⟩ := derives_of_read read
  exact (derives.begunUpTo ⟨leaves_self _, .inr rfl⟩).begun

end StrategyMend.Python
