import StrategyMend.Proofs.Python.Levels

/-!
# Where later clauses are attached

A later clause is read behind the body of the clause before it, and both begin lines
(`Attaches`). So it is for all clauses that can be derived (`Derives.attached`), and for all of a source
(`Module.attaches_of_read`).
-/

set_option autoImplicit false

namespace StrategyMend.Python

/-- The cursor stands behind the body of a clause that begins a line, with the given row and kind. -/
inductive OpenedBy (text : List Char) (row : Nat) (kind : BlockKind) (cursor : Cursor) : Prop where
  | intro {above : List Char} {start behind : Cursor} {body : List Statement}
    (here : IsCodeAt text above 0 start.rest) (opens : start.Opens text) (inside : start.Inside)
    (row_eq : row = start.lookahead.1.row) (heads : start.Heads kind.keyword behind)
    (suite : Derives .suite behind body cursor)

/-- A later clause begins a line behind the body of the clause before it. -/
inductive Attaches (text : List Char) (joint : Joint) : Prop where
  | intro {clause : Cursor} (opener : OpenedBy text joint.openerRow joint.openerKind clause)
    (ended : clause.Ended text) (inside : clause.Inside)
    (isWord : clause.lookahead.1.isWord joint.kind.keyword = true)
    (row_eq : joint.row = clause.lookahead.1.row)

/-- The statements are no later clauses, and those in them are attached. -/
structure AllAttached (text : List Char) (statements : List Statement) : Prop where
  first : ∀ statement ∈ statements, statement.clause? = none
  joints : ∀ joint ∈ jointsIn statements, Attaches text joint

section AllAttached

variable {text : List Char} {first second body : List Statement} {statement : Statement}

theorem jointsIn_append (first second : List Statement) :
    jointsIn (first ++ second) = jointsIn first ++ jointsIn second := by
  induction first with
  | nil => rfl
  | cons statement rest ih => rw [List.cons_append, jointsIn, ih, jointsIn, List.append_assoc]

/-- Where a body has no later clauses of its own, those behind it follow the header. -/
theorem jointsBehind_append (row : Nat) (kind : BlockKind)
    (plain : ∀ statement ∈ body, statement.clause? = none) (clauses : List Statement) :
    jointsBehind row kind (body ++ clauses) = jointsIn body ++ jointsBehind row kind clauses := by
  induction body with
  | nil => rfl
  | cons statement rest ih =>
    have others := ih fun other member => plain other (.tail _ member)
    rw [List.cons_append, jointsBehind, plain statement List.mem_cons_self]
    dsimp only
    rw [others, jointsIn, List.append_assoc]

theorem jointsBehind_of_plain (row : Nat) (kind : BlockKind)
    (plain : ∀ statement ∈ body, statement.clause? = none) :
    jointsBehind row kind body = jointsIn body := by
  simpa [jointsBehind] using jointsBehind_append row kind plain []

theorem allAttached_nil : AllAttached text [] := ⟨nofun, nofun⟩

theorem AllAttached.append (attached : AllAttached text first) (attached' : AllAttached text second) :
    AllAttached text (first ++ second) := by
  refine ⟨fun statement member => ?_, fun joint member => ?_⟩
  · exact (List.mem_append.mp member).elim (attached.first statement) (attached'.first statement)
  · rw [jointsIn_append] at member
    exact (List.mem_append.mp member).elim (attached.joints joint) (attached'.joints joint)

theorem AllAttached.single (plain : statement.clause? = none)
    (joints : ∀ joint ∈ statement.joints, Attaches text joint) : AllAttached text [statement] := by
  refine ⟨fun other member => ?_, fun joint member => joints joint ?_⟩
  · exact List.mem_singleton.mp member ▸ plain
  · simpa [jointsIn] using member

/-- Statements without a block have no clauses. -/
theorem allAttached_of_isSimple (simple : ∀ statement ∈ first, statement.isSimple = true) :
    AllAttached text first := by
  induction first with
  | nil => exact allAttached_nil
  | cons statement rest ih =>
    have here := simple statement List.mem_cons_self
    have plain : statement.clause? = none := by
      cases statement <;> first | rfl | cases here
    have line : AllAttached text [statement] := .single plain fun joint member => by
      rw [Statement.joints_of_isSimple here] at member
      cases member
    exact line.append (ih fun other member => simple other (.tail _ member))

end AllAttached

section Derives

variable {text above : List Char} {start next behind : Cursor} {part : Part} {found : List Statement}

/-- Statements of a line have no clauses. -/
theorem allAttached_of_simpleStatements (read : simpleStatements start = some (found, next)) :
    AllAttached text found :=
  allAttached_of_isSimple (@Track.leads_simpleStatements (.inBlocks start.blocks start.rest) 1
    Track.readsStrings_inBlocks (.inr trivial) start found next
      ⟨⟨rfl, List.suffix_refl _⟩, .inl Nat.one_pos⟩ read).2.2

/-- The clauses of a part are attached, those behind a clause if that one was read. -/
def Part.Attached (text : List Char) : Part → Cursor → List Statement → Prop
  | .clauses row kind => fun start found =>
    OpenedBy text row kind start → ∀ joint ∈ jointsBehind row kind found, Attaches text joint
  | _ => fun _ found => AllAttached text found

/-- A clause with a body and later clauses. -/
theorem attached_clause {row : Nat} {kind : BlockKind} {between : Cursor} {body later : List Statement}
    (opener : OpenedBy text row kind between) (suite : AllAttached text body)
    (clauses : (Part.clauses row kind).Attached text between later) :
    ∀ joint ∈ jointsBehind row kind (body ++ later), Attaches text joint := by
  intro joint member
  rw [jointsBehind_append row kind suite.first] at member
  exact (List.mem_append.mp member).elim (suite.joints joint) (clauses opener joint)

variable (gaps : HasPlainGaps text) (strings : HasPlainStrings text)
include gaps strings

/-- **The later clauses of what is derived are attached.** By induction on the derivation. -/
theorem Derives.attached (derives : Derives part start found next)
    (here : IsCodeAt text above 0 start.rest) (expects : part.Expects text start) :
    part.Attached text start found := by
  induction derives generalizing above with
  | simple _ read => exact allAttached_of_simpleStatements read
  | block first heads suite clauses ih ih' =>
    obtain ⟨_, header⟩ := heads.levelTo gaps strings here expects.2
    obtain ⟨_, body⟩ := suite.levelTo gaps strings header.code fun same => by cases same
    have ready := heads.ready expects.1.isAt
    have ended := (suite.begunUpTo ready).ended rfl
    have opener := OpenedBy.intro here expects.1 expects.2 rfl heads suite
    refine .single (by simp [Statement.clause?, first]) ?_
    exact attached_clause opener (ih header.code ready) (ih' body.code ended)
  | function heads suite ih =>
    obtain ⟨_, header⟩ := heads.levelTo gaps strings here expects.2
    exact .single rfl (ih header.code (heads.ready expects.1.isAt)).joints
  | classDef heads suite ih =>
    obtain ⟨_, header⟩ := heads.levelTo gaps strings here expects.2
    exact .single rfl (ih header.code (heads.ready expects.1.isAt)).joints
  | @decorated start _ _ _ _ mark reaches broken below _ ih =>
    obtain ⟨_, on, -⟩ := here.levelTo_settled gaps strings (Lookahead.present_of_isMark mark) expects.2
    obtain ⟨-, _, decorators⟩ := reaches _ (Track.readsStrings_level gaps strings) on
    have settled : (Track.along text).On 0 start.settled := expects.1.isAt.settled.1
    have there := reaches (.along text) Track.readsStrings_along settled
    have inside := ih decorators.code ⟨⟨there, .inl broken⟩, below⟩
    refine .single rfl fun joint member => inside.joints joint ?_
    rw [Statement.joints] at member
    simpa [jointsIn] using member
  | none => exact allAttached_nil
  | more lines inside _ ih ih' =>
    obtain ⟨_, before⟩ := lines.levelTo gaps strings here fun same => by cases same
    have last := ih' before.code ⟨(lines.begunUpTo expects).opens, inside⟩
    exact (ih here expects).append last
  | beside _ read => exact allAttached_of_simpleStatements read
  | empty => exact allAttached_nil
  | deeper found _ _ _ ih =>
    exact ih here ⟨expects.isAt, .inl (Cursor.isBroken_of_column? found)⟩
  | last =>
    intro _ joint member
    cases member
  | clause later inside isWord heads suite clauses ih ih' =>
    obtain ⟨_, header⟩ := heads.levelTo gaps strings here inside
    obtain ⟨_, body⟩ := suite.levelTo gaps strings header.code fun same => by cases same
    have ready := heads.ready expects.isAt
    have ended := (suite.begunUpTo ready).ended rfl
    have opener := OpenedBy.intro here expects.opens inside rfl heads suite
    intro previous joint member
    rw [jointsBehind, Statement.clause?, if_pos later] at member
    rcases List.mem_cons.mp member with rfl | member
    · exact .intro previous expects inside isWord rfl
    · refine attached_clause opener (ih header.code ready) (ih' body.code ended) joint ?_
      rw [Statement.joints] at member
      rw [jointsBehind_append _ _ (ih header.code ready).first]
      rwa [jointsBehind_of_plain _ _ (ih header.code ready).first] at member

end Derives

/-- **Every later clause of a source is attached** behind the body of the clause before it. -/
theorem Module.attaches_of_read {source : String} {module : Module} (gaps : HasPlainGaps source.toList)
    (strings : HasPlainStrings source.toList) (read : Module.read source = .ok module)
    {joint : Joint} (member : joint ∈ module.joints) : Attaches source.toList joint := by
  obtain ⟨next, derives⟩ := derives_of_read read
  have attached : AllAttached source.toList module.statements :=
    derives.attached gaps strings (isCodeAt_start _) ⟨leaves_self _, .inr rfl⟩
  exact attached.joints joint member

end StrategyMend.Python
