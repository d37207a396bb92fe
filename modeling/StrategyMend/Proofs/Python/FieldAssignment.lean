import StrategyMend.Proofs.Python.Operands
import StrategyMend.Proofs.Python.SimpleStatements
import StrategyMend.Python.SelfAttribute

/-!
# Statements that set a field

A statement that begins with `self.order = ` assigns the field in the tree. The readers are followed up to
the equals sign: the field is read as an operand, the sign makes it a target
(`Reader.leads_field_simpleStatement`), and later sides only add more targets.
-/

set_option autoImplicit false

namespace StrategyMend.Python

namespace Reader

variable {α β : Type} {cursor : Cursor}

/-! ## Statements that set the field -/

section Field

variable (tail : List Char) (row : Nat) (blocks : List Nat)

/-- Behind `self`. -/
def behindSelf : Cursor := ⟨".order = ".toList ++ tail, row, blocks⟩

/-- Behind the dot. -/
def behindDot : Cursor := ⟨"order = ".toList ++ tail, row, blocks⟩

/-- Behind `self.order`. -/
def behindField : Cursor := ⟨" = ".toList ++ tail, row, blocks⟩

/-- Behind the equals sign. -/
def behindEquals : Cursor := ⟨" ".toList ++ tail, row, blocks⟩

/-- The field as an expression. -/
def fieldOf : Expression := .attribute (.name "self" row) "order" "order"

/-- The lexeme behind the field. -/
def equalsSign : Lookahead := ⟨.mark "=", row, [], behindEquals tail row blocks⟩

/-- A repetition that goes on at no equals sign ends behind the field. -/
theorem leads_field_stop {step : α → Reader (Option α)} {start : α} {next : Lookahead → Reader (Option α)}
    (looks : step start = peek .statementEnd >>= next)
    (stops : next (equalsSign tail row blocks) = pure none) :
    Leads (· = behindField tail row blocks) (iterate step start) fun state cursor =>
      state = start ∧ cursor = behindField tail row blocks :=
  leads_iterate_known looks (equalsSign tail row blocks) rfl stops

theorem leads_field_trailers (self : Nested) (primary : Place → Follow → Reader Expression) :
    Leads (· = behindSelf tail row blocks)
      (trailers self primary lineFollow (.name "self" row)) fun value cursor =>
        value = fieldOf row ∧ cursor = behindField tail row blocks := by
  refine (leads_iterate (fun value cursor =>
    (value = .name "self" row ∧ cursor = behindSelf tail row blocks) ∨
      (value = fieldOf row ∧ cursor = behindField tail row blocks)) _ fun value => leads_from ?_).weaken
        fun _ same => .inl ⟨rfl, same⟩
  rintro _ (⟨rfl, rfl⟩ | ⟨rfl, rfl⟩)
  · have member : Leads (· = behindDot tail row blocks) (anyWord .inStatement) fun found cursor =>
        found.1 = "order" ∧ cursor = behindField tail row blocks :=
      leads_peek_known ⟨.word "order", row, [], behindField tail row blocks⟩ rfl
        (leads_pass_from (leads_pure_from ⟨rfl, rfl⟩))
    have close : Leads (· = behindDot tail row blocks) gapText fun between cursor =>
        between = [] ∧ cursor = behindDot tail row blocks :=
      leads_gapText_close rfl
    refine leads_peek_known ⟨.mark ".", row, [], behindDot tail row blocks⟩ rfl ?_
    refine leads_ite (fun _ => leads_pass_from (close.bind fun between => leads_from ?_))
      fun other => absurd rfl other
    rintro _ ⟨rfl, rfl⟩
    refine member.bind fun found => leads_pure ?_
    rintro _ ⟨same, rfl⟩
    exact .inr ⟨by rw [same]; rfl, rfl⟩
  · exact leads_peek_known (equalsSign tail row blocks) rfl (leads_pure_from ⟨rfl, rfl⟩)

theorem leads_field_operand {cursor : Cursor} {self : Nested}
    (text : cursor.lookahead.2 = "self.order = ".toList ++ tail) :
    Leads (· = cursor) (operand self .inStatement lineFollow) fun value cursor' =>
      value = fieldOf cursor.lookahead.1.row ∧
        cursor' = behindField tail cursor.lookahead.1.row cursor.blocks := by
  have lexeme : cursor.lookahead.1.lexeme = .word "self" := by
    change (Lexeme.read cursor.lookahead.2).1 = .word "self"
    rw [text]
    rfl
  have behind : cursor.lookahead.1.after = behindSelf tail cursor.lookahead.1.row cursor.blocks := by
    change ({ cursor with
      rest := (Lexeme.read cursor.lookahead.2).2, row := cursor.lookahead.1.row } : Cursor) = _
    rw [text]
    rfl
  have plain : cursor.lookahead.1.isPlain = true := by
    simp [Lookahead.isPlain, Lookahead.isWord, Lookahead.isMark, lexeme]
  refine leads_operand_of_isPlain plain ?_ (leads_primary_of_isPlain plain fun primary => ?_)
  · intro word next _ seen
    rw [peekAfter?, behind] at seen
    obtain rfl : _ = next := Option.some.inj seen
    rfl
  · refine Leads.bind (leads_peek_inStatement ?_ : Leads _ (atom self primary .inStatement lineFollow)
      fun value cursor' => value = .name "self" cursor.lookahead.1.row ∧
        cursor' = behindSelf tail cursor.lookahead.1.row cursor.blocks) fun value => leads_from ?_
    · simp only [lexeme]
      exact leads_pass_from (leads_pure_from ⟨rfl, behind⟩)
    · rintro _ ⟨rfl, rfl⟩
      exact leads_field_trailers tail _ _ self primary

/-- The first side of the assignment is the field. -/
theorem leads_field_sideItems {cursor : Cursor}
    (text : cursor.lookahead.2 = "self.order = ".toList ++ tail) :
    Leads (· = cursor) (sideItems .inStatement) fun items cursor' =>
      items = ([fieldOf cursor.lookahead.1.row], false) ∧
        cursor' = behindField tail cursor.lookahead.1.row cursor.blocks := by
  have lexeme : cursor.lookahead.1.lexeme = .word "self" := by
    change (Lexeme.read cursor.lookahead.2).1 = .word "self"
    rw [text]
    rfl
  have first : Leads (· = cursor) (expression .inStatement lineFollow) fun value cursor' =>
      value = fieldOf cursor.lookahead.1.row ∧
        cursor' = behindField tail cursor.lookahead.1.row cursor.blocks := by
    refine leads_get_from ((leads_field_operand tail text).bind fun value => leads_from ?_)
    rintro _ ⟨rfl, rfl⟩
    refine (leads_field_stop tail _ _ rfl rfl).bind fun parts => leads_from ?_
    rintro _ ⟨rfl, rfl⟩
    exact leads_pure_from ⟨rfl, rfl⟩
  refine leads_peek_inStatement (leads_ite (fun yields => ?_) fun _ => ?_)
  · simp [Lookahead.isWord, lexeme] at yields
  · refine first.bind fun value => leads_from ?_
    rintro _ ⟨rfl, rfl⟩
    refine (leads_field_stop tail _ _ rfl rfl).bind fun items => leads_from ?_
    rintro _ ⟨rfl, rfl⟩
    exact leads_pure_from ⟨rfl, rfl⟩

/-- The first target of an assignment is the field. -/
def SetsField (state : AssignmentState) : Prop :=
  ∃ assigned rest, state.targets = assigned :: rest ∧ assigned.target.targets "order" = true

theorem SetsField.append {state : AssignmentState} (sets : SetsField state) (more : List Assigned)
    (value : Option (List Expression)) : SetsField ⟨state.targets ++ more, value⟩ := by
  obtain ⟨assigned, rest, targets, field⟩ := sets
  exact ⟨assigned, rest ++ more, by rw [targets, List.cons_append], field⟩

/-- Later sides of an assignment leave its first target as it is. -/
theorem gives_setsField {state : AssignmentState} (sets : SetsField state) :
    Gives (assignmentSide state) fun next => SetsField (next.getD state) := by
  have target (more : List Assigned) (value : Option (List Expression)) :
      Gives (pure (some ⟨state.targets ++ more, value⟩)) fun next => SetsField (next.getD state) :=
    gives_pure (sets.append more value)
  have kept (items : List Expression) :
      Gives (pure (some { state with value := some items })) fun next =>
        SetsField (next.getD state) :=
    gives_pure sets
  refine gives_ite (gives_pure sets) (gives_bind fun items => gives_bind fun ahead => ?_)
  dsimp only
  refine gives_ite ?_ (gives_ite ?_ (kept _))
  · exact gives_ite (gives_bind fun _ => gives_bind fun _ => target _ _)
      (gives_bind fun _ => target _ _)
  · let side (hint : Expression) : Assigned := ⟨sideExpression items.1 items.2, some hint⟩
    have hinted : Gives (typeExpression expression true .inStatement .statementEnd >>= fun hint =>
        tryMark .statementEnd "=" >>= fun more =>
          if more then pure (some { state with targets := state.targets ++ [side hint] })
          else pure (some ⟨state.targets ++ [side hint], some []⟩))
        fun next => SetsField (next.getD state) :=
      gives_bind fun _ => gives_bind fun _ => gives_ite (target _ _) (target _ _)
    exact gives_ite (gives_bind fun _ => gives_bind fun _ => hinted) (gives_bind fun _ => hinted)

theorem leads_field_expressionStatement {cursor : Cursor} (row : Nat)
    (text : cursor.lookahead.2 = "self.order = ".toList ++ tail) :
    Leads (· = cursor) (expressionStatement row) fun statement _ =>
      statement.assigns "order" = true := by
  refine ((leads_iterate
    (fun state cursor' => (state = ⟨[], none⟩ ∧ cursor' = cursor) ∨ SetsField state)
    (fun state _ => SetsField state) fun state => leads_from ?_).weaken
      fun _ same => .inl ⟨rfl, same⟩).bind fun state => leads_pure ?_
  · rintro cursor' (⟨rfl, rfl⟩ | sets)
    · refine (leads_field_sideItems tail text).bind fun items => leads_from ?_
      rintro _ ⟨rfl, rfl⟩
      refine leads_peek_known (equalsSign tail _ _) rfl ?_
      refine leads_ite (fun _ => leads_ite (fun other => nomatch other) fun _ => leads_pass_from ?_)
        fun other => absurd rfl other
      exact leads_pure_from (.inr ⟨_, [], rfl, rfl⟩)
    · intro _ next after _ read
      have kept := gives_setsField sets _ next after read
      cases next with
      | none => exact kept
      | some state' => exact .inr kept
  · intro _ sets
    obtain ⟨assigned, rest, targets, field⟩ := sets
    simp [targets, Statement.assigns, field]

/-- **A statement that begins with the field and an equals sign sets it.** -/
theorem leads_field_simpleStatement {cursor : Cursor}
    (text : cursor.lookahead.2 = "self.order = ".toList ++ tail) :
    Leads (· = cursor) simpleStatement fun statement _ => statement.assigns "order" = true := by
  refine leads_peek_from fun ahead seen => ?_
  obtain rfl : cursor.lookahead.1 = ahead := Option.some.inj seen
  have word : cursor.lookahead.1.word? = some "self" := by
    change Lookahead.word? ⟨(Lexeme.read cursor.lookahead.2).1, _, _, _⟩ = _
    rw [text]
    rfl
  simp only [word]
  exact leads_field_expressionStatement tail _ text

end Field

end Reader

end StrategyMend.Python
