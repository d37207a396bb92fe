import StrategyMend.Proofs.Python.Reading

/-!
# Operands without a sign

An operand that begins with no sign, keyword or star is read from its first lexeme on, so it is told by
that lexeme alone (`Reader.leads_primary_of_isPlain`, `Reader.leads_operand_of_isPlain`). At the end of
the text there is none, and so no statement (`Reader.leads_simpleStatement_finish`).
-/

set_option autoImplicit false

namespace StrategyMend.Python

/-- Whether no sign, keyword or star is read that begins an operand of a kind of its own. -/
def Lookahead.isPlain (ahead : Lookahead) : Bool :=
  !(["not", "lambda", "await", "yield"].any ahead.isWord || ["-", "+", "~", "*"].any ahead.isMark)

namespace Reader

variable {α β : Type} {cursor : Cursor}

/-- A repetition may end with its first step. -/
theorem leads_iterate_stop {step : α → Reader (Option α)} {start : α} {after : α → Cursor → Prop}
    (stops : Leads (· = cursor) (step start) fun next cursor => next = none ∧ after start cursor) :
    Leads (· = cursor) (iterate step start) after := by
  refine (leads_iterate (fun state cursor' => state = start ∧ cursor' = cursor) after
    fun state => leads_from ?_).weaken fun _ same => ⟨rfl, same⟩
  rintro _ ⟨rfl, rfl⟩
  refine stops.mono (fun _ same => same) ?_
  rintro _ cursor ⟨rfl, ended⟩
  exact ended

/-- Inside a statement the next lexeme is seen, if the line may go on with it. -/
theorem leads_peek_inStatement {next : Lookahead → Reader β} {after : β → Cursor → Prop}
    (leads : Leads (· = cursor) (next cursor.lookahead.1) after) :
    Leads (· = cursor) (peek .inStatement >>= next) after := by
  refine leads_peek_from fun ahead seen => ?_
  obtain ⟨-, same⟩ := Option.ite_none_right_eq_some.mp seen
  exact Option.some.inj same ▸ leads

section Plain

variable {self : Nested} {follow : Follow} {after : Expression → Cursor → Prop}
  (plain : cursor.lookahead.1.isPlain = true)
include plain

theorem leads_primary_of_isPlain
    (leads : ∀ primary, Leads (· = cursor)
      (atom self primary .inStatement follow >>= trailers self primary follow) after) :
    Leads (· = cursor) (primary self .inStatement follow) after := by
  simp only [Lookahead.isPlain, List.any_cons, List.any_nil, Bool.or_false, Bool.not_eq_true',
    Bool.or_eq_false_iff] at plain
  obtain ⟨⟨-, -, await, -⟩, minus, plus, tilde, star⟩ := plain
  refine leads_get_from (Leads.bind (leads_iterate_stop (leads_peek_inStatement ?_) :
    Leads (· = cursor) _ fun state cursor' => state = (false, Place.inStatement) ∧ cursor' = cursor)
      fun state => leads_from ?_)
  · simp only [minus, plus, tilde, await, Bool.or_self, Bool.false_eq_true, if_false]
    exact leads_pure_from ⟨rfl, trivial, rfl⟩
  · rintro _ ⟨rfl, rfl⟩
    refine leads_peek_inStatement ?_
    simp only [star, Bool.false_eq_true, if_false, bind_pure]
    exact leads _

theorem leads_operand_of_isPlain
    (bare : ∀ word next, cursor.lookahead.1.word? = some word →
      peekAfter? cursor.lookahead.1 follow.place = some next → next.isMark ":=" = false)
    (leads : Leads (· = cursor) (primary self .inStatement follow) after) :
    Leads (· = cursor) (operand self .inStatement follow) after := by
  simp only [Lookahead.isPlain, List.any_cons, List.any_nil, Bool.or_false, Bool.not_eq_true',
    Bool.or_eq_false_iff] at plain
  obtain ⟨⟨negation, lambda, -, -⟩, -⟩ := plain
  refine Leads.bind (leads_iterate_stop (leads_peek_inStatement ?_) :
    Leads (· = cursor) _ fun state cursor' => state = (false, Place.inStatement) ∧ cursor' = cursor)
      fun state => leads_from ?_
  · simp only [negation, Bool.false_eq_true, if_false]
    exact leads_pure_from ⟨rfl, trivial, rfl⟩
  · rintro _ ⟨rfl, rfl⟩
    refine leads_peek_inStatement ?_
    simp only [lambda, Bool.false_eq_true, if_false, bind_pure]
    split
    · rename_i word found
      split
      · rename_i next seen
        simp only [bare word next found seen, Bool.false_and, Bool.false_eq_true, if_false]
        exact leads
      · exact leads
    · exact leads

end Plain

theorem leads_peek_known {place : Place} {next : Lookahead → Reader β} {after : β → Cursor → Prop}
    (ahead : Lookahead) (seen : cursor.peek? place = some ahead)
    (leads : Leads (· = cursor) (next ahead) after) :
    Leads (· = cursor) (peek place >>= next) after := by
  refine leads_peek_from fun found seen' => ?_
  rw [seen] at seen'
  exact Option.some.inj seen' ▸ leads

/-- A repetition that looks at a known lexeme and does not go on there. -/
theorem leads_iterate_known {step : α → Reader (Option α)} {start : α} {place : Place}
    {next : Lookahead → Reader (Option α)} (looks : step start = peek place >>= next)
    (ahead : Lookahead) (seen : cursor.peek? place = some ahead) (stops : next ahead = pure none) :
    Leads (· = cursor) (iterate step start) fun state cursor' => state = start ∧ cursor' = cursor := by
  refine leads_iterate_stop ?_
  rw [looks]
  refine leads_peek_known ahead seen ?_
  rw [stops]
  exact leads_pure_from ⟨rfl, rfl, rfl⟩

/-- There is no text in front of a lexeme that comes at once. -/
theorem leads_gapText_close (close : cursor.lookahead.2 = cursor.rest) :
    Leads (· = cursor) gapText fun text cursor' => text = [] ∧ cursor' = cursor := by
  rintro _ text next rfl read
  cases read
  exact ⟨by rw [close, Nat.sub_self, List.take_zero], rfl⟩

/-! ## Statements at the end of the text -/

/-- At the end of the text there is no statement to read. -/
theorem leads_simpleStatement_finish (ended : cursor.lookahead.2 = []) :
    Leads (· = cursor) simpleStatement fun _ _ => False := by
  have lexeme : cursor.lookahead.1.lexeme = .finish := by
    change (Lexeme.read cursor.lookahead.2).1 = .finish
    rw [ended]
    rfl
  have word : cursor.lookahead.1.word? = none := by simp [Lookahead.word?, lexeme]
  have plain : cursor.lookahead.1.isPlain = true := by
    simp [Lookahead.isPlain, Lookahead.isWord, Lookahead.isMark, lexeme]
  have never {α β : Type} {next : α → Reader β} {after : β → Cursor → Prop} (result : α) :
      Leads (fun _ => False) (next result) after := fun _ _ _ impossible => impossible.elim
  have expressions (depth : Nat) : Leads (· = cursor)
      (operand (expressionOfDepth depth) .inStatement lineFollow) fun _ _ => False := by
    refine leads_operand_of_isPlain plain (fun _ _ found => by rw [word] at found; cases found) ?_
    refine leads_primary_of_isPlain plain fun primary => Leads.bind (leads_peek_inStatement ?_) never
    simp only [lexeme]
    exact leads_failure
  refine leads_peek_from fun ahead seen => ?_
  obtain rfl : cursor.lookahead.1 = ahead := Option.some.inj seen
  simp only [word]
  refine Leads.bind ((leads_iterate (fun state cursor' => state = ⟨[], none⟩ ∧ cursor' = cursor)
    (fun _ _ => False) fun state => leads_from ?_).weaken fun _ same => ⟨rfl, same⟩) never
  rintro _ ⟨rfl, rfl⟩
  refine Leads.bind (leads_peek_inStatement ?_ : Leads (· = _) (sideItems .inStatement) _) never
  have first : Leads (· = _) (expression .inStatement lineFollow) fun _ _ => False :=
    leads_get_from (Leads.bind (expressions _) never)
  exact leads_ite (fun yields => by simp [Lookahead.isWord, lexeme] at yields) fun _ =>
    Leads.bind first never

end Reader

end StrategyMend.Python
