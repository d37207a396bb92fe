import StrategyMend.Proofs.Python.Operands

/-!
# Strings that are statements

A string in triple quotes without escapes ends at the first three quotes
(`Reader.leads_stringLiteral_of_isDocstring`). Where it begins a statement and a line break follows,
the statement ends with it (`Reader.leads_simpleStatements_of_string`).
-/

set_option autoImplicit false

namespace StrategyMend.Python

/-- The content of a string in triple quotes: it has no escapes, and no three quotes before its end. -/
structure IsDocstring (quote : Char) (content : List Char) : Prop where
  quotes : Source.isQuote quote = true
  plain : ∀ c ∈ content, c ≠ '\\' ∧ c ≠ '\x00'
  closed : ∀ passed left, content = passed ++ left → left ≠ [] →
    ¬[quote, quote, quote] <+: left ++ [quote, quote, quote]

/-- Any text without the quote and without escapes is such a content. -/
theorem isDocstring_of_not_mem {quote : Char} {content : List Char} (quotes : Source.isQuote quote = true)
    (free : (content.all fun c => c ≠ quote && c ≠ '\\' && c ≠ '\x00') = true) :
    IsDocstring quote content := by
  have free := List.all_eq_true.mp free
  simp only [Bool.and_eq_true, decide_eq_true_eq] at free
  refine ⟨quotes, fun c member => ⟨(free c member).1.2, (free c member).2⟩, ?_⟩
  rintro passed left rfl some begins
  obtain ⟨c, left, rfl⟩ := List.exists_cons_of_ne_nil some
  exact (free c (by simp)).1.1 (List.cons_prefix_cons.mp begins).1.symm

namespace Reader

variable {α : Type} {cursor next : Cursor} {quote : Char} {content after : List Char}

/-! ## The content -/

/-- Where a reader of the content is: in it, or behind the closing quotes. -/
def InDocstring (quote : Char) (content after : List Char) (row : Nat) (blocks : List Nat)
    (state : StringState) (cursor : Cursor) : Prop :=
  if state.closed then cursor = ⟨after, row + content.count '\n', blocks⟩
  else ∃ passed left, content = passed ++ left ∧
    cursor = ⟨left ++ quote :: quote :: quote :: after, row + passed.count '\n', blocks⟩

/-- A string in triple quotes that interpolates nothing. -/
def tripleForm (quote : Char) (raw bytes : Bool) : StringForm := ⟨raw, bytes, false, quote, true⟩

theorem leads_stringPiece_of_isDocstring (docstring : IsDocstring quote content)
    (interpolation : Reader (List Expression)) (raw bytes : Bool) (row : Nat) (blocks : List Nat)
    (state : StringState) :
    Leads (InDocstring quote content after row blocks state)
      (stringPiece interpolation (tripleForm quote raw bytes) state) fun next cursor =>
        next.elim (cursor = ⟨after, row + content.count '\n', blocks⟩) fun state' =>
          InDocstring quote content after row blocks state' cursor := by
  refine leads_from fun cursor here => leads_ite (fun closed => leads_pure_from ?_) fun opened =>
    leads_get_from ?_
  · simpa [InDocstring, closed] using here
  rw [Bool.not_eq_true] at opened
  rw [InDocstring, opened, if_neg Bool.false_ne_true] at here
  obtain ⟨passed, left, rfl, rfl⟩ := here
  have escape : quote ≠ '\\' := by
    rintro rfl
    exact nomatch docstring.quotes
  cases left with
  | nil =>
    -- The closing quotes.
    simp only [List.nil_append, tripleForm, Bool.false_and, Bool.false_eq_true, if_false, if_true,
      if_neg escape, List.take_succ_cons, List.take_zero]
    rintro _ result last rfl read
    cases read
    simp [InDocstring]
  | cons c left =>
    obtain ⟨plain, null⟩ := docstring.plain c (by simp)
    have inside (rows : Nat) (same : rows = [c].count '\n') : InDocstring quote (passed ++ c :: left)
        after row blocks ⟨true, state.interpolated, state.closed⟩
        ⟨left ++ quote :: quote :: quote :: after, row + passed.count '\n' + rows, blocks⟩ := by
      rw [InDocstring, opened, if_neg Bool.false_ne_true]
      refine ⟨passed ++ [c], left, by simp, ?_⟩
      rw [same, List.count_append, Nat.add_assoc]
    have other : c = quote → ¬(left ++ quote :: quote :: quote :: after).take 2 = [c, c] := by
      rintro rfl more
      have split : left ++ c :: c :: c :: after = (left ++ [c, c, c]) ++ after := by simp
      rw [split, List.take_append_of_le_length (by simp)] at more
      have begins := List.take_prefix 2 (left ++ [c, c, c])
      rw [more] at begins
      exact docstring.closed passed (c :: left) rfl nofun ((List.prefix_cons_inj c).mpr begins)
    simp only [List.cons_append, tripleForm, Bool.false_and, Bool.false_eq_true, if_false, if_true,
      if_neg plain, if_neg null, Bool.not_true, Bool.and_false]
    refine leads_ite (fun same => ?_) fun different => leads_ite (fun newline => ?_) fun visible => ?_
    · rw [if_neg (other same)]
      rintro _ result last rfl read
      cases read
      have flat : c ≠ '\n' := by
        rintro rfl
        exact nomatch same ▸ docstring.quotes
      exact inside 0 (by simp [flat])
    · rintro _ result last rfl read
      cases read
      exact inside 1 (by simp [newline])
    · rintro _ result last rfl read
      cases read
      exact inside 0 (by simp [visible])

/-- **A string in triple quotes ends at the first three quotes.** -/
theorem leads_stringLiteral_of_isDocstring (docstring : IsDocstring quote content) (self : Nested)
    (raw bytes : Bool) (row : Nat) (blocks : List Nat) :
    Leads (· = ⟨content ++ quote :: quote :: quote :: after, row, blocks⟩)
      (stringLiteral self (tripleForm quote raw bytes))
      fun _ next => next = ⟨after, row + content.count '\n', blocks⟩ := by
  refine leads_get_from (Leads.bind ((leads_iterate
    (InDocstring quote content after row blocks)
    (fun _ cursor => cursor = ⟨after, row + content.count '\n', blocks⟩) fun state =>
      leads_stringPiece_of_isDocstring docstring _ raw bytes row blocks state).weaken ?_)
        fun state => leads_pure fun _ same => same)
  rintro _ rfl
  exact ⟨[], content, rfl, rfl⟩

/-! ## The statement -/

section Statement

variable {form : StringForm} (opened : cursor.lookahead.1.lexeme = .stringStart form)
  (literal : ∀ self, Leads (· = cursor.lookahead.1.after) (stringLiteral self form)
    fun _ behind => behind = next)
  (broken : next.IsBroken)

include broken in
/-- A repetition that goes on at no line break ends behind the string. -/
theorem leads_string_stop {step : α → Reader (Option α)} {start : α}
    {more : Lookahead → Reader (Option α)} (looks : step start = peek .statementEnd >>= more)
    (stops : ∀ ahead : Lookahead, ahead.lexeme = .lineBreak → more ahead = pure none) :
    Leads (· = next) (iterate step start) fun state behind => state = start ∧ behind = next :=
  leads_iterate_known looks _ (Cursor.peek?_statementEnd_of_isBroken broken) (stops _ rfl)

include opened literal broken

theorem leads_string_expression :
    Leads (· = cursor) (expression .inStatement lineFollow) fun _ behind => behind = next := by
  have word : cursor.lookahead.1.word? = none := by simp [Lookahead.word?, opened]
  have plain : cursor.lookahead.1.isPlain = true := by
    simp [Lookahead.isPlain, Lookahead.isWord, Lookahead.isMark, opened]
  have literals (self : Nested) (primary : Place → Follow → Reader Expression) :
      Leads (· = cursor) (atom self primary .inStatement lineFollow) fun _ behind => behind = next := by
    refine leads_peek_inStatement ?_
    simp only [opened]
    refine leads_pass_from ((literal self).bind fun first => leads_from ?_)
    rintro _ rfl
    refine (leads_string_stop broken rfl fun ahead lineBreak => ?_).bind fun strings =>
      leads_pure fun _ same => same.2
    simp only [lineBreak]
  have operands (self : Nested) :
      Leads (· = cursor) (operand self .inStatement lineFollow) fun _ behind => behind = next := by
    refine leads_operand_of_isPlain plain (fun _ _ found => by rw [word] at found; cases found) ?_
    refine leads_primary_of_isPlain plain fun primary => (literals self primary).bind fun first =>
      leads_from ?_
    rintro _ rfl
    refine (leads_string_stop broken rfl fun ahead lineBreak => ?_).mono (fun _ same => same)
      fun _ _ same => same.2
    simp only [Lookahead.isMark, lineBreak, Bool.false_eq_true, if_false]
  refine leads_get_from ((operands _).bind fun first => leads_from ?_)
  rintro _ rfl
  refine (leads_string_stop broken rfl fun ahead lineBreak => ?_).bind fun _ =>
    leads_pure fun _ same => same.2
  simp only [lineBreak]

theorem leads_string_sideItems :
    Leads (· = cursor) (sideItems .inStatement) fun _ behind => behind = next := by
  refine leads_peek_inStatement (leads_ite (fun yields => ?_) fun _ => ?_)
  · simp [Lookahead.isWord, opened] at yields
  · refine (leads_string_expression opened literal broken).bind fun value => leads_from ?_
    rintro _ rfl
    refine (leads_string_stop broken rfl fun ahead lineBreak => ?_).bind fun _ =>
      leads_pure fun _ same => same.2
    simp [Lookahead.isMark, lineBreak]

theorem leads_string_expressionStatement (row : Nat) :
    Leads (· = cursor) (expressionStatement row) fun _ behind => behind = next := by
  refine ((leads_iterate
    (fun state cursor' => (state = ⟨[], none⟩ ∧ cursor' = cursor) ∨
      (state.value.isSome = true ∧ cursor' = next))
    (fun _ cursor' => cursor' = next) fun state => leads_from ?_).weaken
      fun _ same => .inl ⟨rfl, same⟩).bind fun state => leads_pure fun _ same => same
  rintro cursor' (⟨rfl, rfl⟩ | ⟨found, rfl⟩)
  · refine (leads_string_sideItems opened literal broken).bind fun items => leads_from ?_
    rintro _ rfl
    refine leads_peek_known _ (Cursor.peek?_statementEnd_of_isBroken broken) ?_
    simp only [Lookahead.isMark, List.any_eq_true, Bool.false_or, Bool.false_eq_true, if_false,
      and_false, exists_false]
    exact leads_pure_from (.inr ⟨rfl, rfl⟩)
  · simp only [assignmentSide, found, if_true]
    exact leads_pure_from rfl

/-- **A statement that begins with a string ends with it at a line break.** -/
theorem leads_simpleStatements_of_string :
    Leads (· = cursor) simpleStatements fun _ behind => behind = next := by
  have statement : Leads (· = cursor) simpleStatement fun _ behind => behind = next := by
    refine leads_peek_from fun ahead seen => ?_
    obtain rfl : cursor.lookahead.1 = ahead := Option.some.inj seen
    have word : cursor.lookahead.1.word? = none := by simp [Lookahead.word?, opened]
    simp only [word]
    exact leads_string_expressionStatement opened literal broken _
  refine statement.bind fun first => ((leads_iterate (fun _ behind => behind = next)
    (fun _ behind => behind = next) fun state => leads_from ?_).weaken fun _ same => same).bind
      fun _ => leads_pure fun _ same => same
  rintro _ rfl
  refine leads_ite (fun _ => leads_pure_from rfl) fun _ => ?_
  refine leads_peek_known _ (Cursor.peek?_statementEnd_of_isBroken broken) ?_
  exact leads_ite (fun _ => leads_pure_from rfl) fun visible => absurd rfl visible

end Statement

end Reader

end StrategyMend.Python
