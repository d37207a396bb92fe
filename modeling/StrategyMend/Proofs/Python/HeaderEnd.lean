import StrategyMend.Proofs.Python.Joints

/-!
# Where a header ends

The grammar reads on over line breaks, in a header as well as in the statements beside it. But if the
first colon of a header outside of brackets is the last thing on its line, and no `lambda` stands before it
(`ClosesAt`), then the header ends with that colon (`Cursor.Heads.codeAt_of_closesAt`), and what comes
behind it begins a line (`Cursor.isBroken_of_idle`).
-/

set_option autoImplicit false

namespace StrategyMend.Source

/-- The lexer is in program text, outside of brackets. -/
def Lexer.IsOutside (lexer : Lexer) : Prop := lexer.reading.isCode = true ∧ lexer.depth = 0

end StrategyMend.Source

namespace StrategyMend.Python

open Source

variable {text before head tail after past past' rest : List Char} {depth depth' : Nat} {cursor : Cursor}

/-- The header of the line behind `before` is `head` and the colon behind it, if it ends at the first colon
outside of brackets. That one ends its line. -/
structure ClosesAt (text before head tail after : List Char) : Prop where
  text_eq : text = before ++ (head ++ ':' :: (tail ++ '\n' :: after))
  ends : EndsLine before
  outside : (lexerBehind (before ++ head)).IsOutside
  colons : ∀ front c, front ++ [':', c] <+: head ++ [':'] → c ≠ '=' →
    ¬(lexerBehind (before ++ front)).IsOutside
  lambdas : ∀ front, front ++ "lambda".toList <+: head → ¬(lexerBehind (before ++ front)).IsOutside
  idle : isIdle tail = true
  free : '\n' ∉ tail

/-- The header on the line `row` ends above the line `below`. -/
def ClosesAbove (text : List Char) (row below : Nat) : Prop :=
  ∃ before head tail after, ClosesAt text before head tail after ∧ before.count '\n' = row ∧
    (before ++ head).count '\n' < below

/-- So it is with a header that holds neither a colon nor a `lambda`. -/
theorem closesAt_of_not_mem (same : text = before ++ (head ++ ':' :: (tail ++ '\n' :: after)))
    (ends : EndsLine before) (outside : (lexerBehind (before ++ head)).IsOutside) (colon : ':' ∉ head)
    (lambda : ¬"lambda".toList <:+: head) (idle : isIdle tail = true) (free : '\n' ∉ tail) :
    ClosesAt text before head tail after := by
  refine ⟨same, ends, outside, fun front c begins => ?_, fun front begins => ?_, idle, free⟩
  · have upTo := begins.length_le
    simp only [List.length_append, List.length_cons, List.length_nil] at upTo
    have first : front ++ [':'] <+: head ++ [':'] :=
      List.IsPrefix.trans ⟨[c], by simp⟩ begins
    have inside := List.prefix_of_prefix_length_le first (List.prefix_append head [':'])
      (by rw [List.length_append, List.length_singleton]; omega)
    exact absurd (inside.subset (by simp)) colon
  · exact absurd ((List.suffix_append front _).isInfix.trans begins.isInfix) lambda

theorem IsCodeAt.isOutside (here : IsCodeAt text past 0 rest) : (lexerBehind past).IsOutside :=
  ⟨here.code.isCode, here.code.brackets⟩

/-! ## The characters of a header -/

namespace ClosesAt

variable (closes : ClosesAt text before head tail after)
include closes

theorem place_eq : text = (before ++ head) ++ ':' :: (tail ++ '\n' :: after) := by
  rw [closes.text_eq, List.append_assoc]

/-- Without a colon one does not get beyond the header. -/
theorem length_le (none : HasNoColon text past past')
    (upTo : past.length ≤ (before ++ head).length) : past'.length ≤ (before ++ head).length := by
  by_contra beyond
  have hidden := none _ _ closes.place_eq upTo (Nat.lt_of_not_le beyond)
  rw [closes.outside.1] at hidden
  cases hidden

/-- The colon behind the header is no other mark. -/
theorem head?_ne : (tail ++ '\n' :: after).head? ≠ some '=' := by
  have idle := closes.idle
  cases tail with
  | nil => simp
  | cons c tail =>
    rintro ⟨⟩
    cases idle

/-- A lexeme that is passed does not lead beyond the header. -/
theorem passes_length_le (here : IsCodeAt text past depth rest)
    (upTo : past.length ≤ (before ++ head).length)
    (moves : (Lexeme.read rest).1.Moves False depth depth') :
    ∃ front, IsCodeAt text (past ++ front) depth' (Lexeme.read rest).2 ∧
      (past ++ front).length ≤ (before ++ head).length := by
  obtain ⟨front, same, passes, behind⟩ := here.passes moves
  refine ⟨front, behind, ?_⟩
  have split : text = past ++ (front ++ (Lexeme.read rest).2) := by rw [here.text_eq, ← same]
  by_cases colon : ':' ∈ front
  · have short : past.length ≠ (before ++ head).length := by
      intro length
      obtain ⟨rfl, colon'⟩ := eq_of_length_eq here.text_eq closes.place_eq length
      rcases passes.colon colon with ⟨lexeme, -⟩ | rfl
      · rw [lexeme] at moves
        have closed : (depth : Int) = 0 := here.code.brackets.symm.trans closes.outside.2
        cases moves with
        | flat flat => cases flat
        | colon allowed => exact absurd (allowed.resolve_right id) (by omega)
        | opening opens => cases opens
        | closing closing => cases closing
      · rw [same] at colon'
        exact closes.head?_ne (by rw [← (List.cons.inj colon').2]; rfl)
    rcases passes.colon colon with ⟨-, rfl⟩ | rfl
    · simp only [List.length_append, List.length_singleton] at short upTo ⊢
      omega
    · have equals : (past ++ [':']).length ≠ (before ++ head).length := by
        intro length
        have split' : text = (past ++ [':']) ++ ('=' :: (Lexeme.read rest).2) := by simp [split]
        obtain ⟨-, colon'⟩ := eq_of_length_eq split' closes.place_eq length
        cases (List.cons.inj colon').1
      simp only [List.length_append, List.length_cons, List.length_nil] at short upTo equals ⊢
      omega
  · exact closes.length_le (hasNoColon_append_of_not_mem split colon) upTo

/-- A colon of program text outside of brackets is the one behind the header. -/
theorem eq_of_colon {more : List Char} (here : IsCodeAt text past 0 (':' :: more))
    (from' : before.length ≤ past.length) (upTo : past.length ≤ (before ++ head).length)
    (single : more.head? ≠ some '=') : past = before ++ head ∧ more = tail ++ '\n' :: after := by
  by_cases length : past.length = (before ++ head).length
  · obtain ⟨same, colon⟩ := eq_of_length_eq here.text_eq closes.place_eq length
    exact ⟨same, (List.cons.inj colon).2⟩
  · exfalso
    obtain ⟨front, rfl⟩ := prefix_of_length_le closes.text_eq here.text_eq from'
    have split : text = (before ++ head ++ [':']) ++ (tail ++ '\n' :: after) := by
      simp [closes.text_eq]
    cases more with
    | nil =>
      have whole := congrArg List.length (here.text_eq.symm.trans split)
      simp only [List.length_append, List.length_cons, List.length_nil] at whole length upTo
      omega
    | cons c more =>
      have split' : text = (before ++ front ++ [':', c]) ++ more := by simp [here.text_eq]
      have begins : before ++ front ++ [':', c] <+: before ++ head ++ [':'] := by
        refine prefix_of_length_le split' split ?_
        simp only [List.length_append, List.length_cons, List.length_nil] at length upTo ⊢
        omega
      rw [List.append_assoc, List.append_assoc] at begins
      refine closes.colons front c ((List.prefix_append_right_inj before).mp begins) ?_
        here.isOutside
      rintro rfl
      exact single rfl

/-- A word of a header that is `lambda` stands in brackets. -/
theorem pos_of_lambda (here : IsCodeAt text past depth rest) (from' : before.length ≤ past.length)
    (upTo : past.length ≤ (before ++ head).length) (begins : "lambda".toList <+: rest) : 0 < depth := by
  by_contra flat
  obtain rfl : depth = 0 := by omega
  obtain ⟨front, rfl⟩ := prefix_of_length_le closes.text_eq here.text_eq from'
  obtain ⟨more, rfl⟩ := begins
  have inside := closes.length_le
    (hasNoColon_append_of_not_mem here.text_eq (by decide : ':' ∉ "lambda".toList)) upTo
  have split : text = (before ++ front ++ "lambda".toList) ++ more := by simp [here.text_eq]
  have within := prefix_of_length_le split closes.place_eq inside
  rw [List.append_assoc] at within
  exact closes.lambdas front ((List.prefix_append_right_inj before).mp within) here.isOutside

end ClosesAt

/-! ## The track of a header -/

/-- The cursor stands in the header, or at the colon behind it. -/
def InHeader (text before head : List Char) (depth : Nat) (cursor : Cursor) : Prop :=
  ∃ past, IsCodeAt text past depth cursor.rest ∧ before.length ≤ past.length ∧
    past.length ≤ (before ++ head).length

section Header

variable (gaps : HasPlainGaps text) (strings : HasPlainStrings text)
  (closes : ClosesAt text before head tail after)

include gaps closes in
/-- So does the next lexeme. -/
theorem InHeader.lookahead (here : InHeader text before head depth cursor)
    (present : cursor.lookahead.2 ≠ []) :
    ∃ past, IsCodeAt text past depth cursor.lookahead.2 ∧ before.length ≤ past.length ∧
      past.length ≤ (before ++ head).length := by
  obtain ⟨past, code, from', upTo⟩ := here
  obtain ⟨past', gap⟩ := code.gap gaps
  exact ⟨past', gap.code present, Nat.le_trans from' gap.start_le, closes.length_le gap.colons upTo⟩

/-- The cursors of a header. -/
def Track.header : Track where
  On := InHeader text before head
  colons := False
  passes := by
    rintro depth depth' ahead ⟨cursor, place, here, -, seen⟩ moves
    obtain rfl := Cursor.eq_lookahead_of_moves seen moves
    obtain ⟨past, code, from', upTo⟩ := here.lookahead gaps closes (Lexeme.Moves.present moves)
    obtain ⟨front, behind, inside⟩ := closes.passes_length_le code upTo moves
    exact ⟨past ++ front, behind, Nat.le_trans from' (by simp), inside⟩
  lambdas := by
    rintro depth ahead ⟨cursor, place, here, -, seen⟩ lambda
    have lexeme := Lookahead.lexeme_of_isWord lambda
    have moves : ahead.lexeme.Moves False depth depth := Lookahead.moves_word lexeme depth
    obtain rfl := Cursor.eq_lookahead_of_moves seen moves
    obtain ⟨past, code, from', upTo⟩ := here.lookahead gaps closes (Lexeme.Moves.present moves)
    exact .inl (closes.pos_of_lambda code from' upTo ⟨_, (Lexeme.eq_append_of_word lexeme).1.symm⟩)
  stars := by
    rintro depth cursor ⟨past, code, from', upTo⟩ star
    obtain ⟨more, shown⟩ := List.head?_eq_some_iff.mp star
    rw [shown] at code
    have behind : IsCodeAt text (past ++ ['*']) depth more :=
      IsCodeAt.concat code rfl (by simp [bracketStep])
    have none : HasNoColon text past (past ++ ['*']) :=
      hasNoColon_append_of_not_mem code.text_eq (by decide)
    exact ⟨past ++ ['*'], by simpa [shown] using behind, Nat.le_trans from' (by simp),
      closes.length_le none upTo⟩

include strings in
/-- Strings lead along it. -/
theorem Track.readsStrings_header : (Track.header gaps closes).ReadsStrings := by
  rintro self nested - depth ahead form ⟨cursor, place, here, -, seen⟩ opened
  obtain ⟨rfl, present, begins⟩ := Cursor.stringStart?_of_peek? seen opened
  obtain ⟨past, code, from', upTo⟩ := here.lookahead gaps closes present
  intro behind value next same read
  subst same
  obtain ⟨past', goesOn⟩ :=
    Reader.leads_stringLiteral_code strings nested code begins _ value next rfl read
  exact ⟨past', goesOn.code, Nat.le_trans from' goesOn.le, closes.length_le goesOn.colons upTo⟩

include gaps strings closes

/-- **The colon of the header is the first one outside of brackets.** -/
theorem Cursor.Heads.codeAt_of_closesAt {start behind : Cursor} {keyword : String}
    (heads : start.Heads keyword behind) (here : InHeader text before head 0 start.settled) :
    IsCodeAt text (before ++ head ++ [':']) 0 behind.rest ∧ behind.rest = tail ++ '\n' :: after := by
  cases heads with | @intro cursor colon within seen isColon => ?_
  obtain ⟨begun, announces, reaches⟩ := within
  have last : InHeader text before head 0 cursor :=
    reaches _ (Track.readsStrings_header gaps strings closes) (announces.along here)
  have lexeme := Lookahead.lexeme_of_isMark isColon
  have moves : colon.lexeme.Moves True 0 0 := Lookahead.moves_colon isColon (.inr trivial)
  obtain rfl := Cursor.eq_lookahead_of_moves seen moves
  obtain ⟨past, code, from', upTo⟩ := last.lookahead gaps closes (Lexeme.Moves.present moves)
  have shown : cursor.lookahead.2 = ':' :: cursor.lookahead.1.after.rest :=
    Lexeme.eq_append_of_read lexeme
  have single : cursor.lookahead.1.after.rest.head? ≠ some '=' := by
    intro second
    obtain ⟨more, equals⟩ := List.head?_eq_some_iff.mp second
    change (Lexeme.read cursor.lookahead.2).1 = _ at lexeme
    have assigned : (Lexeme.read (':' :: '=' :: more)).1 = .mark ":=" := rfl
    rw [shown, equals, assigned] at lexeme
    exact absurd (Lexeme.mark.inj lexeme) (by decide)
  rw [shown] at code
  obtain ⟨rfl, rest⟩ := closes.eq_of_colon code from' upTo single
  have behind : IsCodeAt text (before ++ head ++ [':']) 0 cursor.lookahead.1.after.rest :=
    IsCodeAt.concat code rfl rfl
  exact ⟨behind, rest⟩

end Header

/-! ## Bodies -/

/-- Where a line break was found, the gap that ends has columns. -/
theorem GapState.columns_mark {state : GapState} (breaks : state.broken = true ∨ state.columns ≠ []) :
    state.mark.columns ≠ [] := by
  rw [GapState.mark]
  split
  · simp
  · rename_i whole
    exact breaks.resolve_left whole

/-- A gap in which a line break was found has columns. -/
theorem Gap.columns_ne_nil {comment : Bool} {state : GapState}
    (breaks : state.broken = true ∨ state.columns ≠ []) :
    (Gap.scan comment state rest).columns ≠ [] := by
  have newline {state : GapState} (breaks : state.broken = true ∨ state.columns ≠ []) :
      state.newline.broken = true ∨ state.newline.columns ≠ [] :=
    breaks.imp_left fun broken => by simp [GapState.newline, broken]
  fun_induction Gap.scan comment state rest with
  | case1 => simp
  | case2 _ _ _ ih => exact ih (newline breaks)
  | case3 _ _ ih => exact ih (newline breaks)
  | case4 _ _ _ _ ih => exact ih breaks
  | case5 _ _ ih => exact ih (newline breaks)
  | case6 _ _ _ _ ih => exact ih breaks
  | case7 _ _ _ _ _ _ ih => exact ih breaks
  | case8 _ _ _ _ _ _ _ ih => exact ih breaks
  | case9 _ _ _ _ _ _ _ _ ih => exact ih breaks
  | case10 _ _ _ _ _ _ _ _ _ _ _ ih => exact ih breaks
  | case11 _ _ _ _ _ _ _ _ _ _ _ _ ih => exact ih breaks
  | case12 _ state _ _ _ _ _ _ _ _ _ ih => exact ih (.inr (GapState.columns_mark breaks))
  | case13 _ _ _ _ _ _ _ _ _ _ _ _ _ _ ih => exact ih breaks
  | case14 =>
    rw [GapState.finish, Ne, List.reverse_eq_nil_iff]
    exact GapState.columns_mark breaks

/-- Behind the end of a line the next lexeme begins a line. -/
theorem Cursor.isBroken_of_idle (line : cursor.rest = tail ++ '\n' :: after) (idle : isIdle tail = true)
    (free : '\n' ∉ tail) : cursor.IsBroken := by
  obtain ⟨columns, scanned⟩ := Gap.scan_idle tail free idle [] 0 false cursor.row after
  show (Gap.scan false ⟨[], 0, false, false, cursor.row⟩ cursor.rest).columns ≠ []
  rw [line, scanned]
  exact Gap.columns_ne_nil (.inl rfl)

end StrategyMend.Python
