import StrategyMend.Proofs.Python.Beginnings
import StrategyMend.Proofs.Python.StringText

/-!
# The columns of lines in a block

The grammar passes over a line break in a statement only if the next line stands no further left than the
block, or begins with a string. So no line of what is derived in a block begins further left than the
block does, strings aside (`Derives.levelTo`); on the way there the reading keeps to program text, where
the text has it (`Track.level`).
-/

set_option autoImplicit false

namespace StrategyMend.Python

open Source

variable {text start middle past rest : List Char} {depth depth' indent : Nat} {cursor : Cursor}

/-! ## Levels -/

/-- Behind `past` the text goes on with program text, and on the way there from `start` no line begins
further left than `indent`, unless with a string. -/
structure LevelTo (text start : List Char) (indent depth : Nat) (past rest : List Char) : Prop where
  code : IsCodeAt text past depth rest
  le : start.length ≤ past.length
  level : ∀ above margin c shown, StatementStart text above margin c shown →
    start.length < above.length → above.length ≤ past.length →
      isQuote c = true ∨ indent ≤ marginColumn margin

theorem levelTo_self (here : IsCodeAt text past depth rest) (indent : Nat) :
    LevelTo text past indent depth past rest :=
  ⟨here, Nat.le_refl _, fun _ _ _ _ _ later upTo => absurd later (Nat.not_lt_of_le upTo)⟩

theorem LevelTo.trans {more : List Char} (first : LevelTo text start indent depth middle rest)
    (second : LevelTo text middle indent depth' past more) :
    LevelTo text start indent depth' past more where
  code := second.code
  le := Nat.le_trans first.le second.le
  level := by
    intro above margin c shown begun later upTo
    by_cases before : above.length ≤ middle.length
    · exact first.level above margin c shown begun later before
    · exact second.level above margin c shown begun (by omega) upTo

theorem LevelTo.mono {lower : Nat} (level : LevelTo text start indent depth past rest)
    (weaker : lower ≤ indent) : LevelTo text start lower depth past rest where
  code := level.code
  le := level.le
  level := fun above margin c shown begun later upTo =>
    (level.level above margin c shown begun later upTo).imp_right (Nat.le_trans weaker)

theorem GoesOn.levelTo (goesOn : GoesOn text start depth past rest) (indent : Nat) :
    LevelTo text start indent depth past rest where
  code := goesOn.code
  le := goesOn.le
  level := fun above margin c shown begun later upTo =>
    absurd upTo (goesOn.quiet above margin c shown begun later)

/-- Plain characters begin no line. -/
theorem levelTo_append {front : List Char}
    (behind : IsCodeAt text (past ++ front) depth' rest) (free : '\n' ∉ front) (indent : Nat) :
    LevelTo text past indent depth' (past ++ front) rest where
  code := behind
  le := by simp
  level := by
    intro above margin c shown begun later upTo
    refine absurd upTo (quiet_of_covered behind.text_eq (fun top begins => ?_) above margin c shown begun
      later)
    exact absurd (begins.subset (by simp)) free

/-! ## Lexemes -/

/-- A string without letters before it begins with a quote. -/
theorem isQuote_of_isBareString {ahead : Lookahead} {shown : List Char}
    (lexeme : ahead.lexeme = (Lexeme.read shown).1) (bare : ahead.isBareString shown = true) :
    ∃ c more, shown = c :: more ∧ (isQuote c = true ∨ c = '\x60') := by
  unfold Lookahead.isBareString at bare
  split at bare
  · rename_i form c more opened
    rw [lexeme] at opened
    obtain ⟨flags, quote, after, split, letters, quotes⟩ := Lexeme.exists_quote_of_read opened
    refine ⟨c, more, rfl, ?_⟩
    cases flags with
    | nil =>
      obtain rfl := (List.cons.inj split).1
      simp only [List.contains_eq_mem, decide_eq_true_eq, List.mem_cons, List.not_mem_nil,
        or_false] at quotes
      rcases quotes with rfl | rfl | rfl
      · exact .inl rfl
      · exact .inl rfl
      · exact .inr rfl
    | cons d flags =>
      obtain rfl := (List.cons.inj split).1
      rw [letters c List.mem_cons_self] at bare
      cases bare
  · cases bare

section Lookahead

variable (gaps : HasPlainGaps text)
include gaps

/-- The gap before a lexeme begins no line but that of the lexeme. -/
theorem IsCodeAt.levelTo_lookahead (here : IsCodeAt text past depth cursor.rest)
    (present : cursor.lookahead.2 ≠ [])
    (level : depth = 0 → ∀ c shown, cursor.lookahead.2 = c :: shown → ∀ column,
      cursor.lookahead.1.column? = some column → isQuote c = true ∨ indent ≤ column) :
    ∃ past', LevelTo text past indent depth past' cursor.lookahead.2 := by
  obtain ⟨past', gap⟩ := here.gap gaps
  refine ⟨past', gap.code present, gap.start_le, fun above margin c shown begun later upTo => ?_⟩
  obtain ⟨outside, -, shown, column⟩ := gap.starts above margin c shown begun later upTo
  exact level outside _ _ shown _ column

/-- Where a lexeme is seen, the line it begins stands no further left than the block. -/
theorem LevelTo.see {place : Place} {ahead : Lookahead} (strings : HasPlainStrings text)
    (here : LevelTo text start cursor.indent depth past cursor.rest) (fits : place.Fits depth)
    (seen : cursor.peek? place = some ahead) (visible : ahead.lexeme ≠ .lineBreak)
    (present : cursor.lookahead.2 ≠ []) :
    ahead = cursor.lookahead.1 ∧
      ∃ past', LevelTo text start cursor.indent depth past' cursor.lookahead.2 := by
  obtain rfl : ahead = cursor.lookahead.1 :=
    (Cursor.peek?_cases seen).resolve_right fun lineBreak => visible lineBreak.1
  have level : depth = 0 → ∀ c shown, cursor.lookahead.2 = c :: shown → ∀ column,
      cursor.lookahead.1.column? = some column → isQuote c = true ∨ cursor.indent ≤ column := by
    intro outside c shown begins column found
    cases place with
    | inBrackets => exact absurd (fits rfl) (by omega)
    | statementEnd =>
      rw [Cursor.peek?_statementEnd_of_isBroken (Cursor.isBroken_of_column? found)] at seen
      exact absurd (congrArg Lookahead.lexeme (Option.some.inj seen)).symm visible
    | inStatement =>
      obtain ⟨-, level⟩ := Cursor.columns_of_peek? seen
      by_cases bare : cursor.lookahead.1.isBareString cursor.lookahead.2 = true
      · obtain ⟨d, more, same, quote⟩ := isQuote_of_isBareString rfl bare
        obtain ⟨rfl, rfl⟩ := List.cons.inj (begins.symm.trans same)
        refine .inl (quote.resolve_right ?_)
        rintro rfl
        obtain ⟨past', gap⟩ := here.code.gap gaps
        exact strings.graves past' depth shown (begins ▸ gap.code present)
      · rw [if_neg bare] at level
        exact .inr (level column (List.mem_of_getLast? found))
  obtain ⟨past', passed⟩ := here.code.levelTo_lookahead gaps present level
  exact ⟨rfl, past', here.trans passed⟩

end Lookahead

/-! ## The track of a level -/

theorem Lexeme.Moves.present {shown : List Char} {colons : Prop}
    (moves : (Lexeme.read shown).1.Moves colons depth depth') : shown ≠ [] := by
  rintro rfl
  cases moves

theorem Lexeme.Moves.ne_lineBreak {lexeme : Lexeme} {colons : Prop}
    (moves : lexeme.Moves colons depth depth') : lexeme ≠ .lineBreak := by
  rintro rfl
  cases moves

/-- What opens a string opens it in the text. -/
theorem Lexeme.stringStart?_of_read {shown : List Char} {form : StringForm}
    (opened : (read shown).1 = .stringStart form) :
    stringStart? shown = some (form, (read shown).2) := by
  cases shown with
  | nil => cases opened
  | cons c rest =>
    rcases read_cons c rest with ⟨form', after, here, same⟩ | same | ⟨_, _, same⟩ | ⟨_, _, _, same⟩ |
      same
    all_goals rw [same] at opened; cases opened
    rw [here, same]

theorem Lookahead.present_of_isMark {sign : String}
    (mark : cursor.lookahead.1.isMark sign = true) : cursor.lookahead.2 ≠ [] := by
  intro ended
  have lexeme : (Lexeme.read cursor.lookahead.2).1 = .mark sign := lexeme_of_isMark mark
  rw [ended] at lexeme
  cases lexeme

/-- A lexeme that moves is no line break. -/
theorem Cursor.eq_lookahead_of_moves {place : Place} {ahead : Lookahead} {colons : Prop}
    (seen : cursor.peek? place = some ahead) (moves : ahead.lexeme.Moves colons depth depth') :
    ahead = cursor.lookahead.1 :=
  (Cursor.peek?_cases seen).resolve_right fun lineBreak => moves.ne_lineBreak lineBreak.1

/-- A string that is seen opens in the text. -/
theorem Cursor.stringStart?_of_peek? {place : Place} {ahead : Lookahead} {form : StringForm}
    (seen : cursor.peek? place = some ahead) (opened : ahead.lexeme = .stringStart form) :
    ahead = cursor.lookahead.1 ∧ cursor.lookahead.2 ≠ [] ∧
      stringStart? cursor.lookahead.2 = some (form, cursor.lookahead.1.after.rest) := by
  have visible : ahead.lexeme ≠ .lineBreak := by
    rw [opened]
    exact fun same => by cases same
  obtain rfl := (Cursor.peek?_cases seen).resolve_right fun lineBreak => visible lineBreak.1
  change (Lexeme.read cursor.lookahead.2).1 = _ at opened
  refine ⟨rfl, fun ended => ?_, Lexeme.stringStart?_of_read opened⟩
  rw [ended] at opened
  cases opened

namespace Track

variable (gaps : HasPlainGaps text) (strings : HasPlainStrings text)

/-- The cursors from the position behind `start` on, as long as no line begins left of the block. -/
def level (start : List Char) (indent : Nat) : Track where
  On := fun depth cursor => cursor.indent = indent ∧
    ∃ past, LevelTo text start indent depth past cursor.rest
  colons := True
  passes := by
    rintro depth depth' ahead ⟨cursor, place, ⟨rfl, past, here⟩, fits, seen⟩ moves
    obtain rfl := Cursor.eq_lookahead_of_moves seen moves
    obtain ⟨-, past', level⟩ := here.see gaps strings fits seen moves.ne_lineBreak
      (Lexeme.Moves.present moves)
    obtain ⟨front, same, passes, behind⟩ := level.code.passes moves
    have free : '\n' ∉ front := fun member => by simpa [isPlainChar] using passes.plain '\n' member
    exact ⟨rfl, past' ++ front, level.trans (levelTo_append behind free cursor.indent)⟩
  lambdas := fun _ _ => .inr trivial
  stars := by
    rintro depth cursor ⟨rfl, past, here⟩ star
    obtain ⟨more, shown⟩ := List.head?_eq_some_iff.mp star
    rw [shown] at here
    refine ⟨rfl, past ++ ['*'], ?_⟩
    have behind : IsCodeAt text (past ++ ['*']) depth more :=
      IsCodeAt.concat here.code rfl (by simp [bracketStep])
    simpa [shown] using here.trans (levelTo_append behind (by decide) cursor.indent)

/-- Strings lead along it. -/
theorem readsStrings_level : (level gaps strings start indent).ReadsStrings := by
  rintro self nested - depth ahead form ⟨cursor, place, ⟨rfl, past, here⟩, fits, seen⟩ opened
  obtain ⟨rfl, present, begins⟩ := Cursor.stringStart?_of_peek? seen opened
  have visible : cursor.lookahead.1.lexeme ≠ .lineBreak := Lexeme.read_ne_lineBreak _
  obtain ⟨-, past', level⟩ := here.see gaps strings fits seen visible present
  intro behind value next same read
  subst same
  have nests : (inBlocks cursor.blocks cursor.lookahead.1.after.rest).Nests self :=
    nests_of_reads readsStrings_inBlocks nested
  have inBlocks : (inBlocks cursor.blocks cursor.lookahead.1.after.rest).On 1
      cursor.lookahead.1.after := ⟨Cursor.blocks_after_of_peek? seen, List.suffix_refl _⟩
  obtain ⟨blocks, -⟩ := staysIn_stringLiteral nests form _ value next inBlocks read
  obtain ⟨past'', goesOn⟩ :=
    Reader.leads_stringLiteral_code strings nested level.code begins _ value next rfl read
  exact ⟨congrArg (List.headD · 0) blocks, past'', level.trans (goesOn.levelTo _)⟩

end Track

/-! ## The lines of a block -/

theorem Cursor.Heads.indent_eq {start behind : Cursor} {keyword : String}
    (heads : start.Heads keyword behind) : behind.indent = start.indent := by
  rw [Cursor.indent, heads.blocks_eq]
  rfl

theorem Derives.indent_eq {part : Part} {start next : Cursor} {found : List Statement}
    (derives : Derives part start found next) : next.indent = start.indent := by
  rw [Cursor.indent, derives.blocks_eq]
  rfl

section Derives

variable (gaps : HasPlainGaps text) (strings : HasPlainStrings text)
include gaps strings

/-- A line of the block stands in its column. -/
theorem IsCodeAt.levelTo_settled (here : IsCodeAt text past 0 cursor.rest)
    (present : cursor.lookahead.2 ≠ []) (inside : cursor.Inside) :
    ∃ past', (Track.level gaps strings past cursor.indent).On 0 cursor.settled ∧
      LevelTo text past cursor.indent 0 past' cursor.settled.rest := by
  obtain ⟨past', level⟩ := here.levelTo_lookahead gaps present fun _ _ _ _ column found =>
    .inr (inside column found)
  exact ⟨past', ⟨rfl, past', level⟩, level⟩

/-- The header of a statement is in its block. -/
theorem Cursor.Heads.levelTo {behind : Cursor} {keyword : String}
    (heads : cursor.Heads keyword behind) (here : IsCodeAt text past 0 cursor.rest)
    (inside : cursor.Inside) : ∃ past', LevelTo text past cursor.indent 0 past' behind.rest := by
  obtain ⟨past', on, -⟩ := here.levelTo_settled gaps strings heads.present inside
  exact (heads.along (Track.readsStrings_level gaps strings) trivial on).2

/-- The statements of a line are. -/
theorem levelTo_simpleStatements {next : Cursor} {found : List Statement}
    (here : LevelTo text start cursor.indent 0 past cursor.rest)
    (beside : cursor.lookahead.1.columns = []) (read : simpleStatements cursor = some (found, next)) :
    ∃ past', LevelTo text start cursor.indent 0 past' next.rest :=
  (@Track.leads_simpleStatements (.level gaps strings start cursor.indent) 0
    (Track.readsStrings_level gaps strings) (.inr trivial) cursor found next
      ⟨⟨rfl, past, here⟩, .inr beside⟩ read).1.2

/-- **No line of what is derived begins left of the block,** unless with a string. -/
theorem Derives.levelTo {part : Part} {start next : Cursor} {found : List Statement}
    (derives : Derives part start found next) (here : IsCodeAt text past 0 start.rest)
    (inside : part = .line → start.Inside) :
    ∃ past', LevelTo text past start.indent 0 past' next.rest := by
  induction derives generalizing past with
  | @simple start next found present read =>
    obtain ⟨past', -, level⟩ := here.levelTo_settled gaps strings present (inside rfl)
    have beside : start.settled.lookahead.1.columns = [] := by rw [Cursor.lookahead_settled present]
    exact @levelTo_simpleStatements _ _ _ start.settled gaps strings _ _ level beside read
  | block _ heads suite _ ih ih' =>
    obtain ⟨first, header⟩ := heads.levelTo gaps strings here (inside rfl)
    obtain ⟨second, body⟩ := ih header.code (fun same => by cases same)
    obtain ⟨third, later⟩ := ih' body.code (fun same => by cases same)
    rw [heads.indent_eq] at body
    rw [suite.indent_eq, heads.indent_eq] at later
    exact ⟨third, (header.trans body).trans later⟩
  | function heads _ ih =>
    obtain ⟨first, header⟩ := heads.levelTo gaps strings here (inside rfl)
    obtain ⟨second, body⟩ := ih header.code (fun same => by cases same)
    rw [heads.indent_eq] at body
    exact ⟨second, header.trans body⟩
  | classDef heads _ ih =>
    obtain ⟨first, header⟩ := heads.levelTo gaps strings here (inside rfl)
    obtain ⟨second, body⟩ := ih header.code (fun same => by cases same)
    rw [heads.indent_eq] at body
    exact ⟨second, header.trans body⟩
  | decorated mark reaches _ below _ ih =>
    have present := Lookahead.present_of_isMark mark
    obtain ⟨first, on, -⟩ := here.levelTo_settled gaps strings present (inside rfl)
    obtain ⟨indent, second, decorators⟩ := reaches _ (Track.readsStrings_level gaps strings) on
    obtain ⟨third, definition⟩ := ih decorators.code fun _ => below
    rw [indent] at definition
    exact ⟨third, decorators.trans definition⟩
  | none => exact ⟨past, levelTo_self here _⟩
  | more lines inside' _ ih ih' =>
    obtain ⟨first, before⟩ := ih here (fun same => by cases same)
    obtain ⟨second, line⟩ := ih' before.code fun _ => inside'
    rw [lines.indent_eq] at line
    exact ⟨second, before.trans line⟩
  | @beside start next found unbroken read =>
    exact levelTo_simpleStatements gaps strings (levelTo_self here _)
      (List.getLast?_eq_none_iff.mp unbroken) read
  | empty => exact ⟨past, levelTo_self here _⟩
  | deeper _ deeper _ _ ih =>
    obtain ⟨past', lines⟩ := ih here (fun same => by cases same)
    exact ⟨past', lines.mono (Nat.le_of_lt deeper)⟩
  | last => exact ⟨past, levelTo_self here _⟩
  | clause _ inside' _ heads suite _ ih ih' =>
    obtain ⟨first, header⟩ := heads.levelTo gaps strings here inside'
    obtain ⟨second, body⟩ := ih header.code (fun same => by cases same)
    obtain ⟨third, others⟩ := ih' body.code (fun same => by cases same)
    rw [heads.indent_eq] at body
    rw [suite.indent_eq, heads.indent_eq] at others
    exact ⟨third, (header.trans body).trans others⟩

end Derives

end StrategyMend.Python
