import StrategyMend.Proofs.Python.HeaderEnd
import StrategyMend.Proofs.Python.TextLines

/-!
# The lines of later clauses

A later clause begins a line, and the header of the clause before it begins one further up, with a whole
word (`Cursor.Heads.beginsWithWord`): no reader gets beyond a letter that no identifier may have
(`Track.stuck`). If the header ends at the end of a line, then all lines from there on up to the clause are
deeper than the clause, unless they begin with a string (`OpenedBy.column_lt`). So the text shows where a
clause belongs (`Attaches.exists_jointLines`).
-/

set_option autoImplicit false

namespace StrategyMend.Python

open Source

variable {text above top margin margin' past shown rest : List Char} {c : Char} {cursor : Cursor}
  {column : Nat}

/-! ## What begins a line -/

/-- The next lexeme begins the line behind `above`, with the margin before it. -/
structure Cursor.BeginsLine (text above margin : List Char) (cursor : Cursor) : Prop where
  line : LineStart text above (margin ++ cursor.lookahead.2)
  blank : ∀ c ∈ margin, isGapChar c = true
  code : IsCodeAt text (above ++ margin) 0 cursor.lookahead.2
  row_eq : cursor.lookahead.1.row = above.count '\n'

theorem LineStart.eq_of_append_eq (line : LineStart text above (margin ++ rest))
    (line' : LineStart text top (margin' ++ shown)) (blank : ∀ c ∈ margin, isGapChar c = true)
    (blank' : ∀ c ∈ margin', isGapChar c = true) (same : above ++ margin = top ++ margin') :
    above = top ∧ margin = margin' := by
  refine eq_of_count_newline line.ends line'.ends same ?_
  have rows := congrArg (List.count '\n') same
  rwa [List.count_append, List.count_append, Cursor.count_newline_of_blank blank,
    Cursor.count_newline_of_blank blank'] at rows

/-- A word begins with a character that may begin one. -/
theorem Lexeme.isIdentifierStart_of_read {word : String}
    (lexeme : (read (c :: rest)).1 = .word word) : isIdentifierStart c = true := by
  dsimp only [read] at lexeme
  split at lexeme
  · cases lexeme
  · split at lexeme
    · assumption
    · split at lexeme
      · cases lexeme
      · split at lexeme <;> cases lexeme

theorem ne_of_isIdentifierStart {d : Char} (starts : isIdentifierStart c = true)
    (refuses : isIdentifierStart d = false) : c ≠ d := by
  rintro rfl
  rw [refuses] at starts
  cases starts

/-- No blank character of a gap begins a word. -/
theorem isGapChar_of_isIdentifierStart (starts : isIdentifierStart c = true) :
    isGapChar c = false := by
  rw [← Bool.not_eq_true]
  intro gap
  simp only [isGapChar, isHiding, Bool.or_eq_true, decide_eq_true_eq] at gap
  rcases gap with (((rfl | rfl) | rfl) | rfl) | ((rfl | rfl) | rfl) | rfl
  all_goals exact absurd starts (by decide +kernel)

section Lines

variable (gaps : HasPlainGaps text)
include gaps

/-- What opens a line begins it. -/
theorem Cursor.Opens.beginsLine (opens : cursor.Opens text) (here : IsCodeAt text past 0 cursor.rest)
    (present : cursor.lookahead.2 ≠ []) :
    ∃ above margin, cursor.BeginsLine text above margin ∧
      past.length ≤ (above ++ margin).length ∧ (cursor.IsBroken → past.length < above.length) := by
  obtain ⟨past', gap⟩ := here.gap gaps
  have first : cursor.IsBroken ∨ past = [] := by
    rcases opens.first with broken | rfl
    · exact .inl broken
    · exact .inr (List.append_cancel_right (here.text_eq.symm.trans (List.nil_append text).symm))
  obtain ⟨above, margin, rfl, line, later, blank⟩ := gap.line present rfl first
  refine ⟨above, margin, ⟨line, blank, gap.code present, ?_⟩, gap.start_le, later⟩
  obtain ⟨before, same, rows⟩ := opens.isAt.settled.1
  have split : above ++ margin = before := List.append_cancel_right (gap.text_eq.symm.trans same)
  rw [← rows, ← split, List.count_append, count_newline_of_blank blank, Nat.add_zero]

/-- No other statement line begins in the gap before it. -/
theorem Cursor.BeginsLine.length_le (line : cursor.BeginsLine text above margin)
    (here : IsCodeAt text past 0 cursor.rest) (begun : StatementStart text top margin' c shown)
    (before : top.length < above.length) : top.length ≤ past.length := by
  by_contra later
  obtain ⟨past', gap⟩ := here.gap gaps
  obtain rfl : past' = above ++ margin :=
    List.append_cancel_right (gap.text_eq.symm.trans line.code.text_eq)
  obtain ⟨-, same, -⟩ := gap.starts top margin' c shown begun (Nat.lt_of_not_le later)
    (by simp only [List.length_append]; omega)
  obtain ⟨rfl, -⟩ := line.line.eq_of_append_eq begun.line line.blank begun.isGapChar_margin same
  exact Nat.lt_irrefl _ before

/-- It stands in the column of the margin. -/
theorem Cursor.BeginsLine.column_eq (line : cursor.BeginsLine text above margin)
    (here : IsCodeAt text past 0 cursor.rest) (later : past.length < above.length)
    (begun : StatementStart text above margin c shown)
    (found : cursor.lookahead.1.column? = some column) : column = marginColumn margin := by
  obtain ⟨past', gap⟩ := here.gap gaps
  obtain rfl : past' = above ++ margin :=
    List.append_cancel_right (gap.text_eq.symm.trans line.code.text_eq)
  obtain ⟨-, -, -, column'⟩ := gap.starts above margin c shown begun later (by simp)
  exact Option.some.inj (found.symm.trans column')

/-- A word begins a statement line. -/
theorem Cursor.BeginsLine.statementStart {word : String} (line : cursor.BeginsLine text above margin)
    (lexeme : cursor.lookahead.1.lexeme = .word word) :
    ∃ c shown, cursor.lookahead.2 = c :: shown ∧ StatementStart text above margin c shown := by
  change (Lexeme.read cursor.lookahead.2).1 = .word word at lexeme
  have code := line.line
  cases begins : cursor.lookahead.2 with
  | nil =>
    rw [begins] at lexeme
    cases lexeme
  | cons c shown =>
    rw [begins] at lexeme code
    have starts := Lexeme.isIdentifierStart_of_read lexeme
    have visible : isGapChar c = false ∧ c ≠ '\n' :=
      ⟨isGapChar_of_isIdentifierStart starts, ne_of_isIdentifierStart starts (by decide)⟩
    have comment : c ≠ '#' := ne_of_isIdentifierStart starts (by decide)
    exact ⟨c, shown, rfl, (code.statementStart gaps line.blank visible comment).1⟩

end Lines

/-! ## Keywords -/

/-- What begins an identifier may also continue one. -/
theorem isIdentifierPart_of_isIdentifierStart (starts : isIdentifierStart c = true) :
    isIdentifierPart c = true := by
  have others : ∀ code ∈ [0x1885, 0x1886, 0x2118, 0x212E],
      isIdentifierPart (Char.ofNat code) = true := by
    decide +kernel
  unfold isIdentifierStart at starts
  dsimp only at starts
  split at starts
  · rename_i ascii
    rw [isIdentifierPart, if_pos ascii, Text.isAsciiWord, Char.isAlphanum]
    rcases Bool.or_eq_true_iff.mp starts with letter | underscore
    · simp [letter]
    · simp [underscore]
  · rename_i ascii
    rcases Bool.or_eq_true_iff.mp starts with letter | other
    · rw [isIdentifierPart, if_neg ascii]
      simp_all
    · have code : c.toNat ∈ [0x1885, 0x1886, 0x2118, 0x212E] := by
        simp only [otherStartRanges, Text.inRanges, List.any_cons, List.any_nil, Bool.or_false,
          Bool.or_eq_true, Bool.and_eq_true, decide_eq_true_eq] at other
        simp only [List.mem_cons, List.not_mem_nil, or_false]
        omega
      have continues := others c.toNat code
      rwa [Char.ofNat_toNat] at continues

theorem isIdentifierPart_of_isDigit (digit : c.isDigit = true) : isIdentifierPart c = true := by
  have ascii : c.toNat < 0x80 := by
    simp only [Char.isDigit, Bool.and_eq_true, decide_eq_true_eq] at digit
    exact Nat.lt_of_le_of_lt digit.2 (by decide)
  rw [isIdentifierPart, if_pos ascii, Text.isAsciiWord, Char.isAlphanum, digit]
  simp

/-- A number begins with a digit or a point. -/
theorem isDigit_of_skipNumber? (number : skipNumber? (c :: rest) = some shown) :
    c = '.' ∨ c.isDigit = true := by
  unfold skipNumber? at number
  split at number
  · rename_i begins
    exact .inl (List.cons.inj begins).1
  · rename_i begins
    exact .inr ((List.cons.inj begins).1 ▸ rfl)
  · rename_i begins
    obtain ⟨rfl, -⟩ := List.cons.inj begins
    split at number
    · exact .inr (by assumption)
    · cases number
  · cases number

/-- No mark begins with a character of a word. -/
theorem isWordChar_of_mark? {sign : String} (mark : mark? (c :: rest) = some (sign, shown)) :
    Text.isWordChar c = false := by
  obtain ⟨listed, split⟩ := eq_append_of_mark? mark
  have heads : ∀ sign ∈ marks, (sign.toList.head?.map Text.isWordChar) = some false := by
    decide +kernel
  have head := heads sign listed
  cases letters : sign.toList with
  | nil =>
    rw [letters] at head
    cases head
  | cons d others =>
    rw [letters] at head split
    obtain rfl := (List.cons.inj split).1
    exact Option.some.inj head

/-- A string begins with a letter of an identifier, or with what is no character of a word. -/
theorem isIdentifierPart_of_stringStart {form : StringForm}
    (opened : (Lexeme.read (c :: rest)).1 = .stringStart form) :
    isIdentifierPart c = true ∨ Text.isWordChar c = false := by
  obtain ⟨flags, quote, more, split, letters, quotes⟩ := Lexeme.exists_quote_of_read opened
  cases flags with
  | nil =>
    obtain rfl := (List.cons.inj split).1
    simp only [List.contains_eq_mem, decide_eq_true_eq, List.mem_cons, List.not_mem_nil,
      or_false] at quotes
    rcases quotes with rfl | rfl | rfl
    all_goals exact .inr (by decide)
  | cons d flags =>
    obtain rfl := (List.cons.inj split).1
    have inner : ("fFrRbBuU".toList.all isIdentifierPart) = true := by decide
    have listed := List.contains_iff_mem.mp (letters c List.mem_cons_self)
    exact .inl (List.all_eq_true.mp inner c listed)

/-- A character of a word that no identifier has is no lexeme. -/
theorem Lexeme.read_stray (isWord : Text.isWordChar c = true) (outer : isIdentifierPart c = false)
    (rest : List Char) : read (c :: rest) = (.stray, rest) := by
  have inner : ¬isIdentifierPart c = true := by simp [outer]
  have other : ¬Text.isWordChar c = false := by simp [isWord]
  rcases read_cons c rest with ⟨form, after, -, same⟩ | same | ⟨after, number, -⟩ |
    ⟨sign, after, mark, -⟩ | same
  · exact (isIdentifierPart_of_stringStart (congrArg Prod.fst same)).elim (absurd · inner) (absurd · other)
  · have starts := isIdentifierStart_of_read (congrArg Prod.fst same)
    exact absurd (isIdentifierPart_of_isIdentifierStart starts) inner
  · rcases isDigit_of_skipNumber? number with rfl | digit
    · exact absurd rfl other
    · exact absurd (isIdentifierPart_of_isDigit digit) inner
  · exact absurd (isWordChar_of_mark? mark) other
  · exact same

/-- So nothing is read there. -/
theorem Cursor.lexeme_stray (begins : cursor.rest = c :: rest) (isWord : Text.isWordChar c = true)
    (outer : isIdentifierPart c = false) : cursor.lookahead.1.lexeme = .stray := by
  have other {d : Char} (plain : Text.isWordChar d = false) : c ≠ d := by
    rintro rfl
    rw [plain] at isWord
    cases isWord
  have solid : isGapChar c = false := by
    rw [← Bool.not_eq_true]
    intro gap
    simp only [isGapChar, isHiding, Bool.or_eq_true, decide_eq_true_eq] at gap
    rcases gap with (((rfl | rfl) | rfl) | rfl) | ((rfl | rfl) | rfl) | rfl
    all_goals exact absurd isWord (by decide +kernel)
  have lexeme : cursor.lookahead.1.lexeme =
      (Lexeme.read (Gap.scan false ⟨[], 0, false, false, cursor.row⟩ cursor.rest).rest).1 := rfl
  rw [lexeme, begins, Gap.scan_visible ⟨solid, other (by decide)⟩ (other (by decide)) (other (by decide))]
  exact congrArg Prod.fst (Lexeme.read_stray isWord outer rest)

/-- The cursor in front of such a character: no reader gets beyond it. -/
def Track.stuck (begun : Cursor) (stray : begun.lookahead.1.lexeme = .stray)
    (other : begun.rest.head? ≠ some '*') : Track where
  On := fun _ cursor => cursor = begun
  colons := False
  passes := by
    rintro depth depth' ahead ⟨_, place, rfl, -, seen⟩ moves
    obtain rfl := Cursor.eq_lookahead_of_moves seen moves
    rw [stray] at moves
    cases moves
  lambdas := by
    rintro depth ahead ⟨_, place, rfl, -, seen⟩ lambda
    have lexeme := Lookahead.lexeme_of_isWord lambda
    have moves : ahead.lexeme.Moves False depth depth := Lookahead.moves_word lexeme depth
    obtain rfl := Cursor.eq_lookahead_of_moves seen moves
    rw [stray] at lexeme
    cases lexeme
  stars := by
    rintro depth cursor rfl star
    exact absurd star other

theorem Track.readsStrings_stuck {begun : Cursor} (stray : begun.lookahead.1.lexeme = .stray)
    (other : begun.rest.head? ≠ some '*') : (Track.stuck begun stray other).ReadsStrings := by
  rintro self - - depth ahead form ⟨cursor, place, here, -, seen⟩ opened
  rw [show cursor = begun from here] at seen
  rcases Cursor.peek?_cases seen with rfl | ⟨lineBreak, -⟩
  · rw [stray] at opened
    cases opened
  · rw [lineBreak] at opened
    cases opened

/-- A word that is read is a whole one, if something is read behind it. -/
theorem beginsWithWord_of_read {word : String} (lexeme : (Lexeme.read rest).1 = .word word)
    (goesOn : ∀ c more, (Lexeme.read rest).2 = c :: more → Text.isWordChar c = true →
      isIdentifierPart c = true) : beginsWithWord word rest = true := by
  obtain ⟨whole, ended⟩ := Lexeme.eq_append_of_word lexeme
  refine beginsWithWord_iff.mpr ⟨(Lexeme.read rest).2, whole, ?_⟩
  cases behind : (Lexeme.read rest).2 with
  | nil => rfl
  | cons d more =>
    have outer := ended d (by rw [behind]; rfl)
    rw [Text.endsWord, Bool.not_eq_true', ← Bool.not_eq_true]
    intro isWord
    rw [goesOn d more behind isWord] at outer
    cases outer

/-- **A header begins with a whole word,** its keyword or the `async` before it. -/
theorem Cursor.Heads.beginsWithWord {start behind : Cursor} {keyword : String}
    (heads : start.Heads keyword behind) :
    Source.beginsWithWord keyword start.lookahead.2 = true ∨
      Source.beginsWithWord "async" start.lookahead.2 = true ∧ keyword ∈ asyncKeywords := by
  cases heads with | @intro last colon within seen isColon => ?_
  obtain ⟨begun, announces, reaches⟩ := within
  cases announces with
  | alone isWord =>
    refine .inl (beginsWithWord_of_read (Lookahead.lexeme_of_isWord isWord) ?_)
    intro c more behind isWord
    by_contra outer
    have stray : start.lookahead.1.after.lookahead.1.lexeme = .stray :=
      Cursor.lexeme_stray behind isWord (by simpa using outer)
    have other : start.lookahead.1.after.rest.head? ≠ some '*' := by
      rintro star
      rw [show start.lookahead.1.after.rest = c :: more from behind] at star
      obtain rfl := Option.some.inj star
      cases isWord
    obtain rfl := reaches (.stuck _ stray other) (Track.readsStrings_stuck stray other) rfl
    have moves : colon.lexeme.Moves True 0 0 := Lookahead.moves_colon isColon (.inr trivial)
    obtain rfl := Cursor.eq_lookahead_of_moves seen moves
    rw [Lookahead.isMark, stray] at isColon
    cases isColon
  | @async place ahead isWord outside seen' isKeyword listed =>
    refine .inr ⟨beginsWithWord_of_read (Lookahead.lexeme_of_isWord isWord) ?_, listed⟩
    intro c more behind isWord
    by_contra outer
    have stray : start.lookahead.1.after.lookahead.1.lexeme = .stray :=
      Cursor.lexeme_stray behind isWord (by simpa using outer)
    have lexeme := Lookahead.lexeme_of_isWord isKeyword
    have moves : ahead.lexeme.Moves True 0 0 := Lookahead.moves_word lexeme 0
    obtain rfl := Cursor.eq_lookahead_of_moves seen' moves
    rw [stray] at lexeme
    cases lexeme

/-! ## Later clauses -/

/-- The statement lines that a later clause and the header of the clause before it begin. Those between the
two are deeper than the clause, below a header that ends where it should, unless with a string. -/
structure JointLines (text : List Char) (joint : Joint) (header clause : TextLine) : Prop where
  headerIn : header.IsIn text
  clauseIn : clause.IsIn text
  headerRow : header.row = joint.openerRow
  clauseRow : clause.row = joint.row
  word : beginsWithWord joint.openerKind.keyword (header.first :: header.shown) = true ∨
    beginsWithWord "async" (header.first :: header.shown) = true ∧
      joint.openerKind.keyword ∈ Cursor.asyncKeywords
  above : header.above.length < clause.above.length
  deeper : ∀ line : TextLine, line.IsIn text → line.above.length < clause.above.length →
    isQuote line.first = false → ClosesAbove text joint.openerRow line.row →
      marginColumn clause.margin < marginColumn line.margin

section Joints

variable {clause : Cursor} {row : Nat} {kind : BlockKind} (gaps : HasPlainGaps text)
  (strings : HasPlainStrings text)
include gaps strings

/-- A clause is read behind the line of the header before it. -/
theorem OpenedBy.exists_lines (opened : OpenedBy text row kind clause) :
    ∃ above margin c shown past, StatementStart text above margin c shown ∧ above.count '\n' = row ∧
      (beginsWithWord kind.keyword (c :: shown) = true ∨
        beginsWithWord "async" (c :: shown) = true ∧ kind.keyword ∈ Cursor.asyncKeywords) ∧
        IsCodeAt text past 0 clause.rest ∧ (above ++ margin).length ≤ past.length := by
  obtain ⟨here, opens, inside, row_eq, heads, suite⟩ := opened
  rename_i start behind body
  obtain ⟨above, margin, line, -, -⟩ := opens.beginsLine gaps here heads.present
  obtain ⟨word, -, lexeme⟩ := heads.exists_word kind.keyword_mem
  obtain ⟨c, shown, begins, begun⟩ := line.statementStart gaps lexeme
  have on : (Track.level gaps strings (above ++ margin) start.indent).On 0 start.settled :=
    ⟨rfl, above ++ margin, levelTo_self line.code _⟩
  obtain ⟨-, past, header⟩ := heads.along (Track.readsStrings_level gaps strings) trivial on
  obtain ⟨past', body⟩ := suite.levelTo gaps strings header.code fun same => by cases same
  exact ⟨above, margin, c, shown, past', begun, line.row_eq.symm.trans row_eq.symm,
    begins ▸ heads.beginsWithWord, body.code, Nat.le_trans header.le body.le⟩

/-- The header that a clause is read behind ends where it should. -/
theorem OpenedBy.column_lt (opened : OpenedBy text row kind clause)
    (line : clause.BeginsLine text above margin) (broken : clause.lookahead.1.column? = some column)
    (begun : StatementStart text top margin' c shown) (before : top.length < above.length)
    (other : isQuote c = false) (closes : ClosesAbove text row (top.count '\n')) :
    column < marginColumn margin' := by
  obtain ⟨here, opens, inside, row_eq, heads, suite⟩ := opened
  rename_i start behind body
  obtain ⟨front, head, tail, after, closes, rows, upTo⟩ := closes
  -- The colon comes behind the keyword, and so the body begins below its line.
  obtain ⟨front', margin'', header, -, -⟩ := opens.beginsLine gaps here heads.present
  obtain ⟨rfl, line'⟩ := eq_of_count_newline closes.ends header.line.ends
    (closes.text_eq.symm.trans header.line.text_eq) (by rw [rows, row_eq, header.row_eq])
  have inHeader : InHeader text front head 0 start.settled := by
    refine ⟨front ++ margin'', header.code, by simp, ?_⟩
    refine closes.length_le (hasNoColon_append_of_not_mem header.line.text_eq fun colon => ?_) (by simp)
    cases header.blank ':' colon
  obtain ⟨code, rest⟩ := heads.codeAt_of_closesAt gaps strings closes inHeader
  have below : (front ++ head ++ [':']).length < top.length := by
    by_contra short
    have begins := prefix_of_length_le begun.line.text_eq code.text_eq (Nat.le_of_not_lt short)
    have count := begins.sublist.count_le '\n'
    rw [List.count_append, show [':'].count '\n' = 0 from rfl, Nat.add_zero] at count
    omega
  have wraps := Cursor.isBroken_of_idle rest closes.idle closes.free
  cases suite with
  | beside unbroken => exact absurd (List.getLast?_eq_none_iff.mp unbroken) wraps
  | empty =>
    have short := line.length_le gaps code begun before
    exact absurd below (Nat.not_lt_of_le short)
  | @deeper _ last block _ found deeper lines ended =>
    obtain ⟨past, level⟩ := lines.levelTo gaps strings code fun same => by cases same
    have short := line.length_le gaps (show IsCodeAt text past 0 _ from level.code) begun before
    have deep := (level.level top margin' c shown begun below short).resolve_left (by simp [other])
    have outer : column < block := by
      by_contra inner
      refine ended fun column' found => ?_
      have same : last.lookahead.1.column? = some column := broken
      obtain rfl := Option.some.inj (same.symm.trans found)
      exact lines.indent_eq ▸ Nat.le_of_not_lt inner
    exact Nat.lt_of_lt_of_le outer deep

/-- **A later clause and the header before it begin statement lines.** -/
theorem Attaches.exists_jointLines {joint : Joint} (attaches : Attaches text joint) :
    ∃ header clause, JointLines text joint header clause := by
  obtain ⟨opener, ended, inside, isWord, row_eq⟩ := attaches
  rename_i cursor
  obtain ⟨above, margin, c, shown, past, begun, rows, word, code, upTo⟩ :=
    opener.exists_lines gaps strings
  have lexeme := Lookahead.lexeme_of_isWord isWord
  have present : cursor.lookahead.2 ≠ [] := by
    intro ended
    change (Lexeme.read cursor.lookahead.2).1 = _ at lexeme
    rw [ended] at lexeme
    cases lexeme
  obtain ⟨top, margin', line, -, later⟩ := ended.opens.beginsLine gaps code present
  obtain ⟨d, shown', begins, begun'⟩ := line.statementStart gaps lexeme
  have behind := later ended.broken
  obtain ⟨column, found⟩ : ∃ column, cursor.lookahead.1.column? = some column :=
    ⟨_, List.getLast?_eq_some_getLast ended.broken⟩
  have column_eq := line.column_eq gaps code behind begun' found
  have above_lt : above.length < top.length := by
    rw [List.length_append] at upTo
    omega
  refine ⟨⟨above, margin, c, shown⟩, ⟨top, margin', d, shown'⟩, begun, begun', rows,
    line.row_eq.symm.trans row_eq.symm, word, above_lt, fun between isIn before other closes => ?_⟩
  exact column_eq ▸ opener.column_lt gaps strings line found isIn before other closes

end Joints

end StrategyMend.Python
