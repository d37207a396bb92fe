import StrategyMend.Proofs.Python.Lexemes
import StrategyMend.Python.Module

/-!
# Positions in a source

A cursor keeps what is left of a text and the row that this begins on. Here a cursor is tied to the
whole text: `cursor.IsAt text` says that the text goes on at the cursor behind as many line breaks as
its row tells. No lexeme has a line break in it (`Lexeme.leaves_read`), and a gap counts those that it
has (`Gap.begins_scan`), so a lexeme that was looked at is passed to such a cursor again
(`Cursor.IsAt.peek?`).

What comes behind a gap with a line break begins its line, blanks aside (`Cursor.IsAt.starts`). So a
statement may begin there, or behind a colon or a semicolon (`Cursor.IsAt.starts_after`).
-/

set_option autoImplicit false

namespace StrategyMend.Python

/-! ## Parts of a text -/

/-- `rest` is the end of the text `text`, behind `rows` line breaks. -/
def Leaves (rows : Nat) (text rest : List Char) : Prop :=
  ∃ past, text = past ++ rest ∧ past.count '\n' = rows

variable {text rest after : List Char} {rows more : Nat} {c : Char}

theorem leaves_self (text : List Char) : Leaves 0 text text := ⟨[], rfl, rfl⟩

theorem Leaves.trans (first : Leaves rows text rest) (second : Leaves more rest after) :
    Leaves (rows + more) text after := by
  obtain ⟨past, rfl, rfl⟩ := first
  obtain ⟨next, rfl, rfl⟩ := second
  exact ⟨past ++ next, (List.append_assoc _ _ _).symm, List.count_append⟩

theorem leaves_append {past : List Char} (free : '\n' ∉ past) (rest : List Char) :
    Leaves 0 (past ++ rest) rest :=
  ⟨past, rfl, List.count_eq_zero.mpr free⟩

theorem Leaves.cons (plain : c ≠ '\n') (leaves : Leaves rows text rest) :
    Leaves rows (c :: text) rest := by
  obtain ⟨past, rfl, rfl⟩ := leaves
  exact ⟨c :: past, rfl, List.count_cons_of_ne plain⟩

theorem leaves_drop (count : Nat) (text : List Char) :
    Leaves ((text.take count).count '\n') text (text.drop count) :=
  ⟨text.take count, (List.take_append_drop count text).symm, rfl⟩

theorem Spans.leaves {accepts : Char → Bool} (refuses : accepts '\n' = false)
    (spans : Spans accepts text rest) : Leaves 0 text rest := by
  obtain ⟨past, rfl, plain⟩ := spans
  exact leaves_append (fun member => ne_newline refuses (plain _ member) rfl) rest

/-! ## Lexemes -/

/-- A string is opened on one line, and not by a line break. -/
theorem leaves_stringStart? {form : StringForm} (opened : stringStart? text = some (form, after)) :
    Leaves 0 text after ∧ form.quote ≠ '\n' := by
  obtain ⟨flags, quotes, rfl, letters, shape⟩ := stringStart?_eq_some opened
  have flagged : '\n' ∉ flags := fun member => ne_newline (by decide) (letters _ member) rfl
  have quoted : form.quote ≠ '\n' ∧ '\n' ∉ quotes := by
    rcases shape with ⟨quote, -, rfl⟩ | ⟨quote, -, rfl⟩ | ⟨quote, -, rfl, -⟩
    · simp [quote]
    · have plain : form.quote ≠ '\n' := ne_newline rfl quote
      simp [plain, plain.symm]
    · have plain : form.quote ≠ '\n' := ne_newline rfl quote
      simp [plain, plain.symm]
  exact ⟨(leaves_append flagged _).trans (leaves_append quoted.2 _), quoted.1⟩

theorem leaves_mark? {sign : String} (read : mark? text = some (sign, after)) :
    Leaves 0 text after := by
  obtain ⟨listed, rfl⟩ := eq_append_of_mark? read
  have free : ∀ mark ∈ marks, '\n' ∉ mark.toList := by decide
  exact leaves_append (free sign listed) after

/-- **A lexeme has no line break in it.** A line break at the start of a text belongs to a gap. -/
theorem Lexeme.leaves_read (visible : text.head? ≠ some '\n') :
    Leaves 0 text (Lexeme.read text).2 := by
  cases text with
  | nil => exact leaves_self _
  | cons c rest =>
    have plain : c ≠ '\n' := by
      rintro rfl
      exact visible rfl
    rcases read_cons c rest with ⟨form, after, opened, same⟩ | same | ⟨after, number, same⟩ |
      ⟨sign, after, mark, same⟩ | same
    · rw [same]
      exact (leaves_stringStart? opened).1
    · rw [same]
      exact (spans_word _).leaves rfl
    · rw [same]
      exact (spans_skipNumber? number).leaves rfl
    · rw [same]
      exact leaves_mark? mark
    · rw [same]
      exact .cons plain (leaves_self rest)

/-- No lexeme is a line break; only its place makes it one. -/
theorem Lexeme.read_ne_lineBreak (text : List Char) : (Lexeme.read text).1 ≠ .lineBreak := by
  cases text with
  | nil => nofun
  | cons c rest =>
    rcases read_cons c rest with ⟨_, _, _, same⟩ | same | ⟨_, _, same⟩ | ⟨_, _, _, same⟩ | same
    all_goals
      rw [same]
      nofun

/-- A string is not delimited by line breaks. -/
theorem Lexeme.quote_ne_newline_of_read {form : StringForm}
    (read : (Lexeme.read text).1 = .stringStart form) : form.quote ≠ '\n' := by
  cases text with
  | nil => cases read
  | cons c rest =>
    rcases read_cons c rest with ⟨form', after, here, same⟩ | same | ⟨_, _, same⟩ |
      ⟨_, _, _, same⟩ | same
    all_goals rw [same] at read; cases read
    exact (leaves_stringStart? here).2

/-- A lexeme that is a mark stands at the start of the text. -/
theorem Lexeme.eq_append_of_read {sign : String} (read : (Lexeme.read text).1 = .mark sign) :
    text = sign.toList ++ (Lexeme.read text).2 := by
  cases text with
  | nil => cases read
  | cons c rest =>
    rcases read_cons c rest with ⟨_, _, _, same⟩ | same | ⟨_, _, same⟩ |
      ⟨mark, after, here, same⟩ | same
    all_goals rw [same] at read; cases read
    rw [same]
    exact (eq_append_of_mark? here).2

/-- A lexeme that is a word stands at the start of the text, and ends there. -/
theorem Lexeme.eq_append_of_word {word : String} (read : (Lexeme.read text).1 = .word word) :
    text = word.toList ++ (Lexeme.read text).2 ∧
      ∀ c, (Lexeme.read text).2.head? = some c → isIdentifierPart c = false := by
  cases text with
  | nil => cases read
  | cons c rest =>
    rcases read_cons c rest with ⟨_, _, _, same⟩ | same | ⟨_, _, same⟩ | ⟨_, _, _, same⟩ | same
    all_goals rw [same] at read; cases read
    rw [same, String.toList_ofList, List.takeWhile_append_dropWhile]
    refine ⟨rfl, fun d behind => ?_⟩
    have first := List.head?_dropWhile_not isIdentifierPart (c :: rest)
    rw [behind] at first
    simpa using first

/-! ## Gaps -/

/-- Blank characters of a gap, line breaks aside. -/
def isGapChar (c : Char) : Bool := c = ' ' || c = '\t' || c = '\r' || c = '\x0c' || isHiding c

/-- The text is empty or begins with a character that no gap may begin with. -/
def IsVisible (text : List Char) : Prop := ∀ c ∈ text.head?, isGapChar c = false ∧ c ≠ '\n'

namespace Gap

variable {gap : Gap} {comment : Bool} {state next : GapState}

/-- What the characters of a gap are: those up to the end of the text, those up to blank characters
behind a line break, or blank characters only. A comment goes on up to a line break. -/
inductive Covers (gap : Gap) (comment : Bool) (state : GapState) : List Char → Prop where
  | finish (skipped : List Char) (ended : gap.rest = []) : Covers gap comment state skipped
  | broken (above : List Char) {margin : List Char} (blank : ∀ c ∈ margin, isGapChar c = true) :
    Covers gap comment state (above ++ '\n' :: margin)
  | unbroken {skipped : List Char} (code : comment = false)
    (blank : ∀ c ∈ skipped, isGapChar c = true)
    (quiet : gap.columns ≠ [] → state.columns ≠ [] ∨ state.broken = true) :
    Covers gap comment state skipped

/-- The gap is what `text` begins with, and what follows it is visible. -/
def Begins (gap : Gap) (comment : Bool) (state : GapState) (text : List Char) : Prop :=
  ∃ skipped, text = skipped ++ gap.rest ∧ gap.row = state.row + skipped.count '\n' ∧
    IsVisible gap.rest ∧ gap.Covers comment state skipped

/-- Characters in front of a gap that end in a line break, or begin a comment. -/
theorem Begins.append {inside : Bool} (begins : gap.Begins inside next text) (front : List Char)
    (row : next.row = state.row + front.count '\n')
    (breaks : (∃ above, front = above ++ ['\n']) ∨ inside = true) :
    gap.Begins comment state (front ++ text) := by
  obtain ⟨skipped, same, rows, visible, covers⟩ := begins
  refine ⟨front ++ skipped, by rw [same, List.append_assoc], ?_, visible, ?_⟩
  · rw [rows, row, List.count_append, Nat.add_assoc]
  · cases covers with
    | finish _ ended => exact .finish _ ended
    | broken above blank =>
      rw [← List.append_assoc]
      exact .broken _ blank
    | unbroken code blank quiet =>
      rcases breaks with ⟨above, rfl⟩ | comment
      · rw [List.append_assoc]
        exact .broken above blank
      · rw [code] at comment
        cases comment

/-- A blank character in front of a gap. -/
theorem Begins.cons (begins : gap.Begins false next text) (code : ¬comment = true)
    (blank : isGapChar c = true) (row : next.row = state.row)
    (same : next.columns = state.columns ∧ next.broken = state.broken) :
    gap.Begins comment state (c :: text) := by
  obtain ⟨skipped, rfl, rows, visible, covers⟩ := begins
  have plain : c ≠ '\n' := ne_newline (by decide) blank
  refine ⟨c :: skipped, rfl, by rw [rows, row, List.count_cons_of_ne plain], visible, ?_⟩
  cases covers with
  | finish _ ended => exact .finish _ ended
  | broken above blank => exact .broken (c :: above) blank
  | unbroken _ others quiet =>
    refine .unbroken (by simpa using code) ?_ (same.1 ▸ same.2 ▸ quiet)
    intro d member
    rcases List.mem_cons.mp member with rfl | later
    · exact blank
    · exact others d later

theorem GapState.row_mark (state : GapState) : state.mark.row = state.row := by
  unfold GapState.mark
  split <;> rfl

/-- **A gap is taken off the text as it stands there.** -/
theorem begins_scan (comment : Bool) (state : GapState) (text : List Char) :
    (scan comment state text).Begins comment state text := by
  fun_induction scan comment state text with
  | case1 comment state => exact ⟨[], rfl, rfl, nofun, .finish _ rfl⟩
  | case2 comment state rest ih => exact ih.append ['\n'] rfl (.inl ⟨[], rfl⟩)
  | case3 state rest ih => exact ih.append ['\\', '\n'] rfl (.inl ⟨['\\'], rfl⟩)
  | case4 comment state rest _ ih => exact ih.append ['\\', '\n'] rfl (.inl ⟨['\\'], rfl⟩)
  | case5 state rest ih => exact ih.append ['\\', '\r', '\n'] rfl (.inl ⟨['\\', '\r'], rfl⟩)
  | case6 comment state rest _ ih =>
    exact ih.append ['\\', '\r', '\n'] rfl (.inl ⟨['\\', '\r'], rfl⟩)
  | case7 state c rest plain _ _ ih =>
    have none : [c].count '\n' = 0 := List.count_cons_of_ne plain
    exact ih.append [c] (by rw [none, Nat.add_zero]) (.inr rfl)
  | case8 comment state rest code _ _ _ ih => exact ih.cons code (by decide) rfl ⟨rfl, rfl⟩
  | case9 comment state rest code _ _ _ _ ih => exact ih.cons code (by decide) rfl ⟨rfl, rfl⟩
  | case10 comment state c rest _ _ _ code _ _ returns ih =>
    exact ih.cons code (by simp only [isGapChar, Bool.or_assoc, returns]; simp) rfl ⟨rfl, rfl⟩
  | case11 comment state c rest _ _ _ code _ _ _ hides ih =>
    exact ih.cons code (by simp [isGapChar, hides]) rfl ⟨rfl, rfl⟩
  | case12 comment state rest code _ _ _ _ _ _ _ ih =>
    exact ih.append ['#'] (GapState.row_mark state) (.inr rfl)
  | case13 comment state c rest _ _ _ code _ _ _ _ _ last ih =>
    obtain ⟨rfl, rfl⟩ : c = '\\' ∧ rest = [] := by simpa using last
    exact ⟨['\\'], rfl, rfl, nofun, .finish _ rfl⟩
  | case14 comment state c rest plain _ _ code space tab returns hides _ _ =>
    refine ⟨[], rfl, rfl, ?_, .unbroken (by simpa using code) nofun ?_⟩
    · rintro d ⟨⟩
      exact ⟨by simp_all [isGapChar], plain⟩
    · intro columns
      by_contra quiet
      simp_all [GapState.finish, GapState.mark]

/-- Behind a gap no other gap follows. -/
theorem scan_rest_scan (comment : Bool) (state other : GapState) (text : List Char)
    (present : (scan comment state text).rest ≠ []) :
    scan false other (scan comment state text).rest =
      other.finish (scan comment state text).rest := by
  fun_induction scan comment state text with
  | case1 => exact absurd rfl present
  | case14 comment state c rest newline escaped escaped' code space tab returns hides sharp last =>
    simp only [GapState.finish]
    rw [scan]
    · simp only [Bool.false_eq_true, if_false, space, tab, returns, hides, sharp, last]
      rfl
    · exact newline
    · exact escaped
    · exact escaped'
  | case2 _ _ _ ih => exact ih present
  | case3 _ _ ih => exact ih present
  | case4 _ _ _ _ ih => exact ih present
  | case5 _ _ ih => exact ih present
  | case6 _ _ _ _ ih => exact ih present
  | case7 _ _ _ _ _ _ ih => exact ih present
  | case8 _ _ _ _ _ _ _ ih => exact ih present
  | case9 _ _ _ _ _ _ _ _ ih => exact ih present
  | case10 _ _ _ _ _ _ _ _ _ _ _ ih => exact ih present
  | case11 _ _ _ _ _ _ _ _ _ _ _ _ ih => exact ih present
  | case12 _ _ _ _ _ _ _ _ _ _ _ ih => exact ih present
  | case13 _ _ _ _ _ _ _ _ _ _ _ _ _ _ ih => exact ih present

end Gap

/-! ## Cursors -/

/-- What a statement may stand behind: the start of the text, a line break, a colon or a semicolon. -/
def IsOpening (before : List Char) : Prop := ∀ c ∈ before.getLast?, c = '\n' ∨ c = ':' ∨ c = ';'

/-- On the given row, only blank characters stand between `rest` and what a statement may stand
behind. -/
def StartsAt (text : List Char) (row : Nat) (rest : List Char) : Prop :=
  ∃ before margin, text = before ++ margin ++ rest ∧ before.count '\n' = row ∧ IsOpening before ∧
    (∀ c ∈ margin, isGapChar c = true) ∧ IsVisible rest

namespace Cursor

variable {cursor : Cursor}

/-- The text goes on at the cursor, on the row that the cursor tells. -/
def IsAt (text : List Char) (cursor : Cursor) : Prop := Leaves cursor.row text cursor.rest

/-- A statement may begin with the next lexeme, unless the text ends. -/
def Starts (text : List Char) (cursor : Cursor) : Prop :=
  cursor.lookahead.2 = [] ∨ StartsAt text cursor.lookahead.1.row cursor.lookahead.2

/-- A line break ends the statement before the next lexeme. -/
def IsBroken (cursor : Cursor) : Prop := cursor.lookahead.1.columns ≠ []

/-- The cursor behind the gap. -/
def settled (cursor : Cursor) : Cursor :=
  { cursor with rest := cursor.lookahead.2, row := cursor.lookahead.1.row }

/-- Behind the gap the same lexeme comes next, at once. -/
theorem lookahead_settled (present : cursor.lookahead.2 ≠ []) :
    cursor.settled.lookahead = ({ cursor.lookahead.1 with columns := [] }, cursor.lookahead.2) := by
  have again : Gap.scan false ⟨[], 0, false, false, cursor.lookahead.1.row⟩ cursor.lookahead.2 =
      ⟨[], cursor.lookahead.2, cursor.lookahead.1.row⟩ :=
    Gap.scan_rest_scan false _ ⟨[], 0, false, false, cursor.lookahead.1.row⟩ cursor.rest present
  rw [Cursor.lookahead, settled, again]
  rfl

/-- The next lexeme is the same as before the gap, wherever the text ends. -/
theorem lookahead_settled_same (cursor : Cursor) :
    cursor.settled.lookahead.1.lexeme = cursor.lookahead.1.lexeme ∧
      cursor.settled.lookahead.1.row = cursor.lookahead.1.row ∧
        cursor.settled.lookahead.1.after = cursor.lookahead.1.after := by
  by_cases ended : cursor.lookahead.2 = []
  · have lexeme : cursor.lookahead.1.lexeme = (Lexeme.read cursor.lookahead.2).1 := rfl
    have after : cursor.lookahead.1.after =
        { cursor with rest := (Lexeme.read cursor.lookahead.2).2, row := cursor.lookahead.1.row } := rfl
    rw [lexeme, after, Cursor.lookahead, settled, ended]
    exact ⟨rfl, rfl, rfl⟩
  · rw [lookahead_settled ended]
    exact ⟨rfl, rfl, rfl⟩

theorem IsAt.settled (here : cursor.IsAt text) :
    Leaves cursor.lookahead.1.row text cursor.lookahead.2 ∧ IsVisible cursor.lookahead.2 := by
  obtain ⟨skipped, same, row, visible, -⟩ := Gap.begins_scan false ⟨[], 0, false, false, cursor.row⟩
    cursor.rest
  refine ⟨?_, visible⟩
  rw [show cursor.lookahead.1.row = cursor.row + skipped.count '\n' from row]
  exact here.trans ⟨skipped, same, rfl⟩

/-- A lexeme that was looked at is passed to a cursor at the same text. -/
theorem IsAt.lookahead (here : cursor.IsAt text) : cursor.lookahead.1.after.IsAt text := by
  obtain ⟨settled, visible⟩ := here.settled
  have lexeme : Leaves 0 cursor.lookahead.2 cursor.lookahead.1.after.rest :=
    Lexeme.leaves_read fun head => (visible '\n' head).2 rfl
  exact settled.trans lexeme

/-- At every place the next lexeme is seen, but for a line break that ends the statement. -/
theorem peek?_cases {place : Place} {ahead : Lookahead} (seen : cursor.peek? place = some ahead) :
    ahead = cursor.lookahead.1 ∨
      (ahead.lexeme = .lineBreak ∧ ahead.after = cursor ∧ cursor.IsBroken) := by
  unfold Cursor.peek? at seen
  cases place with
  | inBrackets =>
    cases seen
    exact .inl rfl
  | statementEnd =>
    dsimp only at seen
    split at seen
    · cases seen
      exact .inl rfl
    · rename_i broken
      cases seen
      exact .inr ⟨rfl, rfl, fun none => broken (by rw [none]; rfl)⟩
  | inStatement =>
    obtain ⟨-, seen⟩ := Option.ite_none_right_eq_some.mp seen
    cases seen
    exact .inl rfl

/-- Inside of a statement a lexeme is seen if it and the comments before it stand at least as far right
as the block; a string may stand anywhere. -/
theorem columns_of_peek? {ahead : Lookahead} (seen : cursor.peek? .inStatement = some ahead) :
    ahead = cursor.lookahead.1 ∧
      ∀ column ∈ if ahead.isBareString cursor.lookahead.2 then ahead.columns.dropLast
        else ahead.columns, cursor.indent ≤ column := by
  have given : (if (if cursor.lookahead.1.isBareString cursor.lookahead.2 then
      cursor.lookahead.1.columns.dropLast else cursor.lookahead.1.columns).all
        fun column => decide (cursor.indent ≤ column) then some cursor.lookahead.1 else none) =
      some ahead := seen
  obtain ⟨level, same⟩ := Option.ite_none_right_eq_some.mp given
  obtain rfl := Option.some.inj same
  exact ⟨rfl, fun column listed => of_decide_eq_true (List.all_eq_true.mp level column listed)⟩

/-- No lexeme opens or closes a block. -/
theorem blocks_after_of_peek? {place : Place} {ahead : Lookahead}
    (seen : cursor.peek? place = some ahead) : ahead.after.blocks = cursor.blocks := by
  rcases peek?_cases seen with rfl | ⟨-, same, -⟩
  · rfl
  · rw [same]

/-- Behind a gap an end of the text is left. -/
theorem lookahead_suffix (cursor : Cursor) : cursor.lookahead.2 <:+ cursor.rest := by
  obtain ⟨skipped, same, -⟩ := Gap.begins_scan false ⟨[], 0, false, false, cursor.row⟩ cursor.rest
  exact ⟨skipped, same.symm⟩

/-- So it is behind a lexeme. -/
theorem rest_after_of_peek? {place : Place} {ahead : Lookahead}
    (seen : cursor.peek? place = some ahead) : ahead.after.rest <:+ cursor.rest := by
  rcases peek?_cases seen with rfl | ⟨-, same, -⟩
  · obtain ⟨-, -, -, visible, -⟩ := Gap.begins_scan false ⟨[], 0, false, false, cursor.row⟩ cursor.rest
    have lexeme : Leaves 0 cursor.lookahead.2 cursor.lookahead.1.after.rest :=
      Lexeme.leaves_read fun head => (visible '\n' head).2 rfl
    obtain ⟨past, same, -⟩ := lexeme
    exact List.IsSuffix.trans ⟨past, same.symm⟩ cursor.lookahead_suffix
  · exact same ▸ List.suffix_refl _

/-- Behind a statement a line break is seen where there is one. -/
theorem peek?_statementEnd_of_isBroken (broken : cursor.IsBroken) :
    cursor.peek? .statementEnd =
      some { cursor.lookahead.1 with lexeme := .lineBreak, after := cursor } := by
  have columns : cursor.lookahead.1.columns.isEmpty = false := List.isEmpty_eq_false_iff.mpr broken
  simp [peek?, columns]

/-- A line break is seen only where there is one. -/
theorem isBroken_of_peek? {place : Place} {ahead : Lookahead} (seen : cursor.peek? place = some ahead)
    (lineBreak : ahead.isLineBreak = true) : cursor.IsBroken := by
  rcases peek?_cases seen with rfl | ⟨-, -, broken⟩
  · unfold Lookahead.isLineBreak at lineBreak
    split at lineBreak
    · rename_i lexeme
      exact absurd lexeme (Lexeme.read_ne_lineBreak _)
    · cases lineBreak
  · exact broken

/-- Blank characters have no line breaks among them. -/
theorem count_newline_of_blank {margin : List Char} (blank : ∀ c ∈ margin, isGapChar c = true) :
    margin.count '\n' = 0 :=
  List.count_eq_zero.mpr fun member => ne_newline (by decide) (blank _ member) rfl

/-- A statement may begin behind a line break, a colon or a semicolon and blank characters, or if the
gap has a line break. -/
theorem starts_of_ready {before margin : List Char} (same : text = before ++ margin ++ cursor.rest)
    (row : before.count '\n' = cursor.row) (blank : ∀ c ∈ margin, isGapChar c = true)
    (ready : IsOpening before ∨ cursor.IsBroken) : cursor.Starts text := by
  obtain ⟨skipped, rest, rows, visible, covers⟩ :=
    Gap.begins_scan false ⟨[], 0, false, false, cursor.row⟩ cursor.rest
  change cursor.rest = skipped ++ cursor.lookahead.2 at rest
  change cursor.lookahead.1.row = cursor.row + skipped.count '\n' at rows
  cases covers with
  | finish _ ended => exact .inl ended
  | @broken above below blank' =>
    refine .inr ⟨before ++ margin ++ above ++ ['\n'], below, ?_, ?_, by simp [IsOpening], blank',
      visible⟩
    · rw [same, rest]
      simp
    · rw [rows, ← row]
      simp [count_newline_of_blank blank, count_newline_of_blank blank']
  | unbroken _ blank' quiet =>
    rcases ready with opening | broken
    · refine .inr ⟨before, margin ++ skipped, ?_, ?_, opening, ?_, visible⟩
      · rw [same, rest]
        simp
      · rw [rows, row, count_newline_of_blank blank', Nat.add_zero]
      · intro c member
        exact (List.mem_append.mp member).elim (blank c) (blank' c)
    · rcases quiet broken with columns | breaks
      · exact absurd rfl columns
      · cases breaks

theorem IsAt.starts (here : cursor.IsAt text) (broken : cursor.IsBroken) : cursor.Starts text := by
  obtain ⟨before, same, row⟩ := here
  have behind : text = before ++ [] ++ cursor.rest := by rw [same, List.append_nil]
  exact starts_of_ready behind row nofun (.inr broken)

/-- The gap before a statement may be passed first. -/
theorem Starts.settled (starts : cursor.Starts text) : cursor.settled.Starts text := by
  rcases starts with ended | ⟨before, margin, same, row, opening, blank, -⟩
  · refine .inl ?_
    rw [Cursor.lookahead, Cursor.settled, ended]
    rfl
  · exact starts_of_ready same row blank (.inl opening)

/-- Past a colon or a semicolon a statement may begin. -/
theorem IsAt.starts_after (here : cursor.IsAt text) {sign : String}
    (separates : sign = ":" ∨ sign = ";") (mark : cursor.lookahead.1.isMark sign = true) :
    cursor.lookahead.1.after.Starts text := by
  obtain ⟨⟨before, same, row⟩, visible⟩ := here.settled
  have read : (Lexeme.read cursor.lookahead.2).1 = .mark sign := by
    unfold Lookahead.isMark at mark
    split at mark
    · rename_i found lexeme
      rw [← eq_of_beq mark]
      exact lexeme
    · cases mark
  have rest : cursor.lookahead.2 = sign.toList ++ cursor.lookahead.1.after.rest :=
    Lexeme.eq_append_of_read read
  have behind : text = (before ++ sign.toList) ++ [] ++ cursor.lookahead.1.after.rest := by
    rw [same, rest, List.append_nil, List.append_assoc]
  have rows : (before ++ sign.toList).count '\n' = cursor.lookahead.1.row := by
    rcases separates with rfl | rfl
    · simpa using row
    · simpa using row
  refine starts_of_ready behind rows nofun (.inl ?_)
  rcases separates with rfl | rfl
  · simp [IsOpening]
  · simp [IsOpening]

end Cursor

/-- A lexeme of the text: the text goes on behind it, and behind a colon or a semicolon a statement
may begin. -/
structure Lookahead.IsIn (text : List Char) (ahead : Lookahead) : Prop where
  isAt : ahead.after.IsAt text
  starts : ahead.isMark ":" = true ∨ ahead.isMark ";" = true → ahead.after.Starts text
  quoted : ∀ form, ahead.lexeme = .stringStart form → form.quote ≠ '\n'

/-- **What is seen at a cursor of the text is a lexeme of the text.** -/
theorem Cursor.IsAt.peek? {cursor : Cursor} (here : cursor.IsAt text) {place : Place}
    {ahead : Lookahead} (seen : cursor.peek? place = some ahead) : ahead.IsIn text := by
  rcases peek?_cases seen with rfl | ⟨lineBreak, same, -⟩
  · refine ⟨here.lookahead, ?_, fun form => Lexeme.quote_ne_newline_of_read⟩
    rintro (colon | semicolon)
    · exact here.starts_after (.inl rfl) colon
    · exact here.starts_after (.inr rfl) semicolon
  · refine ⟨by rwa [same], ?_, by simp [lineBreak]⟩
    simp [Lookahead.isMark, lineBreak]

/-- So is what comes after it. -/
theorem Lookahead.IsIn.peekAfter? {ahead next : Lookahead} (seen : ahead.IsIn text) {place : Place}
    (found : Reader.peekAfter? ahead place = some next) : next.IsIn text :=
  seen.isAt.peek? found

end StrategyMend.Python
