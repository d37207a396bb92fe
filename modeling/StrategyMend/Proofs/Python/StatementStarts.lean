import StrategyMend.Proofs.Python.LineStarts
import StrategyMend.Proofs.Python.ProgramText

/-!
# Lines of program text

A line begins with a statement for a reader by lines if it begins in program text, outside of brackets,
and no backslash joins it to the line before (`StatementStart`). The gap before a lexeme passes no such
line but the one that the lexeme itself begins, and then the lexeme stands in the column of the line's
margin (`IsCodeAt.gap`).

Both readers see program text in the gap as long as no blank character hides a line break from the
grammar, and no line consists of a backslash only (`HasPlainGaps`).
-/

set_option autoImplicit false

namespace StrategyMend.Python

open Source

variable {text start above margin shown rest : List Char} {depth : Nat} {c : Char}

/-! ## Starts of lines -/

/-- No backslash in program text joins the line behind the text `above` to the one before. -/
def IsUnjoined (above : List Char) : Prop :=
  ∀ top, above = top ++ ['\n'] → (lexerBehind top).reading.isCode = true → ¬EndsJoined top

/-- Behind the text `above` a line begins in program text, outside of brackets. -/
structure LineStart (text above rest : List Char) : Prop where
  text_eq : text = above ++ rest
  ends : EndsLine above
  lexer : lexerBehind above = ⟨.code, 0⟩
  unjoined : IsUnjoined above

/-- Such a line has a margin of spaces and tabulators, and a character of program text behind it. -/
structure StatementStart (text above margin : List Char) (c : Char) (shown : List Char) : Prop where
  line : LineStart text above (margin ++ c :: shown)
  blank : ∀ d ∈ margin, d = ' ' ∨ d = '\t'
  visible : isGapChar c = false ∧ c ≠ '\n'
  code : c ≠ '#'
  plain : c ≠ '\\'

/-- A margin of tabulators and then spaces. -/
def IsPlainMargin (margin : List Char) : Prop :=
  ∃ tabs spaces, margin = List.replicate tabs '\t' ++ List.replicate spaces ' '

/-- Gaps mean the same to the grammar and to a reader by lines. -/
structure HasPlainGaps (text : List Char) : Prop where
  /-- No blank character of program text hides line breaks. -/
  shown : ∀ passed c, passed ++ [c] <+: text → (lexerBehind passed).reading.isCode = true →
    isHiding c = false
  /-- A line of program text has a plain margin, and no backslash right behind it. -/
  margins : ∀ above margin c shown, LineStart text above (margin ++ c :: shown) →
    (∀ d ∈ margin, isGapChar d = true) → isGapChar c = false ∧ c ≠ '\n' → c ≠ '#' →
      IsPlainMargin margin ∧ c ≠ '\\'

theorem IsPlainMargin.blank (plain : IsPlainMargin margin) : ∀ d ∈ margin, d = ' ' ∨ d = '\t' := by
  obtain ⟨tabs, spaces, rfl⟩ := plain
  intro d member
  rcases List.mem_append.mp member with tab | space
  · exact .inr (List.eq_of_mem_replicate tab)
  · exact .inl (List.eq_of_mem_replicate space)

/-- Where gaps are plain, a line with a character of program text behind its margin is a statement line. -/
theorem LineStart.statementStart (gaps : HasPlainGaps text)
    (line : LineStart text above (margin ++ c :: shown)) (blank : ∀ d ∈ margin, isGapChar d = true)
    (visible : isGapChar c = false ∧ c ≠ '\n') (code : c ≠ '#') :
    StatementStart text above margin c shown ∧ IsPlainMargin margin := by
  obtain ⟨plain, escape⟩ := gaps.margins above margin c shown line blank visible code
  exact ⟨⟨line, plain.blank, visible, code, escape⟩, plain⟩

theorem StatementStart.isGapChar_margin (begun : StatementStart text above margin c shown) :
    ∀ d ∈ margin, isGapChar d = true := by
  intro d member
  rcases begun.blank d member with rfl | rfl <;> rfl

/-! ## Places -/

/-- A place in the text is told by the number of characters before it. -/
theorem eq_of_length_eq {first second more : List Char} (same : text = first ++ rest)
    (same' : text = second ++ more) (length : first.length = second.length) :
    first = second ∧ rest = more :=
  List.append_inj (same.symm.trans same') length

theorem prefix_of_length_le {first second more : List Char} (same : text = first ++ rest)
    (same' : text = second ++ more) (length : first.length ≤ second.length) : first <+: second :=
  List.prefix_of_prefix_length_le ⟨rest, same.symm⟩ ⟨more, same'.symm⟩ length

/-! ## Colons -/

/-- From the position behind `start` to the one behind `passed` there is no colon of program text. -/
def HasNoColon (text start passed : List Char) : Prop :=
  ∀ place rest, text = place ++ ':' :: rest → start.length ≤ place.length →
    place.length < passed.length → (lexerBehind place).reading.isCode = false

theorem hasNoColon_self (text start : List Char) : HasNoColon text start start :=
  fun _ _ _ later before => absurd later (Nat.not_le_of_lt before)

theorem HasNoColon.trans {middle passed : List Char} (first : HasNoColon text start middle)
    (second : HasNoColon text middle passed) : HasNoColon text start passed := by
  intro place rest same later before
  by_cases upTo : place.length < middle.length
  · exact first place rest same later upTo
  · exact second place rest same (Nat.not_lt.mp upTo) before

/-- Each character is none, or stands outside of program text. -/
theorem hasNoColon_append {passed part : List Char} (same : text = passed ++ (part ++ rest))
    (covered : ∀ front, front ++ [':'] <+: part →
      (lexerBehind (passed ++ front)).reading.isCode = false) :
    HasNoColon text passed (passed ++ part) := by
  intro place more same' later before
  have split : text = (place ++ [':']) ++ more := by rw [same', List.append_assoc]; rfl
  have begins : place ++ [':'] <+: passed ++ part := by
    refine prefix_of_length_le split (same.trans (List.append_assoc _ _ _).symm) ?_
    simp only [List.length_append, List.length_singleton] at before ⊢
    omega
  obtain ⟨front, rfl⟩ := prefix_of_length_le same same' later
  rw [List.append_assoc] at begins
  exact covered front ((List.prefix_append_right_inj passed).mp begins)

theorem hasNoColon_append_of_not_mem {passed part : List Char}
    (same : text = passed ++ (part ++ rest)) (free : ':' ∉ part) :
    HasNoColon text passed (passed ++ part) :=
  hasNoColon_append same fun _ begins => absurd (begins.subset (by simp)) free

/-! ## Gaps -/

/-- What a gap has been read as, from the position behind `start` on: the lexer is with it, in program
text or in a comment. If a line break was found, or the text starts here, the present line begins in
program text; and each statement line that was begun is the present one, with a margin up to here. -/
structure Scans (text start : List Char) (depth : Nat) (comment : Bool) (state : GapState)
    (passed rest : List Char) : Prop where
  text_eq : text = passed ++ rest
  start_le : start.length ≤ passed.length
  hidden : state.hidden = false
  marks : Gap.Marks comment state
  remark : comment = true → lexerBehind passed = ⟨.comment, depth⟩
  code : comment = false → (lexerBehind passed).IsInCode depth rest ∧ ¬EndsJoined passed
  line : comment = false → depth = 0 → state.broken = true ∨ start = [] →
    ∃ above margin, passed = above ++ margin ∧ LineStart text above (margin ++ rest) ∧
      (state.broken = true → start.length < above.length) ∧ ∀ d ∈ margin, isGapChar d = true
  starts : ∀ above margin c shown, StatementStart text above margin c shown →
    start.length < above.length → above.length ≤ passed.length →
      comment = false ∧ depth = 0 ∧ state.broken = true ∧ ∃ front back, passed = above ++ front ∧
        margin = front ++ back ∧ rest = back ++ c :: shown ∧ state.column = marginColumn front
  colons : HasNoColon text start passed

/-- The gap leads from the position behind `start` to the one behind `passed`: to program text, unless the
text ends. If it has a line break, or the text starts with it, the line behind it begins in program
text; and no statement line is begun in it but the one behind it. -/
structure GapTo (text start : List Char) (depth : Nat) (gap : Gap) (passed : List Char) : Prop where
  text_eq : text = passed ++ gap.rest
  start_le : start.length ≤ passed.length
  code : gap.rest ≠ [] → IsCodeAt text passed depth gap.rest
  line : gap.rest ≠ [] → depth = 0 → gap.columns ≠ [] ∨ start = [] →
    ∃ above margin, passed = above ++ margin ∧ LineStart text above (margin ++ gap.rest) ∧
      (gap.columns ≠ [] → start.length < above.length) ∧ ∀ d ∈ margin, isGapChar d = true
  starts : ∀ above margin c shown, StatementStart text above margin c shown →
    start.length < above.length → above.length ≤ passed.length →
      depth = 0 ∧ passed = above ++ margin ∧ gap.rest = c :: shown ∧
        gap.columns.getLast? = some (marginColumn margin)
  colons : HasNoColon text start passed

/-! ### Steps -/

theorem isPlainChar_of_isGapChar (blank : isGapChar c = true) : isPlainChar c = true := by
  have others : (['\n', '"', '\'', '\x60', '#', '\\'].all fun d => !isGapChar d) = true := by decide
  rw [isPlainChar, Bool.not_eq_true', ← Bool.not_eq_true]
  intro listed
  have refused := List.all_eq_true.mp others c (List.contains_iff_mem.mp listed)
  rw [blank] at refused
  cases refused

theorem marginColumn_concat (margin : List Char) (c : Char) :
    marginColumn (margin ++ [c]) = marginColumn margin + if c = '\t' then 8 else 1 := by
  induction margin with
  | nil => simp [marginColumn]
  | cons d margin ih =>
    have one (rest : List Char) :
        marginColumn (d :: rest) = (if d = '\t' then 8 else 1) + marginColumn rest := rfl
    rw [List.cons_append, one, one, ih, Nat.add_assoc]

/-- The first line break behind a place ends the line. -/
theorem eq_append_of_newline {passed top line : List Char} (same : text = top ++ '\n' :: shown)
    (same' : text = passed ++ (line ++ '\n' :: rest)) (free : '\n' ∉ line)
    (after : passed.length ≤ top.length) (upTo : top.length ≤ (passed ++ line).length) :
    top = passed ++ line := by
  rw [← List.append_assoc] at same'
  rcases List.append_eq_append_iff.mp (same.symm.trans same') with
    ⟨more, split, behind⟩ | ⟨more, split, -⟩
  · cases more with
    | nil => rw [split, List.append_nil]
    | cons d more =>
      obtain rfl : '\n' = d := (List.cons.inj behind).1
      rcases List.append_eq_append_iff.mp split with ⟨front, -, inside⟩ | ⟨front, rfl, inside⟩
      · exact absurd (by simp [inside]) free
      · cases front with
        | nil => exact absurd (by simp [← inside.trans (List.nil_append line)]) free
        | cons e front =>
          rw [List.length_append, List.length_cons] at after
          omega
  · cases more with
    | nil => rw [split, List.append_nil]
    | cons d more =>
      rw [split, List.length_append, List.length_cons] at upTo
      omega

section Steps

variable {comment : Bool} {state : GapState} {passed front : List Char}

/-- No statement line begins where the line goes on. -/
theorem StatementStart.length_ne (begun : StatementStart text above margin c shown)
    {d : Char} (plain : d ≠ '\n') (same : text = (passed ++ [d]) ++ rest) :
    above.length ≠ passed.length + 1 := by
  intro length
  obtain ⟨rfl, -⟩ := eq_of_length_eq begun.line.text_eq same (by simpa using length)
  rcases begun.line.ends with none | ⟨top, ends⟩
  · simp at none
  · obtain ⟨-, same⟩ := List.append_inj' ends rfl
    exact plain (List.cons.inj same).1

/-- A statement line that is begun goes on with its margin, or with its first character. -/
theorem StatementStart.head_cases (begun : StatementStart text above margin c shown) {d : Char}
    {back : List Char} (split : margin = front ++ back) (same : d :: rest = back ++ c :: shown) :
    (back = [] ∧ d = c) ∨ ∃ others, back = d :: others ∧ (d = ' ' ∨ d = '\t') ∧
      rest = others ++ c :: shown := by
  cases back with
  | nil => exact .inl ⟨rfl, (List.cons.inj same).1⟩
  | cons e others =>
    obtain ⟨rfl, behind⟩ := List.cons.inj same
    exact .inr ⟨others, rfl, begun.blank d (by simp [split]), behind⟩

/-- A backslash and carriage returns leave the lexer in program text. -/
theorem lexerBehind_escape {blanks : List Char}
    (code : (lexerBehind passed).IsInCode depth ('\\' :: (blanks ++ rest)))
    (blank : ∀ d ∈ blanks, d = '\r') : lexerBehind (passed ++ '\\' :: blanks) = ⟨.code, depth⟩ := by
  have first : (Lexer.mk .code depth).pass '\\' = ⟨.code, depth⟩ := by
    rw [Lexer.pass_of_ne_newline (by decide), Lexer.step_code_plain (by decide) (by decide)]
    simp [bracketStep]
  have others : (Lexer.mk .code depth).readText blanks = ⟨.code, depth⟩ := by
    have gaps : ∀ d ∈ blanks, isGapChar d = true ∨ d = '\n' := fun d member => by
      rw [blank d member]
      exact .inl rfl
    rw [Lexer.readText_plain, openBrackets_of_blank gaps, Int.add_zero]
    exact fun d member => by rw [blank d member]; rfl
  rw [lexerBehind_append, Lexer.readText, List.foldl_cons, code.pass_eq, first]
  exact others

namespace Scans

/-- None goes on with another character. -/
theorem not_begun {d : Char} (scans : Scans text start depth comment state passed (d :: rest))
    (other : d = '\n' ∨ d = '#' ∨ d = '\\') (begun : StatementStart text above margin c shown)
    (later : start.length < above.length) : ¬above.length ≤ passed.length := by
  intro upTo
  obtain ⟨-, -, -, front, back, -, split, same, -⟩ := scans.starts _ _ _ _ begun later upTo
  rcases begun.head_cases split same with ⟨-, rfl⟩ | ⟨-, -, rfl | rfl, -⟩
  · rcases other with rfl | rfl | rfl
    · exact begun.visible.2 rfl
    · exact begun.code rfl
    · exact begun.plain rfl
  · simp at other
  · simp at other

theorem colons_append (front : List Char)
    (scans : Scans text start depth comment state passed (front ++ rest)) (free : ':' ∉ front) :
    HasNoColon text start (passed ++ front) :=
  scans.colons.trans (hasNoColon_append_of_not_mem scans.text_eq free)

/-- The end of a line. -/
theorem newline (scans : Scans text start depth comment state passed ('\n' :: rest)) :
    Scans text start depth false state.newline (passed ++ ['\n']) rest := by
  have same : text = (passed ++ ['\n']) ++ rest := by simp [scans.text_eq]
  have lexer : lexerBehind (passed ++ ['\n']) = ⟨.code, depth⟩ := by
    rw [lexerBehind_append]
    cases comment with
    | true =>
      rw [scans.remark rfl]
      show Lexer.nextLine _ = _
      simp [Lexer.nextLine, Reading.nextLine]
    | false => exact (scans.code rfl).1.pass_newline
  have broken : state.newline.broken = true := by simp [GapState.newline, scans.hidden]
  have unjoined : IsUnjoined (passed ++ ['\n']) := by
    intro top ends code
    obtain ⟨rfl, -⟩ := List.append_inj' ends rfl
    cases comment with
    | true =>
      rw [scans.remark rfl] at code
      cases code
    | false => exact (scans.code rfl).2
  refine ⟨same, ?_, scans.hidden, scans.marks.newline, by simp, fun _ => ⟨?_, ?_⟩, fun _ outside _ => ?_,
    fun above margin c shown begun later upTo => ?_, colons_append ['\n'] scans (by decide)⟩
  · exact Nat.le_trans scans.start_le (by simp)
  · exact lexer ▸ Lexer.isInCode_code _ _
  · exact not_endsJoined_concat (.inr rfl) (by decide)
  · refine ⟨passed ++ ['\n'], [], by simp, ⟨same, .inr ⟨passed, rfl⟩, ?_, unjoined⟩, ?_, by simp⟩
    · rw [lexer, outside]
      rfl
    · exact fun _ => Nat.lt_of_le_of_lt scans.start_le (by simp)
  · by_cases before : above.length ≤ passed.length
    · exact absurd before (scans.not_begun (.inl rfl) begun later)
    · have length : above.length = (passed ++ ['\n']).length := by
        simp only [List.length_append, List.length_singleton] at upTo ⊢
        omega
      obtain ⟨rfl, shown⟩ := eq_of_length_eq begun.line.text_eq same length
      have outside : depth = 0 := by
        have bracketed := congrArg Lexer.depth (lexer.symm.trans begun.line.lexer)
        exact Int.ofNat_eq_zero.mp bracketed
      exact ⟨rfl, outside, broken, [], margin, by simp, rfl, shown.symm, rfl⟩

/-- A line break that a backslash joins. -/
theorem joined (plain : HasPlainGaps text) {blanks : List Char} (blank : ∀ d ∈ blanks, d = '\r')
    (scans : Scans text start depth false state passed ('\\' :: (blanks ++ '\n' :: rest))) :
    Scans text start depth false { state with row := state.row + 1 }
      (passed ++ '\\' :: (blanks ++ ['\n'])) rest := by
  have split : passed ++ '\\' :: (blanks ++ ['\n']) = (passed ++ '\\' :: blanks) ++ ['\n'] := by simp
  have same : text = ((passed ++ '\\' :: blanks) ++ ['\n']) ++ rest := by simp [scans.text_eq]
  have passes := lexerBehind_escape (scans.code rfl).1 blank
  have ended : EndsJoined (passed ++ '\\' :: blanks) := by
    refine ⟨passed, blanks, rfl, fun d member => ?_⟩
    rw [blank d member]
    decide
  have lexer : lexerBehind ((passed ++ '\\' :: blanks) ++ ['\n']) = ⟨.code, depth⟩ := by
    rw [lexerBehind_append, passes]
    show Lexer.nextLine _ = _
    simp [Lexer.nextLine, Reading.nextLine]
  have colons : HasNoColon text start (passed ++ '\\' :: (blanks ++ ['\n'])) := by
    refine colons_append ('\\' :: (blanks ++ ['\n'])) (by simpa using scans) fun member => ?_
    rcases List.mem_cons.mp member with same | inside
    · cases same
    · rcases List.mem_append.mp inside with before | last
      · cases blank _ before
      · simp at last
  rw [split] at colons ⊢
  refine ⟨same, ?_, scans.hidden, ⟨scans.marks.breaks, scans.marks.shown⟩, by simp, fun _ => ⟨?_, ?_⟩,
    fun _ outside broken => ?_, fun above margin c shown begun later upTo => ?_, colons⟩
  · refine Nat.le_trans scans.start_le ?_
    simp only [List.length_append]
    omega
  · exact lexer ▸ Lexer.isInCode_code _ _
  · exact not_endsJoined_concat (.inr rfl) (by decide)
  · obtain ⟨above, margin, -, line, -, gaps⟩ := scans.line rfl outside broken
    exact absurd rfl (plain.margins above margin _ _ line gaps (by decide) (by decide)).2
  · by_cases before : above.length ≤ passed.length
    · exact absurd before (scans.not_begun (.inr (.inr rfl)) begun later)
    · -- Only behind the line break a line may begin, and there the backslash joins it.
      have ends := begun.line.ends
      rcases ends with rfl | ⟨top, rfl⟩
      · exact absurd (Nat.zero_le _) before
      have free : '\n' ∉ '\\' :: blanks := by
        intro member
        rcases List.mem_cons.mp member with same | inside
        · cases same
        · cases blank _ inside
      simp only [List.length_append, List.length_cons, List.length_nil] at before upTo
      obtain rfl : top = passed ++ '\\' :: blanks := eq_append_of_newline
        (begun.line.text_eq.trans (List.append_assoc _ _ _)) scans.text_eq free (by omega)
          (by simp only [List.length_append, List.length_cons]; omega)
      exact absurd ended (begun.line.unjoined _ rfl (by rw [passes]; rfl))

/-- A blank character. -/
theorem blank (plain : HasPlainGaps text) {d : Char} (gap : isGapChar d = true)
    (scans : Scans text start depth false state passed (d :: rest)) :
    Scans text start depth false (state.blank d) (passed ++ [d]) rest := by
  have same : text = (passed ++ [d]) ++ rest := by simp [scans.text_eq]
  have code := (scans.code rfl).1
  have shown : isHiding d = false := plain.shown passed d ⟨rest, same.symm⟩ code.isCode
  have soft : (d = ' ' ∨ d = '\t') ∨ d = '\r' ∨ d = '\x0c' := by
    simpa [isGapChar, shown, or_assoc] using gap
  have kept : (state.blank d).columns = state.columns ∧ (state.blank d).broken = state.broken ∧
      (state.blank d).hidden = state.hidden := by
    rcases soft with (rfl | rfl) | rfl | rfl
    all_goals exact ⟨rfl, rfl, rfl⟩
  have other : d ≠ '\n' := ne_newline (by decide) gap
  have behind : IsCodeAt text (passed ++ [d]) depth rest :=
    IsCodeAt.append ⟨scans.text_eq, (scans.code rfl).1, (scans.code rfl).2⟩
      (by simpa using isPlainChar_of_isGapChar gap)
      (by rw [openBrackets_of_blank (by simp [gap]), Int.add_zero])
  have colons : HasNoColon text start (passed ++ [d]) := by
    refine colons_append [d] scans fun member => ?_
    obtain rfl := List.mem_singleton.mp member
    cases gap
  refine ⟨same, ?_, kept.2.2.trans scans.hidden, ⟨?_, by simp⟩, by simp,
    fun _ => ⟨behind.code, behind.ended⟩, fun _ outside broken => ?_, fun above margin c shown begun later upTo => ?_, colons⟩
  · exact Nat.le_trans scans.start_le (by simp)
  · intro columns
    rw [kept.1] at columns
    rw [kept.2.1]
    exact scans.marks.breaks columns
  · rw [kept.2.1] at broken
    obtain ⟨above, margin, rfl, line, later, gaps⟩ := scans.line rfl outside broken
    refine ⟨above, margin ++ [d], by simp, by simpa using line, kept.2.1 ▸ later, fun e member => ?_⟩
    rcases List.mem_append.mp member with before | here
    · exact gaps e before
    · exact List.mem_singleton.mp here ▸ gap
  · have before : above.length ≤ passed.length := by
      have next := begun.length_ne other same
      simp only [List.length_append, List.length_singleton] at upTo
      omega
    obtain ⟨-, outside, broken, front, back, split, split', behind, column⟩ :=
      scans.starts _ _ _ _ begun later before
    rcases begun.head_cases split' behind with ⟨-, rfl⟩ | ⟨others, rfl, blank, rest⟩
    · rw [begun.visible.1] at gap
      cases gap
    · refine ⟨rfl, outside, kept.2.1.trans broken, front ++ [d], others, by simp [split],
        by simp [split'], rest, ?_⟩
      rw [marginColumn_concat, ← column]
      rcases blank with rfl | rfl
      all_goals rfl

/-- The beginning of a comment. -/
theorem sharp (scans : Scans text start depth false state passed ('#' :: rest)) :
    Scans text start depth true { state.mark with broken := false, hidden := false, column := 0 }
      (passed ++ ['#']) rest := by
  have same : text = (passed ++ ['#']) ++ rest := by simp [scans.text_eq]
  have lexer : lexerBehind (passed ++ ['#']) = ⟨.comment, depth⟩ := by
    rw [lexerBehind_append]
    show (lexerBehind passed).pass '#' = _
    rw [(scans.code rfl).1.pass_eq, Lexer.pass_of_ne_newline (by decide), Lexer.step_code_comment]
  refine ⟨same, ?_, rfl, ⟨fun _ => .inl rfl, fun _ => rfl⟩, fun _ => lexer, by simp, by simp,
    fun above margin c shown begun later upTo => ?_, colons_append ['#'] scans (by decide)⟩
  · exact Nat.le_trans scans.start_le (by simp)
  · have next := begun.length_ne (by decide) same
    simp only [List.length_append, List.length_singleton] at upTo
    exact absurd (by omega) (scans.not_begun (.inr (.inl rfl)) begun later)

/-- A character of a comment. -/
theorem inComment {d : Char} (plain : d ≠ '\n')
    (scans : Scans text start depth true state passed (d :: rest)) :
    Scans text start depth true state (passed ++ [d]) rest := by
  have same : text = (passed ++ [d]) ++ rest := by simp [scans.text_eq]
  have lexer : lexerBehind (passed ++ [d]) = ⟨.comment, depth⟩ := by
    rw [lexerBehind_append]
    show (lexerBehind passed).pass d = _
    rw [scans.remark rfl, Lexer.pass_of_ne_newline plain]
    rfl
  -- A colon may stand here, but not in program text.
  have colons : HasNoColon text passed (passed ++ [d]) := by
    refine hasNoColon_append scans.text_eq fun front begins => ?_
    obtain rfl : front = [] := by
      have shorter := begins.length_le
      simp only [List.length_append, List.length_singleton] at shorter
      exact List.length_eq_zero_iff.mp (by omega)
    rw [List.append_nil, scans.remark rfl]
    rfl
  refine ⟨same, ?_, scans.hidden, scans.marks, fun _ => lexer, by simp, by simp,
    fun above margin c shown begun later upTo => ?_, scans.colons.trans colons⟩
  · exact Nat.le_trans scans.start_le (by simp)
  · have next := begun.length_ne plain same
    simp only [List.length_append, List.length_singleton] at upTo
    have started := scans.starts _ _ _ _ begun later (by omega)
    exact absurd started.1 (by decide)

/-- At the end of the text no statement line is begun. -/
theorem gapTo_of_ended {columns : List Nat} {row : Nat} {more : List Char}
    (ended : more = [] ∨ more = ['\\']) (scans : Scans text start depth comment state passed more) :
    GapTo text start depth ⟨columns, [], row⟩ (passed ++ more) := by
  have none {above margin shown : List Char} {c : Char}
      (begun : StatementStart text above margin c shown) (later : start.length < above.length) :
      ¬above.length ≤ (passed ++ more).length := by
    intro upTo
    by_cases before : above.length ≤ passed.length
    · rcases ended with rfl | rfl
      · obtain ⟨-, -, -, front, back, -, -, behind, -⟩ := scans.starts _ _ _ _ begun later before
        simp at behind
      · exact scans.not_begun (.inr (.inr rfl)) begun later before
    · rcases ended with rfl | rfl
      · exact before (by simpa using upTo)
      · have same : text = (passed ++ ['\\']) ++ [] := by simp [scans.text_eq]
        have next := begun.length_ne (by decide) same
        simp only [List.length_append, List.length_singleton] at upTo
        omega
  refine ⟨by simp [scans.text_eq], ?_, fun some => absurd rfl some, fun some => absurd rfl some,
    fun _ _ _ _ begun later upTo => absurd upTo (none begun later), ?_⟩
  rotate_left
  · refine @colons_append _ _ [] _ _ _ _ more (by rwa [List.append_nil]) fun member => ?_
    rcases ended with rfl | rfl
    · cases member
    · simp at member
  rw [List.length_append]
  exact Nat.le_trans scans.start_le (Nat.le_add_right _ _)

/-- A gap ends in front of a lexeme. -/
theorem gapTo_finish {d : Char} (scans : Scans text start depth false state passed (d :: rest))
    (visible : isGapChar d = false) : GapTo text start depth (state.finish (d :: rest)) passed := by
  obtain ⟨code, ended⟩ := scans.code rfl
  have breaks (columns : (state.finish (d :: rest)).columns ≠ []) : state.broken = true := by
    by_contra whole
    have none : state.columns = [] := by
      by_contra some
      exact whole ((scans.marks.breaks some).resolve_left (by decide))
    simp [GapState.finish, GapState.mark, whole, none] at columns
  refine ⟨scans.text_eq, scans.start_le, fun _ => ⟨scans.text_eq, code, ended⟩,
    fun _ outside broken => ?_, fun above margin c shown begun later upTo => ?_, scans.colons⟩
  · obtain ⟨above, margin, split, line, later, gaps⟩ := scans.line rfl outside (broken.imp_left breaks)
    exact ⟨above, margin, split, line, later ∘ breaks, gaps⟩
  · obtain ⟨-, outside, broken, front, back, split, split', behind, column⟩ :=
      scans.starts _ _ _ _ begun later upTo
    rcases begun.head_cases split' behind with ⟨rfl, rfl⟩ | ⟨-, -, rfl | rfl, -⟩
    · rw [List.append_nil] at split'
      refine ⟨outside, split' ▸ split, behind, ?_⟩
      simp [GapState.finish, GapState.mark, broken, column, split']
    · cases visible
    · cases visible

end Scans

end Steps

/-- **Gaps are passed in step:** by induction on the gap. -/
theorem Scans.exists_gapTo (plain : HasPlainGaps text) {comment : Bool} {state : GapState}
    {passed rest : List Char} (scans : Scans text start depth comment state passed rest) :
    ∃ passed', GapTo text start depth (Gap.scan comment state rest) passed' := by
  fun_induction Gap.scan comment state rest generalizing passed with
  | case1 comment state => exact ⟨_, scans.gapTo_of_ended (.inl rfl)⟩
  | case2 comment state rest ih => exact ih scans.newline
  | case3 state rest ih => exact ih (scans.inComment (by decide)).newline
  | case4 comment state rest inside ih =>
    obtain rfl : comment = false := by simpa using inside
    exact ih (@joined _ _ _ _ _ _ plain [] (by simp) scans)
  | case5 state rest ih => exact ih ((scans.inComment (by decide)).inComment (by decide)).newline
  | case6 comment state rest inside ih =>
    obtain rfl : comment = false := by simpa using inside
    exact ih (@joined _ _ _ _ _ _ plain ['\r'] (by simp) scans)
  | case7 state c rest newline _ _ ih => exact ih (scans.inComment newline)
  | case8 comment state rest inside _ _ _ ih =>
    obtain rfl : comment = false := by simpa using inside
    exact ih (scans.blank plain rfl)
  | case9 comment state rest inside _ _ _ _ ih =>
    obtain rfl : comment = false := by simpa using inside
    exact ih (scans.blank plain rfl)
  | case10 comment state c rest _ _ _ inside space tab returns ih =>
    obtain rfl : comment = false := by simpa using inside
    have gap : isGapChar c = true := by
      simp only [isGapChar, Bool.or_assoc, returns]
      simp
    have same : state.blank c = { state with column := 0 } := by
      rw [GapState.blank, if_neg space, if_neg tab, if_pos returns]
    exact ih (same ▸ scans.blank plain gap)
  | case11 comment state c rest _ _ _ inside _ _ _ hides ih =>
    obtain rfl : comment = false := by simpa using inside
    have code := (scans.code rfl).1
    have shown := plain.shown passed c ⟨rest, by simp [scans.text_eq]⟩ code.isCode
    rw [hides] at shown
    cases shown
  | case12 comment state rest inside _ _ _ _ _ _ _ ih =>
    obtain rfl : comment = false := by simpa using inside
    exact ih scans.sharp
  | case13 comment state c rest _ _ _ inside _ _ _ _ _ last ih =>
    obtain ⟨rfl, rfl⟩ : c = '\\' ∧ rest = [] := by simpa using last
    exact ⟨_, scans.gapTo_of_ended (.inr rfl)⟩
  | case14 comment state c rest newline _ _ inside space tab returns hides sharp last =>
    obtain rfl : comment = false := by simpa using inside
    exact ⟨_, scans.gapTo_finish (by simp_all [isGapChar])⟩

/-- **The gap before a lexeme passes no statement line but the one that the lexeme begins.** -/
theorem IsCodeAt.gap {passed : List Char} (plain : HasPlainGaps text) {cursor : Cursor}
    (here : IsCodeAt text passed depth cursor.rest) :
    ∃ passed', GapTo text passed depth
      (Gap.scan false ⟨[], 0, false, false, cursor.row⟩ cursor.rest) passed' := by
  have begun : Scans text passed depth false ⟨[], 0, false, false, cursor.row⟩ passed cursor.rest := by
    refine ⟨here.text_eq, Nat.le_refl _, rfl, ⟨fun some => absurd rfl some, by simp⟩, by simp,
      fun _ => ⟨here.code, here.ended⟩, fun _ outside first => ?_,
      fun _ _ _ _ _ later upTo => absurd later (Nat.not_lt_of_le upTo), hasNoColon_self text passed⟩
    obtain rfl : passed = [] := first.resolve_left Bool.false_ne_true
    refine ⟨[], [], rfl, ⟨here.text_eq, .inl rfl, rfl, ?_⟩, by simp, by simp⟩
    intro top same
    simp at same
  exact begun.exists_gapTo plain

end StrategyMend.Python
