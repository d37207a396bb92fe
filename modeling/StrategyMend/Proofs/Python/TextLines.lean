import StrategyMend.Proofs.Python.StringText
import StrategyMend.Proofs.Text.Cutting

/-!
# The lines of a text and those that are scanned

The scanner of lines reads a text line by line, without the ends, and knows at the beginning of a line
what the lexer of the whole text knows there (`InStep`): whether this is program text, how many brackets
are open, and whether a backslash joins the line to the one above. So it is if no string runs over the end
of a line but one with triple quotes, and a line that ends in a comment and a backslash is nothing but that
comment (`HasPlainComments`, `InStep.pass`). Then the statement lines that are found are those of the text
(`exists_textLine_of_isStatement`, `exists_marked_of_isIn`).
-/

set_option autoImplicit false

namespace StrategyMend.Source

open Text

/-! ## Carriage returns -/

namespace Reading

variable {reading : Reading} {c quote : Char}

/-- Outside of strings there is program text, or a comment. -/
theorem isCode_iff (plain : ∀ quote, reading.mode ≠ .quoted quote)
    (outside : reading.tripleQuote? = none) : reading.isCode = true ↔ reading ≠ .comment := by
  cases reading with
  | opened quote => exact absurd rfl (plain quote)
  | quoted quote => exact absurd rfl (plain quote)
  | quotedEscape quote => exact absurd rfl (plain quote)
  | tripleQuoted quote closing => cases outside
  | tripleQuotedEscape quote => cases outside
  | _ => simp [isCode]

/-- A carriage return changes nothing for the next line. -/
structure SameEnd (reading other : Reading) : Prop where
  mode : other.mode = reading.mode
  tripleQuote : other.tripleQuote? = reading.tripleQuote?
  nextLine : (∀ quote, reading.mode ≠ .quoted quote) → other.nextLine = reading.nextLine

theorem sameEnd_self (reading : Reading) : reading.SameEnd reading :=
  ⟨rfl, rfl, fun _ => rfl⟩

theorem sameEnd_passed (reading : Reading) : reading.SameEnd reading.passed := by
  cases reading with
  | opened quote => exact ⟨rfl, rfl, fun plain => absurd rfl (plain quote)⟩
  | quotedEscape quote => exact ⟨rfl, rfl, fun plain => absurd rfl (plain quote)⟩
  | _ => exact ⟨rfl, rfl, fun _ => rfl⟩

end Reading

end StrategyMend.Source

namespace StrategyMend.Python

open Source

variable {text passed above first blanks rest line : List Char}

theorem isSound_lexerBehind (passed : List Char) : (lexerBehind passed).reading.IsSound := by
  have kept {lexer : Lexer} (passed : List Char) (sound : lexer.reading.IsSound) :
      (lexer.readText passed).reading.IsSound := by
    induction passed generalizing lexer with
    | nil => exact sound
    | cons c passed ih =>
      refine ih ?_
      unfold Lexer.pass
      split
      · exact sound.nextLine
      · exact sound.next c
  exact kept passed fun quote found => by cases found

/-- A carriage return at the end of a line changes nothing. -/
theorem sameEnd_lexerBehind (blank : blanks = [] ∨ blanks = ['\r']) (passed : List Char) :
    (lexerBehind passed).reading.SameEnd (lexerBehind (passed ++ blanks)).reading ∧
      (lexerBehind (passed ++ blanks)).depth = (lexerBehind passed).depth := by
  rcases blank with rfl | rfl
  · rw [List.append_nil]
    exact ⟨Reading.sameEnd_self _, rfl⟩
  · rw [lexerBehind_append]
    show (lexerBehind passed).reading.SameEnd ((lexerBehind passed).pass '\r').reading ∧
      ((lexerBehind passed).pass '\r').depth = _
    rw [Lexer.pass_of_ne_newline (by decide), Lexer.step,
      Reading.next_eq_passed (isSound_lexerBehind passed) (by decide) (.inl (by decide))]
    refine ⟨Reading.sameEnd_passed _, ?_⟩
    dsimp only
    split
    · exact Int.add_zero _
    · rfl

/-! ## Backslashes at the end of a line -/

theorem endsWithBackslash_iff (free : '\n' ∉ line) :
    endsWithBackslash (String.ofList line) = true ↔ EndsJoined line := by
  rw [endsWithBackslash, String.toList_ofList, decide_eq_true_iff]
  constructor
  · intro ends
    rw [Text.Chars.trimEnd, Text.dropEndWhile, List.getLast?_reverse] at ends
    obtain ⟨more, shown⟩ := List.head?_eq_some_iff.mp ends
    have split := List.takeWhile_append_dropWhile (p := Text.isBlank) (l := line.reverse)
    rw [shown] at split
    have whole := congrArg List.reverse split
    rw [List.reverse_reverse, List.reverse_append, List.reverse_cons, List.append_assoc] at whole
    refine ⟨more.reverse, _, whole.symm, fun c member => ?_⟩
    have inside := List.mem_takeWhile_imp (List.mem_reverse.mp member)
    refine ⟨inside, ?_⟩
    rintro rfl
    exact free (whole ▸ by simp [List.mem_reverse.mp member])
  · rintro ⟨front, blanks, rfl, blank⟩
    rw [getLast?_trimEnd_append (by decide)]
    have trimmed : Text.Chars.trimEnd ('\\' :: blanks) = ['\\'] := by
      rw [Text.Chars.trimEnd, Text.dropEndWhile, List.reverse_cons, List.dropWhile_append_of_pos]
      · rfl
      · exact fun c member => (blank c (List.mem_reverse.mp member)).1
    rw [trimmed]
    rfl

/-- Only the last line of a text tells whether the text ends in a backslash. -/
theorem endsJoined_append_iff (ends : EndsLine above) :
    EndsJoined (above ++ line) ↔ EndsJoined line := by
  constructor
  · rintro ⟨front, blanks, same, blank⟩
    rcases List.append_eq_append_iff.mp same with ⟨more, -, split⟩ | ⟨more, split, behind⟩
    · exact ⟨more, blanks, split, blank⟩
    · cases more with
      | nil => exact ⟨[], blanks, by simpa using behind.symm, blank⟩
      | cons d more =>
        -- The backslash stands above, so the line break above is one of the blanks.
        obtain ⟨rfl, rest⟩ := List.cons.inj behind
        rcases ends with rfl | ⟨top, rfl⟩
        · simp at split
        · exfalso
          rcases List.eq_nil_or_concat more with rfl | ⟨others, last, rfl⟩
          · obtain ⟨-, same⟩ := List.append_inj' split rfl
            cases (List.cons.inj same).1
          · rw [List.concat_eq_append, ← List.cons_append, ← List.append_assoc] at split
            obtain ⟨-, same⟩ := List.append_inj' split rfl
            obtain rfl := (List.cons.inj same).1
            exact (blank '\n' (by simp [rest])).2 rfl
  · rintro ⟨front, blanks, rfl, blank⟩
    exact ⟨above ++ front, blanks, by simp, blank⟩

/-! ## The scanner on its way -/

/-- A line that ends in a backslash ends in a comment only if it is one. -/
def HasPlainComments (text : List Char) : Prop :=
  ∀ above line rest, text = above ++ (line ++ '\n' :: rest) → EndsLine above → '\n' ∉ line →
    EndsJoined line → (lexerBehind (above ++ line)).reading.tripleQuote? = none →
      (isComment (String.ofList line) = true ↔ (lexerBehind (above ++ line)).reading = .comment)

/-- No string that one quote ends is open at the end of a line. -/
theorem HasPlainStrings.mode_ne_quoted (strings : HasPlainStrings text)
    (same : text = above ++ '\n' :: rest) (quote : Char) :
    (lexerBehind above).reading.mode ≠ .quoted quote := by
  have closed := strings.closed above ⟨rest, by simp [same]⟩
  cases reading : (lexerBehind above).reading <;>
    simp_all [Reading.isLiteral, Reading.isOpenLiteral, Reading.isLiteralEscape, Reading.mode]

/-- The scanner begins a line where the lexer does, and knows whether a backslash joins it to the line
above. -/
structure InStep (above : List Char) (carry : Carry) : Prop where
  lexer : carry.lexer = lexerBehind above
  joined : carry.triple = none → (carry.continued = false ↔ IsUnjoined above)

theorem inStep_start : InStep [] .closed where
  lexer := rfl
  joined := fun _ => ⟨fun _ top same => by simp at same, fun _ => rfl⟩

/-- A carriage return at the end of a line does not make it a comment. -/
theorem isComment_append_returns (blank : blanks = [] ∨ blanks = ['\r']) :
    isComment (String.ofList (line ++ blanks)) = isComment (String.ofList line) := by
  rcases blank with rfl | rfl
  · rw [List.append_nil]
  · rw [isComment, isComment, String.toList_ofList, String.toList_ofList, Text.Chars.trimStart,
      Text.Chars.trimStart, List.dropWhile_append]
    split
    · rename_i none
      rw [List.isEmpty_iff.mp none]
      rfl
    · rename_i some
      cases shown : line.dropWhile Text.isBlank with
      | nil => simp [shown] at some
      | cons c rest => rfl

/-- Nor does it hide a backslash. -/
theorem endsWithBackslash_append_returns (blank : blanks = [] ∨ blanks = ['\r']) :
    endsWithBackslash (String.ofList (line ++ blanks)) = endsWithBackslash (String.ofList line) := by
  rcases blank with rfl | rfl
  · rw [List.append_nil]
  · rw [endsWithBackslash, endsWithBackslash, String.toList_ofList, String.toList_ofList,
      Text.Chars.trimEnd, Text.Chars.trimEnd, Text.dropEndWhile, Text.dropEndWhile, List.reverse_append]
    rfl

theorem isUnjoined_concat (top : List Char) : IsUnjoined (top ++ ['\n']) ↔
    ((lexerBehind top).reading.isCode = true → ¬EndsJoined top) := by
  constructor
  · exact fun unjoined => unjoined top rfl
  · intro unjoined top' same
    obtain ⟨rfl, -⟩ := List.append_inj' same rfl
    exact unjoined

/-- **Scanner and lexer pass a line in step.** -/
theorem InStep.pass (strings : HasPlainStrings text) (comments : HasPlainComments text) {carry : Carry}
    (inStep : InStep above carry) (ends : EndsLine above)
    (same : text = above ++ (first ++ (blanks ++ '\n' :: rest))) (free : '\n' ∉ first)
    (blank : blanks = [] ∨ blanks = ['\r']) :
    InStep (above ++ (first ++ blanks) ++ ['\n']) (carry.after (String.ofList first)) := by
  have read : carry.lexer.read (String.ofList first).toList = lexerBehind (above ++ first) := by
    rw [inStep.lexer, String.toList_ofList, lexerBehind_append, Lexer.readText_of_not_mem free]
  obtain ⟨sameEnd, depth⟩ := sameEnd_lexerBehind blank (above ++ first)
  have split : text = (above ++ first ++ blanks) ++ '\n' :: rest := by simp [same]
  have plainEnd : ∀ quote, (lexerBehind (above ++ first)).reading.mode ≠ .quoted quote :=
    fun quote => sameEnd.mode ▸ strings.mode_ne_quoted split quote
  have whole : above ++ (first ++ blanks) = above ++ first ++ blanks := (List.append_assoc _ _ _).symm
  constructor
  · rw [Carry.lexer_after, Lexer.afterLine, read, Lexer.nextLine, whole,
      lexerBehind_append (above ++ first ++ blanks)]
    · show _ = Lexer.nextLine _
      rw [Lexer.nextLine, sameEnd.nextLine plainEnd, depth]
    · rw [read]
      intro quote escape
      exact plainEnd quote (by rw [escape]; rfl)
  · have split' : text = above ++ ((first ++ blanks) ++ '\n' :: rest) := by simp [same]
    have free' : '\n' ∉ first ++ blanks := by rcases blank with rfl | rfl <;> simpa using free
    have backslash : endsWithBackslash (String.ofList first) = true ↔
        EndsJoined (above ++ (first ++ blanks)) := by
      rw [endsJoined_append_iff ends, ← endsWithBackslash_iff free',
        endsWithBackslash_append_returns blank]
    rw [Carry.after_eq, read]
    intro outside
    dsimp only at outside ⊢
    rw [isUnjoined_concat, outside, endsInBackslash_eq]
    cases joined : endsWithBackslash (String.ofList first) with
    | false => simpa [joined] using fun _ => backslash.not.mp (by simp [joined])
    | true =>
      have ended := backslash.mp joined
      have outside' : (lexerBehind (above ++ (first ++ blanks))).reading.tripleQuote? = none := by
        rw [whole, sameEnd.tripleQuote, outside]
      have comment := comments above (first ++ blanks) rest split' ends free'
        ((endsJoined_append_iff ends).mp ended) outside'
      rw [isComment_append_returns blank] at comment
      have code : (lexerBehind (above ++ (first ++ blanks))).reading.isCode = true ↔
          isComment (String.ofList first) = false := by
        rw [← Bool.not_eq_true, comment]
        exact Reading.isCode_iff (strings.mode_ne_quoted (whole ▸ split)) outside'
      simp [ended, code]

/-! ## Lines of the scanner -/

/-- The marked line is the first one behind the text `above`. -/
structure ScannedLine (text : List Char) (index : Nat) (marked : MarkedLine) (above rest : List Char) :
    Prop where
  text_eq : text = above ++ rest
  ends : EndsLine above
  row_eq : above.count '\n' = index
  begins : ∃ others, Text.lineChars rest = marked.text.toList :: others
  starts : marked.starts = true ↔ lexerBehind above = ⟨.code, 0⟩ ∧ IsUnjoined above

/-- Nothing is open where the lexer is in program text, outside of brackets, and no backslash joins. -/
theorem InStep.startsStatement_iff {carry : Carry} (inStep : InStep above carry) :
    carry.startsStatement = true ↔ lexerBehind above = ⟨.code, 0⟩ ∧ IsUnjoined above := by
  obtain ⟨lexer, joined⟩ := inStep
  obtain ⟨depth, triple, continued⟩ := carry
  rw [← lexer]
  cases triple with
  | some quote => simp [Carry.startsStatement, Carry.lexer, Carry.mode, Mode.reading]
  | none =>
    have joined := joined rfl
    dsimp only at joined
    simp [Carry.startsStatement, Carry.lexer, Carry.mode, Mode.reading, ← joined]

/-- So it is for all lines behind a place where the scanner is in step. -/
theorem InStep.exists_scannedLine (strings : HasPlainStrings text) (comments : HasPlainComments text)
    {carry : Carry} (inStep : InStep above carry) (ends : EndsLine above) (same : text = above ++ rest)
    {index : Nat} {marked : MarkedLine}
    (found : (markFrom carry ((Text.lineChars rest).map String.ofList))[index]? = some marked) :
    ∃ above' rest', ScannedLine text (above.count '\n' + index) marked above' rest' := by
  induction index generalizing above rest carry with
  | zero =>
    cases lines : Text.lineChars rest with
    | nil => simp [lines] at found
    | cons first others =>
      rw [lines] at found
      obtain rfl := Option.some.inj found
      refine ⟨above, rest, same, ends, rfl, ⟨others, ?_⟩, inStep.startsStatement_iff⟩
      rw [lines, String.toList_ofList]
  | succ index ih =>
    cases lines : Text.lineChars rest with
    | nil => simp [lines] at found
    | cons first others =>
      have free : '\n' ∉ first :=
        Text.newline_not_mem_lineChars rest first (by rw [lines]; exact List.mem_cons_self)
      rw [lines, List.map_cons, markFrom_cons, List.getElem?_cons_succ] at found
      rcases Text.lineChars_eq_cons lines with ⟨-, rfl⟩ | ⟨blanks, more, split, blank, rfl⟩
      · simp at found
      · rw [split] at same
        have next := inStep.pass strings comments ends same free blank
        have same' : text = (above ++ (first ++ blanks) ++ ['\n']) ++ more := by simp [same]
        obtain ⟨above', rest', scanned⟩ := ih next (.inr ⟨_, rfl⟩) same' found
        have rows : (above ++ (first ++ blanks) ++ ['\n']).count '\n' = above.count '\n' + 1 := by
          have none : (first ++ blanks).count '\n' = 0 := by
            refine List.count_eq_zero.mpr fun member => ?_
            rcases blank with rfl | rfl <;> simp [free] at member
          rw [List.count_append, List.count_append, none]
          rfl
        rw [rows, Nat.add_assoc, Nat.add_comm 1] at scanned
        exact ⟨above', rest', scanned⟩

/-- **The lines that are scanned are the lines of the text.** -/
theorem exists_scannedLine {source : String} (strings : HasPlainStrings source.toList)
    (comments : HasPlainComments source.toList) {index : Nat} {marked : MarkedLine}
    (found : (markLines (Text.splitLines source))[index]? = some marked) :
    ∃ above rest, ScannedLine source.toList index marked above rest := by
  have scanned := @InStep.exists_scannedLine _ _ _ strings comments _ inStep_start (.inl rfl) rfl _ _ found
  simpa using scanned

/-! ## Statement lines -/

/-- A statement line of a text. -/
structure TextLine where
  above : List Char
  margin : List Char
  first : Char
  shown : List Char

namespace TextLine

/-- The text has the line. -/
def IsIn (line : TextLine) (text : List Char) : Prop :=
  StatementStart text line.above line.margin line.first line.shown

/-- The number of the line. -/
def row (line : TextLine) : Nat := line.above.count '\n'

variable {line other : TextLine}

/-- A statement line is told by its number. -/
theorem IsIn.eq_of_row_eq (isIn : line.IsIn text) (isIn' : other.IsIn text)
    (rows : line.row = other.row) : line = other := by
  obtain ⟨above, margin, c, shown⟩ := line
  obtain ⟨above', margin', d, shown'⟩ := other
  obtain ⟨rfl, same⟩ : above = above' ∧ margin ++ c :: shown = margin' ++ d :: shown' :=
    eq_of_count_newline isIn.line.ends isIn'.line.ends
      (isIn.line.text_eq.symm.trans isIn'.line.text_eq) rows
  have cut {margin shown : List Char} {c : Char} (blank : ∀ d ∈ margin, isGapChar d = true)
      (visible : isGapChar c = false) : (margin ++ c :: shown).takeWhile isGapChar = margin :=
    takeWhile_append_rest blank (by simpa using visible)
  have margins : margin = margin' :=
    (cut (StatementStart.isGapChar_margin isIn) isIn.visible.1).symm.trans
      (same ▸ cut (StatementStart.isGapChar_margin isIn') isIn'.visible.1)
  subst margins
  obtain ⟨rfl, rfl⟩ := List.cons.inj (List.append_cancel_left same)
  rfl

/-- Lines further down come later in the text. -/
theorem IsIn.length_lt (isIn : line.IsIn text) (isIn' : other.IsIn text) (rows : line.row < other.row) :
    line.above.length < other.above.length := by
  by_contra later
  have begins := prefix_of_length_le isIn'.line.text_eq isIn.line.text_eq (Nat.le_of_not_lt later)
  exact absurd rows (Nat.not_lt_of_le (begins.sublist.count_le '\n'))

theorem IsIn.row_lt (isIn : line.IsIn text) (isIn' : other.IsIn text)
    (later : line.above.length < other.above.length) : line.row < other.row := by
  have begins := prefix_of_length_le isIn.line.text_eq isIn'.line.text_eq (Nat.le_of_lt later)
  refine Nat.lt_of_le_of_ne (begins.sublist.count_le '\n') fun rows => ?_
  rw [isIn.eq_of_row_eq isIn' rows] at later
  exact Nat.lt_irrefl _ later

/-- The marked line is the one of the text, without its end. -/
structure Shows (line : TextLine) (marked : MarkedLine) : Prop where
  statement : marked.isStatement = true
  plain : IsPlainMargin line.margin
  text : ∃ more tail, marked.text.toList = line.margin ++ line.first :: more ∧
    line.shown = more ++ tail ∧ ∀ c, tail.head? = some c → c = '\n' ∨ c = '\r'

theorem columnAfter_plainMargin (tabs spaces : Nat) {shown : List Char} {c : Char}
    (other : isIndentChar c = false) :
    columnAfter 0 (List.replicate tabs '\t' ++ List.replicate spaces ' ' ++ c :: shown) =
      marginColumn (List.replicate tabs '\t' ++ List.replicate spaces ' ') := by
  have blanks (column : Nat) : columnAfter column (List.replicate spaces ' ' ++ c :: shown) =
      column + marginColumn (List.replicate spaces ' ') := by
    induction spaces generalizing column with
    | zero => exact columnAfter_of_not_isIndentChar other column shown
    | succ spaces ih =>
      rw [List.replicate_succ, List.cons_append, columnAfter, ih]
      simp [marginColumn, Nat.add_assoc]
  -- Tabulators come first, so each of them is a whole step.
  have steps (whole : Nat) :
      columnAfter (8 * whole) (List.replicate tabs '\t' ++ List.replicate spaces ' ' ++ c :: shown) =
        8 * whole + marginColumn (List.replicate tabs '\t' ++ List.replicate spaces ' ') := by
    induction tabs generalizing whole with
    | zero => exact blanks _
    | succ tabs ih =>
      have step : 8 * whole + (tabWidth - 8 * whole % tabWidth) = 8 * (whole + 1) := by
        rw [tabWidth]
        omega
      rw [List.replicate_succ, List.cons_append, List.cons_append, columnAfter, step, ih]
      simp [marginColumn]
      omega
  simpa using steps 0

variable {marked : MarkedLine} {index : Nat}

/-- The line is as wide as its margin. -/
theorem Shows.indentWidth_eq (shows : line.Shows marked) (isIn : line.IsIn text) :
    indentWidth marked.text = marginColumn line.margin := by
  obtain ⟨more, tail, same, -⟩ := shows.text
  obtain ⟨tabs, spaces, margin⟩ := shows.plain
  have other : isIndentChar line.first = false := by
    have gap := isIn.visible.1
    simp only [isGapChar, Bool.or_eq_false_iff, decide_eq_false_iff_not] at gap
    simp [isIndentChar, gap.1.1.1.1, gap.1.1.1.2]
  rw [indentWidth, same, margin, columnAfter_plainMargin tabs spaces other]

/-- Behind the margin the line begins with its first character. -/
theorem Shows.exists_trimStart_eq (shows : line.Shows marked) (isIn : line.IsIn text)
    (solid : Text.isBlank line.first = false) :
    ∃ more tail, Text.Chars.trimStart marked.text.toList = line.first :: more ∧ line.shown = more ++ tail ∧
      ∀ c, tail.head? = some c → c = '\n' ∨ c = '\r' := by
  obtain ⟨more, tail, same, split, ends⟩ := shows.text
  have blank : ∀ d ∈ line.margin, Text.isBlank d = true := by
    intro d member
    rcases isIn.blank d member with rfl | rfl <;> decide
  exact ⟨more, tail, by rw [same, trimStart_append blank solid], split, ends⟩

theorem Shows.isQuote_eq_false (shows : line.Shows marked) (isIn : line.IsIn text)
    (plain : ∀ c, (Text.Chars.trimStart marked.text.toList).head? = some c → isQuote c = false) :
    isQuote line.first = false := by
  by_contra quote
  have solid : Text.isBlank line.first = false := isBlank_of_isQuote (by simpa using quote)
  obtain ⟨more, tail, same, -⟩ := shows.exists_trimStart_eq isIn solid
  exact quote (plain line.first (by rw [same]; rfl))

/-- A word begins with no blank character. -/
theorem isBlank_of_beginsWithWord {word : String} {c : Char} {shown : List Char}
    (letters : word.toList.all Text.isWordChar = true) (some : word.toList ≠ [])
    (begins : beginsWithWord word (c :: shown) = true) : Text.isBlank c = false := by
  obtain ⟨rest, whole, -⟩ := beginsWithWord_iff.mp begins
  obtain ⟨d, others, spelled⟩ := List.exists_cons_of_ne_nil some
  rw [spelled] at whole letters
  rw [(List.cons.inj whole).1, ← Bool.not_eq_true]
  intro blank
  have letter := List.all_eq_true.mp letters d List.mem_cons_self
  rw [isWordChar_of_isBlank blank] at letter
  cases letter

/-- A word at the start of the line is one in the text. -/
theorem Shows.beginsWithWord (shows : line.Shows marked) (isIn : line.IsIn text) {word : String}
    (letters : word.toList.all Text.isWordChar = true) (some : word.toList ≠ [])
    (begins : Source.beginsWithWord word (line.first :: line.shown) = true) :
    Source.beginsWithWord word (Text.Chars.trimStart marked.text.toList) = true := by
  obtain ⟨more, tail, same, split, ends⟩ :=
    shows.exists_trimStart_eq isIn (isBlank_of_beginsWithWord letters some begins)
  obtain ⟨rest, whole, ended⟩ := beginsWithWord_iff.mp begins
  rw [same, beginsWithWord_iff]
  rw [split, ← List.cons_append] at whole
  rcases List.append_eq_append_iff.mp whole with ⟨within, spelled, behind⟩ | ⟨within, spelled, behind⟩
  · -- The line does not end in the word.
    cases within with
    | nil => exact ⟨[], by simpa using spelled.symm, rfl⟩
    | cons d within =>
      have letter := List.all_eq_true.mp letters d (by simp [spelled])
      rcases ends d (by rw [behind]; rfl) with rfl | rfl <;> cases letter
  · refine ⟨within, spelled, ?_⟩
    cases within with
    | nil => rfl
    | cons d within =>
      rw [behind] at ended
      exact ended

end TextLine

section Lines

/-- No gap character of program text is hidden from a reader by lines. -/
theorem HasPlainGaps.isBlank_of_code {margin : List Char} {depth : Int} (gaps : HasPlainGaps text)
    (same : text = above ++ (margin ++ rest)) (blank : ∀ d ∈ margin, isGapChar d = true)
    (code : lexerBehind above = ⟨.code, depth⟩) : ∀ d ∈ margin, Text.isBlank d = true := by
  intro d member
  obtain ⟨front, back, cut⟩ := List.append_of_mem member
  have passed : (lexerBehind (above ++ front)).reading.isCode = true := by
    rw [lexerBehind_append, code, Lexer.readText_plain]
    · rfl
    · exact fun e inside => isPlainChar_of_isGapChar (blank e (by simp [cut, inside]))
  have shown := gaps.shown (above ++ front) d ⟨back ++ rest, by simp [same, cut]⟩ passed
  have gap := blank d member
  simp only [isGapChar, shown, Bool.or_false, Bool.or_eq_true, decide_eq_true_eq] at gap
  rcases gap with ((rfl | rfl) | rfl) | rfl <;> decide

variable {source : String} {marked : MarkedLine} {index : Nat} {margin shown : List Char} {c : Char}

/-- The scanned line begins like the text there. -/
theorem ScannedLine.exists_text (scanned : ScannedLine text index marked above (margin ++ c :: shown))
    (begun : StatementStart text above margin c shown) :
    ∃ more tail, marked.text.toList = margin ++ c :: more ∧ shown = more ++ tail ∧
      ∀ d, tail.head? = some d → d = '\n' ∨ d = '\r' := by
  obtain ⟨others, lines⟩ := scanned.begins
  obtain ⟨tail, whole, ends⟩ : ∃ tail, margin ++ c :: shown = marked.text.toList ++ tail ∧
      ∀ d, tail.head? = some d → d = '\n' ∨ d = '\r' := by
    rcases Text.lineChars_eq_cons lines with ⟨whole, -⟩ | ⟨blanks, more, whole, blank, -⟩
    · exact ⟨[], by rw [List.append_nil]; exact whole, nofun⟩
    · refine ⟨_, whole, fun d first => ?_⟩
      rcases blank with rfl | rfl
      · exact .inl (Option.some.inj first).symm
      · exact .inr (Option.some.inj first).symm
  have first (more : List Char) (same : tail = c :: more) : False := by
    rcases ends c (by rw [same]; rfl) with rfl | rfl
    · exact begun.visible.2 rfl
    · cases begun.visible.1
  rcases List.append_eq_append_iff.mp whole with ⟨within, spelled, behind⟩ | ⟨within, spelled, behind⟩
  · cases within with
    | nil => exact (first shown behind.symm).elim
    | cons d more =>
      obtain ⟨rfl, rest⟩ := List.cons.inj behind
      exact ⟨more, tail, spelled, rest, ends⟩
  · cases within with
    | nil => exact (first shown behind).elim
    | cons d more =>
      have blank := begun.blank d (by simp [spelled])
      rcases ends d (by rw [behind]; rfl) with rfl | rfl
      all_goals simp at blank

variable (gaps : HasPlainGaps source.toList) (strings : HasPlainStrings source.toList)
  (comments : HasPlainComments source.toList)
include gaps strings comments

/-- **A statement line of the text is one for the scanner,** unless it begins with a blank character. -/
theorem exists_marked_of_isIn {line : TextLine} (isIn : line.IsIn source.toList)
    (solid : Text.isBlank line.first = false) :
    ∃ marked, (markLines (Text.splitLines source))[line.row]? = some marked ∧ line.Shows marked := by
  obtain ⟨above, margin, c, shown⟩ := line
  have begun : StatementStart source.toList above margin c shown := isIn
  have behind : ((Text.lineChars source.toList).drop (above.count '\n')) =
      Text.lineChars (margin ++ c :: shown) := by
    rw [begun.line.text_eq]
    rcases begun.line.ends with rfl | ⟨top, rfl⟩
    · rfl
    · have rows : (top ++ ['\n']).count '\n' = top.count '\n' + 1 := by simp
      rw [rows, List.append_assoc]
      exact Text.drop_lineChars top _
  have number : above.count '\n' < (markLines (Text.splitLines source)).length := by
    obtain ⟨first, tail, others, lines, -⟩ := @Text.exists_lineChars (margin ++ c :: shown) (by simp)
    have some := congrArg List.length (behind.trans lines)
    rw [List.length_drop, List.length_cons] at some
    rw [length_markLines, Text.splitLines, List.length_map]
    omega
  refine ⟨_, List.getElem?_eq_getElem number, ?_⟩
  generalize same : (markLines (Text.splitLines source))[above.count '\n'] = marked
  have found : (markLines (Text.splitLines source))[above.count '\n']? = some marked :=
    List.getElem?_eq_some_iff.mpr ⟨number, same⟩
  obtain ⟨above', rest, scanned⟩ := exists_scannedLine strings comments found
  obtain ⟨rfl, rfl⟩ := eq_of_count_newline scanned.ends begun.line.ends
    (scanned.text_eq.symm.trans begun.line.text_eq) scanned.row_eq
  obtain ⟨more, tail, text, split, ends⟩ := scanned.exists_text begun
  have plainMargin :=
    (begun.line.statementStart gaps begun.isGapChar_margin begun.visible begun.code).2
  refine ⟨?_, plainMargin, more, tail, text, split, ends⟩
  · have blank : ∀ d ∈ margin, Text.isBlank d = true := by
      intro d member
      rcases begun.blank d member with rfl | rfl <;> decide
    have code : isCode marked.text = true := by
      refine isCode_of_head? ?_ begun.code
      rw [text, trimStart_append blank solid]
      rfl
    rw [MarkedLine.isStatement, code, Bool.and_true, scanned.starts]
    exact ⟨begun.line.lexer, begun.line.unjoined⟩

/-- **A statement line of the scanner is one of the text.** -/
theorem exists_textLine_of_isStatement {index : Nat} {marked : MarkedLine}
    (found : (markLines (Text.splitLines source))[index]? = some marked)
    (statement : marked.isStatement = true) :
    ∃ line : TextLine, line.IsIn source.toList ∧ line.row = index ∧ line.Shows marked := by
  obtain ⟨above, rest, scanned⟩ := exists_scannedLine strings comments found
  obtain ⟨starts, code⟩ := Bool.and_eq_true_iff.mp statement
  obtain ⟨lexer, unjoined⟩ := scanned.starts.mp starts
  obtain ⟨others, lines⟩ := scanned.begins
  obtain ⟨tail, whole⟩ : ∃ tail, rest = marked.text.toList ++ tail := by
    rcases Text.lineChars_eq_cons lines with ⟨whole, -⟩ | ⟨blanks, more, whole, -⟩
    · exact ⟨[], by rw [List.append_nil]; exact whole⟩
    · exact ⟨_, whole⟩
  let margin := marked.text.toList.takeWhile isGapChar
  have blank : ∀ d ∈ margin, isGapChar d = true := fun _ => List.mem_takeWhile_imp
  have split : marked.text.toList = margin ++ marked.text.toList.dropWhile isGapChar :=
    List.takeWhile_append_dropWhile.symm
  have shown : source.toList = above ++ (margin ++ (marked.text.toList.dropWhile isGapChar ++ tail)) := by
    rw [scanned.text_eq, whole, ← List.append_assoc margin, ← split]
  have soft : ∀ d ∈ margin, Text.isBlank d = true := gaps.isBlank_of_code shown blank lexer
  cases visible : marked.text.toList.dropWhile isGapChar with
  | nil =>
    rw [visible, List.append_nil] at split
    have none : isBlankLine marked.text = true := by
      rw [isBlankLine, Text.isBlankText, split]
      exact List.all_eq_true.mpr soft
    simp [isCode, none] at code
  | cons c more =>
    rw [visible] at split
    have solid : isGapChar c = false := by
      have first := List.head?_dropWhile_not isGapChar marked.text.toList
      rw [visible] at first
      simpa using first
    have newline : c ≠ '\n' := by
      rintro rfl
      have free := Text.newline_not_mem_lineChars rest _ (by rw [lines]; exact List.mem_cons_self)
      exact free (by rw [split]; simp)
    have comment : c ≠ '#' := by
      rintro rfl
      have sharp : isComment marked.text = true := by
        rw [isComment, split, trimStart_append soft (by decide)]
        rfl
      simp [isCode, sharp] at code
    have same : rest = margin ++ c :: (more ++ tail) := by simp [whole, split]
    subst same
    have line : LineStart source.toList above (margin ++ c :: (more ++ tail)) :=
      ⟨scanned.text_eq, scanned.ends, lexer, unjoined⟩
    obtain ⟨begun, plainMargin⟩ := line.statementStart gaps blank ⟨solid, newline⟩ comment
    exact ⟨⟨above, margin, c, more ++ tail⟩, begun, scanned.row_eq, statement, plainMargin,
      scanned.exists_text begun⟩

end Lines

end StrategyMend.Python
