import StrategyMend.Proofs.Source.BodyTop
import StrategyMend.Proofs.Source.Literals

/-!
# Headers over several lines

The header of a function may be broken over lines. Whether its body stands on the line of its colon is
judged by the last of these lines, read on its own, with no string and no bracket open: it does if a
colon outside of strings and brackets has more behind it than a comment (`inlineBody_isSome_iff`).

For a header with a block behind it that is the wrong answer exactly if some other colon on the last line
counts (`BlockHeader.isSome_bodyTop?_iff`), such as that of an annotation in a bracket that was opened
on an earlier line. A header on one line without backslashes and triple quotes is read as it should be
(`BlockHeader.not_hasInlineBody`).
-/

set_option autoImplicit false

namespace StrategyMend.Source

open Text

/-! ## Lines read on their own -/

/-- A text that ends outside of strings and comments if it is read on its own, with its balance of
brackets. A string ends at the next quote like the one that opens it. -/
inductive Balance : List Char → Int → Prop
  | nil : Balance [] 0
  | code {c : Char} {rest : List Char} {depth : Int} (plain : isQuote c = false) (solid : c ≠ '#')
      (behind : Balance rest depth) : Balance (c :: rest) (bracketStep c + depth)
  | string {quote : Char} {inside rest : List Char} {depth : Int} (quotes : isQuote quote = true)
      (single : quote ∉ inside) (behind : Balance rest depth) :
      Balance (quote :: (inside ++ quote :: rest)) depth

/-- Whether a line, read on its own, has a colon outside of strings and brackets with more behind it
than blank characters and a comment. -/
def HasInlineBody (line : String) : Prop :=
  ∃ before after c more, line.toList = before ++ ':' :: after ∧ Balance before 0 ∧
    Chars.trimStart after = c :: more ∧ c ≠ '#'

section Colon

variable {depth balance : Int} {text before after rest : List Char} {quote : Char}

theorem afterColon_quoted (quote : Char) (depth : Int) (c : Char) (rest : List Char) :
    afterColon (some quote) depth (c :: rest) =
      afterColon (if c = quote then none else some quote) depth rest := rfl

theorem afterColon_quote (quotes : isQuote quote = true) :
    afterColon none depth (quote :: rest) = afterColon (some quote) depth rest := by
  rw [afterColon.eq_def]
  exact if_pos quotes

theorem afterColon_plain {c : Char} (plain : isQuote c = false) (solid : c ≠ '#') :
    afterColon none depth (c :: rest) = if c = ':' && depth = 0 then some rest
      else afterColon none (depth + bracketStep c) rest := by
  rw [afterColon.eq_def]
  simp only [plain, Bool.false_eq_true, if_false, if_neg solid]

/-- The search for a colon passes strings. -/
theorem afterColon_string {inside : List Char} (single : quote ∉ inside) :
    afterColon (some quote) depth (inside ++ quote :: rest) = afterColon none depth rest := by
  induction inside with
  | nil => rw [List.nil_append, afterColon_quoted, if_pos rfl]
  | cons c inside ih =>
    rw [List.mem_cons, not_or] at single
    rw [List.cons_append, afterColon_quoted, if_neg (Ne.symm single.1), ih single.2]

/-- What the search for a colon finds is behind one. -/
theorem exists_of_afterColon (open_ : Option Char) (found : afterColon open_ depth text = some after) :
    match open_ with
    | none => ∃ before, text = before ++ ':' :: after ∧ Balance before (-depth)
    | some quote => ∃ inside before, text = inside ++ quote :: (before ++ ':' :: after) ∧
        quote ∉ inside ∧ Balance before (-depth) := by
  induction text generalizing open_ depth with
  | nil => cases found
  | cons c text ih =>
    cases open_ with
    | some quote =>
      rw [afterColon_quoted] at found
      split at found
      · next same =>
        obtain ⟨before, parts, balanced⟩ := ih none found
        exact ⟨[], before, by rw [same, parts]; rfl, List.not_mem_nil, balanced⟩
      · next other =>
        obtain ⟨inside, before, parts, single, balanced⟩ := ih (some quote) found
        refine ⟨c :: inside, before, by rw [parts]; rfl, ?_, balanced⟩
        simpa [Ne.symm other] using single
    | none =>
      cases opens : isQuote c with
      | true =>
        rw [afterColon_quote opens] at found
        obtain ⟨inside, before, parts, single, balanced⟩ := ih (some c) found
        exact ⟨c :: (inside ++ c :: before), by rw [parts]; simp, .string opens single balanced⟩
      | false =>
        have solid : c ≠ '#' := by
          rintro rfl
          cases found
        rw [afterColon_plain opens solid] at found
        split at found
        · next colon =>
          simp only [Bool.and_eq_true, decide_eq_true_eq] at colon
          obtain ⟨rfl, rfl⟩ := colon
          cases found
          exact ⟨[], rfl, .nil⟩
        · obtain ⟨before, parts, balanced⟩ := ih none found
          refine ⟨c :: before, by rw [parts]; rfl, ?_⟩
          have sum : -depth = bracketStep c + -(depth + bracketStep c) := by omega
          exact sum ▸ .code opens solid balanced

/-- A colon outside of strings and brackets is found, unless there is another one in front of it. -/
theorem afterColon_of_balance (after : List Char) (balanced : Balance before balance)
    (level : depth + balance = 0) :
    ∃ found, afterColon none depth (before ++ ':' :: after) = some found ∧
      (found = after ∨ ∃ between, found = between ++ ':' :: after ∧ Balance between 0) := by
  induction balanced generalizing depth with
  | nil =>
    obtain rfl : depth = 0 := by omega
    exact ⟨after, rfl, .inl rfl⟩
  | @code c rest balance plain solid behind ih =>
    rw [List.cons_append, afterColon_plain plain solid]
    split
    · next colon =>
      simp only [Bool.and_eq_true, decide_eq_true_eq] at colon
      obtain ⟨rfl, rfl⟩ := colon
      have step : bracketStep ':' = 0 := rfl
      obtain rfl : balance = 0 := by omega
      exact ⟨_, rfl, .inr ⟨rest, rfl, behind⟩⟩
    · exact ih (by omega)
  | @string quote inside rest balance quotes single behind ih =>
    rw [List.cons_append, List.append_assoc, List.cons_append, afterColon_quote quotes,
      afterColon_string single]
    exact ih level

/-- What is balanced does not begin with a comment. -/
theorem Balance.trimStart_ne (balanced : Balance text balance) :
    ∀ more, Chars.trimStart (text ++ ':' :: after) ≠ '#' :: more := by
  intro more begins
  induction balanced with
  | nil => cases begins
  | @code c rest balance plain solid behind ih =>
    rw [List.cons_append, Chars.trimStart] at begins
    cases blank : isBlank c with
    | true => exact ih (by rwa [List.dropWhile_cons_of_pos blank] at begins)
    | false =>
      rw [List.dropWhile_cons_of_neg (by simp [blank])] at begins
      exact solid (List.cons.inj begins).1
  | @string quote inside rest balance quotes single behind ih =>
    rw [List.cons_append, Chars.trimStart,
      List.dropWhile_cons_of_neg (by simp [isBlank_of_isQuote quotes])] at begins
    rw [(List.cons.inj begins).1] at quotes
    cases quotes

end Colon

/-! ## Bodies on the line of the colon -/

theorem trimEnd_cons {c : Char} (solid : isBlank c = false) (rest : List Char) :
    ∃ kept, Chars.trimEnd (c :: rest) = c :: kept := by
  rw [Chars.trimEnd, dropEndWhile, List.reverse_cons, List.dropWhile_append]
  split
  · exact ⟨[], by simp [solid]⟩
  · exact ⟨_, List.reverse_concat⟩

/-- There is a body behind a colon if the first character that is not blank begins no comment. -/
theorem trim_takeWhile_ne_nil_iff {rest : List Char} :
    Chars.trim ((Chars.trim rest).takeWhile (· ≠ '#')) ≠ [] ↔
      ∃ c more, Chars.trimStart rest = c :: more ∧ c ≠ '#' := by
  cases begins : Chars.trimStart rest with
  | nil =>
    have empty : Chars.trim rest = [] := by
      rw [Chars.trim, begins]
      rfl
    rw [empty]
    refine iff_of_false (not_not_intro rfl) ?_
    rintro ⟨c, more, same, -⟩
    cases same
  | cons c more =>
    have solid := isBlank_of_trimStart_eq_cons begins
    obtain ⟨kept, trimmed⟩ := trimEnd_cons solid more
    rw [Chars.trim, Chars.trim, begins, trimmed]
    by_cases comment : c = '#'
    · simp [comment, Chars.trimStart, Chars.trimEnd, dropEndWhile]
    · rw [List.takeWhile_cons_of_pos (by simpa using comment), Chars.trimStart,
        List.dropWhile_cons_of_neg (by simp [solid])]
      obtain ⟨kept', trimmed'⟩ := trimEnd_cons solid (kept.takeWhile (· ≠ '#'))
      rw [trimmed']
      simp [comment]

/-- **A header is taken to carry its body exactly if its line, read on its own, does.** -/
theorem inlineBody_isSome_iff {line : String} :
    (inlineBody line).isSome = true ↔ HasInlineBody line := by
  have judged {rest : List Char} : (if (Chars.trim ((Chars.trim rest).takeWhile (· ≠ '#'))).isEmpty
      then none else some (String.ofList (Chars.trim ((Chars.trim rest).takeWhile (· ≠ '#'))))).isSome
        = true ↔ ∃ c more, Chars.trimStart rest = c :: more ∧ c ≠ '#' := by
    rw [← trim_takeWhile_ne_nil_iff]
    split <;> simp_all
  rw [inlineBody, Option.isSome_bind, Option.any_eq_true]
  constructor
  · rintro ⟨rest, found, body⟩
    obtain ⟨c, more, begins, solid⟩ := judged.mp body
    obtain ⟨before, split, balanced⟩ := exists_of_afterColon none found
    exact ⟨before, rest, c, more, split, balanced, begins, solid⟩
  · rintro ⟨before, after, c, more, split, balanced, begins, solid⟩
    obtain ⟨rest, found, first⟩ := afterColon_of_balance after balanced (Int.zero_add 0)
    refine ⟨rest, by rwa [split], judged.mpr ?_⟩
    rcases first with rfl | ⟨between, rfl, balanced'⟩
    · exact ⟨c, more, begins, solid⟩
    · cases begins' : Chars.trimStart (between ++ ':' :: after) with
      | nil =>
        have blank := List.dropWhile_eq_nil_iff.mp begins' ':' (by simp)
        cases blank
      | cons c more =>
        exact ⟨c, more, rfl, fun same => balanced'.trimStart_ne more (same ▸ begins')⟩

/-! ## Where a line alone is read as it should be -/

/-- A text without backslashes and without three quotes in a row. -/
structure PlainStrings (text : List Char) : Prop where
  unescaped : '\\' ∉ text
  single : ∀ quote, isQuote quote = true → ¬[quote, quote, quote] <:+: text

section Plain

variable {depth balance : Int} {text rest : List Char} {quote : Char}

theorem PlainStrings.of_infix {part : List Char} (plain : PlainStrings text) (inside : part <:+: text) :
    PlainStrings part where
  unescaped member := plain.unescaped (inside.subset member)
  single quote quotes triple := plain.single quote quotes (triple.trans inside)

theorem read_quoted {inside : List Char} (quotes : isQuote quote = true) (single : quote ∉ inside)
    (unescaped : '\\' ∉ inside) :
    (Lexer.mk (.quoted quote) depth).read (inside ++ quote :: rest) =
      (Lexer.mk .code depth).read rest := by
  induction inside with
  | nil =>
    rw [List.nil_append, Lexer.read_cons, Lexer.step_quoted_quote (ne_backslash_of_isQuote quotes)]
  | cons c inside ih =>
    rw [List.mem_cons, not_or] at single unescaped
    rw [List.cons_append, Lexer.read_cons,
      Lexer.step_quoted_other (Ne.symm unescaped.1) (Ne.symm single.1), ih single.2 unescaped.2]

/-- Behind a string, the lexer reads on as program text. -/
theorem read_string {inside : List Char} (quotes : isQuote quote = true) (single : quote ∉ inside)
    (plain : PlainStrings (quote :: (inside ++ quote :: rest))) :
    ((Lexer.mk .code depth).read (quote :: (inside ++ quote :: rest))).reading.isCode =
        ((Lexer.mk .code depth).read rest).reading.isCode ∧
      ((Lexer.mk .code depth).read (quote :: (inside ++ quote :: rest))).depth =
        ((Lexer.mk .code depth).read rest).depth := by
  rw [Lexer.read_cons, Lexer.step_code_quote quotes]
  cases inside with
  | nil =>
    rw [List.nil_append, Lexer.read_cons, Lexer.step_opened_quote]
    cases rest with
    | nil => exact ⟨rfl, rfl⟩
    | cons c rest =>
      have other : c ≠ quote := by
        rintro rfl
        exact plain.single c quotes ⟨[], rest, rfl⟩
      rw [Lexer.read_cons, Lexer.step_openedTwice_other other, Lexer.read_cons]
      exact ⟨rfl, rfl⟩
  | cons c inside =>
    have unescaped : '\\' ∉ c :: inside := fun member =>
      plain.unescaped (List.mem_cons_of_mem _ (List.mem_append_left _ member))
    have other : c ≠ quote := fun same => single (same ▸ List.mem_cons_self)
    have entered : (Lexer.mk (.opened quote) depth).read (c :: inside ++ quote :: rest) =
        (Lexer.mk (.quoted quote) depth).read (c :: inside ++ quote :: rest) := by
      rw [List.cons_append, Lexer.read_cons, Lexer.step_opened_other other, Lexer.read_cons]
    rw [entered, read_quoted quotes single unescaped]
    exact ⟨rfl, rfl⟩

/-- **What is balanced is read as program text at its end,** with that balance, if no string is
escaped or has triple quotes. -/
theorem Balance.read (balanced : Balance text balance) (plain : PlainStrings text) :
    ((Lexer.mk .code depth).read text).reading.isCode = true ∧
      ((Lexer.mk .code depth).read text).depth = depth + balance := by
  induction balanced generalizing depth with
  | nil => exact ⟨rfl, (Int.add_zero depth).symm⟩
  | @code c rest balance other solid behind ih =>
    obtain ⟨code, level⟩ := @ih (depth + bracketStep c)
      (plain.of_infix (List.suffix_cons c rest).isInfix)
    rw [Lexer.read_cons, Lexer.step_code_plain solid other]
    exact ⟨code, by rw [level, Int.add_assoc]⟩
  | @string quote inside rest balance quotes single behind ih =>
    have suffix : rest <:+ quote :: (inside ++ quote :: rest) :=
      (List.suffix_cons quote rest).trans
        ((List.suffix_append inside _).trans (List.suffix_cons quote _))
    obtain ⟨code, level⟩ := @ih depth (plain.of_infix suffix.isInfix)
    obtain ⟨same, same'⟩ := @read_string depth rest quote inside quotes single plain
    exact ⟨same.trans code, same'.trans level⟩

end Plain

/-! ## Comments behind a colon -/

section Comment

variable {before after front rest : List Char}

/-- Two colons of a line are the same, or one is in front of the other. -/
theorem eq_or_of_split (same : front ++ ':' :: rest = before ++ ':' :: after) :
    (front = before ∧ rest = after) ∨ (∃ between, before = front ++ ':' :: between) ∨
      ∃ between, front = before ++ ':' :: between ∧ after = between ++ ':' :: rest := by
  rcases List.append_eq_append_iff.mp same with ⟨between, split, split'⟩ | ⟨between, split, split'⟩
  all_goals
    cases between with
    | nil => simp_all
    | cons c between =>
      obtain ⟨rfl, tail⟩ := List.cons.inj split'
      simp_all

/-- What stands in front of a colon in a comment holds the sign of the comment. -/
theorem exists_of_comment {between : List Char}
    (blank : ∀ c ∈ (Chars.trimStart (between ++ ':' :: rest)).head?, c = '#') :
    ∃ blanks comment, between = blanks ++ '#' :: comment ∧ ∀ c ∈ blanks, isBlank c = true := by
  induction between with
  | nil => cases blank ':' rfl
  | cons c between ih =>
    rw [List.cons_append, Chars.trimStart] at blank
    cases blanks : isBlank c with
    | true =>
      rw [List.dropWhile_cons_of_pos blanks] at blank
      obtain ⟨front, comment, rfl, all⟩ := ih blank
      exact ⟨c :: front, comment, rfl, List.forall_mem_cons.mpr ⟨blanks, all⟩⟩
    | false =>
      rw [List.dropWhile_cons_of_neg (by simp [blanks])] at blank
      obtain rfl := blank c rfl
      exact ⟨[], between, rfl, List.forall_mem_nil _⟩

theorem read_blanks {blanks : List Char} (blank : ∀ c ∈ blanks, isBlank c = true) (depth : Int) :
    (Lexer.mk .code depth).read blanks = ⟨.code, depth⟩ := by
  induction blanks with
  | nil => rfl
  | cons c blanks ih =>
    obtain ⟨here, others⟩ := List.forall_mem_cons.mp blank
    have plain := isPlain_of_isBlank here
    simp only [isPlain, Bool.and_eq_true, decide_eq_true_eq, Bool.not_eq_true'] at plain
    rw [Lexer.read_cons, Lexer.step_code_plain plain.1.1 plain.1.2, plain.2, Int.add_zero, ih others]

/-- Behind program text and a colon, a comment is read as such. -/
theorem read_comment_of_isCode {lexer : Lexer} {blanks : List Char} (sound : lexer.IsSound)
    (code : (lexer.read before).reading.isCode = true) (blank : ∀ c ∈ blanks, isBlank c = true)
    (comment : List Char) :
    (lexer.read (before ++ ':' :: (blanks ++ '#' :: comment))).reading = .comment := by
  have sound := sound.read before
  rw [Lexer.read_append, Lexer.read_cons]
  generalize lexer.read before = lexer at code sound
  obtain ⟨reading, depth⟩ := lexer
  have colon : (Lexer.mk reading depth).step ':' = ⟨.code, depth⟩ := by
    have plain : (Lexer.mk .code depth).step ':' = ⟨.code, depth⟩ :=
      (Lexer.step_code_plain (by decide) rfl depth).trans (congrArg _ (Int.add_zero depth))
    cases reading with
    | code => exact plain
    | openedTwice quote =>
      refine (Lexer.step_openedTwice_other (fun same => ?_) depth).trans plain
      have quotes := sound quote rfl
      rw [← same] at quotes
      cases quotes
    | _ => cases code
  rw [colon, Lexer.read_append, read_blanks blank, Lexer.read_cons, Lexer.step_code_comment,
    Lexer.read_comment]

end Comment

/-! ## Headers with a block behind them -/

/-- The lines that continue the one with the number `index`. -/
def continuation (lines : List String) (index : Nat) : List MarkedLine :=
  ((markLines lines).drop (index + 1)).takeWhile fun line => !line.starts

/-- The number of the last line of the statement on the line `index`. -/
def lastRow (lines : List String) (index : Nat) : Nat := index + (continuation lines index).length

/-- A function header on the line `index` that ends in a colon of program text, a comment behind it
aside, with a deeper statement behind it. -/
structure BlockHeader (lines : List String) (index : Nat) where
  header : MarkedLine
  /-- The first statement behind the header. -/
  first : MarkedLine
  /-- The last line of the header. -/
  last : String
  /-- What stands on the last line in front of the colon of the header. -/
  before : List Char
  /-- What stands behind the colon. -/
  after : List Char
  here : (markLines lines)[index]? = some header
  starts : header.starts = true
  definition : isDefHeader header.text = true
  next : ((markLines lines).drop (index + 1)).find? MarkedLine.isStatement = some first
  deeper : indentWidth header.text < indentWidth first.text
  ends : lines[lastRow lines index]? = some last
  colon : last.toList = before ++ ':' :: after
  programText : ((Carry.closed.afterLines (lines.take (lastRow lines index))).lexer.read
    before).reading.isCode = true
  blank : ∀ c ∈ (Chars.trimStart after).head?, c = '#'

section Header

variable {lines : List String} {index : Nat}

theorem bodyTopFrom_isSome_iff {header : String} {marked : List MarkedLine} {first : MarkedLine}
    (next : marked.find? MarkedLine.isStatement = some first) :
    (bodyTopFrom header index marked).isSome = true ↔ indentWidth header < indentWidth first.text := by
  induction marked generalizing index with
  | nil => cases next
  | cons line rest ih =>
    rw [bodyTopFrom]
    cases statement : line.isStatement with
    | false =>
      rw [List.find?_cons_of_neg (by simp [statement])] at next
      exact ih next
    | true =>
      rw [List.find?_cons_of_pos statement] at next
      cases next
      simp only [Bool.not_true, Bool.false_eq_true, if_false]
      split <;> simp_all

/-- Lines that continue others are no statements. -/
theorem find?_dropWhile_starts (marked : List MarkedLine) :
    (marked.dropWhile fun line => !line.starts).find? MarkedLine.isStatement =
      marked.find? MarkedLine.isStatement := by
  conv_rhs => rw [← List.takeWhile_append_dropWhile (p := fun line : MarkedLine => !line.starts)
    (l := marked), List.find?_append]
  have none : (marked.takeWhile fun line => !line.starts).find? MarkedLine.isStatement = none := by
    refine List.find?_eq_none.mpr fun line member => ?_
    have continued := List.mem_takeWhile_imp member
    simp_all [MarkedLine.isStatement]
  rw [none, Option.none_or]

/-- The last line of a header is that in front of the next line that may begin a statement. -/
theorem getElem?_lastRow {header : MarkedLine} (here : (markLines lines)[index]? = some header) :
    lines[lastRow lines index]? =
      some ((continuation lines index).getLast?.getD header).text := by
  have split : (markLines lines).drop index = (header :: continuation lines index) ++
      ((markLines lines).drop (index + 1)).dropWhile fun line => !line.starts := by
    rw [List.cons_append, continuation, List.takeWhile_append_dropWhile, drop_markLines here]
  rw [← map_text_getElem?_markLines, lastRow, ← List.getElem?_drop, split,
    List.getElem?_append_left (by simp), List.getLast?_eq_getElem?]
  cases more : continuation lines index with
  | nil => rfl
  | cons next rest => simp

namespace BlockHeader

variable (block : BlockHeader lines index)

/-- **The top of the body is found exactly if the last line of the header, read on its own, carries no
body.** -/
theorem isSome_bodyTop?_iff : (bodyTop? lines index).isSome = true ↔ ¬HasInlineBody block.last := by
  have last := getElem?_lastRow block.here
  rw [block.ends, Option.some.injEq] at last
  have next := block.next
  rw [← find?_dropWhile_starts] at next
  rw [← inlineBody_isSome_iff, last, bodyTop?, drop_markLines block.here]
  simp only [block.definition, if_true, drop_length_takeWhile]
  rw [← continuation]
  split
  · next inline => simp [inline]
  · next inline => simp [inline, bodyTopFrom_isSome_iff next, block.deeper]

/-- A header whose last line has one colon only does not seem to carry a body. -/
theorem not_hasInlineBody_of_single (before : ':' ∉ block.before) (after : ':' ∉ block.after) :
    ¬HasInlineBody block.last := by
  rintro ⟨front, rest, c, more, split, -, begins, solid⟩
  rcases eq_or_of_split (split.symm.trans block.colon) with ⟨-, rfl⟩ | ⟨between, split⟩ |
    ⟨between, -, split⟩
  · exact solid (block.blank c (by rw [begins]; rfl))
  · exact before (by simp [split])
  · exact after (by simp [split])

/-- **A header on one line does not seem to carry a body** if its colon is the first outside of strings
and brackets and no string is escaped or has triple quotes. -/
theorem not_hasInlineBody (single : lastRow lines index = index) (plain : PlainStrings block.last.toList)
    (first : ∀ front rest, block.before = front ++ ':' :: rest →
      ¬((Lexer.start.read front).reading.isCode = true ∧ (Lexer.start.read front).depth = 0)) :
    ¬HasInlineBody block.last := by
  rintro ⟨front, rest, c, more, split, balanced, begins, solid⟩
  have code : (Lexer.start.read block.before).reading.isCode = true := by
    have text := block.programText
    rwa [single, afterLines_of_starts block.here block.starts] at text
  obtain ⟨read, level⟩ := @Balance.read 0 0 front balanced
    (plain.of_infix (split ▸ (List.prefix_append front _).isInfix))
  rcases eq_or_of_split (split.symm.trans block.colon) with ⟨-, rfl⟩ | ⟨between, before⟩ |
    ⟨between, rfl, after⟩
  · exact solid (block.blank c (by rw [begins]; rfl))
  · exact first front between before ⟨read, level⟩
  · have blank := block.blank
    rw [after] at blank
    obtain ⟨blanks, comment, rfl, all⟩ := exists_of_comment blank
    have sound : Lexer.start.IsSound := nofun
    have reading := read_comment_of_isCode sound code all comment
    rw [Lexer.start] at reading
    rw [reading] at read
    cases read

end BlockHeader

end Header

end StrategyMend.Source
