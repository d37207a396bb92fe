import StrategyMend.Proofs.Source.Marks

/-!
# Reading character by character

A lexer that reads a text from left to right, one character at a time, without looking ahead. It
knows program text, comments and the two kinds of strings, and between them the places that later
characters decide about: behind one opening quote, behind two, behind a backslash, behind some of
three closing quotes. Brackets are counted in program text only.

`scan` looks ahead for three quotes and passes them at once. It ends a line in the mode and with the
number of open brackets of the lexer (`scan_eq_read`).
-/

set_option autoImplicit false

namespace StrategyMend.Source

/-! ## What is read -/

/-- What a lexer is in the middle of. -/
inductive Reading where
  /-- Program text. -/
  | code
  /-- A comment. -/
  | comment
  /-- Right behind a quote that opens a string. -/
  | opened (quote : Char)
  /-- Right behind two quotes: an empty string, unless a third one follows. -/
  | openedTwice (quote : Char)
  /-- A string that its quote ends. -/
  | quoted (quote : Char)
  /-- Right behind a backslash in such a string. -/
  | quotedEscape (quote : Char)
  /-- A string that three quotes end; so many of them were just read. -/
  | tripleQuoted (quote : Char) (closing : Nat)
  /-- Right behind a backslash in such a string. -/
  | tripleQuotedEscape (quote : Char)
  deriving DecidableEq

namespace Reading

/-- What a character of program text begins. -/
def begun (c : Char) : Reading :=
  if c = '#' then .comment else if isQuote c then .opened c else .code

/-- What follows a character of a string that its quote ends. -/
def within (quote c : Char) : Reading :=
  if c = '\\' then .quotedEscape quote else if c = quote then .code else .quoted quote

/-- What follows the next character of a line. -/
def next : Reading → Char → Reading
  | .code, c => begun c
  | .comment, _ => .comment
  | .opened quote, c => if c = quote then .openedTwice quote else within quote c
  | .openedTwice quote, c => if c = quote then .tripleQuoted quote 0 else begun c
  | .quoted quote, c => within quote c
  | .quotedEscape quote, _ => .quoted quote
  | .tripleQuoted quote closing, c =>
    if c = '\\' then .tripleQuotedEscape quote
    else if c = quote then
      if closing = 2 then .code else .tripleQuoted quote (closing + 1)
    else .tripleQuoted quote 0
  | .tripleQuotedEscape quote, _ => .tripleQuoted quote 0

/-- What follows the end of a line. It ends a comment, and a string that its quote ends unless a
backslash stands in front of it. -/
def nextLine : Reading → Reading
  | .quotedEscape quote => .quoted quote
  | .tripleQuoted quote _ => .tripleQuoted quote 0
  | .tripleQuotedEscape quote => .tripleQuoted quote 0
  | _ => .code

/-- Program text, where brackets count. -/
def isCode : Reading → Bool
  | .code => true
  | .openedTwice _ => true
  | _ => false

/-- The quote of the string with triple quotes inside of which this is. -/
def tripleQuote? : Reading → Option Char
  | .tripleQuoted quote _ => some quote
  | .tripleQuotedEscape quote => some quote
  | _ => none

/-- The mode of the scanner that corresponds to it. -/
def mode : Reading → Mode
  | .code => .code
  | .comment => .code
  | .opened quote => .quoted quote
  | .openedTwice _ => .code
  | .quoted quote => .quoted quote
  | .quotedEscape quote => .quoted quote
  | .tripleQuoted quote _ => .tripleQuoted quote
  | .tripleQuotedEscape quote => .tripleQuoted quote

/-- Only a backslash leads behind a backslash. -/
theorem eq_backslash_of_next {reading : Reading} {c quote : Char}
    (escape : reading.next c = .quotedEscape quote) : c = '\\' := by
  cases reading <;> simp only [next, begun, within] at escape <;>
    grind

end Reading

/-- What the scanner is in the middle of. -/
def Mode.reading : Mode → Reading
  | .code => .code
  | .quoted quote => .quoted quote
  | .tripleQuoted quote => .tripleQuoted quote 0

/-- A lexer on its way through a text. -/
structure Lexer where
  reading : Reading
  /-- The number of open brackets; negative where more were closed than opened on the line. -/
  depth : Int
  deriving DecidableEq

namespace Lexer

/-- A lexer at the beginning of a text. -/
def start : Lexer := ⟨.code, 0⟩

/-- Reads a character of a line. -/
def step (lexer : Lexer) (c : Char) : Lexer :=
  ⟨lexer.reading.next c,
    if lexer.reading.isCode then lexer.depth + bracketStep c else lexer.depth⟩

/-- Reads the end of a line. -/
def nextLine (lexer : Lexer) : Lexer := ⟨lexer.reading.nextLine, max lexer.depth 0⟩

/-- Reads characters of a line. -/
def read (lexer : Lexer) (cs : List Char) : Lexer := cs.foldl step lexer

/-- Reads a line with its end. -/
def afterLine (lexer : Lexer) (line : String) : Lexer := (lexer.read line.toList).nextLine

/-- Reads lines with their ends. -/
def afterLines (lexer : Lexer) (lines : List String) : Lexer := lines.foldl afterLine lexer

@[simp]
theorem read_nil (lexer : Lexer) : lexer.read [] = lexer := rfl

@[simp]
theorem read_cons (lexer : Lexer) (c : Char) (rest : List Char) :
    lexer.read (c :: rest) = (lexer.step c).read rest := rfl

theorem read_append (lexer : Lexer) (front back : List Char) :
    lexer.read (front ++ back) = (lexer.read front).read back :=
  List.foldl_append

theorem afterLines_append (lexer : Lexer) (first second : List String) :
    lexer.afterLines (first ++ second) = (lexer.afterLines first).afterLines second :=
  List.foldl_append

/-- A comment goes on to the end of the line. -/
theorem read_comment (depth : Int) (cs : List Char) :
    (Lexer.mk .comment depth).read cs = ⟨.comment, depth⟩ := by
  induction cs with
  | nil => rfl
  | cons c rest ih => exact ih

/-- The mode and the number of open brackets. -/
def result (lexer : Lexer) : Mode × Int := (lexer.reading.mode, lexer.depth)

/-! ### Single steps -/

theorem step_tripleQuoted_plain {quote c : Char} (plain : c ≠ '\\') (other : c ≠ quote)
    (closing : Nat) (depth : Int) :
    (Lexer.mk (.tripleQuoted quote closing) depth).step c = ⟨.tripleQuoted quote 0, depth⟩ := by
  simp [step, Reading.next, Reading.isCode, plain, other]

theorem step_code_comment (depth : Int) :
    (Lexer.mk .code depth).step '#' = ⟨.comment, depth⟩ := by
  simp [step, Reading.next, Reading.begun, Reading.isCode, bracketStep]

theorem step_code_quote {quote : Char} (quotes : isQuote quote = true) (depth : Int) :
    (Lexer.mk .code depth).step quote = ⟨.opened quote, depth⟩ := by
  simp only [isQuote, Bool.or_eq_true, decide_eq_true_eq] at quotes
  rcases quotes with rfl | rfl <;>
    simp [step, Reading.next, Reading.begun, Reading.isCode, bracketStep, isQuote]

theorem step_code_plain {c : Char} (code : c ≠ '#') (plain : isQuote c = false) (depth : Int) :
    (Lexer.mk .code depth).step c = ⟨.code, depth + bracketStep c⟩ := by
  simp [step, Reading.next, Reading.begun, Reading.isCode, code, plain]

theorem step_opened_quote (quote : Char) (depth : Int) :
    (Lexer.mk (.opened quote) depth).step quote = ⟨.openedTwice quote, depth⟩ := by
  simp [step, Reading.next, Reading.isCode]

theorem step_opened_other {quote c : Char} (other : c ≠ quote) (depth : Int) :
    (Lexer.mk (.opened quote) depth).step c = (Lexer.mk (.quoted quote) depth).step c := by
  simp [step, Reading.next, Reading.isCode, other]

theorem step_openedTwice_quote {quote : Char} (quotes : isQuote quote = true) (depth : Int) :
    (Lexer.mk (.openedTwice quote) depth).step quote = ⟨.tripleQuoted quote 0, depth⟩ := by
  simp only [isQuote, Bool.or_eq_true, decide_eq_true_eq] at quotes
  rcases quotes with rfl | rfl <;> simp [step, Reading.next, Reading.isCode, bracketStep]

theorem step_openedTwice_other {quote c : Char} (other : c ≠ quote) (depth : Int) :
    (Lexer.mk (.openedTwice quote) depth).step c = (Lexer.mk .code depth).step c := by
  simp [step, Reading.next, Reading.isCode, other]

theorem step_quoted_quote {quote : Char} (plain : quote ≠ '\\') (depth : Int) :
    (Lexer.mk (.quoted quote) depth).step quote = ⟨.code, depth⟩ := by
  simp [step, Reading.next, Reading.within, Reading.isCode, plain]

theorem step_quoted_other {quote c : Char} (plain : c ≠ '\\') (other : c ≠ quote) (depth : Int) :
    (Lexer.mk (.quoted quote) depth).step c = ⟨.quoted quote, depth⟩ := by
  simp [step, Reading.next, Reading.within, Reading.isCode, plain, other]

theorem step_tripleQuoted_quote {quote : Char} (plain : quote ≠ '\\') (closing : Nat) (depth : Int) :
    (Lexer.mk (.tripleQuoted quote closing) depth).step quote =
      ⟨if closing = 2 then .code else .tripleQuoted quote (closing + 1), depth⟩ := by
  simp [step, Reading.next, Reading.isCode, plain]

/-- Any other character starts the count of closing quotes again. -/
theorem step_tripleQuoted_other {quote c : Char} (other : c ≠ quote) (closing : Nat) (depth : Int) :
    (Lexer.mk (.tripleQuoted quote closing) depth).step c =
      (Lexer.mk (.tripleQuoted quote 0) depth).step c := by
  simp [step, Reading.next, Reading.isCode, other]

end Lexer

/-! ## The scanner reads the same -/

section Scan

variable {quote : Char} {rest : List Char}

theorem ne_backslash_of_isQuote (quotes : isQuote quote = true) : quote ≠ '\\' := by
  rintro rfl
  cases quotes

/-- Behind a quote that opens a string, a second one ends it unless a third one follows. -/
theorem result_read_opened (quotes : isQuote quote = true) (single : ¬[quote, quote] <+: rest)
    (depth : Int) :
    ((Lexer.mk (.opened quote) depth).read rest).result =
      ((Lexer.mk (.quoted quote) depth).read rest).result := by
  cases rest with
  | nil => rfl
  | cons second rest =>
    rw [Lexer.read_cons, Lexer.read_cons]
    by_cases same : second = quote
    · subst same
      rw [Lexer.step_opened_quote, Lexer.step_quoted_quote (ne_backslash_of_isQuote quotes)]
      cases rest with
      | nil => rfl
      | cons third rest =>
        have other : third ≠ second := fun same => single ⟨rest, by rw [same]; rfl⟩
        rw [Lexer.read_cons, Lexer.read_cons, Lexer.step_openedTwice_other other]
    · rw [Lexer.step_opened_other same]

/-- One quote that no two others follow does not bring a string with triple quotes closer to its
end. -/
theorem result_read_closing (plain : quote ≠ '\\') (single : ¬[quote, quote] <+: rest)
    (depth : Int) :
    ((Lexer.mk (.tripleQuoted quote 1) depth).read rest).result =
      ((Lexer.mk (.tripleQuoted quote 0) depth).read rest).result := by
  cases rest with
  | nil => rfl
  | cons second rest =>
    rw [Lexer.read_cons, Lexer.read_cons]
    by_cases same : second = quote
    · subst same
      rw [Lexer.step_tripleQuoted_quote plain, Lexer.step_tripleQuoted_quote plain]
      cases rest with
      | nil => rfl
      | cons third rest =>
        have other : third ≠ second := fun same => single ⟨rest, by rw [same]; rfl⟩
        simp only [Lexer.read_cons, Nat.reduceEqDiff, Nat.reduceAdd, reduceIte,
          Lexer.step_tripleQuoted_other other]
    · rw [Lexer.step_tripleQuoted_other same]

/-- Two quotes follow a quote exactly if the scanner sees them ahead. -/
theorem not_prefix_of_ne {c second third : Char} (inside : List Char)
    (other : ¬(decide (second = c) && decide (third = c)) = true) :
    ¬[c, c] <+: second :: third :: inside := by
  rintro ⟨rest, same⟩
  obtain ⟨rfl, rfl, -⟩ := by simpa using same
  simp at other

theorem not_prefix_of_short {c : Char} {short : List Char}
    (none : ∀ second third inside, short = second :: third :: inside → False) :
    ¬[c, c] <+: short :=
  fun ⟨inside, same⟩ => none c c inside same.symm

/-- **The scanner ends a line as the lexer does.** -/
theorem scan_eq_read (mode : Mode) (depth : Int) (cs : List Char) :
    scan mode depth cs = ((Lexer.mk mode.reading depth).read cs).result := by
  fun_induction scan mode depth cs with
  | case1 mode depth => cases mode <;> rfl
  | case2 depth rest =>
    simp only [Mode.reading, Lexer.read_cons, Lexer.step_code_comment, Lexer.read_comment]
    rfl
  | case3 depth c code quotes second third inside triple ih =>
    obtain ⟨rfl, rfl⟩ := by simpa using triple
    simp only [ih, Mode.reading, Lexer.read_cons, Lexer.step_code_quote quotes,
      Lexer.step_opened_quote, Lexer.step_openedTwice_quote quotes]
  | case4 depth c code quotes second third inside single ih =>
    have single := result_read_opened quotes (not_prefix_of_ne inside single) depth
    rw [ih, Mode.reading, Mode.reading, ← single, Lexer.read_cons _ c,
      Lexer.step_code_quote quotes]
  | case5 depth c code quotes short single ih =>
    have single := result_read_opened quotes (not_prefix_of_short single) depth
    rw [ih, Mode.reading, Mode.reading, ← single, Lexer.read_cons _ c,
      Lexer.step_code_quote quotes]
  | case6 depth c rest code plain ih =>
    rw [ih, Mode.reading, Lexer.read_cons, Lexer.step_code_plain code (by simpa using plain)]
  | case7 quote depth escaped after ih => rw [ih]; rfl
  | case8 quote depth => rfl
  | case9 depth quote rest plain ih =>
    rw [ih, Mode.reading, Mode.reading, Lexer.read_cons, Lexer.step_quoted_quote plain]
  | case10 quote depth c rest plain other ih =>
    rw [ih, Mode.reading, Lexer.read_cons, Lexer.step_quoted_other plain other]
  | case11 quote depth escaped after ih => rw [ih]; rfl
  | case12 quote depth => rfl
  | case13 depth quote plain second third inside triple ih =>
    obtain ⟨rfl, rfl⟩ := by simpa using triple
    simp [ih, Mode.reading, Lexer.step_tripleQuoted_quote plain]
  | case14 depth quote plain second third inside single ih =>
    have single := result_read_closing plain (not_prefix_of_ne inside single) depth
    rw [ih, Mode.reading, ← single, Lexer.read_cons _ quote, Lexer.step_tripleQuoted_quote plain]
    rfl
  | case15 depth quote plain short single ih =>
    have single := result_read_closing plain (not_prefix_of_short single) depth
    rw [ih, Mode.reading, ← single, Lexer.read_cons _ quote, Lexer.step_tripleQuoted_quote plain]
    rfl
  | case16 quote depth c rest plain other ih =>
    rw [ih, Mode.reading, Lexer.read_cons, Lexer.step_tripleQuoted_plain plain other]

end Scan

/-! ## What a line leaves open -/

namespace Carry

/-- The lexer at the beginning of a line before which this is open. -/
def lexer (carry : Carry) : Lexer := ⟨carry.mode.reading, carry.depth⟩

/-- **What a line leaves open is what the lexer finds open at its end,** and the backslash there. -/
theorem after_eq (carry : Carry) (line : String) :
    carry.after line =
      ⟨(carry.lexer.read line.toList).depth.toNat,
        (carry.lexer.read line.toList).reading.tripleQuote?,
        (carry.lexer.read line.toList).reading.tripleQuote?.isNone && endsInBackslash line⟩ := by
  have scanned : scan carry.mode carry.depth line.toList = (carry.lexer.read line.toList).result :=
    scan_eq_read carry.mode carry.depth line.toList
  simp only [after, scanned]
  obtain ⟨reading, depth⟩ := carry.lexer.read line.toList
  cases reading <;> rfl

/-- **Scanner and lexer begin the next line alike,** unless the lexer is inside of a string that the
scanner takes for ended. -/
theorem lexer_after {carry : Carry} {line : String}
    (ended : ∀ quote, (carry.lexer.read line.toList).reading ≠ .quotedEscape quote) :
    (carry.after line).lexer = carry.lexer.afterLine line := by
  rw [after_eq, Lexer.afterLine]
  generalize carry.lexer.read line.toList = lexer at ended
  obtain ⟨reading, depth⟩ := lexer
  have floor : (depth.toNat : Int) = max depth 0 := Int.ofNat_toNat depth
  rw [Lexer.nextLine, ← floor]
  cases reading with
  | quotedEscape quote => exact absurd rfl (ended quote)
  | _ => rfl

end Carry

end StrategyMend.Source
