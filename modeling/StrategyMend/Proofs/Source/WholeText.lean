import StrategyMend.Proofs.Source.Header
import StrategyMend.Proofs.Source.Lexer
import StrategyMend.Text.Lines

/-!
# The marks of lines, read off the whole text

The marks are made line by line. If no line outside of a string with triple quotes ends in a
backslash, they can be read off the text as a whole: a statement may begin on a line exactly if the
lexer, on its way through the joined lines, arrives at the line with no bracket open and not inside
of a string with triple quotes (`getElem?_statementStarts_eq_lexer`).

The one thing that the lexer carries to the next line and the scanner does not is a string continued
by a backslash, so without one they always begin a line alike (`Carry.unbroken_after`).
-/

set_option autoImplicit false

namespace StrategyMend.Source

open Text

/-! ## Reading a text of several lines -/

namespace Lexer

/-- Reads a character of a text, which may end a line. -/
def pass (lexer : Lexer) (c : Char) : Lexer :=
  if c = '\n' then lexer.nextLine else lexer.step c

/-- Reads a text of several lines. -/
def readText (lexer : Lexer) (text : List Char) : Lexer := text.foldl pass lexer

/-- No bracket is open, and this is not inside of a string with triple quotes. -/
def isBetweenStatements (lexer : Lexer) : Bool :=
  lexer.depth = 0 && lexer.reading.tripleQuote?.isNone

theorem readText_append (lexer : Lexer) (front back : List Char) :
    lexer.readText (front ++ back) = (lexer.readText front).readText back :=
  List.foldl_append

theorem readText_of_not_mem {line : List Char} (plain : '\n' ∉ line) (lexer : Lexer) :
    lexer.readText line = lexer.read line := by
  induction line generalizing lexer with
  | nil => rfl
  | cons c rest ih =>
    rw [List.mem_cons, not_or] at plain
    have passed : lexer.pass c = lexer.step c := if_neg (Ne.symm plain.1)
    rw [read_cons, ← ih plain.2, ← passed]
    rfl

end Lexer

/-- Lines with a newline behind each. -/
def endedText (lines : List String) : List Char :=
  lines.flatMap fun line => line.toList ++ ['\n']

/-- The number of characters in front of a line in the joined lines. -/
def lineOffset (lines : List String) (index : Nat) : Nat := (endedText (lines.take index)).length

/-- The lexer behind so many characters of the joined lines. -/
def lexerAt (lines : List String) (position : Nat) : Lexer :=
  Lexer.start.readText ((unlines lines).toList.take position)

/-- The last character of the line that is not blank is a backslash. -/
def endsWithBackslash (line : String) : Bool :=
  (Chars.trimEnd line.toList).getLast? = some '\\'

/-! ## The lexer between lines -/

/-- In the joined lines, a line stands behind the ones above it. -/
theorem exists_unlines_eq {lines : List String} {index : Nat} {line : String}
    (here : lines[index]? = some line) :
    ∃ rest, (unlines lines).toList = endedText (lines.take index) ++ (line.toList ++ rest) := by
  rw [unlines, String.toList_ofList]
  induction lines generalizing index with
  | nil => cases here
  | cons first others ih =>
    cases index with
    | zero =>
      obtain rfl := Option.some.inj here
      cases others with
      | nil => exact ⟨[], by simp [joinChars, endedText]⟩
      | cons next others => exact ⟨_, by simp [joinChars, endedText]; rfl⟩
    | succ index =>
      obtain ⟨rest, joined⟩ := ih here
      cases others with
      | nil => cases here
      | cons next others =>
        refine ⟨rest, ?_⟩
        rw [List.map_cons, List.map_cons, joinChars, ← List.map_cons, joined]
        simp [endedText]

/-- So it does in the text of the lines, whether a newline ends that or not. -/
theorem exists_joinLines_eq {front back : List String} {line : String} (trailing : Bool) :
    ∃ rest, (joinLines (front ++ line :: back) trailing).toList =
      endedText front ++ (line.toList ++ rest) := by
  obtain ⟨rest, joined⟩ := @exists_unlines_eq (front ++ line :: back) front.length line (by simp)
  rw [List.take_left] at joined
  rw [joinLines]
  split
  · exact ⟨rest ++ ['\n'], by simp [joined]⟩
  · exact ⟨rest, joined⟩

theorem endedText_append (first second : List String) :
    endedText (first ++ second) = endedText first ++ endedText second :=
  List.flatMap_append

/-- There are as many line breaks as lines. -/
theorem count_endedText {lines : List String} (plain : ∀ line ∈ lines, '\n' ∉ line.toList) :
    (endedText lines).count '\n' = lines.length := by
  induction lines with
  | nil => rfl
  | cons line rest ih =>
    have first : line.toList.count '\n' = 0 := List.count_eq_zero.mpr (plain line (by simp))
    have others := ih fun other member => plain other (List.mem_cons_of_mem line member)
    rw [endedText, List.flatMap_cons, ← endedText, List.count_append, List.count_append, others, first]
    simp [Nat.add_comm]

theorem readText_endedText {lines : List String} (plain : ∀ line ∈ lines, '\n' ∉ line.toList)
    (lexer : Lexer) : lexer.readText (endedText lines) = lexer.afterLines lines := by
  induction lines generalizing lexer with
  | nil => rfl
  | cons line rest ih =>
    have first := plain line (by simp)
    have others := ih fun other member => plain other (List.mem_cons_of_mem line member)
    rw [endedText, List.flatMap_cons, Lexer.readText_append, Lexer.readText_append,
      Lexer.readText_of_not_mem first]
    exact others _

section Arrival

variable {lines : List String} {index : Nat} {line : String}

/-- The lexer arrives at a line as it left the lines above. -/
theorem lexerAt_lineOffset (plain : ∀ line ∈ lines, '\n' ∉ line.toList)
    (here : lines[index]? = some line) :
    lexerAt lines (lineOffset lines index) = Lexer.start.afterLines (lines.take index) := by
  obtain ⟨rest, joined⟩ := exists_unlines_eq here
  rw [lexerAt, joined, lineOffset, List.take_left]
  exact readText_endedText (fun line member => plain line (List.mem_of_mem_take member)) _

/-- It gets to the end of the line by reading the line. -/
theorem lexerAt_lineOffset_add (plain : ∀ line ∈ lines, '\n' ∉ line.toList)
    (here : lines[index]? = some line) :
    lexerAt lines (lineOffset lines index + line.toList.length) =
      (Lexer.start.afterLines (lines.take index)).read line.toList := by
  obtain ⟨rest, joined⟩ := exists_unlines_eq here
  have whole := plain line (List.mem_of_getElem? here)
  rw [lexerAt, joined, lineOffset, ← List.append_assoc, ← List.length_append,
    List.take_left, Lexer.readText_append, Lexer.readText_of_not_mem whole,
    readText_endedText fun line member => plain line (List.mem_of_mem_take member)]

end Arrival

/-! ## The scanner between lines -/

/-- A line that ends in a string, right behind a backslash, ends in that backslash. -/
theorem endsWithBackslash_of_read {lexer : Lexer} {line : String} {quote : Char}
    (outside : ∀ quote, lexer.reading ≠ .quotedEscape quote)
    (escape : (lexer.read line.toList).reading = .quotedEscape quote) :
    endsWithBackslash line = true := by
  rcases List.eq_nil_or_concat line.toList with empty | ⟨front, c, text⟩
  · rw [empty] at escape
    exact absurd escape (outside quote)
  · rw [text, List.concat_eq_append, Lexer.read_append] at escape
    obtain rfl := Reading.eq_backslash_of_next escape
    rw [endsWithBackslash, text, List.concat_eq_append, getLast?_trimEnd_append (by decide)]
    rfl

theorem endsInBackslash_eq (line : String) :
    Carry.endsInBackslash line = (endsWithBackslash line && !isComment line) := rfl

namespace Carry

/-- A line starts in program text or in a string with triple quotes. -/
theorem lexer_reading_ne (carry : Carry) (quote : Char) :
    carry.lexer.reading ≠ .quotedEscape quote := by
  obtain ⟨depth, triple, continued⟩ := carry
  cases triple <;> simp [lexer, mode, Mode.reading]

/-- A line that does not end in a backslash leaves the same open for the scanner and the lexer, and
is not continued. -/
theorem unbroken_after {carry : Carry} {line : String}
    (unbroken : (carry.lexer.read line.toList).reading.tripleQuote? = none →
      endsWithBackslash line = false) :
    (carry.after line).lexer = carry.lexer.afterLine line ∧ (carry.after line).continued = false := by
  constructor
  · refine lexer_after fun quote escape => ?_
    have ends := endsWithBackslash_of_read carry.lexer_reading_ne escape
    rw [unbroken (by rw [escape]; rfl)] at ends
    cases ends
  · rw [after_eq]
    cases triple : (carry.lexer.read line.toList).reading.tripleQuote? with
    | none => simp [endsInBackslash_eq, unbroken triple]
    | some quote => rfl

/-- Where no line is continued, a statement may begin where the lexer is between statements. -/
theorem startsStatement_eq {carry : Carry} (whole : carry.continued = false) :
    carry.startsStatement = carry.lexer.isBetweenStatements := by
  obtain ⟨depth, triple, continued⟩ := carry
  obtain rfl : continued = false := whole
  cases triple <;> simp [startsStatement, lexer, mode, Mode.reading, Lexer.isBetweenStatements,
    Reading.tripleQuote?]

end Carry

/-- **The marks are those of the lexer that reads the whole text,** where no line that ends outside
of a string with triple quotes ends in a backslash. -/
theorem getElem?_statementStarts_eq_lexer {lines : List String}
    (plain : ∀ line ∈ lines, '\n' ∉ line.toList)
    (unbroken : ∀ index (inside : index < lines.length),
      (lexerAt lines (lineOffset lines index + lines[index].toList.length)).reading.tripleQuote? =
          none →
        endsWithBackslash lines[index] = false)
    {index : Nat} (inside : index < lines.length) :
    (statementStarts lines)[index]? =
      some (lexerAt lines (lineOffset lines index)).isBetweenStatements := by
  have carried (count : Nat) (upTo : count ≤ lines.length) :
      (Carry.closed.afterLines (lines.take count)).lexer = Lexer.start.afterLines (lines.take count) ∧
        (Carry.closed.afterLines (lines.take count)).continued = false := by
    induction count with
    | zero => exact ⟨rfl, rfl⟩
    | succ count ih =>
      obtain ⟨lexer, -⟩ := ih (by omega)
      have here : lines[count]? = some lines[count] := List.getElem?_eq_getElem (by omega)
      have ends := unbroken count upTo
      rw [lexerAt_lineOffset_add plain here, ← lexer] at ends
      rw [List.take_add_one, here, Option.toList_some, Carry.afterLines_append,
        Lexer.afterLines_append, ← lexer]
      exact Carry.unbroken_after ends
  have here : lines[index]? = some lines[index] := List.getElem?_eq_getElem inside
  obtain ⟨lexer, whole⟩ := carried index (by omega)
  rw [getElem?_statementStarts, here, Option.map_some, Carry.startsStatement_eq whole, lexer,
    lexerAt_lineOffset plain here]

/-- A string over two lines, continued by a backslash inside of it, and an open bracket behind it. -/
def documentedCall : List String :=
  ["s = \"\"\"é (\\", "'\"\" \"\"\" + f('(',  # [", "  ')' \"\\\"\")", "t = 1"]

theorem getElem?_statementStarts_eq_lexer_documentedCall :
    (∀ line ∈ documentedCall, '\n' ∉ line.toList) ∧
      (∀ index (inside : index < documentedCall.length),
        (lexerAt documentedCall (lineOffset documentedCall index +
            documentedCall[index].toList.length)).reading.tripleQuote? = none →
          endsWithBackslash documentedCall[index] = false) ∧
      (statementStarts documentedCall)[3]? =
        some (lexerAt documentedCall (lineOffset documentedCall 3)).isBetweenStatements ∧
      statementStarts documentedCall = [true, false, false, true] := by
  have plain : ∀ line ∈ documentedCall, '\n' ∉ line.toList := by decide +kernel
  have unbroken : ∀ index (inside : index < documentedCall.length),
      (lexerAt documentedCall (lineOffset documentedCall index +
          documentedCall[index].toList.length)).reading.tripleQuote? = none →
        endsWithBackslash documentedCall[index] = false := by
    decide +kernel
  exact ⟨plain, unbroken, getElem?_statementStarts_eq_lexer plain unbroken (by decide),
    by decide +kernel⟩

end StrategyMend.Source
