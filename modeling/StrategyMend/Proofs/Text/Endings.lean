import Mathlib.Data.List.Basic
import StrategyMend.Text.Lines

/-!
# Lines with their ends

The lines of a text come without their ends, and joining lines puts one end behind all of them. Here
every line keeps the end that it has in the text. These lines are the whole text
(`textOf_endedLines`), and their contents are the lines without ends (`map_text_endedLines`).

Joined lines are lines that have all been given one end (`joinLines_eq_textOf`). That changes a text
exactly if a carriage return stands in front of a newline somewhere in it or the last line loses or
gains its end (`joinEnded_map_withEnd_iff`). So cutting a text and joining its lines is the identity
on the texts without such a carriage return and on no others (`joinLines_splitLines_iff`).
-/

set_option autoImplicit false

namespace StrategyMend.Text

/-! ## Ends -/

/-- What ends a line. -/
inductive LineEnd where
  | newline
  /-- A carriage return and a newline. -/
  | returnNewline
  /-- The text ends there. -/
  | missing
  deriving DecidableEq

namespace LineEnd

/-- The characters of an end. -/
def chars : LineEnd → List Char
  | newline => ['\n']
  | returnNewline => ['\r', '\n']
  | missing => []

/-- The characters in front of a further line, which needs some end before it. -/
def separator : LineEnd → List Char
  | missing => ['\n']
  | lineEnd => lineEnd.chars

/-- The end of the last line of a text that ends in a newline, or that does not. -/
def ofTrailing (trailing : Bool) : LineEnd := if trailing then newline else missing

theorem ofTrailing_ne_returnNewline (trailing : Bool) : ofTrailing trailing ≠ returnNewline := by
  cases trailing <;> decide

theorem separator_eq_newline {lineEnd : LineEnd} (short : lineEnd ≠ returnNewline) :
    lineEnd.separator = ['\n'] := by
  cases lineEnd with
  | newline => rfl
  | returnNewline => exact absurd rfl short
  | missing => rfl

theorem chars_injective {first second : LineEnd} (same : first.chars = second.chars) :
    first = second := by
  cases first <;> cases second <;> first | rfl | cases same

end LineEnd

/-- A line with its end. -/
structure EndedLine where
  content : List Char
  lineEnd : LineEnd
  deriving DecidableEq

namespace EndedLine

/-- The line without its end. -/
def text (line : EndedLine) : String := String.ofList line.content

/-- The line with another end. -/
def withEnd (lineEnd : LineEnd) (line : EndedLine) : EndedLine := { line with lineEnd }

end EndedLine

/-! ## Cutting and joining -/

/-- The lines with a character in front of the first. -/
def consChar (c : Char) : List EndedLine → List EndedLine
  | [] => [⟨[c], .missing⟩]
  | first :: others => { first with content := c :: first.content } :: others

/-- The lines of a text, with their ends. -/
def endedChars : List Char → List EndedLine
  | [] => []
  | '\n' :: rest => ⟨[], .newline⟩ :: endedChars rest
  | '\r' :: '\n' :: rest => ⟨[], .returnNewline⟩ :: endedChars rest
  | c :: rest => consChar c (endedChars rest)

/-- The lines as one text. A line without an end gets a newline if another follows it. -/
def joinEnded : List EndedLine → List Char
  | [] => []
  | [line] => line.content ++ line.lineEnd.chars
  | line :: next :: others =>
    line.content ++ line.lineEnd.separator ++ joinEnded (next :: others)

/-- The lines of a text, with their ends. -/
def endedLines (text : String) : List EndedLine := endedChars text.toList

/-- The lines as one text. -/
def textOf (lines : List EndedLine) : String := String.ofList (joinEnded lines)

/-! ## The lines of a text are the text -/

theorem joinEnded_consChar (c : Char) (lines : List EndedLine) :
    joinEnded (consChar c lines) = c :: joinEnded lines := by
  match lines with
  | [] => rfl
  | [_] => rfl
  | _ :: _ :: _ => rfl

/-- An end that is there is followed by the rest of the text. -/
theorem joinEnded_cons_of_ne_missing {lineEnd : LineEnd} (present : lineEnd ≠ .missing)
    (content : List Char) (others : List EndedLine) :
    joinEnded (⟨content, lineEnd⟩ :: others) = content ++ lineEnd.chars ++ joinEnded others := by
  cases others with
  | nil => simp [joinEnded]
  | cons next others =>
    cases lineEnd with
    | missing => exact absurd rfl present
    | newline => rfl
    | returnNewline => rfl

theorem joinEnded_endedChars (chars : List Char) : joinEnded (endedChars chars) = chars := by
  -- The text is empty, or begins with one of the two ends, or with a character of its first line.
  fun_induction endedChars chars with
  | case1 => rfl
  | case2 rest ih =>
    rw [joinEnded_cons_of_ne_missing (by decide), ih]
    rfl
  | case3 rest ih =>
    rw [joinEnded_cons_of_ne_missing (by decide), ih]
    rfl
  | case4 c rest _ _ ih => rw [joinEnded_consChar, ih]

/-- **A text is given back by its lines with their ends.** -/
theorem textOf_endedLines (text : String) : textOf (endedLines text) = text := by
  rw [textOf, endedLines, joinEnded_endedChars, String.ofList_toList]

theorem map_content_endedChars (chars : List Char) :
    (endedChars chars).map EndedLine.content = lineChars chars := by
  fun_induction endedChars chars with
  | case1 => rfl
  | case2 rest ih => rw [List.map_cons, ih, lineChars]
  | case3 rest ih => rw [List.map_cons, ih, lineChars]
  | case4 c rest noNewline noReturn ih =>
    rw [lineChars, ← ih]
    · cases endedChars rest <;> rfl
    · exact noNewline
    · exact noReturn

theorem map_text_endedLines (text : String) :
    (endedLines text).map EndedLine.text = splitLines text := by
  rw [splitLines, ← map_content_endedChars, List.map_map]
  rfl

/-! ## The last end -/

theorem endedChars_eq_nil {chars : List Char} (empty : endedChars chars = []) : chars = [] := by
  rw [← joinEnded_endedChars chars, empty]
  rfl

/-- The end of the last line; without lines there is none. -/
def lastEnd (lines : List EndedLine) : LineEnd :=
  (lines.getLast?.map EndedLine.lineEnd).getD .missing

theorem lastEnd_cons (line : EndedLine) (others : List EndedLine) :
    lastEnd (line :: others) = if others = [] then line.lineEnd else lastEnd others := by
  cases others with
  | nil => rfl
  | cons next others => simp [lastEnd, List.getLast?_cons_cons]

theorem lastEnd_cons_of_mem {lineEnd : LineEnd} (line : EndedLine) {others : List EndedLine}
    (member : lineEnd ∈ others.map EndedLine.lineEnd) :
    lastEnd (line :: others) = lastEnd others := by
  rw [lastEnd_cons, if_neg (List.map_eq_nil_iff.not.mp (List.ne_nil_of_mem member))]

theorem lastEnd_consChar (c : Char) (lines : List EndedLine) :
    lastEnd (consChar c lines) = lastEnd lines := by
  cases lines with
  | nil => rfl
  | cons first others => rw [consChar, lastEnd_cons, lastEnd_cons]

/-- A newline in front of a text is its last character only if the text is empty. -/
theorem lastEnd_cons_endedChars {lineEnd : LineEnd} (present : lineEnd ≠ .missing)
    {rest : List Char}
    (ih : lastEnd (endedChars rest) = .missing ↔ rest.getLast? ≠ some '\n') :
    lastEnd (⟨[], lineEnd⟩ :: endedChars rest) = .missing ↔
      ('\n' :: rest).getLast? ≠ some '\n' := by
  rw [lastEnd_cons]
  split
  · next empty => simp [endedChars_eq_nil empty, present]
  · next more =>
    rw [ih]
    cases rest with
    | nil => exact absurd rfl more
    | cons d rest => rw [List.getLast?_cons_cons]

/-- A character in front of a line belongs to that line. -/
theorem map_lineEnd_consChar (c : Char) (lines : List EndedLine) :
    (consChar c lines).map EndedLine.lineEnd =
      if lines = [] then [.missing] else lines.map EndedLine.lineEnd := by
  cases lines <;> rfl

/-- The last line has no end exactly if the text does not end in a newline. -/
theorem lastEnd_endedChars (chars : List Char) :
    lastEnd (endedChars chars) = .missing ↔ chars.getLast? ≠ some '\n' := by
  fun_induction endedChars chars with
  | case1 => simp [lastEnd]
  | case2 rest ih => exact lastEnd_cons_endedChars (by decide) ih
  | case3 rest ih =>
    rw [List.getLast?_cons_cons]
    exact lastEnd_cons_endedChars (by decide) ih
  | case4 c rest noNewline noReturn ih =>
    rw [lastEnd_consChar, ih]
    cases rest with
    | nil => simpa using noNewline
    | cons d rest => rw [List.getLast?_cons_cons]

/-- Only the last line can be without an end. -/
theorem lastEnd_of_missing_mem {chars : List Char}
    (member : .missing ∈ (endedChars chars).map EndedLine.lineEnd) :
    lastEnd (endedChars chars) = .missing := by
  fun_induction endedChars chars with
  | case1 => rfl
  | case2 rest ih =>
    have behind := (List.mem_cons.mp member).resolve_left (by decide)
    rw [lastEnd_cons_of_mem _ behind, ih behind]
  | case3 rest ih =>
    have behind := (List.mem_cons.mp member).resolve_left (by decide)
    rw [lastEnd_cons_of_mem _ behind, ih behind]
  | case4 c rest noNewline noReturn ih =>
    rw [map_lineEnd_consChar] at member
    rw [lastEnd_consChar]
    split at member
    · next empty => rw [empty]; rfl
    · exact ih member

/-! ## One end for all lines -/

section OneEnd

variable {lineEnd : LineEnd} (short : lineEnd ≠ .returnNewline)
include short

theorem joinEnded_cons_cons (content : List Char) (next : EndedLine) (others : List EndedLine) :
    joinEnded (⟨content, lineEnd⟩ :: next :: others) =
      content ++ '\n' :: joinEnded (next :: others) := by
  rw [joinEnded, LineEnd.separator_eq_newline short, List.append_assoc]
  rfl

theorem joinEnded_map_withEnd (lines : List EndedLine) :
    joinEnded (lines.map (EndedLine.withEnd lineEnd)) =
      joinChars (lines.map EndedLine.content) ++ if lines = [] then [] else lineEnd.chars := by
  induction lines with
  | nil => rfl
  | cons line others ih =>
    cases others with
    | nil => simp [joinEnded, joinChars, EndedLine.withEnd]
    | cons next others =>
      rw [List.map_cons, List.map_cons, EndedLine.withEnd, joinEnded_cons_cons short,
        ← List.map_cons, ih]
      simp [joinChars]

/-- **Giving all lines one end** changes the text exactly if a line loses a carriage return or the
last line changes its end. -/
theorem joinEnded_map_withEnd_iff (lines : List EndedLine) :
    joinEnded (lines.map (EndedLine.withEnd lineEnd)) = joinEnded lines ↔
      (∀ line ∈ lines, line.lineEnd ≠ .returnNewline) ∧
        (lines ≠ [] → lastEnd lines = lineEnd) := by
  induction lines with
  | nil => simp
  | cons line others ih =>
    rw [lastEnd_cons]
    cases others with
    | nil =>
      have last : joinEnded [line.withEnd lineEnd] = joinEnded [line] ↔
          line.lineEnd = lineEnd := by
        simp only [joinEnded, EndedLine.withEnd, List.append_cancel_left_eq]
        exact ⟨fun same => (LineEnd.chars_injective same).symm, fun same => same ▸ rfl⟩
      simp only [List.map_cons, List.map_nil, last, List.mem_singleton, forall_eq, if_true]
      exact ⟨fun same => ⟨same ▸ short, fun _ => same⟩, fun both => both.2 (List.cons_ne_nil _ _)⟩
    | cons next others =>
      rw [List.map_cons, List.map_cons, EndedLine.withEnd, joinEnded_cons_cons short,
        ← List.map_cons]
      by_cases returns : line.lineEnd = .returnNewline
      · simp [joinEnded, returns, LineEnd.separator, LineEnd.chars]
      · rw [joinEnded_cons_cons returns, List.append_cancel_left_eq, List.cons.injEq, eq_self,
          true_and, ih]
        simp [returns]

end OneEnd

/-- Joined lines are lines that have all been given one end. -/
theorem joinLines_eq_textOf (lines : List EndedLine) (trailing : Bool) :
    joinLines (lines.map EndedLine.text) trailing =
      textOf (lines.map (EndedLine.withEnd (.ofTrailing trailing))) := by
  have contents : (lines.map EndedLine.text).map String.toList =
      lines.map EndedLine.content := by
    rw [List.map_map]
    exact List.map_congr_left fun line _ => String.toList_ofList
  rw [textOf, joinEnded_map_withEnd (LineEnd.ofTrailing_ne_returnNewline trailing), joinLines,
    unlines, contents]
  cases trailing <;> cases lines <;> simp [LineEnd.ofTrailing, LineEnd.chars, ← String.toList_inj]

/-- **Joined lines are the text of the lines** exactly if none of these loses a carriage return and
the last one ends as is asked for. -/
theorem joinLines_eq_textOf_iff (lines : List EndedLine) (trailing : Bool) :
    joinLines (lines.map EndedLine.text) trailing = textOf lines ↔
      (∀ line ∈ lines, line.lineEnd ≠ .returnNewline) ∧
        (lines ≠ [] → lastEnd lines = .ofTrailing trailing) := by
  rw [joinLines_eq_textOf, textOf, textOf, String.ofList_inj,
    joinEnded_map_withEnd_iff (LineEnd.ofTrailing_ne_returnNewline trailing)]

/-- Without carriage returns in ends, the last line ends as the text does. -/
theorem lastEnd_endedLines {text : String}
    (short : ∀ line ∈ endedLines text, line.lineEnd ≠ .returnNewline)
    (any : endedLines text ≠ []) :
    lastEnd (endedLines text) = .ofTrailing (endsInNewline text) := by
  have unended : lastEnd (endedLines text) = .missing ↔ text.toList.getLast? ≠ some '\n' :=
    lastEnd_endedChars text.toList
  cases last : lastEnd (endedLines text) with
  | newline =>
    have ended : text.toList.getLast? = some '\n' := by
      by_contra openEnd
      rw [unended.mpr openEnd] at last
      cases last
    rw [endsInNewline, ended]
    rfl
  | returnNewline =>
    rw [lastEnd, List.getLast?_eq_some_getLast any] at last
    exact absurd last (short _ (List.getLast_mem any))
  | missing =>
    have openEnd := unended.mp last
    simp [endsInNewline, openEnd, LineEnd.ofTrailing]

/-- A line ends in a carriage return and a newline exactly if these stand next to each other. -/
theorem returnNewline_mem_iff (chars : List Char) :
    .returnNewline ∈ (endedChars chars).map EndedLine.lineEnd ↔ ['\r', '\n'] <:+: chars := by
  fun_induction endedChars chars with
  | case1 => simp
  | case2 rest ih => rw [List.map_cons, List.mem_cons, ih, List.infix_cons_iff]; simp
  | case3 rest ih => simp [List.infix_cons_iff]
  | case4 c rest noNewline noReturn ih =>
    have apart : ¬ ['\r', '\n'] <+: c :: rest := by
      rintro ⟨after, same⟩
      cases same
      exact noReturn after rfl rfl
    rw [map_lineEnd_consChar, List.infix_cons_iff, or_iff_right apart, ← ih]
    split
    · next empty => simp [empty]
    · rfl

/-- The lines of a text end in newlines alone if the text does and holds no carriage return in front of
a newline. -/
theorem lineEnd_of_plain {text : String} (short : ¬ ['\r', '\n'] <:+: text.toList)
    (ended : endsInNewline text = true) {line : EndedLine} (member : line ∈ endedLines text) :
    line.lineEnd = .newline := by
  have among : line.lineEnd ∈ (endedChars text.toList).map EndedLine.lineEnd :=
    List.mem_map_of_mem member
  cases kind : line.lineEnd with
  | newline => rfl
  | returnNewline => exact absurd ((returnNewline_mem_iff _).mp (kind ▸ among)) short
  | missing =>
    have openEnd := (lastEnd_endedChars _).mp (lastEnd_of_missing_mem (kind ▸ among))
    exact absurd (of_decide_eq_true ended) openEnd

/-- **Cutting a text and joining its lines is the identity** exactly on the texts without a carriage
return in front of a newline. -/
theorem joinLines_splitLines_iff (text : String) :
    joinLines (splitLines text) (endsInNewline text) = text ↔
      ¬ ['\r', '\n'] <:+: text.toList := by
  have joined := joinLines_eq_textOf_iff (endedLines text) (endsInNewline text)
  rw [map_text_endedLines, textOf_endedLines] at joined
  rw [joined, and_iff_left_of_imp lastEnd_endedLines, ← returnNewline_mem_iff]
  simp [endedLines]

end StrategyMend.Text
