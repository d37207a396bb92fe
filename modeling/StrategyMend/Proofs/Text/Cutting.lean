import Mathlib.Data.List.Basic
import StrategyMend.Text.Lines

/-!
# Cutting a text into lines

How the lines of a text come about from its front: a character belongs to the first line
(`lineChars_cons`), and so do all characters up to the first newline (`lineChars_append`), apart from a
carriage return in front of it. So no line holds a newline (`newline_not_mem_lineChars`).
-/

set_option autoImplicit false

namespace StrategyMend.Text

/-- A character in front of a text belongs to its first line, unless it belongs to a line end. -/
theorem lineChars_cons {c : Char} {rest : List Char} (plain : c ≠ '\n')
    (inside : c = '\r' → rest.head? ≠ some '\n') :
    lineChars (c :: rest) = (c :: (lineChars rest).headD []) :: (lineChars rest).tail := by
  have apart : ∀ more, c = '\r' → rest = '\n' :: more → False := by
    rintro more carriage rfl
    exact inside carriage rfl
  rw [lineChars.eq_4 c rest plain apart]
  cases lineChars rest with
  | nil => rfl
  | cons first others => rfl

/-- A character in front of a text that is no line break changes the first line only. -/
theorem tail_lineChars_cons {c : Char} (plain : c ≠ '\n') (rest : List Char) :
    (lineChars (c :: rest)).tail = (lineChars rest).tail := by
  by_cases inside : c = '\r' → rest.head? ≠ some '\n'
  · rw [lineChars_cons plain inside, List.tail_cons]
  · obtain ⟨rfl, newline⟩ : c = '\r' ∧ rest.head? = some '\n' := by simpa using inside
    obtain ⟨more, rfl⟩ := List.head?_eq_some_iff.mp newline
    rfl

/-- Behind a line break the lines are those of what follows. -/
theorem drop_lineChars (above rest : List Char) :
    (lineChars (above ++ '\n' :: rest)).drop (above.count '\n' + 1) = lineChars rest := by
  induction above with
  | nil => rfl
  | cons c above ih =>
    by_cases newline : c = '\n'
    · subst newline
      rw [List.count_cons_self]
      exact ih
    · rw [List.count_cons_of_ne newline, ← ih, List.cons_append, ← List.drop_tail, ← List.drop_tail,
        tail_lineChars_cons newline]

/-- Characters of a line in front of the rest of the text. -/
theorem lineChars_append {left rest first : List Char} {others : List (List Char)}
    (free : '\n' ∉ left) (plain : rest.head? ≠ some '\n') (lines : lineChars rest = first :: others) :
    lineChars (left ++ rest) = (left ++ first) :: others := by
  induction left with
  | nil => exact lines
  | cons c left ih =>
    obtain ⟨plain', free⟩ : c ≠ '\n' ∧ '\n' ∉ left := by simpa [eq_comm] using free
    have inside : c = '\r' → (left ++ rest).head? ≠ some '\n' := by
      intro _
      cases left with
      | nil => exact plain
      | cons d left =>
        rintro ⟨⟩
        exact free List.mem_cons_self
    rw [List.cons_append, lineChars_cons plain' inside, ih free]
    rfl

/-- A text begins with its first line. -/
theorem exists_lineChars {rest : List Char} (present : rest ≠ []) :
    ∃ first tail others, lineChars rest = first :: others ∧ rest = first ++ tail := by
  fun_induction lineChars rest with
  | case1 => exact absurd rfl present
  | case2 rest _ => exact ⟨[], _, _, rfl, rfl⟩
  | case3 rest _ => exact ⟨[], _, _, rfl, rfl⟩
  | case4 c rest _ _ none ih => exact ⟨[c], rest, [], rfl, rfl⟩
  | case5 c rest _ _ first others lines ih =>
    have there : rest ≠ [] := by
      rintro rfl
      cases lines
    obtain ⟨first', tail, others', same, split⟩ := ih there
    rw [lines] at same
    cases same
    exact ⟨c :: first, tail, others, rfl, by rw [split]; rfl⟩

/-- A carriage return and a newline end the first line. -/
theorem lineChars_append_crlf {line : List Char} (free : '\n' ∉ line) (rest : List Char) :
    lineChars (line ++ '\r' :: '\n' :: rest) = line :: lineChars rest := by
  have ended : lineChars ('\r' :: '\n' :: rest) = [] :: lineChars rest := rfl
  rw [lineChars_append free (by simp) ended, List.append_nil]

/-- A newline ends the first line. -/
theorem lineChars_append_newline {line : List Char} (free : '\n' ∉ line)
    (ends : line.getLast? ≠ some '\r') (rest : List Char) :
    lineChars (line ++ '\n' :: rest) = line :: lineChars rest := by
  induction line with
  | nil => rfl
  | cons c line ih =>
    obtain ⟨plain, free'⟩ : c ≠ '\n' ∧ '\n' ∉ line := by simpa [eq_comm] using free
    cases line with
    | nil =>
      rw [List.cons_append, lineChars_cons plain fun carriage => absurd (carriage ▸ rfl) ends]
      rfl
    | cons d line =>
      have inside : c = '\r' → (d :: line ++ '\n' :: rest).head? ≠ some '\n' := by
        rintro - ⟨⟩
        exact free' List.mem_cons_self
      rw [List.getLast?_cons_cons] at ends
      rw [List.cons_append, lineChars_cons plain inside, ih free' ends]
      rfl

/-- A text without newlines is one line. -/
theorem lineChars_of_not_mem {line : List Char} (free : '\n' ∉ line) (any : line ≠ []) :
    lineChars line = [line] := by
  induction line with
  | nil => exact absurd rfl any
  | cons c line ih =>
    obtain ⟨plain, free'⟩ : c ≠ '\n' ∧ '\n' ∉ line := by simpa [eq_comm] using free
    have inside : c = '\r' → line.head? ≠ some '\n' :=
      fun _ first => free' (List.mem_of_head? first)
    rw [lineChars_cons plain inside]
    cases line with
    | nil => rfl
    | cons d line =>
      rw [ih free' (List.cons_ne_nil d line)]
      rfl

/-- Behind the first line the text ends, or the other lines come behind the end of that line. -/
theorem lineChars_eq_cons {rest first : List Char} {others : List (List Char)}
    (lines : lineChars rest = first :: others) :
    (rest = first ∧ others = []) ∨ ∃ blanks more, rest = first ++ (blanks ++ '\n' :: more) ∧
      (blanks = [] ∨ blanks = ['\r']) ∧ others = lineChars more := by
  fun_induction lineChars rest generalizing first with
  | case1 => cases lines
  | case2 rest _ =>
    cases lines
    exact .inr ⟨[], rest, rfl, .inl rfl, rfl⟩
  | case3 rest _ =>
    cases lines
    exact .inr ⟨['\r'], rest, rfl, .inr rfl, rfl⟩
  | case4 c rest _ _ none _ =>
    cases lines
    refine .inl ⟨?_, rfl⟩
    by_cases present : rest = []
    · rw [present]
    · obtain ⟨first, tail, others, some, -⟩ := exists_lineChars present
      rw [none] at some
      cases some
  | case5 c rest _ _ start others' cut ih =>
    cases lines
    rcases ih cut with ⟨rfl, rfl⟩ | ⟨blanks, more, rfl, blank, rfl⟩
    · exact .inl ⟨rfl, rfl⟩
    · exact .inr ⟨blanks, more, rfl, blank, rfl⟩

theorem newline_not_mem_lineChars (chars : List Char) : ∀ line ∈ lineChars chars, '\n' ∉ line := by
  fun_induction lineChars chars with
  | case1 => exact List.forall_mem_nil _
  | case2 rest ih => simpa using ih
  | case3 rest ih => simpa using ih
  | case4 c rest noNewline noReturn empty ih => simpa [eq_comm] using noNewline
  | case5 c rest noNewline noReturn first others cut ih =>
    rw [cut] at ih
    rintro line (_ | ⟨_, member⟩)
    · rw [List.mem_cons, not_or]
      exact ⟨fun same => noNewline same.symm, ih first List.mem_cons_self⟩
    · exact ih line (List.mem_cons_of_mem first member)

/-- No line of a text holds a newline. -/
theorem newline_not_mem_splitLines {text : String} : ∀ line ∈ splitLines text, '\n' ∉ line.toList := by
  intro line member
  obtain ⟨chars, cut, rfl⟩ := List.mem_map.mp member
  rw [String.toList_ofList]
  exact newline_not_mem_lineChars text.toList chars cut

end StrategyMend.Text
