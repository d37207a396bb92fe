import StrategyMend.Proofs.Python.Position

/-!
# Gaps of idle lines

A gap passes blank characters (`Gap.scan_blank`), comments (`Gap.scan_comment`) and so whole lines with
nothing else on them (`Gap.scan_idle`). It ends at the first other character (`Gap.scan_visible`), which
stands in the column that the blanks before it make (`Cursor.lookahead_idle`).
-/

set_option autoImplicit false

namespace StrategyMend.Python

/-! ## Characters of a gap -/

/-- Passes a blank character. -/
def GapState.blank (state : GapState) (c : Char) : GapState :=
  if c = ' ' then { state with column := state.column + 1 }
  else if c = '\t' then { state with column := state.column + 8 }
  else if c = '\r' || c = '\x0c' then { state with column := 0 }
  else { state with hidden := true }

variable {state : GapState} {c : Char} {rest text : List Char}

theorem ne_backslash_of_isGapChar (blank : isGapChar c = true) : c ≠ '\\' := by
  rintro rfl
  cases blank

/-- Blank characters that do not hide the line breaks after them. -/
def isSoft (c : Char) : Bool := c = ' ' || c = '\t' || c = '\r' || c = '\x0c'

theorem isGapChar_of_isSoft (soft : isSoft c = true) : isGapChar c = true := by
  rw [isGapChar, show (_ || _ || _ || _) = isSoft c from rfl, soft]
  rfl

/-- The column behind a margin. -/
def marginColumn (margin : List Char) : Nat :=
  margin.foldr (fun c column => (if c = '\t' then 8 else 1) + column) 0

/-- Whether a line has only blank characters and perhaps a comment. -/
def isIdle (line : List Char) : Bool := (line.dropWhile isSoft).head?.all fun c => c = '#'

namespace Gap

theorem scan_blank (blank : isGapChar c = true) (state : GapState) (rest : List Char) :
    scan false state (c :: rest) = scan false (state.blank c) rest := by
  have newline : c ≠ '\n' := ne_newline (by decide) blank
  have backslash := ne_backslash_of_isGapChar blank
  rw [scan]
  · simp only [Bool.false_eq_true, if_false, GapState.blank, apply_ite (fun next => scan false next rest)]
    split
    · rfl
    · split
      · rfl
      · split
        · rfl
        · rename_i space tab returns
          have hides : isHiding c = true := by simpa [isGapChar, space, tab, returns] using blank
          rw [if_pos hides]
  · exact newline
  · exact fun _ same => absurd same backslash
  · exact fun _ same => absurd same backslash

/-- A gap ends at the first character that is neither blank nor begins a comment. -/
theorem scan_visible (visible : isGapChar c = false ∧ c ≠ '\n') (code : c ≠ '#') (plain : c ≠ '\\')
    (state : GapState) (rest : List Char) : scan false state (c :: rest) = state.finish (c :: rest) := by
  have solid := visible.1
  simp only [isGapChar, Bool.or_eq_false_iff, decide_eq_false_iff_not] at solid
  rw [scan]
  · simp [solid, code, plain]
  · exact visible.2
  · exact fun _ same => absurd same plain
  · exact fun _ same => absurd same plain

/-- A comment ends with its line. -/
theorem scan_comment (comment : List Char) (free : '\n' ∉ comment) (state : GapState)
    (rest : List Char) :
    scan true state (comment ++ '\n' :: rest) = scan false state.newline rest := by
  induction comment with
  | nil => rfl
  | cons c comment ih =>
    rw [List.mem_cons, not_or] at free
    have others := ih free.2
    -- A backslash takes the line break with it, here as elsewhere; but a comment ends there anyway.
    by_cases returns : c = '\\' ∧ (comment = [] ∨ comment = ['\r'])
    · obtain ⟨rfl, rfl | rfl⟩ := returns
      · rfl
      · rfl
    · rw [List.cons_append, scan]
      · exact others
      · exact Ne.symm free.1
      · rintro after rfl same
        cases comment with
        | nil => exact returns ⟨rfl, .inl rfl⟩
        | cons d comment =>
          obtain rfl : d = '\n' := (List.cons.inj same).1
          exact free.2 List.mem_cons_self
      · rintro after rfl same
        cases comment with
        | nil => exact returns ⟨rfl, .inl rfl⟩
        | cons d comment =>
          obtain ⟨rfl, more⟩ : d = '\r' ∧ _ := List.cons.inj same
          cases comment with
          | nil => exact returns ⟨rfl, .inr rfl⟩
          | cons e comment =>
            obtain rfl : e = '\n' := (List.cons.inj more).1
            exact free.2 (.tail _ List.mem_cons_self)

/-- Blank characters do not tell of a line break, nor do those that are not hiding hide one. -/
theorem scan_soft (blanks : List Char) (soft : ∀ c ∈ blanks, isSoft c = true)
    (columns : List Nat) (column : Nat) (broken : Bool) (row : Nat) (rest : List Char) :
    ∃ column', scan false ⟨columns, column, broken, false, row⟩ (blanks ++ rest) =
      scan false ⟨columns, column', broken, false, row⟩ rest := by
  induction blanks generalizing column with
  | nil => exact ⟨column, rfl⟩
  | cons c blanks ih =>
    have others := fun d member => soft d (List.mem_cons_of_mem c member)
    have here := soft c List.mem_cons_self
    rw [List.cons_append, scan_blank (isGapChar_of_isSoft here)]
    simp only [isSoft, Bool.or_eq_true, decide_eq_true_eq] at here
    rcases here with ((rfl | rfl) | rfl) | rfl
    · exact ih others _
    · exact ih others _
    · exact ih others _
    · exact ih others _

/-- **A line without a statement is passed,** and the next one begins at the margin. -/
theorem scan_idle (line : List Char) (free : '\n' ∉ line) (idle : isIdle line = true)
    (columns : List Nat) (column : Nat) (broken : Bool) (row : Nat) (rest : List Char) :
    ∃ columns', scan false ⟨columns, column, broken, false, row⟩ (line ++ '\n' :: rest) =
      scan false ⟨columns', 0, true, false, row + 1⟩ rest := by
  have whole : line = line.takeWhile isSoft ++ line.dropWhile isSoft :=
    List.takeWhile_append_dropWhile.symm
  have plain : '\n' ∉ line.dropWhile isSoft := fun member =>
    free (whole ▸ List.mem_append_right _ member)
  have soft := fun c (member : c ∈ line.takeWhile isSoft) => List.mem_takeWhile_imp member
  rw [isIdle] at idle
  rw [whole, List.append_assoc]
  obtain ⟨column', blanks⟩ := scan_soft _ soft columns column broken row
    (line.dropWhile isSoft ++ '\n' :: rest)
  rw [blanks]
  cases shown : line.dropWhile isSoft with
  | nil => exact ⟨columns, by rw [List.nil_append, scan, GapState.newline]; simp⟩
  | cons c comment =>
    rw [shown] at idle plain
    obtain rfl : c = '#' := by simpa using idle
    have free := fun member => plain (List.mem_cons_of_mem '#' member)
    have opens (state : GapState) (rest : List Char) : scan false state ('#' :: rest) =
        scan true { state.mark with broken := false, hidden := false, column := 0 } rest := by
      rw [scan]
      · rfl
      · exact fun same => absurd same (by decide)
      · exact fun _ same => absurd same (by decide)
      · exact fun _ same => absurd same (by decide)
    rw [List.cons_append, opens, scan_comment comment free, GapState.newline]
    exact ⟨_, by rw [GapState.row_mark]; rfl⟩

/-- So are several such lines. -/
theorem scan_idles (lines : List (List Char)) (some : lines ≠ [])
    (idle : ∀ line ∈ lines, '\n' ∉ line ∧ isIdle line = true) (columns : List Nat) (column : Nat)
    (broken : Bool) (row : Nat) (rest : List Char) :
    ∃ columns', scan false ⟨columns, column, broken, false, row⟩
        (lines.flatMap (fun line => line ++ ['\n']) ++ rest) =
      scan false ⟨columns', 0, true, false, row + lines.length⟩ rest := by
  induction lines generalizing columns column broken row with
  | nil => exact absurd rfl some
  | cons line lines ih =>
    obtain ⟨free, here⟩ := idle line List.mem_cons_self
    obtain ⟨columns', first⟩ := scan_idle line free here columns column broken row
      (lines.flatMap (fun line => line ++ ['\n']) ++ rest)
    have whole : (line :: lines).flatMap (fun line => line ++ ['\n']) ++ rest =
        line ++ '\n' :: (lines.flatMap (fun line => line ++ ['\n']) ++ rest) := by
      simp
    rw [whole, first]
    by_cases last : lines = []
    · exact ⟨columns', by rw [last]; rfl⟩
    · obtain ⟨columns'', others⟩ := ih last (fun line member => idle line (.tail _ member)) columns' 0
        true (row + 1)
      refine ⟨columns'', ?_⟩
      rw [others, List.length_cons, Nat.add_assoc, Nat.add_comm 1]

/-- A margin of tabulators and spaces makes a column. -/
theorem scan_margin (margin : List Char) (blank : ∀ c ∈ margin, c = ' ' ∨ c = '\t')
    (state : GapState) (rest : List Char) :
    scan false state (margin ++ rest) =
      scan false { state with column := state.column + marginColumn margin } rest := by
  induction margin generalizing state with
  | nil => rfl
  | cons c margin ih =>
    have others := ih fun d member => blank d (List.mem_cons_of_mem c member)
    rcases blank c List.mem_cons_self with rfl | rfl
    · rw [List.cons_append, scan_blank rfl, others]
      simp [GapState.blank, marginColumn, Nat.add_assoc]
    · rw [List.cons_append, scan_blank rfl, others]
      simp [GapState.blank, marginColumn, Nat.add_assoc]

end Gap

/-- **Behind idle lines the next lexeme begins a line,** in the column of its margin. -/
theorem Cursor.lookahead_idle {cursor : Cursor} {lines : List (List Char)} {margin shown : List Char}
    (text : cursor.rest = lines.flatMap (fun line => line ++ ['\n']) ++ (margin ++ c :: shown))
    (some : lines ≠ []) (idle : ∀ line ∈ lines, '\n' ∉ line ∧ isIdle line = true)
    (blank : ∀ c ∈ margin, c = ' ' ∨ c = '\t') (visible : isGapChar c = false ∧ c ≠ '\n')
    (code : c ≠ '#') (plain : c ≠ '\\') :
    cursor.lookahead.2 = c :: shown ∧ cursor.lookahead.1.row = cursor.row + lines.length ∧
      cursor.lookahead.1.column? = .some (marginColumn margin) := by
  obtain ⟨columns, passed⟩ := Gap.scan_idles lines some idle [] 0 false cursor.row
    (margin ++ c :: shown)
  rw [← text, Gap.scan_margin margin blank, Gap.scan_visible visible code plain, Nat.zero_add] at passed
  rw [Cursor.lookahead, passed]
  refine ⟨rfl, rfl, ?_⟩
  simp [Lookahead.column?, GapState.finish, GapState.mark]

end StrategyMend.Python
