import StrategyMend.Proofs.Python.Beginnings
import StrategyMend.Proofs.Python.Brackets

/-!
# Heads without strings

A head is plain if it has no strings, comments and backslashes (`IsPlainHead`). Its lexemes then open
and close just the brackets among its characters, so reading such a head keeps to a track
(`Track.through`), and the colon behind it is the first one outside of brackets
(`Cursor.Heads.rest_eq`).
-/

set_option autoImplicit false

namespace StrategyMend.Python

/-- A head without strings, comments and backslashes. All colons in it stand in brackets, and so do the
places where a word may be `lambda`. -/
structure IsPlainHead (head : List Char) : Prop where
  visible : IsVisible head
  plain : ∀ c ∈ head, isPlainChar c = true ∨ c = '\n'
  closed : openBrackets head = 0
  colons : ∀ passed, passed ++ [':'] <+: head → 0 < openBrackets passed
  lambdas : ∀ passed, passed ++ "lambda".toList <+: head → 0 < openBrackets passed

/-- Where no bracket is open, nothing stands in a text that begins with the mark. -/
def avoids (mark head : List Char) : Bool :=
  (List.range (head.length + 1)).all fun count =>
    decide (0 < openBrackets (head.take count)) || !mark.isPrefixOf (head.drop count)

theorem avoids_iff {mark head : List Char} : avoids mark head = true ↔
    ∀ passed, passed ++ mark <+: head → 0 < openBrackets passed := by
  simp only [avoids, List.all_eq_true, List.mem_range, Bool.or_eq_true, decide_eq_true_eq,
    Bool.not_eq_true']
  constructor
  · rintro places passed ⟨left, rfl⟩
    have here := places passed.length (by simp only [List.length_append]; omega)
    rw [List.append_assoc, List.take_left, List.drop_left] at here
    refine here.resolve_right fun outside => ?_
    rw [List.isPrefixOf_iff_prefix.mpr (List.prefix_append mark left)] at outside
    cases outside
  · intro outside count _
    cases begins : mark.isPrefixOf (head.drop count) with
    | false => exact .inr rfl
    | true =>
      obtain ⟨left, split⟩ := List.isPrefixOf_iff_prefix.mp begins
      refine .inl (outside _ ⟨left, ?_⟩)
      rw [List.append_assoc, split, List.take_append_drop]

instance (head : List Char) : Decidable (IsPlainHead head) :=
  decidable_of_iff (head.head?.all (fun c => isGapChar c = false ∧ c ≠ '\n') = true ∧
      (head.all fun c => isPlainChar c || c = '\n') = true ∧ openBrackets head = 0 ∧
        avoids [':'] head = true ∧ avoids "lambda".toList head = true) (by
    rw [avoids_iff, avoids_iff]
    constructor
    · rintro ⟨visible, plain, closed, colons, lambdas⟩
      exact ⟨by simpa [IsVisible, Option.all_eq_true] using visible, by simpa using plain, closed,
        colons, lambdas⟩
    · rintro ⟨visible, plain, closed, colons, lambdas⟩
      exact ⟨by simpa [IsVisible, Option.all_eq_true] using visible, by simpa using plain, closed,
        colons, lambdas⟩)

example : IsPlainHead "def __init__(self, size: int = (1,\n  2))".toList := by decide +kernel

/-- Before a character that ends it, a gap of a plain text only has blanks and line breaks. -/
theorem Gap.rest_scan_plain {left : List Char} (plain : ∀ c ∈ left, isPlainChar c = true ∨ c = '\n')
    {last : Char} (ends : isPlainChar last = true ∧ isGapChar last = false) (state : GapState)
    (after : List Char) :
    ∃ blanks shown, left = blanks ++ shown ∧ (∀ c ∈ blanks, isGapChar c = true ∨ c = '\n') ∧
      (scan false state (left ++ last :: after)).rest = shown ++ last :: after := by
  have stops {c : Char} (code : isPlainChar c = true) (solid : isGapChar c = false)
      (state : GapState) (rest : List Char) : (scan false state (c :: rest)).rest = c :: rest := by
    simp only [isPlainChar, Bool.not_eq_true', List.contains_eq_mem, decide_eq_false_iff_not,
      List.mem_cons, List.not_mem_nil, or_false, not_or] at code
    rw [scan_visible ⟨solid, code.1⟩ code.2.2.2.2.1 code.2.2.2.2.2]
    rfl
  induction left generalizing state with
  | nil => exact ⟨[], [], rfl, by simp, stops ends.1 ends.2 state after⟩
  | cons c left ih =>
    have others := ih fun d member => plain d (List.mem_cons_of_mem c member)
    by_cases blank : isGapChar c = true
    · obtain ⟨blanks, shown, rfl, gap, rest⟩ := others (state.blank c)
      refine ⟨c :: blanks, shown, rfl, List.forall_mem_cons.mpr ⟨.inl blank, gap⟩, ?_⟩
      rw [← rest, List.cons_append, scan_blank blank]
    · rcases plain c List.mem_cons_self with code | rfl
      · exact ⟨[], c :: left, rfl, by simp, stops code (by simpa using blank) state _⟩
      · obtain ⟨blanks, shown, rfl, gap, rest⟩ := others state.newline
        exact ⟨'\n' :: blanks, shown, rfl, List.forall_mem_cons.mpr ⟨.inr rfl, gap⟩, rest⟩

/-! ## The track of a head -/

section Through

variable (head after : List Char)

/-- The cursor stands in the head, or at the colon behind it, inside of so many brackets. -/
def InHead (depth : Nat) (cursor : Cursor) : Prop :=
  ∃ passed left, head = passed ++ left ∧ cursor.rest = left ++ ':' :: after ∧
    openBrackets passed = depth

variable {head after} {depth depth' : Nat} {cursor : Cursor} {ahead : Lookahead}

/-- So does the next lexeme. -/
theorem InHead.lookahead (plain : IsPlainHead head) (here : InHead head after depth cursor) :
    ∃ passed left, head = passed ++ left ∧ cursor.lookahead.2 = left ++ ':' :: after ∧
      openBrackets passed = depth := by
  obtain ⟨passed, left, rfl, rest, brackets⟩ := here
  obtain ⟨blanks, shown, rfl, blank, scanned⟩ := Gap.rest_scan_plain
    (fun c member => plain.plain c (List.mem_append_right _ member))
    (⟨rfl, rfl⟩ : isPlainChar ':' = true ∧ isGapChar ':' = false) ⟨[], 0, false, false, cursor.row⟩ after
  refine ⟨passed ++ blanks, shown, (List.append_assoc _ _ _).symm, ?_, ?_⟩
  · rw [← scanned, ← rest]
    rfl
  · rw [openBrackets_append, brackets, openBrackets_of_blank blank, Int.add_zero]

/-- A part of the text before which no colon comes lies in the head. -/
theorem eq_append_of_no_colon {left past rest : List Char} (same : left ++ ':' :: after = past ++ rest)
    (free : ':' ∉ past) : ∃ more, left = past ++ more ∧ rest = more ++ ':' :: after := by
  rcases List.append_eq_append_iff.mp same with ⟨more, rfl, colon⟩ | ⟨more, rfl, rest⟩
  · cases more with
    | nil => exact ⟨[], by simp, by simpa using colon.symm⟩
    | cons c more =>
      obtain rfl : ':' = c := (List.cons.inj colon).1
      exact absurd (by simp) free
  · exact ⟨more, rfl, rest⟩

/-- No string begins in the head. -/
theorem ne_stringStart_of_plain (plain : IsPlainHead head) {passed left : List Char}
    (same : head = passed ++ left) {form : StringForm} :
    (Lexeme.read (left ++ ':' :: after)).1 ≠ .stringStart form := by
  intro opened
  obtain ⟨flags, quote, rest, text, letters, quotes⟩ := Lexeme.exists_quote_of_read opened
  obtain ⟨more, rfl, behind⟩ := eq_append_of_no_colon text fun member => nomatch letters ':' member
  cases more with
  | nil =>
    obtain rfl : quote = ':' := (List.cons.inj behind).1
    cases quotes
  | cons c more =>
    obtain rfl : quote = c := (List.cons.inj behind).1
    have plain := plain.plain quote (by rw [same]; simp)
    simp only [List.contains_eq_mem, decide_eq_true_eq, List.mem_cons, List.not_mem_nil,
      or_false] at quotes
    rcases quotes with rfl | rfl | rfl
    all_goals simp [isPlainChar] at plain

/-- A lexeme that is passed in the head ends in the head. -/
theorem eq_append_of_moves (plain : IsPlainHead head) (assigned : after.head? ≠ some '=')
    {passed left : List Char} (same : head = passed ++ left) (brackets : openBrackets passed = depth)
    (moves : (Lexeme.read (left ++ ':' :: after)).1.Moves False depth depth') :
    ∃ past more, left = past ++ more ∧
      (Lexeme.read (left ++ ':' :: after)).2 = more ++ ':' :: after ∧
        depth + openBrackets past = depth' := by
  obtain ⟨past, text, passes⟩ := Lexeme.passes_of_moves moves
  by_cases free : ':' ∈ past
  · have open_ {tail : List Char} (begins : past = ':' :: tail) (single : ':' ∉ tail)
        (inside : left ≠ []) : ∃ more, left = past ++ more ∧
          (Lexeme.read (left ++ ':' :: after)).2 = more ++ ':' :: after := by
      obtain ⟨c, rest, rfl⟩ := List.exists_cons_of_ne_nil inside
      rw [begins] at text ⊢
      obtain ⟨rfl, text⟩ := List.cons.inj text
      obtain ⟨more, rfl, rest⟩ := eq_append_of_no_colon text single
      exact ⟨more, rfl, rest⟩
    have inside : left ≠ [] := by
      rintro rfl
      rcases passes.colon free with ⟨lexeme, rfl⟩ | rfl
      · -- The colon behind the head is not passed outside of brackets.
        rw [List.append_nil] at same
        have outside : depth = 0 := by
          have closed := plain.closed
          rw [same, brackets] at closed
          exact Int.ofNat_eq_zero.mp closed
        rw [lexeme] at moves
        cases moves with
        | flat flat => cases flat
        | colon allowed => exact absurd allowed (by simp [outside])
        | opening opens => cases opens
        | closing closes => cases closes
      · have second := (List.cons.inj text).2
        exact assigned (by rw [second]; rfl)
    obtain ⟨more, same, rest⟩ : ∃ more, left = past ++ more ∧
        (Lexeme.read (left ++ ':' :: after)).2 = more ++ ':' :: after := by
      rcases passes.colon free with ⟨-, begins⟩ | begins
      · exact open_ begins nofun inside
      · exact open_ begins (by decide) inside
    exact ⟨past, more, same, rest, passes.brackets⟩
  · obtain ⟨more, rfl, rest⟩ := eq_append_of_no_colon text free
    exact ⟨past, more, rfl, rest, passes.brackets⟩

/-- A word of the head is there character by character. -/
theorem isPrefix_of_word {left : List Char} {word : String} (free : ':' ∉ word.toList)
    (lexeme : (Lexeme.read (left ++ ':' :: after)).1 = .word word) : word.toList <+: left := by
  obtain ⟨more, rfl, -⟩ := eq_append_of_no_colon (Lexeme.eq_append_of_word lexeme).1 free
  exact List.prefix_append _ _

/-- The cursors of a plain head. -/
def Track.through (plain : IsPlainHead head) (assigned : after.head? ≠ some '=') : Track where
  On := InHead head after
  colons := False
  passes := by
    rintro depth depth' ahead ⟨cursor, place, here, -, seen⟩ moves
    obtain ⟨passed, left, same, text, brackets⟩ := here.lookahead plain
    rcases Cursor.peek?_cases seen with rfl | ⟨lineBreak, -, -⟩
    · have lexeme : cursor.lookahead.1.lexeme = (Lexeme.read cursor.lookahead.2).1 := rfl
      rw [lexeme, text] at moves
      obtain ⟨past, more, rfl, rest, total⟩ := eq_append_of_moves plain assigned same brackets moves
      refine ⟨passed ++ past, more, by rw [same, List.append_assoc], ?_, ?_⟩
      · rw [← rest, ← text]
        rfl
      · rw [openBrackets_append, brackets, total]
    · rw [lineBreak] at moves
      cases moves
  lambdas := by
    rintro depth ahead ⟨cursor, place, here, -, seen⟩ lambda
    obtain ⟨passed, left, same, text, brackets⟩ := here.lookahead plain
    have lexeme := Lookahead.lexeme_of_isWord lambda
    rcases Cursor.peek?_cases seen with rfl | ⟨lineBreak, -, -⟩
    · change (Lexeme.read cursor.lookahead.2).1 = _ at lexeme
      rw [text] at lexeme
      obtain ⟨more, rfl⟩ := isPrefix_of_word (by decide) lexeme
      have inside := plain.lambdas passed ⟨more, by rw [same, List.append_assoc]⟩
      rw [brackets] at inside
      exact .inl (Int.natCast_pos.mp inside)
    · rw [lineBreak] at lexeme
      cases lexeme
  stars := by
    rintro depth cursor ⟨passed, left, same, rest, brackets⟩ star
    rw [rest] at star
    cases left with
    | nil => cases star
    | cons c left =>
      obtain rfl : c = '*' := Option.some.inj star
      refine ⟨passed ++ ['*'], left, by simp [same], by simp [rest], ?_⟩
      rw [openBrackets_append, brackets]
      rfl

/-- There are no strings in a plain head. -/
theorem Track.readsStrings_through (plain : IsPlainHead head) (assigned : after.head? ≠ some '=') :
    (Track.through plain assigned).ReadsStrings := by
  rintro self - - depth ahead form ⟨cursor, place, here, -, seen⟩ opened
  obtain ⟨passed, left, same, text, -⟩ := here.lookahead plain
  rcases Cursor.peek?_cases seen with rfl | ⟨lineBreak, -, -⟩
  · change (Lexeme.read cursor.lookahead.2).1 = _ at opened
    rw [text] at opened
    exact absurd opened (ne_stringStart_of_plain plain same)
  · rw [lineBreak] at opened
    cases opened

/-- **The colon of a header is the first one behind its plain head.** -/
theorem Cursor.Heads.rest_eq {start behind : Cursor} {keyword : String}
    (heads : start.Heads keyword behind) (plain : IsPlainHead head)
    (assigned : after.head? ≠ some '=') (text : start.lookahead.2 = head ++ ':' :: after) :
    behind.rest = after := by
  have here : (Track.through plain assigned).On 0 start.settled := ⟨[], head, rfl, text, rfl⟩
  cases heads with | @intro cursor colon within seen isColon => ?_
  obtain ⟨begun, announces, reaches⟩ := within
  have last := reaches _ (Track.readsStrings_through plain assigned) (announces.along here)
  obtain ⟨passed, left, same, text, brackets⟩ := InHead.lookahead plain last
  have lexeme := Lookahead.lexeme_of_isMark isColon
  rcases peek?_cases seen with rfl | ⟨lineBreak, -, -⟩
  · have colon : cursor.lookahead.2 = ":".toList ++ cursor.lookahead.1.after.rest :=
      Lexeme.eq_append_of_read lexeme
    rw [text] at colon
    cases left with
    | nil => exact (List.cons.inj colon).2.symm
    | cons c left =>
      obtain rfl : c = ':' := (List.cons.inj colon).1
      have inside := plain.colons passed ⟨left, by simp [same]⟩
      rw [brackets] at inside
      exact absurd inside (by decide)
  · rw [lineBreak] at lexeme
    cases lexeme

end Through

end StrategyMend.Python
