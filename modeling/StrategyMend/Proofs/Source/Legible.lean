import StrategyMend.Proofs.Python.TextLines

/-!
# Legible texts

The grammar reads a text as a whole, the search for openers line by line. The two see the same statement
lines, strings and brackets where the text is legible (`IsLegible`). That can be computed for a text
without odd margins, hidden line breaks, names of characters and interpolated expressions
(`isPlainText`, `isLegible_of_isPlainText`).
-/

set_option autoImplicit false

namespace StrategyMend.Source

open Python

/-- The text means the same to the grammar and to a reader by lines. -/
structure IsLegible (text : List Char) : Prop where
  gaps : HasPlainGaps text
  strings : HasPlainStrings text
  comments : HasPlainComments text

/-! ## Plain texts -/

/-- In front of the text nothing begins that a reader by quotes and brackets misses: in program text, a
character that hides line breaks and a grave accent; elsewhere, a brace, the name of a character, and the
end of the line in a string that one quote ends. -/
def isPlainPlace (reading : Reading) : List Char → Bool
  | [] => true
  | c :: rest =>
    if reading.isCode then !(isHiding c || c = '\x60')
    else !(c = '{' || (c = '\n' && reading.isLiteral) ||
      (c = '\\' && rest.head?.any "NuU".toList.contains))

/-- The line in front of which the lexer is has tabulators and then spaces as margin, if it is program
text, and no backslash right behind them. If it ends in a backslash, it ends in a comment only if it is
one. -/
def isPlainLine (lexer : Lexer) (rest : List Char) : Bool :=
  let line := rest.takeWhile (· ≠ '\n')
  let reading := (lexer.readText line).reading
  (lexer ≠ ⟨.code, 0⟩ || (((rest.takeWhile isGapChar).dropWhile (· = '\t')).all (· = ' ') &&
    (rest.dropWhile isGapChar).head? ≠ some '\\')) &&
    (!endsWithBackslash (String.ofList line) || reading.tripleQuote?.isSome ||
      isComment (String.ofList line) = decide (reading = .comment))

/-- All places and all lines of the text are plain. -/
def isPlainText (text : List Char) : Bool :=
  (List.range (text.length + 1)).all fun number =>
    isPlainPlace (lexerBehind (text.take number)).reading (text.drop number) &&
      ((text.take number).getLast?.any (· ≠ '\n') ||
        isPlainLine (lexerBehind (text.take number)) (text.drop number))

variable {text above rest margin : List Char} {form : StringForm} {c : Char}

theorem isPlain_of_isPlainText (plain : isPlainText text = true) (same : text = above ++ rest) :
    isPlainPlace (lexerBehind above).reading rest = true ∧
      (EndsLine above → isPlainLine (lexerBehind above) rest = true) := by
  have upTo : above.length < text.length + 1 := by
    rw [same, List.length_append]
    omega
  have here := List.all_eq_true.mp plain above.length (List.mem_range.mpr upTo)
  rw [same, List.take_left, List.drop_left, Bool.and_eq_true, Bool.or_eq_true] at here
  refine ⟨here.1, fun ends => here.2.resolve_left ?_⟩
  rcases ends with rfl | ⟨top, rfl⟩ <;> simp

/-- A margin of tabulators and then spaces. -/
theorem isPlainMargin_of_all (spaces : (margin.dropWhile (· = '\t')).all (· = ' ') = true) :
    IsPlainMargin margin := by
  have first : margin.takeWhile (· = '\t') = List.replicate _ '\t' :=
    List.eq_replicate_of_mem fun c member => by simpa using List.mem_takeWhile_imp member
  have second : margin.dropWhile (· = '\t') = List.replicate _ ' ' :=
    List.eq_replicate_of_mem fun c member => by simpa using List.all_eq_true.mp spaces c member
  exact ⟨_, _, first ▸ second ▸ List.takeWhile_append_dropWhile.symm⟩

theorem hasPlainGaps_of_isPlainText (plain : isPlainText text = true) : HasPlainGaps text where
  shown := by
    rintro above c ⟨rest, same⟩ code
    have split : text = above ++ c :: rest := by simp [← same]
    have here := (isPlain_of_isPlainText plain split).1
    rw [isPlainPlace, if_pos code] at here
    simp only [Bool.not_eq_true', Bool.or_eq_false_iff] at here
    exact here.1
  margins := by
    intro above margin c shown line blank visible _
    have here := (isPlain_of_isPlainText plain line.text_eq).2 line.ends
    have margins : (margin ++ c :: shown).takeWhile isGapChar = margin :=
      takeWhile_append_rest blank (by simpa using visible.1)
    have behind : (margin ++ c :: shown).dropWhile isGapChar = c :: shown := by
      rw [List.dropWhile_append_of_pos blank, List.dropWhile_cons_of_neg (by simp [visible.1])]
    rw [isPlainLine, margins, behind, line.lexer] at here
    simp only [ne_eq, not_true_eq_false, decide_false, Bool.false_or, Bool.and_eq_true] at here
    exact ⟨isPlainMargin_of_all here.1.1, by simpa using here.1.2⟩

/-- The lexer is not in program text inside of a string. -/
theorem InsideString.exists_place (inside : InsideString text form rest) :
    ∃ above, text = above ++ rest ∧ (lexerBehind above).reading.isCode = false := by
  obtain ⟨here, -, covered⟩ := inside
  rename_i before opening inside depth
  exact ⟨before ++ opening ++ inside, by simp [here.text_eq], covered inside (List.prefix_refl inside)⟩

theorem hasPlainStrings_of_isPlainText (plain : isPlainText text = true) : HasPlainStrings text := by
  -- In a string there is no brace and no name.
  have absent {form : StringForm} {c : Char} {rest : List Char}
      (inside : InsideString text form (c :: rest)) :
      c ≠ '{' ∧ (c = '\\' → rest.head?.any "NuU".toList.contains = false) := by
    obtain ⟨above, same, hidden⟩ := InsideString.exists_place inside
    have here := (isPlain_of_isPlainText plain same).1
    rw [isPlainPlace, if_neg (by simp [hidden])] at here
    constructor
    · rintro rfl
      simp at here
    · rintro rfl
      simpa using here
  refine ⟨?_, ?_, ?_, ?_, ?_⟩
  · rintro top ⟨rest, same⟩
    have split : text = top ++ '\n' :: rest := by simp [← same]
    have here := (isPlain_of_isPlainText plain split).1
    cases reading : (lexerBehind top).reading <;>
      simp_all [isPlainPlace, Reading.isCode, Reading.isLiteral, Reading.isOpenLiteral,
        Reading.isLiteralEscape]
  · intro above depth rest code
    have here := (isPlain_of_isPlainText plain code.text_eq).1
    rw [isPlainPlace, if_pos code.code.isCode] at here
    simp at here
  · exact fun form rest inside => absurd rfl (absent inside).1
  · intro form name rest inside
    have none := (absent inside).2 rfl
    simp at none
  · intro form c d rest inside _ _ named
    have none := (absent inside).2 rfl
    rcases named with rfl | rfl | rfl <;> simp at none

theorem hasPlainComments_of_isPlainText (plain : isPlainText text = true) : HasPlainComments text := by
  intro above line rest same ends free joined outside
  have here := (isPlain_of_isPlainText plain same).2 ends
  have whole : (line ++ '\n' :: rest).takeWhile (· ≠ '\n') = line :=
    takeWhile_append_rest (fun c member => decide_eq_true fun newline : c = '\n' =>
      free (newline ▸ member)) (by simp)
  rw [isPlainLine, whole, ← lexerBehind_append, (endsWithBackslash_iff free).mpr joined, outside] at here
  have comment : isComment (String.ofList line) =
      decide ((lexerBehind (above ++ line)).reading = .comment) := by
    simpa using (Bool.and_eq_true_iff.mp here).2
  rw [comment, decide_eq_true_iff]

/-- **A plain text is legible.** -/
theorem isLegible_of_isPlainText (plain : isPlainText text = true) : IsLegible text :=
  ⟨hasPlainGaps_of_isPlainText plain, hasPlainStrings_of_isPlainText plain,
    hasPlainComments_of_isPlainText plain⟩

end StrategyMend.Source
