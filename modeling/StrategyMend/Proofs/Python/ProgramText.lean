import StrategyMend.Proofs.Python.Brackets
import StrategyMend.Proofs.Source.WholeText

/-!
# Program text

The lexer that reads a source character by character and the reader of the grammar see the same words
and marks: where both are in program text, a lexeme that the reader passes leaves the lexer in program
text, inside of the brackets that the reader counts (`IsCodeAt.passes`).
-/

set_option autoImplicit false

namespace StrategyMend.Source.Lexer

open Python

variable {lexer : Lexer} {depth depth' : Nat} {c : Char} {front rest : List Char}

/-- In front of `rest` the lexer is in program text, inside of so many brackets. Two quotes are an empty
string if no third one follows. -/
structure IsInCode (lexer : Lexer) (depth : Nat) (rest : List Char) : Prop where
  brackets : lexer.depth = depth
  reads : lexer.reading = .code ∨
    ∃ quote, lexer.reading = .openedTwice quote ∧ rest.head? ≠ some quote

theorem isInCode_code (depth : Nat) (rest : List Char) : IsInCode ⟨.code, depth⟩ depth rest :=
  ⟨rfl, .inl rfl⟩

theorem IsInCode.isCode (code : lexer.IsInCode depth rest) : lexer.reading.isCode = true := by
  rcases code.reads with reading | ⟨quote, reading, -⟩
  · rw [reading]
    rfl
  · rw [reading]
    rfl

theorem pass_of_ne_newline (plain : c ≠ '\n') (lexer : Lexer) : lexer.pass c = lexer.step c :=
  if_neg plain

/-- The next character is read as program text. -/
theorem IsInCode.pass_eq (code : lexer.IsInCode depth (c :: rest)) :
    lexer.pass c = (Lexer.mk .code depth).pass c := by
  obtain ⟨reading, brackets⟩ := lexer
  obtain ⟨rfl, rfl | ⟨quote, rfl, other⟩⟩ := code
  · rfl
  · by_cases newline : c = '\n'
    · subst newline
      rfl
    · rw [pass_of_ne_newline newline, pass_of_ne_newline newline]
      exact step_openedTwice_other (fun same => other (by simp [same])) _

/-- The end of the line ends nothing. -/
theorem IsInCode.pass_newline (code : lexer.IsInCode depth ('\n' :: rest)) :
    lexer.pass '\n' = ⟨.code, depth⟩ := by
  rw [code.pass_eq]
  show Lexer.nextLine _ = _
  simp [nextLine, Reading.nextLine]

/-- Plain characters are passed, and the brackets among them are counted. -/
theorem readText_plain (plain : ∀ c ∈ front, isPlainChar c = true) (depth : Int) :
    (Lexer.mk .code depth).readText front = ⟨.code, depth + openBrackets front⟩ := by
  induction front generalizing depth with
  | nil => simp [readText]
  | cons c front ih =>
    have others := ih fun d member => plain d (List.mem_cons_of_mem c member)
    have here := plain c List.mem_cons_self
    simp only [isPlainChar, Bool.not_eq_true', List.contains_eq_mem, decide_eq_false_iff_not,
      List.mem_cons, List.not_mem_nil, or_false, not_or] at here
    have quotes : isQuote c = false := by simp [isQuote, here]
    have passed : (Lexer.mk .code depth).pass c = ⟨.code, depth + bracketStep c⟩ := by
      rw [pass_of_ne_newline here.1, step_code_plain here.2.2.2.2.1 quotes]
    have brackets : openBrackets (c :: front) = bracketStep c + openBrackets front := rfl
    rw [readText, List.foldl_cons, passed, ← readText, others, brackets, Int.add_assoc]

theorem IsInCode.readText_eq (code : lexer.IsInCode depth (front ++ rest)) (some : front ≠ []) :
    lexer.readText front = (Lexer.mk .code depth).readText front := by
  obtain ⟨c, front, rfl⟩ := List.exists_cons_of_ne_nil some
  rw [readText, List.foldl_cons, IsInCode.pass_eq code, ← List.foldl_cons (f := pass), ← readText]

/-- **Behind plain characters the lexer is in program text.** -/
theorem IsInCode.append (code : lexer.IsInCode depth (front ++ rest))
    (plain : ∀ c ∈ front, isPlainChar c = true) (brackets : depth + openBrackets front = depth') :
    (lexer.readText front).IsInCode depth' rest := by
  by_cases some : front = []
  · subst some
    obtain rfl : depth = depth' := Int.ofNat_inj.mp (by simpa using brackets)
    exact code
  · rw [code.readText_eq some, readText_plain plain, brackets]
    exact isInCode_code _ _

end StrategyMend.Source.Lexer

namespace StrategyMend.Python

open Source

/-- The lexer behind the beginning `passed` of a text. -/
def lexerBehind (passed : List Char) : Lexer := Lexer.start.readText passed

variable {text passed front rest : List Char} {depth depth' : Nat} {c : Char}

theorem lexerBehind_append (passed front : List Char) :
    lexerBehind (passed ++ front) = (lexerBehind passed).readText front :=
  Lexer.readText_append _ _ _

/-- The text ends in a backslash, blank characters of the line aside. -/
def EndsJoined (passed : List Char) : Prop :=
  ∃ front blanks, passed = front ++ '\\' :: blanks ∧
    ∀ c ∈ blanks, Text.isBlank c = true ∧ c ≠ '\n'

/-- Behind characters of which none is a backslash there is no new one at the end. -/
theorem EndsJoined.of_append (joined : EndsJoined (passed ++ front)) (plain : '\\' ∉ front) :
    EndsJoined passed := by
  obtain ⟨before, blanks, same, blank⟩ := joined
  rcases List.append_eq_append_iff.mp same.symm with ⟨more, rfl, shown⟩ | ⟨more, rfl, shown⟩
  · cases more with
    | nil =>
      rw [List.nil_append] at shown
      exact absurd (shown ▸ List.mem_cons_self) plain
    | cons d more =>
      obtain ⟨rfl, split⟩ := List.cons.inj shown
      exact ⟨before, more, rfl, fun c member => blank c (by simp [split, member])⟩
  · exact absurd (by simp [shown]) plain

theorem not_endsJoined_nil : ¬EndsJoined [] := by
  rintro ⟨front, blanks, same, -⟩
  simp at same

/-- Behind a line break, or another character that is no blank, none stands at the end. -/
theorem not_endsJoined_concat (solid : Text.isBlank c = false ∨ c = '\n') (other : c ≠ '\\') :
    ¬EndsJoined (passed ++ [c]) := by
  rintro ⟨front, blanks, same, blank⟩
  rcases List.eq_nil_or_concat blanks with rfl | ⟨others, last, rfl⟩
  · obtain ⟨-, same⟩ := List.append_inj' same rfl
    exact other (List.cons.inj same).1
  · rw [List.concat_eq_append, ← List.cons_append, ← List.append_assoc] at same
    obtain ⟨-, same⟩ := List.append_inj' same rfl
    obtain rfl := (List.cons.inj same).1
    obtain ⟨blank, newline⟩ := blank c (by simp)
    rcases solid with solid | solid
    · rw [blank] at solid
      cases solid
    · exact newline solid

/-- Behind `passed`, and in front of `rest`, the text is program text, inside of so many brackets. -/
structure IsCodeAt (text passed : List Char) (depth : Nat) (rest : List Char) : Prop where
  text_eq : text = passed ++ rest
  code : (lexerBehind passed).IsInCode depth rest
  ended : ¬EndsJoined passed

theorem isCodeAt_start (text : List Char) : IsCodeAt text [] 0 text :=
  ⟨rfl, ⟨rfl, .inl rfl⟩, not_endsJoined_nil⟩

/-- Plain characters lead to program text. -/
theorem IsCodeAt.append (here : IsCodeAt text passed depth (front ++ rest))
    (plain : ∀ c ∈ front, isPlainChar c = true) (brackets : depth + openBrackets front = depth') :
    IsCodeAt text (passed ++ front) depth' rest where
  text_eq := by rw [here.text_eq, List.append_assoc]
  code := lexerBehind_append passed front ▸ here.code.append plain brackets
  ended := fun joined => here.ended (joined.of_append fun member => nomatch plain '\\' member)

/-- So does one of them. -/
theorem IsCodeAt.concat (here : IsCodeAt text passed depth (c :: rest)) (plain : isPlainChar c = true)
    (brackets : depth + bracketStep c = depth') : IsCodeAt text (passed ++ [c]) depth' rest := by
  refine IsCodeAt.append here (fun d member => List.mem_singleton.mp member ▸ plain) ?_
  rw [← brackets]
  exact congrArg _ (Int.add_zero _)

/-- **A lexeme that is passed leads to program text,** inside of the brackets that are open then. -/
theorem IsCodeAt.passes {colons : Prop} (here : IsCodeAt text passed depth rest)
    (moves : (Lexeme.read rest).1.Moves colons depth depth') :
    ∃ past, rest = past ++ (Lexeme.read rest).2 ∧ Passes (Lexeme.read rest).1 past depth depth' ∧
      IsCodeAt text (passed ++ past) depth' (Lexeme.read rest).2 := by
  obtain ⟨past, same, passes⟩ := Lexeme.passes_of_moves moves
  refine ⟨past, same, passes, ?_⟩
  generalize (Lexeme.read rest).2 = after at same
  subst same
  exact here.append passes.plain passes.brackets

end StrategyMend.Python
