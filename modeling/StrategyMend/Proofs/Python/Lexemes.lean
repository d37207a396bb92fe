import StrategyMend.Python.Lexeme
import StrategyMend.Proofs.Source.Header

/-!
# The characters of lexemes

Words and numbers consist of inner characters: no quotes, brackets, colons, comment signs, backslashes
or line breaks are among them (`spans_skipNumber?`, `spans_word`). A mark is one of a fixed list, and a
string begins with letters and its quotes (`stringStart?_eq_some`). So the text behind a lexeme is what
is left of the text behind known characters (`Lexeme.read_cons`).
-/

set_option autoImplicit false

namespace StrategyMend.Python

/-! ## Inner characters -/

/-- Characters that stand in no word and in no number. -/
def outerChars : List Char :=
  ['\n', '#', '"', '\'', '\\', '(', ')', '[', ']', '\x7b', '\x7d', ':', '\x60']

/-- Characters that may stand in a word or a number, among others. -/
def isInner (c : Char) : Bool := !outerChars.contains c

variable {text rest after : List Char} {c : Char}

/-- A character that is accepted where no outer one is. -/
theorem isInner_of_accepts {accepts : Char → Bool} (refuses : outerChars.all fun d => !accepts d)
    (accepted : accepts c = true) : isInner c = true := by
  rw [isInner, Bool.not_eq_true', ← Bool.not_eq_true]
  intro listed
  have refused := List.all_eq_true.mp refuses c (List.contains_iff_mem.mp listed)
  rw [accepted] at refused
  cases refused

/-- A character that is accepted where a line break is not. -/
theorem ne_newline {accepts : Char → Bool} (refuses : accepts '\n' = false)
    (accepted : accepts c = true) : c ≠ '\n' := by
  rintro rfl
  rw [refuses] at accepted
  cases accepted

/-- `rest` is what is left of `text` behind accepted characters. -/
def Spans (accepts : Char → Bool) (text rest : List Char) : Prop :=
  ∃ past, text = past ++ rest ∧ ∀ c ∈ past, accepts c = true

section Spans

variable {accepts : Char → Bool}

theorem spans_self (text : List Char) : Spans accepts text text := ⟨[], rfl, nofun⟩

theorem Spans.trans (first : Spans accepts text rest) (second : Spans accepts rest after) :
    Spans accepts text after := by
  obtain ⟨past, rfl, plain⟩ := first
  obtain ⟨next, rfl, plain'⟩ := second
  refine ⟨past ++ next, (List.append_assoc _ _ _).symm, fun c member => ?_⟩
  exact (List.mem_append.mp member).elim (plain c) (plain' c)

theorem Spans.cons (accepted : accepts c = true) (spans : Spans accepts text rest) :
    Spans accepts (c :: text) rest := by
  obtain ⟨past, rfl, plain⟩ := spans
  exact ⟨c :: past, rfl, List.forall_mem_cons.mpr ⟨accepted, plain⟩⟩

theorem Spans.mono {accepts' : Char → Bool} (spans : Spans accepts text rest)
    (weaker : ∀ c, accepts c = true → accepts' c = true) : Spans accepts' text rest := by
  obtain ⟨past, same, plain⟩ := spans
  exact ⟨past, same, fun c member => weaker c (plain c member)⟩

theorem spans_dropWhile (accepts : Char → Bool) (text : List Char) :
    Spans accepts text (text.dropWhile accepts) :=
  ⟨text.takeWhile accepts, List.takeWhile_append_dropWhile.symm, fun _ => List.mem_takeWhile_imp⟩

end Spans

/-! ## Numbers -/

/-- One of two inner characters. -/
theorem isInner_of_either {first second : Char} (inner : (isInner first && isInner second) = true)
    (either : (decide (c = first) || decide (c = second)) = true) : isInner c = true := by
  obtain ⟨inner, inner'⟩ := Bool.and_eq_true_iff.mp inner
  rcases Bool.or_eq_true_iff.mp either with same | same
  · exact of_decide_eq_true same ▸ inner
  · exact of_decide_eq_true same ▸ inner'

theorem isInner_of_isDigit (digit : c.isDigit = true) : isInner c = true :=
  isInner_of_accepts (by decide) digit

theorem spans_skipDigits (text : List Char) : Spans isInner text (skipDigits text) := by
  fun_induction skipDigits text with
  | case1 c rest digit ih => exact .cons (isInner_of_isDigit digit) (.cons rfl ih)
  | case2 => exact spans_self _
  | case3 c rest _ digit ih => exact .cons (isInner_of_isDigit digit) ih
  | case4 => exact spans_self _
  | case5 => exact spans_self _

theorem spans_skipBaseDigits {isDigit : Char → Bool} (refuses : outerChars.all fun d => !isDigit d)
    (text : List Char) : Spans isInner text (skipBaseDigits isDigit text) := by
  fun_induction skipBaseDigits isDigit text with
  | case1 d rest digit ih => exact .cons rfl (.cons (isInner_of_accepts refuses digit) ih)
  | case2 => exact spans_self _
  | case3 d rest _ digit ih => exact .cons (isInner_of_accepts refuses digit) ih
  | case4 => exact spans_self _
  | case5 => exact spans_self _

theorem spans_skipOne {chars : List Char} (inner : chars.all isInner = true) (text : List Char) :
    Spans isInner text (skipOne chars text) := by
  fun_cases skipOne chars text with
  | case1 c rest listed =>
    exact .cons (List.all_eq_true.mp inner c (List.contains_iff_mem.mp listed)) (spans_self rest)
  | case2 => exact spans_self _
  | case3 => exact spans_self _

theorem spans_skipExponent (skipped : skipExponent text = some after) : Spans isInner text after := by
  fun_cases skipExponent text with
  | case1 c rest letter digits digit =>
    have inner : isInner c = true := isInner_of_either rfl letter
    rw [skipExponent, if_pos letter, if_pos digit] at skipped
    cases skipped
    exact .cons inner ((spans_skipOne rfl rest).trans (spans_skipDigits digits))
  | case2 c rest letter digits none =>
    rw [skipExponent, if_pos letter, if_neg none] at skipped
    cases skipped
  | case3 c rest letter =>
    rw [skipExponent, if_neg letter] at skipped
    cases skipped
  | case4 => cases skipped

theorem spans_skipRealTail (text : List Char) : Spans isInner text (skipRealTail text) := by
  unfold skipRealTail
  cases exponent : skipExponent text with
  | none => exact spans_skipOne rfl text
  | some after => exact (spans_skipExponent exponent).trans (spans_skipOne rfl after)

theorem spans_skipDecimal (text : List Char) : Spans isInner text (skipDecimal text) := by
  have digits := spans_skipDigits text
  unfold skipDecimal
  split
  · rename_i fraction point
    rw [point] at digits
    exact digits.trans (.cons rfl ((spans_skipDigits fraction).trans (spans_skipRealTail _)))
  · split
    · rename_i after exponent
      exact digits.trans ((spans_skipExponent exponent).trans (spans_skipOne rfl after))
    · exact digits.trans (spans_skipOne rfl _)

theorem baseDigit?_eq_some {letter : Char} {isDigit : Char → Bool}
    (base : baseDigit? letter = some isDigit) :
    isInner letter = true ∧ outerChars.all fun d => !isDigit d := by
  unfold baseDigit? at base
  split at base
  · rename_i letter
    cases base
    exact ⟨isInner_of_either rfl letter, by decide⟩
  · split at base
    · rename_i letter
      cases base
      exact ⟨isInner_of_either rfl letter, by decide⟩
    · split at base
      · rename_i letter
        cases base
        exact ⟨isInner_of_either rfl letter, by decide⟩
      · cases base

/-- **A number consists of inner characters.** -/
theorem spans_skipNumber? (skipped : skipNumber? text = some after) : Spans isInner text after := by
  unfold skipNumber? at skipped
  split at skipped
  · split at skipped
    · cases skipped
      exact .cons rfl ((spans_skipDigits _).trans (spans_skipRealTail _))
    · cases skipped
  · split at skipped
    · rename_i isDigit base
      obtain ⟨letter, refuses⟩ := baseDigit?_eq_some base
      split at skipped
      · cases skipped
        exact .cons rfl (.cons letter ((spans_skipBaseDigits refuses _).trans (spans_skipOne rfl _)))
      · cases skipped
        exact .cons rfl (spans_self _)
    · cases skipped
      exact spans_skipDecimal _
  · split at skipped
    · cases skipped
      exact spans_skipDecimal _
    · cases skipped
  · cases skipped

/-! ## Words -/

/-- **A word consists of inner characters.** -/
theorem spans_word (text : List Char) : Spans isInner text (text.dropWhile isIdentifierPart) :=
  (spans_dropWhile isIdentifierPart text).mono fun _ accepted =>
    isInner_of_accepts (by decide) accepted

/-! ## Strings -/

/-- A string begins with letters and then with one quote or three. -/
theorem stringStart?_eq_some {form : StringForm} (opened : stringStart? text = some (form, after)) :
    ∃ flags quotes, text = flags ++ (quotes ++ after) ∧ (∀ c ∈ flags, isStringFlag c = true) ∧
      ((form.quote = '\x60' ∧ form.triple = false ∧ quotes = ['\x60']) ∨
        (Source.isQuote form.quote = true ∧ form.triple = true ∧
          quotes = [form.quote, form.quote, form.quote]) ∨
        (Source.isQuote form.quote = true ∧ form.triple = false ∧ quotes = [form.quote] ∧
          ¬[form.quote, form.quote] <+: after)) := by
  obtain ⟨flags, same, letters⟩ := spans_dropWhile isStringFlag text
  refine ⟨flags, ?_⟩
  unfold stringStart? at opened
  split at opened
  · rename_i rest shown
    cases opened
    exact ⟨['\x60'], by rw [same, shown]; rfl, letters, .inl ⟨rfl, rfl, rfl⟩⟩
  · rename_i c rest _ shown
    split at opened
    · rename_i quotes
      have single (short : ∀ more, rest ≠ c :: c :: more) : ¬[c, c] <+: rest :=
        fun ⟨more, begins⟩ => short more begins.symm
      split at opened
      · split at opened
        · rename_i same'
          obtain ⟨rfl, rfl⟩ : _ ∧ _ := by simpa using same'
          cases opened
          exact ⟨_, by rw [same, shown]; rfl, letters, .inr (.inl ⟨quotes, rfl, rfl⟩)⟩
        · rename_i other
          cases opened
          refine ⟨[c], by rw [same, shown]; rfl, letters, .inr (.inr ⟨quotes, rfl, rfl, single ?_⟩)⟩
          intro more begins
          cases begins
          simp at other
      · rename_i short
        cases opened
        refine ⟨[c], by rw [same, shown]; rfl, letters, .inr (.inr ⟨quotes, rfl, rfl, single ?_⟩)⟩
        exact fun more begins => short c c more begins
    · cases opened
  · cases opened

/-! ## Marks -/

/-- A mark stands at the start of the text. -/
theorem eq_append_of_mark? {sign : String} (read : mark? text = some (sign, after)) :
    sign ∈ marks ∧ text = sign.toList ++ after := by
  obtain ⟨mark, listed, dropped⟩ := List.exists_of_findSome?_eq_some read
  obtain ⟨rest, here, same⟩ := Option.map_eq_some_iff.mp dropped
  cases same
  exact ⟨listed, Source.dropStart?_eq_some_iff.mp here⟩

/-! ## Lexemes -/

/-- A text that does not end here begins with a string, a word, a number, a mark, or a stray
character. -/
theorem Lexeme.read_cons (c : Char) (rest : List Char) :
    let text := c :: rest
    (∃ form after, stringStart? text = some (form, after) ∧ read text = (.stringStart form, after)) ∨
      read text = (.word (String.ofList (text.takeWhile isIdentifierPart)),
          text.dropWhile isIdentifierPart) ∨
        (∃ after, skipNumber? text = some after ∧ read text = (.number, after)) ∨
          (∃ sign after, mark? text = some (sign, after) ∧ read text = (.mark sign, after)) ∨
            read text = (.stray, rest) := by
  dsimp only [read]
  split
  · rename_i form after opened
    exact .inl ⟨form, after, opened, rfl⟩
  · split
    · exact .inr (.inl rfl)
    · split
      · rename_i after number
        exact .inr (.inr (.inl ⟨after, number, rfl⟩))
      · split
        · rename_i sign after mark
          exact .inr (.inr (.inr (.inl ⟨sign, after, mark, rfl⟩)))
        · exact .inr (.inr (.inr (.inr rfl)))

end StrategyMend.Python
