import StrategyMend.Proofs.Python.Gaps
import StrategyMend.Proofs.Python.Track

/-!
# Brackets among characters

How many brackets a lexeme opens or closes can be read off its characters (`Lexeme.passes_of_moves`):
words and numbers have no brackets in them, and a mark with a bracket is that bracket. So along a text
without strings, comments and backslashes the open brackets are counted character by character
(`openBrackets`).
-/

set_option autoImplicit false

namespace StrategyMend.Python

/-- How many more brackets are opened than closed. -/
def openBrackets (text : List Char) : Int :=
  text.foldr (fun c depth => Source.bracketStep c + depth) 0

/-- Characters that begin no string, comment or continuation. -/
def isPlainChar (c : Char) : Bool := !(['\n', '"', '\'', '\x60', '#', '\\'].contains c)

theorem isPlainChar_of_isInner {c : Char} (inner : isInner c = true) : isPlainChar c = true := by
  have fewer : (['\n', '"', '\'', '\x60', '#', '\\'].all outerChars.contains) = true := by decide
  rw [isInner, Bool.not_eq_true', ← Bool.not_eq_true] at inner
  rw [isPlainChar, Bool.not_eq_true', ← Bool.not_eq_true]
  exact fun listed => inner (List.all_eq_true.mp fewer c (List.contains_iff_mem.mp listed))

@[simp]
theorem openBrackets_nil : openBrackets [] = 0 := rfl

@[simp]
theorem openBrackets_append (first second : List Char) :
    openBrackets (first ++ second) = openBrackets first + openBrackets second := by
  induction first with
  | nil => simp [openBrackets]
  | cons c first ih =>
    have others : openBrackets (c :: (first ++ second)) =
        Source.bracketStep c + openBrackets (first ++ second) := rfl
    rw [List.cons_append, others, ih, ← Int.add_assoc]
    rfl

/-- Characters of which none is a bracket. -/
theorem openBrackets_eq_zero {text : List Char} (none : ∀ c ∈ text, Source.bracketStep c = 0) :
    openBrackets text = 0 := by
  induction text with
  | nil => rfl
  | cons c text ih =>
    rw [openBrackets, List.foldr_cons, none c List.mem_cons_self, Int.zero_add]
    exact ih fun d member => none d (List.mem_cons_of_mem c member)

theorem bracketStep_eq_zero {accepts : Char → Bool} {c : Char}
    (refuses : ['(', '[', '\x7b', ')', ']', '\x7d'].all fun d => !accepts d)
    (accepted : accepts c = true) : Source.bracketStep c = 0 := by
  have other (d : Char) (listed : d ∈ ['(', '[', '\x7b', ')', ']', '\x7d']) : c ≠ d := by
    rintro rfl
    have refused := List.all_eq_true.mp refuses c listed
    rw [accepted] at refused
    cases refused
  rw [Source.bracketStep, if_neg, if_neg]
  · simp [other]
  · simp [other]

/-- Blank characters are no brackets. -/
theorem openBrackets_of_blank {text : List Char}
    (blank : ∀ c ∈ text, isGapChar c = true ∨ c = '\n') : openBrackets text = 0 := by
  refine openBrackets_eq_zero fun c member => ?_
  rcases blank c member with gap | rfl
  · exact bracketStep_eq_zero (by decide) gap
  · rfl

/-- A string begins with letters and a quote. -/
theorem Lexeme.exists_quote_of_read {text : List Char} {form : StringForm}
    (opened : (read text).1 = .stringStart form) :
    ∃ flags quote rest, text = flags ++ quote :: rest ∧ (∀ c ∈ flags, isStringFlag c = true) ∧
      ['"', '\'', '\x60'].contains quote = true := by
  cases text with
  | nil => cases opened
  | cons c rest =>
    rcases read_cons c rest with ⟨form', after, here, same⟩ | same | ⟨_, _, same⟩ | ⟨_, _, _, same⟩ |
      same
    all_goals rw [same] at opened; cases opened
    obtain ⟨flags, quotes, text, letters, shape⟩ := stringStart?_eq_some here
    have quote {q : Char} (quotes : Source.isQuote q = true) :
        ['"', '\'', '\x60'].contains q = true := by
      simp only [Source.isQuote, Bool.or_eq_true, decide_eq_true_eq] at quotes
      rcases quotes with rfl | rfl
      all_goals rfl
    rcases shape with ⟨-, -, rfl⟩ | ⟨quotes, -, rfl⟩ | ⟨quotes, -, rfl, -⟩
    · exact ⟨flags, _, _, text, letters, rfl⟩
    · exact ⟨flags, _, _, text, letters, quote quotes⟩
    · exact ⟨flags, _, _, text, letters, quote quotes⟩

/-- What the characters of a lexeme say about brackets and colons. -/
structure Passes (lexeme : Lexeme) (past : List Char) (depth depth' : Nat) : Prop where
  plain : ∀ c ∈ past, isPlainChar c = true
  brackets : (depth : Int) + openBrackets past = depth'
  colon : ':' ∈ past → (lexeme = .mark ":" ∧ past = [':']) ∨ past = [':', '=']

theorem passes_of_inner {lexeme : Lexeme} {past : List Char} (inner : ∀ c ∈ past, isInner c = true)
    (depth : Nat) : Passes lexeme past depth depth where
  plain := fun c member => isPlainChar_of_isInner (inner c member)
  brackets := by
    rw [openBrackets_eq_zero fun c member => bracketStep_eq_zero (by decide) (inner c member),
      Int.add_zero]
  colon := fun member => nomatch inner ':' member

/-- What the marks say about brackets and colons. -/
theorem passes_of_mark {sign : String} (listed : sign ∈ marks) :
    (∀ c ∈ sign.toList, isPlainChar c = true) ∧
      (openBrackets sign.toList =
        if openingMarks.contains sign then 1 else if closingMarks.contains sign then -1 else 0) ∧
      (':' ∈ sign.toList → sign = ":" ∨ sign.toList = [':', '=']) := by
  have all : ∀ sign ∈ marks, (sign.toList.all isPlainChar) = true ∧
      (openBrackets sign.toList =
        if openingMarks.contains sign then 1 else if closingMarks.contains sign then -1 else 0) ∧
      (':' ∈ sign.toList → sign = ":" ∨ sign.toList = [':', '=']) := by
    decide
  obtain ⟨plain, rest⟩ := all sign listed
  exact ⟨List.all_eq_true.mp plain, rest⟩

/-- **A lexeme that is passed opens and closes the brackets among its characters.** -/
theorem Lexeme.passes_of_moves {text : List Char} {colons : Prop} {depth depth' : Nat}
    (moves : (read text).1.Moves colons depth depth') :
    ∃ past, text = past ++ (read text).2 ∧ Passes (read text).1 past depth depth' := by
  cases text with
  | nil => cases moves
  | cons c rest =>
    rcases read_cons c rest with ⟨form, after, -, same⟩ | same | ⟨after, number, same⟩ |
      ⟨sign, after, mark, same⟩ | same
    · rw [same] at moves
      cases moves
    · rw [same] at moves ⊢
      cases moves
      obtain ⟨past, same, inner⟩ := spans_word (c :: rest)
      exact ⟨past, same, passes_of_inner inner depth⟩
    · rw [same] at moves ⊢
      cases moves
      obtain ⟨past, same, inner⟩ := spans_skipNumber? number
      exact ⟨past, same, passes_of_inner inner depth⟩
    · rw [same] at moves ⊢
      obtain ⟨listed, text⟩ := eq_append_of_mark? mark
      obtain ⟨plain, brackets, colon⟩ := passes_of_mark listed
      refine ⟨sign.toList, text, plain, ?_, fun member => (colon member).imp_left ?_⟩
      rotate_left
      · rintro rfl
        exact ⟨rfl, rfl⟩
      rw [brackets]
      cases moves with
      | flat flat =>
        simp only [isFlatMark, Bool.not_eq_true', Bool.or_eq_false_iff] at flat
        simp only [flat.1.1, flat.1.2]
        simp
      | colon => rfl
      | opening opens =>
        rw [if_pos opens]
        rfl
      | closing closes =>
        have other : openingMarks.contains sign = false := by
          simp only [closingMarks, List.contains_eq_mem, decide_eq_true_eq, List.mem_cons,
            List.not_mem_nil, or_false] at closes
          rcases closes with rfl | rfl | rfl
          all_goals rfl
        rw [if_neg (by rw [other]; decide), if_pos closes]
        omega
    · rw [same] at moves
      cases moves

end StrategyMend.Python
