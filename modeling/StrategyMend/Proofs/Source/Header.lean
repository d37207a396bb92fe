import Mathlib.Data.List.TakeWhile
import StrategyMend.Proofs.Source.Marks
import StrategyMend.Source.Branch

/-!
# Where the text of a line begins

Many questions about a line are answered by its indentation and its first word. This module collects
what changing the beginning of a line leaves as it is: the width of the indentation
(`columnAfter_append`), what the line leaves open (`after_closed_append`), and the words that the
classification of branches and of their openers looks at (`classify_eq_elseIf_iff`,
`classify_eq_otherwise_iff`). So a line of code that gets another indentation is read as before, apart
from its width (`trimStart_realigned`, `after_closed_realigned`, `indentWidth_realigned`).
-/

set_option autoImplicit false

namespace StrategyMend.Source

open Text

/-! ## Blank beginnings -/

/-- A text is cut behind the characters at its start that satisfy `p`. -/
theorem takeWhile_append_rest {p : Char → Bool} {front rest : List Char}
    (all : ∀ c ∈ front, p c = true) (stops : ∀ c ∈ rest.head?, p c = false) :
    (front ++ rest).takeWhile p = front := by
  rw [List.takeWhile_append_of_pos all]
  cases rest with
  | nil => rw [List.takeWhile_nil, List.append_nil]
  | cons c rest =>
    rw [List.takeWhile_cons_of_neg (by simp [stops c rfl]), List.append_nil]

theorem isBlank_of_isIndentChar {c : Char} (indents : isIndentChar c = true) : isBlank c = true := by
  simp only [isIndentChar, Bool.or_eq_true, decide_eq_true_eq] at indents
  rcases indents with rfl | rfl <;> decide

theorem trimStart_append {blanks text : List Char} {c : Char}
    (blank : ∀ d ∈ blanks, isBlank d = true) (first : isBlank c = false) :
    Chars.trimStart (blanks ++ c :: text) = c :: text := by
  rw [Chars.trimStart, List.dropWhile_append_of_pos blank, List.dropWhile_cons_of_neg (by simp [first])]

/-- A line is its blank beginning followed by its text. -/
theorem exists_blanks_append_trimStart (cs : List Char) :
    ∃ blanks, cs = blanks ++ Chars.trimStart cs ∧ ∀ d ∈ blanks, isBlank d = true :=
  ⟨cs.takeWhile isBlank, List.takeWhile_append_dropWhile.symm, fun _ => List.mem_takeWhile_imp⟩

theorem isBlank_of_trimStart_eq_cons {cs rest : List Char} {c : Char}
    (text : Chars.trimStart cs = c :: rest) : isBlank c = false := by
  have first := List.head?_dropWhile_not isBlank cs
  rw [show cs.dropWhile isBlank = c :: rest from text] at first
  simpa using first

theorem isCode_of_head? {line : String} {c : Char}
    (first : (Chars.trimStart line.toList).head? = some c) (text : c ≠ '#') : isCode line = true := by
  obtain ⟨rest, begins⟩ : ∃ rest, Chars.trimStart line.toList = c :: rest := by
    cases trimmed : Chars.trimStart line.toList <;> simp_all
  have solid := isBlank_of_trimStart_eq_cons begins
  have member : c ∈ line.toList := (List.dropWhile_sublist isBlank).subset
    (show c ∈ Chars.trimStart line.toList by simp [begins])
  have blank : isBlankLine line = false := by
    rw [isBlankLine, isBlankText, List.all_eq_false]
    exact ⟨c, member, by simp [solid]⟩
  simp [isCode, blank, isComment, first, text]

theorem exists_trimStart_of_isCode {line : String} (code : isCode line = true) :
    ∃ c rest, Chars.trimStart line.toList = c :: rest := by
  refine List.exists_cons_of_ne_nil fun empty => ?_
  have blank : isBlankLine line = true :=
    List.all_eq_true.mpr (List.dropWhile_eq_nil_iff.mp empty)
  rw [isCode, blank] at code
  cases code

theorem toList_ne_nil_of_not_isBlankLine {line : String} (solid : isBlankLine line = false) :
    line.toList ≠ [] := by
  intro empty
  simp [isBlankLine, isBlankText, empty] at solid

theorem isBlankLine_of_isCode {line : String} (code : isCode line = true) :
    isBlankLine line = false := by
  rw [isCode, Bool.and_eq_true, Bool.not_eq_true'] at code
  exact code.1

theorem isComment_of_isCode {line : String} (code : isCode line = true) :
    isComment line = false := by
  rw [isCode, Bool.and_eq_true, Bool.not_eq_true', Bool.not_eq_true'] at code
  exact code.2

/-- Trimming keeps the first character that is not blank. -/
theorem head?_trim_of_head? {line : String} {c : Char}
    (first : (Chars.trimStart line.toList).head? = some c) :
    (trim line).toList.head? = some c := by
  obtain ⟨rest, begins⟩ : ∃ rest, Chars.trimStart line.toList = c :: rest := by
    cases trimmed : Chars.trimStart line.toList <;> simp_all
  have solid := isBlank_of_trimStart_eq_cons begins
  rw [trim, String.toList_ofList, Chars.trim, begins, Chars.trimEnd, dropEndWhile,
    List.head?_reverse, List.reverse_cons, List.dropWhile_append]
  split
  · simp [solid]
  · exact List.getLast?_concat

/-- No blank character is part of a word. -/
theorem isWordChar_of_isBlank {c : Char} (blank : isBlank c = true) : isWordChar c = false := by
  have codes : c.toNat ∈ List.range' 9 5 ++ List.range' 0x2000 11 ++
      [0x20, 0x85, 0xA0, 0x1680, 0x2028, 0x2029, 0x202F, 0x205F, 0x3000] := by
    simp only [isBlank, Bool.or_eq_true, Bool.and_eq_true, decide_eq_true_eq] at blank
    simp only [List.mem_append, List.mem_range'_1, List.mem_cons]
    omega
  have plain : ∀ code ∈ List.range' 9 5 ++ List.range' 0x2000 11 ++
      [0x20, 0x85, 0xA0, 0x1680, 0x2028, 0x2029, 0x202F, 0x205F, 0x3000],
      isWordChar (Char.ofNat code) = false := by
    decide +kernel
  have word := plain c.toNat codes
  rwa [Char.ofNat_toNat] at word

/-- The last character that is not blank does not depend on what stands before another one. -/
theorem getLast?_trimEnd_append {front rest : List Char} {c : Char} (solid : isBlank c = false) :
    (Chars.trimEnd (front ++ c :: rest)).getLast? = (Chars.trimEnd (c :: rest)).getLast? := by
  have kept : (c :: rest).reverse.dropWhile isBlank ≠ [] := by
    intro empty
    have blank := List.dropWhile_eq_nil_iff.mp empty c (by simp)
    rw [solid] at blank
    cases blank
  obtain ⟨d, others, within⟩ := List.exists_cons_of_ne_nil kept
  rw [Chars.trimEnd, Chars.trimEnd, dropEndWhile, dropEndWhile, List.getLast?_reverse,
    List.getLast?_reverse, List.reverse_append, List.dropWhile_append, within]
  rfl

/-! ## Widths -/

theorem columnAfter_of_not_isIndentChar {c : Char} (other : isIndentChar c = false) (column : Nat)
    (rest : List Char) : columnAfter column (c :: rest) = column := by
  simp only [isIndentChar, Bool.or_eq_false_iff, decide_eq_false_iff_not] at other
  unfold columnAfter
  split
  · next same => exact absurd (List.cons.inj same).1 other.1
  · next same => exact absurd (List.cons.inj same).1 other.2
  · rfl

theorem columnAfter_takeWhile (column : Nat) (cs : List Char) :
    columnAfter column (cs.takeWhile isIndentChar) = columnAfter column cs := by
  induction cs generalizing column with
  | nil => rfl
  | cons c rest ih =>
    cases indents : isIndentChar c with
    | false =>
      rw [List.takeWhile_cons_of_neg (by simp [indents]), columnAfter_of_not_isIndentChar indents]
      rfl
    | true =>
      rw [List.takeWhile_cons_of_pos indents]
      simp only [isIndentChar, Bool.or_eq_true, decide_eq_true_eq] at indents
      rcases indents with rfl | rfl <;> exact ih _

/-- What follows the indentation does not matter to the width. -/
theorem columnAfter_append {cs rest : List Char} {c : Char} (column : Nat)
    (other : isIndentChar c = false) :
    columnAfter column (cs.takeWhile isIndentChar ++ c :: rest) = columnAfter column cs := by
  rw [← columnAfter_takeWhile,
    takeWhile_append_rest (fun _ => List.mem_takeWhile_imp) (by simpa using other),
    columnAfter_takeWhile]

theorem le_columnAfter (column : Nat) (cs : List Char) : column ≤ columnAfter column cs := by
  fun_induction columnAfter column cs with
  | case1 column rest ih => exact Nat.le_of_succ_le ih
  | case2 column rest ih => exact Nat.le_trans (Nat.le_add_right _ _) ih
  | case3 => exact Nat.le_refl _

/-- Every character that indents makes a line wider. -/
theorem lt_columnAfter_cons {c : Char} (indents : isIndentChar c = true) (column : Nat)
    (rest : List Char) : column < columnAfter column (c :: rest) := by
  simp only [isIndentChar, Bool.or_eq_true, decide_eq_true_eq] at indents
  rcases indents with rfl | rfl
  · exact le_columnAfter (column + 1) rest
  · have stop : column % tabWidth < tabWidth := Nat.mod_lt column (by decide)
    exact Nat.lt_of_lt_of_le (by omega) (le_columnAfter (column + (tabWidth - column % tabWidth)) rest)

/-- Behind an indentation the count of columns goes on from its width. -/
theorem columnAfter_append_of_indents {front : List Char}
    (indents : ∀ c ∈ front, isIndentChar c = true) (column : Nat) (rest : List Char) :
    columnAfter column (front ++ rest) = columnAfter (columnAfter column front) rest := by
  induction front generalizing column with
  | nil => rfl
  | cons c front ih =>
    have others := fun d member => indents d (List.mem_cons_of_mem c member)
    have first := indents c (by simp)
    simp only [isIndentChar, Bool.or_eq_true, decide_eq_true_eq] at first
    rcases first with rfl | rfl <;> exact ih others _

/-! ## Plain characters -/

/-- A character that opens no bracket, string or comment and closes no bracket. -/
def isPlain (c : Char) : Bool := c ≠ '#' && !isQuote c && bracketStep c = 0

/-- The characters that are not plain. -/
def specialChars : List Char := ['#', '"', '\'', '(', '[', '\x7b', ')', ']', '\x7d']

theorem isPlain_of_not_mem {c : Char} (other : c ∉ specialChars) : isPlain c = true := by
  simp only [specialChars, List.mem_cons, List.not_mem_nil, or_false, not_or] at other
  simp [isPlain, isQuote, bracketStep, other]

theorem isPlain_of_isBlank {c : Char} (blank : isBlank c = true) : isPlain c = true := by
  refine isPlain_of_not_mem fun special => ?_
  have solid : (specialChars.all fun d => !isBlank d) = true := by decide
  simpa [blank] using List.all_eq_true.mp solid c special

theorem scan_code_append {front : List Char} (plain : ∀ c ∈ front, isPlain c = true) (depth : Int)
    (rest : List Char) : scan .code depth (front ++ rest) = scan .code depth rest := by
  induction front with
  | nil => rfl
  | cons c front ih =>
    have facts := plain c (by simp)
    simp only [isPlain, Bool.and_eq_true, decide_eq_true_eq, Bool.not_eq_true'] at facts
    rw [List.cons_append, scan.eq_def]
    simp only [facts, Bool.false_eq_true, ↓reduceIte, Int.add_zero]
    exact ih fun d member => plain d (List.mem_cons_of_mem c member)

/-- Plain characters without a backslash leave nothing open. -/
theorem after_closed_of_plain {line : String}
    (plain : ∀ c ∈ line.toList, isPlain c = true ∧ c ≠ '\\') : Carry.closed.after line = .closed := by
  have scanned : scan .code 0 line.toList = (.code, 0) := by
    have whole := scan_code_append (fun c member => (plain c member).1) 0 []
    rwa [List.append_nil] at whole
  have ends : Carry.endsInBackslash line = false := by
    rw [Carry.endsInBackslash, Bool.and_eq_false_iff, decide_eq_false_iff_not]
    refine .inl fun last => ?_
    have kept := List.mem_reverse.mp (List.mem_of_getLast? last)
    have member := List.mem_reverse.mp ((List.dropWhile_sublist isBlank).subset kept)
    exact (plain _ member).2 rfl
  simp only [Carry.after, Carry.closed, Carry.mode, Int.ofNat_zero, scanned, ends]
  rfl

/-- What stands before a character that is not blank does not matter to what the line leaves open, as
long as it is plain and the line is no comment. -/
theorem after_closed_append {front front' rest : List Char} {c : Char} {line line' : String}
    (text : line.toList = front ++ c :: rest) (text' : line'.toList = front' ++ c :: rest)
    (plain : ∀ d ∈ front, isPlain d = true) (plain' : ∀ d ∈ front', isPlain d = true)
    (solid : isBlank c = false) (code : isComment line = false) (code' : isComment line' = false) :
    Carry.closed.after line = Carry.closed.after line' := by
  have scanned : scan .code 0 line.toList = scan .code 0 line'.toList := by
    rw [text, text', scan_code_append plain, scan_code_append plain']
  have ends : Carry.endsInBackslash line = Carry.endsInBackslash line' := by
    rw [Carry.endsInBackslash, Carry.endsInBackslash, text, text', getLast?_trimEnd_append solid,
      getLast?_trimEnd_append solid, code, code']
  simp only [Carry.after, Carry.closed, Carry.mode, Int.ofNat_zero, scanned, ends]

/-! ## Lines at another indentation -/

section Realigned

variable {line : String}

theorem toList_indented (header text : String) :
    (indentation header ++ text).toList =
      header.toList.takeWhile isIndentChar ++ text.toList := by
  rw [indentation, String.toList_append, String.toList_ofList]

theorem isBlank_of_mem_indentation {cs : List Char} :
    ∀ c ∈ cs.takeWhile isIndentChar, isBlank c = true :=
  fun _ member => isBlank_of_isIndentChar (List.mem_takeWhile_imp member)

theorem newline_not_mem_trimStart (free : '\n' ∉ line.toList) : '\n' ∉ (trimStart line).toList := by
  rw [trimStart, String.toList_ofList]
  exact fun member => free ((List.dropWhile_suffix isBlank).subset member)

theorem newline_not_mem_indented {header text : String} (free : '\n' ∉ text.toList) :
    '\n' ∉ (indentation header ++ text).toList := by
  rw [toList_indented, List.mem_append]
  rintro (member | member)
  · exact absurd (List.mem_takeWhile_imp member) (by decide)
  · exact free member

variable (code : isCode line = true)
include code

/-- A line of code that gets another indentation keeps its text. -/
theorem trimStart_realigned (header : String) :
    Chars.trimStart (indentation header ++ trimStart line).toList =
      Chars.trimStart line.toList := by
  obtain ⟨c, rest, begins⟩ := exists_trimStart_of_isCode code
  have solid := isBlank_of_trimStart_eq_cons begins
  rw [toList_indented, trimStart, String.toList_ofList, begins,
    trimStart_append isBlank_of_mem_indentation solid]

theorem isCode_realigned (header : String) :
    isCode (indentation header ++ trimStart line) = true := by
  obtain ⟨c, rest, begins⟩ := exists_trimStart_of_isCode code
  have comment := isComment_of_isCode code
  refine isCode_of_head? (c := c) (by rw [trimStart_realigned code header, begins]; rfl) ?_
  rintro rfl
  simp [isComment, begins] at comment

theorem indentWidth_realigned (header : String) :
    indentWidth (indentation header ++ trimStart line) = indentWidth header := by
  obtain ⟨c, rest, begins⟩ := exists_trimStart_of_isCode code
  have other : isIndentChar c = false := by
    have solid := isBlank_of_trimStart_eq_cons begins
    rw [← Bool.not_eq_true] at solid ⊢
    exact mt isBlank_of_isIndentChar solid
  rw [indentWidth, toList_indented, trimStart, String.toList_ofList, begins,
    columnAfter_append 0 other, indentWidth]

/-- It also leaves open what it did. -/
theorem after_closed_realigned (header : String) :
    Carry.closed.after (indentation header ++ trimStart line) = Carry.closed.after line := by
  obtain ⟨c, rest, begins⟩ := exists_trimStart_of_isCode code
  obtain ⟨blanks, text, blank⟩ := exists_blanks_append_trimStart line.toList
  rw [begins] at text
  have text' : (indentation header ++ trimStart line).toList =
      header.toList.takeWhile isIndentChar ++ c :: rest := by
    rw [toList_indented, trimStart, String.toList_ofList, begins]
  exact after_closed_append text' text
    (fun d member => isPlain_of_isBlank (isBlank_of_mem_indentation d member))
    (fun d member => isPlain_of_isBlank (blank d member)) (isBlank_of_trimStart_eq_cons begins)
    (isComment_of_isCode (isCode_realigned code header)) (isComment_of_isCode code)

end Realigned

/-! ## First words -/

theorem dropStart?_eq_some_iff {start text rest : List Char} :
    dropStart? start text = some rest ↔ text = start ++ rest := by
  induction start generalizing text with
  | nil => simp [dropStart?, eq_comm]
  | cons s start ih =>
    cases text with
    | nil => simp [dropStart?]
    | cons c text =>
      by_cases same : s = c
      · simp [dropStart?, same, ih]
      · simp [dropStart?, same, Ne.symm same]

theorem beginsWithWord_iff {word : String} {text : List Char} :
    beginsWithWord word text = true ↔
      ∃ rest, text = word.toList ++ rest ∧ endsWord rest = true := by
  simp only [beginsWithWord, dropWord?, Option.isSome_filter, Option.any_eq_true,
    dropStart?_eq_some_iff]

theorem dropWordBlank?_eq_some_iff {word text rest : List Char} :
    dropWordBlank? word text = some rest ↔
      ∃ c more, text = word ++ c :: more ∧ isBlank c = true ∧ Chars.trimStart more = rest := by
  constructor
  · intro found
    unfold dropWordBlank? at found
    split at found
    · next c more split =>
      split at found
      · next blank =>
        exact ⟨c, more, dropStart?_eq_some_iff.mp split, blank, Option.some.inj found⟩
      · cases found
    · cases found
  · rintro ⟨c, more, split, blank, rfl⟩
    simp [dropWordBlank?, dropStart?_eq_some_iff.mpr split, blank]

theorem beginsWithWords_iff {first second : String} {text : List Char} :
    beginsWithWords first second text = true ↔
      ∃ c more rest, text = first.toList ++ c :: more ∧ isBlank c = true ∧
        Chars.trimStart more = second.toList ++ rest ∧ endsWord rest = true := by
  rw [beginsWithWords, Option.isSome_bind, Option.any_eq_true]
  constructor
  · rintro ⟨tail, dropped, word⟩
    obtain ⟨c, more, split, blank, rfl⟩ := dropWordBlank?_eq_some_iff.mp dropped
    obtain ⟨rest, second, ends⟩ := beginsWithWord_iff.mp word
    exact ⟨c, more, rest, split, blank, second, ends⟩
  · rintro ⟨c, more, rest, split, blank, second, ends⟩
    exact ⟨_, dropWordBlank?_eq_some_iff.mpr ⟨c, more, split, blank, rfl⟩,
      beginsWithWord_iff.mpr ⟨rest, second, ends⟩⟩

theorem dropWordColon?_isSome_iff {word text : List Char} :
    (dropWordColon? word text).isSome = true ↔
      ∃ more rest, text = word ++ more ∧ Chars.trimStart more = ':' :: rest := by
  constructor
  · intro found
    unfold dropWordColon? at found
    split at found
    · next rest split =>
      obtain ⟨more, dropped, colon⟩ := Option.map_eq_some_iff.mp split
      exact ⟨more, rest, dropStart?_eq_some_iff.mp dropped, colon⟩
    · cases found
  · rintro ⟨more, rest, split, colon⟩
    simp [dropWordColon?, dropStart?_eq_some_iff.mpr split, colon]

/-! ## Branches and openers -/

theorem classify_eq_elseIf_iff {line : String} :
    classify line = some .elseIf ↔
      beginsWithWord "elif" (Chars.trimStart line.toList) = true ∨
        beginsWithWords "else" "if" (Chars.trimStart line.toList) = true := by
  unfold classify classifyChars
  split
  · next word => simpa using word
  · next other => 
    split <;> simp_all

theorem classify_eq_otherwise_iff {line : String} :
    classify line = some .otherwise ↔
      ∃ more rest, Chars.trimStart line.toList = "else".toList ++ more ∧
        Chars.trimStart more = ':' :: rest := by
  rw [← dropWordColon?_isSome_iff]
  constructor
  · intro classified
    unfold classify classifyChars at classified
    split at classified
    · cases classified
    · split at classified
      · next colon => exact colon
      · cases classified
  · intro colon
    have other : ¬(beginsWithWord "elif" (Chars.trimStart line.toList) = true ∨
        beginsWithWords "else" "if" (Chars.trimStart line.toList) = true) := by
      obtain ⟨more, rest, text, begins⟩ := dropWordColon?_isSome_iff.mp colon
      rw [text]
      rintro (word | words)
      · cases word
      · obtain ⟨c, more', rest', split, blank, second, -⟩ := beginsWithWords_iff.mp words
        obtain rfl : more = c :: more' := List.append_cancel_left split
        rw [Chars.trimStart, List.dropWhile_cons_of_pos blank] at begins
        rw [Chars.trimStart, begins] at second
        cases second
    rw [← Bool.or_eq_true] at other
    rw [classify, classifyChars, if_neg other, if_pos colon]

/-- Branches begin with the same two letters. -/
theorem exists_of_classify {line : String} {kind : BranchKind}
    (classified : classify line = some kind) :
    ∃ rest, Chars.trimStart line.toList = 'e' :: 'l' :: rest := by
  cases kind with
  | elseIf =>
    rcases classify_eq_elseIf_iff.mp classified with word | words
    · obtain ⟨rest, text, -⟩ := beginsWithWord_iff.mp word
      exact ⟨_, text⟩
    · obtain ⟨c, more, rest, text, -⟩ := beginsWithWords_iff.mp words
      exact ⟨_, text⟩
  | otherwise =>
    obtain ⟨more, rest, text, -⟩ := classify_eq_otherwise_iff.mp classified
    exact ⟨_, text⟩

/-- What a branch may continue begins with one of few letters. -/
theorem head?_of_accepts {line : String} {kind : BranchKind} (accepts : kind.accepts line = true) :
    ∃ c ∈ ['i', 'e', 'f', 'w', 'a', 't'], (Chars.trimStart line.toList).head? = some c := by
  have first (word : String) (c : Char) (named : word.toList.head? = some c)
      (begins : ∃ more, Chars.trimStart line.toList = word.toList ++ more) :
      (Chars.trimStart line.toList).head? = some c := by
    obtain ⟨more, text⟩ := begins
    rw [text, List.head?_append, named]
    rfl
  cases kind with
  | elseIf =>
    simp only [BranchKind.accepts, Bool.or_eq_true, beginsWithWord_iff] at accepts
    rcases accepts with ⟨rest, text, -⟩ | ⟨rest, text, -⟩
    · exact ⟨'i', by decide, first "if" _ rfl ⟨rest, text⟩⟩
    · exact ⟨'e', by decide, first "elif" _ rfl ⟨rest, text⟩⟩
  | otherwise =>
    simp only [BranchKind.accepts, List.any_cons, List.any_nil, Bool.or_false, Bool.or_eq_true,
      beginsWithWord_iff, beginsWithWords_iff, dropWordColon?_isSome_iff] at accepts
    rcases accepts with ((⟨rest, text, -⟩ | ⟨rest, text, -⟩ | ⟨rest, text, -⟩ | ⟨rest, text, -⟩ |
      ⟨rest, text, -⟩) | ⟨c, more, rest, text, -⟩) | ⟨more, rest, text, -⟩
    · exact ⟨'i', by decide, first "if" _ rfl ⟨rest, text⟩⟩
    · exact ⟨'e', by decide, first "elif" _ rfl ⟨rest, text⟩⟩
    · exact ⟨'f', by decide, first "for" _ rfl ⟨rest, text⟩⟩
    · exact ⟨'w', by decide, first "while" _ rfl ⟨rest, text⟩⟩
    · exact ⟨'e', by decide, first "except" _ rfl ⟨rest, text⟩⟩
    · exact ⟨'a', by decide, first "async" _ rfl ⟨c :: more, text⟩⟩
    · exact ⟨'t', by decide, first "try" _ rfl ⟨more, text⟩⟩

/-- Branches of every kind may continue what begins with the word `if` or `elif`. -/
theorem accepts_of_conditional {line word : String} (member : word ∈ ["if", "elif"])
    (begins : beginsWithWord word (Chars.trimStart line.toList) = true) (kind : BranchKind) :
    kind.accepts line = true := by
  simp only [List.mem_cons, List.not_mem_nil, or_false] at member
  rcases member with rfl | rfl <;> cases kind <;> simp [BranchKind.accepts, begins]

/-- An `else` may also continue loops and handlers. -/
theorem accepts_otherwise_of_word {line word : String} (member : word ∈ ["for", "while", "except"])
    (begins : beginsWithWord word (Chars.trimStart line.toList) = true) :
    BranchKind.otherwise.accepts line = true := by
  simp only [List.mem_cons, List.not_mem_nil, or_false] at member
  rcases member with rfl | rfl | rfl <;> simp [BranchKind.accepts, begins]

theorem accepts_otherwise_of_async_for {line : String}
    (begins : beginsWithWords "async" "for" (Chars.trimStart line.toList) = true) :
    BranchKind.otherwise.accepts line = true := by
  simp [BranchKind.accepts, begins]

end StrategyMend.Source
