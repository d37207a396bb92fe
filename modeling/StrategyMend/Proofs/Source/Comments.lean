import StrategyMend.Proofs.Source.Alike
import StrategyMend.Proofs.Source.Header
import StrategyMend.Proofs.Source.Lexer

/-!
# What a comment changes

Nothing in a comment is read, so a line may as well end in front of it: its indentation, its first
words and what it leaves open stay the same. Only whether the line is continued is judged by its
last character, comments included. So cutting off a comment keeps all marks exactly if the line is
continued both with and without it, or neither, or if that does not matter; then every branch stays
with its opener (`statementStarts_cut_iff`).

A backslash at the end of a comment hides the line below it (`backslashInComment_hidesLine`).
-/

set_option autoImplicit false

namespace StrategyMend.Source

open Text

/-! ## The text in front of a comment -/

section Text

variable {word text comment : List Char}

/-- No blank character is in the way of the beginning of a comment. -/
theorem trimStart_append_comment (text comment : List Char) :
    Chars.trimStart (text ++ '#' :: comment) = Chars.trimStart text ++ '#' :: comment := by
  rw [Chars.trimStart, Chars.trimStart, List.dropWhile_append]
  split
  · next blank =>
    rw [List.isEmpty_iff.mp blank]
    rfl
  · rfl

theorem dropStart?_append_comment (plain : '#' ∉ word) (text comment : List Char) :
    dropStart? word (text ++ '#' :: comment) =
      (dropStart? word text).map (· ++ '#' :: comment) := by
  induction word generalizing text with
  | nil => rfl
  | cons first word ih =>
    rw [List.mem_cons, not_or] at plain
    cases text with
    | nil => simp [dropStart?, Ne.symm plain.1]
    | cons c text =>
      by_cases same : first = c
      · simp [dropStart?, same, ih plain.2]
      · simp [dropStart?, same]

theorem endsWord_append_comment (text comment : List Char) :
    endsWord (text ++ '#' :: comment) = endsWord text := by
  cases text with
  | nil =>
    have mark : isWordChar '#' = false := by decide
    simp [endsWord, mark]
  | cons c rest => rfl

theorem isSome_dropWord?_append_comment (plain : '#' ∉ word) (text comment : List Char) :
    (dropWord? word (text ++ '#' :: comment)).isSome = (dropWord? word text).isSome := by
  rw [dropWord?, dropWord?, dropStart?_append_comment plain]
  cases dropStart? word text with
  | none => rfl
  | some rest => simp [Option.isSome_filter, endsWord_append_comment]

theorem beginsWithWord_append_comment {word : String} (plain : '#' ∉ word.toList)
    (text comment : List Char) :
    beginsWithWord word (text ++ '#' :: comment) = beginsWithWord word text :=
  isSome_dropWord?_append_comment plain text comment

theorem beginsWithWords_append_comment {first second : String} (plain : '#' ∉ first.toList)
    (plain' : '#' ∉ second.toList) (text comment : List Char) :
    beginsWithWords first second (text ++ '#' :: comment) = beginsWithWords first second text := by
  rw [beginsWithWords, beginsWithWords, dropWordBlank?, dropWordBlank?,
    dropStart?_append_comment plain]
  rcases dropStart? first.toList text with _ | _ | ⟨c, rest⟩
  · rfl
  · rfl
  · cases blank : isBlank c with
    | false => simp [blank]
    | true =>
      simp [blank, trimStart_append_comment, isSome_dropWord?_append_comment plain']

theorem isSome_dropWordColon?_append_comment (plain : '#' ∉ word) (text comment : List Char) :
    (dropWordColon? word (text ++ '#' :: comment)).isSome = (dropWordColon? word text).isSome := by
  rw [dropWordColon?, dropWordColon?, dropStart?_append_comment plain]
  rcases dropStart? word text with _ | rest
  · rfl
  · simp only [Option.map_some, trimStart_append_comment]
    rcases Chars.trimStart rest with _ | ⟨c, more⟩
    · rfl
    · by_cases colon : c = ':' <;> simp [colon]

theorem columnAfter_append_comment (column : Nat) (text comment : List Char) :
    columnAfter column (text ++ '#' :: comment) = columnAfter column text := by
  rw [← columnAfter_takeWhile, List.takeWhile_append]
  split
  · next whole =>
    rw [List.takeWhile_cons_of_neg (by decide), List.append_nil]
  · exact columnAfter_takeWhile column text

end Text

section Line

variable {line cut : String} {comment : List Char}

theorem isComment_cut (split : line.toList = cut.toList ++ '#' :: comment)
    (solid : isBlankLine cut = false) : isComment line = isComment cut := by
  obtain ⟨c, member, solid⟩ := List.all_eq_false.mp solid
  have trimmed : Chars.trimStart cut.toList ≠ [] := fun empty =>
    solid (List.dropWhile_eq_nil_iff.mp empty c member)
  rw [isComment, isComment, split, trimStart_append_comment, List.head?_append_of_ne_nil _ trimmed]

/-- A line is code exactly if there is code in front of its comment. -/
theorem isCode_cut (split : line.toList = cut.toList ++ '#' :: comment) :
    isCode line = isCode cut := by
  have solid : isBlankLine line = false := by
    rw [isBlankLine, isBlankText, split]
    exact List.all_eq_false.mpr ⟨'#', by simp, by decide⟩
  cases blank : isBlankLine cut with
  | false => rw [isCode, isCode, solid, blank, isComment_cut split blank]
  | true =>
    have trimmed : Chars.trimStart cut.toList = [] :=
      List.dropWhile_eq_nil_iff.mpr (List.all_eq_true.mp blank)
    have mark : isComment line = true := by
      rw [isComment, split, trimStart_append_comment, trimmed]
      rfl
    rw [isCode, isCode, blank, mark, Bool.not_true, Bool.and_false]
    rfl

/-- Its comment does not matter to what a line begins. -/
theorem sameHeader_cut (split : line.toList = cut.toList ++ '#' :: comment) :
    SameHeader line cut where
  width := by rw [indentWidth, indentWidth, split, columnAfter_append_comment]
  classified := by
    simp (disch := decide) only [classify, classifyChars, split, trimStart_append_comment,
      beginsWithWord_append_comment, beginsWithWords_append_comment,
      isSome_dropWordColon?_append_comment]
  accepts kind := by
    cases kind <;>
      simp (disch := decide) only [BranchKind.accepts, split, trimStart_append_comment,
        List.any_cons, List.any_nil, beginsWithWord_append_comment, beginsWithWords_append_comment,
        isSome_dropWordColon?_append_comment]
  definition := by
    simp (disch := decide) only [isDefHeader, split, trimStart_append_comment,
      beginsWithWord_append_comment, beginsWithWords_append_comment]

end Line

/-! ## What a line with a comment leaves open -/

theorem Reading.tripleQuote?_of_next_comment {reading : Reading} {c : Char}
    (comment : reading.next c = .comment) : reading.tripleQuote? = none := by
  cases reading <;> simp only [Reading.next] at comment <;> grind [Reading.tripleQuote?]

/-- A lexer that comes to a comment reads nothing more. -/
theorem Lexer.read_append_comment {lexer : Lexer} {cut : List Char}
    (reaches : (lexer.read (cut ++ ['#'])).reading = .comment) (comment : List Char) :
    lexer.read (cut ++ '#' :: comment) = ⟨.comment, (lexer.read cut).depth⟩ := by
  rw [read_append, read_cons] at reaches
  have stepped : (lexer.read cut).step '#' = ⟨.comment, (lexer.read cut).depth⟩ := by
    rw [step, show (lexer.read cut).reading.next '#' = .comment from reaches]
    simp [bracketStep]
  rw [read_append, read_cons, stepped, read_comment]

/-- Without its comment a line leaves the same open, the last backslash apart. -/
theorem Carry.exists_after_cut {carry : Carry} {line cut : String} {comment : List Char}
    (split : line.toList = cut.toList ++ '#' :: comment)
    (reaches : (carry.lexer.read (cut.toList ++ ['#'])).reading = .comment) :
    ∃ depth, carry.after line = ⟨depth, none, endsInBackslash line⟩ ∧
      carry.after cut = ⟨depth, none, endsInBackslash cut⟩ := by
  refine ⟨(carry.lexer.read cut.toList).depth.toNat, ?_, ?_⟩
  · rw [after_eq, split, Lexer.read_append_comment reaches]
    rfl
  · rw [Lexer.read_append, Lexer.read_cons] at reaches
    rw [after_eq, Reading.tripleQuote?_of_next_comment reaches]
    rfl

/-- Whether a line is continued matters to the line below it only, and only outside of brackets. -/
theorem startsAfter_eq_iff {depth : Nat} {continued continued' : Bool} {lines : List String} :
    startsAfter ⟨depth, none, continued⟩ lines = startsAfter ⟨depth, none, continued'⟩ lines ↔
      lines = [] ∨ depth ≠ 0 ∨ continued = continued' := by
  cases lines with
  | nil => simp [startsAfter]
  | cons line rest =>
    have behind : (Carry.mk depth none continued).after line =
        (Carry.mk depth none continued').after line := rfl
    rw [startsAfter, startsAfter, behind]
    by_cases closed : depth = 0 <;> simp [Carry.startsStatement, closed]

theorem statementStarts_append_cons (front : List String) (line : String) (back : List String) :
    statementStarts (front ++ line :: back) =
      statementStarts front ++ (Carry.closed.afterLines front).startsStatement ::
        startsAfter ((Carry.closed.afterLines front).after line) back := by
  rw [statementStarts, ← map_starts_markFrom, markFrom_append, markFrom_cons, List.map_append,
    List.map_cons, map_starts_markFrom, map_starts_markFrom]
  rfl

/-- **A comment may be cut off** exactly if the line is continued both with it and without it, or
neither, or if no line follows or a bracket is open anyway. Then every branch stays with its
opener. -/
theorem statementStarts_cut_iff {front : List String} (back : List String) {line cut : String}
    {comment : List Char} (split : line.toList = cut.toList ++ '#' :: comment)
    (reaches :
      ((Carry.closed.afterLines front).lexer.read (cut.toList ++ ['#'])).reading = .comment) :
    (statementStarts (front ++ line :: back) = statementStarts (front ++ cut :: back) ↔
      back = [] ∨ ((Carry.closed.afterLines front).after line).depth ≠ 0 ∨
        Carry.endsInBackslash line = Carry.endsInBackslash cut) ∧
    (statementStarts (front ++ line :: back) = statementStarts (front ++ cut :: back) →
      ∀ window index,
        matchAt (front ++ line :: back) window index =
          matchAt (front ++ cut :: back) window index) := by
  refine ⟨?_, fun starts => matchAt_exchange (isCode_cut split) (sameHeader_cut split) starts⟩
  obtain ⟨depth, whole, short⟩ := Carry.exists_after_cut split reaches
  rw [statementStarts_append_cons, statementStarts_append_cons, List.append_cancel_left_eq,
    List.cons_inj_right, whole, short, startsAfter_eq_iff]

/-- A line that begins inside of a string and has hashes in strings in front of its comment. -/
def hashesBefore (comment : String) : List String :=
  ["s = '''"] ++ ("#''' + '#('  " ++ comment) :: ["if a: b()", "else: c()"]

theorem statementStarts_cut_iff_hashesBefore :
    ((Carry.closed.afterLines ["s = '''"]).lexer.read
        ("#''' + '#('  ".toList ++ ['#'])).reading = .comment ∧
      statementStarts (hashesBefore "# it's [") = statementStarts (hashesBefore "") ∧
      matchAt (hashesBefore "# it's [") 50 3 = matchAt (hashesBefore "") 50 3 ∧
      (matchAt (hashesBefore "# it's [") 50 3).map Branch.found = some (.aligned 2) := by
  have reaches : ((Carry.closed.afterLines ["s = '''"]).lexer.read
      (("#''' + '#('  " ++ "").toList ++ ['#'])).reading = .comment := by
    decide +kernel
  have split : ("#''' + '#('  " ++ "# it's [").toList =
      ("#''' + '#('  " ++ "").toList ++ '#' :: " it's [".toList := by
    decide +kernel
  obtain ⟨same, stays⟩ := statementStarts_cut_iff ["if a: b()", "else: c()"] split reaches
  have starts := same.mpr (.inr (.inr (by decide +kernel)))
  exact ⟨reaches, starts, stays starts 50 3, by decide +kernel⟩

/-- An assignment in front of a conditional. -/
def assignmentWith (comment : String) : List String :=
  ("x = 1  " ++ comment) :: ["if a:", "    b()", "elif c:", "    d()"]

/-- With a backslash at the end of its comment, the first line hides the `if` below it, and the
`elif` is an orphan. -/
theorem backslashInComment_hidesLine :
    (Carry.closed.lexer.read ("x = 1  ".toList ++ ['#'])).reading = .comment ∧
      statementStarts (assignmentWith "# \\") = [true, false, true, true, true] ∧
      statementStarts (assignmentWith "") = [true, true, true, true, true] ∧
      (matchAt (assignmentWith "# \\") 50 3).map Branch.found = some .orphaned ∧
      (matchAt (assignmentWith "") 50 3).map Branch.found = some (.aligned 1) := by
  decide +kernel

end StrategyMend.Source
