import StrategyMend.Proofs.Repair.Marks
import StrategyMend.Proofs.Repair.Mending
import StrategyMend.Proofs.Text.Pieces

/-!
# What the deletion of an `else` takes away

A detached `else` is deleted with its block if the block does nothing. A statement does nothing if
it is `pass`, `...`, or a string and nothing else. Whether a block does is judged by the first lines
of its statements: each must be `pass` or `...`, or begin with a quote.

A statement of the first kind never goes on in another line (`after_closed_of_isIdle`), but one that
begins with a string may go on behind it. So what is deleted does nothing exactly if each of its
statements that begins with a quote is a string and nothing else (`deletedElse_doesNothing_iff`). A
call behind a string is deleted too (`deletedElse_sells`).
-/

set_option autoImplicit false

namespace StrategyMend.Repair

open Source Text

/-! ## Statements that do nothing -/

/-- The statements that begin on lines, each with the lines that continue it. -/
def statements : List MarkedLine → List (List String)
  | [] => []
  | line :: rest =>
    let continuation := rest.takeWhile fun next => !next.starts
    (if line.isStatement then [line.text :: continuation.map MarkedLine.text] else []) ++
      statements rest

/-- What follows a string that ends at `closing`. A backslash takes the next character with it, and
between single quotes no line ends. -/
def afterString? (closing : List Char) : List Char → Option (List Char)
  | [] => none
  | '\\' :: _ :: rest => afterString? closing rest
  | c :: rest =>
    match dropStart? closing (c :: rest) with
    | some after => some after
    | none => if c = '\n' && closing.length = 1 then none else afterString? closing rest

/-- What follows the string with which a text begins. -/
def afterLiteral? : List Char → Option (List Char)
  | [] => none
  | c :: rest =>
    if isQuote c then
      match dropStart? [c, c] rest with
      | some inside => afterString? [c, c, c] inside
      | none => afterString? [c] rest
    else none

/-- Whether a statement begins with a quote. -/
def beginsWithQuote (statement : List String) : Bool :=
  ((Chars.trimStart (unlines statement).toList).head?.map isQuote).getD false

/-- Whether a statement is a string and nothing else but comments. -/
def isBareString (statement : List String) : Bool :=
  match afterLiteral? (Chars.trimStart (unlines statement).toList) with
  | some rest => (splitLines (String.ofList rest)).all fun line => !isCode line
  | none => false

/-- Whether a statement is `pass`, `...`, or a string and nothing else. -/
def doesNothing (statement : List String) : Bool :=
  isIdle (trim (unlines statement)) || isBareString statement

/-! ## One line of an idle statement -/

theorem isBlank_or_mem_trim {line : String} {c : Char} (member : c ∈ line.toList) :
    isBlank c = true ∨ c ∈ (trim line).toList := by
  have cut {cs : List Char} (listed : c ∈ cs) : isBlank c = true ∨ c ∈ cs.dropWhile isBlank := by
    rw [← List.takeWhile_append_dropWhile (p := isBlank) (l := cs), List.mem_append] at listed
    exact listed.imp_left List.mem_takeWhile_imp
  rcases cut member with blank | behind
  · exact .inl blank
  · rcases cut (List.mem_reverse.mpr behind) with blank | inside
    · exact .inl blank
    · refine .inr ?_
      rw [trim, String.toList_ofList]
      exact List.mem_reverse.mpr inside

/-- Between blanks, a statement that does nothing leaves nothing open. -/
theorem after_closed_of_isIdle {line : String} (idle : isIdle (trim line) = true) :
    Carry.closed.after line = .closed := by
  have solid : ((trim line).toList.all fun c => isPlain c && c != '\\') = true := by
    simp only [isIdle, Bool.or_eq_true, decide_eq_true_eq] at idle
    rcases idle with pass | dots
    · rw [pass]
      decide
    · rw [dots]
      decide
  refine after_closed_of_plain fun c member => ?_
  rcases isBlank_or_mem_trim member with blank | inside
  · refine ⟨isPlain_of_isBlank blank, ?_⟩
    rintro rfl
    exact absurd blank (by decide)
  · simpa using List.all_eq_true.mp solid c inside

/-- The first character of a statement is that of its first line. -/
theorem beginsWithQuote_cons {line : String} (code : isCode line = true) (more : List String) :
    beginsWithQuote (line :: more) = ((trim line).toList.head?.map isQuote).getD false := by
  obtain ⟨blanks, split, blank⟩ := exists_blanks_append_trimStart line.toList
  obtain ⟨c, rest, begins⟩ := exists_trimStart_of_isCode code
  have solid := isBlank_of_trimStart_eq_cons begins
  have first : (trim line).toList.head? = some c := head?_trim_of_head? (by rw [begins]; rfl)
  rw [begins] at split
  obtain ⟨behind, text⟩ : ∃ behind, (unlines (line :: more)).toList = blanks ++ c :: behind := by
    cases more with
    | nil => exact ⟨rest, by simp [unlines, joinChars, ← split]⟩
    | cons next others => exact ⟨_, by simp [unlines, joinChars, split]; rfl⟩
  rw [beginsWithQuote, text, trimStart_append blank solid, first]
  rfl

/-! ## Statements of lines that are judged to do nothing -/

/-- A statement begins on a line of code and has no further line if that line is `pass` or `...`. -/
theorem exists_of_mem_statements {carry : Carry} {lines : List String} {statement : List String}
    (member : statement ∈ statements (markFrom carry lines)) :
    ∃ line more, statement = line :: more ∧ isCode line = true ∧
      ⟨line, true⟩ ∈ markFrom carry lines ∧ (isIdle (trim line) = true → more = []) := by
  induction lines generalizing carry with
  | nil => cases member
  | cons line rest ih =>
    rw [markFrom_cons, statements, List.mem_append] at member
    rcases member with here | behind
    · split at here
      · next begins =>
        rw [MarkedLine.isStatement, Bool.and_eq_true] at begins
        obtain ⟨starts, code⟩ := begins
        obtain rfl : carry = .closed := Carry.startsStatement_iff.mp starts
        refine ⟨line, _, List.mem_singleton.mp here, code, List.mem_cons_self, fun idle => ?_⟩
        rw [after_closed_of_isIdle idle]
        cases rest <;> rfl
      · cases here
    · obtain ⟨first, more, same, code, listed, single⟩ := ih behind
      exact ⟨first, more, same, code, List.mem_cons_of_mem _ listed, single⟩

theorem isIdle_eq_false_of_beginsWithQuote {statement : List String}
    (quoted : beginsWithQuote statement = true) : isIdle (trim (unlines statement)) = false := by
  rw [beginsWithQuote] at quoted
  cases begins : (Chars.trimStart (unlines statement).toList).head? with
  | none => simp [begins] at quoted
  | some c =>
    have quote : isQuote c = true := by simpa [begins] using quoted
    have first := head?_trim_of_head? begins
    rw [isIdle, Bool.or_eq_false_iff, decide_eq_false_iff_not, decide_eq_false_iff_not]
    constructor
    · intro pass
      rw [pass] at first
      obtain rfl : 'p' = c := Option.some.inj first
      exact absurd quote (by decide)
    · intro dots
      rw [dots] at first
      obtain rfl : '.' = c := Option.some.inj first
      exact absurd quote (by decide)

/-- A statement whose first line is judged to do nothing does nothing exactly if it is a string and
nothing else in case it begins with a quote. -/
theorem doesNothing_iff {line : String} {more : List String} (code : isCode line = true)
    (judged : isTrivialStatement (trim line) = true)
    (single : isIdle (trim line) = true → more = []) :
    doesNothing (line :: more) = true ↔
      (beginsWithQuote (line :: more) = true → isBareString (line :: more) = true) := by
  rw [doesNothing, Bool.or_eq_true]
  constructor
  · rintro (idle | bare) quoted
    · rw [isIdle_eq_false_of_beginsWithQuote quoted] at idle
      cases idle
    · exact bare
  · intro bare
    rw [isTrivialStatement, Bool.or_eq_true] at judged
    rcases judged with idle | quoted
    · refine .inl ?_
      have alone : unlines [line] = line := by simp [unlines, joinChars]
      rwa [single idle, alone]
    · exact .inr (bare (by rwa [beginsWithQuote_cons code]))

/-! ## Deleted blocks -/

/-- The lines that a fix takes away behind its first one, marked as in the whole text. -/
def deletedBody (lines : List String) (fix : Fix) : List MarkedLine :=
  ((markLines lines).drop fix.line).take (fix.endLine - fix.line)

section Deletion

variable {config : Config.Fixer} {issue : Issue} {lines : List String} {fix : Fix}

/-- The generator deletes only the block of an `else` that is judged to do nothing. -/
theorem isTrivialElse_of_delete
    (made : (orphanedBranch config).generate issue lines = .proposed fix)
    (deletes : fix.editKind = .delete) :
    issue.lineIndex < lines.length ∧ fix.line = issue.line ∧
      fix.endLine = blockEnd lines issue.lineIndex + 1 ∧
        isTrivialElse lines issue.lineIndex (blockEnd lines issue.lineIndex) = true := by
  obtain ⟨header, here, found⟩ := Option.bind_eq_some_iff.mp (Attempt.ofOption_eq_proposed.mp made)
  refine ⟨(List.getElem?_eq_some_iff.mp here).1, ?_⟩
  obtain ⟨removed, replaced⟩ := Fix.editKind_eq_delete_iff.mp deletes
  unfold orphanFix? at found
  split at found
  · cases found
  · next classified =>
    obtain ⟨standalone, rewritten, rfl⟩ := Option.map_eq_some_iff.mp found
    have own := standalone_of_elseIfAsIf? classified rewritten
    exact absurd replaced (unlines_cons_ne_empty own.toList_ne_nil [])
  · dsimp only at found
    split at found
    · next judged =>
      cases found
      exact ⟨rfl, rfl, judged⟩
    · cases found
      exact absurd replaced removed

/-- The deleted lines behind the header are those of its block. -/
theorem deletedBody_of_delete (positive : 0 < issue.line)
    (made : (orphanedBranch config).generate issue lines = .proposed fix)
    (deletes : fix.editKind = .delete) :
    deletedBody lines fix = ((markLines lines).drop (issue.lineIndex + 1)).take
      (blockEnd lines issue.lineIndex - issue.lineIndex) := by
  obtain ⟨-, first, last, -⟩ := isTrivialElse_of_delete made deletes
  have start : issue.line = issue.lineIndex + 1 := by
    rw [Issue.lineIndex]
    omega
  rw [deletedBody, first, last, start, Nat.add_sub_add_right]

/-- What stands behind the colon of a deleted header does nothing, and nothing else is deleted. -/
theorem inlineBody_of_delete (positive : 0 < issue.line)
    (made : (orphanedBranch config).generate issue lines = .proposed fix)
    (deletes : fix.editKind = .delete) {body : String}
    (inline : lines[issue.lineIndex]?.bind inlineBody = some body) :
    isIdle body = true ∧ deletedBody lines fix = [] := by
  obtain ⟨-, -, -, judged⟩ := isTrivialElse_of_delete made deletes
  simp only [isTrivialElse, inline, Bool.and_eq_true, decide_eq_true_eq] at judged
  obtain ⟨idle, single⟩ := judged
  refine ⟨idle, ?_⟩
  rw [deletedBody_of_delete positive made deletes, single, Nat.sub_self, List.take_zero]

/-- The first lines of deleted statements are judged to do nothing. -/
theorem isTrivialStatement_of_mem_deletedBody (positive : 0 < issue.line)
    (made : (orphanedBranch config).generate issue lines = .proposed fix)
    (deletes : fix.editKind = .delete) {line : MarkedLine} (member : line ∈ deletedBody lines fix)
    (statement : line.isStatement = true) : isTrivialStatement (trim line.text) = true := by
  cases inline : lines[issue.lineIndex]?.bind inlineBody with
  | some body =>
    rw [(inlineBody_of_delete positive made deletes inline).2] at member
    cases member
  | none =>
    obtain ⟨-, -, -, judged⟩ := isTrivialElse_of_delete made deletes
    rw [deletedBody_of_delete positive made deletes] at member
    simp only [isTrivialElse, inline] at judged
    have trivial_ := List.all_eq_true.mp judged line member
    rwa [statement] at trivial_

/-- **What a deleted `else` did.** What stands behind the colon of the header does nothing. The
statements behind the header that are deleted with it do nothing exactly if each that begins with a
quote is a string and nothing else. No statement goes on behind the deleted lines. -/
theorem deletedElse_doesNothing_iff (config : Config.Fixer) {issue : Issue} {lines : List String}
    {fix : Fix} (positive : 0 < issue.line)
    (made : (orphanedBranch config).generate issue lines = .proposed fix)
    (deletes : fix.editKind = .delete) :
    (∀ body ∈ lines[issue.lineIndex]?.bind inlineBody, isIdle body = true) ∧
      ((∀ statement ∈ statements (deletedBody lines fix), doesNothing statement = true) ↔
        ∀ statement ∈ statements (deletedBody lines fix),
          beginsWithQuote statement = true → isBareString statement = true) ∧
      ∀ line, (markLines lines)[fix.endLine]? = some line → line.starts = true := by
  obtain ⟨inside, -, last, -⟩ := isTrivialElse_of_delete made deletes
  refine ⟨fun body inline => (inlineBody_of_delete positive made deletes inline).1,
    forall₂_congr fun statement member => ?_, ?_⟩
  · have marked : deletedBody lines fix = markFrom (Carry.closed.afterLines (lines.take fix.line))
        ((lines.drop fix.line).take (fix.endLine - fix.line)) := by
      rw [deletedBody, markLines_eq_markFrom, drop_markFrom, take_markFrom]
    rw [marked] at member
    obtain ⟨line, more, rfl, code, listed, single⟩ := exists_of_mem_statements member
    rw [← marked] at listed
    have judged := isTrivialStatement_of_mem_deletedBody positive made deletes listed code
    exact doesNothing_iff code judged single
  · rw [last]
    exact (blockEnd_spec inside).2.2

end Deletion

/-- An issue on the second line. -/
def secondLineIssue : Issue := ⟨.critical, .orphanedBranch, 2, "m", none, none⟩

/-- The deletion of the second line up to the last one. -/
def deletionFromSecond (lines : List String) : Fix :=
  (Fix.delete secondLineIssue 2 lines.length (lines.drop 1))
    |>.classified .auto Config.standard.fixer.deleteTrivialElseConfidence
      Config.standard.fixer.autoFloor
    |>.explained "delete the detached else; its body does nothing"

/-- A block of a `pass` and a string of two lines does nothing. -/
theorem deletedElse_doesNothing_passAndString :
    let lines := ["x = 1", "else:", "    pass", "    \"\"\"kept", "\"\"\"  # as a note"]
    let fix := deletionFromSecond lines
    (orphanedBranch Config.standard.fixer).generate secondLineIssue lines = .proposed fix ∧
      fix.editKind = .delete ∧
        statements (deletedBody lines fix) =
          [["    pass"], ["    \"\"\"kept", "\"\"\"  # as a note"]] ∧
          ∀ statement ∈ statements (deletedBody lines fix), doesNothing statement = true := by
  intro lines fix
  have made : (orphanedBranch Config.standard.fixer).generate secondLineIssue lines =
      .proposed fix := by decide +kernel
  have deletes : fix.editKind = .delete := by decide +kernel
  have main := deletedElse_doesNothing_iff Config.standard.fixer (by decide) made deletes
  exact ⟨made, deletes, by decide +kernel, main.2.1.mpr (by decide +kernel)⟩

/-- A call behind a string is deleted. -/
theorem deletedElse_sells :
    let lines := ["x = 1", "else:", "    \"exit\"; self.sell()"]
    let fix := deletionFromSecond lines
    (orphanedBranch Config.standard.fixer).generate secondLineIssue lines = .proposed fix ∧
      fix.kind = .auto ∧ fix.editKind = .delete ∧
        statements (deletedBody lines fix) = [["    \"exit\"; self.sell()"]] ∧
          doesNothing ["    \"exit\"; self.sell()"] = false := by
  decide +kernel

end StrategyMend.Repair
