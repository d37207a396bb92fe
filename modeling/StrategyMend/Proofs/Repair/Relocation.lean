import StrategyMend.Proofs.Repair.BranchRepair
import StrategyMend.Proofs.Repair.TopOfBody
import StrategyMend.Proofs.Source.Silenced

/-!
# Blocks that are commented out

A detached branch that belongs in a notification method is commented out with its block. This takes
the place of exactly the lines of the block, line by line, and leaves nothing open, so the lines around
are read as before. Without the marks the lines are those of the block again, unless a line begins with
blank characters other than spaces and tabs, which are lost (`generate_callbackRelocation`).

Branches around the block keep their openers. Only a branch that was aligned with the header of the
block itself belongs elsewhere from then on: where a branch of its kind on the line of the header would
have belonged (`aligned_callbackRelocation`). That may be nowhere (`detachedChain_orphaned`).
-/

set_option autoImplicit false

namespace StrategyMend.Repair

open Source Text

/-! ## Lines as comments -/

section Line

variable {mark line : String}

theorem toList_commentOut (mark line : String) :
    (commentOut mark line).toList =
      line.toList.takeWhile isIndentChar ++ (mark.toList ++ Chars.trimStart line.toList) := by
  rw [commentOut, String.append_assoc, toList_indented, String.toList_append, trimStart,
    String.toList_ofList]

theorem isComment_commentOut (sign : mark.toList.head? = some '#') (line : String) :
    isComment (commentOut mark line) = true := by
  obtain ⟨rest, begins⟩ := List.head?_eq_some_iff.mp sign
  rw [isComment, toList_commentOut, begins, List.cons_append,
    trimStart_append isBlank_of_mem_indentation (by decide)]
  rfl

theorem isBlankLine_of_isComment (comment : isComment line = true) : isBlankLine line = false := by
  rw [← Bool.not_eq_true]
  intro blank
  have trimmed : Chars.trimStart line.toList = [] :=
    List.dropWhile_eq_nil_iff.mpr (List.all_eq_true.mp blank)
  simp [isComment, trimmed] at comment

theorem newline_not_mem_commentOut (plain : '\n' ∉ mark.toList) (free : '\n' ∉ line.toList) :
    '\n' ∉ (commentOut mark line).toList := by
  rw [commentOut, String.append_assoc]
  refine newline_not_mem_indented ?_
  rw [String.toList_append, List.mem_append]
  exact not_or.mpr ⟨plain, newline_not_mem_trimStart free⟩

/-- A line that begins with spaces and tabs alone is indented by all its blank beginning. -/
theorem takeWhile_isIndentChar {cs : List Char}
    (indented : ∀ c ∈ cs.takeWhile isBlank, isIndentChar c = true) :
    cs.takeWhile isIndentChar = cs.takeWhile isBlank := by
  have remaining : ∀ c ∈ (Chars.trimStart cs).head?, isIndentChar c = false := by
    intro c first
    obtain ⟨rest, text⟩ := List.head?_eq_some_iff.mp first
    have solid := isBlank_of_trimStart_eq_cons text
    exact Bool.eq_false_iff.mpr (mt isBlank_of_isIndentChar (by simp [solid]))
  calc cs.takeWhile isIndentChar
      = (cs.takeWhile isBlank ++ Chars.trimStart cs).takeWhile isIndentChar := by
        rw [Chars.trimStart, List.takeWhile_append_dropWhile]
    _ = cs.takeWhile isBlank := takeWhile_append_rest indented remaining

/-- A line without the mark behind its indentation. -/
def uncomment (mark line : String) : String :=
  match dropStart? mark.toList (line.toList.dropWhile isIndentChar) with
  | some rest => String.ofList (line.toList.takeWhile isIndentChar ++ rest)
  | none => line

/-- A line that begins with spaces and tabs alone is given back by its comment. -/
theorem uncomment_commentOut (sign : mark.toList.head? = some '#')
    (indented : ∀ c ∈ line.toList.takeWhile isBlank, isIndentChar c = true) :
    uncomment mark (commentOut mark line) = line := by
  obtain ⟨rest, begins⟩ := List.head?_eq_some_iff.mp sign
  have indents : ∀ c ∈ line.toList.takeWhile isIndentChar, isIndentChar c = true :=
    fun _ => List.mem_takeWhile_imp
  have indentation' : (commentOut mark line).toList.takeWhile isIndentChar =
      line.toList.takeWhile isIndentChar := by
    rw [toList_commentOut]
    exact takeWhile_append_rest indents (by simp [begins, isIndentChar])
  have behind : (commentOut mark line).toList.dropWhile isIndentChar =
      mark.toList ++ Chars.trimStart line.toList := by
    rw [toList_commentOut, List.dropWhile_append_of_pos indents, begins, List.cons_append,
      List.dropWhile_cons_of_neg (by decide)]
  rw [uncomment, behind, dropStart?_eq_some_iff.mpr rfl]
  dsimp only
  rw [indentation', takeWhile_isIndentChar indented, Chars.trimStart,
    List.takeWhile_append_dropWhile, String.ofList_toList]

end Line

/-! ## Blocks as comments -/

/-- The lines of a block without the marks of comments. Blank lines stay as they are. -/
def uncommentBlock : List String → List String
  | [] => []
  | header :: body =>
    uncomment relocationMarker header ::
      body.map fun line => if isBlankLine line then line else uncomment "# " line

section Block

variable {block : List String}

theorem length_commentOutBlock (block : List String) :
    (commentOutBlock block).length = block.length := by
  cases block <;> simp [commentOutBlock]

/-- The lines of a block are blank and stay, or become comments. -/
theorem exists_of_mem_commentOutBlock {new : String} (member : new ∈ commentOutBlock block) :
    ∃ line ∈ block, isBlankLine line = true ∧ new = line ∨
      ∃ mark ∈ [relocationMarker, "# "], new = commentOut mark line := by
  cases block with
  | nil => cases member
  | cons header body =>
    rcases List.mem_cons.mp member with rfl | member
    · exact ⟨header, List.mem_cons_self, .inr ⟨relocationMarker, by simp, rfl⟩⟩
    · obtain ⟨line, inside, rfl⟩ := List.mem_map.mp member
      refine ⟨line, List.mem_cons_of_mem header inside, ?_⟩
      split
      · next blank => exact .inl ⟨blank, rfl⟩
      · exact .inr ⟨"# ", by simp, rfl⟩

theorem head?_of_mem_marks {mark : String} (member : mark ∈ [relocationMarker, "# "]) :
    mark.toList.head? = some '#' ∧ '\n' ∉ mark.toList := by
  simp only [List.mem_cons, List.not_mem_nil, or_false] at member
  rcases member with rfl | rfl <;> decide +kernel

theorem idle_of_mem_commentOutBlock {new : String} (member : new ∈ commentOutBlock block) :
    isBlankLine new = true ∨ isComment new = true := by
  obtain ⟨line, -, ⟨blank, rfl⟩ | ⟨mark, marks, rfl⟩⟩ := exists_of_mem_commentOutBlock member
  · exact .inl blank
  · exact .inr (isComment_commentOut (head?_of_mem_marks marks).1 line)

theorem newlineFree_commentOutBlock (free : ∀ line ∈ block, '\n' ∉ line.toList) :
    ∀ new ∈ commentOutBlock block, '\n' ∉ new.toList := by
  intro new member
  obtain ⟨line, inside, ⟨-, rfl⟩ | ⟨mark, marks, rfl⟩⟩ := exists_of_mem_commentOutBlock member
  · exact free new inside
  · exact newline_not_mem_commentOut (head?_of_mem_marks marks).2 (free line inside)

/-- Without the marks each line is what it was, if it begins with spaces and tabs alone. -/
theorem getElem?_uncommentBlock {offset : Nat} {line : String} (here : block[offset]? = some line)
    (indented : ∀ c ∈ line.toList.takeWhile isBlank, isIndentChar c = true) :
    (uncommentBlock (commentOutBlock block))[offset]? = some line := by
  cases block with
  | nil => cases here
  | cons header body =>
    cases offset with
    | zero =>
      obtain rfl := Option.some.inj here
      exact congrArg some
        (uncomment_commentOut (head?_of_mem_marks List.mem_cons_self).1 indented)
    | succ offset =>
      rw [List.getElem?_cons_succ] at here
      rw [commentOutBlock, uncommentBlock, List.getElem?_cons_succ, List.getElem?_map,
        List.getElem?_map, here, Option.map_some, Option.map_some, Option.some_inj]
      cases blank : isBlankLine line with
      | true => simp only [blank, if_true]
      | false =>
        -- The comment is not blank, so it is not taken for a line that stayed.
        have sign : ("# " : String).toList.head? = some '#' := by decide +kernel
        have comment := isBlankLine_of_isComment (isComment_commentOut sign line)
        simp only [comment, Bool.false_eq_true, if_false]
        exact uncomment_commentOut sign indented

end Block

/-! ## The fix -/

/-- A fix that comments out the block of the line `first`. -/
structure CommentsOut (lines : List String) (first : Nat) (fix : Fix) : Prop where
  replaces : fix.editKind = .replace
  line : fix.line = first + 1
  endLine : fix.endLine = blockEnd lines first + 1
  replacementLines :
    fix.replacementLines = commentOutBlock (span lines first (blockEnd lines first))

section Fix

variable {issue : Issue} {lines : List String} {first last : Nat} {header : MarkedLine} {fix : Fix}

theorem length_span (inside : last < lines.length) :
    (span lines first last).length = last + 1 - first := by
  rw [span, List.length_take, List.length_drop]
  omega

theorem getElem?_span {index : Nat} (behind : first ≤ index) (upTo : index ≤ last) :
    (span lines first last)[index - first]? = lines[index]? := by
  rw [span, List.getElem?_take_of_lt (by omega), List.getElem?_drop, Nat.add_sub_cancel' behind]

/-- There is a fix for the block of every statement. -/
theorem exists_commentsOut (config : Config.Fixer)
    (free : ∀ line ∈ span lines first (blockEnd lines first), '\n' ∉ line.toList)
    (here : (markLines lines)[first]? = some header) (statement : header.isStatement = true)
    (place : issue.line = first + 1) :
    ∃ fix, (callbackRelocation config).generate issue lines = .proposed fix ∧
      CommentsOut lines first fix := by
  have index : issue.lineIndex = first := Nat.sub_eq_of_eq_add place
  have text := getElem?_of_markLines here
  obtain ⟨inside, -⟩ := List.getElem?_eq_some_iff.mp text
  have code := (MarkedLine.isStatement_iff.mp statement).2
  have solid := toList_ne_nil_of_not_isBlankLine (isBlankLine_of_isCode code)
  have block := span_eq_cons text (blockEnd_spec inside).1
  have comment : isComment (commentOut relocationMarker header.text) = true :=
    isComment_commentOut (head?_of_mem_marks List.mem_cons_self).1 header.text
  have commented := toList_ne_nil_of_not_isBlankLine (isBlankLine_of_isComment comment)
  -- The header is code, and a comment takes its place.
  have changed : span lines first (blockEnd lines first) ≠
      commentOutBlock (span lines first (blockEnd lines first)) := by
    rw [block, commentOutBlock]
    intro same
    rw [← (List.cons.inj same).1, isComment_of_isCode code] at comment
    cases comment
  obtain ⟨fix, made, line, endLine, removed, replacement⟩ : ∃ fix,
      (callbackRelocation config).generate issue lines = .proposed fix ∧ fix.line = first + 1 ∧
        fix.endLine = blockEnd lines first + 1 ∧
          fix.removed = unlines (span lines first (blockEnd lines first)) ∧
            fix.replacement =
              unlines (commentOutBlock (span lines first (blockEnd lines first))) := by
    simp only [callbackRelocation, index, if_pos inside]
    exact ⟨_, rfl, place, rfl, rfl, rfl⟩
  obtain ⟨replaces, replacementLines⟩ :=
    editKind_of_lines free (newlineFree_commentOutBlock free) removed replacement
      (by rw [block]; exact unlines_cons_ne_empty solid _)
      (by rw [block]; exact unlines_cons_ne_empty commented _) changed
  exact ⟨fix, made, replaces, line, endLine, replacementLines⟩

namespace CommentsOut

variable (commentsOut : CommentsOut lines first fix)
include commentsOut

theorem inRange (inside : first < lines.length) : fix.inRange lines.length = true := by
  obtain ⟨upTo, within, -⟩ := blockEnd_spec inside
  have line := commentsOut.line
  have endLine := commentsOut.endLine
  exact inRange_of_replace commentsOut.replaces (by omega) (by omega) (by omega)

/-- The block is a stretch of the lines, and the comments take its place. -/
theorem exists_marks (here : (markLines lines)[first]? = some header)
    (statement : header.isStatement = true) :
    ∃ front inner between outer new,
      markLines lines = front ++ header :: (inner ++ (between ++ outer)) ∧
        markLines (fix.edit lines) = front ++ (new ++ (between ++ outer)) ∧
          front.length = first ∧ blockEnd lines first = first + inner.length ∧
            Extent (indentWidth header.text) inner between outer ∧
              new.length = inner.length + 1 ∧ ∀ line ∈ new, line.isStatement = false := by
  obtain ⟨inside, stands⟩ := List.getElem?_eq_some_iff.mp here
  have length : ((markLines lines).take first).length = first :=
    List.length_take_of_le (Nat.le_of_lt inside)
  have marks : markLines lines =
      (markLines lines).take first ++ header :: (markLines lines).drop (first + 1) := by
    rw [← stands, ← List.drop_eq_getElem_cons inside, List.take_append_drop]
  obtain ⟨inner, between, outer, behind, extent, reached⟩ := exists_extent marks
  rw [length] at reached
  rw [behind] at marks
  have below : (markLines lines).drop (blockEnd lines first + 1) = between ++ outer := by
    rw [reached, Nat.add_right_comm, ← List.drop_drop, behind, List.drop_left]
  have idle : ∀ line ∈ commentOutBlock (span lines first (blockEnd lines first)),
      isCode line = false := by
    intro line member
    rcases idle_of_mem_commentOutBlock member with blank | comment
    · simp [isCode, blank]
    · simp [isCode, comment]
  refine ⟨(markLines lines).take first, inner, between, outer,
    (commentOutBlock (span lines first (blockEnd lines first))).map fun line => ⟨line, true⟩,
    marks, ?_, length, reached, extent, ?_, ?_⟩
  · have starts := (MarkedLine.isStatement_iff.mp statement).1
    rw [edit_of_replace commentsOut.replaces, commentsOut.line, commentsOut.endLine,
      commentsOut.replacementLines, Nat.add_sub_cancel, markLines_exchangeBlock here starts
        fun line member => after_closed_of_not_isCode (idle line member), below]
  · rw [length_markLines] at inside
    rw [List.length_map, length_commentOutBlock, length_span (blockEnd_spec inside).2.1]
    omega
  · intro line member
    obtain ⟨text, among, rfl⟩ := List.mem_map.mp member
    rw [MarkedLine.isStatement, idle text among, Bool.and_false]

end CommentsOut

/-- What a fix does that comments out the lines from `first` to `last`. -/
structure CommentedOut (lines : List String) (first last : Nat) (fix : Fix) : Prop where
  replaces : fix.editKind = .replace
  line : fix.line = first + 1
  endLine : fix.endLine = last + 1
  inRange : fix.inRange lines.length = true
  /-- The new lines are as many as the old ones. -/
  length_replacementLines : fix.replacementLines.length = last + 1 - first
  idle : ∀ line ∈ fix.replacementLines, isBlankLine line = true ∨ isComment line = true
  edit : fix.edit lines = lines.take first ++ (fix.replacementLines ++ lines.drop (last + 1))
  /-- The lines around stay, and statements begin on the same ones. -/
  around : ∀ index, index < first ∨ last < index →
    (fix.edit lines)[index]? = lines[index]? ∧
      (statementStarts (fix.edit lines))[index]? = (statementStarts lines)[index]?
  /-- Without the marks each line is what it was, if it begins with spaces and tabs alone. -/
  restored : ∀ index line, first ≤ index → index ≤ last → lines[index]? = some line →
    (∀ c ∈ line.toList.takeWhile isBlank, isIndentChar c = true) →
      (uncommentBlock fix.replacementLines)[index - first]? = some line

/-- **A block is commented out line by line**, and the lines around are read as before. -/
theorem generate_callbackRelocation (config : Config.Fixer)
    (free : ∀ line ∈ lines, '\n' ∉ line.toList)
    (here : (markLines lines)[first]? = some header) (statement : header.isStatement = true)
    (place : issue.line = first + 1) :
    ∃ fix, (callbackRelocation config).generate issue lines = .proposed fix ∧
      CommentedOut lines first (blockEnd lines first) fix := by
  have freeBlock : ∀ line ∈ span lines first (blockEnd lines first), '\n' ∉ line.toList :=
    fun line member => free line (List.mem_of_mem_drop (List.mem_of_mem_take member))
  obtain ⟨fix, made, commentsOut⟩ := exists_commentsOut config freeBlock here statement place
  obtain ⟨inside, -⟩ := List.getElem?_eq_some_iff.mp here
  rw [length_markLines] at inside
  have within := (blockEnd_spec inside).2.1
  obtain ⟨front, inner, between, outer, new, marks, marks', start, reached, -, same, -⟩ :=
    commentsOut.exists_marks here statement
  refine ⟨fix, made,
    { replaces := commentsOut.replaces
      line := commentsOut.line
      endLine := commentsOut.endLine
      inRange := commentsOut.inRange inside
      length_replacementLines := ?_
      idle := fun line member => ?_
      edit := ?_
      around := fun index outside => ?_
      restored := fun index line behind inside text indented => ?_ }⟩
  · rw [commentsOut.replacementLines, length_commentOutBlock, length_span within]
  · rw [commentsOut.replacementLines] at member
    exact idle_of_mem_commentOutBlock member
  · rw [edit_of_replace commentsOut.replaces, commentsOut.line, commentsOut.endLine,
      Nat.add_sub_cancel]
  · have kept : (markLines (fix.edit lines))[index]? = (markLines lines)[index]? := by
      rw [marks, marks', ← List.cons_append]
      exact getElem?_exchange (by simp [same]) (by rw [List.length_cons]; omega)
    constructor
    · rw [← map_text_getElem?_markLines, kept, map_text_getElem?_markLines]
    · rw [← map_starts_markLines, ← map_starts_markLines, List.getElem?_map, List.getElem?_map, kept]
  · rw [commentsOut.replacementLines]
    exact getElem?_uncommentBlock ((getElem?_span behind inside).trans text) indented

end Fix

/-- An issue with a detached branch on a line. -/
def detachedIssue (line : Nat) : Issue :=
  ⟨.critical, .orphanedBranch, line, "the branch has no opener", none, none⟩

/-- A detached branch whose header and body run over several lines. One line is indented by a no-break
space too. -/
def foldedBranch : List String :=
  ["a = 1", "\telif order.status == f(\"\"\"(", "else: # b", "\"\"\") and \\", "order.size:", "",
    "\t  # c", "\t \td([", "\"#\"", "])", "\t\t\u00a0e()", "# f", "g()"]

/-- The fix takes away ten lines with two strings, brackets and a backslash. -/
theorem generate_callbackRelocation_folded :
    (∀ line ∈ foldedBranch, '\n' ∉ line.toList) ∧
      (markLines foldedBranch)[1]? = some ⟨"\telif order.status == f(\"\"\"(", true⟩ ∧
        isCode "\telif order.status == f(\"\"\"(" = true ∧
          ∃ fix, (callbackRelocation Config.standard.fixer).generate (detachedIssue 2) foldedBranch =
              .proposed fix ∧
            CommentedOut foldedBranch 1 10 fix := by
  have free : ∀ line ∈ foldedBranch, '\n' ∉ line.toList := by decide +kernel
  have here : (markLines foldedBranch)[1]? = some ⟨"\telif order.status == f(\"\"\"(", true⟩ := by
    decide +kernel
  have code : isCode "\telif order.status == f(\"\"\"(" = true := by decide +kernel
  have last : blockEnd foldedBranch 1 = 10 := by decide +kernel
  rw [← last]
  exact ⟨free, here, code, generate_callbackRelocation Config.standard.fixer free here code rfl⟩

/-! ## Branches around the block -/

/-- What becomes of the branches around a block, from the line `first` to the line `last`, that turns
into comments. The line `first` has been the branch `claimed`, of the width `indent`. -/
structure AlignedKept (window : Nat) (lines patched : List String) (first last indent : Nat)
    (claimed : Branch) : Prop where
  /-- A branch stays aligned with its opener, unless this is the header of the block. -/
  keeps : ∀ index kind opener, index < first ∨ last < index → opener ≠ first →
    matchAt lines window index = some ⟨index, kind, .aligned opener⟩ →
      matchAt patched window index = some ⟨index, kind, .aligned opener⟩
  /-- In that case it belongs where a branch of its kind in the place of the header would. -/
  rises : ∀ index kind, index < first ∨ last < index →
    matchAt lines window index = some ⟨index, kind, .aligned first⟩ →
      matchAt patched window index =
        some ⟨index, kind, belonging kind indent window (markLines lines) first⟩
  /-- So a branch of the kind of the header finds what the header found. -/
  inherits : ∀ index, index < first ∨ last < index →
    matchAt lines window index = some ⟨index, claimed.kind, .aligned first⟩ →
      matchAt patched window index = some ⟨index, claimed.kind, claimed.found⟩

/-- **Branches around a block that is commented out** keep their openers, apart from the header. -/
theorem aligned_callbackRelocation (config : Config.Fixer) {issue : Issue} {lines : List String}
    {window first : Nat} {claimed : Branch}
    (free : ∀ line ∈ span lines first (blockEnd lines first), '\n' ∉ line.toList)
    (found : matchAt lines window first = some claimed) (place : issue.line = first + 1) :
    ∃ header fix, lines[first]? = some header ∧
      (callbackRelocation config).generate issue lines = .proposed fix ∧
        fix.inRange lines.length = true ∧
          AlignedKept window lines (fix.edit lines) first (blockEnd lines first)
            (indentWidth header) claimed := by
  obtain ⟨header, here, statement, -, -, belongs⟩ := exists_of_branchAt_eq found
  have text := getElem?_of_markLines here
  obtain ⟨inside, -⟩ := List.getElem?_eq_some_iff.mp text
  obtain ⟨fix, made, commentsOut⟩ := exists_commentsOut config free here statement place
  obtain ⟨front, inner, between, outer, new, marks, marks', start, reached, extent, same, silent⟩ :=
    commentsOut.exists_marks here statement
  have moved (index : Nat) (kind : BranchKind) (opener : Nat)
      (outside : index < first ∨ blockEnd lines first < index)
      (aligned : matchAt lines window index = some ⟨index, kind, .aligned opener⟩) :
      matchAt (fix.edit lines) window index =
        some ⟨index, kind,
          if opener = first then
            belonging kind (indentWidth header.text) window (markLines lines) first
          else .aligned opener⟩ := by
    rw [matchAt, marks] at aligned
    have belongs := branchAt_of_silenced extent same silent (by omega) aligned
    rwa [← marks, ← marks', start] at belongs
  have rises (index : Nat) (kind : BranchKind)
      (outside : index < first ∨ blockEnd lines first < index)
      (aligned : matchAt lines window index = some ⟨index, kind, .aligned first⟩) :
      matchAt (fix.edit lines) window index = some ⟨index, kind,
        belonging kind (indentWidth header.text) window (markLines lines) first⟩ := by
    rw [moved index kind first outside aligned, if_pos rfl]
  refine ⟨header.text, fix, text, made, commentsOut.inRange inside, ?_, rises, ?_⟩
  · intro index kind opener outside other aligned
    rw [moved index kind opener outside aligned, if_neg other]
  · intro index outside aligned
    rw [belongs]
    exact rises index claimed.kind outside aligned

/-- A detached branch between a loop and an `else`, which continues either of them. -/
def branchBehindLoop : List String :=
  ["for x in y:", "    a()", "elif order.status == 1:", "    if b:", "        c()", "    else:",
    "        d()", "else:", "    e()", "if f:", "    g()", "else:", "    h()"]

/-- The `else` behind the branch becomes that of the loop, and the last one stays where it is. -/
theorem aligned_callbackRelocation_loop :
    (∀ line ∈ span branchBehindLoop 2 (blockEnd branchBehindLoop 2), '\n' ∉ line.toList) ∧
      matchAt branchBehindLoop 50 2 = some ⟨2, .elseIf, .orphaned⟩ ∧
        matchAt branchBehindLoop 50 7 = some ⟨7, .otherwise, .aligned 2⟩ ∧
          matchAt branchBehindLoop 50 11 = some ⟨11, .otherwise, .aligned 9⟩ ∧
            ∃ fix, (callbackRelocation Config.standard.fixer).generate (detachedIssue 3)
                branchBehindLoop = .proposed fix ∧
              matchAt (fix.edit branchBehindLoop) 50 7 = some ⟨7, .otherwise, .aligned 0⟩ ∧
                matchAt (fix.edit branchBehindLoop) 50 11 = some ⟨11, .otherwise, .aligned 9⟩ := by
  have free : ∀ line ∈ span branchBehindLoop 2 (blockEnd branchBehindLoop 2),
      '\n' ∉ line.toList := by decide +kernel
  have claimed : matchAt branchBehindLoop 50 2 = some ⟨2, .elseIf, .orphaned⟩ := by decide +kernel
  have next : matchAt branchBehindLoop 50 7 = some ⟨7, .otherwise, .aligned 2⟩ := by decide +kernel
  have final : matchAt branchBehindLoop 50 11 = some ⟨11, .otherwise, .aligned 9⟩ := by
    decide +kernel
  have last : blockEnd branchBehindLoop 2 = 6 := by decide +kernel
  have belongs : belonging .otherwise 0 50 (markLines branchBehindLoop) 2 = .aligned 0 := by
    decide +kernel
  obtain ⟨header, fix, text, made, -, kept⟩ :=
    aligned_callbackRelocation Config.standard.fixer free claimed
      (rfl : (detachedIssue 3).line = 2 + 1)
  have width : indentWidth header = 0 := by
    cases text
    decide +kernel
  rw [width, last] at kept
  refine ⟨free, claimed, next, final, fix, made, ?_, ?_⟩
  · rw [kept.rises 7 .otherwise (by decide) next, belongs]
  · exact kept.keeps 11 .otherwise 9 (by decide) (by decide) final

/-- A detached branch in front of an `else` that continues it. -/
def detachedChain : List String :=
  ["x = 1", "elif order.status == 1:", "    a()", "else:", "    b()"]

/-- A detached branch with a newline within its header, between an `if` and its `else`. -/
def brokenHeader : List String :=
  ["if a:", "    x = 1", "    elif order.status:\nb()", "else:", "    c()"]

/-- **The `else` behind a detached branch is orphaned** when the branch is commented out. So is one that
belongs to another header, if lines hold newlines. -/
theorem detachedChain_orphaned :
    ((matchAt detachedChain 50 1).map Branch.found = some .orphaned ∧
      (callbackRelocation Config.standard.fixer).claims (detachedIssue 2) detachedChain = true ∧
        blockEnd detachedChain 1 = 2 ∧
          (matchAt detachedChain 50 3).map Branch.found = some (.aligned 1) ∧
            ∃ fix, (callbackRelocation Config.standard.fixer).generate (detachedIssue 2)
                detachedChain = .proposed fix ∧
              (matchAt (fix.edit detachedChain) 50 3).map Branch.found = some .orphaned) ∧
      ((matchAt brokenHeader 50 2).map Branch.found = some .orphaned ∧
        (callbackRelocation Config.standard.fixer).claims (detachedIssue 3) brokenHeader = true ∧
          blockEnd brokenHeader 2 = 2 ∧
            (matchAt brokenHeader 50 3).map Branch.found = some (.aligned 0) ∧
              ∃ fix, (callbackRelocation Config.standard.fixer).generate (detachedIssue 3)
                  brokenHeader = .proposed fix ∧
                (matchAt (fix.edit brokenHeader) 50 3).map Branch.found = none ∧
                  (matchAt (fix.edit brokenHeader) 50 4).map Branch.found = some .orphaned) := by
  refine ⟨⟨by decide +kernel, by decide +kernel, by decide +kernel, by decide +kernel, _, rfl, ?_⟩,
    by decide +kernel, by decide +kernel, by decide +kernel, by decide +kernel, _, rfl, ?_⟩
  · decide +kernel
  · decide +kernel

end StrategyMend.Repair
