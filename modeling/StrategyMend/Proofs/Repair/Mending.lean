import StrategyMend.Proofs.Repair.Application
import StrategyMend.Proofs.Source.Block
import StrategyMend.Proofs.Source.Header
import StrategyMend.Proofs.Source.Stray
import StrategyMend.Repair.Branches

/-!
# Repairs of stray branches

A repair of a stray branch either turns its header into that of an `if` or deletes its block, which
does nothing. Both change nothing about how the lines around are read (`Mending.exists_marks`), so
one repair leaves at least one stray branch less and all aligned branches elsewhere aligned
(`Mending.edit`). A repair further down does not matter to one above it (`Mending.append`), so the
same holds of many repairs that are made from the last line to the first (`foldl_edit_of_mending`).
-/

set_option autoImplicit false

namespace StrategyMend.Repair

open Source Text

/-! ## A header of its own -/

/-- Rewriting the header of an `elif` keeps what follows the letter `f`. -/
theorem exists_of_elseIfAsIf? {header standalone : String}
    (classified : classify header = some .elseIf)
    (rewritten : elseIfAsIf? header = some standalone) :
    ∃ front rest, header.toList = front ++ 'f' :: rest ∧ (∀ c ∈ front, isPlain c = true) ∧
      standalone.toList = header.toList.takeWhile isIndentChar ++ 'i' :: 'f' :: rest ∧
      endsWord rest = true := by
  obtain ⟨blanks, split, blank⟩ := exists_blanks_append_trimStart header.toList
  have plain : ∀ c ∈ blanks, isPlain c = true := fun c member => isPlain_of_isBlank (blank c member)
  have letters : ∀ c ∈ ['e', 'l', 'i'], isPlain c = true := by
    simp only [List.mem_cons, List.not_mem_nil, or_false, forall_eq_or_imp, forall_eq]
    decide
  rcases classify_eq_elseIf_iff.mp classified with word | words
  · obtain ⟨rest, text, ends⟩ := beginsWithWord_iff.mp word
    have dropped := dropStart?_eq_some_iff.mpr text
    refine ⟨blanks ++ ['e', 'l', 'i'], rest, ?_, ?_, ?_, ends⟩
    · rw [split, text]
      simp
    · simp only [List.mem_append]
      rintro c (member | member)
      · exact plain c member
      · exact letters c member
    · simp only [elseIfAsIf?, dropped, Option.map_some, Option.some.injEq] at rewritten
      simp [← rewritten, indentation]
  · obtain ⟨c, more, rest, text, between, second, ends⟩ := beginsWithWords_iff.mp words
    obtain ⟨blanks', split', blank'⟩ := exists_blanks_append_trimStart more
    refine ⟨blanks ++ 'e' :: 'l' :: 's' :: 'e' :: c :: (blanks' ++ ['i']), rest, ?_, ?_, ?_, ends⟩
    · rw [split, text, split', second]
      simp
    · simp only [List.mem_append, List.mem_cons]
      rintro d (member | rfl | rfl | rfl | rfl | rfl | member | rfl | member)
      · exact plain d member
      iterate 4 decide
      · exact isPlain_of_isBlank between
      · exact isPlain_of_isBlank (blank' d member)
      · decide
      · cases member
    · have none : dropStart? "elif".toList (Chars.trimStart header.toList) = none := by
        rw [text]
        rfl
      have first := dropStart?_eq_some_iff.mpr text
      have skipped : Chars.trimStart (c :: more) = "if".toList ++ rest := by
        rw [← second, Chars.trimStart, List.dropWhile_cons_of_pos between, Chars.trimStart]
      have last := dropStart?_eq_some_iff.mpr skipped
      simp only [elseIfAsIf?, none, first, last, Option.bind_some, Option.map_some,
        Option.some.injEq] at rewritten
      simp [← rewritten, indentation]

/-- A rewritten header begins with the word `if` and is indented as before. -/
structure Standalone (header standalone : String) : Prop where
  word : beginsWithWord "if" (Chars.trimStart standalone.toList) = true
  level : indentWidth standalone = indentWidth header
  open_ : Carry.closed.after standalone = Carry.closed.after header
  oneLine : '\n' ∉ header.toList → '\n' ∉ standalone.toList

theorem standalone_of_elseIfAsIf? {header standalone : String}
    (classified : classify header = some .elseIf)
    (rewritten : elseIfAsIf? header = some standalone) : Standalone header standalone := by
  obtain ⟨front, rest, split, plain, text, ends⟩ := exists_of_elseIfAsIf? classified rewritten
  have indents : ∀ c ∈ header.toList.takeWhile isIndentChar, isIndentChar c = true :=
    fun _ => List.mem_takeWhile_imp
  have trimmed : Chars.trimStart standalone.toList = 'i' :: 'f' :: rest := by
    rw [text, trimStart_append (fun c member => isBlank_of_isIndentChar (indents c member)) rfl]
  have comment : isComment standalone = false := by
    simp [isComment, trimmed]
  have comment' : isComment header = false := by
    obtain ⟨tail, begins⟩ := exists_of_classify classified
    simp [isComment, begins]
  refine ⟨beginsWithWord_iff.mpr ⟨rest, trimmed, ends⟩, ?_, ?_, ?_⟩
  · rw [indentWidth, indentWidth, text, columnAfter_append 0 rfl]
  · have text' : standalone.toList =
        (header.toList.takeWhile isIndentChar ++ ['i']) ++ 'f' :: rest := by
      simp [text]
    refine after_closed_append text' split ?_ plain rfl comment comment'
    simp only [List.mem_append, List.mem_singleton]
    rintro c (member | rfl)
    · exact isPlain_of_isBlank (isBlank_of_isIndentChar (indents c member))
    · decide
  · intro free
    have restFree : '\n' ∉ rest := by
      rw [split] at free
      simp_all
    have indentFree : '\n' ∉ header.toList.takeWhile isIndentChar := fun member =>
      free ((List.takeWhile_sublist _).subset member)
    rw [text]
    simp [restFree, indentFree]

namespace Standalone

variable {header standalone : String}

theorem toList_ne_nil (rewritten : Standalone header standalone) : standalone.toList ≠ [] := by
  intro empty
  have word := rewritten.word
  rw [empty] at word
  cases word

theorem classify_eq_none (rewritten : Standalone header standalone) :
    classify standalone = none := by
  obtain ⟨rest, text, -⟩ := beginsWithWord_iff.mp rewritten.word
  cases classified : classify standalone with
  | none => rfl
  | some kind =>
    obtain ⟨tail, begins⟩ := exists_of_classify classified
    rw [text] at begins
    cases begins

theorem mends (rewritten : Standalone header standalone)
    (statement : (MarkedLine.mk header true).isStatement = true) :
    Mends [⟨header, true⟩] [⟨standalone, true⟩] := by
  refine .standalone ?_ rewritten.level rewritten.classify_eq_none
    (fun kind _ => accepts_of_conditional (by decide) rewritten.word kind) statement
  obtain ⟨rest, text, -⟩ := beginsWithWord_iff.mp rewritten.word
  have code : isCode standalone = true := isCode_of_head? (by rw [text]; rfl) (by decide : 'i' ≠ '#')
  simp [MarkedLine.isStatement, code]

end Standalone

/-! ## A block that does nothing -/

/-- A statement that does nothing opens no block. -/
theorem accepts_eq_false_of_isTrivialStatement {line : String}
    (idle : isTrivialStatement (trim line) = true) (kind : BranchKind) :
    kind.accepts line = false := by
  rw [Bool.eq_false_iff]
  intro accepts
  obtain ⟨c, letter, first⟩ := head?_of_accepts accepts
  have begins := head?_trim_of_head? first
  simp only [isTrivialStatement, isIdle, begins, Option.map_some, Option.getD_some, Bool.or_eq_true,
    decide_eq_true_eq] at idle
  have others : ∀ d ∈ ['i', 'e', 'f', 'w', 'a', 't'], d ≠ 'p' ∧ d ≠ '.' ∧ isQuote d = false := by
    simp only [List.mem_cons, List.not_mem_nil, or_false, forall_eq_or_imp, forall_eq]
    decide
  obtain ⟨noPass, noDots, noQuote⟩ := others c letter
  rcases idle with (pass | dots) | quote
  · rw [pass] at begins
    exact noPass (Option.some.inj begins).symm
  · rw [dots] at begins
    exact noDots (Option.some.inj begins).symm
  · rw [noQuote] at quote
    cases quote

theorem accepts_eq_false_of_otherwise {header : String}
    (classified : classify header = some .otherwise) (kind : BranchKind) :
    kind.accepts header = false := by
  obtain ⟨more, rest, text, -⟩ := classify_eq_otherwise_iff.mp classified
  cases kind <;>
    simp [BranchKind.accepts, beginsWithWord, beginsWithWords, dropWord?, dropWordBlank?,
      dropWordColon?, dropStart?, text]

/-- Nothing in the block of an `else` that does nothing is an opener. -/
theorem accepts_eq_false_of_isTrivialElse {lines : List String} {index last : Nat} {header : String}
    (here : lines[index]? = some header) (classified : classify header = some .otherwise)
    (idle : isTrivialElse lines index last = true) {line : MarkedLine}
    (member : line ∈ ((markLines lines).take (last + 1)).drop index)
    (statement : line.isStatement = true) (kind : BranchKind) : kind.accepts line.text = false := by
  have first : (markLines lines)[index]?.map MarkedLine.text = some header := by
    rw [map_text_getElem?_markLines, here]
  obtain ⟨place, found⟩ := List.mem_iff_getElem?.mp member
  rw [List.getElem?_drop, List.getElem?_take] at found
  split at found
  · next upTo =>
    cases place with
    | zero =>
      rw [Nat.add_zero] at found
      rw [found] at first
      rw [Option.some.inj first]
      exact accepts_eq_false_of_otherwise classified kind
    | succ place =>
      unfold isTrivialElse at idle
      split at idle
      · simp only [Bool.and_eq_true, decide_eq_true_eq] at idle
        omega
      · have inBody : line ∈ ((markLines lines).drop (index + 1)).take (last - index) := by
          refine List.mem_of_getElem? (i := place) ?_
          rw [List.getElem?_take, if_pos (by omega), List.getElem?_drop, ← found]
          congr 1
          omega
        have trivial_ := List.all_eq_true.mp idle line inBody
        rw [statement] at trivial_
        exact accepts_eq_false_of_isTrivialStatement trivial_ kind
  · cases found

/-! ## One repair -/

/-- The fix repairs the stray branch on its first line: its lines mend the branch, and what follows
is read as before. -/
structure Mending (window : Nat) (lines : List String) (fix : Fix) : Prop where
  changes : fix.editKind ≠ .noChange
  positive : 1 ≤ fix.line
  inside : fix.reach ≤ lines.length
  stray : isStrayAt (markLines lines) window (fix.line - 1) = true
  mends : Mends (((markLines lines).take fix.reach).drop (fix.line - 1))
    (markFrom .closed fix.replacementLines)
  resumed : fix.reach = lines.length ∨
    Carry.closed.afterLines (lines.take fix.reach) =
      Carry.closed.afterLines fix.replacementLines

/-- Where the line with this index, counted from zero, goes by the edit of a fix. -/
def Fix.newIndex (fix : Fix) (index : Nat) : Nat :=
  shift (fix.line - 1) (fix.reach + 1 - fix.line) fix.replacementLines.length index

namespace Mending

variable {window : Nat} {lines : List String} {fix : Fix}

theorem line_le_reach (mending : Mending window lines fix) : fix.line ≤ fix.reach := by
  have some_ := mending.mends.old_length_pos
  have positive := mending.positive
  rw [List.length_drop, List.length_take] at some_
  omega

theorem isInsert_eq_false (mending : Mending window lines fix) : fix.isInsert = false := by
  have order := mending.line_le_reach
  have positive := mending.positive
  cases kind : fix.isInsert with
  | false => rfl
  | true =>
    rw [Fix.reach, kind, if_pos rfl] at order
    omega

/-- A line that the repair does not cover stands in front of it or behind it. -/
theorem outside_of_covers_eq_false (mending : Mending window lines fix) {index : Nat}
    (uncovered : fix.covers (index + 1) = false) : index < fix.line - 1 ∨ fix.reach ≤ index := by
  have kinds := (Fix.isInsert_eq_false_iff mending.changes).mp mending.isInsert_eq_false
  simp only [Fix.covers, kinds, true_and, decide_eq_false_iff_not] at uncovered
  rw [Fix.reach, mending.isInsert_eq_false, if_neg (by simp)]
  omega

theorem covers_eq_false (mending : Mending window lines fix) {number : Nat}
    (behind : fix.reach < number) : fix.covers number = false := by
  rw [Fix.reach, mending.isInsert_eq_false, if_neg (by simp)] at behind
  simp only [Fix.covers, decide_eq_false_iff_not]
  omega

/-- The lines and the edited lines differ in the repaired lines only, also in how they are read. -/
theorem exists_marks (mending : Mending window lines fix) :
    ∃ front old new back, markLines lines = front ++ (old ++ back) ∧
      markLines (fix.edit lines) = front ++ (new ++ back) ∧ Mends old new ∧
      front.length = fix.line - 1 ∧ old.length = fix.reach + 1 - fix.line ∧
      new.length = fix.replacementLines.length := by
  have order := mending.line_le_reach
  have positive := mending.positive
  have inside := mending.inside
  obtain ⟨branch, found, -⟩ := isStrayAt_iff.mp mending.stray
  obtain ⟨line, here, statement, -⟩ := exists_of_branchAt_eq found
  have starts := (MarkedLine.isStatement_iff.mp statement).1
  have closed := afterLines_of_starts here starts
  refine ⟨(markLines lines).take (fix.line - 1),
    ((markLines lines).take fix.reach).drop (fix.line - 1), markFrom .closed fix.replacementLines,
    (markLines lines).drop fix.reach, ?_, ?_, mending.mends, ?_, ?_, length_markFrom _ _⟩
  · have cut := List.take_append_drop (fix.line - 1) ((markLines lines).take fix.reach)
    rw [List.take_take, Nat.min_eq_left (by omega)] at cut
    rw [← List.append_assoc, cut, List.take_append_drop]
  · have behind : (markLines lines).drop fix.reach =
        markFrom (Carry.closed.afterLines fix.replacementLines) (lines.drop fix.reach) := by
      rw [markLines_eq_markFrom, drop_markFrom]
      rcases mending.resumed with last | same
      · rw [last, List.drop_length]
        rfl
      · rw [same]
    rw [Fix.edit_eq mending.changes, behind, markLines_eq_markFrom, markLines_eq_markFrom,
      take_markFrom, List.append_assoc, markFrom_append, markFrom_append, closed]
  · rw [List.length_take, length_markLines]
    omega
  · rw [List.length_drop, List.length_take, length_markLines]
    omega

/-- **One repair** leaves a stray branch less, other lines where they go by the edit, and the
aligned branches on them aligned. -/
theorem edit (mending : Mending window lines fix) :
    strayCount (fix.edit lines) window + 1 ≤ strayCount lines window ∧
      ∀ index, fix.covers (index + 1) = false →
        (fix.edit lines)[fix.newIndex index]? = lines[index]? ∧
          ∀ kind opener,
            matchAt lines window index = some ⟨index, kind, .aligned opener⟩ →
              matchAt (fix.edit lines) window (fix.newIndex index) =
                some ⟨fix.newIndex index, kind, .aligned (fix.newIndex opener)⟩ := by
  obtain ⟨front, old, new, back, marks, marks', mends, start, removed, added⟩ :=
    mending.exists_marks
  have positive := mending.positive
  have order := mending.line_le_reach
  constructor
  · have stray := mending.stray
    rw [marks, ← start] at stray
    rw [strayCount_eq_countP, strayCount_eq_countP, marks, marks']
    exact mends.countP_isStrayAt stray
  · intro index uncovered
    have outside : index < front.length ∨ front.length + old.length ≤ index := by
      have sides := mending.outside_of_covers_eq_false uncovered
      omega
    have moved : fix.newIndex = shift front.length old.length new.length := by
      funext index
      rw [Fix.newIndex, start, removed, added]
    refine ⟨?_, fun kind opener aligned => ?_⟩
    · rw [← map_text_getElem?_markLines, ← map_text_getElem?_markLines, marks, marks', moved,
        getElem?_shift outside]
    · rw [matchAt, marks] at aligned
      rw [matchAt, marks', moved]
      exact mends.branchAt_eq_aligned outside aligned

/-- Further lines do not matter to a repair that more lines follow. -/
theorem append {front back : List String} (mending : Mending window (front ++ back) fix)
    (upTo : fix.reach ≤ front.length) (more : back ≠ []) (back' : List String) :
    Mending window (front ++ back') fix := by
  have positive := mending.positive
  have order := mending.line_le_reach
  have stray := mending.stray
  have mends := mending.mends
  have resumed := mending.resumed
  have marks : fix.reach ≤ (markLines front).length := by rwa [length_markLines]
  refine ⟨mending.changes, positive, ?_, ?_, ?_, .inr ?_⟩
  · rw [List.length_append]
    omega
  · rw [markLines_append, isStrayAt_append (by omega)] at stray ⊢
    exact stray
  · rw [markLines_append, List.take_append_of_le_length marks] at mends ⊢
    exact mends
  · rw [List.take_append_of_le_length upTo] at resumed ⊢
    have longer := List.length_pos_iff.mpr more
    rw [List.length_append] at resumed
    exact resumed.resolve_left (by omega)

end Mending

/-! ## Many repairs -/

/-- Where the line with this index, counted from zero, goes by several edits, made one after the
other. -/
def newIndex (applied : List Fix) (index : Nat) : Nat :=
  applied.foldl (fun place fix => fix.newIndex place) index

/-- **Repairs from the last line to the first** leave as many stray branches less, other lines where
they go by the edits, and the aligned branches on them aligned. -/
theorem foldl_edit_of_mending {window : Nat} {applied : List Fix} {lines : List String}
    (mending : ∀ fix ∈ applied, Mending window lines fix)
    (descending : applied.Pairwise fun later earlier => earlier.reach < later.line) :
    let patched := applied.foldl (fun patched fix => fix.edit patched) lines
    strayCount patched window + applied.length ≤ strayCount lines window ∧
      ∀ index, (∀ fix ∈ applied, fix.covers (index + 1) = false) →
        patched[newIndex applied index]? = lines[index]? ∧
          ∀ kind opener,
            matchAt lines window index = some ⟨index, kind, .aligned opener⟩ →
              matchAt patched window (newIndex applied index) =
                some ⟨newIndex applied index, kind, .aligned (newIndex applied opener)⟩ := by
  induction applied generalizing lines with
  | nil => exact ⟨Nat.le_refl _, fun index _ => ⟨rfl, fun kind opener aligned => aligned⟩⟩
  | cons fix rest ih =>
    intro patched
    obtain ⟨before, descending⟩ := List.pairwise_cons.mp descending
    have now := mending fix (by simp)
    have inside := now.inside
    have order := now.line_le_reach
    have positive := now.positive
    have later : ∀ other ∈ rest, Mending window (fix.edit lines) other := by
      intro other member
      have whole := mending other (List.mem_cons_of_mem fix member)
      rw [← List.take_append_drop (fix.line - 1) lines] at whole
      have upTo : other.reach ≤ (lines.take (fix.line - 1)).length := by
        have above := before other member
        rw [List.length_take]
        omega
      have more : lines.drop (fix.line - 1) ≠ [] := by
        rw [← List.length_pos_iff, List.length_drop]
        omega
      rw [Fix.edit_eq now.changes, List.append_assoc]
      exact whole.append upTo more _
    obtain ⟨fewer, kept⟩ := now.edit
    obtain ⟨fewer', kept'⟩ := ih later descending
    refine ⟨?_, fun index uncovered => ?_⟩
    · have same : patched = rest.foldl (fun patched fix => fix.edit patched) (fix.edit lines) := rfl
      rw [same, List.length_cons]
      omega
    · have uncoveredNow := uncovered fix (by simp)
      have uncoveredLater : ∀ other ∈ rest, other.covers (fix.newIndex index + 1) = false := by
        intro other member
        rcases now.outside_of_covers_eq_false uncoveredNow with above | below
        · rw [Fix.newIndex, shift_of_lt (by omega)]
          exact uncovered other (List.mem_cons_of_mem fix member)
        · refine (mending other (List.mem_cons_of_mem fix member)).covers_eq_false ?_
          have behind := before other member
          rw [Fix.newIndex, shift_of_le (by omega)]
          omega
      obtain ⟨text, aligned⟩ := kept index uncoveredNow
      obtain ⟨text', aligned'⟩ := kept' _ uncoveredLater
      exact ⟨text'.trans text, fun kind opener found =>
        aligned' kind _ (aligned kind opener found)⟩

end StrategyMend.Repair
