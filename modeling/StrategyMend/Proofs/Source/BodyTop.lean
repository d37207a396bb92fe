import StrategyMend.Proofs.Source.Block
import StrategyMend.Proofs.Source.Header
import StrategyMend.Source.Function

/-!
# New lines at the top of a body

The top of a body lies within the block of its header: the search for the end of the block passes all
lines between the two (`exists_of_bodyTop?`), and either it has reached the line in front of the top or
the statement at the top belongs to the block anyway. So lines that are put there, indented deeper than
the header, make the block longer by just these lines (`blockEnd_insert`). A statement may begin at the
top, so new lines that leave nothing open do not change how the others are read (`markLines_insert`).
-/

set_option autoImplicit false

namespace StrategyMend.Source

/-! ## Walking along a block -/

/-- A line at which the search for the end of a block goes on. -/
def StaysInside (indent : Nat) (line : MarkedLine) : Prop :=
  line.starts = false ∨ isCode line.text = false ∨ indent < indentWidth line.text

theorem staysInside_of_not_isStatement {line : MarkedLine} (indent : Nat)
    (other : line.isStatement = false) : StaysInside indent line := by
  rw [MarkedLine.isStatement, Bool.and_eq_false_iff] at other
  exact other.imp_right .inl

/-- A line that the search for the end of a block takes into the block right away. -/
def JoinsBlock (indent : Nat) (line : MarkedLine) : Prop :=
  line.starts = false ∨ isCode line.text = true ∧ indent < indentWidth line.text

theorem JoinsBlock.staysInside {indent : Nat} {line : MarkedLine} (joins : JoinsBlock indent line) :
    StaysInside indent line :=
  joins.imp_right fun statement => .inr statement.2

section Walk

variable {indent last index : Nat} {more : List MarkedLine}

theorem le_blockEndFrom (order : last ≤ index) (marked : List MarkedLine) :
    last ≤ blockEndFrom indent last index marked := by
  induction marked generalizing last index with
  | nil => exact Nat.le_refl last
  | cons line rest ih =>
    rw [blockEndFrom]
    split
    · exact Nat.le_trans order (ih (Nat.le_succ index))
    · split
      · exact ih (Nat.le_succ_of_le order)
      · split
        · exact Nat.le_trans order (ih (Nat.le_succ index))
        · exact Nat.le_refl last

/-- Further down, the same lines reach as far. -/
theorem blockEndFrom_add (shift : Nat) (marked : List MarkedLine) :
    blockEndFrom indent (last + shift) (index + shift) marked =
      blockEndFrom indent last index marked + shift := by
  induction marked generalizing last index with
  | nil => rfl
  | cons line rest ih =>
    rw [blockEndFrom, blockEndFrom, Nat.add_right_comm index shift 1]
    split
    · exact ih
    · split
      · exact ih
      · split
        · exact ih
        · rfl

theorem blockEndFrom_append {passed : List MarkedLine}
    (stays : ∀ line ∈ passed, StaysInside indent line) (order : last < index) :
    ∃ last' < index + passed.length, blockEndFrom indent last index (passed ++ more) =
      blockEndFrom indent last' (index + passed.length) more := by
  induction passed generalizing last index with
  | nil => exact ⟨last, order, rfl⟩
  | cons line rest ih =>
    have here := stays line (by simp)
    have others := fun other member => stays other (List.mem_cons_of_mem line member)
    rw [List.cons_append, blockEndFrom, List.length_cons, Nat.add_comm rest.length,
      ← Nat.add_assoc]
    split
    · exact ih others (Nat.lt_succ_self index)
    · next starts =>
      split
      · exact ih others (Nat.lt_succ_of_lt order)
      · next code =>
        have deeper : indent < indentWidth line.text := by
          rcases here with continued | blank | deeper
          · simp [continued] at starts
          · simp [blank] at code
          · exact deeper
        rw [if_pos deeper]
        exact ih others (Nat.lt_succ_self index)

/-- The search goes on behind lines that belong to the block, wherever it was in front of them. -/
theorem blockEndFrom_append_joining {joining : List MarkedLine} (any : joining ≠ [])
    (joins : ∀ line ∈ joining, JoinsBlock indent line) :
    blockEndFrom indent last index (joining ++ more) =
      blockEndFrom indent (index + joining.length - 1) (index + joining.length) more := by
  induction joining generalizing last index with
  | nil => exact absurd rfl any
  | cons line rest ih =>
    have others := fun other member => joins other (List.mem_cons_of_mem line member)
    have here : blockEndFrom indent last index (line :: (rest ++ more)) =
        blockEndFrom indent index (index + 1) (rest ++ more) := by
      rw [blockEndFrom]
      rcases joins line (by simp) with continued | ⟨code, deeper⟩
      · rw [continued]
        rfl
      · rw [code, if_pos deeper]
        split <;> rfl
    rw [List.cons_append, here]
    cases rest with
    | nil => rfl
    | cons next rest =>
      rw [ih (by simp) others]
      congr 1 <;> simp only [List.length_cons] <;> omega

end Walk

section Block

variable {lines patched : List String} {front passed inserted behind : List MarkedLine}
  {header : MarkedLine}

theorem blockEnd_eq_blockEndFrom (marks : markLines lines = front ++ header :: behind) :
    blockEnd lines front.length =
      blockEndFrom (indentWidth header.text) front.length (front.length + 1) behind := by
  have here := map_text_getElem?_markLines lines front.length
  rw [marks, List.getElem?_append_right (Nat.le_refl _), Nat.sub_self] at here
  rw [blockEnd, ← here, marks, List.drop_append, List.drop_eq_nil_of_le (Nat.le_succ _),
    Nat.add_sub_cancel_left]
  rfl

/-- **Lines that are put into a block make it longer by just these lines,** if the search for its end
does not depend on what is in front of them. -/
theorem blockEnd_insert
    (marks : markLines patched = front ++ header :: (passed ++ (inserted ++ behind)))
    (stays : ∀ line ∈ passed, StaysInside (indentWidth header.text) line)
    (reached : blockEnd lines front.length = blockEndFrom (indentWidth header.text)
      (front.length + passed.length) (front.length + passed.length + 1) behind)
    (any : inserted ≠ [])
    (joins : ∀ line ∈ inserted, JoinsBlock (indentWidth header.text) line) :
    blockEnd patched front.length = blockEnd lines front.length + inserted.length := by
  obtain ⟨last, -, further⟩ :=
    @blockEndFrom_append _ front.length _ (inserted ++ behind) passed stays (Nat.lt_succ_self _)
  rw [reached, ← blockEndFrom_add, blockEnd_eq_blockEndFrom marks, further,
    blockEndFrom_append_joining any joins]
  congr 1 <;> omega

end Block

/-! ## Function headers -/

section Definition

variable {line : String}

/-- Function headers begin with one of two letters. -/
theorem head?_of_isDefHeader (definition : isDefHeader line = true) :
    ∃ c ∈ ['d', 'a'], (Text.Chars.trimStart line.toList).head? = some c := by
  rcases Bool.or_eq_true_iff.mp definition with plain | async
  · obtain ⟨rest, text, -⟩ := beginsWithWord_iff.mp plain
    exact ⟨'d', by decide, by rw [text]; rfl⟩
  · obtain ⟨c, more, -, text, -⟩ := beginsWithWords_iff.mp async
    exact ⟨'a', by decide, by rw [text]; rfl⟩

theorem isDefHeader_of_beginsWithString (text : beginsWithString line = true) :
    isDefHeader line = false := by
  by_contra definition
  obtain ⟨c, letter, first⟩ := head?_of_isDefHeader (by simpa using definition)
  obtain ⟨rest, begins⟩ := List.head?_eq_some_iff.mp first
  have plain : isStringPrefixLetter c = false ∧ isQuote c = false := by
    simp only [List.mem_cons, List.not_mem_nil, or_false] at letter
    rcases letter with rfl | rfl <;> decide
  rw [beginsWithString, begins, List.dropWhile_cons_of_neg (by simp [plain])] at text
  simp [plain] at text

end Definition

/-! ## The top of a body -/

/-- How a top lies behind a header: the lines between them belong to the block of the header and hold
no function header, a statement may begin at the top, and the indentation is that of a line deeper than
the header. -/
structure TopBehind (top : BodyTop) (header : String) (index : Nat)
    (passed behind : List MarkedLine) : Prop where
  place : top.index = index + passed.length
  stays : ∀ line ∈ passed, StaysInside (indentWidth header) line
  plain : ∀ line ∈ passed, line.isStatement = true → isDefHeader line.text = false
  /-- The search for the end of the block has reached the line in front of the top, or goes on as if it
  had. -/
  reached : ∀ last < index, blockEndFrom (indentWidth header) last index (passed ++ behind) =
    blockEndFrom (indentWidth header) (top.index - 1) top.index behind
  starts : ∀ line, behind.head? = some line → line.starts = true
  indent : ∃ line, top.indent = indentation line ∧ indentWidth header < indentWidth line
  step : ∃ body, top.step = indentUnit header body

section Top

variable {top : BodyTop} {header : String} {index : Nat}

/-- The lines in front of the lines that are passed are passed as well. -/
theorem TopBehind.prepend {passed behind first : List MarkedLine}
    (topBehind : TopBehind top header (index + first.length) passed behind)
    (idle : ∀ line ∈ first, line.isStatement = false) :
    TopBehind top header index (first ++ passed) behind where
  place := by rw [topBehind.place, List.length_append, Nat.add_assoc]
  stays line member := (List.mem_append.mp member).elim
    (fun early => staysInside_of_not_isStatement _ (idle line early)) (topBehind.stays line)
  plain line member statement := (List.mem_append.mp member).elim
    (fun early => absurd statement (by simp [idle line early]))
    (fun late => topBehind.plain line late statement)
  reached last before := by
    obtain ⟨last', before', further⟩ := @blockEndFrom_append (indentWidth header) _ _
      (passed ++ behind) first
      (fun line member => staysInside_of_not_isStatement _ (idle line member)) before
    rw [List.append_assoc, further, topBehind.reached last' before']
  starts := topBehind.starts
  indent := topBehind.indent
  step := topBehind.step

section First

variable {line : MarkedLine} {rest continuation behind : List MarkedLine}
  (statement : line.isStatement = true) (deeper : indentWidth header < indentWidth line.text)

include statement deeper

/-- A body may have its top at its first statement. -/
theorem topBehind_statement :
    TopBehind ⟨index, indentation line.text, indentUnit header (some line.text)⟩ header index []
      (line :: rest) where
  place := rfl
  stays := List.forall_mem_nil _
  plain := List.forall_mem_nil _
  reached last _ := by
    -- The statement at the top belongs to the block, wherever the search is.
    have joins : ∀ first ∈ [line], JoinsBlock (indentWidth header) first :=
      List.forall_mem_singleton.mpr (.inr ⟨(MarkedLine.isStatement_iff.mp statement).2, deeper⟩)
    exact (blockEndFrom_append_joining (List.cons_ne_nil line []) joins).trans
      (blockEndFrom_append_joining (List.cons_ne_nil line []) joins).symm
  starts first same := Option.some.inj same ▸ (MarkedLine.isStatement_iff.mp statement).1
  indent := ⟨line.text, rfl, deeper⟩
  step := ⟨some line.text, rfl⟩

/-- A body that begins with a string may have its top behind it. -/
theorem topBehind_string (text : beginsWithString line.text = true)
    (continued : ∀ next ∈ continuation, next.starts = false)
    (starts : ∀ first, behind.head? = some first → first.starts = true) :
    TopBehind ⟨index + 1 + continuation.length, indentation line.text,
        indentUnit header (some line.text)⟩ header index (line :: continuation) behind := by
  have joins : ∀ next ∈ line :: continuation, JoinsBlock (indentWidth header) next :=
    List.forall_mem_cons.mpr ⟨.inr ⟨(MarkedLine.isStatement_iff.mp statement).2, deeper⟩,
      fun next member => .inl (continued next member)⟩
  refine
    { place := by rw [List.length_cons, Nat.add_assoc, Nat.add_comm 1]
      stays := fun next member => (joins next member).staysInside
      plain := List.forall_mem_cons.mpr ⟨fun _ => isDefHeader_of_beginsWithString text, ?_⟩
      reached := fun last _ => ?_
      starts := starts
      indent := ⟨line.text, rfl, deeper⟩
      step := ⟨some line.text, rfl⟩ }
  · intro next member begins
    rw [MarkedLine.isStatement, continued next member] at begins
    cases begins
  · rw [blockEndFrom_append_joining (List.cons_ne_nil line _) joins, List.length_cons,
      Nat.add_assoc, Nat.add_comm 1]

end First

theorem exists_of_bodyTopFrom {marked : List MarkedLine}
    (found : bodyTopFrom header index marked = some top) :
    ∃ passed behind, marked = passed ++ behind ∧ TopBehind top header index passed behind := by
  induction marked generalizing index with
  | nil => cases found
  | cons line rest ih =>
    rw [bodyTopFrom] at found
    split at found
    case isTrue other =>
      obtain ⟨passed, behind, rfl, topBehind⟩ := ih found
      refine ⟨line :: passed, behind, rfl, ?_⟩
      have here : ∀ first ∈ [line], first.isStatement = false :=
        List.forall_mem_singleton.mpr (by simpa using other)
      exact topBehind.prepend here
    case isFalse begins =>
      have statement : line.isStatement = true := by simpa using begins
      split at found
      case isFalse => cases found
      case isTrue deeper =>
        cases found
        cases text : beginsWithString line.text with
        | false => exact ⟨[], line :: rest, rfl, topBehind_statement statement deeper⟩
        | true =>
          refine ⟨line :: rest.takeWhile fun next => !next.starts,
            rest.dropWhile fun next => !next.starts, ?_,
            topBehind_string statement deeper text ?_ fun first same => ?_⟩
          · rw [List.cons_append, List.takeWhile_append_dropWhile]
          · exact fun next member => by simpa using List.mem_takeWhile_imp member
          · have stops := List.head?_dropWhile_not (fun next : MarkedLine => !next.starts) rest
            rw [same] at stops
            simpa using stops

theorem drop_length_takeWhile {α : Type} (p : α → Bool) (l : List α) :
    l.drop (l.takeWhile p).length = l.dropWhile p := by
  have behind := @List.drop_left α (l.takeWhile p) (l.dropWhile p)
  rwa [List.takeWhile_append_dropWhile] at behind

/-- **The top of a body lies within the block of its header.** -/
theorem exists_of_bodyTop? {lines : List String} (found : bodyTop? lines index = some top) :
    ∃ front header passed behind, front.length = index ∧
      markLines lines = front ++ header :: (passed ++ behind) ∧
        TopBehind top header.text (index + 1) passed behind := by
  unfold bodyTop? at found
  split at found
  · cases found
  · next header rest here =>
    have inside : index < (markLines lines).length := by
      refine Nat.lt_of_not_le fun short => ?_
      rw [List.drop_eq_nil_of_le short] at here
      cases here
    split at found
    · dsimp only at found
      split at found
      · cases found
      · obtain ⟨passed, behind, parts, topBehind⟩ := exists_of_bodyTopFrom found
        rw [drop_length_takeWhile] at parts
        refine ⟨(markLines lines).take index, header,
          (rest.takeWhile fun line => !line.starts) ++ passed, behind, ?_, ?_, ?_⟩
        · exact List.length_take_of_le (Nat.le_of_lt inside)
        · rw [List.append_assoc, ← parts, List.takeWhile_append_dropWhile, ← here,
            List.take_append_drop]
        · refine topBehind.prepend fun line member => ?_
          rw [MarkedLine.isStatement, Bool.and_eq_false_iff]
          exact .inl (by simpa using List.mem_takeWhile_imp member)
    · cases found

/-- Only a function header has a body. -/
theorem isDefHeader_of_bodyTop? {lines : List String} {first : MarkedLine}
    (found : bodyTop? lines index = some top) (here : (markLines lines)[index]? = some first) :
    isDefHeader first.text = true := by
  by_contra other
  simp [bodyTop?, drop_markLines here, other] at found

/-- A body is indented like one of its lines. -/
theorem exists_indentation {lines : List String} (found : bodyTop? lines index = some top) :
    ∃ line, top.indent = indentation line := by
  obtain ⟨front, header, passed, behind, -, -, topBehind⟩ := exists_of_bodyTop? found
  exact topBehind.indent.imp fun _ => And.left

/-- The top of a body lies behind the header, and at most behind the last line. -/
theorem lt_of_bodyTop? {lines : List String} (found : bodyTop? lines index = some top) :
    index < lines.length ∧ index < top.index ∧ top.index ≤ lines.length := by
  obtain ⟨front, header, passed, behind, rfl, marks, topBehind⟩ := exists_of_bodyTop? found
  have count := congrArg List.length marks
  have place := topBehind.place
  simp only [length_markLines, List.length_append, List.length_cons] at count
  omega

/-- Nothing is open at the top of a body, at the latest where the lines end. -/
theorem afterLines_bodyTop? {lines : List String} (found : bodyTop? lines index = some top)
    (closed : Carry.closed.afterLines lines = .closed) :
    Carry.closed.afterLines (lines.take top.index) = .closed := by
  obtain ⟨front, header, passed, behind, rfl, marks, topBehind⟩ := exists_of_bodyTop? found
  have place : (front ++ header :: passed).length = top.index := by
    rw [topBehind.place, List.length_append, List.length_cons]
    omega
  rw [← List.cons_append, ← List.append_assoc] at marks
  cases behind with
  | nil =>
    have count := congrArg List.length marks
    rw [List.append_nil, length_markLines, place] at count
    rwa [List.take_of_length_le (Nat.le_of_eq count)]
  | cons first rest =>
    have here : (markLines lines)[top.index]? = some first := by
      rw [marks, ← place, List.getElem?_append_right (Nat.le_refl _), Nat.sub_self]
      rfl
    exact afterLines_of_starts here (topBehind.starts first rfl)

end Top

/-! ## New lines -/

/-- Where nothing is open, new lines that leave nothing open do not change how the others are read. -/
theorem markLines_insert {front inserted : List String} (behind : List String)
    (nothing : Carry.closed.afterLines front = .closed)
    (contained : ∀ line ∈ inserted, Carry.closed.after line = .closed) :
    markLines (front ++ (inserted ++ behind)) = markLines front ++
      (inserted.map (fun line => ⟨line, true⟩) ++ markFrom .closed behind) := by
  have still : Carry.closed.afterLines inserted = .closed := by
    induction inserted with
    | nil => rfl
    | cons line rest ih =>
      rw [Carry.afterLines_cons, contained line (by simp)]
      exact ih fun other member => contained other (List.mem_cons_of_mem line member)
  rw [markLines_append, nothing, markFrom_append, still, ← markLines_eq_markFrom inserted,
    markLines_of_closed contained]

theorem indentWidth_indentation (line : String) : indentWidth (indentation line) = indentWidth line := by
  rw [indentWidth, indentation, String.toList_ofList, columnAfter_takeWhile, indentWidth]

/-- A line of code that leaves nothing open, as wide as an indentation. -/
structure StandsAt (indent line : String) : Prop where
  code : isCode line = true
  contained : Carry.closed.after line = .closed
  level : indentWidth line = indentWidth indent

section Insert

variable {lines inserted : List String} {index : Nat} {top : BodyTop}

/-- How lines are read after new ones are put in at the top of a body. -/
theorem exists_marks_insert_top (found : bodyTop? lines index = some top)
    (closed : Carry.closed.afterLines lines = .closed)
    (contained : ∀ line ∈ inserted, Carry.closed.after line = .closed) :
    ∃ front header passed, front.length = index ∧
      let behind := markFrom .closed (lines.drop top.index)
      markLines lines = front ++ header :: (passed ++ behind) ∧
        TopBehind top header.text (index + 1) passed behind ∧
          markLines (lines.take top.index ++ (inserted ++ lines.drop top.index)) =
            front ++ header :: (passed ++ (inserted.map (fun line => ⟨line, true⟩) ++ behind)) := by
  have nothing := afterLines_bodyTop? found closed
  obtain ⟨front, header, passed, behind, rfl, marks, topBehind⟩ := exists_of_bodyTop? found
  have place : top.index = (front ++ header :: passed).length := by
    rw [topBehind.place, List.length_append, List.length_cons]
    omega
  have first : markLines (lines.take top.index) = front ++ header :: passed := by
    rw [markLines_eq_markFrom, ← take_markFrom, ← markLines_eq_markFrom, marks,
      ← List.cons_append, ← List.append_assoc, place, List.take_left]
  have second : behind = markFrom .closed (lines.drop top.index) := by
    rw [← nothing, ← drop_markFrom, ← markLines_eq_markFrom, marks, ← List.cons_append,
      ← List.append_assoc, place, List.drop_left]
  subst second
  refine ⟨front, header, passed, rfl, marks, topBehind, ?_⟩
  rw [markLines_insert _ nothing contained, first, List.append_assoc, List.cons_append]

/-- The search for the end of a block passes the lines in front of the top of the body. -/
theorem TopBehind.blockEnd_eq {front passed behind : List MarkedLine} {header : MarkedLine}
    (topBehind : TopBehind top header.text (front.length + 1) passed behind)
    (marks : markLines lines = front ++ header :: (passed ++ behind)) :
    blockEnd lines front.length = blockEndFrom (indentWidth header.text)
      (front.length + passed.length) (front.length + passed.length + 1) behind := by
  rw [blockEnd_eq_blockEndFrom marks, topBehind.reached _ (Nat.lt_succ_self _), topBehind.place]
  congr 1 <;> omega

/-- The block of a header reaches at least the line in front of the top of the body. -/
theorem le_blockEnd_of_bodyTop? (found : bodyTop? lines index = some top) :
    top.index ≤ blockEnd lines index + 1 := by
  obtain ⟨front, header, passed, behind, rfl, marks, topBehind⟩ := exists_of_bodyTop? found
  have reached := @le_blockEndFrom (indentWidth header.text) _ _
    (Nat.le_succ (front.length + passed.length)) behind
  rw [← topBehind.blockEnd_eq marks] at reached
  rw [topBehind.place]
  omega

/-- **New lines at the top of a body make its block longer by just these lines.** -/
theorem blockEnd_insert_within (found : bodyTop? lines index = some top)
    (closed : Carry.closed.afterLines lines = .closed) (any : inserted ≠ [])
    (contained : ∀ line ∈ inserted, Carry.closed.after line = .closed)
    (within : ∀ line ∈ inserted, isCode line = true ∧ indentWidth top.indent ≤ indentWidth line) :
    blockEnd (lines.take top.index ++ (inserted ++ lines.drop top.index)) index =
      blockEnd lines index + inserted.length := by
  obtain ⟨front, header, passed, rfl, marks, topBehind, marks'⟩ :=
    exists_marks_insert_top found closed contained
  have joins : ∀ line ∈ inserted.map fun line => MarkedLine.mk line true,
      JoinsBlock (indentWidth header.text) line := by
    intro line member
    obtain ⟨text, listed, rfl⟩ := List.mem_map.mp member
    obtain ⟨inner, indented, below⟩ := topBehind.indent
    obtain ⟨code, level⟩ := within text listed
    rw [indented, indentWidth_indentation] at level
    exact .inr ⟨code, Nat.lt_of_lt_of_le below level⟩
  rw [blockEnd_insert marks' topBehind.stays (topBehind.blockEnd_eq marks) (by simpa using any)
    joins, List.length_map]

/-- New lines at the top of a body belong to its block, which loses none. -/
theorem blockEnd_insert_top (found : bodyTop? lines index = some top)
    (closed : Carry.closed.afterLines lines = .closed) (any : inserted ≠ [])
    (stand : ∀ line ∈ inserted, StandsAt top.indent line) :
    let patched := lines.take top.index ++ (inserted ++ lines.drop top.index)
    top.index + inserted.length ≤ blockEnd patched index + 1 ∧
      blockEnd lines index + inserted.length ≤ blockEnd patched index := by
  intro patched
  have reached := le_blockEnd_of_bodyTop? found
  have grown : blockEnd patched index = blockEnd lines index + inserted.length :=
    blockEnd_insert_within found closed any (fun line member => (stand line member).contained)
      fun line member => ⟨(stand line member).code, Nat.le_of_eq (stand line member).level.symm⟩
  omega

end Insert

end StrategyMend.Source
