import StrategyMend.Proofs.Repair.SoleFix
import StrategyMend.Proofs.Source.Signature
import StrategyMend.Repair.Strategy

/-!
# Fixes at the top of a body

Two generators put lines at the top of the body of a function. Which headers they decline though a block
follows is told by the last line of the header alone (`isSome_of_blockHeader_iff`).

The fix of an initializer puts in the missing statements, indented like the body. Whether a statement is
missing is asked of the block of the header. The two agree: the new lines belong to the block, which
keeps all its other lines (`missingStatements_edit`). So once the fix is applied no statement is missing
any more, and the generator declines (`fieldInitFix?_apply`).
-/

set_option autoImplicit false

namespace StrategyMend.Repair

open Number Source Text

/-! ## Statements on lines of their own -/

/-- A statement on one line, without blank characters around it, that leaves nothing open. -/
structure SelfContained (statement : String) : Prop where
  trimmed : trim statement = statement
  oneLine : '\n' ∉ statement.toList
  code : isCode statement = true
  closed : Carry.closed.after statement = .closed

section Indented

variable {statement line : String}

/-- What is trimmed begins with a character that is not blank. -/
theorem trimStart_of_trim {cs : List Char} (trimmed : Chars.trim cs = cs) :
    Chars.trimStart cs = cs := by
  refine (List.dropWhile_sublist isBlank).eq_of_length_le ?_
  have shorter : (Chars.trim cs).length ≤ (Chars.trimStart cs).length := by
    rw [Chars.trim, Chars.trimEnd, dropEndWhile, List.length_reverse]
    exact Nat.le_trans (List.dropWhile_sublist isBlank).length_le (Nat.le_of_eq List.length_reverse)
  rwa [trimmed] at shorter

namespace SelfContained

variable (contained : SelfContained statement)

include contained

theorem trimStart_eq : trimStart statement = statement := by
  have trimmed := congrArg String.toList contained.trimmed
  rw [trim, String.toList_ofList] at trimmed
  rw [trimStart, trimStart_of_trim trimmed, String.ofList_toList]

/-- An indented statement is trimmed to what it was. -/
theorem trim_indented : trim (indentation line ++ statement) = statement := by
  have blanks := trimStart_realigned contained.code line
  rw [contained.trimStart_eq] at blanks
  rw [trim, Chars.trim, blanks, ← Chars.trim, ← trim, contained.trimmed]

/-- An indented statement is as wide as its indentation. -/
theorem indentWidth_indented : indentWidth (indentation line ++ statement) = indentWidth line := by
  have width := indentWidth_realigned contained.code line
  rwa [contained.trimStart_eq] at width

theorem isCode_indented : isCode (indentation line ++ statement) = true := by
  have code := isCode_realigned contained.code line
  rwa [contained.trimStart_eq] at code

/-- An indented statement leaves nothing open. -/
theorem after_indented : Carry.closed.after (indentation line ++ statement) = .closed := by
  have leaves := after_closed_realigned contained.code line
  rwa [contained.trimStart_eq, contained.closed] at leaves

theorem standsAt : StandsAt (indentation line) (indentation line ++ statement) where
  code := contained.isCode_indented
  contained := contained.after_indented
  level := by rw [contained.indentWidth_indented, indentWidth_indentation]

theorem oneLine_indented : '\n' ∉ (indentation line ++ statement).toList :=
  newline_not_mem_indented contained.oneLine

end SelfContained

end Indented

/-! ## The lines between two numbers -/

theorem mem_span_iff {lines : List String} {first last : Nat} {line : String} :
    line ∈ span lines first last ↔
      ∃ index, first ≤ index ∧ index ≤ last ∧ lines[index]? = some line := by
  rw [span, List.mem_iff_getElem?]
  constructor
  · rintro ⟨index, here⟩
    obtain ⟨inside, here⟩ := List.getElem?_eq_some_iff.mp here
    rw [List.length_take, List.length_drop] at inside
    rw [List.getElem_take, List.getElem_drop] at here
    exact ⟨first + index, by omega, by omega, List.getElem?_eq_some_iff.mpr ⟨_, here⟩⟩
  · rintro ⟨index, after, upTo, here⟩
    refine ⟨index - first, ?_⟩
    rw [List.getElem?_take_of_lt (by omega), List.getElem?_drop, Nat.add_sub_cancel' after, here]

section Insert

variable {lines inserted : List String} {place first last last' : Nat}

theorem subset_span_insert (placed : place ≤ lines.length) (behind : first ≤ place)
    (reached : place + inserted.length ≤ last' + 1) :
    inserted ⊆ span (lines.take place ++ (inserted ++ lines.drop place)) first last' := by
  intro line member
  obtain ⟨offset, here⟩ := List.mem_iff_getElem?.mp member
  have inside := (List.getElem?_eq_some_iff.mp here).1
  have front := List.length_take_of_le placed
  refine mem_span_iff.mpr ⟨place + offset, by omega, by omega, ?_⟩
  rw [List.getElem?_append_right (by omega), front, Nat.add_sub_cancel_left,
    List.getElem?_append_left inside, here]

/-- Lines that are put in move the lines behind them down. -/
theorem span_subset_insert (placed : place ≤ lines.length)
    (kept : last + inserted.length ≤ last') :
    span lines first last ⊆
      span (lines.take place ++ (inserted ++ lines.drop place)) first last' := by
  intro line member
  obtain ⟨index, after, upTo, here⟩ := mem_span_iff.mp member
  have front := List.length_take_of_le placed
  rcases Nat.lt_or_ge index place with before | behind
  · refine mem_span_iff.mpr ⟨index, after, by omega, ?_⟩
    rw [List.getElem?_append_left (by omega), List.getElem?_take_of_lt before, here]
  · refine mem_span_iff.mpr ⟨index + inserted.length, by omega, by omega, ?_⟩
    rw [List.getElem?_append_right (by omega), List.getElem?_append_right (by omega), front,
      List.getElem?_drop, ← here]
    congr 1
    omega

end Insert

/-! ## The fix of an initializer -/

section Fix

variable {config : Config.Fixer} {statements lines : List String} {issue : Issue} {fix : Fix}
  {top : BodyTop}

/-- The lines that the fix puts in at the top of a body. -/
def initialLines (top : BodyTop) (statements lines : List String) (index : Nat) : List String :=
  (missingStatements statements lines index).map (top.indent ++ ·)

/-- New lines are statements that are indented like the body. -/
theorem exists_of_mem_initialLines {index : Nat} {line : String}
    (here : bodyTop? lines index = some top)
    (member : line ∈ initialLines top statements lines index) :
    ∃ statement ∈ statements, ∃ inner, top.indent = indentation inner ∧
      line = indentation inner ++ statement := by
  obtain ⟨statement, listed, rfl⟩ := List.mem_map.mp member
  obtain ⟨inner, indented⟩ := exists_indentation here
  exact ⟨statement, (List.mem_filter.mp listed).1, inner, indented, by rw [indented]⟩

/-- They are lines, and not only one empty line. -/
theorem initialLines_solid (contained : ∀ statement ∈ statements, SelfContained statement) {index : Nat}
    (here : bodyTop? lines index = some top) :
    (∀ line ∈ initialLines top statements lines index, '\n' ∉ line.toList) ∧
      initialLines top statements lines index ≠ [""] := by
  constructor
  · intro line member
    obtain ⟨statement, listed, inner, -, rfl⟩ := exists_of_mem_initialLines here member
    exact (contained statement listed).oneLine_indented
  · intro one
    obtain ⟨statement, listed, inner, -, empty⟩ :=
      exists_of_mem_initialLines here (one ▸ List.mem_singleton_self "")
    have code := @SelfContained.isCode_indented _ inner (contained statement listed)
    rw [← empty] at code
    revert code
    decide

/-- The fix puts lines in at the top of the body. -/
theorem replacementLines_of_fieldInitFix?
    (contained : ∀ statement ∈ statements, SelfContained statement)
    (found : fieldInitFix? config statements issue lines = some fix)
    (here : bodyTop? lines issue.lineIndex = some top) :
    fix.isInsert = true ∧ fix.line = top.index + 1 ∧
      fix.replacementLines = initialLines top statements lines issue.lineIndex := by
  obtain ⟨top', there, made⟩ := Option.bind_eq_some_iff.mp found
  obtain rfl := Option.some.inj (here.symm.trans there)
  dsimp only at made
  split at made
  · cases made
  · cases made
    obtain ⟨free, solid⟩ := initialLines_solid contained here
    refine ⟨rfl, rfl, ?_⟩
    rw [replacementLines_eq_readBack free rfl, readBack, if_neg solid]

/-- The fix puts the missing statements at the top of the body. -/
theorem edit_of_fieldInitFix? (contained : ∀ statement ∈ statements, SelfContained statement)
    (found : fieldInitFix? config statements issue lines = some fix) :
    ∃ top, bodyTop? lines issue.lineIndex = some top ∧ fix.inRange lines.length = true ∧
      fix.editKind ≠ .noChange ∧ initialLines top statements lines issue.lineIndex ≠ [] ∧
        fix.edit lines = lines.take top.index ++
          (initialLines top statements lines issue.lineIndex ++ lines.drop top.index) := by
  obtain ⟨top, here, made⟩ := Option.bind_eq_some_iff.mp found
  dsimp only at made
  split at made
  · cases made
  · next missing =>
    cases made
    obtain ⟨-, -, inside⟩ := lt_of_bodyTop? here
    obtain ⟨free, solid⟩ := initialLines_solid contained here
    obtain ⟨changes, inRange, edited⟩ := edit_insert_judged free solid inside
    exact ⟨top, here, inRange, changes, by simpa [initialLines] using missing, edited⟩

/-- **After the fix no statement is missing.** -/
theorem missingStatements_edit (contained : ∀ statement ∈ statements, SelfContained statement)
    (closed : Carry.closed.afterLines lines = .closed)
    (found : fieldInitFix? config statements issue lines = some fix) :
    missingStatements statements (fix.edit lines) issue.lineIndex = [] := by
  obtain ⟨top, here, -, -, any, edited⟩ := edit_of_fieldInitFix? contained found
  obtain ⟨-, above, placed⟩ := lt_of_bodyTop? here
  have stand : ∀ line ∈ initialLines top statements lines issue.lineIndex,
      StandsAt top.indent line := by
    intro line member
    obtain ⟨statement, listed, inner, indented, rfl⟩ := exists_of_mem_initialLines here member
    exact indented ▸ (contained statement listed).standsAt
  obtain ⟨reached, kept⟩ := blockEnd_insert_top here closed any stand
  rw [edited, missingStatements, List.filter_eq_nil_iff]
  intro statement listed
  rw [Bool.not_eq_true, Bool.not_eq_false', List.contains_iff_mem, List.mem_map]
  by_cases old : statement ∈ (span lines issue.lineIndex (blockEnd lines issue.lineIndex)).map trim
  · obtain ⟨line, present, reads⟩ := List.mem_map.mp old
    exact ⟨line, span_subset_insert placed kept present, reads⟩
  · have missing : top.indent ++ statement ∈
        initialLines top statements lines issue.lineIndex :=
      List.mem_map_of_mem (List.mem_filter.mpr ⟨listed, by simpa using old⟩)
    refine ⟨_, subset_span_insert placed (Nat.le_of_lt above) reached missing, ?_⟩
    obtain ⟨inner, indented⟩ := exists_indentation here
    rw [indented, (contained statement listed).trim_indented]

theorem fieldInitFix?_eq_none
    (present : missingStatements statements lines issue.lineIndex = []) :
    fieldInitFix? config statements issue lines = none := by
  refine Option.bind_eq_none_iff.mpr fun top _ => ?_
  rw [present]
  rfl

end Fix

/-- **Applying the fix of an initializer twice puts nothing in twice.** If the statements are code on
lines of their own and nothing is open where the lines end, then once the fix is applied, alone or at
any threshold that it meets, no statement is missing at the same header, and the generator declines. -/
theorem fieldInitFix?_apply {config : Config.Fixer} {statements lines : List String} {issue : Issue}
    {fix : Fix} (contained : ∀ statement ∈ statements, SelfContained statement)
    (closed : Carry.closed.afterLines lines = .closed)
    (found : fieldInitFix? config statements issue lines = some fix) :
    let patched := fix.applyAlone lines
    patched ≠ lines ∧ missingStatements statements patched issue.lineIndex = [] ∧
      fieldInitFix? config statements issue patched = none ∧
        ∀ threshold, fix.isEligible threshold = true →
          (Patch.apply lines [fix] threshold).lines = patched := by
  intro patched
  obtain ⟨top, here, inside, changes, any, edited⟩ := edit_of_fieldInitFix? contained found
  have applied : patched = fix.edit lines :=
    (applyAlone_eq changes inside).trans (Fix.edit_eq changes lines).symm
  have present := missingStatements_edit contained closed found
  rw [← applied] at present
  refine ⟨fun same => ?longer, present, fieldInitFix?_eq_none present,
    fun threshold able => (lines_apply_singleton able inside).trans applied.symm⟩
  case longer =>
    rw [applied, edited] at same
    have lengths := congrArg List.length same
    have positive := List.length_pos_iff.mpr any
    simp only [List.length_append, List.length_take, List.length_drop] at lengths
    omega

/-- An initializer whose body begins with a string, with one statement that is there already. -/
def documentedInit : List String :=
  ["class S:", "    def __init__(", "        self,", "    ):", "", "        \"\"\"Sets the",
    "fields.", "        \"\"\"", "        # the order", "        self.order = None  ", "",
    "    def next(self):"]

theorem fieldInitFix?_apply_documentedInit :
    let statements := ["self.order = None", "self.price = None", "self.fee = [0]"]
    let issue : Issue := ⟨.high, .missingFieldInit, 2, "m", none, none⟩
    ∃ fix, fieldInitFix? .standard statements issue documentedInit = some fix ∧
      fix.applyAlone documentedInit = documentedInit.take 8 ++
        ["        self.price = None", "        self.fee = [0]"] ++ documentedInit.drop 8 ∧
      fieldInitFix? .standard statements issue (fix.applyAlone documentedInit) = none := by
  intro statements issue
  have contained : ∀ statement ∈ statements, SelfContained statement := by
    have facts : ∀ statement ∈ statements, trim statement = statement ∧
        '\n' ∉ statement.toList ∧ isCode statement = true ∧
          Carry.closed.after statement = .closed := by
      decide +kernel
    intro statement member
    obtain ⟨trimmed, oneLine, code, closed⟩ := facts statement member
    exact ⟨trimmed, oneLine, code, closed⟩
  have closed : Carry.closed.afterLines documentedInit = .closed := by decide +kernel
  have shown : (fieldInitFix? .standard statements issue documentedInit).any (fun fix : Fix =>
      decide (fix.applyAlone documentedInit = documentedInit.take 8 ++
        ["        self.price = None", "        self.fee = [0]"] ++ documentedInit.drop 8)) = true := by
    decide +kernel
  obtain ⟨fix, found, edited⟩ := (Option.any_eq_true _ _).mp shown
  exact ⟨fix, found, of_decide_eq_true edited, (fieldInitFix?_apply contained closed found).2.2.1⟩

/-! ## Headers that are declined -/

section Declined

variable {config : Config.Fixer} {statements lines : List String} {issue : Issue}

theorem isSome_guardFix? (field : String) :
    (guardFix? config field issue lines).isSome = (bodyTop? lines issue.lineIndex).isSome := by
  rw [guardFix?]
  cases bodyTop? lines issue.lineIndex <;> rfl

theorem isSome_fieldInitFix?_iff :
    (fieldInitFix? config statements issue lines).isSome = true ↔
      (bodyTop? lines issue.lineIndex).isSome = true ∧
        missingStatements statements lines issue.lineIndex ≠ [] := by
  rw [fieldInitFix?]
  cases bodyTop? lines issue.lineIndex with
  | none => simp
  | some top =>
    cases missingStatements statements lines issue.lineIndex <;> simp

end Declined

/-- **Which headers with a block behind them are declined.** The top of the body is found exactly if the
last line of the header, read on its own, carries no body. That is so if it has a single colon, and for
a header on one line if its colon is the first outside of strings and brackets and no string is escaped
or has triple quotes. A guard is put in exactly if the top is found, and an initial statement exactly if
one is missing as well. -/
theorem isSome_of_blockHeader_iff {lines : List String} {index : Nat}
    (block : BlockHeader lines index) :
    ((bodyTop? lines index).isSome = true ↔ ¬HasInlineBody block.last) ∧
      (':' ∉ block.before → ':' ∉ block.after → (bodyTop? lines index).isSome = true) ∧
      (lastRow lines index = index → PlainStrings block.last.toList →
        (∀ front rest, block.before = front ++ ':' :: rest →
          ¬((Lexer.start.read front).reading.isCode = true ∧ (Lexer.start.read front).depth = 0)) →
        (bodyTop? lines index).isSome = true) ∧
      ∀ (config : Config.Fixer) (issue : Issue), issue.lineIndex = index →
        (∀ field, (guardFix? config field issue lines).isSome = true ↔ ¬HasInlineBody block.last) ∧
          ∀ statements, (fieldInitFix? config statements issue lines).isSome = true ↔
            ¬HasInlineBody block.last ∧ missingStatements statements lines index ≠ [] := by
  refine ⟨block.isSome_bodyTop?_iff,
    fun before after => block.isSome_bodyTop?_iff.mpr (block.not_hasInlineBody_of_single before after),
    fun single plain first => block.isSome_bodyTop?_iff.mpr (block.not_hasInlineBody single plain first),
    ?fixes⟩
  rintro config issue rfl
  exact ⟨fun field => by rw [isSome_guardFix?, block.isSome_bodyTop?_iff],
    fun statements => by rw [isSome_fieldInitFix?_iff, block.isSome_bodyTop?_iff]⟩

/-- A header over two lines. -/
def brokenSignature : List String :=
  ["    def next(self,", "             size=(1, 'a')) -> None:  # one step", "", "        pass"]

/-- The colon of the header is the only one on its last line. -/
def brokenSignatureHeader : BlockHeader brokenSignature 0 where
  header := ⟨"    def next(self,", true⟩
  first := ⟨"        pass", true⟩
  last := "             size=(1, 'a')) -> None:  # one step"
  before := "             size=(1, 'a')) -> None".toList
  after := "  # one step".toList
  here := by decide +kernel
  starts := rfl
  definition := by decide +kernel
  next := by decide +kernel
  deeper := by decide +kernel
  ends := by decide +kernel
  colon := by decide +kernel
  programText := by decide +kernel
  blank c same := by
    have comment : (Chars.trimStart "  # one step".toList).head? = some '#' := by decide +kernel
    exact Option.some.inj (same.symm.trans comment)

/-- A header on one line, with other colons. -/
def annotatedSignature : List String :=
  ["async def next(self, sep: str = ':', n: int = 1):  # note: once", "    return n"]

/-- The other colons stand in brackets and in a comment. -/
def annotatedSignatureHeader : BlockHeader annotatedSignature 0 where
  header := ⟨"async def next(self, sep: str = ':', n: int = 1):  # note: once", true⟩
  first := ⟨"    return n", true⟩
  last := "async def next(self, sep: str = ':', n: int = 1):  # note: once"
  before := "async def next(self, sep: str = ':', n: int = 1)".toList
  after := "  # note: once".toList
  here := by decide +kernel
  starts := rfl
  definition := by decide +kernel
  next := by decide +kernel
  deeper := by decide +kernel
  ends := by decide +kernel
  colon := by decide +kernel
  programText := by decide +kernel
  blank c same := by
    have comment : (Chars.trimStart "  # note: once".toList).head? = some '#' := by decide +kernel
    exact Option.some.inj (same.symm.trans comment)

theorem isSome_of_blockHeader_iff_signatures :
    ¬HasInlineBody brokenSignatureHeader.last ∧
      (bodyTop? annotatedSignature 0).isSome = true ∧
      (guardFix? .standard "order" ⟨.medium, .missingGuardCheck, 1, "m", none, none⟩
        brokenSignature).isSome = true := by
  obtain ⟨found, broken, -, fixes⟩ := isSome_of_blockHeader_iff brokenSignatureHeader
  obtain ⟨-, -, annotated, -⟩ := isSome_of_blockHeader_iff annotatedSignatureHeader
  have bare := found.mp (broken (by decide +kernel) (by decide +kernel))
  refine ⟨bare, annotated (by decide +kernel) ⟨by decide +kernel, ?quotes⟩ ?first,
    ((fixes .standard _ rfl).1 "order").mpr bare⟩
  case quotes =>
    intro quote quotes
    simp only [isQuote, Bool.or_eq_true, decide_eq_true_eq] at quotes
    rcases quotes with rfl | rfl <;> decide +kernel
  case first =>
    have inside : ∀ column < annotatedSignatureHeader.before.length,
        annotatedSignatureHeader.before[column]? = some ':' →
          ¬((Lexer.start.read (annotatedSignatureHeader.before.take column)).reading.isCode = true ∧
            (Lexer.start.read (annotatedSignatureHeader.before.take column)).depth = 0) := by
      decide +kernel
    intro front rest split
    have colon := inside front.length (by simp [split]) (by simp [split])
    rwa [split, List.take_left] at colon

/-- A header whose last line has an annotation. -/
def annotationOnLastLine : List String := ["def f(a,", "      b: int = 3):", "    pass"]

/-- The annotation is read as the body of the header. -/
theorem annotationOnLastLine_declined :
    (∃ block : BlockHeader annotationOnLastLine 0, block.before = "      b: int = 3)".toList) ∧
      bodyTop? annotationOnLastLine 0 = none := by
  refine ⟨⟨⟨⟨"def f(a,", true⟩, ⟨"    pass", true⟩, "      b: int = 3):",
    "      b: int = 3)".toList, [], ?_, rfl, ?_, ?_, ?_, ?_, ?_, ?_, nofun⟩, rfl⟩, ?_⟩
  all_goals decide +kernel

end StrategyMend.Repair
