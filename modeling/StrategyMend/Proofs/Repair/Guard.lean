import StrategyMend.Proofs.Repair.TopOfBody
import StrategyMend.Proofs.Source.BodyLines
import StrategyMend.Python.Identifier

/-!
# The guard of a step hook

The guard is a conditional of two lines that is put in at the top of the body of a step hook. If the
field is an identifier, both lines fit the body (`fitsBody_guardLines`), so they land there like all
lines that do (`insertedIntoBody_bodyTop?`).

A step of indentation is never empty (`indentUnit_spec`), so the second line is deeper than the first,
and the block of the guard holds it. It holds nothing else exactly if the next statement is not deeper
than the body.
-/

set_option autoImplicit false

namespace StrategyMend.Python

open Text

/-- A text that is an identifier. -/
def IsIdentifier (text : String) : Prop :=
  ∃ c rest, text.toList = c :: rest ∧ isIdentifierStart c = true ∧
    ∀ d ∈ rest, isIdentifierPart d = true

/-- Quotes, brackets, the comment sign, the backslash and the newline. -/
def foreignChars : List Char := '\\' :: '\n' :: Source.specialChars

/-- An identifier has no such characters. -/
theorem IsIdentifier.not_mem {text : String} (identifier : IsIdentifier text) :
    ∀ c ∈ text.toList, c ∉ foreignChars := by
  obtain ⟨first, rest, split, start, parts⟩ := identifier
  have strange : (foreignChars.all fun c => !isIdentifierStart c && !isIdentifierPart c) = true := by
    decide
  rw [split]
  refine List.forall_mem_cons.mpr ⟨fun foreign => ?_, fun c member foreign => ?_⟩
  · simpa [start] using List.all_eq_true.mp strange first foreign
  · simpa [parts c member] using List.all_eq_true.mp strange c foreign

end StrategyMend.Python

namespace StrategyMend.Repair

open Python Source Text

/-! ## The lines of the guard -/

/-- The guard for a field at the top of a body. -/
def guardLines (top : BodyTop) (field : String) : List String :=
  [top.indent ++ ("if self." ++ field ++ ":"), top.indent ++ top.step ++ "return"]

/-- A text is trimmed if it neither begins nor ends with a blank character. -/
theorem trim_eq_self {text : String} {first last : Char} (begins : text.toList.head? = some first)
    (ends : text.toList.getLast? = some last) (solid : isBlank first = false)
    (solid' : isBlank last = false) : trim text = text := by
  obtain ⟨rest, split⟩ := List.head?_eq_some_iff.mp begins
  have front : Chars.trimStart text.toList = text.toList := by
    rw [split, Chars.trimStart, List.dropWhile_cons_of_neg (by simp [solid])]
  rw [← List.head?_reverse] at ends
  obtain ⟨rest', split'⟩ := List.head?_eq_some_iff.mp ends
  rw [trim, Chars.trim, front, Chars.trimEnd, dropEndWhile, split',
    List.dropWhile_cons_of_neg (by simp [solid']), ← split', List.reverse_reverse,
    String.ofList_toList]

/-- A step of indentation indents. -/
theorem indentUnit_spec (header : String) (body : Option String) :
    (indentUnit header body).toList ≠ [] ∧
      ∀ c ∈ (indentUnit header body).toList, isIndentChar c = true := by
  have spaces : "    ".toList ≠ [] ∧ ∀ c ∈ "    ".toList, isIndentChar c = true :=
    ⟨by decide, List.all_eq_true.mp (by decide)⟩
  unfold indentUnit
  dsimp only
  split
  · next line =>
    split
    · next further =>
      rw [Bool.and_eq_true, decide_eq_true_eq] at further
      rw [String.toList_ofList]
      refine ⟨fun empty => ?_, fun c member =>
        isIndentChar_of_mem_indentation c (List.mem_of_mem_drop member)⟩
      exact Nat.not_le_of_lt further.1 (List.drop_eq_nil_iff.mp empty)
    · exact spaces
  · exact spaces

theorem selfContained_guard {field : String} (identifier : IsIdentifier field) :
    SelfContained ("if self." ++ field ++ ":") := by
  have text : ("if self." ++ field ++ ":").toList =
      "if self.".toList ++ (field.toList ++ ":".toList) := by simp
  have ordinary : ∀ c ∈ ("if self." ++ field ++ ":").toList, c ∉ foreignChars := by
    have around :
        (("if self.".toList ++ ":".toList).all fun c => decide (c ∉ foreignChars)) = true := by
      decide
    have ends := fun c member => of_decide_eq_true (List.all_eq_true.mp around c member)
    intro c member
    rw [text, List.mem_append, List.mem_append] at member
    rcases member with before | inside | behind
    · exact ends c (List.mem_append_left _ before)
    · exact identifier.not_mem c inside
    · exact ends c (List.mem_append_right _ behind)
  have first : ("if self." ++ field ++ ":").toList.head? = some 'i' := by
    rw [text]
    rfl
  have last : ("if self." ++ field ++ ":").toList.getLast? = some ':' := by
    rw [text, ← List.append_assoc]
    exact List.getLast?_concat
  exact
    { trimmed := trim_eq_self first last rfl rfl
      oneLine := fun newline => ordinary '\n' newline (by decide)
      code := isCode_of_head? (c := 'i') (by rw [text]; rfl) (by decide)
      closed := after_closed_of_plain fun c member => by
        have special := ordinary c member
        rw [foreignChars, List.mem_cons, List.mem_cons, not_or, not_or] at special
        exact ⟨isPlain_of_not_mem special.2.2, special.1⟩ }

theorem selfContained_return : SelfContained "return" where
  trimmed := by decide +kernel
  oneLine := by decide +kernel
  code := by decide +kernel
  closed := by decide +kernel

/-- A statement that does not begin like a function header fits a body if it is indented at least like
it. -/
theorem SelfContained.fitsBody {statement line indent : String} {c : Char}
    (contained : SelfContained statement) (first : statement.toList.head? = some c)
    (letter : c ∉ ['d', 'a']) (indented : indent.toList <+: (indentation line).toList) :
    FitsBody indent (indentation line ++ statement) where
  code := contained.isCode_indented
  contained := contained.after_indented
  indented := by
    rw [String.toList_append]
    exact indented.trans (List.prefix_append _ _)
  plain := by
    by_contra definition
    obtain ⟨d, letter', first'⟩ := head?_of_isDefHeader (by simpa using definition)
    have blanks := trimStart_realigned contained.code line
    rw [contained.trimStart_eq] at blanks
    have text := congrArg String.toList contained.trimStart_eq
    rw [trimStart, String.toList_ofList] at text
    rw [blanks, text, first, Option.some.injEq] at first'
    exact letter (first' ▸ letter')

section Guard

variable {lines : List String} {index : Nat} {top : BodyTop} {field : String}

/-- How the body of the guard is indented. -/
theorem exists_steps (found : bodyTop? lines index = some top) :
    indentation (top.indent ++ top.step) = top.indent ++ top.step ∧
      indentWidth top.indent < indentWidth (top.indent ++ top.step) := by
  obtain ⟨front, header, passed, behind, -, -, topBehind⟩ := exists_of_bodyTop? found
  obtain ⟨inner, indented, -⟩ := topBehind.indent
  obtain ⟨body, stepped⟩ := topBehind.step
  obtain ⟨some, indents⟩ := indentUnit_spec header.text body
  rw [← stepped] at some indents
  have outer : ∀ c ∈ top.indent.toList, isIndentChar c = true :=
    indented ▸ isIndentChar_of_mem_indentation
  constructor
  · have all : ∀ c ∈ (top.indent ++ top.step).toList, isIndentChar c = true := by
      rw [String.toList_append]
      exact List.forall_mem_append.mpr ⟨outer, indents⟩
    rw [indentation, List.takeWhile_eq_self_iff.mpr all, String.ofList_toList]
  · obtain ⟨c, rest, step⟩ := List.exists_cons_of_ne_nil some
    rw [indentWidth, indentWidth, String.toList_append, columnAfter_append_of_indents outer, step]
    exact lt_columnAfter_cons (indents c (by simp [step])) _ rest

/-- The lines of the guard fit the body. -/
theorem fitsBody_guardLines (found : bodyTop? lines index = some top)
    (identifier : IsIdentifier field) : ∀ line ∈ guardLines top field, FitsBody top.indent line := by
  obtain ⟨inner, indented⟩ := exists_indentation found
  obtain ⟨steps, -⟩ := exists_steps found
  refine List.forall_mem_cons.mpr ⟨?_, List.forall_mem_singleton.mpr ?_⟩
  · rw [indented]
    refine (selfContained_guard identifier).fitsBody (c := 'i') ?_ (by decide) (List.prefix_refl _)
    simp
  · rw [← steps]
    refine selfContained_return.fitsBody (c := 'r') rfl (by decide) ?_
    rw [steps, String.toList_append]
    exact List.prefix_append _ _

theorem newlineFree_guardLines (found : bodyTop? lines index = some top)
    (identifier : IsIdentifier field) : ∀ line ∈ guardLines top field, '\n' ∉ line.toList := by
  obtain ⟨inner, indented⟩ := exists_indentation found
  refine List.forall_mem_cons.mpr ⟨?_, List.forall_mem_singleton.mpr ?_⟩
  · rw [indented]
    exact (selfContained_guard identifier).oneLine_indented
  · rw [← (exists_steps found).1]
    exact selfContained_return.oneLine_indented

/-- The guard ends with its second line exactly if the next statement is not deeper than the body. -/
theorem blockEnd_guardLines_iff (found : bodyTop? lines index = some top)
    (closed : Carry.closed.afterLines lines = .closed) (identifier : IsIdentifier field) :
    blockEnd (lines.take top.index ++ (guardLines top field ++ lines.drop top.index)) top.index =
        top.index + 1 ↔
      ∀ next, ((markLines lines).drop top.index).find? MarkedLine.isStatement = some next →
        indentWidth next.text ≤ indentWidth top.indent := by
  have fits := fitsBody_guardLines found identifier
  obtain ⟨inner, indented⟩ := exists_indentation found
  obtain ⟨steps, deeper⟩ := exists_steps found
  have level : indentWidth (top.indent ++ ("if self." ++ field ++ ":")) = indentWidth top.indent := by
    rw [indented, (selfContained_guard identifier).indentWidth_indented, indentWidth_indentation]
  have level' : indentWidth (top.indent ++ top.step ++ "return") =
      indentWidth (top.indent ++ top.step) := by
    rw [← steps, selfContained_return.indentWidth_indented, steps]
  rw [guardLines, blockEnd_insert_pair (lt_of_bodyTop? found).2.2 (afterLines_bodyTop? found closed)
    (fun line member => (fits line member).contained) (fits _ (by simp [guardLines])).code
    (by rw [level, level']; exact deeper), level]

/-- The fix for a step hook, applied alone, puts in the guard. -/
theorem applyAlone_guardFix? (config : Config.Fixer) {issue : Issue}
    (found : bodyTop? lines issue.lineIndex = some top) (identifier : IsIdentifier field) :
    ∃ fix, guardFix? config field issue lines = some fix ∧ fix.applyAlone lines =
      lines.take top.index ++ (guardLines top field ++ lines.drop top.index) := by
  have check : [top.indent ++ "if self." ++ field ++ ":", top.indent ++ top.step ++ "return"] =
      guardLines top field := by
    simp only [guardLines, String.append_assoc]
  refine ⟨_, by rw [guardFix?, found]; rfl, ?_⟩
  rw [check]
  obtain ⟨changes, inside, edited⟩ := edit_insert_judged (newlineFree_guardLines found identifier)
    (by simp [guardLines]) (lt_of_bodyTop? found).2.2
  exact (applyAlone_eq_edit changes inside).trans edited

end Guard

/-- **What is put in at the top of a body lands in the body and disturbs nothing.** Nothing is open
where the lines end, and the header of the body begins a statement. Then lines that fit the body become
statements of its function, the lines around them begin statements as before, and the block of the
function becomes longer by just these lines. The guard is such a pair of lines if the field is an
identifier, and its block ends with its `return` exactly if the next statement is not deeper than the
body. -/
theorem insertedIntoBody_bodyTop? {lines : List String} {index : Nat} {top : BodyTop}
    (found : bodyTop? lines index = some top) (starts : (statementStarts lines)[index]? = some true)
    (closed : Carry.closed.afterLines lines = .closed) :
    ∃ header name, lines[index]? = some header ∧ NamesFunction header name ∧
      (∀ inserted, inserted ≠ [] → (∀ line ∈ inserted, FitsBody top.indent line) →
        InsertedIntoBody lines inserted (lines.take top.index ++ (inserted ++ lines.drop top.index))
          index top.index name) ∧
      ∀ (config : Config.Fixer) (validator : Config.Validator) (issue : Issue),
        IsIdentifier validator.pendingOrderField → issue.lineIndex = index →
          ∃ fix, (guardCheck config validator).generate issue lines = .proposed fix ∧
            InsertedIntoBody lines (guardLines top validator.pendingOrderField)
              (fix.applyAlone lines) index top.index name ∧
              (blockEnd (fix.applyAlone lines) top.index = top.index + 1 ↔
                ∀ next, ((markLines lines).drop top.index).find? MarkedLine.isStatement = some next →
                  indentWidth next.text ≤ indentWidth top.indent) := by
  rw [← map_starts_markLines, List.getElem?_map] at starts
  obtain ⟨header, here, begins⟩ := Option.map_eq_some_iff.mp starts
  obtain ⟨name, names⟩ := exists_namesFunction (isDefHeader_of_bodyTop? found here)
  refine ⟨header.text, name, getElem?_of_markLines here, names,
    fun inserted any fits => insertedIntoBody_top found closed here begins names fits any, ?guard⟩
  rintro config validator issue identifier rfl
  obtain ⟨fix, made, applied⟩ := applyAlone_guardFix? config found identifier
  refine ⟨fix, ?_, ?_, ?_⟩
  · show Attempt.ofOption (guardFix? config validator.pendingOrderField issue lines) = .proposed fix
    rw [made]
    rfl
  · rw [applied]
    exact insertedIntoBody_top found closed here begins names
      (fitsBody_guardLines found identifier) (List.cons_ne_nil _ _)
  · rw [applied]
    exact blockEnd_guardLines_iff found closed identifier

/-- A step hook with a header over three lines and a string at the top of its body that runs on at the
margin; the body is indented with tabs and spaces. -/
def documentedHook : List String :=
  ["class S:", "\tasync def next(self,", "size=(1,", "2)):", "\t\t# once a bar", "\t    \tr'''Trades",
    "once.", "  '''", "", "# margin", "\t\tself.buy()", "\tdef stop(self):", "\t\tpass"]

theorem insertedIntoBody_bodyTop?_documentedHook :
    let top : BodyTop := ⟨8, "\t    \t", "    \t"⟩
    let inserted := ["\t    \tif self.size:  # [", "\t    \t  self.log('''(''')"]
    let issue : Issue := ⟨.medium, .missingGuardCheck, 2, "m", none, none⟩
    bodyTop? documentedHook 1 = some top ∧ (statementStarts documentedHook)[1]? = some true ∧
      Carry.closed.afterLines documentedHook = .closed ∧
        (∀ line ∈ inserted, FitsBody top.indent line) ∧
          InsertedIntoBody documentedHook inserted
            (documentedHook.take 8 ++ (inserted ++ documentedHook.drop 8)) 1 8 "next" ∧
            ∃ fix, (guardCheck .standard .standard).generate issue documentedHook = .proposed fix ∧
              InsertedIntoBody documentedHook
                ["\t    \tif self.order:", "\t    \t    \treturn"]
                (fix.applyAlone documentedHook) 1 8 "next" ∧
                  blockEnd (fix.applyAlone documentedHook) 8 = 9 := by
  intro top inserted issue
  have found : bodyTop? documentedHook 1 = some top := by decide +kernel
  have starts : (statementStarts documentedHook)[1]? = some true := by decide +kernel
  have closed : Carry.closed.afterLines documentedHook = .closed := by decide +kernel
  have fits : ∀ line ∈ inserted, FitsBody top.indent line := by
    have facts : ∀ line ∈ inserted, isCode line = true ∧ Carry.closed.after line = .closed ∧
        top.indent.toList <+: line.toList ∧ isDefHeader line = false := by
      decide +kernel
    intro line member
    obtain ⟨code, contained, indented, plain⟩ := facts line member
    exact ⟨code, contained, indented, plain⟩
  obtain ⟨header, name, here, names, all, guard⟩ := insertedIntoBody_bodyTop? found starts closed
  obtain rfl : "next" = name := by
    have named : (documentedHook[1]?.bind definedName?) = some "next" := by decide +kernel
    rw [here, Option.bind_some, names.definedName?] at named
    exact (Option.some.inj named).symm
  obtain ⟨fix, made, landed, ends⟩ := guard .standard .standard issue
    ⟨'o', "rder".toList, rfl, rfl, List.all_eq_true.mp (by decide)⟩ rfl
  have next : ((markLines documentedHook).drop 8).find? MarkedLine.isStatement =
      some ⟨"\t\tself.buy()", true⟩ := by
    decide +kernel
  refine ⟨found, starts, closed, fits, all inserted (by decide) fits, fix, made, landed,
    ends.mpr fun line first => ?_⟩
  obtain rfl := Option.some.inj (next.symm.trans first)
  decide +kernel

end StrategyMend.Repair
