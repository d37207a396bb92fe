import Mathlib.Order.Lattice.Nat
import StrategyMend.Proofs.Source.Nesting
import StrategyMend.Source.Function

/-!
# The function around a statement

The search for the function around a line goes up through ever smaller indentations, and the search
for the end of a block goes down to the first statement that is not deeper. A function header surrounds
a line if it is shallower than the line and than every statement between the two (`Surrounds`). The way
up finds the nearest such header (`enclosingAbove_eq_some_iff`), and a header surrounds a statement
exactly if the statement lies in its block (`exists_surrounds_iff`). So the two searches agree: the
function that is found is the innermost one whose block holds the statement
(`enclosingFunction?_innermost`).
-/

set_option autoImplicit false

namespace StrategyMend.Source

open Text

/-! ## The name of a function -/

/-- A function header and the name after its `def`: the longest run of characters that a name can
have, which may be empty. -/
def NamesFunction (header name : String) : Prop :=
  ∃ before after rest, Chars.trimStart header.toList = before ++ ("def".toList ++ after) ∧
    (before = [] ∨ ∃ gap, before = "async".toList ++ gap ∧ gap ≠ [] ∧
      ∀ c ∈ gap, isBlank c = true) ∧
    Chars.trimStart after = name.toList ++ rest ∧ (∀ c ∈ name.toList, isNamePart c = true) ∧
      ∀ c ∈ rest.head?, isNamePart c = false

theorem NamesFunction.definedName? {header name : String} (names : NamesFunction header name) :
    definedName? header = some name := by
  obtain ⟨before, after, rest, text, lead, trimmed, all, stops⟩ := names
  have behindAsync : ((dropStart? "async".toList (Chars.trimStart header.toList)).map
      Chars.trimStart).getD (Chars.trimStart header.toList) = "def".toList ++ after := by
    rcases lead with rfl | ⟨gap, rfl, -, blank⟩
    · rw [text]
      rfl
    · rw [text, List.append_assoc, dropStart?_eq_some_iff.mpr rfl]
      exact trimStart_append blank (by decide)
  rw [Source.definedName?]
  simp only [behindAsync, dropStart?_eq_some_iff.mpr rfl, Option.map_some, trimmed,
    takeWhile_append_rest all stops, String.ofList_toList]

theorem exists_namesFunction {header : String} (definition : isDefHeader header = true) :
    ∃ name, NamesFunction header name := by
  obtain ⟨before, after, text, lead⟩ : ∃ before after,
      Chars.trimStart header.toList = before ++ ("def".toList ++ after) ∧
        (before = [] ∨ ∃ gap, before = "async".toList ++ gap ∧ gap ≠ [] ∧
          ∀ c ∈ gap, isBlank c = true) := by
    rcases Bool.or_eq_true_iff.mp definition with plain | async
    · obtain ⟨after, text, -⟩ := beginsWithWord_iff.mp plain
      exact ⟨[], after, text, .inl rfl⟩
    · obtain ⟨c, more, after, text, blank, trimmed, -⟩ := beginsWithWords_iff.mp async
      obtain ⟨blanks, split, all⟩ := exists_blanks_append_trimStart more
      refine ⟨"async".toList ++ c :: blanks, after, ?_, .inr ⟨c :: blanks, rfl, by simp, ?_⟩⟩
      · rw [text, List.append_assoc, List.cons_append, ← trimmed, ← split]
      · simpa [blank] using all
  refine ⟨String.ofList ((Chars.trimStart after).takeWhile isNamePart), before, after,
    (Chars.trimStart after).dropWhile isNamePart, text, lead, ?_, ?_, fun c first => ?_⟩
  · rw [String.toList_ofList, List.takeWhile_append_dropWhile]
  · rw [String.toList_ofList]
    exact fun c => List.mem_takeWhile_imp
  · have stops := List.head?_dropWhile_not isNamePart (Chars.trimStart after)
    rw [Option.mem_def.mp first] at stops
    exact stops

theorem definedName?_eq_some_iff {header name : String} (definition : isDefHeader header = true) :
    definedName? header = some name ↔ NamesFunction header name := by
  refine ⟨fun defined => ?_, NamesFunction.definedName?⟩
  obtain ⟨other, names⟩ := exists_namesFunction definition
  rw [names.definedName?] at defined
  exact Option.some.inj defined ▸ names

theorem isCode_of_isDefHeader {line : String} (definition : isDefHeader line = true) :
    isCode line = true := by
  obtain ⟨c, letter, first⟩ := head?_of_isDefHeader definition
  refine isCode_of_head? first ?_
  rintro rfl
  exact absurd letter (by decide)

/-! ## The way up -/

/-- A function header above the line `count` that is shallower than `indent` and than every statement
between the two. -/
structure Surrounds (marked : List MarkedLine) (indent count number : Nat) (header : MarkedLine) :
    Prop where
  here : marked[number]? = some header
  above : number < count
  statement : header.isStatement = true
  definition : isDefHeader header.text = true
  shallower : indentWidth header.text < indent
  deeper : ∀ between line, number < between → between < count → marked[between]? = some line →
    line.isStatement = true → indentWidth header.text < indentWidth line.text

section Above

variable {marked : List MarkedLine} {indent count number : Nat} {line header : MarkedLine}

/-- A line that is no function header does not surround anything, and it hides the headers above it
that are not shallower. -/
theorem surrounds_succ_iff (here : marked[count]? = some line)
    (other : line.isStatement = true → indentWidth line.text < indent →
      isDefHeader line.text = false) :
    Surrounds marked indent (count + 1) number header ↔
      Surrounds marked (if line.isStatement then min indent (indentWidth line.text) else indent)
        count number header := by
  constructor
  · intro surrounds
    have above : number < count := by
      refine Nat.lt_of_le_of_ne (Nat.le_of_lt_succ surrounds.above) ?_
      rintro rfl
      obtain rfl : line = header := Option.some.inj (here.symm.trans surrounds.here)
      have definition := other surrounds.statement surrounds.shallower
      rw [surrounds.definition] at definition
      cases definition
    refine { surrounds with above := above, shallower := ?_, deeper := ?_ }
    · split
      · next statement =>
        exact Nat.lt_min.mpr ⟨surrounds.shallower,
          surrounds.deeper count line above (Nat.lt_succ_self _) here statement⟩
      · exact surrounds.shallower
    · exact fun between next below upTo => surrounds.deeper between next below (by omega)
  · intro surrounds
    have shallower := surrounds.shallower
    refine { surrounds with above := Nat.lt_succ_of_lt surrounds.above, shallower := ?_, deeper := ?_ }
    · split at shallower
      · exact (Nat.lt_min.mp shallower).1
      · exact shallower
    · intro between next below upTo there statement
      rcases Nat.lt_or_eq_of_le (Nat.le_of_lt_succ upTo) with before | rfl
      · exact surrounds.deeper between next below before there statement
      · obtain rfl : line = next := Option.some.inj (here.symm.trans there)
        rw [if_pos statement] at shallower
        exact (Nat.lt_min.mp shallower).2

/-- The way up from a line goes on with the smaller one of two widths, unless it ends there. -/
theorem enclosingAbove_cons {above : List MarkedLine}
    (other : line.isStatement = true → indentWidth line.text < indent →
      isDefHeader line.text = false) :
    enclosingAbove indent (line :: above) =
      enclosingAbove (if line.isStatement then min indent (indentWidth line.text) else indent)
        above := by
  rw [enclosingAbove]
  cases statement : line.isStatement with
  | false => rfl
  | true =>
    rcases Nat.lt_or_ge (indentWidth line.text) indent with out | stay
    · simp [other statement out, Nat.not_le_of_lt out, Nat.min_eq_right (Nat.le_of_lt out)]
    · simp [stay]

/-- **The way up finds the nearest function header that surrounds the line.** -/
theorem enclosingAbove_eq_some_iff (inside : count ≤ marked.length) {name : String} :
    enclosingAbove indent (marked.take count).reverse = some name ↔
      ∃ number header, Surrounds marked indent count number header ∧
        (∀ number' header', Surrounds marked indent count number' header' → number' ≤ number) ∧
          NamesFunction header.text name := by
  induction count generalizing indent with
  | zero =>
    refine iff_of_false (by simp [enclosingAbove]) ?_
    rintro ⟨number, header, surrounds, -⟩
    exact Nat.not_lt_zero _ surrounds.above
  | succ count ih =>
    have here := List.getElem?_eq_getElem (Nat.lt_of_succ_le inside)
    have split : (marked.take (count + 1)).reverse =
        marked[count] :: (marked.take count).reverse := by
      rw [List.take_add_one, here, Option.toList_some, List.reverse_append]
      rfl
    rw [split]
    by_cases found : marked[count].isStatement = true ∧
        indentWidth marked[count].text < indent ∧ isDefHeader marked[count].text = true
    · obtain ⟨statement, out, definition⟩ := found
      have ends : enclosingAbove indent (marked[count] :: (marked.take count).reverse) =
          definedName? marked[count].text := by
        simp [enclosingAbove, statement, Nat.not_le_of_lt out, definition]
      have nearest : Surrounds marked indent (count + 1) count marked[count] :=
        ⟨here, Nat.lt_succ_self _, statement, definition, out, by omega⟩
      rw [ends, definedName?_eq_some_iff definition]
      constructor
      · exact fun names => ⟨count, _, nearest,
          fun _ _ surrounds => Nat.le_of_lt_succ surrounds.above, names⟩
      · rintro ⟨number, header, surrounds, greatest, names⟩
        obtain rfl : number = count :=
          Nat.le_antisymm (Nat.le_of_lt_succ surrounds.above) (greatest _ _ nearest)
        rwa [Option.some.inj (here.symm.trans surrounds.here)]
    · have other (statement : marked[count].isStatement = true)
          (out : indentWidth marked[count].text < indent) :
          isDefHeader marked[count].text = false := by
        by_contra definition
        exact found ⟨statement, out, by simpa using definition⟩
      simp only [enclosingAbove_cons other, ih (Nat.le_of_succ_le inside),
        surrounds_succ_iff here other]

end Above

/-! ## The function whose block holds a statement -/

/-- A function header above a line whose block holds the line. -/
structure Encloses (lines : List String) (header index : Nat) : Prop where
  definition : ∃ line, (markLines lines)[header]? = some line ∧ line.starts = true ∧
    isDefHeader line.text = true
  behind : header < index
  within : index ≤ blockEnd lines header

section Function

variable {lines : List String} {index header : Nat} {line : MarkedLine}

/-- **A function header surrounds a statement if its block holds it.** -/
theorem exists_surrounds_iff (here : (markLines lines)[index]? = some line)
    (statement : line.isStatement = true) :
    (∃ opener, Surrounds (markLines lines) (indentWidth line.text) index header opener) ↔
      Encloses lines header index := by
  constructor
  · rintro ⟨opener, surrounds⟩
    refine ⟨⟨opener, surrounds.here, (MarkedLine.isStatement_iff.mp surrounds.statement).1,
      surrounds.definition⟩, surrounds.above, ?_⟩
    refine (le_blockEnd_iff (getElem?_of_markLines surrounds.here) ⟨line, here, statement⟩).mpr ?_
    intro between next below upTo there begins
    rcases Nat.lt_or_eq_of_le upTo with before | rfl
    · exact surrounds.deeper between next below before there begins
    · obtain rfl : line = next := Option.some.inj (here.symm.trans there)
      exact surrounds.shallower
  · rintro ⟨⟨opener, opens, starts, definition⟩, behind, within⟩
    have deeper :=
      (le_blockEnd_iff (getElem?_of_markLines opens) ⟨line, here, statement⟩).mp within
    have begins := MarkedLine.isStatement_iff.mpr ⟨starts, isCode_of_isDefHeader definition⟩
    exact ⟨opener, opens, behind, begins, definition,
      deeper index line behind (Nat.le_refl _) here statement,
      fun between next below upTo => deeper between next below (Nat.le_of_lt upTo)⟩

/-- Among the functions around a statement one is the innermost. -/
theorem Encloses.exists_isGreatest (encloses : Encloses lines header index) :
    ∃ innermost, IsGreatest {header | Encloses lines header index} innermost := by
  have bounded : BddAbove {header | Encloses lines header index} :=
    ⟨index, fun _ other => Nat.le_of_lt other.behind⟩
  exact ⟨_, Nat.sSup_mem ⟨header, encloses⟩ bounded, fun _ other => le_csSup bounded other⟩

/-- **The function that is found is the innermost one whose block holds the statement**, and one is
found if there is any. -/
theorem enclosingFunction?_innermost (statement : IsStatementLine lines index) :
    ((enclosingFunction? lines index).isSome = true ↔ ∃ header, Encloses lines header index) ∧
      ∀ name, enclosingFunction? lines index = some name ↔
        ∃ header line, IsGreatest {header | Encloses lines header index} header ∧
          lines[header]? = some line ∧ NamesFunction line name := by
  obtain ⟨line, here, begins⟩ := statement
  have text := getElem?_of_markLines here
  obtain ⟨inside, -⟩ := List.getElem?_eq_some_iff.mp here
  have named (name : String) : enclosingFunction? lines index = some name ↔
      ∃ header line, IsGreatest {header | Encloses lines header index} header ∧
        lines[header]? = some line ∧ NamesFunction line name := by
    rw [enclosingFunction?, text]
    refine (enclosingAbove_eq_some_iff (Nat.le_of_lt inside)).trans ?_
    constructor
    · rintro ⟨header, opener, surrounds, greatest, names⟩
      refine ⟨header, opener.text, ⟨(exists_surrounds_iff here begins).mp ⟨opener, surrounds⟩, ?_⟩,
        getElem?_of_markLines surrounds.here, names⟩
      intro other encloses
      obtain ⟨opener', surrounds'⟩ := (exists_surrounds_iff here begins).mpr encloses
      exact greatest other opener' surrounds'
    · rintro ⟨header, opener, ⟨encloses, greatest⟩, there, names⟩
      obtain ⟨opener', surrounds⟩ := (exists_surrounds_iff here begins).mpr encloses
      obtain rfl := Option.some.inj (there.symm.trans (getElem?_of_markLines surrounds.here))
      exact ⟨header, opener', surrounds,
        fun other _ around => greatest ((exists_surrounds_iff here begins).mp ⟨_, around⟩), names⟩
  refine ⟨?_, named⟩
  rw [Option.isSome_iff_exists]
  constructor
  · rintro ⟨name, found⟩
    obtain ⟨header, -, ⟨encloses, -⟩, -⟩ := (named name).mp found
    exact ⟨header, encloses⟩
  · rintro ⟨header, encloses⟩
    obtain ⟨innermost, greatest⟩ := encloses.exists_isGreatest
    obtain ⟨opener, there, -, definition⟩ := greatest.1.definition
    obtain ⟨name, names⟩ := exists_namesFunction definition
    exact ⟨name, (named name).mpr ⟨innermost, opener.text, greatest,
      getElem?_of_markLines there, names⟩⟩

end Function

/-- A method that runs on at the margin, with a function beside the way up and one that is deeper than
what stands below it. -/
def nestedFunctions : List String :=
  ["class A:", "  async  def outer(self,", "x):", "    def inner(): pass", "    if x:", "  # margin",
    "        def odd():", "       y", "      z"]

theorem enclosingFunction?_innermost_nested :
    IsStatementLine nestedFunctions 8 ∧ (∃ header, Encloses nestedFunctions header 8) ∧
      ∃ header line, IsGreatest {header | Encloses nestedFunctions header 8} header ∧
        nestedFunctions[header]? = some line ∧ NamesFunction line "outer" := by
  have statement : IsStatementLine nestedFunctions 8 := ⟨⟨"      z", true⟩, by decide +kernel, rfl⟩
  have found : enclosingFunction? nestedFunctions 8 = some "outer" := by decide +kernel
  obtain ⟨any, named⟩ := enclosingFunction?_innermost statement
  exact ⟨statement, any.mp (by rw [found]; rfl), (named "outer").mp found⟩

end StrategyMend.Source
