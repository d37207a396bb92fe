import Mathlib.Data.List.Forall2
import StrategyMend.Proofs.Source.Nearest

/-!
# Lines that look alike to the search

The search for an opener looks at statements only, and of each only at the width of its indentation
and at its first words. Lines that agree on these may be exchanged (`branchAt_congr`), in a text as
long as its marks stay the same (`matchAt_exchange`).
-/

set_option autoImplicit false

namespace StrategyMend.Source

/-- Two lines that begin statements of the same kind. -/
structure SameHeader (first second : String) : Prop where
  width : indentWidth first = indentWidth second
  classified : classify first = classify second
  accepts : ∀ kind : BranchKind, kind.accepts first = kind.accepts second
  definition : isDefHeader first = isDefHeader second

theorem SameHeader.refl (line : String) : SameHeader line line := ⟨rfl, rfl, fun _ => rfl, rfl⟩

/-- Two marked lines that are both no statements, or begin statements of the same kind. -/
structure MarkedLine.Alike (first second : MarkedLine) : Prop where
  statement : first.isStatement = second.isStatement
  header : first.isStatement = true → SameHeader first.text second.text

theorem MarkedLine.Alike.refl (line : MarkedLine) : Alike line line :=
  ⟨rfl, fun _ => .refl line.text⟩

/-- Two lines with the same number that look alike. -/
def AlikeEntries (first second : Nat × MarkedLine) : Prop :=
  first.1 = second.1 ∧ first.2.Alike second.2

section Congruence

variable {first second : List MarkedLine}

theorem alike_linesAbove (alike : List.Forall₂ MarkedLine.Alike first second) (index : Nat) :
    List.Forall₂ AlikeEntries (linesAbove first index) (linesAbove second index) := by
  have zipped (numbers : List Nat) :
      List.Forall₂ AlikeEntries (numbers.zip first) (numbers.zip second) := by
    induction alike generalizing numbers with
    | nil => simp
    | cons same _ ih =>
      cases numbers with
      | nil => simp
      | cons number numbers => exact .cons ⟨rfl, same⟩ (ih numbers)
  exact List.forall₂_reverse_iff.mpr (zipped _)

/-- The search finds the same among lines that look alike. -/
theorem findOpener_congr {kind : BranchKind} {indent budget : Nat} {boundary : Option Nat}
    {above above' : List (Nat × MarkedLine)} (alike : List.Forall₂ AlikeEntries above above') :
    findOpener kind indent budget boundary above =
      findOpener kind indent budget boundary above' := by
  induction alike generalizing budget boundary with
  | nil => rfl
  | @cons entry entry' _ _ same _ ih =>
    obtain ⟨number, line⟩ := entry
    obtain ⟨number', line'⟩ := entry'
    obtain ⟨numbers, same⟩ := same
    obtain rfl : number = number' := numbers
    cases budget with
    | zero => rfl
    | succ budget =>
      cases statement : line.isStatement with
      | false => simp [findOpener, statement, ← same.statement, ih]
      | true =>
        have header := same.header statement
        simp [findOpener, statement, ← same.statement, ← header.width, ← header.accepts,
          ← header.definition, ih]

/-- Lines that look alike have alike lines under the same number. -/
theorem alike_getElem? (alike : List.Forall₂ MarkedLine.Alike first second) (index : Nat) :
    Option.Rel MarkedLine.Alike first[index]? second[index]? := by
  induction alike generalizing index with
  | nil => exact .none
  | cons same _ ih =>
    cases index with
    | zero => exact .some same
    | succ index => exact ih index

/-- **Branches do not change when lines are exchanged for lines that look alike.** -/
theorem branchAt_congr (alike : List.Forall₂ MarkedLine.Alike first second)
    (window index : Nat) : branchAt first window index = branchAt second window index := by
  have above := alike_linesAbove alike index
  have here := alike_getElem? alike index
  unfold branchAt
  generalize first[index]? = line at here
  generalize second[index]? = line' at here
  cases here with
  | none => rfl
  | @some line line' same =>
    cases statement : line.isStatement with
    | false => simp [statement, ← same.statement]
    | true =>
      have header := same.header statement
      simp [statement, ← same.statement, ← header.width, ← header.classified,
        findOpener_congr above]

end Congruence

/-- A line of a text may be exchanged for one of the same kind if the marks stay the same. -/
theorem matchAt_exchange {front back : List String} {line line' : String}
    (code : isCode line = isCode line') (header : SameHeader line line')
    (starts : statementStarts (front ++ line :: back) = statementStarts (front ++ line' :: back))
    (window index : Nat) :
    matchAt (front ++ line :: back) window index = matchAt (front ++ line' :: back) window index := by
  have marked (marks : List Bool) :
      List.Forall₂ MarkedLine.Alike (List.zipWith MarkedLine.mk (front ++ line :: back) marks)
        (List.zipWith MarkedLine.mk (front ++ line' :: back) marks) := by
    clear starts
    induction front generalizing marks with
    | nil =>
      cases marks with
      | nil => exact .nil
      | cons mark marks =>
        refine .cons ⟨?_, fun _ => header⟩ (List.forall₂_same.mpr fun other _ => .refl other)
        simp [MarkedLine.isStatement, code]
    | cons first front ih =>
      cases marks with
      | nil => exact .nil
      | cons mark marks => exact .cons (.refl _) (ih marks)
  rw [matchAt, matchAt, markLines, markLines, ← starts]
  exact branchAt_congr (marked _) window index

end StrategyMend.Source
