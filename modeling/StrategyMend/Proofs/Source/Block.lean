import StrategyMend.Proofs.Source.Marks
import StrategyMend.Source.Block

/-!
# Where blocks end

The line behind a block never continues an earlier line, so what stands there is read as before if
the block is taken away (`afterLines_blockEnd`).
-/

set_option autoImplicit false

namespace StrategyMend.Source

/-- The search for the end of a block stops in front of a line that may begin a statement. -/
theorem blockEndFrom_spec (marked : List MarkedLine) (indent : Nat) {last index : Nat}
    (order : last < index)
    (passed : ∀ line, last + 1 < index → marked[last + 1]? = some line → line.starts = true) :
    let reached := blockEndFrom indent last index (marked.drop index)
    last ≤ reached ∧ (reached = last ∨ reached < marked.length) ∧
      ∀ line, marked[reached + 1]? = some line → line.starts = true := by
  induction remaining : marked.drop index generalizing last index with
  | nil =>
    have short : marked.length ≤ index := List.drop_eq_nil_iff.mp remaining
    refine ⟨Nat.le_refl _, .inl rfl, fun line next => ?_⟩
    have inside : last + 1 < marked.length := (List.getElem?_eq_some_iff.mp next).1
    exact passed line (by omega) next
  | cons line rest ih =>
    have here : marked[index]? = some line := by
      rw [← List.head?_drop, remaining]
      rfl
    have inside : index < marked.length := (List.getElem?_eq_some_iff.mp here).1
    have behind : marked.drop (index + 1) = rest := by
      rw [← List.tail_drop, remaining]
      rfl
    have next (starts : line.starts = true) : ∀ line', last + 1 < index + 1 →
        marked[last + 1]? = some line' → line'.starts = true := by
      intro line' _ found
      rcases Nat.lt_or_ge (last + 1) index with before | at_
      · exact passed line' before found
      · obtain rfl : last + 1 = index := by omega
        rw [here] at found
        exact Option.some.inj found ▸ starts
    have longer := @ih index (index + 1) (by omega) (fun _ less => absurd less (by omega)) behind
    dsimp only at longer ⊢
    rw [blockEndFrom]
    split
    · exact ⟨by omega, by omega, longer.2.2⟩
    · next starts =>
      have starts : line.starts = true := by simpa using starts
      split
      · exact ih (by omega) (next starts) behind
      · split
        · exact ⟨by omega, by omega, longer.2.2⟩
        · exact ⟨Nat.le_refl _, .inl rfl, fun line' => next starts line' (by omega)⟩

/-- **A block lies within the lines, and the line behind it may begin a statement.** -/
theorem blockEnd_spec {lines : List String} {header : Nat} (inside : header < lines.length) :
    header ≤ blockEnd lines header ∧ blockEnd lines header < lines.length ∧
      ∀ line, (markLines lines)[blockEnd lines header + 1]? = some line → line.starts = true := by
  have spec := blockEndFrom_spec (markLines lines) (indentWidth lines[header])
    (Nat.lt_succ_self header) fun _ less => absurd less (by omega)
  have reached : blockEnd lines header = blockEndFrom (indentWidth lines[header]) header
      (header + 1) ((markLines lines).drop (header + 1)) := by
    rw [blockEnd, List.getElem?_eq_getElem inside]
  rw [length_markLines, ← reached] at spec
  exact ⟨spec.1, by omega, spec.2.2⟩

/-- Nothing is open behind a block, unless the lines end there. -/
theorem afterLines_blockEnd {lines : List String} {header : Nat} (inside : header < lines.length) :
    blockEnd lines header + 1 = lines.length ∨
      Carry.closed.afterLines (lines.take (blockEnd lines header + 1)) = .closed := by
  obtain ⟨-, upTo, starts⟩ := blockEnd_spec inside
  rcases Nat.lt_or_ge (blockEnd lines header + 1) lines.length with more | last
  · have marks : blockEnd lines header + 1 < (markLines lines).length := by
      rwa [length_markLines]
    have here := List.getElem?_eq_getElem marks
    exact .inr (afterLines_of_starts here (starts _ here))
  · exact .inl (by omega)

end StrategyMend.Source
