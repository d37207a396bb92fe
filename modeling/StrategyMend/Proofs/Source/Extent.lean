import StrategyMend.Proofs.Source.BodyTop

/-!
# How far a block reaches

The lines behind a header fall apart into three stretches: its block, blank lines and comments behind
it, and all lines from the first statement on that is not deeper than the header (`exists_extent`). So
among the statements behind a block the first one is not deeper than its header (`Extent.exists_stop`).

Nothing is open in front of a block nor behind it. So other lines may take its place without a change
to how the lines around are read, as long as they leave nothing open themselves
(`markLines_exchangeBlock`).
-/

set_option autoImplicit false

namespace StrategyMend.Source

/-! ## The lines behind a header -/

/-- How the lines behind a header of width `indent` fall apart: its block, blank lines and comments,
and the lines from the first statement on that is not deeper. -/
structure Extent (indent : Nat) (inner between outer : List MarkedLine) : Prop where
  stays : ∀ line ∈ inner, StaysInside indent line
  /-- The last line of a block is code or continues a line. -/
  solid : ∀ line, inner.getLast? = some line → line.starts = false ∨ isCode line.text = true
  idle : ∀ line ∈ between, line.starts = true ∧ isCode line.text = false
  leaves : ∀ line, outer.head? = some line →
    line.isStatement = true ∧ indentWidth line.text ≤ indent

namespace Extent

variable {indent : Nat} {inner between outer : List MarkedLine} {line : MarkedLine}

theorem nil (leaves : ∀ line, outer.head? = some line →
    line.isStatement = true ∧ indentWidth line.text ≤ indent) : Extent indent [] [] outer :=
  ⟨List.forall_mem_nil _, by simp, List.forall_mem_nil _, leaves⟩

/-- A line at which the search goes on belongs to the block, at the latest with a further line. -/
theorem cons (extent : Extent indent inner between outer) (stays : StaysInside indent line)
    (solid : inner = [] → line.starts = false ∨ isCode line.text = true) :
    Extent indent (line :: inner) between outer where
  stays other member := by
    rcases List.mem_cons.mp member with rfl | member
    · exact stays
    · exact extent.stays other member
  solid other last := by
    cases inner with
    | nil => exact Option.some.inj last ▸ solid rfl
    | cons next inner =>
      rw [List.getLast?_cons_cons] at last
      exact extent.solid other last
  idle := extent.idle
  leaves := extent.leaves

/-- Blank lines and comments in front of a block that is over do not belong to it. -/
theorem cons_idle (extent : Extent indent [] between outer)
    (idle : line.starts = true ∧ isCode line.text = false) :
    Extent indent [] (line :: between) outer where
  stays := extent.stays
  solid := extent.solid
  idle other member := by
    rcases List.mem_cons.mp member with rfl | member
    · exact idle
    · exact extent.idle other member
  leaves := extent.leaves

end Extent

/-- The search for the end of a block reaches the last line that belongs to it. -/
theorem exists_blockEndFrom_eq (indent last index : Nat) (marked : List MarkedLine) :
    ∃ inner between outer, marked = inner ++ (between ++ outer) ∧
      Extent indent inner between outer ∧
        blockEndFrom indent last index marked =
          if inner = [] then last else index + inner.length - 1 := by
  induction marked generalizing last index with
  | nil => exact ⟨[], [], [], rfl, .nil (by simp), rfl⟩
  | cons line rest ih =>
    have further (stays : StaysInside indent line)
        (solid : line.starts = false ∨ isCode line.text = true) :
        ∃ inner between outer, line :: rest = inner ++ (between ++ outer) ∧
          Extent indent inner between outer ∧
            blockEndFrom indent index (index + 1) rest =
              if inner = [] then last else index + inner.length - 1 := by
      obtain ⟨inner, between, outer, rfl, extent, reached⟩ := ih index (index + 1)
      refine ⟨line :: inner, between, outer, rfl, extent.cons stays fun _ => solid, ?_⟩
      rw [reached, if_neg (List.cons_ne_nil _ _), List.length_cons]
      split
      · next empty => simp [empty]
      · omega
    rw [blockEndFrom]
    split
    · next continued =>
      have continued : line.starts = false := by simpa using continued
      exact further (.inl continued) (.inl continued)
    · next starts =>
      split
      · next blank =>
        have idle : line.starts = true ∧ isCode line.text = false := by simp_all
        obtain ⟨inner, between, outer, rfl, extent, reached⟩ := ih last (index + 1)
        cases inner with
        | nil => exact ⟨[], line :: between, outer, rfl, extent.cons_idle idle, reached⟩
        | cons next inner =>
          refine ⟨line :: next :: inner, between, outer, rfl,
            extent.cons (.inr (.inl idle.2)) (by simp), ?_⟩
          rw [reached, if_neg (List.cons_ne_nil _ _), if_neg (List.cons_ne_nil _ _)]
          simp only [List.length_cons]
          omega
      · next code =>
        have code : isCode line.text = true := by simpa using code
        split
        · next deeper => exact further (.inr (.inr deeper)) (.inr code)
        · next shallow =>
          refine ⟨[], [], line :: rest, rfl, .nil fun first same => ?_, rfl⟩
          obtain rfl : line = first := Option.some.inj same
          simp_all [MarkedLine.isStatement]

section Header

variable {lines : List String} {front behind : List MarkedLine} {header : MarkedLine}

/-- **A block and what stands behind it.** -/
theorem exists_extent (marks : markLines lines = front ++ header :: behind) :
    ∃ inner between outer, behind = inner ++ (between ++ outer) ∧
      Extent (indentWidth header.text) inner between outer ∧
        blockEnd lines front.length = front.length + inner.length := by
  obtain ⟨inner, between, outer, split, extent, reached⟩ :=
    exists_blockEndFrom_eq (indentWidth header.text) front.length (front.length + 1) behind
  refine ⟨inner, between, outer, split, extent, ?_⟩
  rw [blockEnd_eq_blockEndFrom marks, reached]
  split
  · next empty => simp [empty]
  · omega

end Header

/-- The first statement behind a block is not deeper than its header. -/
theorem Extent.exists_stop {indent index : Nat} {above inner between outer : List MarkedLine}
    {line : MarkedLine} (extent : Extent indent inner between outer)
    (behind : above.length ≤ index) (here : (above ++ (between ++ outer))[index]? = some line)
    (statement : line.isStatement = true) :
    above.length + between.length ≤ index ∧ ∃ stop,
      (above ++ (between ++ outer))[above.length + between.length]? = some stop ∧
        stop.isStatement = true ∧ indentWidth stop.text ≤ indent := by
  rw [List.getElem?_append_right behind] at here
  rcases Nat.lt_or_ge (index - above.length) between.length with inside | upTo
  · rw [List.getElem?_append_left inside] at here
    have idle := (extent.idle line (List.mem_of_getElem? here)).2
    rw [MarkedLine.isStatement, idle, Bool.and_false] at statement
    cases statement
  · rw [List.getElem?_append_right upTo] at here
    obtain ⟨stop, rest, rfl⟩ := List.exists_cons_of_ne_nil (l := outer) fun empty => by
      rw [empty] at here
      cases here
    refine ⟨by omega, stop, ?_, extent.leaves stop rfl⟩
    rw [← List.append_assoc, List.getElem?_append_right (by simp)]
    simp

/-! ## Other lines in the place of a block -/

/-- As many other entries in the place of some do not move the entries around. -/
theorem getElem?_exchange {α : Type} {front old new back : List α} {index : Nat}
    (same : new.length = old.length)
    (outside : index < front.length ∨ front.length + old.length ≤ index) :
    (front ++ (new ++ back))[index]? = (front ++ (old ++ back))[index]? := by
  rcases outside with above | below
  · rw [List.getElem?_append_left above, List.getElem?_append_left above]
  · rw [List.getElem?_append_right (by omega), List.getElem?_append_right (by omega),
      List.getElem?_append_right (by omega), List.getElem?_append_right (by omega), same]

/-- **Other lines in the place of a block** do not change how the lines around are read, as long as
they leave nothing open. -/
theorem markLines_exchangeBlock {lines new : List String} {header : Nat} {line : MarkedLine}
    (here : (markLines lines)[header]? = some line) (starts : line.starts = true)
    (quiet : ∀ line ∈ new, Carry.closed.after line = .closed) :
    markLines (lines.take header ++ (new ++ lines.drop (blockEnd lines header + 1))) =
      (markLines lines).take header ++ (new.map (fun line => ⟨line, true⟩) ++
        (markLines lines).drop (blockEnd lines header + 1)) := by
  obtain ⟨inside, -⟩ := List.getElem?_eq_some_iff.mp here
  rw [length_markLines] at inside
  have above : (markLines lines).take header = markLines (lines.take header) :=
    take_markFrom .closed lines header
  have below : (markLines lines).drop (blockEnd lines header + 1) =
      markFrom .closed (lines.drop (blockEnd lines header + 1)) := by
    rw [markLines_eq_markFrom, drop_markFrom]
    rcases afterLines_blockEnd inside with last | closed
    · rw [last, List.drop_length]
      rfl
    · rw [closed]
  rw [markLines_insert _ (afterLines_of_starts here starts) quiet, above, below]

end StrategyMend.Source
