import Mathlib.Data.List.Forall2
import StrategyMend.Proofs.Source.Extent
import StrategyMend.Proofs.Source.Opener

/-!
# Blocks without statements

The search for the opener of a branch looks at statements only. So a branch that is aligned stays so
when statements elsewhere turn into lines on which none begins, as long as its own line and that of its
opener are kept (`branchAt_eq_aligned_of_mutes`).

When that happens to a block with its header, a branch behind it can lose its opener only if this is the
header itself. Then no statement stands between the block and the branch, which now belongs where a
branch of its kind on the line of the header would have belonged (`branchAt_of_silenced`).
-/

set_option autoImplicit false

namespace StrategyMend.Source

/-! ## Lines without code -/

/-- Blank lines and comments leave nothing open. -/
theorem after_closed_of_not_isCode {line : String} (idle : isCode line = false) :
    Carry.closed.after line = .closed := by
  obtain ⟨blanks, split, blank⟩ := exists_blanks_append_trimStart line.toList
  have plain : ∀ c ∈ blanks, isPlain c = true := fun c member => isPlain_of_isBlank (blank c member)
  have scanned : scan .code 0 line.toList = (.code, 0) ∧ Carry.endsInBackslash line = false := by
    rw [split, scan_code_append plain]
    rw [isCode, Bool.and_eq_false_iff, Bool.not_eq_false', Bool.not_eq_false'] at idle
    rcases idle with empty | comment
    · have trimmed : Text.Chars.trimStart line.toList = [] :=
        List.dropWhile_eq_nil_iff.mpr (List.all_eq_true.mp empty)
      rw [trimmed, List.append_nil] at split
      have ends : Text.Chars.trimEnd line.toList = [] := by
        rw [Text.Chars.trimEnd, Text.dropEndWhile, List.reverse_eq_nil_iff,
          List.dropWhile_eq_nil_iff, split]
        exact fun c member => blank c (List.mem_reverse.mp member)
      simp [trimmed, scan, Carry.endsInBackslash, ends]
    · have first : (Text.Chars.trimStart line.toList).head? = some '#' := by
        simpa [isComment] using comment
      obtain ⟨rest, begins⟩ := List.head?_eq_some_iff.mp first
      refine ⟨?_, by simp [Carry.endsInBackslash, comment]⟩
      rw [begins, scan.eq_def]
      simp
  simp only [Carry.after, Carry.closed, Carry.mode, Int.ofNat_zero, scanned.1, scanned.2]
  rfl

/-! ## Statements elsewhere -/

/-- A line is kept, or no statement begins on it any more. -/
def Mutes (line muted : MarkedLine) : Prop := muted = line ∨ muted.isStatement = false

section Mutes

variable {marked muted : List MarkedLine}

theorem mutes_refl (marked : List MarkedLine) : List.Forall₂ Mutes marked marked :=
  List.forall₂_same.mpr fun _ _ => .inl rfl

theorem mutes_of_silent (same : muted.length = marked.length)
    (silent : ∀ line ∈ muted, line.isStatement = false) : List.Forall₂ Mutes marked muted := by
  induction marked generalizing muted with
  | nil =>
    obtain rfl := List.eq_nil_of_length_eq_zero same
    exact .nil
  | cons line rest ih =>
    cases muted with
    | nil => cases same
    | cons other others =>
      exact .cons (.inr (silent other (by simp)))
        (ih (Nat.succ.inj same) fun next member => silent next (List.mem_cons_of_mem other member))

/-- Statements that are left were there before, and there are no more of them. -/
theorem statements_of_mutes (mutes : List.Forall₂ Mutes marked muted) :
    (∀ line ∈ muted, line.isStatement = true → line ∈ marked) ∧
      muted.countP MarkedLine.isStatement ≤ marked.countP MarkedLine.isStatement := by
  induction mutes with
  | nil => exact ⟨List.forall_mem_nil _, Nat.le_refl _⟩
  | @cons line other rest others mute _ ih =>
    obtain ⟨kept, fewer⟩ := ih
    constructor
    · intro next member statement
      rcases List.mem_cons.mp member with rfl | member
      · rcases mute with rfl | silent
        · exact List.mem_cons_self
        · rw [silent] at statement
          cases statement
      · exact List.mem_cons_of_mem line (kept next member statement)
    · rcases mute with rfl | silent
      · simpa only [List.countP_cons] using Nat.add_le_add_right fewer _
      · rw [List.countP_cons_of_neg (by simp [silent])]
        exact Nat.le_trans fewer (List.sublist_cons_self line rest).countP_le

/-- **An aligned branch stays aligned** when statements other than the two turn silent. -/
theorem branchAt_eq_aligned_of_mutes {window index opener : Nat} {kind : BranchKind}
    (mutes : List.Forall₂ Mutes marked muted) (here : muted[index]? = marked[index]?)
    (openerHere : muted[opener]? = marked[opener]?)
    (aligned : branchAt marked window index = some ⟨index, kind, .aligned opener⟩) :
    branchAt muted window index = some ⟨index, kind, .aligned opener⟩ := by
  obtain ⟨header, branch, above, headerHere, branchHere, continues, near⟩ :=
    branchAt_eq_aligned_iff.mp aligned
  obtain ⟨kept, fewer⟩ :=
    statements_of_mutes (List.forall₂_drop (opener + 1) (List.forall₂_take index mutes))
  refine branchAt_eq_aligned_iff.mpr ⟨header, branch, above, openerHere.trans headerHere,
    here.trans branchHere, { continues with deeper := ?_ }, Nat.lt_of_le_of_lt fewer near⟩
  exact fun line member statement => continues.deeper line (kept line member statement) statement

end Mutes

/-- Lines without statements above a branch do not matter to where it belongs. -/
theorem belonging_of_silent {marked muted : List MarkedLine} {kind : BranchKind}
    {indent window first index : Nat} (upTo : first ≤ index) (inside : index ≤ muted.length)
    (inside' : first ≤ marked.length) (above : muted.take first = marked.take first)
    (silent : ∀ line ∈ (muted.take index).drop first, line.isStatement = false) :
    belonging kind indent window muted index = belonging kind indent window marked first := by
  have cut : muted.take index = marked.take first ++ (muted.take index).drop first := by
    rw [← above, ← Nat.min_eq_left upTo, ← List.take_take, Nat.min_eq_left upTo,
      List.take_append_drop]
  have deeper : ∀ line ∈ (muted.take index).drop first, line.isStatement = true →
      indent < indentWidth line.text := by
    intro line member statement
    rw [silent line member] at statement
    cases statement
  have none : ((muted.take index).drop first).countP MarkedLine.isStatement = 0 :=
    List.countP_eq_zero.mpr fun line member => by simp [silent line member]
  rw [← findOpener_none_eq _ _ _ inside, ← findOpener_none_eq _ _ _ inside',
    linesAbove_of_le inside, linesAbove_of_le inside', cut, numbered_append, List.reverse_append,
    findOpener_append_of_deeper (deeper_of_numbered _ deeper), countP_numbered, none, Nat.sub_zero]

/-! ## A block that turns silent -/

/-- A line between two others is among those listed between them. -/
theorem mem_drop_take {marked : List MarkedLine} {first place index : Nat} {line : MarkedLine}
    (here : marked[place]? = some line) (behind : first ≤ place) (above : place < index) :
    line ∈ (marked.take index).drop first := by
  refine List.mem_of_getElem? (i := place - first) ?_
  rw [List.getElem?_drop, Nat.add_sub_cancel' behind, List.getElem?_take_of_lt above, here]

section Block

variable {front inner between outer new : List MarkedLine} {header : MarkedLine}
  {window index opener : Nat} {kind : BranchKind}

/-- The opener of a branch behind a block does not stand within the block, the header apart. If it is
the header, no statement stands between the block and the branch. -/
theorem opener_of_behind (extent : Extent (indentWidth header.text) inner between outer)
    (behind : front.length + inner.length < index)
    (aligned : branchAt (front ++ header :: (inner ++ (between ++ outer))) window index =
      some ⟨index, kind, .aligned opener⟩) :
    (opener ≤ front.length ∨ front.length + inner.length < opener) ∧
      (opener = front.length → index = front.length + 1 + inner.length + between.length) := by
  obtain ⟨opened, branch, above, openedHere, branchHere, continues, -⟩ :=
    branchAt_eq_aligned_iff.mp aligned
  have deeper := continues.deeper
  have level := continues.level
  have whole : front ++ header :: (inner ++ (between ++ outer)) =
      (front ++ header :: inner) ++ (between ++ outer) := by simp
  have length : (front ++ header :: inner).length = front.length + 1 + inner.length := by
    simp only [List.length_append, List.length_cons]
    omega
  rw [whole] at openedHere branchHere deeper
  obtain ⟨upTo, stop, stopHere, stops, shallow⟩ :=
    extent.exists_stop (by omega) branchHere continues.branchStatement
  rw [length] at upTo stopHere
  -- The first statement behind the block is the branch itself, or lies between it and its opener.
  have passed (inside : opener ≤ front.length + inner.length) :
      indentWidth branch.text ≤ indentWidth header.text ∧
        (indentWidth header.text ≤ indentWidth branch.text →
          index = front.length + 1 + inner.length + between.length) := by
    rcases Nat.lt_or_eq_of_le upTo with before | same
    · have further := deeper stop (mem_drop_take stopHere (by omega) before) stops
      omega
    · rw [same, branchHere] at stopHere
      obtain rfl := Option.some.inj stopHere
      exact ⟨shallow, fun _ => same.symm⟩
  refine ⟨?_, fun same => ?_⟩
  · by_contra within
    obtain ⟨below, inside⟩ : front.length < opener ∧ opener ≤ front.length + inner.length := by omega
    have member : opened ∈ inner := by
      rw [List.append_assoc, List.getElem?_append_right (by omega), List.cons_append,
        List.getElem?_cons, if_neg (by omega), List.getElem?_append_left (by omega)] at openedHere
      exact List.mem_of_getElem? openedHere
    have statement := continues.headerStatement
    rw [MarkedLine.isStatement, Bool.and_eq_true] at statement
    rcases extent.stays opened member with continued | idle | deep
    · simp [continued] at statement
    · simp [idle] at statement
    · have shallower := (passed inside).1
      omega
  · obtain rfl : opened = header := by
      rw [same, List.append_assoc, List.getElem?_append_right (Nat.le_refl _), Nat.sub_self] at openedHere
      exact (Option.some.inj openedHere).symm
    exact (passed (by omega)).2 (Nat.le_of_eq level)

/-- **Branches around a block that turns silent.** One that is aligned stays so, unless its opener was
the header of the block. Then it belongs where a branch of its kind in the place of the header would. -/
theorem branchAt_of_silenced (extent : Extent (indentWidth header.text) inner between outer)
    (same : new.length = inner.length + 1) (silent : ∀ line ∈ new, line.isStatement = false)
    (outside : index < front.length ∨ front.length + inner.length < index)
    (aligned : branchAt (front ++ header :: (inner ++ (between ++ outer))) window index =
      some ⟨index, kind, .aligned opener⟩) :
    branchAt (front ++ (new ++ (between ++ outer))) window index =
      some ⟨index, kind,
        if opener = front.length then
          belonging kind (indentWidth header.text) window
            (front ++ header :: (inner ++ (between ++ outer))) front.length
        else .aligned opener⟩ := by
  have kept (place : Nat) (away : place < front.length ∨ front.length + inner.length < place) :
      (front ++ (new ++ (between ++ outer)))[place]? =
        (front ++ (header :: inner ++ (between ++ outer)))[place]? :=
    getElem?_exchange (by simp [same]) (by simp only [List.length_cons]; omega)
  obtain ⟨opened, branch, above, openedHere, branchHere, continues, -⟩ :=
    branchAt_eq_aligned_iff.mp aligned
  split
  · next atHeader =>
    have behind : front.length + inner.length < index := by omega
    have place := (opener_of_behind extent behind aligned).2 atHeader
    obtain rfl : opened = header := by
      rw [atHeader, List.getElem?_append_right (Nat.le_refl _), Nat.sub_self] at openedHere
      exact (Option.some.inj openedHere).symm
    have here := (kept index outside).trans branchHere
    obtain ⟨inside, -⟩ := List.getElem?_eq_some_iff.mp here
    have passed : ((front ++ (new ++ (between ++ outer))).take index).drop front.length =
        new ++ between := by
      have length : index = (front ++ (new ++ between)).length := by
        simp only [List.length_append]
        omega
      rw [← List.append_assoc new, ← List.append_assoc, length, List.take_left, List.drop_left]
    have quiet : ∀ line ∈ ((front ++ (new ++ (between ++ outer))).take index).drop front.length,
        line.isStatement = false := by
      intro line member
      rw [passed, List.mem_append] at member
      rcases member with member | member
      · exact silent line member
      · rw [MarkedLine.isStatement, (extent.idle line member).2, Bool.and_false]
    have belongs : belonging kind (indentWidth opened.text) window
        (front ++ (new ++ (between ++ outer))) index =
          belonging kind (indentWidth opened.text) window
            (front ++ opened :: (inner ++ (between ++ outer))) front.length :=
      belonging_of_silent (by omega) (Nat.le_of_lt inside) (by simp) (by simp) quiet
    rw [branchAt_eq here continues.branchStatement continues.classified, ← continues.level, belongs]
  · next elsewhere =>
    have away : opener < front.length ∨ front.length + inner.length < opener := by
      rcases outside with before | behind
      · exact .inl (by omega)
      · have stands := (opener_of_behind extent behind aligned).1
        omega
    have mutes : List.Forall₂ Mutes (front ++ (header :: inner ++ (between ++ outer)))
        (front ++ (new ++ (between ++ outer))) :=
      List.rel_append (mutes_refl front)
        (List.rel_append (mutes_of_silent (by simp [same]) silent) (mutes_refl _))
    exact branchAt_eq_aligned_of_mutes mutes (kept index outside) (kept opener away) aligned

end Block

end StrategyMend.Source
