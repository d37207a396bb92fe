import StrategyMend.Number.Binary64

/-!
# The order of double precision numbers

A number that is not the undefined value has a position among the integers, and numbers compare as
their positions do. So the order is total on the defined numbers, and a number that compares with
another one is defined (`isDefined_of_le`).
-/

set_option autoImplicit false

namespace StrategyMend.Number.Binary64

/-- The number is not the undefined value. -/
def IsDefined (x : Binary64) : Prop := x.rank.isSome

/-- The position of a number among the integers. -/
def position (x : Binary64) : Int := x.rank.getD 0

theorem rank_eq_position {x : Binary64} (defined : x.IsDefined) : x.rank = some x.position := by
  obtain ⟨place, ranked⟩ := Option.isSome_iff_exists.mp defined
  simp [position, ranked]

theorem le_iff_position {x y : Binary64} (first : x.IsDefined) (second : y.IsDefined) :
    x.le y = true ↔ x.position ≤ y.position := by
  simp [le, rank_eq_position first, rank_eq_position second]

theorem lt_iff_position {x y : Binary64} (first : x.IsDefined) (second : y.IsDefined) :
    x.lt y = true ↔ x.position < y.position := by
  simp [lt, rank_eq_position first, rank_eq_position second]

/-- Only defined numbers are compared. -/
theorem isDefined_of_le {x y : Binary64} (below : x.le y = true) : x.IsDefined ∧ y.IsDefined := by
  unfold le at below
  split at below
  · next ranked ranked' => exact ⟨by simp [IsDefined, ranked], by simp [IsDefined, ranked']⟩
  · cases below

theorem isDefined_of_lt {x y : Binary64} (below : x.lt y = true) : x.IsDefined ∧ y.IsDefined := by
  unfold lt at below
  split at below
  · next ranked ranked' => exact ⟨by simp [IsDefined, ranked], by simp [IsDefined, ranked']⟩
  · cases below

/-- Comparisons of numbers can be chained. -/
theorem le_trans {x y z : Binary64} (first : x.le y = true) (second : y.le z = true) :
    x.le z = true := by
  obtain ⟨defined, middle⟩ := isDefined_of_le first
  obtain ⟨-, defined'⟩ := isDefined_of_le second
  rw [le_iff_position defined middle] at first
  rw [le_iff_position middle defined'] at second
  rw [le_iff_position defined defined']
  omega

/-- Of two defined numbers, one is not below the other exactly if that one is not above it. -/
theorem lt_eq_false_iff {x y : Binary64} (first : x.IsDefined) (second : y.IsDefined) :
    x.lt y = false ↔ y.le x = true := by
  rw [← Bool.not_eq_true, lt_iff_position first second, le_iff_position second first, Int.not_lt]

/-- A number from zero to one stays where it is. -/
theorem clampUnit_of_le {x : Binary64} (lower : zero.le x = true) (upper : x.le one = true) :
    x.clampUnit = x := by
  obtain ⟨defined, defined'⟩ := isDefined_of_le lower
  obtain ⟨-, defined''⟩ := isDefined_of_le upper
  rw [clampUnit, (lt_eq_false_iff defined' defined).mpr lower,
    (lt_eq_false_iff defined'' defined').mpr upper]
  rfl

end StrategyMend.Number.Binary64
