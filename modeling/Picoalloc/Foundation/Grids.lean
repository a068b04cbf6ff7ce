import Mathlib

/-!
Rounding to a grid. The points of a grid are numbered from zero on; rounding down
gives the number of the last point at or below a value, rounding up that of the
first point at or above it. Both are adjoint to the numbering.
-/

namespace Picoalloc.Grids

variable {Value : Type} [LinearOrder Value] {point : Nat → Value} {down up : Value → Nat}

structure Grid (point : Nat → Value) (down up : Value → Nat) : Prop where
  increasing : StrictMono point
  below : ∀ x, point 0 ≤ x → ∀ i, i ≤ down x ↔ point i ≤ x
  above : ∀ x i, up x ≤ i ↔ x ≤ point i

namespace Grid

variable (grid : Grid point down up) {x y : Value}
include grid

theorem point_down_le (inside : point 0 ≤ x) : point (down x) ≤ x :=
  (grid.below x inside _).mp (Nat.le_refl _)

theorem lt_point_succ_down (inside : point 0 ≤ x) : x < point (down x + 1) :=
  lt_of_not_ge fun reached => by
    have later := (grid.below x inside _).mpr reached
    omega

theorem le_point_up (x : Value) : x ≤ point (up x) := (grid.above x _).mp (Nat.le_refl _)

theorem down_mono (inside : point 0 ≤ x) (order : x ≤ y) : down x ≤ down y :=
  (grid.below y (inside.trans order) _).mpr ((grid.point_down_le inside).trans order)

theorem up_mono (order : x ≤ y) : up x ≤ up y :=
  (grid.above x _).mpr (order.trans (grid.le_point_up y))

theorem down_eq_iff (inside : point 0 ≤ x) {i : Nat} :
    down x = i ↔ point i ≤ x ∧ x < point (i + 1) := by
  constructor
  · rintro rfl
    exact ⟨grid.point_down_le inside, grid.lt_point_succ_down inside⟩
  · rintro ⟨low, high⟩
    have reached := (grid.below x inside i).mpr low
    have missed := (grid.below x inside (i + 1)).not.mpr (not_le_of_gt high)
    omega

theorem down_point (i : Nat) : down (point i) = i :=
  (grid.down_eq_iff (grid.increasing.monotone (Nat.zero_le i))).mpr
    ⟨le_refl _, grid.increasing (Nat.lt_succ_self i)⟩

theorem down_le_up (inside : point 0 ≤ x) : down x ≤ up x :=
  grid.increasing.le_iff_le.mp ((grid.point_down_le inside).trans (grid.le_point_up x))

theorem up_le_succ_down (inside : point 0 ≤ x) : up x ≤ down x + 1 :=
  (grid.above x _).mpr (grid.lt_point_succ_down inside).le

theorem down_eq_up_iff (inside : point 0 ≤ x) : down x = up x ↔ x = point (down x) := by
  constructor
  · intro same
    refine le_antisymm ?_ (grid.point_down_le inside)
    rw [same]
    exact grid.le_point_up x
  · intro onPoint
    exact Nat.le_antisymm (grid.down_le_up inside) ((grid.above x _).mpr onPoint.le)

end Grid

end Picoalloc.Grids
