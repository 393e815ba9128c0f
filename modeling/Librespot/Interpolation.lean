import Mathlib

/-!
Interpolation between the entries of a table. A place lies on the line through two
neighbouring entries, the first and the last line are used beyond the ends of the table, and
so an interpolated value never falls when the entries do not.
-/
namespace Librespot.Interpolation

variable {K : Type} [LinearOrder K] {last : ℕ} {T : ℕ → K}

theorem entries_mono (sorted : ∀ i < last, T i ≤ T (i + 1)) {i j : ℕ} (le : i ≤ j) (inside : j ≤ last) : T i ≤ T j := by
  induction j, le using Nat.le_induction with
  | base => exact le_rfl
  | succ j le ih => exact (ih (by omega)).trans (sorted j (by omega))

variable [Field K] [FloorSemiring K]

/-- The entry at the upper end of the line that a place is on, from the second entry to the last one. -/
def upper (last : ℕ) (x : K) : ℕ := max 1 (min last ⌊x⌋₊)

/-- The value at a place, where each line reaches its upper entry one after that entry's number. -/
def interpolate (last : ℕ) (T : ℕ → K) (x : K) : K :=
  (T (upper last x) - T (upper last x - 1)) * (x - upper last x) + T (upper last x - 1)

theorem upper_pos (last : ℕ) (x : K) : 1 ≤ upper last x := le_max_left _ _

theorem upper_le (some : 1 ≤ last) (x : K) : upper last x ≤ last := max_le some (min_le_left _ _)

variable [IsStrictOrderedRing K]

theorem upper_mono (last : ℕ) {x y : K} (le : x ≤ y) : upper last x ≤ upper last y :=
  max_le_max le_rfl (min_le_min le_rfl (Nat.floor_mono le))

/-- Below the last line a place lies before the next entry. -/
theorem lt_of_upper {x : K} (below : upper last x < last) : x < upper last x + 1 := by
  have floor : ⌊x⌋₊ ≤ upper last x := by
    unfold upper at below ⊢
    omega
  calc x < ⌊x⌋₊ + 1 := Nat.lt_floor_add_one x
    _ ≤ upper last x + 1 := by exact_mod_cast Nat.add_le_add_right floor 1

/-- Above the first line a place lies at or after its entry. -/
theorem le_of_upper {x : K} (above : 1 < upper last x) : (upper last x : K) ≤ x := by
  have floor : upper last x ≤ ⌊x⌋₊ := by
    unfold upper at above ⊢
    omega
  have positive : ⌊x⌋₊ ≠ 0 := by omega
  have least : 0 ≤ x := (Nat.pos_of_floor_pos (Nat.pos_of_ne_zero positive)).le
  calc (upper last x : K) ≤ ⌊x⌋₊ := by exact_mod_cast floor
    _ ≤ x := Nat.floor_le least

/-- A line does not fall. -/
theorem slope_nonneg (sorted : ∀ i < last, T i ≤ T (i + 1)) (some : 1 ≤ last) (x : K) :
    0 ≤ T (upper last x) - T (upper last x - 1) :=
  sub_nonneg.mpr (entries_mono sorted (Nat.sub_le _ _) (upper_le some x))

/-- Interpolation in a table that does not fall does not fall. -/
theorem interpolate_mono (sorted : ∀ i < last, T i ≤ T (i + 1)) (some : 1 ≤ last) : Monotone (interpolate last T) := by
  intro x y le
  rcases (upper_mono last le).lt_or_eq with apart | same
  · -- The line of `x` ends at an entry that the line of `y` starts at or after.
    have before : x - upper last x ≤ 1 := by
      have := lt_of_upper (lt_of_lt_of_le apart (upper_le some y))
      linarith
    have after : 0 ≤ y - upper last y := by
      have := le_of_upper (lt_of_le_of_lt (upper_pos last x) apart)
      linarith
    calc interpolate last T x ≤ (T (upper last x) - T (upper last x - 1)) * 1 + T (upper last x - 1) := by
          unfold interpolate
          have := mul_le_mul_of_nonneg_left before (slope_nonneg sorted some x)
          linarith
      _ = T (upper last x) := by ring
      _ ≤ T (upper last y - 1) := entries_mono sorted (by omega) ((Nat.sub_le _ _).trans (upper_le some y))
      _ ≤ interpolate last T y := by
          unfold interpolate
          have := mul_nonneg (slope_nonneg sorted some y) after
          linarith
  · have along : x - upper last y ≤ y - upper last y := by linarith
    have := mul_le_mul_of_nonneg_left along (slope_nonneg sorted some y)
    unfold interpolate
    rw [same]
    linarith

end Librespot.Interpolation
