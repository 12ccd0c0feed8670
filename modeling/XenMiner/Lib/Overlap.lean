import Mathlib.Algebra.Order.Field.Basic
import Mathlib.Tactic.Linarith

/-!
# How much of one interval lies in another

`overlap a b lo hi` is the length of the part of `[a, b]` inside `[lo, hi]`.  Adjacent intervals add
up (`overlap_add`), so the parts of a chain of intervals inside a window are the part of the whole.
-/

variable {α : Type*} [Field α] [LinearOrder α] [IsStrictOrderedRing α] {a b c lo hi : α}

/-- The length of `[a, b] ∩ [lo, hi]`. -/
def overlap (a b lo hi : α) : α := max 0 (min b hi - max a lo)

/-- No more than the window. -/
theorem overlap_le (h : lo ≤ hi) : overlap a b lo hi ≤ hi - lo := by
  have hmin := min_le_right b hi
  have hmax := le_max_right a lo
  exact max_le (by linarith) (by linarith)

/-- An empty interval. -/
theorem overlap_of_le (h : b ≤ a) : overlap a b lo hi = 0 := by
  have hmin := min_le_left b hi
  have hmax := le_max_left a lo
  exact max_eq_left (by linarith)

/-- An interval inside the window. -/
theorem overlap_of_subset (hab : a ≤ b) (hlo : lo ≤ a) (hhi : b ≤ hi) : overlap a b lo hi = b - a := by
  unfold overlap
  rw [min_eq_left hhi, max_eq_left hlo, max_eq_right (by linarith)]

/-- An interval before the window. -/
theorem overlap_of_before (h : b ≤ lo) : overlap a b lo hi = 0 := by
  have hmin := min_le_left b hi
  have hmax := le_max_right a lo
  exact max_eq_left (by linarith)

/-- An interval behind the window. -/
theorem overlap_of_after (h : hi ≤ a) : overlap a b lo hi = 0 := by
  have hmin := min_le_right b hi
  have hmax := le_max_left a lo
  exact max_eq_left (by linarith)

/-- Adjacent intervals. -/
theorem overlap_add (hab : a ≤ b) (hbc : b ≤ c) :
    overlap a b lo hi + overlap b c lo hi = overlap a c lo hi := by
  rcases le_total b lo with hb | hb
  -- the first interval is before the window
  · rw [overlap_of_before hb, zero_add]
    unfold overlap
    rw [max_eq_right hb, max_eq_right (hab.trans hb)]
  rcases le_total hi b with hb' | hb'
  -- the second interval is behind it
  · rw [overlap_of_after hb', add_zero]
    unfold overlap
    rw [min_eq_right hb', min_eq_right (hb'.trans hbc)]
  -- the intervals meet inside it
  · have hleft : overlap a b lo hi = b - max a lo := by
      unfold overlap
      rw [min_eq_left hb', max_eq_right (sub_nonneg.mpr (max_le hab hb))]
    have hright : overlap b c lo hi = min c hi - b := by
      unfold overlap
      rw [max_eq_left hb, max_eq_right (sub_nonneg.mpr (le_min hbc hb'))]
    have hmin : b ≤ min c hi := le_min hbc hb'
    have hmax : max a lo ≤ b := max_le hab hb
    have hwhole : overlap a c lo hi = min c hi - max a lo :=
      max_eq_right (sub_nonneg.mpr (hmax.trans hmin))
    linarith
