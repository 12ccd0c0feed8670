import Mathlib.Algebra.Order.Floor.Ring
import Mathlib.Algebra.Order.Round
import Mathlib.Data.Rat.Floor
import Mathlib.Tactic.Linarith

/-!
# Python numbers over the exact rationals

`int(x)` truncates towards zero and `round(x)` sends a half to the even neighbour; `max(lo,
min(hi, x))` is the clamp written throughout.  Floats are read as exact rationals, so these are
functions on `ℚ`.  A program rounds on the way to their argument: where the exact argument is a
whole number or a half, or right next to one, its result may be the neighbour, and `Binary64` has the
rounding for definitions where that decides something.  The lemmas are the bounds and the monotonicity
a caller needs: none of the proofs that use them has to open a definition.
-/

namespace PyNum

/-! ### `int` -/

/-- `int(x)` of a float: truncation towards zero. -/
def pyInt (x : ℚ) : ℤ := if 0 ≤ x then ⌊x⌋ else ⌈x⌉

theorem pyInt_of_nonneg {x : ℚ} (hx : 0 ≤ x) : pyInt x = ⌊x⌋ := if_pos hx

@[simp]
theorem pyInt_intCast (n : ℤ) : pyInt n = n := by
  unfold pyInt
  split_ifs <;> simp

theorem pyInt_nonneg {x : ℚ} (hx : 0 ≤ x) : 0 ≤ pyInt x := by
  rw [pyInt_of_nonneg hx]
  exact Int.floor_nonneg.mpr hx

/-- Truncation never rises above a nonnegative value. -/
theorem pyInt_le {x : ℚ} (hx : 0 ≤ x) : (pyInt x : ℚ) ≤ x := by
  rw [pyInt_of_nonneg hx]
  exact Int.floor_le x

theorem pyInt_mono {x y : ℚ} (hx : 0 ≤ x) (hxy : x ≤ y) : pyInt x ≤ pyInt y := by
  rw [pyInt_of_nonneg hx, pyInt_of_nonneg (hx.trans hxy)]
  exact Int.floor_mono hxy

/-! ### `round` -/

/-- `round(x)` of a float: the nearest integer, a half going to the even neighbour. -/
def pyRound (x : ℚ) : ℤ :=
  if x - ⌊x⌋ < 1 / 2 then ⌊x⌋
  else if 1 / 2 < x - ⌊x⌋ then ⌊x⌋ + 1
  else if ⌊x⌋ % 2 = 0 then ⌊x⌋ else ⌊x⌋ + 1

@[simp]
theorem pyRound_intCast (n : ℤ) : pyRound n = n := by
  unfold pyRound
  simp

theorem floor_le_pyRound (x : ℚ) : ⌊x⌋ ≤ pyRound x := by
  unfold pyRound
  split_ifs <;> omega

theorem pyRound_le_floor_add_one (x : ℚ) : pyRound x ≤ ⌊x⌋ + 1 := by
  unfold pyRound
  split_ifs <;> omega

/-- Rounding respects an integer lower bound. -/
theorem le_pyRound {n : ℤ} {x : ℚ} (h : (n : ℚ) ≤ x) : n ≤ pyRound x :=
  (Int.le_floor.mpr h).trans (floor_le_pyRound x)

theorem pyRound_mono {x y : ℚ} (h : x ≤ y) : pyRound x ≤ pyRound y := by
  rcases (Int.floor_mono h).lt_or_eq with hlt | heq
  · -- different floors: the next integer lies between
    calc pyRound x ≤ ⌊x⌋ + 1 := pyRound_le_floor_add_one x
      _ ≤ ⌊y⌋ := hlt
      _ ≤ pyRound y := floor_le_pyRound y
  · unfold pyRound
    rw [← heq]
    split_ifs <;> first | omega | linarith

/-- Rounding respects an integer upper bound. -/
theorem pyRound_le {n : ℤ} {x : ℚ} (h : x ≤ n) : pyRound x ≤ n :=
  (pyRound_mono h).trans_eq (pyRound_intCast n)

theorem abs_pyRound_sub_le (x : ℚ) : |(pyRound x : ℚ) - x| ≤ 1 / 2 := by
  have hlow := Int.floor_le x
  have hhigh := Int.lt_floor_add_one x
  unfold pyRound
  split_ifs <;> rw [abs_le] <;> push_cast <;> constructor <;> linarith

theorem pyRound_nonneg {x : ℚ} (h : 0 ≤ x) : 0 ≤ pyRound x :=
  le_pyRound (by exact_mod_cast h)

/-! ### `max(lo, min(hi, x))` -/

section Clamp

variable {α : Type*} [LinearOrder α]

/-- `max(lo, min(hi, x))`. -/
def clamp (x lo hi : α) : α := max lo (min hi x)

theorem le_clamp (x lo hi : α) : lo ≤ clamp x lo hi := le_max_left _ _

theorem clamp_le {x lo hi : α} (h : lo ≤ hi) : clamp x lo hi ≤ hi :=
  max_le h (min_le_left _ _)

theorem clamp_eq_self {x lo hi : α} (hlo : lo ≤ x) (hhi : x ≤ hi) : clamp x lo hi = x := by
  unfold clamp
  rw [min_eq_right hhi, max_eq_right hlo]

theorem clamp_mono {x y lo hi : α} (h : x ≤ y) : clamp x lo hi ≤ clamp y lo hi :=
  max_le_max le_rfl (min_le_min le_rfl h)

end Clamp

/-! ### `or` -/

/-- `a or b` of optional integers: `None` and zero are false. -/
def optOr (a b : Option ℤ) : Option ℤ :=
  match a with
  | some n => if n = 0 then b else some n
  | none => b

/-- `a or b` with an integer to fall back on. -/
def optOrInt (a : Option ℤ) (b : ℤ) : ℤ :=
  match a with
  | some n => if n = 0 then b else n
  | none => b

@[simp]
theorem optOr_none (b : Option ℤ) : optOr none b = b := rfl

theorem optOr_of_ne_zero {n : ℤ} (hn : n ≠ 0) (b : Option ℤ) : optOr (some n) b = some n := if_neg hn

@[simp]
theorem optOrInt_none (b : ℤ) : optOrInt none b = b := rfl

/-- Falling back on the value itself changes nothing. -/
@[simp]
theorem optOrInt_some_self (n : ℤ) : optOrInt (some n) n = n := by
  show (if n = 0 then n else n) = n
  exact ite_self n

end PyNum
