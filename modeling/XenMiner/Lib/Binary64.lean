import Mathlib.Algebra.Order.Round
import Mathlib.Data.Int.Log
import Mathlib.Tactic.Ring
import XenMiner.Lib.PyNum

/-!
# Rounding to a double

A finite float is the rational number it stands for, and an operation on floats is the exact one,
rounded: `round x` is the double next to `x`, the even one of two that are equally near.  The exponent
is not bounded, so nothing overflows and there are no subnormal numbers.

A definition that takes a rounding `rnd` carries two meanings: the float one with `round`, the exact
one with `id`.  Both are within a relative error of `2^-53` (`Rounds`), and `Near k` counts how many such
operations two values are apart; it composes along products and quotients.
-/

namespace Binary64

open PyNum

/-- The gap between the doubles around `x`: `53` bits from the highest bit of `x` on. -/
def gap (x : ℚ) : ℚ := 2 ^ (Int.log 2 |x| - 52)

def round (x : ℚ) : ℚ := pyRound (x / gap x) * gap x

example : round (1001 / 1000) = 2254051613498933 / 2 ^ 51 := by decide +kernel

/-! ### The relative error -/

/-- A rounding of the results of operations. -/
class Rounds (rnd : ℚ → ℚ) : Prop where
  abs_sub_le : ∀ x, |rnd x - x| ≤ |x| / 2 ^ 53

theorem gap_pos (x : ℚ) : 0 < gap x := zpow_pos (by norm_num) _

theorem gap_le {x : ℚ} (hx : x ≠ 0) : gap x ≤ |x| / 2 ^ 52 := by
  have hlog : ((2 : ℕ) : ℚ) ^ Int.log 2 |x| ≤ |x| :=
    Int.zpow_log_le_self one_lt_two (abs_pos.mpr hx)
  unfold gap
  rw [zpow_sub₀ two_ne_zero]
  exact div_le_div_of_nonneg_right hlog (by norm_num)

instance : Rounds round where
  abs_sub_le x := by
    rcases eq_or_ne x 0 with rfl | hx
    · simp [round, pyRound]
    · have hgap := gap_pos x
      have hle := gap_le hx
      have herror := abs_pyRound_sub_le (x / gap x)
      calc |round x - x| = |pyRound (x / gap x) - x / gap x| * gap x := by
            rw [← abs_of_pos hgap, ← abs_mul, abs_of_pos hgap, sub_mul, div_mul_cancel₀ _ hgap.ne']
            rfl
        _ ≤ 1 / 2 * gap x := mul_le_mul_of_nonneg_right herror hgap.le
        _ ≤ |x| / 2 ^ 53 := by linarith

instance : Rounds id where
  abs_sub_le x := by
    rw [id_eq, sub_self, abs_zero]
    positivity

variable {rnd : ℚ → ℚ} [Rounds rnd] {x y : ℚ}

variable (rnd) in
theorem rnd_zero : rnd 0 = 0 := by
  have herror : |rnd 0 - 0| ≤ |0| / 2 ^ 53 := Rounds.abs_sub_le 0
  simpa using herror

theorem rnd_bounds (hx : 0 ≤ x) :
    x * (1 - 1 / 2 ^ 53) ≤ rnd x ∧ rnd x ≤ x * (1 + 1 / 2 ^ 53) := by
  have herror : |rnd x - x| ≤ |x| / 2 ^ 53 := Rounds.abs_sub_le x
  rw [abs_of_nonneg hx, abs_le] at herror
  constructor <;> linarith

theorem rnd_nonneg (hx : 0 ≤ x) : 0 ≤ rnd x :=
  (mul_nonneg hx (by norm_num)).trans (rnd_bounds hx).1

/-! ### Values a few operations apart -/

/-- What one operation may change its result by, as a factor. -/
def slack : ℚ := 1 + 1 / 2 ^ 52

theorem one_le_slack : 1 ≤ slack := by norm_num [slack]

theorem slack_pow_pos (k : ℕ) : 0 < slack ^ k := pow_pos (one_pos.trans_le one_le_slack) k

/-- `x` and `y` are at most `k` operations apart. -/
structure Near (k : ℕ) (x y : ℚ) : Prop where
  le : x ≤ y * slack ^ k
  ge : y ≤ x * slack ^ k

namespace Near

variable {x' y' z : ℚ} {j k : ℕ}

theorem refl (x : ℚ) : Near 0 x x := by
  constructor <;> rw [pow_zero, mul_one]

theorem trans (h : Near j x y) (h' : Near k y z) : Near (j + k) x z := by
  constructor
  case le =>
    calc x ≤ y * slack ^ j := h.le
      _ ≤ z * slack ^ k * slack ^ j := mul_le_mul_of_nonneg_right h'.le (slack_pow_pos j).le
      _ = z * slack ^ (j + k) := by rw [pow_add]; ring
  case ge =>
    calc z ≤ y * slack ^ k := h'.ge
      _ ≤ x * slack ^ j * slack ^ k := mul_le_mul_of_nonneg_right h.ge (slack_pow_pos k).le
      _ = x * slack ^ (j + k) := by rw [pow_add]; ring

theorem mul (h : Near j x y) (h' : Near k x' y') (hx : 0 ≤ x) (hy : 0 ≤ y) (hx' : 0 ≤ x') (hy' : 0 ≤ y') :
    Near (j + k) (x * x') (y * y') := by
  constructor
  case le =>
    calc x * x' ≤ y * slack ^ j * (y' * slack ^ k) :=
          mul_le_mul h.le h'.le hx' (mul_nonneg hy (slack_pow_pos j).le)
      _ = y * y' * slack ^ (j + k) := by rw [pow_add]; ring
  case ge =>
    calc y * y' ≤ x * slack ^ j * (x' * slack ^ k) :=
          mul_le_mul h.ge h'.ge hy' (mul_nonneg hx (slack_pow_pos j).le)
      _ = x * x' * slack ^ (j + k) := by rw [pow_add]; ring

theorem of_mul (h : Near k (x * z) (y * z)) (hz : 0 < z) : Near k x y := by
  have hcomm : ∀ w, w * z * slack ^ k = w * slack ^ k * z := fun w => mul_right_comm w z _
  constructor
  case le => exact le_of_mul_le_mul_right (hcomm y ▸ h.le) hz
  case ge => exact le_of_mul_le_mul_right (hcomm x ▸ h.ge) hz

/-- Reciprocals are as near as the values. -/
theorem inv (h : Near k x y) (hx : 0 < x) (hy : 0 < y) : Near k x⁻¹ y⁻¹ := by
  constructor
  case le =>
    rw [inv_mul_eq_div, le_div_iff₀ hy, inv_mul_le_iff₀ hx]
    exact h.ge
  case ge =>
    rw [inv_mul_eq_div, le_div_iff₀ hx, inv_mul_le_iff₀ hy]
    exact h.le

theorem div (h : Near j x y) (h' : Near k x' y') (hx : 0 ≤ x) (hy : 0 ≤ y) (hx' : 0 < x') (hy' : 0 < y') :
    Near (j + k) (x / x') (y / y') := by
  rw [div_eq_mul_inv, div_eq_mul_inv]
  exact h.mul (h'.inv hx' hy') hx hy (inv_pos.mpr hx').le (inv_pos.mpr hy').le

/-- An operation is a step away. -/
theorem step (h : Near k x y) (hx : 0 ≤ x) : Near (k + 1) (rnd x) y := by
  obtain ⟨hlow, hhigh⟩ : x * (1 - 1 / 2 ^ 53) ≤ rnd x ∧ rnd x ≤ x * (1 + 1 / 2 ^ 53) := rnd_bounds hx
  have hone : Near 1 (rnd x) x := by
    constructor
    case le =>
      rw [pow_one, slack]
      linarith
    case ge =>
      -- a step up undoes a step down
      have hup := mul_le_mul_of_nonneg_right hlow (one_pos.trans_le one_le_slack).le
      rw [pow_one]
      refine le_trans ?_ hup
      rw [slack, mul_assoc]
      exact le_mul_of_one_le_right hx (by norm_num)
  rw [add_comm]
  exact hone.trans h

/-- Integers that are a few operations apart are equal, as long as these do not add up to `1`. -/
theorem int_eq {m n : ℤ} (h : Near k (m : ℚ) (n : ℚ)) (hsmall : (n : ℚ) * (slack ^ k - 1) < 1) :
    m = n := by
  have hslack : 0 ≤ slack ^ k - 1 := sub_nonneg.mpr (one_le_pow₀ one_le_slack)
  have hle := h.le
  have hge := h.ge
  rcases lt_trichotomy m n with hlt | heq | hgt
  case inl =>
    have hstep : (m : ℚ) + 1 ≤ n := by exact_mod_cast hlt
    have hmono : (m : ℚ) * (slack ^ k - 1) ≤ n * (slack ^ k - 1) :=
      mul_le_mul_of_nonneg_right (by linarith) hslack
    linarith
  case inr.inl => exact heq
  case inr.inr =>
    have hstep : (n : ℚ) + 1 ≤ m := by exact_mod_cast hgt
    linarith

end Near

end Binary64
