import Mathlib.Algebra.Order.Floor.Ring
import Mathlib.Algebra.Order.Field.Basic
import Mathlib.Data.Rat.Floor
import Mathlib.Order.Bounds.Basic
import Mathlib.Tactic.Linarith
import Mathlib.Tactic.Ring

/-!
# Counting pieces that fit a budget

A budget of `B` units holds `fitCount B w = ⌊B / w⌋` pieces of (rational) weight `w`.  With `c`
equal shares there are two ways to size a share: give each share `B / c` units and count
(`fitCount (B / c) w`), or count for the whole budget and divide (`fitCount B w / c`).  The second
is the greatest `n` with `c · n · w ≤ B` (`le_fitCount_ediv_iff`); the first never exceeds it
(`fitCount_ediv_le`) and so stays inside the budget too (`mul_fitCount_ediv_le`).
-/

/-- The number of pieces of weight `w` that fit into `B`. -/
def fitCount (B : ℤ) (w : ℚ) : ℤ := ⌊(B : ℚ) / w⌋

section FitCount

variable {B c n : ℤ} {w : ℚ}

theorem le_fitCount_iff (hw : 0 < w) : n ≤ fitCount B w ↔ n * w ≤ B := by
  rw [fitCount, Int.le_floor, le_div_iff₀ hw]

theorem fitCount_mul_le (hw : 0 < w) : fitCount B w * w ≤ B :=
  (le_fitCount_iff hw).mp le_rfl

theorem fitCount_nonneg (hw : 0 < w) (hB : 0 ≤ B) : 0 ≤ fitCount B w := by
  rw [le_fitCount_iff hw, Int.cast_zero, zero_mul]
  exact_mod_cast hB

/-- A heavier attempt fits less often. -/
theorem fitCount_anti {w' : ℚ} (hB : 0 ≤ B) (hw : 0 < w) (h : w ≤ w') :
    fitCount B w' ≤ fitCount B w := by
  have hB' : (0 : ℚ) ≤ B := by exact_mod_cast hB
  exact Int.floor_mono (div_le_div_of_nonneg_left hB' hw h)

/-- Counting for the whole budget and dividing by the number of shares answers for `c` shares
together. -/
theorem le_fitCount_ediv_iff (hw : 0 < w) (hc : 0 < c) :
    n ≤ fitCount B w / c ↔ c * n * w ≤ B := by
  rw [Int.le_ediv_iff_mul_le hc, le_fitCount_iff hw, Int.cast_mul, mul_comm (n : ℚ) c]

/-- Splitting the budget first can only lose pieces. -/
theorem fitCount_ediv_le (hw : 0 < w) (hc : 0 < c) : fitCount (B / c) w ≤ fitCount B w / c := by
  rw [le_fitCount_ediv_iff hw hc, mul_assoc]
  have hshare : (fitCount (B / c) w : ℚ) * w ≤ (B / c : ℤ) := fitCount_mul_le hw
  have hc' : (0 : ℚ) ≤ c := by exact_mod_cast hc.le
  have hsplit : (c : ℚ) * (B / c : ℤ) ≤ B := by exact_mod_cast Int.mul_ediv_self_le hc.ne'
  exact (mul_le_mul_of_nonneg_left hshare hc').trans hsplit

theorem mul_fitCount_ediv_le (hw : 0 < w) (hc : 0 < c) :
    (c : ℚ) * fitCount (B / c) w * w ≤ B :=
  (le_fitCount_ediv_iff hw hc).mp (fitCount_ediv_le hw hc)

/-- A smaller count on the same shares stays inside the budget. -/
theorem mul_le_budget_of_le {m : ℤ} (hw : 0 < w) (hc : 0 ≤ c) (hmn : m ≤ n)
    (h : (c : ℚ) * n * w ≤ B) : (c : ℚ) * m * w ≤ B := by
  have hm : (m : ℚ) ≤ n := by exact_mod_cast hmn
  have hc' : (0 : ℚ) ≤ c := by exact_mod_cast hc
  exact (mul_le_mul_of_nonneg_right (mul_le_mul_of_nonneg_left hm hc') hw.le).trans h

/-- Fewer shares of the same size stay inside the budget. -/
theorem mul_le_budget_of_shares_le {c' : ℤ} (hw : 0 < w) (hn : 0 ≤ n) (hcc : c' ≤ c)
    (h : (c : ℚ) * n * w ≤ B) : (c' : ℚ) * n * w ≤ B := by
  have hc : (c' : ℚ) ≤ c := by exact_mod_cast hcc
  have hn' : (0 : ℚ) ≤ n := by exact_mod_cast hn
  exact (mul_le_mul_of_nonneg_right (mul_le_mul_of_nonneg_right hc hn') hw.le).trans h

/-- A piece more does not fit. -/
theorem lt_fitCount_add_one_mul (hw : 0 < w) : (B : ℚ) < (fitCount B w + 1) * w := by
  have hfloor : (B : ℚ) / w < fitCount B w + 1 := Int.lt_floor_add_one _
  exact (div_lt_iff₀ hw).mp hfloor

/-- Nor does a piece more in each share. -/
theorem lt_shares_mul (hw : 0 < w) (hc : 0 < c) :
    (B : ℚ) < c * ((fitCount B w / c : ℤ) + 1) * w := by
  have hmore : fitCount B w + 1 ≤ (fitCount B w / c + 1) * c :=
    Int.lt_ediv_add_one_mul_self _ hc
  have hmore' : (fitCount B w : ℚ) + 1 ≤ c * ((fitCount B w / c : ℤ) + 1) := by
    rw [mul_comm (c : ℚ)]
    exact_mod_cast hmore
  exact (lt_fitCount_add_one_mul hw).trans_le (mul_le_mul_of_nonneg_right hmore' hw.le)

/-- Splitting first loses less than a unit a share besides. -/
theorem sub_lt_split_mul (hw : 0 < w) (hc : 0 < c) :
    (B : ℚ) - c < c * (fitCount (B / c) w + 1) * w := by
  have hunits : B < (B / c + 1) * c := Int.lt_ediv_add_one_mul_self _ hc
  have hunits' : (B : ℚ) < ((B / c : ℤ) + 1) * c := by exact_mod_cast hunits
  have hc' : (0 : ℚ) < c := by exact_mod_cast hc
  have hshare := mul_lt_mul_of_pos_left (lt_fitCount_add_one_mul (B := B / c) hw) hc'
  calc (B : ℚ) - c < c * (B / c : ℤ) := by linarith
    _ < c * ((fitCount (B / c) w + 1) * w) := hshare
    _ = c * (fitCount (B / c) w + 1) * w := by ring

end FitCount
