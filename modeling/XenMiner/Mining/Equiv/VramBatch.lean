import XenMiner.Mining.VramBatch
import XenMiner.Lib.FitCount
import Mathlib.Tactic.NormNum
import Mathlib.Tactic.Positivity

/-!
# Correctness of the VRAM planner

`memoryLimitedBatchSize` is `fitCount` of the budget at the weight of one attempt
(`memoryLimitedBatchSize_add_reserve`), so the batch of a plan is a count of attempts.  The
planner counts twice: it splits the budget over the resident lanes and counts for one share, then
tops the batch up to the count for the whole budget divided by the lanes.  The second count is the
greatest that fits (`PlanArgs.isGreatest_planBatchPerLane`), it keeps the plan within both caps
(`PlanArgs.withinLimits_rawPlan`), and so the final clamp leaves it alone
(`planCudaBatch_eq_rawPlan`).
-/

namespace XenMiner.VramBatch

open PyNum Binary64

variable {rnd : ℚ → ℚ}

/-! ### Weights and counts -/

/-- Whatever an attempt weighs in floats, it is four operations from its exact weight. -/
theorem near_bytesPerAttempt [Rounds rnd] {d : ℤ} (hd : 0 < d) :
    Near 4 (bytesPerAttempt d rnd) (bytesPerAttempt d) := by
  have hd' : (0 : ℚ) ≤ d := by exact_mod_cast hd.le
  have hfactor : (0 : ℚ) ≤ bytesPerAttemptFactor := by norm_num [bytesPerAttemptFactor]
  have hkib : (0 : ℚ) ≤ d * 1024 := mul_nonneg hd' (by norm_num)
  have hcast : Near 1 (rnd d) (d : ℚ) := (Near.refl _).step hd'
  have hmul : Near 1 (rnd d * 1024) ((d : ℚ) * 1024) :=
    hcast.mul (Near.refl 1024) (rnd_nonneg hd') hd' (by norm_num) (by norm_num)
  have hnonneg : 0 ≤ rnd d * 1024 := mul_nonneg (rnd_nonneg hd') (by norm_num)
  exact ((hmul.step hnonneg).mul ((Near.refl _).step hfactor) (rnd_nonneg hnonneg) hkib
    (rnd_nonneg hfactor) hfactor).step (mul_nonneg (rnd_nonneg hnonneg) (rnd_nonneg hfactor))

theorem bytesPerAttempt_exact (d : ℤ) : bytesPerAttempt d = d * 1024 * bytesPerAttemptFactor := rfl

theorem bytesPerAttempt_pos {d : ℤ} (hd : 0 < d) : 0 < bytesPerAttempt d := by
  simp only [bytesPerAttempt_exact, bytesPerAttemptFactor]
  have : (0 : ℚ) < d := by exact_mod_cast hd
  positivity

/-- An attempt weighs more than a thousand bytes, however its weight is rounded. -/
theorem thousand_lt_bytesPerAttempt [Rounds rnd] {d : ℤ} (hd : 0 < d) :
    1000 < bytesPerAttempt d rnd := by
  have hnear : Near 4 (bytesPerAttempt d rnd) (bytesPerAttempt d) := near_bytesPerAttempt hd
  have hone : (1 : ℚ) ≤ d := by exact_mod_cast hd
  have hexact : 1025 ≤ bytesPerAttempt d := by
    simp only [bytesPerAttempt_exact, bytesPerAttemptFactor]
    linarith
  by_contra hsmall
  have hle : bytesPerAttempt d rnd * slack ^ 4 ≤ 1000 * slack ^ 4 :=
    mul_le_mul_of_nonneg_right (not_lt.mp hsmall) (slack_pow_pos 4).le
  have hslack : 1000 * slack ^ 4 < 1025 := by norm_num [slack]
  linarith [hnear.ge]

theorem bytesPerAttempt_rnd_pos [Rounds rnd] {d : ℤ} (hd : 0 < d) : 0 < bytesPerAttempt d rnd :=
  lt_trans (by norm_num) (thousand_lt_bytesPerAttempt hd)

/-- One attempt never fits into a single byte. -/
theorem one_lt_bytesPerAttempt {d : ℤ} (hd : 0 < d) : 1 < bytesPerAttempt d :=
  lt_trans (by norm_num) (thousand_lt_bytesPerAttempt hd)

theorem bytesPerAttempt_mono {d d' : ℤ} (h : d ≤ d') : bytesPerAttempt d ≤ bytesPerAttempt d' := by
  simp only [bytesPerAttempt_exact, bytesPerAttemptFactor]
  have : (d : ℚ) ≤ d' := by exact_mod_cast h
  linarith

/-- With the reserve added, as every caller adds it, the limit counts the attempts in the
budget. -/
theorem memoryLimitedBatchSize_add_reserve_rnd [Rounds rnd] {b d : ℤ} (hd : 0 < d) (hb : 0 < b) :
    memoryLimitedBatchSize (b + cudaEngineReserveBytes) d rnd =
      pyInt (rnd (rnd b / bytesPerAttempt d rnd)) := by
  have hw : 0 < bytesPerAttempt d rnd := bytesPerAttempt_rnd_pos hd
  have hcond : ¬ (d ≤ 0 ∨ b + cudaEngineReserveBytes ≤ cudaEngineReserveBytes) := by omega
  unfold memoryLimitedBatchSize
  rw [if_neg hcond]
  simp only [if_neg (not_le.mpr hw), Int.cast_add, add_sub_cancel_right]

theorem memoryLimitedBatchSize_add_reserve {b d : ℤ} (hd : 0 < d) (hb : 0 < b) :
    memoryLimitedBatchSize (b + cudaEngineReserveBytes) d = fitCount b (bytesPerAttempt d) := by
  have hb' : (0 : ℚ) ≤ b := by exact_mod_cast hb.le
  rw [memoryLimitedBatchSize_add_reserve_rnd hd hb, fitCount]
  exact pyInt_of_nonneg (div_nonneg hb' (bytesPerAttempt_pos hd).le)

theorem selectBatchSize_nonneg (b d e : ℤ) (rnd : ℚ → ℚ := id) : 0 ≤ selectBatchSize b d e rnd := by
  simp only [selectBatchSize]
  split_ifs <;> omega

theorem selectBatchSize_le_fitCount {b d : ℤ} (e : ℤ) (hd : 0 < d) (hb : 0 < b) :
    selectBatchSize b d e ≤ fitCount b (bytesPerAttempt d) := by
  have hfit : 0 ≤ fitCount b (bytesPerAttempt d) := fitCount_nonneg (bytesPerAttempt_pos hd) hb.le
  simp only [selectBatchSize, memoryLimitedBatchSize_add_reserve hd hb]
  split_ifs
  · exact hfit
  · exact min_le_left _ _
  · exact le_rfl

theorem selectBatchSize_le_explicit {b d e : ℤ} (he : 0 < e) : selectBatchSize b d e rnd ≤ e := by
  simp only [selectBatchSize]
  split_ifs
  · exact he.le
  · exact min_le_right _ _

/-- A one-byte budget, the planner's floor for an empty one, holds no attempt. -/
theorem selectBatchSize_one [Rounds rnd] {d e : ℤ} (hd : 0 < d) : selectBatchSize 1 d e rnd = 0 := by
  have hw : 1000 < bytesPerAttempt d rnd := thousand_lt_bytesPerAttempt hd
  have hone : rnd 1 ≤ 1 * (1 + 1 / 2 ^ 53) := (rnd_bounds zero_le_one).2
  -- one byte is less than half an attempt, and rounding does not make it a whole one
  have hhalf : rnd 1 / bytesPerAttempt d rnd ≤ 1 / 2 := by
    rw [div_le_iff₀ (by linarith)]
    linarith
  have hquot : 0 ≤ rnd 1 / bytesPerAttempt d rnd := div_nonneg (rnd_nonneg zero_le_one) (by linarith)
  have hless : rnd (rnd 1 / bytesPerAttempt d rnd) < 1 := by
    refine (rnd_bounds hquot).2.trans_lt ?_
    linarith [mul_le_mul_of_nonneg_right hhalf (by norm_num : (0 : ℚ) ≤ 1 + 1 / 2 ^ 53)]
  have hzero : pyInt (rnd (rnd 1 / bytesPerAttempt d rnd)) ≤ 0 := by
    rw [pyInt_of_nonneg (rnd_nonneg hquot), ← Int.lt_add_one_iff, Int.floor_lt]
    exact_mod_cast hless
  simp only [selectBatchSize, memoryLimitedBatchSize_add_reserve_rnd hd one_pos, Int.cast_one]
  rw [if_pos hzero]

theorem selectBatchSize_of_difficulty {d : ℤ} (b e : ℤ) (hd : d ≤ 0) :
    selectBatchSize b d e rnd = 0 := by
  simp [selectBatchSize, memoryLimitedBatchSize, hd]

/-! ### Footprints -/

theorem estimateBatchVramBytes_nonneg (b d : ℤ) (rnd : ℚ → ℚ := id) [Rounds rnd] :
    0 ≤ estimateBatchVramBytes b d rnd := by
  unfold estimateBatchVramBytes
  split_ifs with h
  · rfl
  · push Not at h
    have hb : (0 : ℚ) ≤ b := by exact_mod_cast h.1.le
    have hw : 1000 < bytesPerAttempt d rnd := thousand_lt_bytesPerAttempt h.2
    exact pyInt_nonneg (rnd_nonneg (mul_nonneg (rnd_nonneg hb) (by linarith)))

/-- The estimate rounds the exact footprint down. -/
theorem estimateBatchVramBytes_le {b d : ℤ} (hb : 0 ≤ b) (hd : 0 < d) :
    (estimateBatchVramBytes b d : ℚ) ≤ b * bytesPerAttempt d := by
  have hb' : (0 : ℚ) ≤ b := by exact_mod_cast hb
  have hw := bytesPerAttempt_pos hd
  unfold estimateBatchVramBytes
  split_ifs with h
  · rw [Int.cast_zero]
    exact mul_nonneg hb' hw.le
  · exact pyInt_le (mul_nonneg hb' hw.le)

/-- A footprint inside the exact budget is inside it after rounding. -/
theorem mul_estimateBatchVramBytes_le {c b d B : ℤ} (hc : 0 ≤ c) (hb : 0 ≤ b) (hd : 0 < d)
    (h : (c : ℚ) * b * bytesPerAttempt d ≤ B) : c * estimateBatchVramBytes b d ≤ B := by
  have hc' : (0 : ℚ) ≤ c := by exact_mod_cast hc
  have hle := mul_le_mul_of_nonneg_left (estimateBatchVramBytes_le hb hd) hc'
  rw [← mul_assoc] at hle
  exact_mod_cast hle.trans h

/-! ### Fields of a built plan -/

section MakePlan

variable (b l r B Bm u o t et h d f T c : ℤ) (rnd : ℚ → ℚ)

@[simp]
theorem makePlan_batchPerLane :
    (makePlan b l r B Bm u o t et h d f T c rnd).batchPerLane = b := rfl

@[simp]
theorem makePlan_lanes : (makePlan b l r B Bm u o t et h d f T c rnd).lanes = l := rfl

@[simp]
theorem makePlan_budgetBytes : (makePlan b l r B Bm u o t et h d f T c rnd).budgetBytes = B := rfl

@[simp]
theorem makePlan_difficulty : (makePlan b l r B Bm u o t et h d f T c rnd).difficulty = d := rfl

@[simp]
theorem makePlan_targetMib : (makePlan b l r B Bm u o t et h d f T c rnd).targetMib = t := rfl

@[simp]
theorem makePlan_desktopHeadroomMib :
    (makePlan b l r B Bm u o t et h d f T c rnd).desktopHeadroomMib = h := rfl

@[simp]
theorem makePlan_concurrentVramLanes :
    (makePlan b l r B Bm u o t et h d f T c rnd).concurrentVramLanes = max 1 (min c (max 1 l)) := rfl

/-- The recorded concurrency is already clamped, so reading it back changes nothing. -/
@[simp]
theorem makePlan_effectiveConcurrentVramLanes :
    (makePlan b l r B Bm u o t et h d f T c rnd).effectiveConcurrentVramLanes
      = max 1 (min c (max 1 l)) := by
  have hpos : 0 < (makePlan b l r B Bm u o t et h d f T c rnd).concurrentVramLanes := by
    rw [makePlan_concurrentVramLanes]
    omega
  unfold CudaVramPlan.effectiveConcurrentVramLanes
  rw [if_pos hpos, makePlan_concurrentVramLanes, makePlan_lanes]
  omega

end MakePlan

theorem CudaVramPlan.one_le_effectiveConcurrentVramLanes (p : CudaVramPlan) :
    1 ≤ p.effectiveConcurrentVramLanes := by
  unfold CudaVramPlan.effectiveConcurrentVramLanes
  split_ifs <;> omega

theorem CudaVramPlan.effectiveConcurrentVramLanes_le (p : CudaVramPlan) :
    p.effectiveConcurrentVramLanes ≤ max 1 p.lanes := by
  unfold CudaVramPlan.effectiveConcurrentVramLanes
  split_ifs <;> omega

theorem CudaVramPlan.withinLimits_iff {p : CudaVramPlan} : p.withinLimits = true ↔
    p.projectedUsedMib ≤ p.targetMib ∧ p.desktopHeadroomMib ≤ p.projectedHeadroomMib := by
  simp [CudaVramPlan.withinLimits]

theorem one_le_cudaLaneCount (d r m b k : ℤ) (mode : PackMode) (rnd : ℚ → ℚ := id) :
    1 ≤ cudaLaneCount d r m b k mode rnd := by
  simp only [cudaLaneCount]
  split_ifs <;> omega

/-! ### Budgets -/

theorem mibBytes_pos : 0 < mibBytes := by norm_num [mibBytes]

namespace PlanArgs

variable {a : PlanArgs}

/-- MiB the caps leave to the batch. -/
def allowedMib (a : PlanArgs) : ℤ :=
  min (a.targetMib - max 0 a.foreignUsedMib - (max 0 a.runtimeOverheadMib + max 0 a.safetyMarginMib))
    (a.totalBytes / mibBytes - a.desktopHeadroomMib - max 0 a.foreignUsedMib
      - (max 0 a.runtimeOverheadMib + max 0 a.safetyMarginMib))

theorem capBudgetBytes_eq (a : PlanArgs) : a.capBudgetBytes = max 0 a.allowedMib * mibBytes := by
  have hidem : ∀ x : ℤ, max 0 (max 0 x) = max 0 x := fun x => max_eq_right (le_max_left 0 x)
  unfold capBudgetBytes vramCapBatchBudgetBytes allowedMib
  dsimp only
  rw [max_min_distrib_left, hidem, hidem, hidem]

theorem capBudgetBytes_nonneg (a : PlanArgs) : 0 ≤ a.capBudgetBytes := by
  rw [capBudgetBytes_eq, mibBytes]
  omega

/-- The fill fraction only ever lowers a positive budget. -/
theorem budgetBytes_le_capBudgetBytes (h : 0 < a.capBudgetBytes) :
    a.budgetBytes ≤ a.capBudgetBytes := by
  have hcap : (0 : ℚ) ≤ a.capBudgetBytes := by exact_mod_cast h.le
  simp only [budgetBytes, id_eq]
  split_ifs with hfill
  · have hpos : 0 ≤ clampFillFraction a.budgetFillFraction :=
      le_trans (by norm_num) (le_clamp _ (2 / 5 : ℚ) 1)
    have hone : clampFillFraction a.budgetFillFraction ≤ 1 := clamp_le (by norm_num)
    have hint : (pyInt (a.capBudgetBytes * clampFillFraction a.budgetFillFraction) : ℚ)
        ≤ a.capBudgetBytes :=
      (pyInt_le (mul_nonneg hcap hpos)).trans (mul_le_of_le_one_right hcap hone)
    have hint' : pyInt (a.capBudgetBytes * clampFillFraction a.budgetFillFraction)
        ≤ a.capBudgetBytes := by exact_mod_cast hint
    omega
  · exact le_rfl

/-- Without any room under the caps the budget is at most the one-byte floor. -/
theorem budgetBytes_le_one [Rounds rnd] (h : a.capBudgetBytes ≤ 0) : a.budgetBytes rnd ≤ 1 := by
  have h0 : a.capBudgetBytes = 0 := le_antisymm h (capBudgetBytes_nonneg a)
  have hint : pyInt 0 = 0 := by simpa using pyInt_intCast 0
  simp only [budgetBytes, h0, Int.cast_zero, rnd_zero rnd, zero_mul, hint]
  split_ifs <;> omega

/-! ### Lanes -/

theorem one_le_sequentialLanes (a : PlanArgs) (rnd : ℚ → ℚ := id) : 1 ≤ a.sequentialLanes rnd := by
  simp only [sequentialLanes]
  split_ifs <;> omega

theorem one_le_planLanes (a : PlanArgs) (rnd : ℚ → ℚ := id) : 1 ≤ a.planLanes rnd := by
  unfold planLanes
  split_ifs
  · exact one_le_sequentialLanes a rnd
  · exact one_le_cudaLaneCount _ _ _ _ _ _ rnd

theorem one_le_planConc (a : PlanArgs) (rnd : ℚ → ℚ := id) : 1 ≤ a.planConc rnd := by
  unfold planConc
  split_ifs
  · rfl
  · exact one_le_planLanes a rnd

theorem planConc_le_planLanes (a : PlanArgs) (rnd : ℚ → ℚ := id) :
    a.planConc rnd ≤ a.planLanes rnd := by
  unfold planConc
  split_ifs
  · exact one_le_planLanes a rnd
  · rfl

/-! ### The batch -/

theorem le_limitBatch_iff {n m : ℤ} : n ≤ a.limitBatch m ↔ n ≤ m ∧
    (0 < a.explicitMaxBatch → n ≤ a.explicitMaxBatch) ∧
    (0 < a.explicitBatch → n ≤ a.explicitBatch) := by
  simp only [limitBatch]
  split_ifs <;> omega

theorem baseBatchPerLane_nonneg (a : PlanArgs) (rnd : ℚ → ℚ := id) : 0 ≤ a.baseBatchPerLane rnd := by
  simp only [baseBatchPerLane]
  split_ifs <;> omega

theorem baseBatchPerLane_le_select (a : PlanArgs) (rnd : ℚ → ℚ := id) : a.baseBatchPerLane rnd ≤
    selectBatchSize (a.perLaneBudget rnd) a.difficulty a.explicitMaxBatch rnd := by
  simp only [baseBatchPerLane]
  split_ifs
  · exact selectBatchSize_nonneg _ _ _ rnd
  · exact min_le_right _ _
  · exact le_rfl

theorem one_le_perLaneBudget (a : PlanArgs) (rnd : ℚ → ℚ := id) : 1 ≤ a.perLaneBudget rnd := by
  unfold perLaneBudget
  split_ifs <;> exact le_max_left _ _

/-- The share of one lane is the budget divided by the resident lanes, but at least one byte. -/
theorem perLaneBudget_eq (a : PlanArgs) (rnd : ℚ → ℚ := id) :
    a.perLaneBudget rnd = max 1 (a.budgetBytes rnd / a.planConc rnd) := by
  have hc := one_le_planConc a rnd
  unfold perLaneBudget
  split_ifs with hseq
  · rw [planConc, if_pos hseq, Int.ediv_one]
  · rw [max_eq_right hc]

/-- A lane that gets a batch at all has more than the one-byte floor as its share. -/
theorem one_lt_perLaneBudget [Rounds rnd] (hd : 0 < a.difficulty) (hb : 0 < a.baseBatchPerLane rnd) :
    1 < a.perLaneBudget rnd := by
  rcases (one_le_perLaneBudget a rnd).lt_or_eq with h | h
  · exact h
  · have hle := baseBatchPerLane_le_select a rnd
    rw [← h, selectBatchSize_one hd] at hle
    omega

theorem budgetBytes_pos [Rounds rnd] (hd : 0 < a.difficulty) (hb : 0 < a.baseBatchPerLane rnd) :
    0 < a.budgetBytes rnd := by
  have hshare := one_lt_perLaneBudget hd hb
  rw [perLaneBudget_eq a rnd] at hshare
  have hquot : 1 < a.budgetBytes rnd / a.planConc rnd := by omega
  by_contra hneg
  have := Int.ediv_le_ediv (lt_of_lt_of_le one_pos (one_le_planConc a rnd)) (not_lt.mp hneg)
  rw [Int.zero_ediv] at this
  omega

/-- A batch needs room under the caps. -/
theorem capBudgetBytes_pos [Rounds rnd] (hd : 0 < a.difficulty) (hb : 0 < a.baseBatchPerLane rnd) :
    0 < a.capBudgetBytes := by
  by_contra hcap
  have hB1 : a.budgetBytes rnd ≤ 1 := budgetBytes_le_one (not_lt.mp hcap)
  have hshare := one_lt_perLaneBudget hd hb
  have hle := Int.ediv_le_self (a.planConc rnd) (budgetBytes_pos hd hb).le
  rw [perLaneBudget_eq a rnd] at hshare
  omega

theorem planBatchPerLane_eq_zero (hb : ¬ 0 < a.baseBatchPerLane rnd) : a.planBatchPerLane rnd = 0 := by
  have h0 : a.baseBatchPerLane rnd = 0 := le_antisymm (not_lt.mp hb) (baseBatchPerLane_nonneg a rnd)
  simp [planBatchPerLane, h0]

/-- The top-up count, `max_bpl` before the explicit limits. -/
def fitPerLane (a : PlanArgs) : ℤ := fitCount a.budgetBytes (bytesPerAttempt a.difficulty) / a.planConc

/-- The split count never exceeds the count for the whole budget. -/
theorem baseBatchPerLane_le_limitBatch (hd : 0 < a.difficulty) (hb : 0 < a.baseBatchPerLane) :
    a.baseBatchPerLane ≤ a.limitBatch a.fitPerLane := by
  have hshare := one_lt_perLaneBudget hd hb
  have hsel := baseBatchPerLane_le_select a
  have hconc : 0 < a.planConc := lt_of_lt_of_le one_pos (one_le_planConc a)
  rw [le_limitBatch_iff]
  refine ⟨?_, fun hmax => hsel.trans (selectBatchSize_le_explicit hmax), fun hexp => ?_⟩
  · have hfit := selectBatchSize_le_fitCount a.explicitMaxBatch hd (lt_trans one_pos hshare)
    rw [perLaneBudget_eq] at hshare hfit hsel
    rw [max_eq_right (by omega)] at hfit hsel
    exact hsel.trans (hfit.trans (fitCount_ediv_le (bytesPerAttempt_pos hd) hconc))
  · simp only [baseBatchPerLane]
    split_ifs
    · exact hexp.le
    · exact min_le_left _ _

/-- The batch of a plan is the topped-up count under the explicit limits. -/
theorem planBatchPerLane_eq (hd : 0 < a.difficulty) (hb : 0 < a.baseBatchPerLane) :
    a.planBatchPerLane = a.limitBatch a.fitPerLane := by
  have hB := budgetBytes_pos hd hb
  have hw := bytesPerAttempt_pos hd
  have hB' : (0 : ℚ) ≤ a.budgetBytes := by exact_mod_cast hB.le
  have htop : pyInt (a.budgetBytes / bytesPerAttempt a.difficulty) / max 1 a.planConc
      = a.fitPerLane := by
    rw [pyInt_of_nonneg (div_nonneg hB' hw.le), max_eq_right (one_le_planConc a)]
    rfl
  simp only [planBatchPerLane, id_eq]
  rw [if_pos ⟨hb, hB⟩, if_pos hw, htop, max_eq_right (baseBatchPerLane_le_limitBatch hd hb)]

theorem baseBatchPerLane_pos (hb : 0 < a.planBatchPerLane rnd) : 0 < a.baseBatchPerLane rnd := by
  by_contra h
  rw [planBatchPerLane_eq_zero h] at hb
  exact lt_irrefl _ hb

/-- Without a difficulty nothing is sized. -/
theorem planBatchPerLane_eq_zero_of_difficulty (hd : a.difficulty ≤ 0) :
    a.planBatchPerLane rnd = 0 := by
  apply planBatchPerLane_eq_zero
  rw [not_lt]
  exact (baseBatchPerLane_le_select a rnd).trans (selectBatchSize_of_difficulty _ _ hd).le

theorem planBatchPerLane_nonneg (hd : 0 < a.difficulty) : 0 ≤ a.planBatchPerLane := by
  by_cases hb : 0 < a.baseBatchPerLane
  · rw [planBatchPerLane_eq hd hb]
    exact hb.le.trans (baseBatchPerLane_le_limitBatch hd hb)
  · rw [planBatchPerLane_eq_zero hb]

/-- Batch sizes within the budget and the explicit limits. -/
def fittingBatches (a : PlanArgs) : Set ℤ :=
  {n | (a.planConc : ℚ) * n * bytesPerAttempt a.difficulty ≤ a.budgetBytes ∧
    (0 < a.explicitMaxBatch → n ≤ a.explicitMaxBatch) ∧
    (0 < a.explicitBatch → n ≤ a.explicitBatch)}

theorem mem_fittingBatches_iff {n : ℤ} (hd : 0 < a.difficulty) :
    n ∈ a.fittingBatches ↔ n ≤ a.limitBatch a.fitPerLane := by
  have hconc : 0 < a.planConc := lt_of_lt_of_le one_pos (one_le_planConc a)
  rw [le_limitBatch_iff, fitPerLane, le_fitCount_ediv_iff (bytesPerAttempt_pos hd) hconc]
  rfl

theorem isGreatest_planBatchPerLane (hd : 0 < a.difficulty) (hb : 0 < a.planBatchPerLane) :
    IsGreatest a.fittingBatches a.planBatchPerLane := by
  rw [planBatchPerLane_eq hd (baseBatchPerLane_pos hb)]
  exact ⟨(mem_fittingBatches_iff hd).mpr le_rfl, fun _ hn => (mem_fittingBatches_iff hd).mp hn⟩

/-- Any batch the planner picks, also none, stays inside the budget. -/
theorem planConc_mul_planBatchPerLane_le (hd : 0 < a.difficulty) (hB : 0 ≤ a.budgetBytes) :
    (a.planConc : ℚ) * a.planBatchPerLane * bytesPerAttempt a.difficulty ≤ a.budgetBytes := by
  by_cases hb : 0 < a.baseBatchPerLane
  · have hmem : a.planBatchPerLane ∈ a.fittingBatches := by
      rw [mem_fittingBatches_iff hd, planBatchPerLane_eq hd hb]
    exact hmem.1
  · rw [planBatchPerLane_eq_zero hb]
    simpa using hB

/-! ### The plan -/

@[simp]
theorem effectiveConcurrentVramLanes_rawPlan (a : PlanArgs) :
    (a.rawPlan rnd).effectiveConcurrentVramLanes = a.planConc rnd := by
  have h1 := one_le_planConc a rnd
  have h2 := planConc_le_planLanes a rnd
  unfold rawPlan
  rw [makePlan_effectiveConcurrentVramLanes]
  omega

theorem budgetBytes_nonneg (a : PlanArgs) (rnd : ℚ → ℚ := id) : 0 ≤ a.budgetBytes rnd := by
  have := capBudgetBytes_nonneg a
  simp only [budgetBytes]
  split_ifs <;> omega

theorem batchVramBytes_rawPlan (a : PlanArgs) (rnd : ℚ → ℚ := id) : (a.rawPlan rnd).batchVramBytes =
    a.planConc rnd * estimateBatchVramBytes (a.planBatchPerLane rnd) a.difficulty rnd := by
  have hconc := one_le_planConc a rnd
  have hlanes := planConc_le_planLanes a rnd
  show estimateBatchVramBytes _ _ rnd * max 1 (min (a.planConc rnd) (max 1 (a.planLanes rnd))) = _
  rw [max_eq_right (by omega), min_eq_left (by omega), mul_comm]

theorem batchVramMib_rawPlan (a : PlanArgs) (rnd : ℚ → ℚ := id) : (a.rawPlan rnd).batchVramMib =
    a.planConc rnd * estimateBatchVramBytes (a.planBatchPerLane rnd) a.difficulty rnd / mibBytes := by
  rw [← batchVramBytes_rawPlan a rnd]
  rfl

/-- Room under the caps is a whole number of MiB. -/
theorem capBudgetBytes_eq_allowedMib (hcap : 0 < a.capBudgetBytes) :
    0 < a.allowedMib ∧ a.capBudgetBytes = a.allowedMib * mibBytes := by
  have hallowed : 0 < a.allowedMib := by
    rw [capBudgetBytes_eq] at hcap
    by_contra h
    rw [max_eq_left (not_lt.mp h), zero_mul] at hcap
    exact lt_irrefl _ hcap
  refine ⟨hallowed, ?_⟩
  rw [capBudgetBytes_eq, max_eq_right hallowed.le]

/-- The batches of a plan, weighed exactly, stay inside the room under the caps. -/
theorem planConc_mul_planBatchPerLane_le_allowedMib (hd : 0 < a.difficulty)
    (hcap : 0 < a.capBudgetBytes) :
    (a.planConc : ℚ) * a.planBatchPerLane * bytesPerAttempt a.difficulty
      ≤ (a.allowedMib * mibBytes : ℤ) := by
  rw [← (capBudgetBytes_eq_allowedMib hcap).2]
  have hle : (a.budgetBytes : ℚ) ≤ a.capBudgetBytes := by
    exact_mod_cast budgetBytes_le_capBudgetBytes hcap
  exact (planConc_mul_planBatchPerLane_le hd (budgetBytes_nonneg a)).trans hle

/-- A batch inside the budget occupies no more MiB than the caps allow. -/
theorem batchVramMib_rawPlan_le (hd : 0 < a.difficulty) (hcap : 0 < a.capBudgetBytes) :
    a.rawPlan.batchVramMib ≤ a.allowedMib := by
  have hconc := one_le_planConc a
  have hfoot := mul_estimateBatchVramBytes_le (by omega) (planBatchPerLane_nonneg hd) hd
    (planConc_mul_planBatchPerLane_le_allowedMib hd hcap)
  rw [batchVramMib_rawPlan, ← Int.mul_ediv_cancel a.allowedMib mibBytes_pos.ne']
  exact Int.ediv_le_ediv mibBytes_pos hfoot

theorem withinLimits_of_batchVramMib_le (hbatch : (a.rawPlan rnd).batchVramMib ≤ a.allowedMib) :
    (a.rawPlan rnd).withinLimits = true := by
  have hused : (a.rawPlan rnd).projectedUsedMib = max 0 (max 0 a.foreignUsedMib)
      + (a.rawPlan rnd).batchVramMib + (max 0 a.runtimeOverheadMib + max 0 a.safetyMarginMib) := rfl
  have hfree : (a.rawPlan rnd).projectedHeadroomMib
      = max 0 (a.totalBytes / mibBytes - (a.rawPlan rnd).projectedUsedMib) := rfl
  unfold allowedMib at hbatch
  rw [CudaVramPlan.withinLimits_iff, hfree, hused]
  constructor
  · show _ ≤ a.targetMib
    omega
  · show a.desktopHeadroomMib ≤ _
    omega

/-- With any room under the caps the plan keeps within both of them. -/
theorem withinLimits_rawPlan (hd : 0 < a.difficulty) (hcap : 0 < a.capBudgetBytes) :
    a.rawPlan.withinLimits = true := withinLimits_of_batchVramMib_le (batchVramMib_rawPlan_le hd hcap)

end PlanArgs

/-! ### The clamp -/

/-- A plan that fits the caps is returned as it is. -/
theorem clampPlanToCaps_of_withinLimits {p : CudaVramPlan} (h : p.withinLimits = true) :
    clampPlanToCaps p rnd = p := if_pos h

/-- **Rule for the clamp loop.**  What holds of the plan to clamp and of every candidate the loop can
try holds of its answer; `I` is the invariant of lanes, batch and concurrency. -/
theorem clampLoop_rule {p : CudaVramPlan} {P : CudaVramPlan → Prop} {I : ℤ → ℤ → ℤ → Prop}
    (hp : P p) (hdone : ∀ lanes batch conc, I lanes batch conc →
      P (p.resize batch lanes p.totalMib conc rnd))
    (hcut : ∀ lanes batch conc, I lanes batch conc → 1 < batch →
      I lanes (max 1 (pyInt (rnd (rnd batch * rnd (49 / 50))))) conc)
    (hdrop : ∀ lanes batch conc, I lanes batch conc → 1 < lanes → 1 < conc →
      I (lanes - 1) (p.splitBatch (min conc (lanes - 1)) rnd) (min conc (lanes - 1))) :
    ∀ (fuel : ℕ) (lanes batch conc : ℤ), I lanes batch conc →
      P (clampLoop p fuel lanes batch conc rnd) := by
  intro fuel
  induction fuel with
  | zero => intro lanes batch conc _; exact hp
  | succ fuel ih =>
    intro lanes batch conc hI
    rw [clampLoop]
    dsimp only
    split_ifs with hfits hbatch hlanes
    · exact hdone _ _ _ hI
    · exact ih _ _ _ (hcut _ _ _ hI hbatch)
    · exact ih _ _ _ (hdrop _ _ _ hI hlanes.1 hlanes.2)
    · exact hp

/-! ### `plan_cuda_batch` -/

/-- An empty plan with nothing to split stays empty. -/
theorem planCudaBatch_batchPerLane_eq_zero {a : PlanArgs} (hraw : a.planBatchPerLane rnd = 0)
    (hsplit : ∀ conc, (a.rawPlan rnd).splitBatch conc rnd = 0) :
    (planCudaBatch a rnd).batchPerLane = 0 := by
  have hbatch : (a.rawPlan rnd).batchPerLane = 0 := hraw
  unfold planCudaBatch clampPlanToCaps
  split_ifs
  · exact hbatch
  · rw [hbatch]
    refine clampLoop_rule (P := fun q => q.batchPerLane = 0) (I := fun _ batch _ => batch = 0)
      hbatch ?_ ?_ ?_ _ _ _ _ rfl
    · rintro lanes batch conc rfl
      rfl
    · rintro lanes batch conc rfl hpos
      omega
    · rintro lanes batch conc - - -
      exact hsplit _

theorem difficulty_pos_of_batch {a : PlanArgs} (hb : 0 < (planCudaBatch a rnd).batchPerLane) :
    0 < a.difficulty := by
  by_contra hd
  rw [not_lt] at hd
  have hzero : (planCudaBatch a rnd).batchPerLane = 0 :=
    planCudaBatch_batchPerLane_eq_zero (PlanArgs.planBatchPerLane_eq_zero_of_difficulty hd)
      fun _ => selectBatchSize_of_difficulty _ _ hd
  omega

/-- Without any room under the caps no split holds an attempt. -/
theorem splitBatch_rawPlan_eq_zero [Rounds rnd] {a : PlanArgs} (hd : 0 < a.difficulty)
    (hcap : ¬ 0 < a.capBudgetBytes) (conc : ℤ) : (a.rawPlan rnd).splitBatch conc rnd = 0 := by
  have hle := Int.ediv_le_self conc (PlanArgs.budgetBytes_nonneg a rnd)
  have hone : a.budgetBytes rnd ≤ 1 := PlanArgs.budgetBytes_le_one (not_lt.mp hcap)
  have hfloor : max 1 (a.budgetBytes rnd / conc) = 1 := max_eq_left (hle.trans hone)
  show selectBatchSize (max 1 (a.budgetBytes rnd / conc)) a.difficulty 0 rnd = 0
  rw [hfloor]
  exact selectBatchSize_one hd

/-- The final clamp of the planner acts on empty plans only, if its first choice keeps the caps. -/
theorem planCudaBatch_eq_rawPlan_of_withinLimits [Rounds rnd] {a : PlanArgs} (hd : 0 < a.difficulty)
    (hlimits : 0 < a.capBudgetBytes → (a.rawPlan rnd).withinLimits = true)
    (hb : 0 < (planCudaBatch a rnd).batchPerLane) : planCudaBatch a rnd = a.rawPlan rnd := by
  by_cases hcap : 0 < a.capBudgetBytes
  · exact clampPlanToCaps_of_withinLimits (hlimits hcap)
  · exfalso
    have hraw : a.planBatchPerLane rnd = 0 :=
      PlanArgs.planBatchPerLane_eq_zero fun hbase => hcap (PlanArgs.capBudgetBytes_pos hd hbase)
    have hzero := planCudaBatch_batchPerLane_eq_zero hraw (splitBatch_rawPlan_eq_zero hd hcap)
    omega

theorem planCudaBatch_eq_rawPlan {a : PlanArgs} (hd : 0 < a.difficulty)
    (hb : 0 < (planCudaBatch a).batchPerLane) : planCudaBatch a = a.rawPlan :=
  planCudaBatch_eq_rawPlan_of_withinLimits hd (PlanArgs.withinLimits_rawPlan hd) hb

/-- **The planner returns the largest plan that fits.**  Whenever a plan has a batch, the batches
resident at once stay inside the budget, foreign usage, overhead, margin and batch stay inside both
caps, and no larger batch per lane fits the budget and the explicit limits in force (`0` and below
mean unused). -/
theorem planCudaBatch_isGreatest (a : PlanArgs) (hd : 1 ≤ a.difficulty)
    (hb : 0 < (planCudaBatch a).batchPerLane) :
    let p := planCudaBatch a
    let c := p.effectiveConcurrentVramLanes
    let used := max 0 a.foreignUsedMib + max 0 a.runtimeOverheadMib + max 0 a.safetyMarginMib
      + p.batchVramMib
    ((c : ℚ) * p.batchPerLane * bytesPerAttempt a.difficulty ≤ p.budgetBytes) ∧
    (p.withinLimits = true ∧ used ≤ a.targetMib ∧
      a.desktopHeadroomMib ≤ a.totalBytes / mibBytes - used) ∧
    IsGreatest {n : ℤ | (c : ℚ) * n * bytesPerAttempt a.difficulty ≤ p.budgetBytes ∧
      (0 < a.explicitMaxBatch → n ≤ a.explicitMaxBatch) ∧
      (0 < a.explicitBatch → n ≤ a.explicitBatch)} p.batchPerLane := by
  have hd' : 0 < a.difficulty := hd
  have hraw := planCudaBatch_eq_rawPlan hd' hb
  rw [hraw] at hb
  have hbase : 0 < a.baseBatchPerLane := PlanArgs.baseBatchPerLane_pos hb
  have hcap : 0 < a.capBudgetBytes := PlanArgs.capBudgetBytes_pos hd' hbase
  have hgreatest : IsGreatest a.fittingBatches a.rawPlan.batchPerLane :=
    PlanArgs.isGreatest_planBatchPerLane hd' hb
  have hbatch := PlanArgs.batchVramMib_rawPlan_le hd' hcap
  unfold PlanArgs.allowedMib at hbatch
  intro p c used
  have hc : c = a.planConc := by
    show (planCudaBatch a).effectiveConcurrentVramLanes = _
    rw [hraw, PlanArgs.effectiveConcurrentVramLanes_rawPlan]
  have hp : p = a.rawPlan := hraw
  have hused : used = max 0 a.foreignUsedMib + max 0 a.runtimeOverheadMib
      + max 0 a.safetyMarginMib + a.rawPlan.batchVramMib := by rw [← hp]
  rw [hc, hused, hp]
  refine ⟨hgreatest.1.1, ⟨PlanArgs.withinLimits_rawPlan hd' hcap, ?_, ?_⟩, hgreatest⟩
  · omega
  · omega

/-- A 24 GiB card at difficulty `200` gets eight lanes, all resident at once. -/
theorem planCudaBatch_isGreatest_lanes :
    let a : PlanArgs :=
      { totalBytes := 24576 * mibBytes
        freeBytes := 23000 * mibBytes
        targetMib := 20000
        desktopHeadroomMib := 2058
        difficulty := 200
        referenceDifficulty := 1100
        explicitMaxBatch := 40000
        foreignUsedMib := 600 }
    (planCudaBatch a).effectiveConcurrentVramLanes = 8 ∧ (planCudaBatch a).batchPerLane = 11094 ∧
      IsGreatest {n : ℤ | ((planCudaBatch a).effectiveConcurrentVramLanes : ℚ) * n
          * bytesPerAttempt a.difficulty ≤ (planCudaBatch a).budgetBytes ∧
        (0 < a.explicitMaxBatch → n ≤ a.explicitMaxBatch) ∧
        (0 < a.explicitBatch → n ≤ a.explicitBatch)} (planCudaBatch a).batchPerLane := by
  intro a
  have hd : 1 ≤ a.difficulty := by decide
  have hbatch : (planCudaBatch a).batchPerLane = 11094 := by decide +kernel
  have hb : 0 < (planCudaBatch a).batchPerLane := by
    rw [hbatch]
    decide
  exact ⟨by decide +kernel, hbatch, (planCudaBatch_isGreatest a hd hb).2.2⟩

end XenMiner.VramBatch
