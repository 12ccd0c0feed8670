import XenMiner.Mining.Equiv.VramBatch

/-!
# Plans in floats

A batch that is sized and weighed with rounded operations may weigh more than its budget, but only by
the factor of the few operations between the two (`batchVramBytes_le`).  On a card of up to `2^48` MiB
that is less than one MiB, so a plan keeps the caps (`batchVramMib_le`), and the planner returns it
unclamped (`planCudaBatch_eq_rawPlan_of_small`).
-/

namespace XenMiner.VramBatch

open PyNum Binary64

variable {rnd : ℚ → ℚ} [Rounds rnd]

/-! ### Counts and weights -/

/-- Attempts that are counted for a budget weigh the budget, or six operations more. -/
theorem mul_bytesPerAttempt_le {n b d : ℤ} (hd : 0 < d) (hb : 0 ≤ b)
    (hn : n ≤ pyInt (rnd (rnd b / bytesPerAttempt d rnd))) :
    (n : ℚ) * bytesPerAttempt d ≤ b * slack ^ 6 := by
  have hb' : (0 : ℚ) ≤ b := by exact_mod_cast hb
  have hw := bytesPerAttempt_pos hd
  have hw' : 0 < bytesPerAttempt d rnd := bytesPerAttempt_rnd_pos hd
  have hcast : Near 1 (rnd b) (b : ℚ) := (Near.refl _).step hb'
  have hnonneg : 0 ≤ rnd b / bytesPerAttempt d rnd := div_nonneg (rnd_nonneg hb') hw'.le
  have hquot : Near 6 (rnd (rnd b / bytesPerAttempt d rnd)) (b / bytesPerAttempt d) :=
    (hcast.div (near_bytesPerAttempt hd) (rnd_nonneg hb') hb' hw' hw).step hnonneg
  calc (n : ℚ) * bytesPerAttempt d
      ≤ pyInt (rnd (rnd b / bytesPerAttempt d rnd)) * bytesPerAttempt d :=
        mul_le_mul_of_nonneg_right (by exact_mod_cast hn) hw.le
    _ ≤ rnd (rnd b / bytesPerAttempt d rnd) * bytesPerAttempt d :=
        mul_le_mul_of_nonneg_right (pyInt_le (rnd_nonneg hnonneg)) hw.le
    _ ≤ b / bytesPerAttempt d * slack ^ 6 * bytesPerAttempt d :=
        mul_le_mul_of_nonneg_right hquot.le hw.le
    _ = b * slack ^ 6 := by field_simp

/-- The estimate of a batch is six operations from its exact weight at most. -/
theorem estimateBatchVramBytes_le_mul {b d : ℤ} (hb : 0 ≤ b) (hd : 0 < d) :
    (estimateBatchVramBytes b d rnd : ℚ) ≤ b * bytesPerAttempt d * slack ^ 6 := by
  have hb' : (0 : ℚ) ≤ b := by exact_mod_cast hb
  have hw := bytesPerAttempt_pos hd
  have hw' : 0 < bytesPerAttempt d rnd := bytesPerAttempt_rnd_pos hd
  have hcast : Near 1 (rnd b) (b : ℚ) := (Near.refl _).step hb'
  have hnonneg : 0 ≤ rnd b * bytesPerAttempt d rnd := mul_nonneg (rnd_nonneg hb') hw'.le
  have hweight : Near 6 (rnd (rnd b * bytesPerAttempt d rnd)) (b * bytesPerAttempt d) :=
    (hcast.mul (near_bytesPerAttempt hd) (rnd_nonneg hb') hb' hw'.le hw.le).step hnonneg
  unfold estimateBatchVramBytes
  split_ifs
  · rw [Int.cast_zero]
    exact mul_nonneg (mul_nonneg hb' hw.le) (slack_pow_pos 6).le
  · exact (pyInt_le (rnd_nonneg hnonneg)).trans hweight.le

-- a byte below the exact estimate, and by it a MiB
example : estimateBatchVramBytes 1024000 1 Binary64.round = 1049624575 ∧
    estimateBatchVramBytes 1024000 1 = 1049624576 := by decide +kernel

namespace PlanArgs

variable {a : PlanArgs}

/-! ### The budget -/

/-- A fill fraction below `0.999` lowers the budget, rounded or not. -/
theorem budgetBytes_le_cap (h : 0 < a.capBudgetBytes) : a.budgetBytes rnd ≤ a.capBudgetBytes := by
  have hcap : (0 : ℚ) ≤ a.capBudgetBytes := by exact_mod_cast h.le
  simp only [budgetBytes]
  split_ifs with hfill
  · generalize hf : clampFillFraction a.budgetFillFraction rnd = fill at hfill
    have hnonneg : 0 ≤ fill := by
      have hlow : 0 ≤ rnd (2 / 5) := rnd_nonneg (by norm_num)
      rw [← hf]
      exact hlow.trans (le_clamp _ _ _)
    have hlimit : rnd (999 / 1000) ≤ 999 / 1000 * (1 + 1 / 2 ^ 53) := (rnd_bounds (by norm_num)).2
    have hcast : Near 1 (rnd a.capBudgetBytes) (a.capBudgetBytes : ℚ) := (Near.refl _).step hcap
    have hprod : 0 ≤ rnd a.capBudgetBytes * fill := mul_nonneg (rnd_nonneg hcap) hnonneg
    have hmul := hcast.mul (Near.refl fill) (rnd_nonneg hcap) hcap hnonneg hnonneg
    have hnear : Near 2 (rnd (rnd a.capBudgetBytes * fill)) (a.capBudgetBytes * fill) := hmul.step hprod
    have hless : fill * slack ^ 2 ≤ 1 := by
      calc fill * slack ^ 2 ≤ 999 / 1000 * (1 + 1 / 2 ^ 53) * slack ^ 2 :=
            mul_le_mul_of_nonneg_right (hfill.le.trans hlimit) (slack_pow_pos 2).le
        _ ≤ 1 := by norm_num [slack]
    have hint : (pyInt (rnd (rnd a.capBudgetBytes * fill)) : ℚ) ≤ a.capBudgetBytes := by
      calc (pyInt (rnd (rnd a.capBudgetBytes * fill)) : ℚ)
          ≤ rnd (rnd a.capBudgetBytes * fill) := pyInt_le (rnd_nonneg hprod)
        _ ≤ a.capBudgetBytes * fill * slack ^ 2 := hnear.le
        _ = a.capBudgetBytes * (fill * slack ^ 2) := mul_assoc _ _ _
        _ ≤ a.capBudgetBytes := mul_le_of_le_one_right hcap hless
    have hint' : pyInt (rnd (rnd a.capBudgetBytes * fill)) ≤ a.capBudgetBytes := by exact_mod_cast hint
    omega
  · exact le_rfl

theorem limitBatch_le (a : PlanArgs) (n : ℤ) : a.limitBatch n ≤ n := (le_limitBatch_iff.mp le_rfl).1

/-- The batches that are resident at once weigh the budget, or six operations more. -/
theorem planConc_mul_planBatchPerLane_le_mul (hd : 0 < a.difficulty) (hb : 0 < a.baseBatchPerLane rnd) :
    (a.planConc rnd : ℚ) * a.planBatchPerLane rnd * bytesPerAttempt a.difficulty ≤
      a.budgetBytes rnd * slack ^ 6 := by
  have hB := budgetBytes_pos hd hb
  have hw := bytesPerAttempt_pos hd
  have hw' : 0 < bytesPerAttempt a.difficulty rnd := bytesPerAttempt_rnd_pos hd
  have hconc : 0 < a.planConc rnd := one_pos.trans_le (one_le_planConc a rnd)
  have hshare := one_lt_perLaneBudget hd hb
  have hquot := perLaneBudget_eq a rnd
  have hshare' : a.perLaneBudget rnd = a.budgetBytes rnd / a.planConc rnd := by omega
  -- the count before the top-up, and the one after it
  have hbase : a.baseBatchPerLane rnd ≤
      pyInt (rnd (rnd (a.perLaneBudget rnd) / bytesPerAttempt a.difficulty rnd)) := by
    refine (baseBatchPerLane_le_select a rnd).trans ?_
    simp only [selectBatchSize, memoryLimitedBatchSize_add_reserve_rnd hd (one_pos.trans hshare)]
    split_ifs
    · have hbytes : 0 ≤ rnd ((_ : ℤ) : ℚ) := rnd_nonneg (by exact_mod_cast (one_pos.trans hshare).le)
      exact pyInt_nonneg (rnd_nonneg (div_nonneg hbytes hw'.le))
    · exact min_le_left _ _
    · exact le_rfl
  have hbase' := mul_bytesPerAttempt_le hd (one_pos.trans hshare).le hbase
  have htop : (pyInt (rnd (rnd (a.budgetBytes rnd) / bytesPerAttempt a.difficulty rnd)) : ℚ) *
      bytesPerAttempt a.difficulty ≤ a.budgetBytes rnd * slack ^ 6 :=
    mul_bytesPerAttempt_le hd hB.le le_rfl
  have hslack := (slack_pow_pos 6).le
  simp only [planBatchPerLane]
  rw [if_pos ⟨hb, hB⟩, if_pos hw']
  rcases max_choice (a.baseBatchPerLane rnd) (a.limitBatch (pyInt (rnd (rnd (a.budgetBytes rnd) /
    bytesPerAttempt a.difficulty rnd)) / max 1 (a.planConc rnd))) with heq | heq
  · rw [heq, mul_assoc]
    have hsplit : a.planConc rnd * a.perLaneBudget rnd ≤ a.budgetBytes rnd := by
      rw [hshare', mul_comm]
      exact Int.ediv_mul_le _ hconc.ne'
    calc (a.planConc rnd : ℚ) * (a.baseBatchPerLane rnd * bytesPerAttempt a.difficulty)
        ≤ a.planConc rnd * (a.perLaneBudget rnd * slack ^ 6) :=
          mul_le_mul_of_nonneg_left hbase' (by exact_mod_cast hconc.le)
      _ = (a.planConc rnd * a.perLaneBudget rnd : ℤ) * slack ^ 6 := by push_cast; ring
      _ ≤ a.budgetBytes rnd * slack ^ 6 := mul_le_mul_of_nonneg_right (by exact_mod_cast hsplit) hslack
  · rw [heq, max_eq_right hconc]
    set total := pyInt (rnd (rnd (a.budgetBytes rnd) / bytesPerAttempt a.difficulty rnd))
    have hsplit : a.planConc rnd * a.limitBatch (total / a.planConc rnd) ≤ total := by
      calc a.planConc rnd * a.limitBatch (total / a.planConc rnd)
          ≤ a.planConc rnd * (total / a.planConc rnd) :=
            mul_le_mul_of_nonneg_left (limitBatch_le a _) hconc.le
        _ ≤ total := Int.mul_ediv_self_le hconc.ne'
    exact (mul_le_mul_of_nonneg_right (by exact_mod_cast hsplit) hw.le).trans htop

/-! ### The memory of a plan -/

/-- The memory of a plan is the room under the caps, or twelve operations more. -/
theorem batchVramBytes_le (hd : 0 < a.difficulty) (hcap : 0 < a.capBudgetBytes) :
    ((a.rawPlan rnd).batchVramBytes : ℚ) ≤
        a.planConc rnd * a.planBatchPerLane rnd * bytesPerAttempt a.difficulty * slack ^ 6 ∧
      (a.planConc rnd : ℚ) * a.planBatchPerLane rnd * bytesPerAttempt a.difficulty ≤
        (a.allowedMib * mibBytes : ℤ) * slack ^ 6 := by
  have hconc : (0 : ℚ) ≤ a.planConc rnd := by
    exact_mod_cast zero_le_one.trans (one_le_planConc a rnd)
  have hallowed := capBudgetBytes_eq_allowedMib hcap
  have hslack := (slack_pow_pos 6).le
  by_cases hb : 0 < a.baseBatchPerLane rnd
  · have hbatch : 0 ≤ a.planBatchPerLane rnd := by
      simp only [planBatchPerLane]
      split_ifs <;> omega
    constructor
    · rw [batchVramBytes_rawPlan a rnd, Int.cast_mul, mul_assoc, mul_assoc, ← mul_assoc _ _ (slack ^ 6)]
      exact mul_le_mul_of_nonneg_left (estimateBatchVramBytes_le_mul hbatch hd) hconc
    · rw [← hallowed.2]
      exact (planConc_mul_planBatchPerLane_le_mul hd hb).trans
        (mul_le_mul_of_nonneg_right (by exact_mod_cast budgetBytes_le_cap hcap) hslack)
  · have hzero := planBatchPerLane_eq_zero hb
    have hroom : (0 : ℚ) ≤ (a.allowedMib * mibBytes : ℤ) := by
      rw [← hallowed.2]
      exact_mod_cast hcap.le
    rw [batchVramBytes_rawPlan a rnd, hzero]
    constructor
    · simp [estimateBatchVramBytes]
    · simpa using mul_nonneg hroom hslack

theorem batchVramMib_eq (a : PlanArgs) (rnd : ℚ → ℚ) :
    (a.rawPlan rnd).batchVramMib = (a.rawPlan rnd).batchVramBytes / mibBytes := rfl

/-- On a card of up to `2^48` MiB the operations do not add up to a MiB. -/
theorem batchVramMib_le (hd : 0 < a.difficulty) (hcap : 0 < a.capBudgetBytes)
    (hsize : a.allowedMib ≤ 2 ^ 48) : (a.rawPlan rnd).batchVramMib ≤ a.allowedMib := by
  obtain ⟨hbytes, hroom⟩ : ((a.rawPlan rnd).batchVramBytes : ℚ) ≤ _ ∧ _ := batchVramBytes_le hd hcap
  have hpos : (0 : ℚ) < a.allowedMib := by exact_mod_cast (capBudgetBytes_eq_allowedMib hcap).1
  have hsize' : (a.allowedMib : ℚ) ≤ 2 ^ 48 := by exact_mod_cast hsize
  have hless : (a.allowedMib : ℚ) * slack ^ 12 < a.allowedMib + 1 := by
    have hgrow : slack ^ 12 ≤ 1 + 1 / 2 ^ 48 * (15 / 16) := by norm_num [slack]
    calc (a.allowedMib : ℚ) * slack ^ 12 ≤ a.allowedMib * (1 + 1 / 2 ^ 48 * (15 / 16)) :=
          mul_le_mul_of_nonneg_left hgrow hpos.le
      _ < a.allowedMib + 1 := by linarith
  have hmib : ((a.rawPlan rnd).batchVramBytes : ℚ) < ((a.allowedMib + 1) * mibBytes : ℤ) := by
    have hmul := mul_le_mul_of_nonneg_right hroom (slack_pow_pos 6).le
    calc ((a.rawPlan rnd).batchVramBytes : ℚ)
        ≤ (a.allowedMib * mibBytes : ℤ) * slack ^ 6 * slack ^ 6 := hbytes.trans hmul
      _ = a.allowedMib * slack ^ 12 * mibBytes := by push_cast; ring
      _ < (a.allowedMib + 1) * mibBytes :=
          mul_lt_mul_of_pos_right hless (by exact_mod_cast mibBytes_pos)
      _ = ((a.allowedMib + 1) * mibBytes : ℤ) := by push_cast; rfl
  rw [batchVramMib_eq, ← Int.lt_add_one_iff]
  exact Int.ediv_lt_of_lt_mul mibBytes_pos (by exact_mod_cast hmib)

/-- Attempts weigh a multiple of `1001` parts of a MiB, so a batch that fills whole MiB fills at
least `1001` of them; on so few MiB rounding has no part in it. -/
theorem batchVramMib_lt (hd : 0 < a.difficulty) (hcap : 0 < a.capBudgetBytes)
    (hsmall : a.allowedMib < 1001) : (a.rawPlan rnd).batchVramMib < a.allowedMib := by
  obtain ⟨hbytes, hroom⟩ : ((a.rawPlan rnd).batchVramBytes : ℚ) ≤ _ ∧ _ := batchVramBytes_le hd hcap
  have hallowed := (capBudgetBytes_eq_allowedMib hcap).1
  by_contra hfull
  have hfull' : a.allowedMib * mibBytes ≤ (a.rawPlan rnd).batchVramBytes :=
    (Int.le_ediv_iff_mul_le mibBytes_pos).mp (not_lt.mp hfull)
  have hfill : ((a.allowedMib * mibBytes : ℤ) : ℚ) ≤
      a.planConc rnd * a.planBatchPerLane rnd * bytesPerAttempt a.difficulty * slack ^ 6 :=
    le_trans (by exact_mod_cast hfull') hbytes
  have hnear : Near 6 (a.planConc rnd * a.planBatchPerLane rnd * bytesPerAttempt a.difficulty)
      ((a.allowedMib * mibBytes : ℤ) : ℚ) := ⟨hroom, hfill⟩
  -- in thousandths of `1024` bytes both sides are whole, and too small to differ
  have hweight : (a.planConc rnd : ℚ) * a.planBatchPerLane rnd * bytesPerAttempt a.difficulty =
      (a.planConc rnd * a.planBatchPerLane rnd * a.difficulty * 1001 : ℤ) * (128 / 125) := by
    simp only [bytesPerAttempt_exact, bytesPerAttemptFactor]
    push_cast
    ring
  have hmib : ((a.allowedMib * mibBytes : ℤ) : ℚ) = (a.allowedMib * 1024000 : ℤ) * (128 / 125) := by
    unfold mibBytes
    push_cast
    ring
  rw [hweight, hmib] at hnear
  have hsize : ((a.allowedMib * 1024000 : ℤ) : ℚ) ≤ 2 ^ 30 := by
    exact_mod_cast (show a.allowedMib * 1024000 ≤ 2 ^ 30 by omega)
  have hwhole := (hnear.of_mul (by norm_num : (0 : ℚ) < 128 / 125)).int_eq (by
    calc ((a.allowedMib * 1024000 : ℤ) : ℚ) * (slack ^ 6 - 1) ≤ 2 ^ 30 * (slack ^ 6 - 1) :=
          mul_le_mul_of_nonneg_right hsize (by norm_num [slack])
      _ < 1 := by norm_num [slack])
  omega

theorem planCudaBatch_eq_rawPlan_of_small (hd : 0 < a.difficulty) (hsize : a.allowedMib ≤ 2 ^ 48)
    (hb : 0 < (planCudaBatch a rnd).batchPerLane) : planCudaBatch a rnd = a.rawPlan rnd :=
  planCudaBatch_eq_rawPlan_of_withinLimits hd
    (fun hcap => withinLimits_of_batchVramMib_le (batchVramMib_le hd hcap hsize)) hb

end PlanArgs

end XenMiner.VramBatch
