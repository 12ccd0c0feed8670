import XenMiner.Mining.Equiv.LaneMonotone

/-!
# Fill packing and the minimum batch

Fill packing takes the denser of two lane counts under the lane limit: the classic boost, and the lanes
that each keep the minimum batch.  So a plan of several lanes keeps the minimum exactly if the boost
under the limit does (`keeps_minBatch_iff`).
-/

namespace XenMiner.VramBatch

open PyNum

variable {a : PlanArgs}

namespace PlanArgs

/-- The classic boost under the lane limit. -/
def boostLanes (a : PlanArgs) : ℤ :=
  min (max 1 (min (max 1 a.maxLanes) defaultAbsoluteMaxLanes))
    (max 1 (a.referenceDifficulty / a.difficulty))

/-- `total_attempts`: the attempts that fit the whole budget. -/
def totalAttempts (a : PlanArgs) : ℤ :=
  memoryLimitedBatchSize (a.budgetBytes + cudaEngineReserveBytes) a.difficulty

/-- The attempts that fit the share of one of `lanes` lanes. -/
def shareAttempts (a : PlanArgs) (lanes : ℤ) : ℤ :=
  memoryLimitedBatchSize (max 1 (a.budgetBytes / lanes) + cudaEngineReserveBytes) a.difficulty

/-- The lanes that packing adds over the boost keep the minimum. -/
theorem planLanes_le_iff (hpar : a.seqMode = false) (hfill : PackMode.ofText a.packMode = .fill)
    (hlanes : 1 < a.planLanes) (hmin : 0 < a.minBatchPerLane) :
    a.planLanes ≤ a.totalAttempts / a.minBatchPerLane ↔
      a.boostLanes ≤ a.totalAttempts / a.minBatchPerLane := by
  have hmin' : max 1 a.minBatchPerLane = a.minBatchPerLane := by omega
  have hplan : a.planLanes = cudaLaneCount a.difficulty a.referenceDifficulty (max 1 a.maxLanes)
      a.budgetBytes a.minBatchPerLane .fill := by
    rw [planLanes, if_neg (by simp [hpar]), hfill]
  rw [hplan] at hlanes ⊢
  unfold cudaLaneCount at hlanes ⊢
  unfold boostLanes totalAttempts
  dsimp only at hlanes ⊢
  rw [hmin'] at hlanes ⊢
  generalize memoryLimitedBatchSize (a.budgetBytes + cudaEngineReserveBytes) a.difficulty = total
    at hlanes ⊢
  generalize a.referenceDifficulty / a.difficulty = boost at hlanes ⊢
  generalize total / a.minBatchPerLane = packed at hlanes ⊢
  generalize min (max 1 a.maxLanes) defaultAbsoluteMaxLanes = cap at hlanes ⊢
  split_ifs at hlanes ⊢ with hone href hboost hempty
  · omega
  · omega
  · omega
  · omega
  · -- the boost is one of the two counts, and the other is the quotient itself
    omega

/-- Without explicit limits the batch is an equal share of all attempts that fit. -/
theorem planBatchPerLane_eq_share (hd : 0 < a.difficulty) (hpar : a.seqMode = false)
    (hexplicit : a.explicitBatch ≤ 0) (hmax : a.explicitMaxBatch ≤ 0) :
    a.planBatchPerLane =
      if 0 < a.shareAttempts a.planLanes then a.totalAttempts / a.planLanes else 0 := by
  have hconc : a.planConc = a.planLanes := by
    rw [planConc, if_neg (by simp [hpar])]
  have hshare : a.baseBatchPerLane = max 0 (a.shareAttempts a.planLanes) := by
    unfold baseBatchPerLane selectBatchSize shareAttempts
    rw [perLaneBudget_eq, hconc]
    dsimp only
    split_ifs <;> omega
  by_cases hb : 0 < a.baseBatchPerLane
  · have hB := budgetBytes_pos hd hb
    rw [planBatchPerLane_eq hd hb, limitBatch, if_neg hmax.not_gt, if_neg hexplicit.not_gt,
      if_pos (by omega), fitPerLane, hconc, totalAttempts, memoryLimitedBatchSize_add_reserve hd hB]
  · rw [planBatchPerLane_eq_zero hb, if_neg (by omega)]

end PlanArgs

/-- Without a difficulty there is one lane. -/
theorem planCudaBatch_lanes_of_difficulty (hpar : a.seqMode = false) (hd : a.difficulty ≤ 0) :
    (planCudaBatch a).lanes = 1 := by
  have hraw : a.planLanes = 1 := by
    rw [PlanArgs.planLanes, if_neg (by simp [hpar])]
    exact if_pos (Or.inr (Or.inr hd))
  unfold planCudaBatch clampPlanToCaps
  split_ifs
  · exact hraw
  · refine clampLoop_rule (P := fun q => q.lanes = 1) (I := fun lanes _ _ => lanes = 1) hraw ?_ ?_ ?_
      _ _ _ _ hraw
    · exact fun lanes batch conc hone => hone
    · exact fun lanes batch conc hone _ => hone
    · exact fun lanes batch conc hone htwo => absurd hone htwo.ne'

/-- The batch of a plan is the one the planner chose, also when there is none. -/
theorem planCudaBatch_batchPerLane (hd : 0 < a.difficulty) :
    (planCudaBatch a).batchPerLane = a.planBatchPerLane := by
  by_cases hcap : 0 < a.capBudgetBytes
  · have hwithin := PlanArgs.withinLimits_rawPlan hd hcap
    exact congrArg CudaVramPlan.batchPerLane (clampPlanToCaps_of_withinLimits hwithin)
  · have hraw : a.planBatchPerLane = 0 :=
      PlanArgs.planBatchPerLane_eq_zero fun hbase => hcap (PlanArgs.capBudgetBytes_pos hd hbase)
    rw [planCudaBatch_batchPerLane_eq_zero hraw (splitBatch_rawPlan_eq_zero hd hcap), hraw]

/-- **Fill packing and the minimum batch.**  A parallel plan of several lanes, packed without explicit
limits, keeps the minimum exactly if there is none, or the share of a lane holds an attempt and the
classic boost, below which packing never goes, leaves each of its lanes the minimum. -/
theorem keeps_minBatch_iff (hpar : a.seqMode = false) (hfill : PackMode.ofText a.packMode = .fill)
    (hexplicit : a.explicitBatch ≤ 0) (hmax : a.explicitMaxBatch ≤ 0)
    (hlanes : 1 < (planCudaBatch a).lanes) :
    a.minBatchPerLane ≤ (planCudaBatch a).batchPerLane ↔
      a.minBatchPerLane ≤ 0 ∨ 0 < a.shareAttempts (planCudaBatch a).lanes ∧
        a.boostLanes ≤ a.totalAttempts / a.minBatchPerLane := by
  have hd : 0 < a.difficulty := by
    by_contra hd
    rw [planCudaBatch_lanes_of_difficulty hpar (not_lt.mp hd)] at hlanes
    exact lt_irrefl _ hlanes
  have hnonneg := PlanArgs.planBatchPerLane_nonneg hd
  rw [planCudaBatch_lanes hd] at hlanes ⊢
  rw [planCudaBatch_batchPerLane hd]
  by_cases hmin : a.minBatchPerLane ≤ 0
  · exact iff_of_true (hmin.trans hnonneg) (Or.inl hmin)
  have hmin' : 0 < a.minBatchPerLane := not_le.mp hmin
  rw [PlanArgs.planBatchPerLane_eq_share hd hpar hexplicit hmax]
  by_cases hshare : 0 < a.shareAttempts a.planLanes
  · -- the minimum fits each lane if and only if the lanes fit the quotient
    have hswap : a.minBatchPerLane ≤ a.totalAttempts / a.planLanes
        ↔ a.planLanes ≤ a.totalAttempts / a.minBatchPerLane := by
      rw [Int.le_ediv_iff_mul_le (by omega), Int.le_ediv_iff_mul_le hmin', mul_comm]
    rw [if_pos hshare, hswap, PlanArgs.planLanes_le_iff hpar hfill hlanes hmin']
    simp [hmin, hshare]
  · rw [if_neg hshare]
    simp [hmin, hshare]

/-- A big card at difficulty `100`: fill packing reaches the lane limit, and every lane keeps `2048`. -/
theorem keeps_minBatch_iff_dense :
    let a : PlanArgs :=
      { totalBytes := 32607 * mibBytes
        freeBytes := 29743 * mibBytes
        targetMib := 22528
        desktopHeadroomMib := 8192
        difficulty := 100
        referenceDifficulty := 1100
        maxLanes := 16 }
    a.minBatchPerLane ≤ (planCudaBatch a).batchPerLane := by
  intro a
  apply (keeps_minBatch_iff (a := a) rfl (by decide +kernel) (by decide) (by decide)
    (by decide +kernel)).mpr
  decide +kernel

/-- One GiB at difficulty `500`: the boost asks for two lanes, and `2095` attempts fit. -/
theorem keeps_minBatch_fails :
    let a : PlanArgs :=
      { totalBytes := 8192 * mibBytes
        freeBytes := 8000 * mibBytes
        targetMib := 3072
        desktopHeadroomMib := 1024
        difficulty := 500
        referenceDifficulty := 1100 }
    a.seqMode = false ∧ a.packMode = "fill" ∧ a.explicitBatch = 0 ∧ a.explicitMaxBatch = 0 ∧
      (planCudaBatch a).withinLimits = true ∧ (planCudaBatch a).lanes = 2 ∧
      (planCudaBatch a).batchPerLane = 1047 ∧ a.minBatchPerLane = 2048 := by
  decide +kernel

end XenMiner.VramBatch
