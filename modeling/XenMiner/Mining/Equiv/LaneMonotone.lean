import XenMiner.Efficiency.Equiv.ThermalPolicy
import XenMiner.Mining.Equiv.Derate

/-!
# Lanes against difficulty

The number of lanes the planner chooses falls with the difficulty, in every pack mode
(`PlanArgs.planLanes_anti`), and the plan keeps that number: its final clamp drops no lane
(`planCudaBatch_lanes`).  The difficulty bias on top falls in both of its arguments, so the two
together do (`biasedLanes_planCudaBatch_anti`).
-/

namespace XenMiner.VramBatch

open PyNum ThermalPolicy

/-! ### Choosing the lanes -/

theorem memoryLimitedBatchSize_anti (free : ℤ) {d d' : ℤ} (hd : 0 < d) (h : d ≤ d') :
    memoryLimitedBatchSize free d' ≤ memoryLimitedBatchSize free d := by
  by_cases hfree : free ≤ cudaEngineReserveBytes
  · unfold memoryLimitedBatchSize
    rw [if_pos (Or.inr hfree), if_pos (Or.inr hfree)]
  · have hadd : free = (free - cudaEngineReserveBytes) + cudaEngineReserveBytes := by omega
    rw [hadd, memoryLimitedBatchSize_add_reserve (by omega) (by omega),
      memoryLimitedBatchSize_add_reserve hd (by omega)]
    exact fitCount_anti (by omega) (bytesPerAttempt_pos hd) (bytesPerAttempt_mono h)

/-- The parallel planner packs no more lanes at a higher difficulty. -/
theorem cudaLaneCount_anti {d d' : ℤ} (hd : 0 < d) (h : d ≤ d') (ref maxLanes budget minBatch : ℤ)
    (mode : PackMode) :
    cudaLaneCount d' ref maxLanes budget minBatch mode
      ≤ cudaLaneCount d ref maxLanes budget minBatch mode := by
  have hone := one_le_cudaLaneCount d ref maxLanes budget minBatch mode
  by_cases hnone : maxLanes ≤ 1 ∨ ref ≤ 0 ∨ d' ≤ 0
  · have hd' : cudaLaneCount d' ref maxLanes budget minBatch mode = 1 := if_pos hnone
    rw [hd']
    exact hone
  by_cases href : ref ≤ d'
  · have hd' : cudaLaneCount d' ref maxLanes budget minBatch mode = 1 :=
      (if_neg hnone).trans (if_pos href)
    rw [hd']
    exact hone
  -- both below the reference: boost and packing fall
  have hboost : ref / d' ≤ ref / d := by
    rw [Int.le_ediv_iff_mul_le hd]
    have hq : 0 ≤ ref / d' := Int.ediv_nonneg (by omega) (by omega)
    calc ref / d' * d ≤ ref / d' * d' := mul_le_mul_of_nonneg_left h hq
      _ ≤ ref := Int.ediv_mul_le _ (by omega)
  have htotal := memoryLimitedBatchSize_anti (budget + cudaEngineReserveBytes) hd h
  have hpack : memoryLimitedBatchSize (budget + cudaEngineReserveBytes) d' / max 1 minBatch
      ≤ memoryLimitedBatchSize (budget + cudaEngineReserveBytes) d / max 1 minBatch :=
    Int.ediv_le_ediv (by omega) htotal
  have hsome : ¬ (maxLanes ≤ 1 ∨ ref ≤ 0 ∨ d ≤ 0) := by omega
  have hbelow : ¬ ref ≤ d := by omega
  unfold cudaLaneCount
  rw [if_neg hnone, if_neg href, if_neg hsome, if_neg hbelow]
  dsimp only
  generalize memoryLimitedBatchSize (budget + cudaEngineReserveBytes) d' / max 1 minBatch = n'
    at hpack ⊢
  generalize memoryLimitedBatchSize (budget + cudaEngineReserveBytes) d / max 1 minBatch = n
    at hpack ⊢
  split_ifs <;> omega

namespace PlanArgs

variable {a : PlanArgs}

/-- The same arguments at another difficulty. -/
def atDifficulty (a : PlanArgs) (difficulty : ℤ) : PlanArgs := { a with difficulty := difficulty }

theorem sequentialLanes_anti {d d' : ℤ} (h : d ≤ d') :
    (a.atDifficulty d').sequentialLanes ≤ (a.atDifficulty d).sequentialLanes := by
  have hone := one_le_sequentialLanes (a.atDifficulty d)
  by_cases href : a.referenceDifficulty ≤ d'
  · have hd' : (a.atDifficulty d').sequentialLanes = 1 := if_pos href
    rw [hd']
    exact hone
  have hbelow : ∀ e, e ≤ d' → ¬ a.referenceDifficulty ≤ e := by
    intro e he
    omega
  by_cases hcoverage : PackMode.ofText a.packMode = .coverage
  · -- the sweep takes the whole lane limit
    have hall : ∀ e, e ≤ d' → (a.atDifficulty e).sequentialLanes
        = max 1 (min a.maxLanes defaultAbsoluteMaxLanes) := by
      intro e he
      refine (if_neg (hbelow e he)).trans ((if_pos hcoverage).trans ?_)
      dsimp only
      rw [min_eq_left (le_max_right _ _)]
      exact max_eq_right (le_max_left _ _)
    rw [hall d' le_rfl, hall d h]
  · have hpack : ∀ e, e ≤ d' → (a.atDifficulty e).sequentialLanes = if e ≤ 150 then
        min (max 1 (min a.maxLanes defaultAbsoluteMaxLanes))
          (max 1 (a.budgetBytes / max 1 a.minBatchPerLane)) else 1 := fun e he =>
      (if_neg (hbelow e he)).trans (if_neg hcoverage)
    rw [hpack d' le_rfl, hpack d h]
    split_ifs <;> omega

theorem planLanes_anti {d d' : ℤ} (hd : 0 < d) (h : d ≤ d') :
    (a.atDifficulty d').planLanes ≤ (a.atDifficulty d).planLanes := by
  unfold planLanes
  show (if a.seqMode = true then _ else _) ≤ (if a.seqMode = true then _ else _)
  split_ifs
  · exact sequentialLanes_anti h
  · exact cudaLaneCount_anti hd h _ _ _ _ _

/-- At the reference difficulty and above there is one lane. -/
theorem planLanes_of_ge (h : a.referenceDifficulty ≤ a.difficulty) : a.planLanes = 1 := by
  unfold planLanes sequentialLanes cudaLaneCount
  dsimp only
  split_ifs <;> rfl

theorem planLanes_le_limit (a : PlanArgs) :
    a.planLanes ≤ max 1 (min a.maxLanes defaultAbsoluteMaxLanes) := by
  unfold planLanes sequentialLanes cudaLaneCount defaultAbsoluteMaxLanes
  dsimp only
  split_ifs <;> omega

end PlanArgs

/-! ### The clamp keeps the lanes -/

/-- With nothing to split and no room for an empty plan, the loop gives up on the plan it got. -/
theorem clampLoop_empty {p : CudaVramPlan} (hsplit : ∀ conc, p.splitBatch conc = 0)
    (hfull : ∀ lanes conc, (p.resize 0 lanes p.totalMib conc).withinLimits = false) :
    ∀ (fuel : ℕ) (lanes conc : ℤ), clampLoop p fuel lanes 0 conc = p := by
  intro fuel
  induction fuel with
  | zero => intro lanes conc; rfl
  | succ fuel ih =>
    intro lanes conc
    rw [clampLoop]
    dsimp only
    rw [hfull, if_neg Bool.false_ne_true, if_neg (by norm_num)]
    split_ifs
    · rw [hsplit]
      exact ih _ _
    · rfl

/-- The plan has the lanes the planner chose, with or without a batch. -/
theorem planCudaBatch_lanes {a : PlanArgs} (hd : 0 < a.difficulty) :
    (planCudaBatch a).lanes = a.planLanes := by
  by_cases hcap : 0 < a.capBudgetBytes
  · have hwithin := PlanArgs.withinLimits_rawPlan hd hcap
    exact congrArg CudaVramPlan.lanes (clampPlanToCaps_of_withinLimits hwithin)
  have hbatch : a.rawPlan.batchPerLane = 0 :=
    PlanArgs.planBatchPerLane_eq_zero fun hbase => hcap (PlanArgs.capBudgetBytes_pos hd hbase)
  unfold planCudaBatch clampPlanToCaps
  split_ifs with hwithin
  · rfl
  · -- an empty plan projects the same usage whatever its lanes
    have hzero : estimateBatchVramBytes 0 a.difficulty = 0 := if_pos (Or.inl le_rfl)
    have hused : a.rawPlan.projectedUsedMib = max 0 a.rawPlan.foreignUsedMib
        + a.rawPlan.runtimeOverheadMib := by
      show max 0 (max 0 a.foreignUsedMib) + estimateBatchVramBytes a.planBatchPerLane a.difficulty
        * _ / mibBytes + a.rawPlan.runtimeOverheadMib = _
      rw [show a.planBatchPerLane = 0 from hbatch, hzero, zero_mul, Int.zero_ediv, add_zero]
      rfl
    have hfull : ∀ lanes conc,
        (a.rawPlan.resize 0 lanes a.rawPlan.totalMib conc).withinLimits = false := by
      intro lanes conc
      have hcand : (a.rawPlan.resize 0 lanes a.rawPlan.totalMib conc).projectedUsedMib
          = a.rawPlan.projectedUsedMib := by
        show max 0 a.rawPlan.foreignUsedMib + estimateBatchVramBytes 0 a.difficulty * _ / mibBytes
          + a.rawPlan.runtimeOverheadMib = _
        rw [hzero, zero_mul, Int.zero_ediv, add_zero, hused]
      have hfree : (a.rawPlan.resize 0 lanes a.rawPlan.totalMib conc).projectedHeadroomMib
          = max 0 (a.rawPlan.totalMib
            - (a.rawPlan.resize 0 lanes a.rawPlan.totalMib conc).projectedUsedMib) := rfl
      have hheadroom : 0 ≤ a.rawPlan.projectedHeadroomMib := le_max_left _ _
      rw [Bool.eq_false_iff]
      intro hfits
      rw [CudaVramPlan.withinLimits_iff, hfree, hcand] at hfits
      obtain ⟨htarget, hroom⟩ := hfits
      refine hwithin (CudaVramPlan.withinLimits_iff.mpr ⟨htarget, ?_⟩)
      unfold CudaVramPlan.totalMib at hroom
      rw [add_sub_cancel_left, max_eq_right hheadroom] at hroom
      exact hroom
    rw [hbatch, clampLoop_empty (splitBatch_rawPlan_eq_zero hd hcap) hfull]
    rfl

example :
    let a : PlanArgs :=
      { totalBytes := 8192 * mibBytes
        freeBytes := 0
        targetMib := 0
        desktopHeadroomMib := 1024
        difficulty := 300
        referenceDifficulty := 1100
        packMode := "boost" }
    (planCudaBatch a).batchPerLane = 0 ∧ (planCudaBatch a).lanes = 3 := by
  decide +kernel

/-! ### Plan and bias -/

/-- **Lanes never go up when difficulty goes up.**  For fixed device, caps, usage, fill fraction, lane
limit, pack mode, concurrency and reference difficulty: the biased lanes of the plan fall with the
difficulty, they and the planned lanes lie between one and the lane limit, and from the reference
difficulty on the plan has one lane. -/
theorem biasedLanes_planCudaBatch_anti (a : PlanArgs) (ratio : ℚ) {d₁ d₂ : ℤ} (h₁ : 1 ≤ d₁)
    (h : d₁ ≤ d₂) :
    let lanes := fun d => (planCudaBatch (a.atDifficulty d)).lanes
    let biased := fun d => difficultyLaneBias (lanes d) d a.referenceDifficulty ratio
    biased d₂ ≤ biased d₁ ∧
      (∀ d, 1 ≤ d → (1 ≤ biased d ∧ biased d ≤ lanes d) ∧
        lanes d ≤ max 1 (min a.maxLanes defaultAbsoluteMaxLanes)) ∧
      ∀ d, 1 ≤ d → a.referenceDifficulty ≤ d → lanes d = 1 ∧ biased d = 1 := by
  intro lanes biased
  have hlanes : ∀ d, 1 ≤ d → lanes d = (a.atDifficulty d).planLanes := fun d hd =>
    planCudaBatch_lanes (a := a.atDifficulty d) hd
  have hbounds : ∀ d, 1 ≤ d → (1 ≤ biased d ∧ biased d ≤ lanes d) ∧
      lanes d ≤ max 1 (min a.maxLanes defaultAbsoluteMaxLanes) := by
    intro d hd
    have hone : 1 ≤ lanes d := by
      rw [hlanes d hd]
      exact PlanArgs.one_le_planLanes _
    refine ⟨⟨CudaNativeBackend.one_le_difficultyLaneBias _ _ _ _, ?_⟩, ?_⟩
    · exact (difficultyLaneBias_le _ _ _ _).trans_eq (max_eq_right hone)
    · rw [hlanes d hd]
      exact PlanArgs.planLanes_le_limit (a.atDifficulty d)
  refine ⟨?_, hbounds, fun d hd href => ?_⟩
  · refine difficultyLaneBias_anti ?_ h₁ h ratio
    rw [hlanes d₁ h₁, hlanes d₂ (h₁.trans h)]
    exact PlanArgs.planLanes_anti h₁ h
  · have hone : lanes d = 1 := (hlanes d hd).trans (PlanArgs.planLanes_of_ge href)
    have hbiased := (hbounds d hd).1
    exact ⟨hone, by omega⟩

/-- A fill plan on a 24 GiB card loses its lanes from difficulty 100 to 1100. -/
theorem biasedLanes_planCudaBatch_anti_fill :
    let a : PlanArgs :=
      { totalBytes := 24576 * mibBytes
        freeBytes := 24000 * mibBytes
        targetMib := 16979
        desktopHeadroomMib := 6173
        difficulty := 100
        referenceDifficulty := 1100 }
    difficultyLaneBias (planCudaBatch (a.atDifficulty 700)).lanes 700 1100 (7 / 20)
      ≤ difficultyLaneBias (planCudaBatch (a.atDifficulty 100)).lanes 100 1100 (7 / 20) ∧
      (planCudaBatch (a.atDifficulty 1100)).lanes = 1 := by
  intro a
  have hpos : (0 : ℤ) < 100 := by norm_num
  have hle : (100 : ℤ) ≤ 700 := by norm_num
  have h := biasedLanes_planCudaBatch_anti a (7 / 20) hpos hle
  exact ⟨h.1, (h.2.2 1100 (by norm_num) le_rfl).1⟩

end XenMiner.VramBatch
