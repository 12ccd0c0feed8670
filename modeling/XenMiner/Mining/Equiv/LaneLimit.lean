import XenMiner.Mining.Equiv.LaneMonotone
import XenMiner.Mining.Equiv.Restart

/-!
# The lane limit among the limits of a plan

The planner takes the smallest of several lane counts, and the lane limit enters one of them only
(`planLanes_eq_min`).  So a lower limit shows in a plan exactly if it is below the lanes of the plan,
and what a start plans under two limits on the same reading is compared by these limits
(`startBase_lanes_lt_iff`).
-/

namespace XenMiner

open VramBatch PyNum

namespace VramBatch.PlanArgs

/-- The arguments under another lane limit. -/
def withMaxLanes (a : PlanArgs) (maxLanes : ℤ) : PlanArgs := { a with maxLanes := maxLanes }

theorem sequentialLanes_eq_min (a : PlanArgs) : ∃ k, 1 ≤ k ∧ ∀ m,
    (a.withMaxLanes m).sequentialLanes = min (max 1 (min m defaultAbsoluteMaxLanes)) k := by
  have hshape (m : ℤ) : (a.withMaxLanes m).sequentialLanes =
      if a.referenceDifficulty ≤ a.difficulty then 1
      else if PackMode.ofText a.packMode = .coverage then
        max 1 (min (max 1 (min m 32)) (max (if 0 < a.difficulty ∧ 0 < a.referenceDifficulty then
          max 1 (a.referenceDifficulty / a.difficulty) else 1) (max 1 (min m 32))))
      else if a.difficulty ≤ 150 then
        min (max 1 (min m 32)) (max 1 (a.budgetBytes / max 1 a.minBatchPerLane))
      else 1 := rfl
  unfold defaultAbsoluteMaxLanes
  by_cases href : a.referenceDifficulty ≤ a.difficulty
  · refine ⟨1, le_rfl, fun m => ?_⟩
    rw [hshape, if_pos href]
    omega
  by_cases hcover : PackMode.ofText a.packMode = .coverage
  · -- a sweep takes every lane the limit leaves
    refine ⟨32, by norm_num, fun m => ?_⟩
    rw [hshape, if_neg href, if_pos hcover]
    omega
  by_cases hlow : a.difficulty ≤ 150
  · refine ⟨max 1 (a.budgetBytes / max 1 a.minBatchPerLane), le_max_left _ _, fun m => ?_⟩
    rw [hshape, if_neg href, if_neg hcover, if_pos hlow]
  · refine ⟨1, le_rfl, fun m => ?_⟩
    rw [hshape, if_neg href, if_neg hcover, if_neg hlow]
    omega

theorem cudaLaneCount_eq_min (difficulty referenceDifficulty budgetBytes minBatchPerLane : ℤ)
    (packMode : PackMode) : ∃ k, 1 ≤ k ∧ ∀ m,
      cudaLaneCount difficulty referenceDifficulty (max 1 m) budgetBytes minBatchPerLane packMode
        = min (max 1 (min m defaultAbsoluteMaxLanes)) k := by
  unfold cudaLaneCount defaultAbsoluteMaxLanes
  by_cases hone : referenceDifficulty ≤ difficulty ∨ referenceDifficulty ≤ 0 ∨ difficulty ≤ 0
  · refine ⟨1, le_rfl, fun m => ?_⟩
    split_ifs <;> omega
  generalize referenceDifficulty / difficulty = boost
  dsimp only
  generalize memoryLimitedBatchSize (budgetBytes + cudaEngineReserveBytes) difficulty = total
  by_cases hboost : packMode = .boost ∨ budgetBytes ≤ 0
  · refine ⟨max 1 boost, le_max_left _ _, fun m => ?_⟩
    split_ifs <;> omega
  by_cases hempty : total ≤ 0
  · refine ⟨1, le_rfl, fun m => ?_⟩
    split_ifs <;> omega
  · -- boost and packed count are both cut by the limit, and so is the larger of them
    refine ⟨max (max 1 boost) (max 1 (total / max 1 minBatchPerLane)),
      (le_max_left _ _).trans (le_max_left _ _), fun m => ?_⟩
    generalize total / max 1 minBatchPerLane = packed
    split_ifs <;> omega

/-- The lanes are the limit, up to a count that does not depend on it. -/
theorem planLanes_eq_min (a : PlanArgs) : ∃ k, 1 ≤ k ∧ ∀ m,
    (a.withMaxLanes m).planLanes = min (max 1 (min m defaultAbsoluteMaxLanes)) k := by
  unfold planLanes
  by_cases hseq : a.seqMode = true
  · obtain ⟨k, hk, hlanes⟩ := a.sequentialLanes_eq_min
    refine ⟨k, hk, fun m => ?_⟩
    rw [if_pos (show (a.withMaxLanes m).seqMode = true from hseq), hlanes]
  · obtain ⟨k, hk, hlanes⟩ := cudaLaneCount_eq_min a.difficulty a.referenceDifficulty a.budgetBytes
      a.minBatchPerLane (PackMode.ofText a.packMode)
    refine ⟨k, hk, fun m => ?_⟩
    rw [if_neg (show ¬(a.withMaxLanes m).seqMode = true from hseq), ← hlanes]
    rfl

/-- A lower limit shows in a plan exactly if it is below its lanes. -/
theorem planLanes_lt_iff (a : PlanArgs) {m n : ℤ} (hlanes : 1 < (a.withMaxLanes n).planLanes) :
    (a.withMaxLanes m).planLanes < (a.withMaxLanes n).planLanes ↔
      m < (a.withMaxLanes n).planLanes := by
  obtain ⟨k, hk, heq⟩ := a.planLanes_eq_min
  rw [heq] at hlanes
  rw [heq m, heq n]
  unfold defaultAbsoluteMaxLanes at hlanes ⊢
  omega

end VramBatch.PlanArgs

namespace CudaNativeBackend

variable {s : CudaNativeBackend} {env : EngineReply} {base next : CudaVramPlan}

/-! ### Starts under two limits -/

/-- The backend under another lane limit. -/
def withMaxLanes (s : CudaNativeBackend) (maxLanes : ℤ) : CudaNativeBackend :=
  { s with maxLanesCap := maxLanes }

/-- What a `start` asks the planner. -/
def startArgs (s : CudaNativeBackend) (info : DeviceInfo) : PlanArgs :=
  ((s.coldStart info).observeDevice info).planArgs info s.difficulty

theorem startBase_eq_some (h : s.startBase env = some base) : ∃ info,
    env.deviceInfo = some info ∧ base = planCudaBatch (s.startArgs info) ∧ 0 < base.batchPerLane := by
  unfold startBase at h
  split at h
  next info _ hinfo =>
    split at h
    next t plan hfrom =>
      split at h
      next =>
        obtain rfl : plan = base := Option.some.inj h
        obtain ⟨-, hcheck⟩ := Prod.mk.inj hfrom
        obtain ⟨hplan, hbatch⟩ := checkPlan_eq_ok hcheck
        exact ⟨info, hinfo, hplan, hplan ▸ hbatch⟩
      next => cases h
    next => cases h
  next => cases h

theorem startArgs_withMaxLanes (s : CudaNativeBackend) (m : ℤ) (info : DeviceInfo) :
    (s.withMaxLanes m).startArgs info = (s.startArgs info).withMaxLanes m := by
  cases s
  unfold startArgs withMaxLanes coldStart observeDevice
  dsimp only
  split_ifs <;> rfl

/-- Of two plans for one reading that differ in the lane limit only, one has fewer lanes than the other
exactly if its limit is below them. -/
theorem startBase_lanes_lt_iff {m n : ℤ} (hbase : (s.withMaxLanes n).startBase env = some base)
    (hnext : (s.withMaxLanes m).startBase env = some next) (hlanes : 1 < base.lanes) :
    next.lanes < base.lanes ↔ m < base.lanes := by
  obtain ⟨info, hinfo, hbase, hbatch⟩ := startBase_eq_some hbase
  obtain ⟨info', hinfo', hnext, hbatch'⟩ := startBase_eq_some hnext
  obtain rfl : info = info' := Option.some.inj (hinfo.symm.trans hinfo')
  rw [hbase] at hbatch
  rw [hnext] at hbatch'
  have hbase' : base.lanes = ((s.startArgs info).withMaxLanes n).planLanes := by
    rw [hbase, planCudaBatch_lanes (difficulty_pos_of_batch hbatch), startArgs_withMaxLanes]
  have hnext' : next.lanes = ((s.startArgs info).withMaxLanes m).planLanes := by
    rw [hnext, planCudaBatch_lanes (difficulty_pos_of_batch hbatch'), startArgs_withMaxLanes]
  rw [hbase'] at hlanes ⊢
  rw [hnext']
  exact (s.startArgs info).planLanes_lt_iff hlanes

end CudaNativeBackend

end XenMiner
