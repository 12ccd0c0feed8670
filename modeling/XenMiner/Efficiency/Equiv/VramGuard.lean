import XenMiner.Efficiency.VramGuard
import XenMiner.Mining.Equiv.RoundedPlan

/-!
# The guard against the planner

A plan fills the memory up to the target of its caps, and the guard built from the same caps stops
the GPU at its own limits.  The most a plan can project is `CapsArgs.reachMib`: the target itself
where the batch can fill whole MiB, which takes `1001` of them, and one MiB less on smaller targets.
So the guard stays silent for every plan exactly when that figure is inside its limits
(`neverTrips_iff`).  Plans and percentages are those of the source's doubles; the card has up to `2^48`
MiB, more than the bytes of a 64-bit count.
-/

namespace XenMiner

open VramBatch VramPolicy

/-! ### What the guard answers -/

namespace VramGuard

/-- The temperature codes are none of the memory codes. -/
theorem evaluateDieBoardTemps_code_ne (die board hotspot dw dm bw bm : ℤ) (derate : DerateArgs)
    (ctx : DifficultyContext) :
    (evaluateDieBoardTemps die board hotspot dw dm bw bm derate ctx).code ≠ .vramEmergency ∧
    (evaluateDieBoardTemps die board hotspot dw dm bw bm derate ctx).code ≠ .headroomCritical := by
  -- The code depends on the two limits and the two warnings only.
  have hcodes : ∀ dieHard boardHard dieSoft boardSoft : Bool, ∀ code : Code,
      code = (if dieHard && boardHard then .tempEmergency
        else if dieHard then .dieTempEmergency
        else if boardHard then .boardTempEmergency
        else if dieSoft then .dieTempWarn
        else if boardSoft then .boardTempWarn
        else .ok) → code ≠ .vramEmergency ∧ code ≠ .headroomCritical := by
    rintro dieHard boardHard dieSoft boardSoft code rfl
    split_ifs <;> exact ⟨nofun, nofun⟩
  exact hcodes _ _ _ _ _ rfl

/-- The guard stops the GPU for its memory exactly beyond one of its two memory limits. -/
theorem evaluate_memory_codes_iff (g : VramGuard) (snap : GpuSnapshot) :
    (g.evaluate (some snap)).code = .vramEmergency ∨
      (g.evaluate (some snap)).code = .headroomCritical ↔
    g.emergencyLimit snap.totalMib ≤ snap.usedMib ∨ snap.headroomMib ≤ g.minHeadroomMib := by
  have htemp := evaluateDieBoardTemps_code_ne
  simp only [evaluate, stopAction, evaluateSnapshotTemps]
  split_ifs with hused hfree
  · simp [hused]
  · simp [hfree]
  all_goals simp [hused, hfree, htemp]

@[simp]
theorem ofCaps_emergencyVramMib (caps : VramCaps) (mt wt cd : ℤ) (mb wb : Option ℤ)
    (ctx : DifficultyContext) :
    (ofCaps caps mt wt cd mb wb ctx).emergencyVramMib = caps.emergencyMib := rfl

@[simp]
theorem ofCaps_minHeadroomMib (caps : VramCaps) (mt wt cd : ℤ) (mb wb : Option ℤ)
    (ctx : DifficultyContext) :
    (ofCaps caps mt wt cd mb wb ctx).minHeadroomMib = caps.minHeadroomMib := rfl

end VramGuard

namespace VramPolicy

namespace CapsArgs

variable (c : CapsArgs)

/-! ### The caps as figures of the configuration -/

/-- Desktop headroom in force. -/
def roomMib : ℤ := max c.minHeadroomFloorMib (min c.headroomRequest (max 0 (c.total - 1)))

/-- Free memory at which the guard stops. -/
def keepMib : ℤ := max c.minHeadroomFloorMib (min c.minHeadroomRequest c.roomMib)

/-- What plans may fill; no plan has a batch unless it is positive. -/
def fillMib : ℤ := min c.targetRequest (c.total - c.roomMib)

/-- The most memory a plan with a batch projects as used. -/
def reachMib : ℤ := if 1001 ≤ c.fillMib then c.fillMib else c.fillMib - 1

/-- The configuration leaves the guard's limits beyond the reach of every plan. -/
def LeavesRoom : Prop :=
  c.fillMib ≤ 0 ∨
    c.reachMib < c.total - 256 ∧ c.reachMib < c.total - c.keepMib ∧
      (c.reachMib < min c.emergencyRequest (c.total - c.emergencyFreeFloorMib) ∨
        c.reachMib < c.keepMib)

/-- The configuration never makes the guard stop the GPU at the usage a plan projects. -/
def NeverTrips : Prop :=
  ∀ (a : PlanArgs) (snap : GpuSnapshot) (maxTempC warnTempC cooldownS : ℤ)
    (maxBoardTempC warnBoardTempC : Option ℤ) (ctx : VramGuard.DifficultyContext),
    let caps := resolveVramCaps c
    let plan := planCudaBatch a Binary64.round
    let guard := VramGuard.ofCaps caps maxTempC warnTempC cooldownS maxBoardTempC warnBoardTempC ctx
    a.totalBytes / mibBytes = caps.totalMib → a.targetMib = caps.targetMib →
      a.desktopHeadroomMib = caps.headroomMib → 0 < plan.batchPerLane →
      snap.totalMib = caps.totalMib → snap.usedMib = plan.projectedUsedMib →
      (guard.evaluate (some snap)).code ≠ .vramEmergency ∧
        (guard.evaluate (some snap)).code ≠ .headroomCritical

theorem one_le_total : 1 ≤ c.total := le_max_left _ _

@[simp]
theorem resolveVramCaps_totalMib : (resolveVramCaps c).totalMib = c.total := rfl

@[simp]
theorem resolveVramCaps_headroomMib : (resolveVramCaps c).headroomMib = c.roomMib := rfl

@[simp]
theorem resolveVramCaps_minHeadroomMib : (resolveVramCaps c).minHeadroomMib = c.keepMib := rfl

theorem resolveVramCaps_targetMib : (resolveVramCaps c).targetMib = max 0 c.fillMib := by
  show max 0 (min c.targetRequest (max 0 (c.total - c.roomMib)))
    = max 0 (min c.targetRequest (c.total - c.roomMib))
  omega

theorem resolveVramCaps_emergencyMib : (resolveVramCaps c).emergencyMib
    = max (min c.emergencyRequest (max 0 (c.total - c.emergencyFreeFloorMib))) c.keepMib := rfl

variable {c}

/-- The limits of the guard against a usage, in the figures of the configuration. -/
theorem guard_silent_iff {used : ℤ} (hused : 0 ≤ used) :
    used < min (resolveVramCaps c).emergencyMib (max (c.total - 256) 0) ∧
      (resolveVramCaps c).minHeadroomMib < c.total - used ↔
    used < c.total - 256 ∧ used < c.total - c.keepMib ∧
      (used < min c.emergencyRequest (c.total - c.emergencyFreeFloorMib) ∨ used < c.keepMib) := by
  rw [resolveVramCaps_emergencyMib, resolveVramCaps_minHeadroomMib]
  omega

/-! ### Every plan stays within reach -/

theorem request_nonneg (c : CapsArgs) (override : ℤ) (pct : ℚ) : 0 ≤ c.request override pct := by
  have htotal : (0 : ℚ) ≤ c.total := by exact_mod_cast zero_le_one.trans (one_le_total c)
  have hpct : 0 ≤ clampPct pct := PyNum.le_clamp _ _ _
  have hpart : 0 ≤ Binary64.round (Binary64.round c.total * clampPct pct) :=
    Binary64.rnd_nonneg (mul_nonneg (Binary64.rnd_nonneg htotal) hpct)
  have hquot : 0 ≤ Binary64.round (Binary64.round (Binary64.round c.total * clampPct pct) / 100) :=
    Binary64.rnd_nonneg (div_nonneg hpart (by norm_num))
  unfold request
  split_ifs with hset
  · exact hset.le
  · exact PyNum.pyInt_nonneg hquot

theorem fillMib_le_total (c : CapsArgs) : c.fillMib ≤ c.total := by
  have hrequest : 0 ≤ c.headroomRequest := request_nonneg c _ _
  unfold fillMib roomMib
  omega

theorem projectedUsedMib_le_reachMib {a : PlanArgs} (htarget : a.targetMib = max 0 c.fillMib)
    (hsize : c.fillMib ≤ 2 ^ 48) (hb : 0 < (planCudaBatch a Binary64.round).batchPerLane) :
    0 < c.fillMib ∧ 0 ≤ (planCudaBatch a Binary64.round).projectedUsedMib ∧
      (planCudaBatch a Binary64.round).projectedUsedMib ≤ c.reachMib := by
  have hd := difficulty_pos_of_batch hb
  have hallowedLe : a.allowedMib ≤ a.targetMib := by
    unfold PlanArgs.allowedMib
    omega
  have hraw := PlanArgs.planCudaBatch_eq_rawPlan_of_small hd (by omega) hb
  rw [hraw] at hb
  have hcap := PlanArgs.capBudgetBytes_pos hd (PlanArgs.baseBatchPerLane_pos hb)
  have hallowed := (PlanArgs.capBudgetBytes_eq_allowedMib hcap).1
  have hle : (a.rawPlan Binary64.round).batchVramMib ≤ a.allowedMib :=
    PlanArgs.batchVramMib_le hd hcap (by omega)
  have hlt : a.allowedMib < 1001 → (a.rawPlan Binary64.round).batchVramMib < a.allowedMib :=
    PlanArgs.batchVramMib_lt hd hcap
  have hbatch : 0 ≤ (a.rawPlan Binary64.round).batchVramMib := by
    rw [PlanArgs.batchVramMib_rawPlan a Binary64.round]
    apply Int.ediv_nonneg _ mibBytes_pos.le
    exact mul_nonneg (by have := PlanArgs.one_le_planConc a Binary64.round; omega)
      (estimateBatchVramBytes_nonneg _ _ _)
  have hused : (a.rawPlan Binary64.round).projectedUsedMib = max 0 (max 0 a.foreignUsedMib)
      + (a.rawPlan Binary64.round).batchVramMib
      + (max 0 a.runtimeOverheadMib + max 0 a.safetyMarginMib) := rfl
  unfold PlanArgs.allowedMib at hallowed hle hlt
  rw [hraw, hused, reachMib]
  split_ifs <;> omega

/-! ### A plan that reaches it -/

/-- Other programs hold all of the target but `piece` MiB; the plan fills the rest. -/
def fillingArgs (c : CapsArgs) (piece : ℤ) : PlanArgs where
  totalBytes := c.total * mibBytes
  freeBytes := c.total * mibBytes
  targetMib := max 0 c.fillMib
  desktopHeadroomMib := c.roomMib
  difficulty := 100
  referenceDifficulty := 100
  runtimeOverheadMib := 0
  foreignUsedMib := c.fillMib - piece
  concurrentVramLanes := some 1

theorem budgetBytes_fillingArgs {piece : ℤ} (hpos : 0 < piece) (hle : piece ≤ c.fillMib) :
    (c.fillingArgs piece).allowedMib = piece ∧
      (c.fillingArgs piece).budgetBytes Binary64.round = piece * mibBytes := by
  have htotal : c.total * mibBytes / mibBytes = c.total := Int.mul_ediv_cancel _ mibBytes_pos.ne'
  have hfill : c.fillMib ≤ c.total - c.roomMib := min_le_right _ _
  have hallowed : (c.fillingArgs piece).allowedMib = piece := by
    unfold PlanArgs.allowedMib fillingArgs
    dsimp only
    rw [htotal]
    omega
  refine ⟨hallowed, ?_⟩
  unfold PlanArgs.budgetBytes
  rw [PlanArgs.capBudgetBytes_eq, hallowed, max_eq_right hpos.le]
  have hfull : ¬ clampFillFraction 1 Binary64.round < Binary64.round (999 / 1000) := by decide +kernel
  exact if_neg hfull

/-- The plan on a single remaining piece, given what its budget holds. -/
theorem planCudaBatch_fillingArgs (piece batch mib : ℤ) (hpos : 0 < piece) (hsize : piece ≤ 2 ^ 48)
    (hle : piece ≤ c.fillMib) (hbatch : 0 < batch)
    (hselect : selectBatchSize (max 1 (piece * mibBytes)) 100 0 Binary64.round = batch)
    (htop : PyNum.pyInt (Binary64.round (Binary64.round (piece * mibBytes : ℤ) /
      bytesPerAttempt 100 Binary64.round)) / max 1 1 = batch)
    (hmib : 1 * estimateBatchVramBytes batch 100 Binary64.round / mibBytes = mib) :
    (planCudaBatch (c.fillingArgs piece) Binary64.round).batchPerLane = batch ∧
      (planCudaBatch (c.fillingArgs piece) Binary64.round).projectedUsedMib
        = c.fillMib - piece + mib := by
  obtain ⟨hallowed, hbudget⟩ := budgetBytes_fillingArgs hpos hle
  have hone : (0 : ℤ) < (c.fillingArgs piece).difficulty := by
    show (0 : ℤ) < 100
    omega
  -- the clamp leaves the plan alone
  have hraw : planCudaBatch (c.fillingArgs piece) Binary64.round =
      (c.fillingArgs piece).rawPlan Binary64.round := by
    apply clampPlanToCaps_of_withinLimits
    apply PlanArgs.withinLimits_of_batchVramMib_le
    apply PlanArgs.batchVramMib_le hone _ (hallowed.trans_le hsize)
    rw [PlanArgs.capBudgetBytes_eq, hallowed, max_eq_right hpos.le]
    exact mul_pos hpos mibBytes_pos
  have hconc : (c.fillingArgs piece).planConc Binary64.round = 1 := rfl
  have hbase : (c.fillingArgs piece).baseBatchPerLane Binary64.round = batch := by
    have hshare : (c.fillingArgs piece).perLaneBudget Binary64.round = max 1 (piece * mibBytes) := by
      rw [← hbudget]
      rfl
    unfold PlanArgs.baseBatchPerLane
    rw [hshare]
    show (if selectBatchSize (max 1 (piece * mibBytes)) 100 0 Binary64.round ≤ 0 then 0
      else selectBatchSize (max 1 (piece * mibBytes)) 100 0 Binary64.round) = batch
    rw [hselect, if_neg (by omega)]
  -- nor does the top-up change the count
  have hplan : (c.fillingArgs piece).planBatchPerLane Binary64.round = batch := by
    have hweight : 0 < bytesPerAttempt 100 Binary64.round := bytesPerAttempt_rnd_pos (by decide)
    simp only [PlanArgs.planBatchPerLane]
    rw [hbase, hbudget, hconc, if_pos ⟨hbatch, mul_pos hpos mibBytes_pos⟩]
    show (if 0 < bytesPerAttempt 100 Binary64.round then max batch
      (PyNum.pyInt (Binary64.round (Binary64.round (piece * mibBytes : ℤ) /
        bytesPerAttempt 100 Binary64.round)) / max 1 1) else batch) = batch
    rw [if_pos hweight, htop, max_self]
  refine ⟨by rw [hraw]; exact hplan, ?_⟩
  have hused : ((c.fillingArgs piece).rawPlan Binary64.round).projectedUsedMib =
      max 0 (max 0 (c.fillMib - piece)) +
        ((c.fillingArgs piece).rawPlan Binary64.round).batchVramMib + 0 := rfl
  rw [hraw, hused, PlanArgs.batchVramMib_rawPlan _ Binary64.round, hconc, hplan]
  show max 0 (max 0 (c.fillMib - piece)) +
    1 * estimateBatchVramBytes batch 100 Binary64.round / mibBytes + 0 = _
  rw [hmib]
  omega

/-- Some plan projects the whole reach. -/
theorem exists_plan_reachMib (hfill : 0 < c.fillMib) : ∃ piece : ℤ,
    0 < (planCudaBatch (c.fillingArgs piece) Binary64.round).batchPerLane ∧
      (planCudaBatch (c.fillingArgs piece) Binary64.round).projectedUsedMib = c.reachMib := by
  by_cases hbig : 1001 ≤ c.fillMib
  · -- a budget of 1001 MiB holds 10240 attempts exactly, in doubles too
    obtain ⟨hbatch, hused⟩ := planCudaBatch_fillingArgs 1001 10240 1001 (by omega) (by omega) hbig
      (by omega) (by decide +kernel) (by decide +kernel) (by decide +kernel)
    refine ⟨1001, by omega, ?_⟩
    rw [hused, reachMib, if_pos hbig]
    omega
  · -- one MiB holds ten attempts and some bytes more
    obtain ⟨hbatch, hused⟩ := planCudaBatch_fillingArgs 1 10 0 (by omega) (by omega)
      (show 1 ≤ c.fillMib by omega) (by omega) (by decide +kernel) (by decide +kernel)
      (by decide +kernel)
    refine ⟨1, by omega, ?_⟩
    rw [hused, reachMib, if_neg hbig]
    omega

/-! ### The guard stays silent -/

/-- **When following the plan never trips the guard.**  The guard built from the same caps answers
no memory emergency at the projected usage of any plan with a batch if and only if the
configuration leaves its limits beyond the reach of the plans. -/
theorem neverTrips_iff (c : CapsArgs) (hsize : c.totalMib ≤ 2 ^ 48) : c.NeverTrips ↔ c.LeavesRoom := by
  have hfillSize : c.fillMib ≤ 2 ^ 48 := (fillMib_le_total c).trans (max_le (by norm_num) hsize)
  have hlimit : ∀ (snap : GpuSnapshot) (mt wt cd : ℤ) (mb wb : Option ℤ)
      (ctx : VramGuard.DifficultyContext), snap.totalMib = c.total → 0 ≤ snap.usedMib →
      let guard := VramGuard.ofCaps (resolveVramCaps c) mt wt cd mb wb ctx
      ((guard.evaluate (some snap)).code ≠ .vramEmergency ∧
        (guard.evaluate (some snap)).code ≠ .headroomCritical ↔
      snap.usedMib < c.total - 256 ∧ snap.usedMib < c.total - c.keepMib ∧
        (snap.usedMib < min c.emergencyRequest (c.total - c.emergencyFreeFloorMib) ∨
          snap.usedMib < c.keepMib)) := by
    intro snap mt wt cd mb wb ctx htotal hused guard
    rw [← guard_silent_iff hused, ← not_or, VramGuard.evaluate_memory_codes_iff, not_or, not_le,
      not_le, htotal]
    unfold GpuSnapshot.headroomMib
    rw [htotal]
    rfl
  constructor
  · -- some plan uses the whole reach, and the guard is silent there too
    intro hnever
    by_cases hfill : c.fillMib ≤ 0
    · exact Or.inl hfill
    · obtain ⟨piece, hbatch, hused⟩ := exists_plan_reachMib (not_le.mp hfill)
      have hreach : 0 ≤ c.reachMib := by
        unfold reachMib
        split_ifs <;> omega
      let snap : GpuSnapshot := { totalMib := c.total, usedMib := c.reachMib, temperatureC := 0 }
      right
      exact (hlimit snap 0 0 0 none none {} rfl hreach).mp
        (hnever (c.fillingArgs piece) snap 0 0 0 none none {}
          (Int.mul_ediv_cancel _ mibBytes_pos.ne') (resolveVramCaps_targetMib c).symm rfl hbatch rfl
          hused.symm)
  · -- no plan uses more than the reach
    rintro hroom a snap mt wt cd mb wb ctx caps plan guard - htarget - hbatch htotal hused
    obtain ⟨hfill, hnonneg, hreach⟩ :=
      projectedUsedMib_le_reachMib (htarget.trans (resolveVramCaps_targetMib c)) hfillSize hbatch
    rcases hroom with hempty | hroom
    · omega
    · have hused' : snap.usedMib = (planCudaBatch a Binary64.round).projectedUsedMib := hused
      apply (hlimit snap mt wt cd mb wb ctx htotal (by omega)).mpr
      omega

/-- The default profile never trips on a 24 GiB card. -/
theorem neverTrips_iff_default : NeverTrips { totalMib := 24576 } := by
  apply (neverTrips_iff _ (by decide)).mpr
  unfold LeavesRoom
  decide +kernel

/-- A 24 GiB card with a target of `16384` MiB and an emergency limit of `12288` MiB: the plan
projects `16382` MiB and the guard stops it. -/
theorem neverTrips_fails : ¬ NeverTrips
    { totalMib := 24576, targetMibOverride := 16384, emergencyMibOverride := 12288 } := by
  intro h
  let a : PlanArgs :=
    { totalBytes := 24576 * mibBytes
      freeBytes := 24000 * mibBytes
      targetMib := 16384
      desktopHeadroomMib := 6174
      difficulty := 1500
      referenceDifficulty := 1100
      foreignUsedMib := 600 }
  let snap : GpuSnapshot := { totalMib := 24576, usedMib := 16382, temperatureC := 60 }
  have hcode := (h a snap 85 80 300 none none {} (by decide +kernel) (by decide +kernel)
    (by decide +kernel) (by decide +kernel) (by decide +kernel) (by decide +kernel)).1
  exact hcode (by decide +kernel)

end CapsArgs

end VramPolicy

end XenMiner
