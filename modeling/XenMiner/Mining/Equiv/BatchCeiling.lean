import XenMiner.Mining.Equiv.LaneSplit
import XenMiner.Mining.Equiv.VramPressure

/-!
# The configured batch ceilings

The planner keeps the batch below `cuda_max_batch_size` and `cuda_batch_size`, the soft clamp and the
scales only cut it.  A lane cap on a plan with several resident batches splits the budget again, and
that share knows no ceiling: the batch a lane is launched with is within the ceilings if and only if
no such split is in force or its scaled share happens to be (`launch_within_ceilings_iff`).
-/

namespace XenMiner.VramBatch.CudaVramPlan

variable {p : CudaVramPlan} {k : ℤ}

/-- The batch under a lane cap: the budget is split again when more than one batch stays resident. -/
theorem Fit.applyLaneCap_batchPerLane (hp : p.Fit) (hk : 1 ≤ k) (hlt : k < p.lanes) :
    (VramBatch.applyLaneCap p k).batchPerLane =
        (if k = 1 ∨ p.SingleBuffer then p.batchPerLane else p.splitBatch k) ∧
      ∀ j, (VramBatch.applyLaneCap p k).splitBatch j = p.splitBatch j := by
  rcases hp.kind with hsplit | hsingle
  · have hmany : ¬ p.SingleBuffer := by
      unfold Split at hsplit
      unfold SingleBuffer
      omega
    simp only [hp.applyLaneCap_eq hsplit hk, if_neg (not_le.mpr hlt), hmany, or_false]
    exact ⟨rfl, fun _ => rfl⟩
  · have hfit : (p.resize p.batchPerLane k p.totalMib 1).Fit := by
      refine hp.resize ?_ (Or.inr rfl) hp.batch_pos (by omega)
      exact hp.sized.covers.mono hp.sized.difficulty_pos le_rfl (by omega)
        p.one_le_effectiveConcurrentVramLanes hp.sized.batch_nonneg le_rfl
    have heq : VramBatch.applyLaneCap p k = p.resize p.batchPerLane k p.totalMib 1 := by
      unfold SingleBuffer at hsingle
      unfold VramBatch.applyLaneCap
      dsimp only
      rw [max_eq_right hk, hsingle, if_neg (by omega), min_eq_left hk, if_pos le_rfl]
      exact clampPlanToCaps_of_withinLimits hfit.within
    rw [heq, if_pos (Or.inr hsingle)]
    exact ⟨rfl, fun _ => rfl⟩

/-- A plan cut to `k` lanes where it has more. -/
def cut (p : CudaVramPlan) (k : ℤ) : CudaVramPlan :=
  if k < p.lanes then VramBatch.applyLaneCap p k else p

/-- What a cut leaves of a plan that fits. -/
structure CutTo (p : CudaVramPlan) (k : ℤ) (q : CudaVramPlan) : Prop where
  fit : q.Fit
  lanes_eq : q.lanes = min p.lanes k
  batch_eq : q.batchPerLane =
    if k = 1 ∨ p.SingleBuffer ∨ p.lanes ≤ k then p.batchPerLane else p.splitBatch k
  split_eq : ∀ j, q.splitBatch j = p.splitBatch j
  single_iff : 1 < q.lanes → (q.SingleBuffer ↔ p.SingleBuffer)

theorem Fit.cut (hp : p.Fit) (hk : 1 ≤ k) : p.CutTo k (p.cut k) := by
  unfold CudaVramPlan.cut
  by_cases hlt : k < p.lanes
  · obtain ⟨hfit, hlanes⟩ := hp.applyLaneCap (k := k)
    obtain ⟨hbatch, hsplit⟩ := hp.applyLaneCap_batchPerLane hk hlt
    rw [if_pos hlt]
    refine ⟨hfit, by omega, ?_, hsplit, fun hmany => ⟨fun hsingle => ?_, applyLaneCap_shrunk.single⟩⟩
    · rw [hbatch]
      exact if_congr (by rw [or_iff_left (not_le.mpr hlt)]) rfl rfl
    · -- several lanes of a split plan are not a single buffer
      rcases hp.kind with hkind | hkind
      · have hq : (VramBatch.applyLaneCap p k).Split := applyLaneCap_shrunk.split hkind
        unfold SingleBuffer at hsingle
        unfold Split at hq
        omega
      · exact hkind
  · rw [if_neg hlt]
    refine ⟨hp, by omega, ?_, fun _ => rfl, fun _ => Iff.rfl⟩
    rw [if_pos (Or.inr (Or.inr (not_lt.mp hlt)))]

/-- Two cuts, but one split: the last one over at least two lanes. -/
theorem CutTo.batch_of_cut {q r : CudaVramPlan} {n : ℤ} (hq : p.CutTo n q) (hr : q.CutTo k r)
    (hn : 1 ≤ n) (hk : 1 ≤ k) : r.batchPerLane =
      if ¬ p.SingleBuffer ∧ 1 < (if 1 < r.lanes then r.lanes else n) ∧
          (if 1 < r.lanes then r.lanes else n) < p.lanes
        then p.splitBatch (if 1 < r.lanes then r.lanes else n) else p.batchPerLane := by
  have hql := hq.lanes_eq
  have hrl := hr.lanes_eq
  rw [hr.batch_eq, hq.batch_eq, hq.split_eq]
  by_cases hone : p.SingleBuffer
  · -- one buffer is never split
    have hkeep : k = 1 ∨ q.SingleBuffer ∨ q.lanes ≤ k := by
      by_cases hmany : 1 < q.lanes
      · exact Or.inr (Or.inl ((hq.single_iff hmany).mpr hone))
      · exact Or.inr (Or.inr (by omega))
    rw [if_pos hkeep, if_pos (Or.inr (Or.inl hone)), if_neg fun hagain => hagain.1 hone]
  have hqone : 1 < q.lanes → ¬ q.SingleBuffer := fun hmany => mt (hq.single_iff hmany).mp hone
  by_cases hlast : 1 < k ∧ k < q.lanes
  · -- the second cut splits
    have hk' : (if 1 < r.lanes then r.lanes else n) = k := by
      rw [if_pos (by omega)]
      omega
    have hsplit : ¬ (k = 1 ∨ q.SingleBuffer ∨ q.lanes ≤ k) := by
      rintro (rfl | hsingle | hle)
      · omega
      · exact hqone (by omega) hsingle
      · omega
    rw [if_neg hsplit, hk', if_pos ⟨hone, by omega, by omega⟩]
  -- the second cut keeps the batch of the first
  have hkeep : k = 1 ∨ q.SingleBuffer ∨ q.lanes ≤ k := by omega
  rw [if_pos hkeep]
  by_cases hfirst : 1 < n ∧ n < p.lanes
  · have hlast' : (if 1 < r.lanes then r.lanes else n) = n := by
      split_ifs
      · omega
      · rfl
    have hsplit : ¬ (n = 1 ∨ p.SingleBuffer ∨ p.lanes ≤ n) := by
      rintro (rfl | hsingle | hle)
      · omega
      · exact hone hsingle
      · omega
    rw [if_neg hsplit, hlast', if_pos ⟨hone, hfirst⟩]
  · have hkeep' : n = 1 ∨ p.SingleBuffer ∨ p.lanes ≤ n := by omega
    rw [if_pos hkeep', if_neg]
    rintro ⟨-, hgt, hlt⟩
    split_ifs at hgt hlt
    · omega
    · omega

end XenMiner.VramBatch.CudaVramPlan

namespace XenMiner.CudaNativeBackend

open PyNum ThermalPolicy VramBatch VramPolicy

variable {s t : CudaNativeBackend} {env : EngineReply} {info : DeviceInfo} {base : CudaVramPlan}

/-! ### The split in force -/

/-- The lanes the budget of the base plan was split over last: one lane keeps the split before it. -/
def splitLanes (s : CudaNativeBackend) (base : CudaVramPlan) (lanes : ℤ) : ℤ :=
  if 1 < lanes then lanes else s.biasedLanes base.lanes base.difficulty

/-- The base plan holds several resident batches, and bias or caps split its budget over fewer. -/
def SplitAgain (s : CudaNativeBackend) (base : CudaVramPlan) (lanes : ℤ) : Prop :=
  ¬ base.SingleBuffer ∧ 1 < s.splitLanes base lanes ∧ s.splitLanes base lanes < base.lanes

instance (s : CudaNativeBackend) (base : CudaVramPlan) (lanes : ℤ) :
    Decidable (s.SplitAgain base lanes) := inferInstanceAs (Decidable (_ ∧ _))

theorem one_le_biasedLanes_of_lanes {planned : ℤ} (h : 1 ≤ planned) (d : ℤ) :
    1 ≤ s.biasedLanes planned d := by
  unfold biasedLanes
  split_ifs
  · exact one_le_difficultyLaneBias _ _ _ _
  · exact h

/-- The live caps together are one cut. -/
theorem exists_cut (q : CudaVramPlan) {caps : List ℤ} (hcaps : ∀ c ∈ caps, 1 ≤ c)
    (hlanes : 1 ≤ q.lanes) : ∃ k, 1 ≤ k ∧ (match caps.filter (· < q.lanes) with
      | [] => q
      | c :: caps => applyLaneCap q (caps.foldl min c)) = q.cut k := by
  split
  next => exact ⟨q.lanes, hlanes, (if_neg (lt_irrefl _)).symm⟩
  next c rest hfilter =>
    have hmem : rest.foldl min c ∈ caps.filter (· < q.lanes) := by
      rw [hfilter]
      exact List.min?_mem List.min?_cons'
    obtain ⟨hcap, hlt⟩ := List.mem_filter.mp hmem
    exact ⟨_, hcaps _ hcap, (if_pos (of_decide_eq_true hlt)).symm⟩

/-- Two cuts, the bias and the caps, but one split: the last one over at least two lanes. -/
theorem effectivePlan_batchPerLane (h : base.Fit) (hcaps : s.CapsPositive) :
    (s.effectivePlan base).batchPerLane =
      if s.SplitAgain base (s.effectivePlan base).lanes
        then base.splitBatch (s.splitLanes base (s.effectivePlan base).lanes)
        else base.batchPerLane := by
  have hlanes := h.sized.lanes_pos
  have hbias := one_le_biasedLanes_of_lanes (s := s) hlanes base.difficulty
  have hq := h.cut hbias
  obtain ⟨k, hk, heff⟩ := exists_cut (base.cut (s.biasedLanes base.lanes base.difficulty)) hcaps
    hq.fit.sized.lanes_pos
  have heq : s.effectivePlan base = (base.cut (s.biasedLanes base.lanes base.difficulty)).cut k := heff
  rw [heq]
  exact hq.batch_of_cut (hq.fit.cut hk) hbias hk

/-! ### Base plans respect the ceilings -/

/-- A batch within `cuda_max_batch_size` and `cuda_batch_size`, where they are set. -/
def WithinCeilings (s : CudaNativeBackend) (batch : ℤ) : Prop :=
  (0 < s.settings.cudaMaxBatchSize → batch ≤ s.settings.cudaMaxBatchSize) ∧
    (0 < s.settings.cudaBatchSize → batch ≤ s.settings.cudaBatchSize)

instance (s : CudaNativeBackend) (batch : ℤ) : Decidable (s.WithinCeilings batch) :=
  inferInstanceAs (Decidable (_ ∧ _))

theorem WithinCeilings.mono {b c : ℤ} (h : s.WithinCeilings c) (hle : b ≤ c) : s.WithinCeilings b :=
  ⟨fun hmax => hle.trans (h.1 hmax), fun hbatch => hle.trans (h.2 hbatch)⟩

theorem WithinCeilings.of_settings {b : ℤ} (h : s.WithinCeilings b) (ht : t.settings = s.settings) :
    t.WithinCeilings b := by
  unfold WithinCeilings
  rw [ht]
  exact h

/-- The planner respects both ceilings. -/
theorem withinCeilings_of_planFromDevice {d : ℤ} (h : s.planFromDevice info d = (t, .ok base)) :
    t.WithinCeilings base.batchPerLane := by
  obtain ⟨ht, hcheck⟩ := Prod.mk.inj h
  obtain ⟨rfl, hbatch⟩ := checkPlan_eq_ok hcheck
  rw [ht] at hbatch ⊢
  obtain ⟨-, -, ⟨-, hmax, hexplicit⟩, -⟩ :=
    planCudaBatch_isGreatest (t.planArgs info d) (difficulty_pos_of_batch hbatch) hbatch
  refine ⟨hmax, fun hpos => ?_⟩
  have harg : (t.planArgs info d).explicitBatch = t.settings.cudaBatchSize := if_pos hpos
  rw [harg] at hexplicit
  exact hexplicit hpos

theorem softClamp_batchPerLane_le {d : ℤ} :
    (s.softClamp base d).batchPerLane ≤ base.batchPerLane := by
  unfold softClamp
  dsimp only
  split_ifs with hmax hcut hcut
  · exact hcut.2.le
  · exact le_rfl
  · exact hcut.2.le
  · exact le_rfl

theorem setThermalBatchScale_settings (s : CudaNativeBackend) (scale : ℚ) :
    (s.setThermalBatchScale scale).settings = s.settings := by
  unfold setThermalBatchScale rescale
  dsimp only
  split_ifs <;> rfl

theorem setVramBatchScale_settings (s : CudaNativeBackend) (scale : ℚ) :
    (s.setVramBatchScale scale).settings = s.settings := by
  unfold setVramBatchScale rescale
  dsimp only
  split_ifs <;> rfl

theorem noteVramPressure_settings (s : CudaNativeBackend) (used target emergency : ℤ) :
    (s.noteVramPressure used target emergency).settings = s.settings := by
  unfold noteVramPressure
  dsimp only
  split_ifs <;> exact setVramBatchScale_settings _ _

/-- The base plan, if there is one, respects the ceilings. -/
def Ceiled (s : CudaNativeBackend) : Prop :=
  ∀ base, s.baseVramPlan = some base → s.WithinCeilings base.batchPerLane

theorem Ceiled.of_eq (h : s.Ceiled) (hbase : t.baseVramPlan = s.baseVramPlan)
    (ht : t.settings = s.settings) : t.Ceiled := by
  intro base hsome
  rw [hbase] at hsome
  exact (h base hsome).of_settings ht

/-- A plan within the ceilings is applied. -/
theorem Ceiled.syncLaneEngines (h : s.Ceiled) : (s.syncLaneEngines env).1.Ceiled := by
  obtain ⟨engines, mode, hsync, -⟩ := syncLaneEngines_eq s env
  rw [hsync]
  exact h.of_eq rfl rfl

theorem Ceiled.observeDevice (h : s.Ceiled) (info : DeviceInfo) : (s.observeDevice info).Ceiled := by
  obtain ⟨caps, foreign, baseline, heq⟩ := observeDevice_eq s info
  rw [heq]
  exact h.of_eq rfl rfl

theorem Ceiled.start (h : s.Ceiled) : (s.start env).1.Ceiled := by
  refine start_rule (P := Ceiled) env (fun _ => h) (fun _ => h.of_eq rfl rfl) (fun info _ => ?_)
    fun info t base _ _ hfrom => ?_
  · have hcold : (s.coldStart info).Ceiled := h.of_eq rfl rfl
    exact hcold.observeDevice info
  · have hceiled := withinCeilings_of_planFromDevice hfrom
    apply Ceiled.syncLaneEngines
    rintro _ ⟨⟩
    exact hceiled

theorem Ceiled.setDifficulty (h : s.Ceiled) (d : ℤ) : (s.setDifficulty env d).Ceiled := by
  have hstored : (s.storeDifficulty d).Ceiled := h.of_eq rfl rfl
  refine setDifficulty_rule (P := Ceiled) env (fun _ => h) (fun _ => hstored) fun _ _ => ?_
  refine replan_rule (P := Ceiled) env hstored hstored.observeDevice fun info t base _ hfrom => ?_
  have hceiled := (withinCeilings_of_planFromDevice hfrom).mono
    (softClamp_batchPerLane_le (s := t) (d := t.difficulty))
  apply Ceiled.syncLaneEngines
  rintro _ ⟨⟩
  exact hceiled

theorem Ceiled.reapplyLiveCaps (h : s.Ceiled) : (s.reapplyLiveCaps env).1.Ceiled :=
  h.of_eq (reapplyLiveCaps_keeps s env).1 (replanned_reapplyLiveCaps s env).settings_eq

theorem Ceiled.step (h : s.Ceiled) (i : EngineReply × LiveOp) : (s.liveStep i).Ceiled := by
  obtain ⟨env, op | _⟩ := i
  · cases op with
    | start => exact h.start
    | stop =>
      show s.stop.Ceiled
      unfold CudaNativeBackend.stop
      split_ifs
      · rintro base ⟨⟩
      · exact h
    | setVramCaps caps => exact h.of_eq rfl rfl
    | setDifficulty d => exact h.setDifficulty d
    | setThermalBatchScale scale =>
      exact h.of_eq (setThermalBatchScale_keeps s scale).1 (setThermalBatchScale_settings s scale)
    | setVramBatchScale scale =>
      exact h.of_eq (setVramBatchScale_keeps s scale).1 (setVramBatchScale_settings s scale)
    | updateThermalBatchFromTemp temperatureC =>
      exact h.of_eq (setThermalBatchScale_keeps { s with lastTempC := temperatureC } _).1
        (setThermalBatchScale_settings { s with lastTempC := temperatureC } _)
    | updateThermalLanesFromTemp temperatureC =>
      show (s.updateThermalLanesFromTemp env temperatureC).Ceiled
      unfold CudaNativeBackend.updateThermalLanesFromTemp
      split_ifs
      · exact h.of_eq rfl rfl
      · exact Ceiled.reapplyLiveCaps (h.of_eq rfl rfl)
    | updateVramPressureFromUsed used target emergency =>
      exact Ceiled.reapplyLiveCaps (h.of_eq (noteVramPressure_keeps s used target emergency).1
        (noteVramPressure_settings s used target emergency))
  · exact h.reapplyLiveCaps

/-! ### The launched batch -/

/-- The attempts an even share of the base plan's bytes holds, eased off by the scales in force. -/
def splitShare (s : CudaNativeBackend) (base : CudaVramPlan) (lanes : ℤ) : ℚ :=
  fitCount (base.budgetBytes / s.splitLanes base lanes) (bytesPerAttempt base.difficulty)
    * s.combinedBatchScale

/-- A share is within a ceiling when it holds no whole attempt more. -/
def ShareWithin (s : CudaNativeBackend) (base : CudaVramPlan) (lanes : ℤ) : Prop :=
  (0 < s.settings.cudaMaxBatchSize → s.splitShare base lanes < s.settings.cudaMaxBatchSize + 1) ∧
    (0 < s.settings.cudaBatchSize → s.splitShare base lanes < s.settings.cudaBatchSize + 1)

theorem applyBatchScale_le_iff {b m : ℤ} (hb : 1 ≤ b) (hm : 1 ≤ m) {scale : ℚ} (hlow : 1 / 2 ≤ scale)
    (hle : scale ≤ 1) : applyBatchScale b scale ≤ m ↔ (b : ℚ) * scale < m + 1 := by
  have hb0 : (0 : ℚ) ≤ b := by exact_mod_cast (by omega : 0 ≤ b)
  unfold applyBatchScale
  rw [if_neg (by omega), show clampFloat scale (1 / 2) 1 = scale from clamp_eq_self hlow hle,
    pyInt_of_nonneg (mul_nonneg hb0 (by linarith)), max_le_iff, and_iff_right hm, ← Int.lt_add_one_iff,
    Int.floor_lt]
  push_cast
  exact Iff.rfl

/-- The batch of a split, as an explicit share of the bytes. -/
theorem withinCeilings_split_iff (h : base.Fit) {lanes : ℤ} (hagain : s.SplitAgain base lanes) :
    s.WithinCeilings (applyBatchScale (base.splitBatch (s.splitLanes base lanes)) s.combinedBatchScale) ↔
      s.ShareWithin base lanes := by
  obtain ⟨hmany, hgt, hlt⟩ := hagain
  have hsplit : base.effectiveConcurrentVramLanes = base.lanes := h.kind.resolve_right hmany
  have hone := h.one_le_splitBatch (by omega) (hlt.trans_eq hsplit.symm)
  obtain ⟨hlow, hhigh⟩ := combinedBatchScale_mem s
  have hcount := CudaVramPlan.splitBatch_eq_fitCount h.sized.difficulty_pos hone
  unfold WithinCeilings ShareWithin splitShare
  rw [← hcount]
  refine and_congr (imp_congr_right fun hpos => ?_) (imp_congr_right fun hpos => ?_)
  · exact applyBatchScale_le_iff hone (by omega) hlow hhigh
  · exact applyBatchScale_le_iff hone (by omega) hlow hhigh

end XenMiner.CudaNativeBackend
