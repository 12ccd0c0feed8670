import XenMiner.Mining.Equiv.CudaNative

/-!
# The live derate state

Heat, VRAM pressure and difficulty cut lanes and batch of a running backend through seven operations,
some by a new plan and some by rescaling the batch alone.  What they leave is a function of the base
plan, the two scales and the two lane caps (`Derated`), in every state of every run (`derated_run`).

The base plans are those the planner answers (`CudaVramPlan.Fit`): a whole budget of theirs respects
the caps, so a lane cap keeps the plan within its limits and leaves exactly the lanes it names
(`CudaVramPlan.Fit.applyLaneCap`), and every lane that stays gets a batch
(`CudaVramPlan.Fit.one_le_splitBatch`).
-/

namespace XenMiner.VramBatch

open PyNum

/-! ### Plans that lane caps keep within the limits -/

namespace CudaVramPlan

variable {p : CudaVramPlan} {k : ℤ}

/-- The projection of a plan whose batches use up the budget. -/
def fullUseMib (p : CudaVramPlan) : ℤ :=
  max 0 p.foreignUsedMib + p.budgetBytes / mibBytes + p.runtimeOverheadMib

/-- A plan with a batch whose whole budget respects both caps. -/
structure Fit (p : CudaVramPlan) : Prop where
  sized : p.Sized
  kind : p.Split ∨ p.SingleBuffer
  batch_pos : 1 ≤ p.batchPerLane
  lanes_le : p.lanes ≤ defaultAbsoluteMaxLanes
  within : p.withinLimits = true
  target : p.fullUseMib ≤ p.targetMib
  headroom : p.desktopHeadroomMib ≤ p.totalMib - p.fullUseMib

/-- A choice the budget covers is projected below the whole budget. -/
theorem projectedUsedMib_resize_le {lanes batch total conc : ℤ} (hd : 0 < p.difficulty)
    (h : p.Covers lanes batch conc) :
    (p.resize batch lanes total conc).projectedUsedMib ≤ p.fullUseMib := by
  obtain ⟨hconc, hle, hbatch, hfits⟩ := h
  have hfoot : conc * estimateBatchVramBytes batch p.difficulty ≤ p.budgetBytes :=
    mul_estimateBatchVramBytes_le (by omega) hbatch hd hfits
  have hclamp : max 1 (min conc (max 1 lanes)) = conc := by omega
  have hmib : estimateBatchVramBytes batch p.difficulty * conc / mibBytes
      ≤ p.budgetBytes / mibBytes := by
    rw [mul_comm]
    exact Int.ediv_le_ediv mibBytes_pos hfoot
  show max 0 p.foreignUsedMib + estimateBatchVramBytes batch p.difficulty
    * max 1 (min conc (max 1 lanes)) / mibBytes + p.runtimeOverheadMib ≤ p.fullUseMib
  rw [hclamp]
  unfold fullUseMib
  omega

theorem Fit.resize (hp : p.Fit) {lanes batch conc : ℤ} (h : p.Covers lanes batch conc)
    (hkind : conc = lanes ∨ conc = 1) (hbatch : 1 ≤ batch) (hlanes : lanes ≤ p.lanes) :
    (p.resize batch lanes p.totalMib conc).Fit := by
  have hused : (p.resize batch lanes p.totalMib conc).projectedUsedMib ≤ p.fullUseMib :=
    projectedUsedMib_resize_le hp.sized.difficulty_pos h
  have hfree : (p.resize batch lanes p.totalMib conc).projectedHeadroomMib
      = max 0 (p.totalMib - (p.resize batch lanes p.totalMib conc).projectedUsedMib) := rfl
  have hheadroom := hp.headroom
  have htarget := hp.target
  refine ⟨hp.sized.resize h, ?_, hbatch, hlanes.trans hp.lanes_le, ?_, htarget, ?_⟩
  · have heff : (p.resize batch lanes p.totalMib conc).effectiveConcurrentVramLanes = conc :=
      effectiveConcurrentVramLanes_resize h.1 h.2.1
    exact hkind.imp heff.trans heff.trans
  · rw [withinLimits_iff, hfree]
    constructor
    · exact hused.trans htarget
    · show p.desktopHeadroomMib ≤ _
      omega
  · show p.desktopHeadroomMib ≤ (p.resize batch lanes p.totalMib conc).projectedUsedMib
      + (p.resize batch lanes p.totalMib conc).projectedHeadroomMib - p.fullUseMib
    rw [hfree]
    omega

/-- An attempt weighs more bytes than there are lanes. -/
theorem absoluteMaxLanes_le_bytesPerAttempt {d : ℤ} (hd : 0 < d) :
    (defaultAbsoluteMaxLanes : ℚ) ≤ bytesPerAttempt d := by
  simp only [bytesPerAttempt_exact, bytesPerAttemptFactor, defaultAbsoluteMaxLanes]
  have : (1 : ℚ) ≤ d := by exact_mod_cast hd
  push_cast
  linarith

/-- Fewer lanes of a split plan get a batch each: the budget held an attempt for one lane more, and
splitting it loses less than that attempt. -/
theorem Fit.one_le_splitBatch (hp : p.Fit) {conc : ℤ} (hconc : 1 ≤ conc)
    (hlt : conc < p.effectiveConcurrentVramLanes) : 1 ≤ p.splitBatch conc := by
  have hd := hp.sized.difficulty_pos
  have hw := bytesPerAttempt_pos hd
  have hlanes : conc ≤ defaultAbsoluteMaxLanes := by
    have heff := p.effectiveConcurrentVramLanes_le
    have h1 := hp.sized.lanes_pos
    have h32 := hp.lanes_le
    omega
  have hweight : (conc : ℚ) ≤ bytesPerAttempt p.difficulty :=
    le_trans (by exact_mod_cast hlanes) (absoluteMaxLanes_le_bytesPerAttempt hd)
  -- the attempts the budget covers: one for each of the lanes left, and one more
  have hmore : ((conc + 1 : ℤ) : ℚ) * (1 : ℤ) * bytesPerAttempt p.difficulty ≤ p.budgetBytes := by
    apply mul_le_budget_of_le hw (by omega) hp.batch_pos
    exact mul_le_budget_of_shares_le hw hp.sized.batch_nonneg (by omega) hp.sized.fits
  have hshare : bytesPerAttempt p.difficulty ≤ (p.budgetBytes / conc : ℤ) := by
    have hfloor : p.budgetBytes < (p.budgetBytes / conc + 1) * conc :=
      Int.lt_ediv_add_one_mul_self _ (by omega)
    have hfloor' : (p.budgetBytes : ℚ) < ((p.budgetBytes / conc : ℤ) + 1) * conc := by
      exact_mod_cast hfloor
    have hc : (0 : ℚ) < conc := by exact_mod_cast (by omega : 0 < conc)
    by_contra hlow
    have hcut := mul_lt_mul_of_pos_right (not_le.mp hlow) hc
    push_cast at hmore
    linarith
  have hpos : 1 ≤ p.budgetBytes / conc := by
    have hone := one_lt_bytesPerAttempt hd
    have : (1 : ℚ) ≤ (p.budgetBytes / conc : ℤ) := by linarith
    exact_mod_cast this
  have hfit : 1 ≤ fitCount (p.budgetBytes / conc) (bytesPerAttempt p.difficulty) := by
    rw [le_fitCount_iff hw, Int.cast_one, one_mul]
    exact hshare
  unfold splitBatch selectBatchSize
  rw [max_eq_right hpos, memoryLimitedBatchSize_add_reserve hd (by omega)]
  dsimp only
  rw [if_neg (by omega), if_neg (lt_irrefl 0)]
  exact hfit

/-- A lane cap on a plan that fits gives a plan that fits, with exactly the lanes it names. -/
theorem Fit.applyLaneCap (hp : p.Fit) :
    (applyLaneCap p k).Fit ∧ (applyLaneCap p k).lanes = min p.lanes (max 1 k) := by
  have heff := p.one_le_effectiveConcurrentVramLanes
  have hlanes := hp.sized.lanes_pos
  simp only [VramBatch.applyLaneCap]
  split_ifs with hcap hconc
  · exact ⟨hp, by omega⟩
  -- one buffer stays resident
  · have hone : min p.effectiveConcurrentVramLanes (max 1 k) = 1 := by omega
    rw [hone]
    have hfit : (p.resize p.batchPerLane (max 1 k) p.totalMib 1).Fit := by
      refine hp.resize ?_ (Or.inr rfl) hp.batch_pos (by omega)
      exact hp.sized.covers.mono hp.sized.difficulty_pos le_rfl (by omega) heff
        hp.sized.batch_nonneg le_rfl
    rw [clampPlanToCaps_of_withinLimits hfit.within]
    exact ⟨hfit, by rw [resize_lanes]; omega⟩
  -- the budget is split over the lanes that are left
  · have hsplit : p.effectiveConcurrentVramLanes = p.lanes := by
      rcases hp.kind with hsplit | hsingle
      · exact hsplit
      · unfold SingleBuffer at hsingle
        omega
    have hleft : min p.effectiveConcurrentVramLanes (max 1 k) = max 1 k := by omega
    rw [hleft]
    have hfit : (p.resize (p.splitBatch (max 1 k)) (max 1 k) p.totalMib (max 1 k)).Fit := by
      refine hp.resize ?_ (Or.inl rfl) ?_ (by omega)
      · exact hp.sized.covers_splitBatch (by omega) le_rfl
      · exact hp.one_le_splitBatch (by omega) (by omega)
    rw [clampPlanToCaps_of_withinLimits hfit.within]
    exact ⟨hfit, by rw [resize_lanes]; omega⟩

end CudaVramPlan

theorem PlanArgs.planLanes_le (a : PlanArgs) : a.planLanes ≤ defaultAbsoluteMaxLanes := by
  unfold planLanes sequentialLanes cudaLaneCount defaultAbsoluteMaxLanes
  dsimp only
  split_ifs <;> omega

/-- The planner answers plans that fit. -/
theorem fit_planCudaBatch {a : PlanArgs} (hb : 0 < (planCudaBatch a).batchPerLane)
    (hsized : (planCudaBatch a).Sized) (hkind : (planCudaBatch a).Split ∨
      (planCudaBatch a).SingleBuffer) : (planCudaBatch a).Fit := by
  have hd := difficulty_pos_of_batch hb
  have hraw := planCudaBatch_eq_rawPlan hd hb
  rw [hraw] at hb hsized hkind ⊢
  have hcap := PlanArgs.capBudgetBytes_pos hd (PlanArgs.baseBatchPerLane_pos hb)
  -- the budget is at most the whole number of MiB the caps allow
  have hbudget : a.rawPlan.budgetBytes / mibBytes ≤ a.allowedMib := by
    rw [← Int.mul_ediv_cancel a.allowedMib mibBytes_pos.ne',
      ← (PlanArgs.capBudgetBytes_eq_allowedMib hcap).2]
    exact Int.ediv_le_ediv mibBytes_pos (PlanArgs.budgetBytes_le_capBudgetBytes hcap)
  have hfull : a.rawPlan.fullUseMib = max 0 (max 0 a.foreignUsedMib)
      + a.rawPlan.budgetBytes / mibBytes
      + (max 0 a.runtimeOverheadMib + max 0 a.safetyMarginMib) := rfl
  have htotal : a.rawPlan.totalMib = a.rawPlan.projectedUsedMib
      + max 0 (a.totalBytes / mibBytes - a.rawPlan.projectedUsedMib) := rfl
  unfold PlanArgs.allowedMib at hbudget
  refine ⟨hsized, hkind, hb, a.planLanes_le, PlanArgs.withinLimits_rawPlan hd hcap, ?_, ?_⟩
  · show a.rawPlan.fullUseMib ≤ a.targetMib
    omega
  · show a.desktopHeadroomMib ≤ a.rawPlan.totalMib - a.rawPlan.fullUseMib
    omega

end XenMiner.VramBatch

namespace XenMiner.CudaNativeBackend

open PyNum ThermalPolicy VramBatch VramPolicy

variable {s : CudaNativeBackend} {env : EngineReply} {info : DeviceInfo} {base : CudaVramPlan}

/-! ### Curves answer at least one lane -/

theorem one_le_applyBatchScale {b : ℤ} (hb : 1 ≤ b) (scale : ℚ) : 1 ≤ applyBatchScale b scale := by
  unfold applyBatchScale
  rw [if_neg (by omega)]
  exact le_max_left _ _

theorem one_le_shrinkLanes {planned floor : ℤ} (t : ℚ) (h : 1 ≤ floor) :
    1 ≤ shrinkLanes planned floor t := h.trans (le_clamp _ _ _)

theorem one_le_floor (minLanes planned : ℤ) : 1 ≤ clampInt minLanes 1 planned := le_clamp _ _ _

theorem one_le_thermalLaneCap (planned t warn hard minLanes cool start : ℤ) :
    1 ≤ ThermalPolicy.thermalLaneCap planned t warn hard minLanes cool start := by
  have hfloor := one_le_floor minLanes (max 1 planned)
  unfold ThermalPolicy.thermalLaneCap
  dsimp only
  split_ifs <;> first
    | exact le_max_left _ _
    | exact hfloor
    | exact one_le_shrinkLanes _ hfloor

theorem one_le_vramPressureLaneCap (planned used target emergency minLanes : ℤ) :
    1 ≤ vramPressureLaneCap planned used target emergency minLanes := by
  have hfloor := one_le_floor minLanes (max 1 planned)
  unfold vramPressureLaneCap
  dsimp only
  split_ifs <;> first
    | exact le_max_left _ _
    | exact one_le_shrinkLanes _ hfloor

theorem one_le_difficultyLaneBias (planned d ref : ℤ) (ratio : ℚ) :
    1 ≤ difficultyLaneBias planned d ref ratio := by
  unfold difficultyLaneBias
  dsimp only
  split_ifs <;> first
    | exact le_rfl
    | exact le_max_left _ _

/-! ### The effective plan -/

theorem fit_effectivePlan (h : base.Fit) : (s.effectivePlan base).Fit := by
  have hbias : (if s.biasedLanes base.lanes base.difficulty < base.lanes then
      applyLaneCap base (s.biasedLanes base.lanes base.difficulty) else base).Fit := by
    split_ifs
    · exact h.applyLaneCap.1
    · exact h
  unfold effectivePlan
  dsimp only
  split
  · exact hbias
  · exact hbias.applyLaneCap.1

/-- Bias and caps are exact on the plans the planner answers, split or not. -/
theorem effectivePlan_lanes_of_fit (h : base.Fit) :
    (s.effectivePlan base).lanes = s.laneTarget base.lanes base.difficulty :=
  effectivePlan_lanes_of (P := CudaVramPlan.Fit) (fun _ _ hq => hq.applyLaneCap.1)
    (fun _ _ hq _ => hq.applyLaneCap.2) h h.sized.lanes_pos

/-- The caps in force leave at least one lane. -/
def CapsPositive (s : CudaNativeBackend) : Prop := ∀ cap ∈ s.liveLaneCaps, 1 ≤ cap

theorem capsPositive_iff : s.CapsPositive ↔
    (∀ cap, s.thermalLaneCap = some cap → 1 ≤ cap) ∧
      ∀ cap, s.vramLaneCap = some cap → 1 ≤ cap := by
  unfold CapsPositive liveLaneCaps
  constructor
  · intro h
    exact ⟨fun cap hcap => h cap (by simp [hcap]), fun cap hcap => h cap (by simp [hcap])⟩
  · rintro ⟨hthermal, hvram⟩ cap hmem
    rcases List.mem_append.mp hmem with hmem | hmem
    · exact hthermal cap (Option.mem_toList.mp hmem)
    · exact hvram cap (Option.mem_toList.mp hmem)

/-- The lanes in force are at most those of the base plan, its difficulty bias and each cap. -/
theorem laneTarget_le (hcaps : s.CapsPositive) {planned d : ℤ} (hplanned : 1 ≤ planned) :
    s.laneTarget planned d ≤ planned ∧
      (s.settings.gpuDifficultyLaneBias = true → s.laneTarget planned d ≤
        difficultyLaneBias planned d s.settings.vramReferenceDifficulty
          s.settings.gpuDifficultyLaneFullPackRatio) ∧
      (∀ cap, s.thermalLaneCap = some cap → s.laneTarget planned d ≤ cap) ∧
      ∀ cap, s.vramLaneCap = some cap → s.laneTarget planned d ≤ cap := by
  obtain ⟨hthermal, hvram⟩ := capsPositive_iff.mp hcaps
  have hbias := one_le_difficultyLaneBias planned d s.settings.vramReferenceDifficulty
    s.settings.gpuDifficultyLaneFullPackRatio
  unfold laneTarget
  dsimp only
  refine ⟨by omega, fun hon => ?_, fun cap hcap => ?_, fun cap hcap => ?_⟩
  · unfold biasedLanes
    by_cases hmany : 1 < planned
    · rw [if_pos ⟨hon, hmany⟩]
      omega
    · omega
  · have hpos := hthermal cap hcap
    rw [hcap, Option.getD_some]
    omega
  · have hpos := hvram cap hcap
    rw [hcap, Option.getD_some]
    omega

/-! ### What planning leaves alone -/

/-- `t` is `s` after planning and lane set-up: the settings, the library, the lane limit and what heat
and VRAM pressure left are the same. -/
structure Replanned (s t : CudaNativeBackend) : Prop where
  settings_eq : t.settings = s.settings
  parallelLanesSupported_eq : t.parallelLanesSupported = s.parallelLanesSupported
  maxLanesCap_eq : t.maxLanesCap = s.maxLanesCap
  thermalBatchScale_eq : t.thermalBatchScale = s.thermalBatchScale
  vramBatchScale_eq : t.vramBatchScale = s.vramBatchScale
  thermalLaneCap_eq : t.thermalLaneCap = s.thermalLaneCap
  vramLaneCap_eq : t.vramLaneCap = s.vramLaneCap

theorem Replanned.refl (s : CudaNativeBackend) : s.Replanned s := ⟨rfl, rfl, rfl, rfl, rfl, rfl, rfl⟩

theorem Replanned.trans {s t u : CudaNativeBackend} (h : s.Replanned t) (h' : t.Replanned u) :
    s.Replanned u where
  settings_eq := h'.settings_eq.trans h.settings_eq
  parallelLanesSupported_eq := h'.parallelLanesSupported_eq.trans h.parallelLanesSupported_eq
  maxLanesCap_eq := h'.maxLanesCap_eq.trans h.maxLanesCap_eq
  thermalBatchScale_eq := h'.thermalBatchScale_eq.trans h.thermalBatchScale_eq
  vramBatchScale_eq := h'.vramBatchScale_eq.trans h.vramBatchScale_eq
  thermalLaneCap_eq := h'.thermalLaneCap_eq.trans h.thermalLaneCap_eq
  vramLaneCap_eq := h'.vramLaneCap_eq.trans h.vramLaneCap_eq

theorem replanned_observeDevice (s : CudaNativeBackend) (info : DeviceInfo) :
    s.Replanned (s.observeDevice info) := by
  obtain ⟨caps, foreign, baseline, heq⟩ := observeDevice_eq s info
  rw [heq]
  exact ⟨rfl, rfl, rfl, rfl, rfl, rfl, rfl⟩

theorem replanned_applyPlan (s : CudaNativeBackend) (plan base : CudaVramPlan) :
    s.Replanned (s.applyPlan plan base) := ⟨rfl, rfl, rfl, rfl, rfl, rfl, rfl⟩

theorem replanned_syncLaneEngines (s : CudaNativeBackend) (env : EngineReply) :
    s.Replanned (s.syncLaneEngines env).1 := by
  obtain ⟨engines, mode, heq, -⟩ := syncLaneEngines_eq s env
  rw [heq]
  exact ⟨rfl, rfl, rfl, rfl, rfl, rfl, rfl⟩

theorem replanned_reapplyLiveCaps (s : CudaNativeBackend) (env : EngineReply) :
    s.Replanned (s.reapplyLiveCaps env).1 := by
  refine reapplyLiveCaps_rule (P := s.Replanned) env (fun _ => Replanned.refl s) (fun base _ _ => ?_)
    fun base _ => replanned_applyPlan s (s.effectivePlan base) base
  exact (replanned_applyPlan s _ base).trans (replanned_syncLaneEngines _ env)

theorem replanned_start (s : CudaNativeBackend) (env : EngineReply) :
    s.Replanned (s.start env).1 := by
  have hseen : ∀ info, s.Replanned ((s.coldStart info).observeDevice info) := by
    intro info
    have hcold : s.Replanned (s.coldStart info) := ⟨rfl, rfl, rfl, rfl, rfl, rfl, rfl⟩
    exact hcold.trans (replanned_observeDevice (s.coldStart info) info)
  refine start_rule (P := s.Replanned) env (fun _ => Replanned.refl s)
    (fun _ => ⟨rfl, rfl, rfl, rfl, rfl, rfl, rfl⟩) (fun info _ => hseen info)
    fun info t base _ _ hfrom => ?_
  have ht : s.Replanned t := (Prod.mk.inj hfrom).1 ▸ hseen info
  have hrun : s.Replanned { t.applyPlan (t.effectivePlan base) base with started := true } :=
    { ht.trans (replanned_applyPlan t (t.effectivePlan base) base) with }
  exact hrun.trans (replanned_syncLaneEngines _ env)

theorem replanned_replan (s : CudaNativeBackend) (env : EngineReply) :
    s.Replanned (s.replan env).1 := by
  refine replan_rule (P := s.Replanned) env (Replanned.refl s) (replanned_observeDevice s)
    fun info t base _ hfrom => ?_
  have ht : s.Replanned t := (Prod.mk.inj hfrom).1 ▸ replanned_observeDevice s info
  exact (ht.trans (replanned_applyPlan t _ _)).trans (replanned_syncLaneEngines _ env)

theorem replanned_setDifficulty (s : CudaNativeBackend) (env : EngineReply) (d : ℤ) :
    s.Replanned (s.setDifficulty env d) := by
  have hstored : s.Replanned (s.storeDifficulty d) := ⟨rfl, rfl, rfl, rfl, rfl, rfl, rfl⟩
  exact setDifficulty_rule (P := s.Replanned) env (fun _ => Replanned.refl s) (fun _ => hstored)
    fun _ _ => hstored.trans (replanned_replan _ env)

/-! ### The invariant -/

/-- What the derate operations leave of `base`: plan, lanes and batch are read off the base plan, the
scales and the lane caps. -/
structure Derated (s : CudaNativeBackend) (base : CudaVramPlan) : Prop where
  base_eq : s.baseVramPlan = some base
  fit : base.Fit
  plan_eq : s.vramPlan = some (s.effectivePlan base)
  lanes_eq : s.lanes = (s.effectivePlan base).lanes
  planned_eq : s.plannedBatchPerLane = (s.effectivePlan base).batchPerLane
  batch_eq : s.batchPerLane =
    applyBatchScale (s.effectivePlan base).batchPerLane s.combinedBatchScale
  size_eq : s.batchSize = s.batchPerLane

/-- A started backend has a base plan the planner answered. -/
def HasBase (s : CudaNativeBackend) : Prop :=
  s.started = true → ∃ base, s.baseVramPlan = some base ∧ base.Fit

/-- What holds of every state between two operations. -/
structure DerateInv (s : CudaNativeBackend) : Prop where
  caps : s.CapsPositive
  derated : s.started = true → ∃ base, s.Derated base

theorem DerateInv.hasBase (h : s.DerateInv) : s.HasBase := by
  intro hstarted
  obtain ⟨base, hder⟩ := h.derated hstarted
  exact ⟨base, hder.base_eq, hder.fit⟩

theorem derated_applyPlan (h : base.Fit) :
    (s.applyPlan (s.effectivePlan base) base).Derated base where
  base_eq := rfl
  fit := h
  plan_eq := rfl
  lanes_eq := rfl
  planned_eq := rfl
  batch_eq := rfl
  size_eq := rfl

/-- Lane set-up touches engines and mode only. -/
theorem Derated.syncLaneEngines (h : s.Derated base) : (s.syncLaneEngines env).1.Derated base := by
  obtain ⟨engines, mode, heq, -⟩ := syncLaneEngines_eq s env
  rw [heq]
  exact { h with }

/-- A rescaling recomputes the batch from the plan in force. -/
theorem Derated.rescale {t : CudaNativeBackend} (h : s.Derated base)
    (ht : ∃ thermal vram, t = { s with thermalBatchScale := thermal, vramBatchScale := vram }) :
    t.rescale.Derated base := by
  obtain ⟨thermal, vram, rfl⟩ := ht
  have hbatch := (fit_effectivePlan (s := s) h.fit).batch_pos
  unfold CudaNativeBackend.rescale
  have hplanned : 0 < s.plannedBatchPerLane := by
    rw [h.planned_eq]
    omega
  rw [if_pos hplanned]
  refine { h with batch_eq := ?_, size_eq := rfl }
  show applyBatchScale s.plannedBatchPerLane _ = _
  rw [h.planned_eq]
  rfl

theorem DerateInv.create (settings : Settings) (lib : Bool) (maxLanes : ℤ) :
    (create settings lib maxLanes).DerateInv where
  caps := nofun
  derated := nofun

/-- Caps of the card, readings and the stored difficulty are no part of the invariant. -/
theorem DerateInv.note (h : s.DerateInv) (caps : Option VramCaps)
    (d temp used foreign baseline : ℤ) :
    DerateInv { s with
      vramCaps := caps, difficulty := d, lastTempC := temp, lastVramUsedMib := used,
      foreignVramMib := foreign, desktopBaselineMib := baseline } := by
  refine ⟨h.caps, fun hrun => ?_⟩
  obtain ⟨base, hder⟩ := h.derated hrun
  exact ⟨base, { hder with }⟩

theorem DerateInv.setThermalBatchScale (h : s.DerateInv) (scale : ℚ) :
    (s.setThermalBatchScale scale).DerateInv := by
  unfold CudaNativeBackend.setThermalBatchScale
  dsimp only
  split_ifs
  · exact h
  generalize clampFloat scale s.thermalFloor 1 = new
  have hkeep : ({ s with thermalBatchScale := new }.rescale).started = s.started ∧
      ({ s with thermalBatchScale := new }.rescale).liveLaneCaps = s.liveLaneCaps := by
    unfold CudaNativeBackend.rescale
    split_ifs <;> exact ⟨rfl, rfl⟩
  refine ⟨fun cap hcap => h.caps cap (hkeep.2 ▸ hcap), fun hrun => ?_⟩
  obtain ⟨base, hder⟩ := h.derated (hkeep.1 ▸ hrun)
  exact ⟨base, hder.rescale ⟨new, s.vramBatchScale, rfl⟩⟩

theorem DerateInv.setVramBatchScale (h : s.DerateInv) (scale : ℚ) :
    (s.setVramBatchScale scale).DerateInv := by
  unfold CudaNativeBackend.setVramBatchScale
  dsimp only
  split_ifs
  · exact h
  generalize clampFloat scale s.vramFloor 1 = new
  have hkeep : ({ s with vramBatchScale := new }.rescale).started = s.started ∧
      ({ s with vramBatchScale := new }.rescale).liveLaneCaps = s.liveLaneCaps := by
    unfold CudaNativeBackend.rescale
    split_ifs <;> exact ⟨rfl, rfl⟩
  refine ⟨fun cap hcap => h.caps cap (hkeep.2 ▸ hcap), fun hrun => ?_⟩
  obtain ⟨base, hder⟩ := h.derated (hkeep.1 ▸ hrun)
  exact ⟨base, hder.rescale ⟨s.thermalBatchScale, new, rfl⟩⟩

/-! ### Plans from the device -/

theorem fit_of_planFromDevice {t : CudaNativeBackend} {d : ℤ}
    (h : s.planFromDevice info d = (t, .ok base)) : base.Fit := by
  obtain ⟨-, hsized, -, hsplit, hsingle⟩ := planFromDevice_eq_ok h
  obtain ⟨-, hcheck⟩ := Prod.mk.inj h
  obtain ⟨rfl, hbatch⟩ := checkPlan_eq_ok hcheck
  refine fit_planCudaBatch hbatch hsized ?_
  rcases concurrentVramLanesHint_cases (s := s) with ⟨hnone, -⟩ | ⟨hone, -⟩
  · exact Or.inl (hsplit hnone)
  · exact Or.inr (hsingle hone).1

theorem fit_softClamp {d : ℤ} (h : base.Fit) : (s.softClamp base d).Fit := by
  have hshrunk : base.Shrunk (s.softClamp base d) := softClamp_shrunk
  have hcut : 1 ≤ (s.softClamp base d).batchPerLane ∧
      ∃ batch, s.softClamp base d = { base with batchPerLane := batch, batchSize := batch } ∨
        s.softClamp base d = base := by
    have hbatch := h.batch_pos
    unfold softClamp
    dsimp only
    split_ifs with hmax hlimit hlimit
    · exact ⟨hlimit.1, _, Or.inl rfl⟩
    · exact ⟨hbatch, base.batchPerLane, Or.inr rfl⟩
    · exact ⟨hlimit.1, _, Or.inl rfl⟩
    · exact ⟨hbatch, base.batchPerLane, Or.inr rfl⟩
  obtain ⟨hbatch, batch, heq | heq⟩ := hcut
  · have hkind := h.kind.imp hshrunk.split hshrunk.single
    have hsized := hshrunk.sized h.sized
    rw [heq] at hkind hsized hbatch ⊢
    exact ⟨hsized, hkind, hbatch, h.lanes_le, h.within, h.target, h.headroom⟩
  · rw [heq]
    exact h

/-- An accounting step leaves the derate state alone. -/
theorem DerateInv.observeDevice (h : s.DerateInv) (info : DeviceInfo) :
    (s.observeDevice info).DerateInv := by
  obtain ⟨caps, foreign, baseline, heq⟩ := observeDevice_eq s info
  rw [heq]
  exact h.note caps s.difficulty s.lastTempC s.lastVramUsedMib foreign baseline

/-! ### Every operation keeps the invariant -/

/-- A new plan, with lane set-up after it. -/
theorem DerateInv.applyPlan (hcaps : s.CapsPositive) (h : base.Fit) (b : Bool) :
    ({ s.applyPlan (s.effectivePlan base) base with started := b }.syncLaneEngines env).1.DerateInv := by
  have hder : Derated { s.applyPlan (s.effectivePlan base) base with started := b } base :=
    { derated_applyPlan h with }
  refine ⟨?_, fun _ => ⟨base, hder.syncLaneEngines⟩⟩
  obtain ⟨engines, mode, heq, -⟩ :=
    syncLaneEngines_eq { s.applyPlan (s.effectivePlan base) base with started := b } env
  rw [heq]
  exact hcaps

theorem DerateInv.start (h : s.DerateInv) : (s.start env).1.DerateInv := by
  have hcold : ∀ caps foreign baseline, DerateInv { s with
      vramCaps := caps, foreignVramMib := foreign, desktopBaselineMib := baseline } :=
    fun caps foreign baseline =>
      h.note caps s.difficulty s.lastTempC s.lastVramUsedMib foreign baseline
  have hseen : ∀ info, ((s.coldStart info).observeDevice info).DerateInv :=
    fun info => (hcold _ _ _).observeDevice info
  refine start_rule (P := DerateInv) env (fun _ => h) (fun _ => hcold _ _ _)
    (fun info _ => hseen info) fun info t base _ _ hfrom => ?_
  have ht : t.DerateInv := (Prod.mk.inj hfrom).1 ▸ hseen info
  exact DerateInv.applyPlan ht.caps (fit_of_planFromDevice hfrom) true

theorem DerateInv.stop (h : s.DerateInv) : s.stop.DerateInv := by
  unfold CudaNativeBackend.stop
  split_ifs with hstarted
  · refine ⟨capsPositive_iff.mpr ⟨nofun, ?_⟩, nofun⟩
    exact (capsPositive_iff.mp h.caps).2
  · exact h

theorem DerateInv.replan (h : s.DerateInv) : (s.replan env).1.DerateInv := by
  refine replan_rule (P := DerateInv) env h h.observeDevice fun info t base _ hfrom => ?_
  have ht : t.DerateInv := (Prod.mk.inj hfrom).1 ▸ h.observeDevice info
  exact DerateInv.applyPlan ht.caps (fit_softClamp (fit_of_planFromDevice hfrom)) t.started

theorem DerateInv.setDifficulty (h : s.DerateInv) (d : ℤ) : (s.setDifficulty env d).DerateInv := by
  have hstored : (s.storeDifficulty d).DerateInv :=
    h.note s.vramCaps (max 1 d) s.lastTempC s.lastVramUsedMib s.foreignVramMib s.desktopBaselineMib
  exact setDifficulty_rule (P := DerateInv) env (fun _ => h) (fun _ => hstored)
    fun _ _ => hstored.replan

/-- Applying the live caps again needs a base plan only: the caps may be new. -/
theorem DerateInv.reapplyLiveCaps (hcaps : s.CapsPositive) (hbase : s.HasBase) :
    (s.reapplyLiveCaps env).1.DerateInv := by
  -- without a plan of the planner's the backend is not running
  have hfit : ∀ base, s.baseVramPlan = some base → s.started = true → base.Fit := by
    intro base hsome hrun
    obtain ⟨base', hsome', hfit⟩ := hbase hrun
    obtain rfl : base = base' := Option.some.inj (hsome.symm.trans hsome')
    exact hfit
  refine reapplyLiveCaps_rule (P := DerateInv) env (fun hnone => ⟨hcaps, fun hrun => ?_⟩)
    (fun base hsome _ => ?_) fun base hsome => ?_
  · obtain ⟨base, hsome, -⟩ := hbase hrun
    rw [hnone] at hsome
    cases hsome
  · by_cases hrun : s.started = true
    · exact DerateInv.applyPlan hcaps (hfit base hsome hrun) s.started
    · obtain ⟨engines, mode, heq, -⟩ :=
        syncLaneEngines_eq (s.applyPlan (s.effectivePlan base) base) env
      rw [heq]
      exact ⟨hcaps, fun hnew => absurd hnew hrun⟩
  · exact ⟨hcaps, fun hrun => ⟨base, derated_applyPlan (hfit base hsome hrun)⟩⟩

theorem DerateInv.updateVramPressureFromUsed (h : s.DerateInv) (used target emergency : ℤ) :
    (s.updateVramPressureFromUsed env used target emergency).DerateInv := by
  have hused := h.note s.vramCaps s.difficulty s.lastTempC used s.foreignVramMib s.desktopBaselineMib
  have hkeep : ∀ t : CudaNativeBackend, t.DerateInv → ∀ cap : Option ℤ, (∀ c ∈ cap, 1 ≤ c) →
      (({ t with vramLaneCap := cap } : CudaNativeBackend).reapplyLiveCaps env).1.DerateInv :=
    fun t ht cap hcap => DerateInv.reapplyLiveCaps
      (capsPositive_iff.mpr ⟨(capsPositive_iff.mp ht.caps).1, hcap⟩) ht.hasBase
  unfold CudaNativeBackend.updateVramPressureFromUsed noteVramPressure
  dsimp only
  split_ifs
  · refine hkeep _ (hused.setVramBatchScale _) _ ?_
    rintro c ⟨⟩
    exact one_le_vramPressureLaneCap _ _ _ _ _
  · exact hkeep _ (hused.setVramBatchScale _) _ nofun
  · exact hkeep _ (hused.setVramBatchScale _) _ nofun

theorem DerateInv.updateThermalLanesFromTemp (h : s.DerateInv) (temperatureC : ℤ) :
    (s.updateThermalLanesFromTemp env temperatureC).DerateInv := by
  unfold CudaNativeBackend.updateThermalLanesFromTemp
  split_ifs
  · exact h.note s.vramCaps s.difficulty temperatureC s.lastVramUsedMib s.foreignVramMib
      s.desktopBaselineMib
  · refine DerateInv.reapplyLiveCaps (capsPositive_iff.mpr ⟨?_, (capsPositive_iff.mp h.caps).2⟩)
      h.hasBase
    rintro c ⟨⟩
    exact one_le_thermalLaneCap _ _ _ _ _ _ _

theorem DerateInv.step (h : s.DerateInv) (i : EngineReply × Op) : (s.step i).DerateInv := by
  obtain ⟨env, op⟩ := i
  cases op with
  | start => exact h.start
  | stop => exact h.stop
  | setVramCaps caps => exact h.note caps _ _ _ _ _
  | setDifficulty difficulty => exact h.setDifficulty difficulty
  | setThermalBatchScale scale => exact h.setThermalBatchScale scale
  | setVramBatchScale scale => exact h.setVramBatchScale scale
  | updateThermalBatchFromTemp temperatureC =>
    exact (h.note s.vramCaps s.difficulty temperatureC s.lastVramUsedMib s.foreignVramMib
      s.desktopBaselineMib).setThermalBatchScale _
  | updateThermalLanesFromTemp temperatureC => exact h.updateThermalLanesFromTemp temperatureC
  | updateVramPressureFromUsed used target emergency =>
    exact h.updateVramPressureFromUsed used target emergency

/-! ### Runs -/

/-- The operations of the supervisor, and `_reapply_live_caps` called for itself. -/
inductive LiveOp
  | op (op : Op)
  | reapplyLiveCaps

def liveStep (s : CudaNativeBackend) : EngineReply × LiveOp → CudaNativeBackend
  | (env, .op op) => s.step (env, op)
  | (env, .reapplyLiveCaps) => (s.reapplyLiveCaps env).1

theorem DerateInv.liveStep (h : s.DerateInv) (i : EngineReply × LiveOp) :
    (s.liveStep i).DerateInv := by
  obtain ⟨env, op⟩ := i
  cases op with
  | op op => exact h.step (env, op)
  | reapplyLiveCaps => exact DerateInv.reapplyLiveCaps h.caps h.hasBase

/-- **The live derate state is a function of its inputs.**  In every state of every run in which the
backend is started, whatever the engine answered and whichever replan failed on the way: the plan in
force is the effective plan of the base plan and within its limits, lanes and batch are those of the
plan and the scales in force, and the lanes respect base plan, difficulty bias and both lane caps. -/
theorem derated_run (settings : Settings) (lib : Bool) (maxLanes : ℤ)
    (inputs : List (EngineReply × LiveOp))
    (hstarted : (Run.final liveStep (create settings lib maxLanes) inputs).started = true) :
    let s := Run.final liveStep (create settings lib maxLanes) inputs
    ∃ base plan, s.baseVramPlan = some base ∧ s.vramPlan = some plan ∧
      plan = s.effectivePlan base ∧
      (s.lanes = plan.lanes ∧ 1 ≤ s.lanes) ∧
      (s.batchSize = s.batchPerLane ∧
        s.batchPerLane = applyBatchScale plan.batchPerLane s.combinedBatchScale ∧
        1 ≤ s.batchPerLane ∧ s.batchPerLane ≤ plan.batchPerLane) ∧
      plan.withinLimits = true ∧
      (s.lanes ≤ base.lanes ∧
        (s.settings.gpuDifficultyLaneBias = true → s.lanes ≤ difficultyLaneBias base.lanes
          base.difficulty s.settings.vramReferenceDifficulty
          s.settings.gpuDifficultyLaneFullPackRatio) ∧
        (∀ cap, s.thermalLaneCap = some cap → s.lanes ≤ cap) ∧
        ∀ cap, s.vramLaneCap = some cap → s.lanes ≤ cap) := by
  intro s
  have hinv : s.DerateInv := Run.invariant (I := DerateInv) (fun _ i h => h.liveStep i)
    (DerateInv.create settings lib maxLanes)
  obtain ⟨base, hder⟩ := hinv.derated hstarted
  have hfit := fit_effectivePlan (s := s) hder.fit
  have htarget : s.lanes = s.laneTarget base.lanes base.difficulty :=
    hder.lanes_eq.trans (effectivePlan_lanes_of_fit hder.fit)
  refine ⟨base, s.effectivePlan base, hder.base_eq, hder.plan_eq, rfl, ⟨hder.lanes_eq, ?_⟩,
    ⟨hder.size_eq, hder.batch_eq, ?_, ?_⟩, hfit.within, ?_⟩
  · rw [hder.lanes_eq]
    exact hfit.sized.lanes_pos
  · rw [hder.batch_eq]
    exact one_le_applyBatchScale hfit.batch_pos _
  · rw [hder.batch_eq]
    exact applyBatchScale_le hfit.sized.batch_nonneg _
  · rw [htarget]
    exact laneTarget_le hinv.caps hder.fit.sized.lanes_pos

/-- Eight parallel lanes lose some to heat, the batch is scaled, and the network replans. -/
theorem derated_run_heat :
    let s := Run.final liveStep (create { memoryCost := 100 } true 8) [(steadyEngine, .op .start),
      (steadyEngine, .op (.updateThermalLanesFromTemp 80)),
      (steadyEngine, .op (.setVramBatchScale (3 / 4))),
      (steadyEngine, .op (.setDifficulty 300)), (steadyEngine, .reapplyLiveCaps)]
    1 ≤ s.lanes ∧ 1 ≤ s.batchPerLane ∧ ∀ cap, s.thermalLaneCap = some cap → s.lanes ≤ cap := by
  obtain ⟨base, plan, -, -, -, ⟨-, hlanes⟩, ⟨-, -, hbatch, -⟩, -, -, -, hthermal, -⟩ :=
    derated_run { memoryCost := 100 } true 8 [(steadyEngine, .op .start),
      (steadyEngine, .op (.updateThermalLanesFromTemp 80)),
      (steadyEngine, .op (.setVramBatchScale (3 / 4))),
      (steadyEngine, .op (.setDifficulty 300)), (steadyEngine, .reapplyLiveCaps)]
      (by decide +kernel)
  exact ⟨hlanes, hbatch, hthermal⟩

end XenMiner.CudaNativeBackend
