import XenMiner.Lib.Run
import XenMiner.Mining.CudaNative
import XenMiner.Mining.Equiv.LaneCap

/-!
# Resident VRAM of the CUDA backend

A plan is sized for the way lanes will run: split over all lanes when they run at the same time,
for one buffer when they take turns.  Planning guesses the way from the current mode
(`concurrentVramLanesHint`), and lane set-up chooses it afterwards (`syncLaneEngines`).  The
invariant `Inv` says that the two agree: a running backend has a plan cut from its base plan, inside
the budget for the difficulty of that plan, and lanes run at the same time only under a split plan.

Every operation keeps the invariant (`Inv.step`) but one: lane set-up may load lane copies for a plan
that was sized for one buffer.  `StepSafe` excludes that branch; under it the footprint stays inside
the budget in every run (`footprint_le_budget`).  A replan that fails leaves the invariant, which is
relative to the difficulty of the plan in force, but not the difficulty of the backend
(`setDifficulty_launch`).
-/

namespace XenMiner.CudaNativeBackend

open PyNum ThermalPolicy VramBatch VramPolicy

variable {s : CudaNativeBackend} {env : EngineReply} {info : DeviceInfo} {base plan : CudaVramPlan}

/-! ### Scales -/

theorem thermalFloor_mem (s : CudaNativeBackend) : 1 / 2 ≤ s.thermalFloor ∧ s.thermalFloor ≤ 1 :=
  ⟨le_clamp _ _ _, clamp_le (by norm_num)⟩

theorem vramFloor_mem (s : CudaNativeBackend) : 1 / 2 ≤ s.vramFloor ∧ s.vramFloor ≤ 1 :=
  ⟨le_clamp _ _ _, clamp_le (by norm_num)⟩

theorem applyBatchScale_nonneg (b : ℤ) (scale : ℚ) : 0 ≤ applyBatchScale b scale := by
  unfold applyBatchScale
  split_ifs <;> omega

theorem applyBatchScale_le {b : ℤ} (hb : 0 ≤ b) (scale : ℚ) : applyBatchScale b scale ≤ b := by
  unfold applyBatchScale
  split_ifs with h
  · exact hb
  · have hb' : (0 : ℚ) ≤ b := by exact_mod_cast hb
    have hlow : (0 : ℚ) ≤ clampFloat scale (1 / 2) 1 :=
      le_trans (by norm_num) (le_clamp scale (1 / 2) 1)
    have hhigh : clampFloat scale (1 / 2) 1 ≤ 1 := clamp_le (by norm_num)
    have hint : (pyInt (b * clampFloat scale (1 / 2) 1) : ℚ) ≤ b :=
      (pyInt_le (mul_nonneg hb' hlow)).trans (mul_le_of_le_one_right hb' hhigh)
    have hint' : pyInt (b * clampFloat scale (1 / 2) 1) ≤ b := by exact_mod_cast hint
    omega

/-! ### Planning -/

/-- The two answers of the hint. -/
theorem concurrentVramLanesHint_cases :
    s.concurrentVramLanesHint = none ∧
        (s.parallelMode ≠ .sequential ∨ s.parallelLanesSupported = true) ∨
      s.concurrentVramLanesHint = some 1 ∧ s.parallelMode = .sequential ∧
        s.parallelLanesSupported = false := by
  unfold concurrentVramLanesHint
  cases hmode : s.parallelMode <;> cases hlib : s.parallelLanesSupported <;> simp

/-- The accounting of a reading touches the caps and the memory figures only. -/
theorem observeDevice_eq (s : CudaNativeBackend) (info : DeviceInfo) :
    ∃ caps foreign baseline, s.observeDevice info =
      { s with
        vramCaps := caps, foreignVramMib := foreign, desktopBaselineMib := baseline } := by
  unfold observeDevice
  dsimp only
  split_ifs
  · exact ⟨_, _, _, rfl⟩
  · exact ⟨_, _, s.desktopBaselineMib, rfl⟩
  · exact ⟨_, _, s.desktopBaselineMib, rfl⟩

theorem checkPlan_eq_ok {d : ℤ} {q : CudaVramPlan} (h : s.checkPlan info d q = .ok plan) :
    plan = q ∧ 0 < q.batchPerLane := by
  unfold checkPlan at h
  dsimp only at h
  split_ifs at h with hbatch
  rw [Except.ok.injEq] at h
  exact ⟨h.symm, not_le.mp hbatch⟩

theorem rawPlan_sized {a : PlanArgs} (hd : 0 < a.difficulty) : a.rawPlan.Sized where
  difficulty_pos := hd
  lanes_pos := PlanArgs.one_le_planLanes a
  batch_nonneg := PlanArgs.planBatchPerLane_nonneg hd
  budget_nonneg := PlanArgs.budgetBytes_nonneg a
  fits := by
    rw [PlanArgs.effectiveConcurrentVramLanes_rawPlan]
    exact PlanArgs.planConc_mul_planBatchPerLane_le hd (PlanArgs.budgetBytes_nonneg a)

/-- What a successful `planFromDevice` gives: a plan inside its budget, split or single-buffer as the
hint says. -/
theorem planFromDevice_eq_ok {t : CudaNativeBackend} {d : ℤ}
    (h : s.planFromDevice info d = (t, .ok base)) :
    t = s.observeDevice info ∧ base.Sized ∧ base.difficulty = d ∧
      (s.concurrentVramLanesHint = none → base.Split) ∧
      (s.concurrentVramLanesHint = some 1 →
        base.SingleBuffer ∧ base.lanes = (t.planArgs info d).sequentialLanes) := by
  obtain ⟨ht, hcheck⟩ := Prod.mk.inj h
  obtain ⟨rfl, hbatch⟩ := checkPlan_eq_ok hcheck
  rw [ht] at hbatch ⊢
  have hd := difficulty_pos_of_batch hbatch
  have hraw := planCudaBatch_eq_rawPlan hd hbatch
  have hhint : (t.planArgs info d).concurrentVramLanes = s.concurrentVramLanesHint := by
    obtain ⟨caps, foreign, baseline, heq⟩ := observeDevice_eq s info
    rw [← ht, heq]
    rfl
  rw [hraw]
  refine ⟨rfl, rawPlan_sized hd, rfl, fun hnone => ?_, fun hone => ?_⟩
  · have hseq : (t.planArgs info d).seqMode = false := by
      unfold PlanArgs.seqMode
      rw [hhint, hnone]
    unfold CudaVramPlan.Split
    rw [PlanArgs.effectiveConcurrentVramLanes_rawPlan]
    unfold PlanArgs.planConc
    rw [hseq]
    rfl
  · have hseq : (t.planArgs info d).seqMode = true := by
      unfold PlanArgs.seqMode
      rw [hhint, hone]
      rfl
    constructor
    · unfold CudaVramPlan.SingleBuffer
      rw [PlanArgs.effectiveConcurrentVramLanes_rawPlan, PlanArgs.planConc, if_pos hseq]
    · show (t.planArgs info d).planLanes = _
      rw [PlanArgs.planLanes, if_pos hseq]

theorem softClamp_shrunk {d : ℤ} : base.Shrunk (s.softClamp base d) := by
  unfold softClamp
  dsimp only
  split_ifs with hlimit hcut hcut
  all_goals first
    | exact CudaVramPlan.Shrunk.refl base
    | refine ⟨rfl, fun hp => ?_, id, id⟩
      have hcovers := hp.covers.mono hp.difficulty_pos hp.covers.1 hp.covers.2.1 le_rfl hcut.1.le
        hcut.2.le
      exact ⟨hp.difficulty_pos, hp.lanes_pos, hcut.1.le, hp.budget_nonneg, hcovers.2.2.2⟩

theorem softClamp_lanes {d : ℤ} : (s.softClamp base d).lanes = base.lanes := by
  unfold softClamp
  dsimp only
  split_ifs <;> rfl

/-! ### The effective plan -/

theorem effectivePlan_shrunk : base.Shrunk (s.effectivePlan base) := by
  have hbias : base.Shrunk (if s.biasedLanes base.lanes base.difficulty < base.lanes then
      applyLaneCap base (s.biasedLanes base.lanes base.difficulty) else base) := by
    split_ifs
    · exact applyLaneCap_shrunk
    · exact CudaVramPlan.Shrunk.refl base
  unfold effectivePlan
  dsimp only
  split
  · exact hbias
  · exact hbias.trans applyLaneCap_shrunk

/-- The lanes the difficulty bias and the live caps leave of `planned`. -/
def laneTarget (s : CudaNativeBackend) (planned difficulty : ℤ) : ℤ :=
  let biased := min planned (max 1 (s.biasedLanes planned difficulty))
  min (min biased (max 1 (s.thermalLaneCap.getD biased))) (max 1 (s.vramLaneCap.getD biased))

/-- Caps that do not bind do not matter to the least one. -/
theorem foldl_min_filter {n m : ℤ} (h : n ≤ m) (caps : List ℤ) :
    (caps.filter (· < m)).foldl min n = caps.foldl min n := by
  induction caps generalizing n with
  | nil => rfl
  | cons c caps ih =>
    by_cases hc : c < m
    · rw [List.filter_cons_of_pos (by simpa using hc), List.foldl_cons, List.foldl_cons]
      exact ih ((min_le_left n c).trans h)
    · have hmin : min n c = n := min_eq_left (by omega)
      rw [List.filter_cons_of_neg (by simpa using hc), List.foldl_cons, hmin]
      exact ih h

theorem laneTarget_eq {planned difficulty : ℤ} (hplanned : 1 ≤ planned) :
    s.laneTarget planned difficulty = max 1 (s.liveLaneCaps.foldl min
      (min planned (max 1 (s.biasedLanes planned difficulty)))) := by
  unfold laneTarget liveLaneCaps
  dsimp only
  have hbiased : 1 ≤ min planned (max 1 (s.biasedLanes planned difficulty)) := by omega
  generalize min planned (max 1 (s.biasedLanes planned difficulty)) = biased at hbiased ⊢
  -- A cap moves past the floor of one lane.
  have hfloor : ∀ cap, min biased (max 1 cap) = max 1 (min biased cap) := fun cap => by omega
  cases s.thermalLaneCap with
  | none =>
    cases s.vramLaneCap with
    | none => simp [hbiased]
    | some v => simpa using hfloor v
  | some t =>
    cases s.vramLaneCap with
    | none => simpa using hfloor t
    | some v =>
      have hboth := hfloor (min t v)
      rw [max_min_distrib_left] at hboth
      simpa [min_assoc] using hboth

/-- Where every lane cap is exact, on a class of plans that lane caps do not leave, bias and live caps
take exactly the lanes they name. -/
theorem effectivePlan_lanes_of {P : CudaVramPlan → Prop}
    (hcut : ∀ q k, P q → P (applyLaneCap q k)) (hlane : ∀ q k, P q → 1 ≤ q.lanes →
      (applyLaneCap q k).lanes = min q.lanes (max 1 k)) (hbase : P base) (hlanes : 1 ≤ base.lanes) :
    (s.effectivePlan base).lanes = s.laneTarget base.lanes base.difficulty := by
  rw [laneTarget_eq hlanes]
  unfold effectivePlan
  dsimp only
  generalize s.biasedLanes base.lanes base.difficulty = n
  obtain ⟨q, hq, hqs, hql⟩ : ∃ q, q = (if n < base.lanes then applyLaneCap base n else base) ∧
      P q ∧ q.lanes = min base.lanes (max 1 n) := by
    refine ⟨_, rfl, ?_, ?_⟩
    · split_ifs
      · exact hcut base n hbase
      · exact hbase
    · split_ifs
      · exact hlane base n hbase hlanes
      · omega
  have hq1 : 1 ≤ q.lanes := by omega
  rw [← hq, ← hql, ← foldl_min_filter le_rfl]
  cases s.liveLaneCaps.filter (· < q.lanes) with
  | nil => exact (max_eq_right hq1).symm
  | cons c caps =>
    dsimp only
    rw [hlane q _ hqs hq1, List.foldl_cons, List.foldl_assoc]
    omega

/-- On a single-buffer plan the caps take exactly the lanes they name. -/
theorem effectivePlan_lanes (hsingle : base.SingleBuffer) (hlanes : 1 ≤ base.lanes) :
    (s.effectivePlan base).lanes = s.laneTarget base.lanes base.difficulty :=
  effectivePlan_lanes_of (P := CudaVramPlan.SingleBuffer)
    (fun _ _ hq => applyLaneCap_shrunk.single hq) (fun _ _ hq h1 => applyLaneCap_lanes hq h1)
    hsingle hlanes

/-! ### Lane set-up -/

/-- Lane set-up for `lanes` lanes would load a copy of the library for every lane: the library has
no parallel lanes, copies are allowed, and none of the copies still missing fails. -/
def LoadsLaneCopies (s : CudaNativeBackend) (env : EngineReply) (lanes : ℤ) : Prop :=
  s.parallelLanesSupported = false ∧ s.settings.cudaAllowDllLaneCopies = true ∧ 1 < lanes ∧
    ∀ lane ∈ neededLanes lanes,
      lane ∈ s.laneEngines ∨ env.laneCopy lane s.workerReserveBytes = .ok

theorem loadLanes_eq_ok {copy : ℤ → Outcome} {loaded needed final : List ℤ}
    (h : loadLanes copy loaded needed = (final, .ok)) :
    ∀ lane ∈ needed, lane ∈ loaded ∨ copy lane = .ok := by
  induction needed generalizing loaded with
  | nil =>
    intro lane hlane
    cases hlane
  | cons first needed ih =>
    intro lane hlane
    rw [loadLanes] at h
    split_ifs at h with hmem
    · rcases List.mem_cons.mp hlane with rfl | hlane
      · exact Or.inl hmem
      · exact ih h lane hlane
    · cases hcopy : copy first with
      | ok =>
        rw [hcopy] at h
        rcases List.mem_cons.mp hlane with rfl | hlane
        · exact Or.inr hcopy
        · rcases ih h lane hlane with hloaded | hok
          · rcases List.mem_append.mp hloaded with hloaded | hfirst
            · exact Or.inl hloaded
            · rw [List.mem_singleton.mp hfirst]
              exact Or.inr hcopy
          · exact Or.inr hok
      | refused => simp [hcopy] at h
      | raised => simp [hcopy] at h

/-- Lane set-up keeps the state it reached or falls back to sequential prefixes. -/
theorem settle_cases (t : CudaNativeBackend) (outcome : Outcome) :
    (t.settle outcome).1 = t ∨ (t.settle outcome).1 = t.useSequentialMultiPrefix := by
  cases outcome with
  | ok => exact Or.inl rfl
  | refused => exact Or.inr rfl
  | raised => exact Or.inl rfl

theorem syncLaneCopyWorkers_eq (s : CudaNativeBackend) (env : EngineReply) :
    ∃ engines mode, (s.syncLaneCopyWorkers env).1 =
        { s with laneEngines := engines, parallelMode := mode } ∧
      (mode = s.parallelMode ∨ ∀ lane ∈ neededLanes s.lanes,
        lane ∈ s.laneEngines ∨ env.laneCopy lane s.workerReserveBytes = .ok) := by
  unfold syncLaneCopyWorkers
  dsimp only
  split
  next loaded hload =>
    refine ⟨loaded, .dllCopies, rfl, Or.inr fun lane hlane => ?_⟩
    rcases loadLanes_eq_ok hload lane hlane with hkept | hok
    · exact Or.inl (List.mem_filter.mp hkept).1
    · exact Or.inr hok
  next loaded outcome _ _ => exact ⟨loaded, s.parallelMode, rfl, Or.inl rfl⟩

/-- The ways lane set-up can leave the mode. -/
theorem syncLaneEngines_eq (s : CudaNativeBackend) (env : EngineReply) :
    ∃ engines mode, (s.syncLaneEngines env).1 =
        { s with laneEngines := engines, parallelMode := mode } ∧
      (mode = s.parallelMode ∨ mode = .sequential ∨ s.parallelLanesSupported = true ∨
        s.LoadsLaneCopies env s.lanes) := by
  unfold syncLaneEngines
  by_cases hstarted : s.started = false
  · rw [if_pos hstarted]
    exact ⟨_, _, rfl, Or.inl rfl⟩
  rw [if_neg hstarted]
  by_cases hlib : s.parallelLanesSupported = true
  · rw [if_pos hlib]
    dsimp only
    generalize hmode : (if 1 < s.lanes then ParallelMode.native else .sequential) = mode
    rcases settle_cases { s with laneEngines := [], parallelMode := mode }
      (env.setLaneCount s.lanes) with h | h
    · exact ⟨[], mode, h, Or.inr (Or.inr (Or.inl hlib))⟩
    · exact ⟨[], .sequential, h, Or.inr (Or.inl rfl)⟩
  rw [if_neg hlib]
  by_cases hlanes : 1 < s.lanes
  · rw [if_pos hlanes]
    by_cases hcopies : s.settings.cudaAllowDllLaneCopies = false
    · rw [if_pos hcopies]
      exact ⟨_, _, rfl, Or.inr (Or.inl rfl)⟩
    rw [if_neg hcopies]
    obtain ⟨engines, mode, heq, hmode⟩ := syncLaneCopyWorkers_eq s env
    rcases settle_cases (s.syncLaneCopyWorkers env).1 (s.syncLaneCopyWorkers env).2 with h | h
    · refine ⟨engines, mode, h.trans heq, ?_⟩
      rcases hmode with hmode | hload
      · exact Or.inl hmode
      · exact Or.inr (Or.inr (Or.inr
          ⟨by simpa using hlib, by simpa using hcopies, hlanes, hload⟩))
    · refine ⟨[], .sequential, h.trans ?_, Or.inr (Or.inl rfl)⟩
      rw [heq]
      rfl
  · rw [if_neg hlanes]
    exact ⟨_, _, rfl, Or.inr (Or.inl rfl)⟩

/-! ### The invariant -/

/-- A backend that runs `plan`, cut from `base`: the batch it launches with is at most the plan's, and
lanes run at the same time only under a split plan. -/
structure Runs (s : CudaNativeBackend) (base plan : CudaVramPlan) : Prop where
  base_eq : s.baseVramPlan = some base
  plan_eq : s.vramPlan = some plan
  sized : base.Sized
  shrunk : base.Shrunk plan
  lanes_eq : s.lanes = plan.lanes
  planned_eq : s.plannedBatchPerLane = plan.batchPerLane
  batch_nonneg : 0 ≤ s.batchPerLane
  batch_le : s.batchPerLane ≤ plan.batchPerLane
  kind : base.Split ∨ base.SingleBuffer
  concurrent : s.parallelMode ≠ .sequential ∨ s.parallelLanesSupported = true → base.Split

/-- What holds of every reachable state: a stopped backend has no plan and the sequential mode, a
started one runs a plan. -/
structure Inv (s : CudaNativeBackend) : Prop where
  stopped : s.started = false →
    s.vramPlan = none ∧ s.baseVramPlan = none ∧ s.parallelMode = .sequential
  running : s.started = true → ∃ base plan, s.Runs base plan

namespace Runs

/-- Every running backend stays inside the budget for the difficulty of its plan. -/
theorem launch_le (h : s.Runs base plan) :
    (s.concurrentLanes : ℚ) * s.batchPerLane * bytesPerAttempt plan.difficulty
      ≤ plan.budgetBytes := by
  have hp := h.shrunk.sized h.sized
  have hconc : 0 ≤ s.concurrentLanes ∧
      s.concurrentLanes ≤ plan.effectiveConcurrentVramLanes := by
    have hone := plan.one_le_effectiveConcurrentVramLanes
    have hlanes := hp.lanes_pos
    unfold concurrentLanes
    split_ifs with hmode
    · have hpar : s.parallelMode ≠ .sequential := by
        rcases hmode with hmode | hmode <;> rw [hmode] <;> exact nofun
      have hsplit : plan.effectiveConcurrentVramLanes = plan.lanes :=
        h.shrunk.split (h.concurrent (Or.inl hpar))
      rw [h.lanes_eq]
      omega
    · omega
  have hw := bytesPerAttempt_pos hp.difficulty_pos
  apply mul_le_budget_of_le hw hconc.1 h.batch_le
  exact mul_le_budget_of_shares_le hw hp.batch_nonneg hconc.2 hp.fits

/-- Changing the batch within the plan keeps the backend running it. -/
theorem rescale (h : s.Runs base plan) : s.rescale.Runs base plan := by
  unfold CudaNativeBackend.rescale
  split_ifs with hpos
  · have hpos' : 0 ≤ plan.batchPerLane := by
      rw [← h.planned_eq]
      exact hpos.le
    exact { h with
      batch_nonneg := applyBatchScale_nonneg _ _
      batch_le := by
        rw [h.planned_eq]
        exact applyBatchScale_le hpos' _ }
  · exact h

/-- Lane set-up is safe under a split plan, and where it loads no copies. -/
theorem syncLaneEngines (h : s.Runs base plan)
    (hsafe : base.Split ∨ ¬ s.LoadsLaneCopies env s.lanes) :
    (s.syncLaneEngines env).1.Runs base plan := by
  obtain ⟨engines, mode, heq, hmode⟩ := syncLaneEngines_eq s env
  rw [heq]
  refine { h with concurrent := fun hnew => ?_ }
  rcases hmode with hmode | hmode | hmode | hmode
  · exact h.concurrent (by rwa [hmode] at hnew)
  · rcases hnew with hnew | hnew
    · exact absurd hmode hnew
    · exact h.concurrent (Or.inr hnew)
  · exact h.concurrent (Or.inr hmode)
  · rcases hsafe with hsplit | hload
    · exact hsplit
    · exact absurd hmode hload

end Runs

/-- Applying the effective plan of a sized base plan. -/
theorem runs_applyPlan (hsized : base.Sized) (hkind : base.Split ∨ base.SingleBuffer)
    (hconc : s.parallelMode ≠ .sequential ∨ s.parallelLanesSupported = true → base.Split) :
    (s.applyPlan (s.effectivePlan base) base).Runs base (s.effectivePlan base) where
  base_eq := rfl
  plan_eq := rfl
  sized := hsized
  shrunk := effectivePlan_shrunk
  lanes_eq := rfl
  planned_eq := rfl
  batch_nonneg := applyBatchScale_nonneg _ _
  batch_le := applyBatchScale_le (effectivePlan_shrunk.sized hsized).batch_nonneg _
  kind := hkind
  concurrent := hconc

/-! ### Steps that load no copies for a single buffer -/

/-- A replan on this reading is safe: it splits the budget, or lane set-up loads no copies for the
lanes the sequential planner, the bias and the caps leave. -/
def PlanSafe (s : CudaNativeBackend) (env : EngineReply) (info : DeviceInfo) : Prop :=
  let t := s.observeDevice info
  s.concurrentVramLanesHint = none ∨ ¬ t.LoadsLaneCopies env
    (t.laneTarget (t.planArgs info s.difficulty).sequentialLanes s.difficulty)

/-- Applying the live caps again is safe: the base plan is split, or the lanes stay as they are, or
lane set-up loads no copies for the lanes the caps leave. -/
def ReapplySafe (s : CudaNativeBackend) (env : EngineReply) : Prop :=
  ∀ base, s.baseVramPlan = some base →
    base.Split ∨ s.laneTarget base.lanes base.difficulty = s.lanes ∨
      ¬ s.LoadsLaneCopies env (s.laneTarget base.lanes base.difficulty)

/-- The operation loads no lane copies for a plan sized for one buffer. -/
def StepSafe (s : CudaNativeBackend) : EngineReply × Op → Prop
  | (env, .start) =>
    s.started = false → ∀ info, env.deviceInfo = some info → (s.coldStart info).PlanSafe env info
  | (env, .setDifficulty difficulty) =>
    s.started = true → difficulty ≠ s.difficulty → ∀ info, env.deviceInfo = some info →
      (s.storeDifficulty difficulty).PlanSafe env info
  | (env, .updateThermalLanesFromTemp temperatureC) =>
    (s.noteThermalLanes temperatureC).ReapplySafe env
  | (env, .updateVramPressureFromUsed usedMib targetMib emergencyMib) =>
    (s.noteVramPressure usedMib targetMib emergencyMib).ReapplySafe env
  | _ => True

/-- The plan a safe replan applies, whatever its base plan was cut to. -/
theorem runs_of_planFromDevice {t : CudaNativeBackend} {base' : CudaVramPlan}
    (hsafe : s.PlanSafe env info) (h : s.planFromDevice info s.difficulty = (t, .ok base))
    (hcut : base.Shrunk base') (hlanes : base'.lanes = base.lanes) {b : Bool} :
    let u := { t.applyPlan (t.effectivePlan base') base' with started := b }
    (u.syncLaneEngines env).1.Runs base' (t.effectivePlan base') := by
  obtain ⟨ht, hsized, hdiff, hsplit, hsingle⟩ := planFromDevice_eq_ok h
  obtain ⟨caps, foreign, baseline, heq⟩ := observeDevice_eq s info
  have hsame : t.parallelMode = s.parallelMode ∧
      t.parallelLanesSupported = s.parallelLanesSupported := by
    rw [ht, heq]
    exact ⟨rfl, rfl⟩
  intro u
  rcases concurrentVramLanesHint_cases (s := s) with ⟨hnone, -⟩ | ⟨hone, hmode, hlib⟩
  · have hbase : base'.Split := hcut.split (hsplit hnone)
    exact Runs.syncLaneEngines { runs_applyPlan (hcut.sized hsized) (Or.inl hbase) (fun _ => hbase)
      with } (Or.inl hbase)
  · have hbase : base'.SingleBuffer := hcut.single (hsingle hone).1
    have hruns : (t.applyPlan (t.effectivePlan base') base').Runs base' (t.effectivePlan base') := by
      refine runs_applyPlan (hcut.sized hsized) (Or.inr hbase) fun hpar => ?_
      rw [hsame.1, hsame.2, hmode, hlib] at hpar
      simp at hpar
    refine Runs.syncLaneEngines { hruns with } (Or.inr ?_)
    have htarget : u.lanes = t.laneTarget (t.planArgs info s.difficulty).sequentialLanes
        s.difficulty := by
      show (t.effectivePlan base').lanes = _
      rw [effectivePlan_lanes hbase (hcut.sized hsized).lanes_pos, hlanes, (hsingle hone).2,
        hcut.difficulty_eq, hdiff]
    rcases hsafe with hnone | hload
    · rw [hone] at hnone
      cases hnone
    · rw [htarget]
      rw [← ht] at hload
      exact hload

/-- A library with parallel lanes never loads copies, and neither does a backend that may not. -/
theorem planSafe_of_no_copies
    (h : s.parallelLanesSupported = true ∨ s.settings.cudaAllowDllLaneCopies = false) :
    s.PlanSafe env info := by
  obtain ⟨caps, foreign, baseline, heq⟩ := observeDevice_eq s info
  refine Or.inr fun hload => ?_
  rw [heq] at hload
  obtain ⟨hlib, hcopies, -⟩ := hload
  have hlib' : s.parallelLanesSupported = false := hlib
  have hcopies' : s.settings.cudaAllowDllLaneCopies = true := hcopies
  rcases h with h | h
  · exact absurd (h.symm.trans hlib') nofun
  · exact absurd (hcopies'.symm.trans h) nofun

/-! ### What the operations that plan can leave -/

section Rules

variable {P : CudaNativeBackend → Prop}

/-- A `start` leaves a running backend alone; else it leaves the caps it looked up, the readings of the
device, or a plan from the device with lane set-up behind it. -/
theorem start_rule (env : EngineReply) (hrun : s.started = true → P s)
    (hcaps : s.started = false → P { s with vramCaps := some (s.capsForTotal 32768) })
    (hseen : ∀ info, s.started = false → P ((s.coldStart info).observeDevice info))
    (hplan : ∀ info t base, s.started = false → env.deviceInfo = some info →
      (s.coldStart info).planFromDevice info s.difficulty = (t, .ok base) →
        P ({ t.applyPlan (t.effectivePlan base) base with started := true }.syncLaneEngines env).1) :
    P (s.start env).1 := by
  unfold CudaNativeBackend.start
  by_cases hstarted : s.started = true
  · rw [if_pos hstarted]
    exact hrun hstarted
  have hstop : s.started = false := Bool.not_eq_true _ ▸ hstarted
  rw [if_neg hstarted]
  dsimp only
  split
  next info _ hinfo =>
    unfold startWith
    split
    next t failure hfrom =>
      rw [← (Prod.mk.inj hfrom).1]
      exact hseen info hstop
    next t base hfrom =>
      split
      next =>
        rw [← (Prod.mk.inj hfrom).1]
        exact hseen info hstop
      next => exact hplan info t base hstop hinfo hfrom
  next => exact hcaps hstop

/-- A replan leaves the state as it was, the readings of the device, or a new plan with lane set-up
behind it. -/
theorem replan_rule (env : EngineReply) (hkeep : P s) (hseen : ∀ info, P (s.observeDevice info))
    (hplan : ∀ info t base, env.deviceInfo = some info →
      s.planFromDevice info s.difficulty = (t, .ok base) →
        P ((t.applyPlan (t.effectivePlan (t.softClamp base t.difficulty))
          (t.softClamp base t.difficulty)).syncLaneEngines env).1) :
    P (s.replan env).1 := by
  unfold CudaNativeBackend.replan
  split
  next => exact hkeep
  next info hinfo =>
    split
    next t failure hfrom =>
      rw [← (Prod.mk.inj hfrom).1]
      exact hseen info
    next t base hfrom => exact hplan info t base hinfo hfrom

/-- `set_difficulty` stores the difficulty, and replans a running backend. -/
theorem setDifficulty_rule (env : EngineReply) {d : ℤ}
    (hsame : d = s.difficulty ∧ s.started = true → P s)
    (hstopped : s.started = false → P (s.storeDifficulty d))
    (hreplan : s.started = true → d ≠ s.difficulty → P ((s.storeDifficulty d).replan env).1) :
    P (s.setDifficulty env d) := by
  unfold CudaNativeBackend.setDifficulty
  by_cases hnoop : d = s.difficulty ∧ s.started = true
  · rw [if_pos hnoop]
    exact hsame hnoop
  rw [if_neg hnoop]
  dsimp only
  split_ifs with hstarted
  · exact hreplan hstarted fun hd => hnoop ⟨hd, hstarted⟩
  · exact hstopped (Bool.not_eq_true _ ▸ hstarted)

/-- Live caps are applied to the base plan, and lanes are set up if their number changes. -/
theorem reapplyLiveCaps_rule (env : EngineReply) (hnone : s.baseVramPlan = none → P s)
    (hsync : ∀ base, s.baseVramPlan = some base → (s.effectivePlan base).lanes ≠ s.lanes →
      P ((s.applyPlan (s.effectivePlan base) base).syncLaneEngines env).1)
    (happly : ∀ base, s.baseVramPlan = some base → P (s.applyPlan (s.effectivePlan base) base)) :
    P (s.reapplyLiveCaps env).1 := by
  unfold CudaNativeBackend.reapplyLiveCaps
  split
  next h => exact hnone h
  next base hbase =>
    dsimp only
    split_ifs with hlanes
    · exact hsync base hbase hlanes
    · exact happly base hbase

end Rules

/-! ### Every operation keeps the invariant -/

theorem Inv.create (settings : Settings) (lib : Bool) (maxLanes : ℤ) :
    (create settings lib maxLanes).Inv where
  stopped _ := ⟨rfl, rfl, rfl⟩
  running h := by cases h

theorem Inv.start (h : s.Inv) (hsafe : s.StepSafe (env, .start)) : (s.start env).1.Inv := by
  have hkeep : ∀ t : CudaNativeBackend, s.started = false → t.started = s.started →
      t.vramPlan = s.vramPlan → t.baseVramPlan = s.baseVramPlan → t.parallelMode = s.parallelMode →
        t.Inv := by
    intro t hstop h1 h2 h3 h4
    refine ⟨fun _ => ?_, fun hrun => ?_⟩
    · rw [h2, h3, h4]
      exact h.stopped hstop
    · rw [h1, hstop] at hrun
      cases hrun
  refine start_rule (P := Inv) env (fun _ => h) (fun hstop => hkeep _ hstop rfl rfl rfl rfl)
    (fun info hstop => ?_) fun info t base hstop hinfo hfrom => ?_
  · obtain ⟨caps, foreign, baseline, heq⟩ := observeDevice_eq (s.coldStart info) info
    rw [heq]
    exact hkeep _ hstop rfl rfl rfl rfl
  · have hruns := runs_of_planFromDevice (hsafe hstop info hinfo) hfrom
      (CudaVramPlan.Shrunk.refl base) rfl (b := true)
    refine ⟨fun hstop => ?_, fun _ => ⟨_, _, hruns⟩⟩
    obtain ⟨engines, mode, hsync, -⟩ := syncLaneEngines_eq
      { t.applyPlan (t.effectivePlan base) base with started := true } env
    rw [hsync] at hstop
    cases hstop

theorem Inv.stop (h : s.Inv) : s.stop.Inv := by
  unfold CudaNativeBackend.stop
  split_ifs with hstarted
  · exact ⟨fun _ => ⟨rfl, rfl, rfl⟩, fun hrun => by cases hrun⟩
  · exact h

theorem Inv.rescale (h : s.Inv) : s.rescale.Inv := by
  have hstarted : s.rescale.started = s.started ∧ s.rescale.vramPlan = s.vramPlan ∧
      s.rescale.baseVramPlan = s.baseVramPlan ∧ s.rescale.parallelMode = s.parallelMode := by
    unfold CudaNativeBackend.rescale
    split_ifs <;> exact ⟨rfl, rfl, rfl, rfl⟩
  obtain ⟨h1, h2, h3, h4⟩ := hstarted
  refine ⟨fun hstop => ?_, fun hrun => ?_⟩
  · rw [h2, h3, h4]
    exact h.stopped (h1 ▸ hstop)
  · obtain ⟨base, plan, hruns⟩ := h.running (h1 ▸ hrun)
    exact ⟨base, plan, hruns.rescale⟩

theorem Inv.setThermalBatchScale (h : s.Inv) (scale : ℚ) : (s.setThermalBatchScale scale).Inv := by
  unfold CudaNativeBackend.setThermalBatchScale
  dsimp only
  split_ifs
  · exact h
  · refine Inv.rescale ⟨h.stopped, fun hrun => ?_⟩
    obtain ⟨base, plan, hruns⟩ := h.running hrun
    exact ⟨base, plan, { hruns with }⟩

theorem Inv.setVramBatchScale (h : s.Inv) (scale : ℚ) : (s.setVramBatchScale scale).Inv := by
  unfold CudaNativeBackend.setVramBatchScale
  dsimp only
  split_ifs
  · exact h
  · refine Inv.rescale ⟨h.stopped, fun hrun => ?_⟩
    obtain ⟨base, plan, hruns⟩ := h.running hrun
    exact ⟨base, plan, { hruns with }⟩

/-- Caps, readings and the baseline are no part of the invariant. -/
theorem Inv.note (h : s.Inv) (caps : Option VramCaps) (thermalCap vramCap : Option ℤ)
    (temp used foreign baseline : ℤ) :
    Inv { s with
      vramCaps := caps, thermalLaneCap := thermalCap, vramLaneCap := vramCap, lastTempC := temp,
      lastVramUsedMib := used, foreignVramMib := foreign, desktopBaselineMib := baseline } := by
  refine ⟨h.stopped, fun hrun => ?_⟩
  obtain ⟨base, plan, hruns⟩ := h.running hrun
  exact ⟨base, plan, { hruns with }⟩

theorem Inv.noteVramPressure (h : s.Inv) (used target emergency : ℤ) :
    (s.noteVramPressure used target emergency).Inv := by
  have hused := h.note s.vramCaps s.thermalLaneCap s.vramLaneCap s.lastTempC used s.foreignVramMib
    s.desktopBaselineMib
  unfold CudaNativeBackend.noteVramPressure
  dsimp only
  split_ifs
  all_goals exact Inv.note (hused.setVramBatchScale _) _ _ _ _ _ _ _

theorem Inv.reapplyLiveCaps (h : s.Inv) (hsafe : s.ReapplySafe env) :
    (s.reapplyLiveCaps env).1.Inv := by
  -- a backend with a base plan runs it
  have hruns : ∀ base, s.baseVramPlan = some base → s.started = true ∧ ∃ plan, s.Runs base plan := by
    intro base hbase
    have hstarted : s.started = true := by
      by_contra hstop
      have hnone := (h.stopped (by simpa using hstop)).2.1
      rw [hbase] at hnone
      cases hnone
    obtain ⟨base', plan, hruns⟩ := h.running hstarted
    obtain rfl : base' = base := Option.some.inj (hruns.base_eq.symm.trans hbase)
    exact ⟨hstarted, plan, hruns⟩
  refine reapplyLiveCaps_rule (P := Inv) env (fun _ => h) (fun base hbase hlanes => ?_)
    fun base hbase => ?_
  · obtain ⟨hstarted, plan, hruns⟩ := hruns base hbase
    have hnew := runs_applyPlan hruns.sized hruns.kind hruns.concurrent
    refine ⟨fun hstop => ?_, fun _ => ⟨base, _, hnew.syncLaneEngines ?_⟩⟩
    · obtain ⟨engines, mode, heq, -⟩ :=
        syncLaneEngines_eq (s.applyPlan (s.effectivePlan base) base) env
      rw [heq] at hstop
      exact absurd (hstarted.symm.trans hstop) nofun
    · rcases hruns.kind with hsplit | hsingle
      · exact Or.inl hsplit
      · have htarget := effectivePlan_lanes (s := s) hsingle hruns.sized.lanes_pos
        rcases hsafe base hbase with hsplit | hsteady | hload
        · exact Or.inl hsplit
        · exact absurd (htarget.trans hsteady) hlanes
        · right
          show ¬ (s.applyPlan (s.effectivePlan base) base).LoadsLaneCopies env
            (s.effectivePlan base).lanes
          rw [htarget]
          exact hload
  · obtain ⟨hstarted, plan, hruns⟩ := hruns base hbase
    have hnew := runs_applyPlan hruns.sized hruns.kind hruns.concurrent
    exact ⟨fun hstop => absurd (hstarted.symm.trans hstop) nofun, fun _ => ⟨base, _, hnew⟩⟩

/-- The plan a replan gets from the device, if it gets one. -/
def replanned (s : CudaNativeBackend) (env : EngineReply) : Option CudaVramPlan :=
  env.deviceInfo.bind fun info => (s.planFromDevice info s.difficulty).2.toOption

/-- A replan that gets no plan keeps lanes, batch, mode and plans. -/
theorem replan_of_none (h : s.replanned env = none) : ∃ caps foreign baseline,
    (s.replan env).1 = { s with
      vramCaps := caps, foreignVramMib := foreign, desktopBaselineMib := baseline } := by
  unfold replan
  unfold replanned at h
  cases hinfo : env.deviceInfo with
  | none => exact ⟨_, _, _, rfl⟩
  | some info =>
    rw [hinfo] at h
    obtain ⟨caps, foreign, baseline, heq⟩ := observeDevice_eq s info
    cases hfrom : s.planFromDevice info s.difficulty with
    | mk t result =>
      cases result with
      | error failure =>
        obtain ⟨ht, -⟩ := Prod.mk.inj hfrom
        exact ⟨caps, foreign, baseline, by simp only [hfrom]; rw [← ht, heq]⟩
      | ok base => simp [hfrom, Except.toOption] at h

/-- A replan that gets a plan runs it, also when lane set-up raises afterwards. -/
theorem replan_of_some (hstarted : s.started = true)
    (hsafe : ∀ info, env.deviceInfo = some info → s.PlanSafe env info)
    (h : s.replanned env = some base) : ∃ base' plan, (s.replan env).1.Runs base' plan ∧
      base'.difficulty = s.difficulty ∧ (s.replan env).1.started = true ∧
      (s.replan env).1.difficulty = s.difficulty := by
  unfold replanned at h
  cases hinfo : env.deviceInfo with
  | none =>
    rw [hinfo] at h
    cases h
  | some info =>
    rw [hinfo] at h
    cases hfrom : s.planFromDevice info s.difficulty with
    | mk t result =>
      cases result with
      | error failure => simp [hfrom, Except.toOption] at h
      | ok first =>
        have hreplan : s.replan env =
            (t.applyPlan (t.effectivePlan (t.softClamp first t.difficulty))
              (t.softClamp first t.difficulty)).syncLaneEngines env := by
          unfold replan
          simp only [hinfo, hfrom]
        have hruns := runs_of_planFromDevice (hsafe info hinfo) hfrom
          (softClamp_shrunk (s := t) (d := t.difficulty)) softClamp_lanes (b := t.started)
        obtain ⟨ht, -, hdiff, -⟩ := planFromDevice_eq_ok hfrom
        obtain ⟨caps, foreign, baseline, heq⟩ := observeDevice_eq s info
        obtain ⟨engines, mode, hsync, -⟩ := syncLaneEngines_eq
          (t.applyPlan (t.effectivePlan (t.softClamp first t.difficulty))
            (t.softClamp first t.difficulty)) env
        refine ⟨t.softClamp first t.difficulty, t.effectivePlan (t.softClamp first t.difficulty), ?_,
          softClamp_shrunk.difficulty_eq.trans hdiff, ?_, ?_⟩
        · rw [hreplan]
          exact hruns
        · rw [hreplan, hsync]
          show t.started = true
          rw [ht, heq]
          exact hstarted
        · rw [hreplan, hsync]
          show t.difficulty = s.difficulty
          rw [ht, heq]

/-- Storing a difficulty is no part of the invariant either: it is relative to the plan. -/
theorem Inv.storeDifficulty (h : s.Inv) (d : ℤ) : (s.storeDifficulty d).Inv := by
  refine ⟨h.stopped, fun hrun => ?_⟩
  obtain ⟨base, plan, hruns⟩ := h.running hrun
  exact ⟨base, plan, { hruns with }⟩

theorem setDifficulty_noop {d : ℤ} (h : d = s.difficulty ∧ s.started = true) :
    s.setDifficulty env d = s := if_pos h

theorem setDifficulty_stopped {d : ℤ} (h : s.started = false) :
    s.setDifficulty env d = s.storeDifficulty d := by
  have hstored : (s.storeDifficulty d).started = false := h
  unfold CudaNativeBackend.setDifficulty
  simp [h, hstored]

theorem setDifficulty_replan {d : ℤ} (hstarted : s.started = true) (hd : d ≠ s.difficulty) :
    s.setDifficulty env d = ((s.storeDifficulty d).replan env).1 := by
  have hstored : (s.storeDifficulty d).started = true := hstarted
  unfold CudaNativeBackend.setDifficulty
  simp [hstarted, hstored, hd]

theorem settle_difficulty (outcome : Outcome) : (s.settle outcome).1.difficulty = s.difficulty := by
  cases outcome with
  | ok => rfl
  | refused => rfl
  | raised => rfl

theorem syncLaneCopyWorkers_difficulty :
    (s.syncLaneCopyWorkers env).1.difficulty = s.difficulty := by
  unfold syncLaneCopyWorkers
  dsimp only
  split
  · rfl
  · rfl

theorem syncLaneEngines_difficulty : (s.syncLaneEngines env).1.difficulty = s.difficulty := by
  unfold syncLaneEngines
  split_ifs
  · rfl
  · exact settle_difficulty _
  · exact settle_difficulty _
  · rfl
  · exact (settle_difficulty _).trans syncLaneCopyWorkers_difficulty
  · rfl

theorem observeDevice_difficulty (info : DeviceInfo) :
    (s.observeDevice info).difficulty = s.difficulty := by
  unfold observeDevice
  dsimp only
  split_ifs <;> rfl

theorem replan_difficulty : (s.replan env).1.difficulty = s.difficulty := by
  refine replan_rule (P := fun t => t.difficulty = s.difficulty) env rfl observeDevice_difficulty
    fun info t base _ hfrom => ?_
  rw [syncLaneEngines_difficulty]
  show t.difficulty = s.difficulty
  rw [← (Prod.mk.inj hfrom).1]
  exact observeDevice_difficulty info

/-- A valid difficulty is stored as it is, whatever becomes of the replan. -/
theorem setDifficulty_difficulty {d : ℤ} (hd : 1 ≤ d) : (s.setDifficulty env d).difficulty = d := by
  refine setDifficulty_rule (P := fun t => t.difficulty = d) env (fun hsame => hsame.1.symm)
    (fun _ => max_eq_right hd) fun _ _ => ?_
  rw [replan_difficulty]
  exact max_eq_right hd

theorem Inv.setDifficulty {d : ℤ} (h : s.Inv) (hsafe : s.StepSafe (env, .setDifficulty d)) :
    (s.setDifficulty env d).Inv := by
  by_cases hstarted : s.started = true
  · by_cases hd : d = s.difficulty
    · rw [setDifficulty_noop ⟨hd, hstarted⟩]
      exact h
    · rw [setDifficulty_replan hstarted hd]
      cases hplanned : (s.storeDifficulty d).replanned env with
      | none =>
        obtain ⟨caps, foreign, baseline, heq⟩ := replan_of_none hplanned
        rw [heq]
        exact (h.storeDifficulty d).note caps s.thermalLaneCap s.vramLaneCap s.lastTempC
          s.lastVramUsedMib foreign baseline
      | some base =>
        obtain ⟨base', plan, hruns, -, hrun, -⟩ :=
          replan_of_some (s := s.storeDifficulty d) hstarted (hsafe hstarted hd) hplanned
        exact ⟨fun hstop => absurd (hrun.symm.trans hstop) nofun, fun _ => ⟨base', plan, hruns⟩⟩
  · rw [setDifficulty_stopped (by simpa using hstarted)]
    exact h.storeDifficulty _

/-- **Every safe operation keeps the invariant**, whatever the engine answers. -/
theorem Inv.step (h : s.Inv) {i : EngineReply × Op} (hsafe : s.StepSafe i) : (s.step i).Inv := by
  obtain ⟨env, op⟩ := i
  cases op with
  | start => exact h.start hsafe
  | stop => exact h.stop
  | setVramCaps caps => exact h.note caps _ _ _ _ _ _
  | setDifficulty difficulty => exact h.setDifficulty hsafe
  | setThermalBatchScale scale => exact h.setThermalBatchScale scale
  | setVramBatchScale scale => exact h.setVramBatchScale scale
  | updateThermalBatchFromTemp temperatureC =>
    exact (h.note s.vramCaps s.thermalLaneCap s.vramLaneCap temperatureC s.lastVramUsedMib
      s.foreignVramMib s.desktopBaselineMib).setThermalBatchScale _
  | updateThermalLanesFromTemp temperatureC =>
    show (s.updateThermalLanesFromTemp env temperatureC).Inv
    unfold updateThermalLanesFromTemp
    split_ifs
    · exact h.note _ _ _ temperatureC _ _ _
    · exact (h.note _ _ _ _ _ _ _).reapplyLiveCaps hsafe
  | updateVramPressureFromUsed used target emergency =>
    exact (h.noteVramPressure used target emergency).reapplyLiveCaps hsafe

/-! ### The difficulty of the plan -/

/-- The plan in force was made for the difficulty the backend hashes at. -/
def InSync (s : CudaNativeBackend) : Prop :=
  ∀ base, s.baseVramPlan = some base → base.difficulty = s.difficulty

/-- The operation is no `set_difficulty` whose replan raises. -/
def ReplanSucceeds (s : CudaNativeBackend) : EngineReply × Op → Prop
  | (env, .setDifficulty difficulty) =>
    s.started = true → difficulty ≠ s.difficulty →
      ((s.storeDifficulty difficulty).replan env).2 = .ok ()
  | _ => True

theorem InSync.of_eq {t : CudaNativeBackend} (h : s.InSync) (hbase : t.baseVramPlan = s.baseVramPlan)
    (hdiff : t.difficulty = s.difficulty) : t.InSync := by
  intro base hb
  rw [hbase] at hb
  rw [hdiff]
  exact h base hb

theorem InSync.start (h : s.InSync) : (s.start env).1.InSync := by
  refine start_rule (P := InSync) env (fun _ => h) (fun _ => h.of_eq rfl rfl) (fun info _ => ?_)
    fun info t base _ _ hfrom => ?_
  · obtain ⟨caps, foreign, baseline, heq⟩ := observeDevice_eq (s.coldStart info) info
    rw [heq]
    exact h.of_eq rfl rfl
  · obtain ⟨caps, foreign, baseline, heq⟩ := observeDevice_eq (s.coldStart info) info
    obtain ⟨ht, -, hdiff, -⟩ := planFromDevice_eq_ok hfrom
    obtain ⟨engines, mode, hsync, -⟩ := syncLaneEngines_eq
      { t.applyPlan (t.effectivePlan base) base with started := true } env
    rw [hsync]
    rintro _ ⟨⟩
    show base.difficulty = t.difficulty
    rw [hdiff, ht, heq]
    rfl

theorem InSync.stop (h : s.InSync) : s.stop.InSync := by
  unfold CudaNativeBackend.stop
  split_ifs
  · intro base hb
    cases hb
  · exact h

theorem setThermalBatchScale_keeps (s : CudaNativeBackend) (scale : ℚ) :
    (s.setThermalBatchScale scale).baseVramPlan = s.baseVramPlan ∧
      (s.setThermalBatchScale scale).difficulty = s.difficulty := by
  unfold setThermalBatchScale rescale
  dsimp only
  split_ifs <;> exact ⟨rfl, rfl⟩

theorem setVramBatchScale_keeps (s : CudaNativeBackend) (scale : ℚ) :
    (s.setVramBatchScale scale).baseVramPlan = s.baseVramPlan ∧
      (s.setVramBatchScale scale).difficulty = s.difficulty := by
  unfold setVramBatchScale rescale
  dsimp only
  split_ifs <;> exact ⟨rfl, rfl⟩

theorem noteVramPressure_keeps (s : CudaNativeBackend) (used target emergency : ℤ) :
    (s.noteVramPressure used target emergency).baseVramPlan = s.baseVramPlan ∧
      (s.noteVramPressure used target emergency).difficulty = s.difficulty := by
  unfold noteVramPressure
  dsimp only
  split_ifs <;> exact setVramBatchScale_keeps _ _

theorem reapplyLiveCaps_keeps (s : CudaNativeBackend) (env : EngineReply) :
    (s.reapplyLiveCaps env).1.baseVramPlan = s.baseVramPlan ∧
      (s.reapplyLiveCaps env).1.difficulty = s.difficulty := by
  refine reapplyLiveCaps_rule (P := fun t => t.baseVramPlan = s.baseVramPlan ∧
    t.difficulty = s.difficulty) env (fun _ => ⟨rfl, rfl⟩) (fun base hbase _ => ?_)
    fun base hbase => ⟨hbase.symm, rfl⟩
  obtain ⟨engines, mode, heq, -⟩ :=
    syncLaneEngines_eq (s.applyPlan (s.effectivePlan base) base) env
  rw [heq]
  exact ⟨hbase.symm, rfl⟩

/-- A replan that raised nothing got a plan. -/
theorem replanned_isSome (h : (s.replan env).2 = .ok ()) : ∃ base, s.replanned env = some base := by
  unfold replan at h
  unfold replanned
  cases hinfo : env.deviceInfo with
  | none =>
    rw [hinfo] at h
    cases h
  | some info =>
    cases hfrom : s.planFromDevice info s.difficulty with
    | mk t result =>
      cases result with
      | error failure => simp [hinfo, hfrom] at h
      | ok base => exact ⟨base, by simp [hfrom, Except.toOption]⟩

theorem InSync.setDifficulty {d : ℤ} (hinv : s.Inv) (h : s.InSync)
    (hsafe : s.StepSafe (env, .setDifficulty d)) (hok : s.ReplanSucceeds (env, .setDifficulty d)) :
    (s.setDifficulty env d).InSync := by
  by_cases hstarted : s.started = true
  · by_cases hd : d = s.difficulty
    · rw [setDifficulty_noop ⟨hd, hstarted⟩]
      exact h
    · rw [setDifficulty_replan hstarted hd]
      obtain ⟨base, hplanned⟩ := replanned_isSome (hok hstarted hd)
      obtain ⟨base', plan, hruns, hdiff, -, hnew⟩ :=
        replan_of_some (s := s.storeDifficulty d) hstarted (hsafe hstarted hd) hplanned
      intro b hb
      have hb' : base' = b := Option.some.inj (hruns.base_eq.symm.trans hb)
      rw [← hb', hdiff, hnew]
  · have hstop : s.started = false := by simpa using hstarted
    rw [setDifficulty_stopped hstop]
    intro base hb
    have hnone := (hinv.stopped hstop).2.1
    rw [show s.baseVramPlan = some base from hb] at hnone
    cases hnone

theorem InSync.step (hinv : s.Inv) (h : s.InSync) {i : EngineReply × Op} (hsafe : s.StepSafe i)
    (hok : s.ReplanSucceeds i) : (s.step i).InSync := by
  obtain ⟨env, op⟩ := i
  cases op with
  | start => exact h.start
  | stop => exact h.stop
  | setVramCaps caps => exact h.of_eq rfl rfl
  | setDifficulty difficulty => exact InSync.setDifficulty hinv h hsafe hok
  | setThermalBatchScale scale =>
    obtain ⟨hbase, hdiff⟩ := setThermalBatchScale_keeps s scale
    exact h.of_eq hbase hdiff
  | setVramBatchScale scale =>
    obtain ⟨hbase, hdiff⟩ := setVramBatchScale_keeps s scale
    exact h.of_eq hbase hdiff
  | updateThermalBatchFromTemp temperatureC =>
    obtain ⟨hbase, hdiff⟩ := setThermalBatchScale_keeps { s with lastTempC := temperatureC } _
    exact h.of_eq hbase hdiff
  | updateThermalLanesFromTemp temperatureC =>
    show (s.updateThermalLanesFromTemp env temperatureC).InSync
    unfold updateThermalLanesFromTemp
    split_ifs
    · exact h.of_eq rfl rfl
    · obtain ⟨hbase, hdiff⟩ := reapplyLiveCaps_keeps (s.noteThermalLanes temperatureC) env
      exact h.of_eq hbase hdiff
  | updateVramPressureFromUsed used target emergency =>
    obtain ⟨hbase, hdiff⟩ := reapplyLiveCaps_keeps (s.noteVramPressure used target emergency) env
    obtain ⟨hbase', hdiff'⟩ := noteVramPressure_keeps s used target emergency
    exact h.of_eq (hbase.trans hbase') (hdiff.trans hdiff')

/-! ### The footprint of a run -/

/-- The batches `mine_batch` keeps resident fit the budget of the plan in force. -/
def FootprintFits (s : CudaNativeBackend) : Prop :=
  ∃ plan, s.vramPlan = some plan ∧
    s.concurrentLanes * estimateBatchVramBytes s.batchPerLane s.difficulty ≤ plan.budgetBytes

instance (s : CudaNativeBackend) : Decidable s.FootprintFits :=
  match h : s.vramPlan with
  | some plan => decidable_of_iff
      (s.concurrentLanes * estimateBatchVramBytes s.batchPerLane s.difficulty ≤ plan.budgetBytes)
      (by simp [FootprintFits, h])
  | none => .isFalse (by simp [FootprintFits, h])

theorem Runs.concurrentLanes_nonneg (h : s.Runs base plan) : 0 ≤ s.concurrentLanes := by
  have hlanes := (h.shrunk.sized h.sized).lanes_pos
  unfold concurrentLanes
  rw [h.lanes_eq]
  split_ifs <;> omega

/-- **Resident VRAM stays inside the budget.**  In every run whose steps load no lane copies for a
plan sized for one buffer, and whose replans succeed, a started backend keeps within the budget of
its plan. -/
theorem footprint_le_budget (settings : Settings) (lib : Bool) (maxLanes : ℤ)
    (inputs : List (EngineReply × Op))
    (hrun : Run.Meets step (fun s i => s.StepSafe i ∧ s.ReplanSucceeds i)
      (create settings lib maxLanes) inputs)
    (hstarted : (Run.final step (create settings lib maxLanes) inputs).started = true) :
    (Run.final step (create settings lib maxLanes) inputs).FootprintFits := by
  have hinit : (create settings lib maxLanes).Inv ∧ (create settings lib maxLanes).InSync :=
    ⟨Inv.create settings lib maxLanes, fun base hb => by cases hb⟩
  obtain ⟨hinv, hsync⟩ := Run.Meets.invariant (I := fun t => t.Inv ∧ t.InSync)
    (fun t i h hok => ⟨h.1.step hok.1, InSync.step h.1 h.2 hok.1 hok.2⟩) hinit hrun
  obtain ⟨base, plan, hruns⟩ := hinv.running hstarted
  have hdiff := hruns.shrunk.difficulty_eq.trans (hsync base hruns.base_eq)
  have hpos := (hruns.shrunk.sized hruns.sized).difficulty_pos
  refine ⟨plan, hruns.plan_eq, ?_⟩
  rw [← hdiff]
  exact mul_estimateBatchVramBytes_le hruns.concurrentLanes_nonneg hruns.batch_nonneg hpos
    hruns.launch_le

/-- An engine that answers every call and reports a 24 GiB card. -/
def steadyEngine : EngineReply where
  init _ := .ok
  deviceInfo := some
    { totalVramBytes := 24576 * 1024 * 1024, freeVramBytes := 24000 * 1024 * 1024 }
  setLaneCount _ := .ok
  laneCopy _ _ := .ok

/-- A library with parallel lanes: start at difficulty `100`, lose lanes to heat, replan at `300`. -/
theorem footprint_le_budget_parallel :
    (Run.final step (create { memoryCost := 100 } true 8) [(steadyEngine, .start),
      (steadyEngine, .updateThermalLanesFromTemp 80),
      (steadyEngine, .setDifficulty 300)]).FootprintFits := by
  refine footprint_le_budget _ _ _ _ ⟨⟨?_, trivial⟩, ⟨?_, trivial⟩, ⟨?_, ?_⟩, trivial⟩
    (by decide +kernel)
  · intro _ info _
    exact planSafe_of_no_copies (Or.inl rfl)
  · intro base _
    exact Or.inr (Or.inr fun hload => absurd hload.1 (by decide +kernel))
  · intro _ _ info _
    exact planSafe_of_no_copies (Or.inl (by decide +kernel))
  · intro _ _
    decide +kernel

/-- A library without parallel lanes at difficulty `100`, with lane copies allowed: the batch fills
the whole budget and eight copies of it run at the same time. -/
theorem footprint_exceeds_budget :
    let s := Run.final step (create { memoryCost := 100, cudaAllowDllLaneCopies := true } false 8)
      [(steadyEngine, .start)]
    s.started = true ∧ s.concurrentLanes = 8 ∧ ¬ s.FootprintFits := by
  decide +kernel

/-! ### Replans that fail -/

/-- The next launch fits the budget of the plan in force at the difficulty it launches with. -/
def LaunchFits (s : CudaNativeBackend) : Prop :=
  ∃ plan, s.vramPlan = some plan ∧
    (s.concurrentLanes : ℚ) * s.batchPerLane * bytesPerAttempt s.difficulty ≤ plan.budgetBytes

instance (s : CudaNativeBackend) : Decidable s.LaunchFits :=
  match h : s.vramPlan with
  | some plan => decidable_of_iff ((s.concurrentLanes : ℚ) * s.batchPerLane
      * bytesPerAttempt s.difficulty ≤ plan.budgetBytes) (by simp [LaunchFits, h])
  | none => .isFalse (by simp [LaunchFits, h])

/-- A launch at or below the difficulty of its plan fits. -/
theorem Runs.launchFits (h : s.Runs base plan) (hd : s.difficulty ≤ plan.difficulty) :
    s.LaunchFits := by
  refine ⟨plan, h.plan_eq, le_trans ?_ h.launch_le⟩
  have hconc : (0 : ℚ) ≤ s.concurrentLanes := by exact_mod_cast h.concurrentLanes_nonneg
  have hbatch : (0 : ℚ) ≤ s.batchPerLane := by exact_mod_cast h.batch_nonneg
  exact mul_le_mul_of_nonneg_left (bytesPerAttempt_mono hd) (mul_nonneg hconc hbatch)

/-- The plan `set_difficulty` gets for its new difficulty, if it gets one: `none` also where it
returns early. -/
def newPlan (s : CudaNativeBackend) (env : EngineReply) (difficulty : ℤ) : Option CudaVramPlan :=
  if difficulty = s.difficulty then none else (s.storeDifficulty difficulty).replanned env

/-- **What a replan leaves to launch.**  In every run that loads no lane copies for a single buffer,
replans failing as they may: `set_difficulty` on a started backend leaves a batch that fits the
budget at the difficulty of the plan in force.  With a new plan that is the new difficulty, also
when lane set-up raises afterwards.  Without one, lanes, batch, mode and plan stay as they were, so
the launch fits as long as the new difficulty is not above the plan's. -/
theorem setDifficulty_launch (settings : Settings) (lib : Bool) (maxLanes d : ℤ)
    (inputs : List (EngineReply × Op)) (env : EngineReply)
    (hrun : Run.Meets step StepSafe (create settings lib maxLanes)
      (inputs ++ [(env, .setDifficulty d)]))
    (hstarted : (Run.final step (create settings lib maxLanes) inputs).started = true) :
    let s := Run.final step (create settings lib maxLanes) inputs
    let t := s.setDifficulty env d
    ∃ plan, t.vramPlan = some plan ∧
      (t.concurrentLanes : ℚ) * t.batchPerLane * bytesPerAttempt plan.difficulty
        ≤ plan.budgetBytes ∧
      (t.difficulty ≤ plan.difficulty → t.LaunchFits) ∧
      (s.newPlan env d ≠ none → t.difficulty = max 1 d ∧ plan.difficulty = t.difficulty) ∧
      (s.newPlan env d = none → t.lanes = s.lanes ∧ t.batchPerLane = s.batchPerLane ∧
        t.parallelMode = s.parallelMode ∧ t.vramPlan = s.vramPlan) := by
  intro s t
  obtain ⟨hrun, hlast⟩ := Run.meets_concat.mp hrun
  have hinv : s.Inv := Run.Meets.invariant (I := Inv) (fun _ _ h hok => h.step hok)
    (Inv.create settings lib maxLanes) hrun
  have hnew : t.Inv := hinv.setDifficulty hlast
  by_cases hd : d = s.difficulty
  · have ht : t = s := setDifficulty_noop ⟨hd, hstarted⟩
    have hnone : s.newPlan env d = none := if_pos hd
    obtain ⟨base, plan, hruns⟩ := hinv.running hstarted
    rw [ht, hnone]
    exact ⟨plan, hruns.plan_eq, hruns.launch_le, hruns.launchFits, fun h => absurd rfl h,
      fun _ => ⟨rfl, rfl, rfl, rfl⟩⟩
  have ht : t = ((s.storeDifficulty d).replan env).1 := setDifficulty_replan hstarted hd
  have hplan : s.newPlan env d = (s.storeDifficulty d).replanned env := if_neg hd
  rw [hplan]
  cases hplanned : (s.storeDifficulty d).replanned env with
  | none =>
    obtain ⟨caps, foreign, baseline, heq⟩ := replan_of_none hplanned
    rw [heq] at ht
    obtain ⟨base, plan, hruns⟩ := hnew.running (by rw [ht]; exact hstarted)
    refine ⟨plan, hruns.plan_eq, hruns.launch_le, hruns.launchFits, fun h => absurd rfl h,
      fun _ => ?_⟩
    rw [ht]
    exact ⟨rfl, rfl, rfl, rfl⟩
  | some first =>
    obtain ⟨base, plan, hruns, hdiff, -, hkeep⟩ :=
      replan_of_some (s := s.storeDifficulty d) hstarted (hlast hstarted hd) hplanned
    rw [← ht] at hruns hkeep
    refine ⟨plan, hruns.plan_eq, hruns.launch_le, hruns.launchFits, fun _ => ⟨hkeep, ?_⟩, nofun⟩
    rw [hkeep, hruns.shrunk.difficulty_eq, hdiff]

/-- An engine whose device cannot be read. -/
def unreadableEngine : EngineReply := { steadyEngine with deviceInfo := none }

/-- The difficulty falls while the device cannot be read. -/
theorem setDifficulty_launch_falling :
    let s := (create { memoryCost := 1500 } true 8).step (steadyEngine, .start)
    (s.setDifficulty unreadableEngine 900).LaunchFits := by
  intro s
  have hrun : Run.Meets step StepSafe (create { memoryCost := 1500 } true 8)
      ([(steadyEngine, .start)] ++ [(unreadableEngine, .setDifficulty 900)]) := by
    refine Run.meets_concat.mpr ⟨⟨?_, trivial⟩, ?_⟩
    · intro _ info _
      exact planSafe_of_no_copies (Or.inl rfl)
    · intro _ _ info hinfo
      cases hinfo
  obtain ⟨plan, hplan, -, hfits, -⟩ := setDifficulty_launch { memoryCost := 1500 } true 8 900
    [(steadyEngine, .start)] unreadableEngine hrun (by decide +kernel)
  have hdiff : (s.setDifficulty unreadableEngine 900).vramPlan.map CudaVramPlan.difficulty
      = some 1500 := by decide +kernel
  have hkept : plan.difficulty = 1500 := by
    rw [show (s.setDifficulty unreadableEngine 900).vramPlan = some plan from hplan] at hdiff
    exact Option.some.inj hdiff
  refine hfits ?_
  rw [hkept]
  decide +kernel

/-- The difficulty doubles while the device cannot be read: the old batch is launched at the new
difficulty and needs twice its budget. -/
theorem setDifficulty_exceeds_budget :
    let s := (create { memoryCost := 1500 } true 8).step (steadyEngine, .start)
    let t := s.setDifficulty unreadableEngine 3000
    s.started = true ∧ s.LaunchFits ∧ t.started = true ∧ ¬ t.LaunchFits := by
  decide +kernel

end XenMiner.CudaNativeBackend
