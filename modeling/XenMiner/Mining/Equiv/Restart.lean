import XenMiner.Mining.Equiv.VramPressure

/-!
# Restarting the backend

A session is any history of operations, with changes of the lane limit between them.  What it leaves
behind a `stop` (`Session`) is a state that plans like a new backend of the same settings, lane limit
and difficulty (`startBase_stop`): caps are looked up again from the settings, and the baseline and
the foreign usage are read again.  The VRAM lane cap and the two batch scales are not reset, and the
new plan runs under them: `restart_iff` says when that shows.
-/

namespace XenMiner.CudaNativeBackend

open PyNum ThermalPolicy VramBatch VramPolicy DeadBand

variable {s t : CudaNativeBackend} {env : EngineReply} {base : CudaVramPlan}

/-! ### Histories -/

/-- The operations of a session; the lane policy moves the lane limit of a running backend too. -/
inductive SessionOp
  | op (op : Op)
  | laneLimit (maxLanes : ℤ)

def sessionStep (s : CudaNativeBackend) : EngineReply × SessionOp → CudaNativeBackend
  | (env, .op op) => s.step (env, op)
  | (_, .laneLimit maxLanes) => { s with maxLanesCap := maxLanes }

/-- Caps that are set are resolved from the settings, as `_apply_vram_policy` does it. -/
def CapsResolved (s : CudaNativeBackend) : EngineReply × SessionOp → Prop
  | (_, .op (.setVramCaps (some caps))) =>
    ∃ totalMib, caps = resolveVramCaps (s.settings.capsArgs totalMib)
  | _ => True

/-- A new backend with the settings, lane limit and difficulty of `s`. -/
def fresh (s : CudaNativeBackend) : CudaNativeBackend :=
  { create s.settings s.parallelLanesSupported s.maxLanesCap with difficulty := s.difficulty }

/-- Lanes, batch, plan and base plan of a backend that runs. -/
def running (s : CudaNativeBackend) : Option (ℤ × ℤ × Option CudaVramPlan × Option CudaVramPlan) :=
  if s.started then some (s.lanes, s.batchPerLane, s.vramPlan, s.baseVramPlan) else none

/-! ### What holds between operations -/

/-- What a stopped backend has reset. -/
structure Idle (s : CudaNativeBackend) : Prop where
  vramPlan : s.vramPlan = none
  baseVramPlan : s.baseVramPlan = none
  thermalLaneCap : s.thermalLaneCap = none
  parallelMode : s.parallelMode = .sequential

/-- Both scales lie between their floor and `1`. -/
structure ScalesBounded (s : CudaNativeBackend) : Prop where
  thermal_ge : s.thermalFloor ≤ s.thermalBatchScale
  thermal_le : s.thermalBatchScale ≤ 1
  vram_ge : s.vramFloor ≤ s.vramBatchScale
  vram_le : s.vramBatchScale ≤ 1

/-- The caps kept are those of the settings for some card. -/
def CapsKnown (s : CudaNativeBackend) : Prop :=
  ∀ caps ∈ s.vramCaps, ∃ totalMib, caps = resolveVramCaps (s.settings.capsArgs totalMib)

/-- What holds of every state of a session. -/
structure Session (s : CudaNativeBackend) : Prop where
  derate : s.DerateInv
  scales : s.ScalesBounded
  caps : s.CapsKnown
  idle : s.started = false → s.Idle

theorem session_create (settings : Settings) (lib : Bool) (maxLanes : ℤ) :
    (create settings lib maxLanes).Session where
  derate := DerateInv.create settings lib maxLanes
  scales := ⟨(clampFloat_floor_mem _).2, le_rfl, (clampFloat_floor_mem _).2, le_rfl⟩
  caps := by
    intro caps hcaps
    cases hcaps
  idle _ := ⟨rfl, rfl, rfl, rfl⟩

/-! ### Scales -/

theorem ScalesBounded.of_replanned (h : s.ScalesBounded) (ht : s.Replanned t) : t.ScalesBounded := by
  refine ⟨?_, ?_, ?_, ?_⟩
  · rw [thermalFloor, ht.settings_eq, ht.thermalBatchScale_eq]
    exact h.thermal_ge
  · rw [ht.thermalBatchScale_eq]
    exact h.thermal_le
  · rw [vramFloor, ht.settings_eq, ht.vramBatchScale_eq]
    exact h.vram_ge
  · rw [ht.vramBatchScale_eq]
    exact h.vram_le

theorem ScalesBounded.setThermalBatchScale (h : s.ScalesBounded) (scale : ℚ) :
    (s.setThermalBatchScale scale).ScalesBounded := by
  have hfloor := s.thermalFloor_mem.2
  unfold CudaNativeBackend.setThermalBatchScale rescale
  dsimp only
  split_ifs
  · exact h
  · exact ⟨le_clamp _ _ _, clamp_le hfloor, h.vram_ge, h.vram_le⟩
  · exact ⟨le_clamp _ _ _, clamp_le hfloor, h.vram_ge, h.vram_le⟩

theorem ScalesBounded.setVramBatchScale (h : s.ScalesBounded) (scale : ℚ) :
    (s.setVramBatchScale scale).ScalesBounded := by
  have hfloor := s.vramFloor_mem.2
  unfold CudaNativeBackend.setVramBatchScale rescale
  dsimp only
  split_ifs
  · exact h
  · exact ⟨h.thermal_ge, h.thermal_le, le_clamp _ _ _, clamp_le hfloor⟩
  · exact ⟨h.thermal_ge, h.thermal_le, le_clamp _ _ _, clamp_le hfloor⟩

/-- The combined scale is full exactly when both scales are. -/
theorem combinedBatchScale_eq_one_iff (h : s.ScalesBounded) :
    s.combinedBatchScale = 1 ↔ s.thermalBatchScale = 1 ∧ s.vramBatchScale = 1 := by
  obtain ⟨hthermal, hthermal', hvram, hvram'⟩ := h
  have hfloor := s.thermalFloor_mem
  have hvfloor := s.vramFloor_mem
  unfold combinedBatchScale combineBatchScales
  generalize s.thermalFloor = f at hthermal hfloor ⊢
  generalize s.vramFloor = v at hvram hvfloor ⊢
  have hlow : clampFloat (min f v) (1 / 2) 1 = min f v :=
    clamp_eq_self (le_min hfloor.1 hvfloor.1) ((min_le_left _ _).trans hfloor.2)
  have hself : clampFloat (min s.thermalBatchScale s.vramBatchScale) (min f v) 1
      = min s.thermalBatchScale s.vramBatchScale :=
    clamp_eq_self (min_le_min hthermal hvram) ((min_le_left _ _).trans hthermal')
  show clampFloat (min s.thermalBatchScale s.vramBatchScale) (clampFloat (min f v) (1 / 2) 1) 1 = 1 ↔ _
  rw [hlow, hself]
  constructor
  · intro hone
    constructor
    · exact le_antisymm hthermal' (hone.symm.le.trans (min_le_left _ _))
    · exact le_antisymm hvram' (hone.symm.le.trans (min_le_right _ _))
  · rintro ⟨hone, hvone⟩
    rw [hone, hvone, min_self]

/-- Only a batch of one attempt survives a scale below `1`. -/
theorem applyBatchScale_eq_self_iff {b : ℤ} (hb : 1 ≤ b) {scale : ℚ} (hlow : 1 / 2 ≤ scale)
    (hle : scale ≤ 1) : applyBatchScale b scale = b ↔ b = 1 ∨ scale = 1 := by
  have hb0 : (0 : ℚ) < b := by exact_mod_cast hb
  unfold applyBatchScale
  rw [if_neg (by omega), show clampFloat scale (1 / 2) 1 = scale from clamp_eq_self hlow hle,
    pyInt_of_nonneg (mul_nonneg hb0.le (by linarith))]
  constructor
  · intro heq
    by_cases hone : b = 1
    · exact Or.inl hone
    · have hfloor : b ≤ ⌊(b : ℚ) * scale⌋ := by omega
      rw [Int.le_floor] at hfloor
      exact Or.inr (le_antisymm hle (one_le_of_le_mul_left₀ hb0 hfloor))
  · rintro (rfl | rfl)
    · have hcut : ⌊((1 : ℤ) : ℚ) * scale⌋ ≤ 1 := by
        rw [Int.cast_one, one_mul]
        exact (Int.floor_mono hle).trans_eq Int.floor_one
      omega
    · rw [mul_one, Int.floor_intCast]
      exact max_eq_right hb

/-! ### Caps -/

/-- Looking caps up gives those of the settings, whatever card was looked up before. -/
theorem CapsKnown.capsForTotal_eq (h : s.CapsKnown) {totalMib : ℤ} (htotal : 1 ≤ totalMib) :
    s.capsForTotal totalMib = resolveVramCaps (s.settings.capsArgs totalMib) := by
  unfold capsForTotal
  split
  next caps hcaps =>
    obtain ⟨other, rfl⟩ := h caps hcaps
    split_ifs with hsame
    · -- caps depend on the card through `max(1, total)` only
      have hmax : max 1 other = totalMib := hsame
      show resolveVramCaps (s.settings.capsArgs other) = _
      unfold resolveVramCaps
      rw [show (s.settings.capsArgs other).total = (s.settings.capsArgs totalMib).total from
        hmax.trans (max_eq_right htotal).symm]
      unfold CapsArgs.headroomRequest CapsArgs.minHeadroomRequest CapsArgs.overheadRequest
        CapsArgs.emergencyRequest CapsArgs.targetRequest CapsArgs.request
      rw [show (s.settings.capsArgs other).total = (s.settings.capsArgs totalMib).total from
        hmax.trans (max_eq_right htotal).symm]
      rfl
    · rfl
  next => rfl

theorem CapsKnown.capsForTotal (h : s.CapsKnown) {totalMib : ℤ} (htotal : 1 ≤ totalMib) :
    ({ s with vramCaps := some (s.capsForTotal totalMib) } : CudaNativeBackend).CapsKnown := by
  rintro caps ⟨⟩
  exact ⟨totalMib, h.capsForTotal_eq htotal⟩

theorem observeDevice_vramCaps (s : CudaNativeBackend) (info : DeviceInfo) :
    (s.observeDevice info).vramCaps = some (s.capsForTotal (deviceTotalMib info)) := by
  unfold observeDevice
  dsimp only
  split_ifs <;> rfl

theorem CapsKnown.observeDevice (h : s.CapsKnown) (info : DeviceInfo) :
    (s.observeDevice info).CapsKnown := by
  intro caps hcaps
  rw [observeDevice_vramCaps] at hcaps
  obtain ⟨⟩ := hcaps
  rw [(replanned_observeDevice s info).settings_eq]
  exact ⟨_, h.capsForTotal_eq (le_max_left _ _)⟩

/-! ### Operations of a session -/

theorem started_syncLaneEngines (s : CudaNativeBackend) (env : EngineReply) :
    (s.syncLaneEngines env).1.started = s.started ∧
      (s.syncLaneEngines env).1.vramCaps = s.vramCaps := by
  obtain ⟨engines, mode, heq, -⟩ := syncLaneEngines_eq s env
  rw [heq]
  exact ⟨rfl, rfl⟩

theorem started_reapplyLiveCaps (s : CudaNativeBackend) (env : EngineReply) :
    (s.reapplyLiveCaps env).1.started = s.started ∧
      (s.reapplyLiveCaps env).1.vramCaps = s.vramCaps :=
  reapplyLiveCaps_rule (P := fun t => t.started = s.started ∧ t.vramCaps = s.vramCaps) env
    (fun _ => ⟨rfl, rfl⟩) (fun _ _ _ => started_syncLaneEngines _ env) fun _ _ => ⟨rfl, rfl⟩

/-- An operation that only notes figures of its own, before the live caps are applied again. -/
theorem Session.reapplyLiveCaps (hscales : s.ScalesBounded) (hcaps : s.CapsKnown)
    (hidle : s.started = false → s.Idle) (hderate : (s.reapplyLiveCaps env).1.DerateInv) :
    (s.reapplyLiveCaps env).1.Session := by
  have hsame := replanned_reapplyLiveCaps s env
  obtain ⟨hstarted, hvram⟩ := started_reapplyLiveCaps s env
  refine ⟨hderate, hscales.of_replanned hsame, ?_, fun hstop => ?_⟩
  · unfold CapsKnown
    rw [hvram, hsame.settings_eq]
    exact hcaps
  · rw [hstarted] at hstop
    have hnone := (hidle hstop).baseVramPlan
    unfold CudaNativeBackend.reapplyLiveCaps
    rw [hnone]
    exact hidle hstop

theorem Session.setThermalBatchScale (h : s.Session) (scale : ℚ) :
    (s.setThermalBatchScale scale).Session := by
  refine ⟨h.derate.setThermalBatchScale scale, h.scales.setThermalBatchScale scale, ?_, ?_⟩
  · unfold CudaNativeBackend.setThermalBatchScale rescale
    dsimp only
    split_ifs <;> exact h.caps
  · unfold CudaNativeBackend.setThermalBatchScale rescale
    dsimp only
    split_ifs <;> exact fun hstop => { h.idle hstop with }

theorem Session.setVramBatchScale (h : s.Session) (scale : ℚ) :
    (s.setVramBatchScale scale).Session := by
  refine ⟨h.derate.setVramBatchScale scale, h.scales.setVramBatchScale scale, ?_, ?_⟩
  · unfold CudaNativeBackend.setVramBatchScale rescale
    dsimp only
    split_ifs <;> exact h.caps
  · unfold CudaNativeBackend.setVramBatchScale rescale
    dsimp only
    split_ifs <;> exact fun hstop => { h.idle hstop with }

/-- Readings, lane limit and difficulty are no part of what a session keeps. -/
theorem Session.note (h : s.Session) (d temp used maxLanes : ℤ) :
    Session { s with
      difficulty := d, lastTempC := temp, lastVramUsedMib := used, maxLanesCap := maxLanes } := by
  refine ⟨⟨h.derate.caps, fun hrun => ?_⟩, { h.scales with }, h.caps,
    fun hstop => { h.idle hstop with }⟩
  obtain ⟨base, hder⟩ := h.derate.derated hrun
  exact ⟨base, { hder with }⟩

theorem CapsKnown.syncLaneEngines (h : s.CapsKnown) : (s.syncLaneEngines env).1.CapsKnown := by
  unfold CapsKnown
  rw [(started_syncLaneEngines s env).2, (replanned_syncLaneEngines s env).settings_eq]
  exact h

theorem CapsKnown.start (h : s.CapsKnown) : (s.start env).1.CapsKnown := by
  have hseen : ∀ info, ((s.coldStart info).observeDevice info).CapsKnown := by
    intro info
    have hcold : (s.coldStart info).CapsKnown := h.capsForTotal (by norm_num)
    exact hcold.observeDevice info
  refine start_rule (P := CapsKnown) env (fun _ => h) (fun _ => h.capsForTotal (by norm_num))
    (fun info _ => hseen info) fun info t base _ _ hfrom => ?_
  have ht : t.CapsKnown := (Prod.mk.inj hfrom).1 ▸ hseen info
  exact CapsKnown.syncLaneEngines ht

theorem idle_start (h : s.started = false → s.Idle) :
    (s.start env).1.started = false → (s.start env).1.Idle := by
  refine start_rule (P := fun t => t.started = false → t.Idle) env (fun _ => h)
    (fun hstop _ => { h hstop with }) (fun info hstop _ => ?_) fun info t base _ _ _ hstop => ?_
  · obtain ⟨caps, foreign, baseline, heq⟩ := observeDevice_eq (s.coldStart info) info
    rw [heq]
    exact { h hstop with }
  · -- a backend with a plan runs
    rw [(started_syncLaneEngines _ env).1] at hstop
    cases hstop

theorem Session.start (h : s.Session) : (s.start env).1.Session :=
  ⟨h.derate.start, h.scales.of_replanned (replanned_start s env), h.caps.start, idle_start h.idle⟩

theorem Session.stop (h : s.Session) : s.stop.Session := by
  refine ⟨h.derate.stop, ?_, ?_, ?_⟩
  · unfold CudaNativeBackend.stop
    split_ifs
    · exact { h.scales with }
    · exact h.scales
  · unfold CudaNativeBackend.stop
    split_ifs <;> exact h.caps
  · unfold CudaNativeBackend.stop
    split_ifs
    · exact fun _ => ⟨rfl, rfl, rfl, rfl⟩
    · exact h.idle

theorem CapsKnown.replan (h : s.CapsKnown) : (s.replan env).1.CapsKnown := by
  refine replan_rule (P := CapsKnown) env h h.observeDevice fun info t base _ hfrom => ?_
  have ht : t.CapsKnown := (Prod.mk.inj hfrom).1 ▸ h.observeDevice info
  exact CapsKnown.syncLaneEngines ht

/-- A replan leaves a running backend running. -/
theorem started_replan (hrun : s.started = true) : (s.replan env).1.started = true := by
  have hseen : ∀ info, (s.observeDevice info).started = true := by
    intro info
    obtain ⟨caps, foreign, baseline, heq⟩ := observeDevice_eq s info
    rw [heq]
    exact hrun
  refine replan_rule (P := fun t => t.started = true) env hrun hseen fun info t base _ hfrom => ?_
  rw [(started_syncLaneEngines _ env).1]
  show t.started = true
  rw [← (Prod.mk.inj hfrom).1]
  exact hseen info

theorem Session.setDifficulty (h : s.Session) (d : ℤ) : (s.setDifficulty env d).Session := by
  have hstored : (s.storeDifficulty d).Session :=
    h.note (max 1 d) s.lastTempC s.lastVramUsedMib s.maxLanesCap
  refine ⟨h.derate.setDifficulty d, h.scales.of_replanned (replanned_setDifficulty s env d), ?_, ?_⟩
  · exact setDifficulty_rule (P := CapsKnown) env (fun _ => h.caps) (fun _ => hstored.caps)
      fun _ _ => hstored.caps.replan
  · refine setDifficulty_rule (P := fun t => t.started = false → t.Idle) env (fun _ => h.idle)
      (fun _ => hstored.idle) fun hrun _ hstop => ?_
    have hkeep : ((s.storeDifficulty d).replan env).1.started = true := started_replan hrun
    rw [hkeep] at hstop
    cases hstop

theorem Session.step (h : s.Session) {i : EngineReply × SessionOp} (hok : s.CapsResolved i) :
    (s.sessionStep i).Session := by
  obtain ⟨env, op | maxLanes⟩ := i
  · cases op with
    | start => exact h.start
    | stop => exact h.stop
    | setVramCaps caps =>
      refine ⟨h.derate.note caps _ _ _ _ _, { h.scales with }, ?_, fun hstop => { h.idle hstop with }⟩
      rintro new ⟨⟩
      exact hok
    | setDifficulty d => exact h.setDifficulty d
    | setThermalBatchScale scale => exact h.setThermalBatchScale scale
    | setVramBatchScale scale => exact h.setVramBatchScale scale
    | updateThermalBatchFromTemp temperatureC =>
      exact (h.note s.difficulty temperatureC s.lastVramUsedMib s.maxLanesCap).setThermalBatchScale _
    | updateThermalLanesFromTemp temperatureC =>
      have hderate : (s.updateThermalLanesFromTemp env temperatureC).DerateInv :=
        h.derate.updateThermalLanesFromTemp temperatureC
      show (s.updateThermalLanesFromTemp env temperatureC).Session
      unfold CudaNativeBackend.updateThermalLanesFromTemp at hderate ⊢
      split_ifs at hderate ⊢ with hskip
      · exact h.note s.difficulty temperatureC s.lastVramUsedMib s.maxLanesCap
      · refine Session.reapplyLiveCaps { h.scales with } h.caps (fun hstop => ?_) hderate
        exact absurd (Or.inl (h.idle hstop).baseVramPlan) hskip
    | updateVramPressureFromUsed used target emergency =>
      have hderate : (s.updateVramPressureFromUsed env used target emergency).DerateInv :=
        h.derate.updateVramPressureFromUsed used target emergency
      have hnote := fun scale => (h.note s.difficulty s.lastTempC used s.maxLanesCap).setVramBatchScale
        scale
      have hnoted : (s.noteVramPressure used target emergency).ScalesBounded ∧
          (s.noteVramPressure used target emergency).CapsKnown ∧
            ((s.noteVramPressure used target emergency).started = false →
              (s.noteVramPressure used target emergency).Idle) := by
        unfold noteVramPressure
        dsimp only
        split_ifs <;>
          exact ⟨{ (hnote _).scales with }, (hnote _).caps,
            fun hstop => { (hnote _).idle hstop with }⟩
      exact Session.reapplyLiveCaps hnoted.1 hnoted.2.1 hnoted.2.2 hderate
  · exact h.note s.difficulty s.lastTempC s.lastVramUsedMib maxLanes

/-! ### What a start plans -/

/-- The base plan a `start` accepts. -/
def startBase (s : CudaNativeBackend) (env : EngineReply) : Option CudaVramPlan :=
  match env.init (s.initReserveBytes (s.capsForTotal 32768)), env.deviceInfo with
  | .ok, some info =>
    match (s.coldStart info).planFromDevice info s.difficulty with
    | (t, .ok base) =>
      match t.verifyBatchFitsBudget base s.difficulty with
      | .ok () => some base
      | .error _ => none
    | (_, .error _) => none
  | _, _ => none

theorem fit_of_startBase (h : s.startBase env = some base) : base.Fit := by
  unfold startBase at h
  split at h
  next info _ _ =>
    split at h
    next t plan hfrom =>
      split at h
      next =>
        rw [← Option.some.inj h]
        exact fit_of_planFromDevice hfrom
      next => cases h
    next => cases h
  next => cases h

theorem effectivePlan_of_replanned (h : s.Replanned t) (base : CudaVramPlan) :
    t.effectivePlan base = s.effectivePlan base := by
  unfold effectivePlan liveLaneCaps biasedLanes
  rw [h.settings_eq, h.thermalLaneCap_eq, h.vramLaneCap_eq]

theorem combinedBatchScale_of_replanned (h : s.Replanned t) :
    t.combinedBatchScale = s.combinedBatchScale := by
  unfold combinedBatchScale thermalFloor vramFloor
  rw [h.settings_eq, h.thermalBatchScale_eq, h.vramBatchScale_eq]

/-- A stopped backend that starts runs the effective plan of the base plan it accepts, whatever lane
set-up does. -/
theorem running_start (hstop : s.started = false) :
    (s.start env).1.running = (s.startBase env).map fun base =>
      ((s.effectivePlan base).lanes,
        applyBatchScale (s.effectivePlan base).batchPerLane s.combinedBatchScale,
        some (s.effectivePlan base), some base) := by
  have hidle : ∀ {t : CudaNativeBackend}, t.started = s.started → t.running = none := by
    intro t ht
    unfold running
    rw [ht, hstop]
    rfl
  unfold CudaNativeBackend.start startBase
  rw [if_neg (by rw [hstop]; exact Bool.false_ne_true)]
  dsimp only
  cases hinit : env.init (s.initReserveBytes (s.capsForTotal 32768)) with
  | refused => exact hidle rfl
  | raised => exact hidle rfl
  | ok =>
    cases hinfo : env.deviceInfo with
    | none => exact hidle rfl
    | some info =>
      dsimp only
      unfold startWith
      obtain ⟨caps, foreign, baseline, heq⟩ := observeDevice_eq (s.coldStart info) info
      have hcold : s.Replanned (s.coldStart info) := ⟨rfl, rfl, rfl, rfl, rfl, rfl, rfl⟩
      have hseen := hcold.trans (replanned_observeDevice (s.coldStart info) info)
      rw [show (s.coldStart info).difficulty = s.difficulty from rfl]
      split
      next t failure hfrom =>
        rw [hfrom]
        refine hidle ?_
        rw [← (Prod.mk.inj hfrom).1, heq]
        rfl
      next t base hfrom =>
        have ht : t = (s.coldStart info).observeDevice info := (Prod.mk.inj hfrom).1.symm
        rw [hfrom]
        dsimp only
        rw [show t.difficulty = s.difficulty by rw [ht, heq]; rfl]
        cases hverify : t.verifyBatchFitsBudget base s.difficulty with
        | error failure =>
          refine hidle ?_
          rw [ht, heq]
          rfl
        | ok =>
          obtain ⟨engines, mode, hsync, -⟩ := syncLaneEngines_eq
            { t.applyPlan (t.effectivePlan base) base with started := true } env
          rw [← ht] at hseen
          dsimp only
          rw [hsync, Option.map_some, ← effectivePlan_of_replanned hseen,
            ← combinedBatchScale_of_replanned hseen]
          rfl

/-- What planning reads of a backend. -/
structure PlansAlike (s t : CudaNativeBackend) : Prop where
  settings_eq : t.settings = s.settings
  parallelLanesSupported_eq : t.parallelLanesSupported = s.parallelLanesSupported
  maxLanesCap_eq : t.maxLanesCap = s.maxLanesCap
  parallelMode_eq : t.parallelMode = s.parallelMode
  vramCaps_eq : t.vramCaps = s.vramCaps
  vramPlan_eq : t.vramPlan = s.vramPlan
  desktopBaselineMib_eq : t.desktopBaselineMib = s.desktopBaselineMib
  foreignVramMib_eq : t.foreignVramMib = s.foreignVramMib

theorem PlansAlike.planFromDevice (h : s.PlansAlike t) (info : DeviceInfo) (d : ℤ) :
    (t.planFromDevice info d).2 = (s.planFromDevice info d).2 := by
  obtain ⟨hsettings, hlib, hmax, hmode, hcaps, hplan, hbaseline, hforeign⟩ := h
  cases s
  cases t
  dsimp only at hsettings hlib hmax hmode hcaps hplan hbaseline hforeign
  subst hsettings hlib hmax hmode hcaps hplan hbaseline hforeign
  unfold CudaNativeBackend.planFromDevice observeDevice
  dsimp only
  split_ifs <;> rfl

theorem stop_keeps (s : CudaNativeBackend) : s.stop.settings = s.settings ∧
    s.stop.vramLaneCap = s.vramLaneCap ∧ s.stop.thermalBatchScale = s.thermalBatchScale ∧
      s.stop.vramBatchScale = s.vramBatchScale ∧ s.stop.started = false := by
  unfold CudaNativeBackend.stop
  split_ifs with hrun
  · exact ⟨rfl, rfl, rfl, rfl, rfl⟩
  · exact ⟨rfl, rfl, rfl, rfl, Bool.not_eq_true _ ▸ hrun⟩

/-- After a `stop` the next base plan is that of a new backend. -/
theorem startBase_stop (h : s.Session) : s.stop.startBase env = s.fresh.startBase env := by
  obtain ⟨hsettings, -, -, -, hstarted⟩ := stop_keeps s
  have hkeep : s.stop.parallelLanesSupported = s.parallelLanesSupported ∧
      s.stop.maxLanesCap = s.maxLanesCap ∧ s.stop.difficulty = s.difficulty := by
    unfold CudaNativeBackend.stop
    split_ifs <;> exact ⟨rfl, rfl, rfl⟩
  obtain ⟨hlib, hmax, hdiff⟩ := hkeep
  have hidle := h.stop.idle hstarted
  have hcaps : s.stop.capsForTotal 32768 = s.fresh.capsForTotal 32768 := by
    rw [h.stop.caps.capsForTotal_eq (by norm_num), hsettings]
    rfl
  have halike : ∀ info, (s.fresh.coldStart info).PlansAlike (s.stop.coldStart info) := fun info =>
    ⟨hsettings, hlib, hmax, hidle.parallelMode, congrArg some hcaps, hidle.vramPlan, rfl, rfl⟩
  unfold startBase
  rw [hcaps, show s.stop.initReserveBytes = s.fresh.initReserveBytes by
    unfold initReserveBytes
    rw [hsettings]
    rfl]
  split
  next info _ _ =>
    have hsame := (halike info).planFromDevice info s.difficulty
    rw [hdiff, show s.fresh.difficulty = s.difficulty from rfl]
    cases hstop : (s.stop.coldStart info).planFromDevice info s.difficulty with
    | mk t result =>
      cases hfresh : (s.fresh.coldStart info).planFromDevice info s.difficulty with
      | mk u result' =>
        rw [hstop, hfresh] at hsame
        cases hsame
        cases result with
        | error failure => rfl
        | ok base =>
          -- the budget check reads the settings only
          have ht : t.settings = u.settings := by
            rw [← (Prod.mk.inj hstop).1, ← (Prod.mk.inj hfresh).1,
              (replanned_observeDevice _ info).settings_eq,
              (replanned_observeDevice _ info).settings_eq]
            exact hsettings
          have hverify : t.verifyBatchFitsBudget base s.difficulty
              = u.verifyBatchFitsBudget base s.difficulty := by
            unfold verifyBatchFitsBudget
            rw [ht]
          dsimp only
          rw [hverify]
  next => rfl

/-! ### Leftovers of the previous session -/

theorem combinedBatchScale_fresh : s.fresh.combinedBatchScale = 1 :=
  (combinedBatchScale_eq_one_iff
    ⟨(clampFloat_floor_mem _).2, le_rfl, (clampFloat_floor_mem _).2, le_rfl⟩).mpr ⟨rfl, rfl⟩

/-- The VRAM cap of the previous session leaves the plan of a new backend if and only if it is at
least its lanes. -/
theorem effectivePlan_stop_eq_iff (h : s.Session) (hfit : base.Fit) :
    s.stop.effectivePlan base = s.fresh.effectivePlan base ↔
      ∀ cap ∈ s.vramLaneCap, (s.fresh.effectivePlan base).lanes ≤ cap := by
  obtain ⟨hsettings, hvram, -, -, hstarted⟩ := stop_keeps s
  have hidle := h.stop.idle hstarted
  have hlanes := hfit.sized.lanes_pos
  constructor
  · intro heq cap hcap
    rw [← hvram] at hcap
    rw [← heq, effectivePlan_lanes_of_fit hfit]
    exact (laneTarget_le h.stop.derate.caps hlanes).2.2.2 cap hcap
  · intro hge
    have hfresh : (s.fresh.effectivePlan base).lanes
        = min base.lanes (max 1 (s.biasedLanes base.lanes base.difficulty)) := by
      have hbias : s.fresh.biasedLanes = s.biasedLanes := rfl
      rw [effectivePlan_lanes_of_fit hfit]
      unfold laneTarget
      rw [hbias]
      show min (min _ (max 1 _)) (max 1 _) = _
      dsimp only [fresh, create, Option.getD_none]
      omega
    have hbias : s.stop.biasedLanes = s.biasedLanes := by
      unfold biasedLanes
      rw [hsettings]
    rw [effectivePlan_of_cap_ge]
    · unfold effectivePlan liveLaneCaps biasedLanes
      rw [hidle.thermalLaneCap, hsettings]
      rfl
    · intro cap hcap
      rw [hvram] at hcap
      have hcap := hge cap hcap
      rw [hfresh] at hcap
      rw [hbias]
      omega

/-- **A restart is a clean start**, exactly where the leftovers of the previous session do not bite:
the VRAM lane cap is at least the lanes that the planner and the difficulty bias allot, and both batch
scales are full (or the batch is a single attempt).  `inputs` is any history of a session, and `env`
the reading and the answers of the engine at the start. -/
theorem restart_iff (settings : Settings) (lib : Bool) (maxLanes : ℤ)
    (inputs : List (EngineReply × SessionOp))
    (hcaps : Run.Meets sessionStep CapsResolved (create settings lib maxLanes) inputs)
    (env : EngineReply) :
    let s := Run.final sessionStep (create settings lib maxLanes) inputs
    (s.stop.start env).1.running = (s.fresh.start env).1.running ↔
      ∀ base, s.fresh.startBase env = some base →
        (∀ cap ∈ s.vramLaneCap, (s.fresh.effectivePlan base).lanes ≤ cap) ∧
          ((s.fresh.effectivePlan base).batchPerLane = 1 ∨
            (s.thermalBatchScale = 1 ∧ s.vramBatchScale = 1)) := by
  intro s
  have h : s.Session :=
    hcaps.invariant (fun _ _ h hok => h.step hok) (session_create settings lib maxLanes)
  obtain ⟨-, -, hthermal, hvram, hstarted⟩ := stop_keeps s
  have hfull : s.stop.combinedBatchScale = 1 ↔ s.thermalBatchScale = 1 ∧ s.vramBatchScale = 1 := by
    rw [combinedBatchScale_eq_one_iff h.stop.scales, hthermal, hvram]
  obtain ⟨hlow, hhigh⟩ := combinedBatchScale_mem s.stop
  rw [running_start hstarted, running_start rfl, startBase_stop h, combinedBatchScale_fresh]
  cases hbase : s.fresh.startBase env with
  | none => simp
  | some base =>
    have hfit := fit_of_startBase hbase
    have hbatch := (fit_effectivePlan (s := s.fresh) hfit).batch_pos
    have hself : applyBatchScale (s.fresh.effectivePlan base).batchPerLane 1
        = (s.fresh.effectivePlan base).batchPerLane :=
      (applyBatchScale_eq_self_iff hbatch (by norm_num) le_rfl).mpr (Or.inr rfl)
    have hcut := effectivePlan_stop_eq_iff h hfit
    rw [Option.map_some, Option.map_some, hself, ← hfull]
    constructor
    · rintro heq _ ⟨⟩
      obtain ⟨-, hscaled, hplan, -⟩ : _ ∧ _ ∧ _ ∧ _ := by
        simpa only [Option.some.injEq, Prod.mk.injEq] using heq
      rw [hplan] at hscaled
      exact ⟨hcut.mp hplan, (applyBatchScale_eq_self_iff hbatch hlow hhigh).mp hscaled⟩
    · intro hall
      obtain ⟨hcaps, hscale⟩ := hall base rfl
      rw [hcut.mpr hcaps, (applyBatchScale_eq_self_iff hbatch hlow hhigh).mpr hscale]

/-- Pressure that came and went leaves nothing behind. -/
theorem restart_iff_relieved :
    let s := Run.final sessionStep (create { memoryCost := 100 } true 8)
      [(steadyEngine, .op (.setVramCaps (some (resolveVramCaps
          (({ memoryCost := 100 } : Settings).capsArgs 24576))))),
        (steadyEngine, .op .start), (steadyEngine, .laneLimit 6),
        (steadyEngine, .op (.updateVramPressureFromUsed 21000 20000 22000)),
        (steadyEngine, .op (.updateVramPressureFromUsed 19000 20000 22000))]
    ∀ base, s.fresh.startBase steadyEngine = some base →
      (∀ cap ∈ s.vramLaneCap, (s.fresh.effectivePlan base).lanes ≤ cap) ∧
        ((s.fresh.effectivePlan base).batchPerLane = 1 ∨
          (s.thermalBatchScale = 1 ∧ s.vramBatchScale = 1)) := by
  refine (restart_iff _ _ _ _ ?_ _).mp ?_
  · exact ⟨⟨24576, rfl⟩, trivial, trivial, trivial, trivial, trivial⟩
  · decide +kernel

/-- Half way to the emergency limit when the miner stops: the new session runs fewer lanes with a
smaller batch than a new backend does on the same card. -/
theorem restart_fails :
    let s := Run.final sessionStep (create { memoryCost := 100 } true 8)
      [(steadyEngine, .op .start),
        (steadyEngine, .op (.updateVramPressureFromUsed 21000 20000 22000))]
    (s.stop.start steadyEngine).1.running ≠ (s.fresh.start steadyEngine).1.running ∧
      (s.stop.start steadyEngine).1.lanes < (s.fresh.start steadyEngine).1.lanes := by
  decide +kernel

end XenMiner.CudaNativeBackend
