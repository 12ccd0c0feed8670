import XenMiner.Mining.Equiv.Restart
import XenMiner.Mining.XenCudaApi

/-!
# Lanes and lane slots

The backend counts lanes, the native engine holds slots, and `_sync_lane_engines` keeps them in step.
`syncPoint` says where an operation calls it; a session of both sides (`SlotSession`) follows every call
into the native engine.  When a resize fails, the fallback only changes the mode: the lanes stay, and
so does the way they are addressed.  So every lane has its slot in all states of a run exactly when
every resize gets the slots it asks for (`slots_cover_iff`).
-/

namespace XenMiner.CudaNativeBackend

open XenCudaApi VramBatch

variable {s t : CudaNativeBackend} {env : EngineReply} {base : CudaVramPlan}

/-! ### Where lanes are set up -/

/-- The state in which `_reapply_live_caps` sets the lanes of a running backend up: when their number
changes. -/
def reapplyPoint (s : CudaNativeBackend) : Option CudaNativeBackend :=
  s.baseVramPlan.bind fun base =>
    if s.started = true ∧ (s.effectivePlan base).lanes ≠ s.lanes then
      some (s.applyPlan (s.effectivePlan base) base)
    else none

/-- The state in which `start` sets lanes up: with the base plan it accepts. -/
def startPoint (s : CudaNativeBackend) (env : EngineReply) : Option CudaNativeBackend :=
  (s.startBase env).bind fun base => env.deviceInfo.map fun info =>
    let t := (s.coldStart info).observeDevice info
    { t.applyPlan (t.effectivePlan base) base with started := true }

/-- The state in which a replan sets lanes up: with the plan it gets, cut to the limit. -/
def replanPoint (s : CudaNativeBackend) (env : EngineReply) : Option CudaNativeBackend :=
  (s.replanned env).bind fun base => env.deviceInfo.map fun info =>
    let t := s.observeDevice info
    let base := t.softClamp base t.difficulty
    t.applyPlan (t.effectivePlan base) base

/-- The state in which an operation has `_sync_lane_engines` set lanes up, if it does. -/
def syncPoint (s : CudaNativeBackend) : EngineReply × SessionOp → Option CudaNativeBackend
  | (env, .op .start) => if s.started then none else s.startPoint env
  | (env, .op (.setDifficulty d)) =>
    if s.started = false ∨ d = s.difficulty then none else (s.storeDifficulty d).replanPoint env
  | (_, .op (.updateThermalLanesFromTemp temperatureC)) =>
    if s.baseVramPlan = none ∨ s.settings.gpuThermalLaneEnabled = false then none
    else (s.noteThermalLanes temperatureC).reapplyPoint
  | (_, .op (.updateVramPressureFromUsed used target emergency)) =>
    (s.noteVramPressure used target emergency).reapplyPoint
  | _ => none

theorem reapply_cases (s : CudaNativeBackend) (env : EngineReply) :
    (∃ t, s.reapplyPoint = some t ∧ (s.reapplyLiveCaps env).1 = (t.syncLaneEngines env).1 ∧
      t.started = true ∧ s.started = true) ∨
    (s.reapplyPoint = none ∧ ((s.reapplyLiveCaps env).1.started = true →
      s.started = true ∧ (s.reapplyLiveCaps env).1.lanes = s.lanes)) := by
  rw [(started_reapplyLiveCaps s env).1]
  unfold reapplyPoint CudaNativeBackend.reapplyLiveCaps
  cases hbase : s.baseVramPlan with
  | none => exact Or.inr ⟨rfl, fun hrun => ⟨hrun, rfl⟩⟩
  | some base =>
    rw [Option.bind_some]
    by_cases hpoint : s.started = true ∧ (s.effectivePlan base).lanes ≠ s.lanes
    · rw [if_pos hpoint]
      dsimp only
      rw [if_pos hpoint.2]
      exact Or.inl ⟨_, rfl, rfl, hpoint.1, hpoint.1⟩
    · rw [if_neg hpoint]
      refine Or.inr ⟨rfl, fun hrun => ⟨hrun, ?_⟩⟩
      have hlanes : ¬ (s.effectivePlan base).lanes ≠ s.lanes := fun h => hpoint ⟨hrun, h⟩
      dsimp only
      rw [if_neg hlanes]
      exact not_not.mp hlanes

/-- A start either sets lanes up, with the engine initialised, or does not start. -/
theorem start_cases (env : EngineReply) (hstop : s.started = false) :
    (∃ t, s.startPoint env = some t ∧ (s.start env).1 = (t.syncLaneEngines env).1 ∧
      t.started = true ∧ env.init (s.initReserveBytes (s.capsForTotal 32768)) = .ok) ∨
    (s.startPoint env = none ∧ (s.start env).1.started = false) := by
  have hskip : ¬ s.started = true := by
    rw [hstop]
    exact Bool.false_ne_true
  unfold startPoint startBase CudaNativeBackend.start
  rw [if_neg hskip]
  dsimp only
  cases hinit : env.init (s.initReserveBytes (s.capsForTotal 32768)) with
  | refused => exact Or.inr ⟨rfl, hstop⟩
  | raised => exact Or.inr ⟨rfl, hstop⟩
  | ok =>
    cases hinfo : env.deviceInfo with
    | none => exact Or.inr ⟨rfl, hstop⟩
    | some info =>
      dsimp only
      unfold startWith
      obtain ⟨caps, foreign, baseline, heq⟩ := observeDevice_eq (s.coldStart info) info
      rw [show (s.coldStart info).difficulty = s.difficulty from rfl]
      cases hfrom : (s.coldStart info).planFromDevice info s.difficulty with
      | mk t result =>
        obtain ⟨rfl, -⟩ := Prod.mk.inj hfrom
        have hstarted : ((s.coldStart info).observeDevice info).started = false := by
          rw [heq]
          exact hstop
        have hdiff : ((s.coldStart info).observeDevice info).difficulty = s.difficulty := by
          rw [heq]
          rfl
        cases result with
        | error failure => exact Or.inr ⟨rfl, hstarted⟩
        | ok base =>
          dsimp only
          rw [hdiff]
          cases hverify : ((s.coldStart info).observeDevice info).verifyBatchFitsBudget base
              s.difficulty with
          | error failure => exact Or.inr ⟨rfl, hstarted⟩
          | ok => exact Or.inl ⟨_, rfl, rfl, rfl, rfl⟩

/-- A replan either sets lanes up or leaves them alone. -/
theorem replan_cases (s : CudaNativeBackend) (env : EngineReply) :
    (∃ t, s.replanPoint env = some t ∧ (s.replan env).1 = (t.syncLaneEngines env).1 ∧
      t.started = s.started) ∨
    (s.replanPoint env = none ∧ (s.replan env).1.lanes = s.lanes) := by
  unfold replanPoint CudaNativeBackend.replanned CudaNativeBackend.replan
  cases hinfo : env.deviceInfo with
  | none => exact Or.inr ⟨rfl, rfl⟩
  | some info =>
    obtain ⟨caps, foreign, baseline, heq⟩ := observeDevice_eq s info
    have hlanes : (s.observeDevice info).lanes = s.lanes := by rw [heq]
    have hstarted : (s.observeDevice info).started = s.started := by rw [heq]
    dsimp only [Option.bind_some]
    cases hfrom : s.planFromDevice info s.difficulty with
    | mk t result =>
      obtain ⟨rfl, -⟩ := Prod.mk.inj hfrom
      cases result with
      | error failure => exact Or.inr ⟨rfl, hlanes⟩
      | ok base => exact Or.inl ⟨_, rfl, rfl, hstarted⟩

theorem lanes_setThermalBatchScale (s : CudaNativeBackend) (scale : ℚ) :
    (s.setThermalBatchScale scale).lanes = s.lanes ∧
      (s.setThermalBatchScale scale).started = s.started := by
  unfold CudaNativeBackend.setThermalBatchScale CudaNativeBackend.rescale
  dsimp only
  split_ifs <;> exact ⟨rfl, rfl⟩

theorem lanes_setVramBatchScale (s : CudaNativeBackend) (scale : ℚ) :
    (s.setVramBatchScale scale).lanes = s.lanes ∧
      (s.setVramBatchScale scale).started = s.started := by
  unfold CudaNativeBackend.setVramBatchScale CudaNativeBackend.rescale
  dsimp only
  split_ifs <;> exact ⟨rfl, rfl⟩

theorem lib_setThermalBatchScale (s : CudaNativeBackend) (scale : ℚ) :
    (s.setThermalBatchScale scale).parallelLanesSupported = s.parallelLanesSupported := by
  unfold CudaNativeBackend.setThermalBatchScale CudaNativeBackend.rescale
  dsimp only
  split_ifs <;> rfl

theorem lib_setVramBatchScale (s : CudaNativeBackend) (scale : ℚ) :
    (s.setVramBatchScale scale).parallelLanesSupported = s.parallelLanesSupported := by
  unfold CudaNativeBackend.setVramBatchScale CudaNativeBackend.rescale
  dsimp only
  split_ifs <;> rfl

theorem lanes_noteVramPressure (s : CudaNativeBackend) (used target emergency : ℤ) :
    (s.noteVramPressure used target emergency).lanes = s.lanes ∧
      (s.noteVramPressure used target emergency).started = s.started := by
  unfold CudaNativeBackend.noteVramPressure
  dsimp only
  split_ifs <;> exact lanes_setVramBatchScale _ _

/-- A new difficulty on a running backend is a replan; any other sets no lanes up. -/
theorem setDifficulty_cases (s : CudaNativeBackend) (env : EngineReply) (d : ℤ) :
    (∃ t, s.syncPoint (env, .op (.setDifficulty d)) = some t ∧
      s.setDifficulty env d = (t.syncLaneEngines env).1 ∧ t.started = true ∧ s.started = true) ∨
    (s.syncPoint (env, .op (.setDifficulty d)) = none ∧ ((s.setDifficulty env d).started = true →
      s.started = true ∧ (s.setDifficulty env d).lanes = s.lanes)) := by
  by_cases hstarted : s.started = true
  · by_cases hsame : d = s.difficulty
    · refine Or.inr ⟨if_pos (Or.inr hsame), fun _ => ⟨hstarted, ?_⟩⟩
      rw [setDifficulty_noop ⟨hsame, hstarted⟩]
    · have hskip : ¬(s.started = false ∨ d = s.difficulty) := by
        simp [hstarted, hsame]
      have hpoint : s.syncPoint (env, .op (.setDifficulty d))
          = (s.storeDifficulty d).replanPoint env := if_neg hskip
      rw [hpoint, setDifficulty_replan hstarted hsame]
      rcases replan_cases (s.storeDifficulty d) env with ⟨t, hpoint, heq, hrun⟩ | ⟨hpoint, hlanes⟩
      · exact Or.inl ⟨t, hpoint, heq, hrun.trans hstarted, hstarted⟩
      · exact Or.inr ⟨hpoint, fun _ => ⟨hstarted, hlanes⟩⟩
  · have hstop : s.started = false := Bool.not_eq_true _ ▸ hstarted
    refine Or.inr ⟨if_pos (Or.inl hstop), fun hrun => ?_⟩
    rw [setDifficulty_stopped hstop] at hrun
    exact absurd (hstop.symm.trans hrun) nofun

/-- **What an operation does to lanes**: it sets them up in the state `syncPoint` names, which runs, or
a backend that runs afterwards ran before, with the same lanes. -/
theorem sessionStep_cases (s : CudaNativeBackend) (env : EngineReply) (op : SessionOp) :
    (∃ t, s.syncPoint (env, op) = some t ∧ s.sessionStep (env, op) = (t.syncLaneEngines env).1 ∧
      t.started = true ∧ op ≠ .op .stop ∧ (s.started = true ∨ (op = .op .start ∧ s.started = false ∧
        env.init (s.initReserveBytes (s.capsForTotal 32768)) = .ok))) ∨
    (s.syncPoint (env, op) = none ∧ ((s.sessionStep (env, op)).started = true →
      s.started = true ∧ op ≠ .op .stop ∧ (s.sessionStep (env, op)).lanes = s.lanes)) := by
  cases op with
  | laneLimit maxLanes => exact Or.inr ⟨rfl, fun hrun => ⟨hrun, nofun, rfl⟩⟩
  | op op =>
    cases op with
    | start =>
      by_cases hstarted : s.started = true
      · have hsame : (s.start env).1 = s := by rw [CudaNativeBackend.start, if_pos hstarted]
        refine Or.inr ⟨if_pos hstarted, fun _ => ⟨hstarted, nofun, ?_⟩⟩
        show (s.start env).1.lanes = s.lanes
        rw [hsame]
      · have hpoint : s.syncPoint (env, .op .start) = s.startPoint env := if_neg hstarted
        rw [hpoint]
        have hstop : s.started = false := Bool.not_eq_true _ ▸ hstarted
        rcases start_cases env hstop with ⟨t, hpoint, heq, hrun, hinit⟩ | ⟨hpoint, hnot⟩
        · exact Or.inl ⟨t, hpoint, heq, hrun, nofun, Or.inr ⟨rfl, hstop, hinit⟩⟩
        · exact Or.inr ⟨hpoint, fun h => absurd (hnot.symm.trans h) nofun⟩
    | stop => exact Or.inr ⟨rfl, fun h => absurd ((stop_keeps s).2.2.2.2.symm.trans h) nofun⟩
    | setVramCaps caps => exact Or.inr ⟨rfl, fun hrun => ⟨hrun, nofun, rfl⟩⟩
    | setDifficulty d =>
      rcases setDifficulty_cases s env d with ⟨t, hpoint, heq, hrun, hran⟩ | ⟨hpoint, hkeep⟩
      · exact Or.inl ⟨t, hpoint, heq, hrun, nofun, Or.inl hran⟩
      · exact Or.inr ⟨hpoint, fun hrun => ⟨(hkeep hrun).1, nofun, (hkeep hrun).2⟩⟩
    | setThermalBatchScale scale =>
      obtain ⟨hlanes, hstarted⟩ := lanes_setThermalBatchScale s scale
      exact Or.inr ⟨rfl, fun hrun => ⟨hstarted.symm.trans hrun, nofun, hlanes⟩⟩
    | setVramBatchScale scale =>
      obtain ⟨hlanes, hstarted⟩ := lanes_setVramBatchScale s scale
      exact Or.inr ⟨rfl, fun hrun => ⟨hstarted.symm.trans hrun, nofun, hlanes⟩⟩
    | updateThermalBatchFromTemp temperatureC =>
      obtain ⟨hlanes, hstarted⟩ := lanes_setThermalBatchScale { s with lastTempC := temperatureC } _
      exact Or.inr ⟨rfl, fun hrun => ⟨hstarted.symm.trans hrun, nofun, hlanes⟩⟩
    | updateThermalLanesFromTemp temperatureC =>
      by_cases hskip : s.baseVramPlan = none ∨ s.settings.gpuThermalLaneEnabled = false
      · -- only the temperature is noted
        have hsame : s.updateThermalLanesFromTemp env temperatureC
            = { s with lastTempC := temperatureC } := if_pos hskip
        refine Or.inr ⟨if_pos hskip, ?_⟩
        show (s.updateThermalLanesFromTemp env temperatureC).started = true → _ ∧ _ ∧
          (s.updateThermalLanesFromTemp env temperatureC).lanes = s.lanes
        rw [hsame]
        exact fun hrun => ⟨hrun, nofun, rfl⟩
      · have hpoint : s.syncPoint (env, .op (.updateThermalLanesFromTemp temperatureC))
            = (s.noteThermalLanes temperatureC).reapplyPoint := if_neg hskip
        have hstep : s.sessionStep (env, .op (.updateThermalLanesFromTemp temperatureC))
            = ((s.noteThermalLanes temperatureC).reapplyLiveCaps env).1 := if_neg hskip
        rw [hpoint, hstep]
        rcases reapply_cases (s.noteThermalLanes temperatureC) env with
          ⟨t, hpoint, heq, hrun, hran⟩ | ⟨hpoint, hkeep⟩
        · exact Or.inl ⟨t, hpoint, heq, hrun, nofun, Or.inl hran⟩
        · exact Or.inr ⟨hpoint, fun hrun => ⟨(hkeep hrun).1, nofun, (hkeep hrun).2⟩⟩
    | updateVramPressureFromUsed used target emergency =>
      obtain ⟨hlanes, hstarted⟩ := lanes_noteVramPressure s used target emergency
      rcases reapply_cases (s.noteVramPressure used target emergency) env with
        ⟨t, hpoint, heq, hrun, hran⟩ | ⟨hpoint, hkeep⟩
      · exact Or.inl ⟨t, hpoint, heq, hrun, nofun, Or.inl (hstarted.symm.trans hran)⟩
      · exact Or.inr ⟨hpoint, fun hrun =>
          ⟨hstarted.symm.trans (hkeep hrun).1, nofun, (hkeep hrun).2.trans hlanes⟩⟩

/-- The library stays the one that was loaded. -/
theorem sessionStep_lib (s : CudaNativeBackend) (env : EngineReply) (op : SessionOp) :
    (s.sessionStep (env, op)).parallelLanesSupported = s.parallelLanesSupported := by
  cases op with
  | laneLimit maxLanes => rfl
  | op op =>
    cases op with
    | start => exact (replanned_start s env).parallelLanesSupported_eq
    | stop =>
      show s.stop.parallelLanesSupported = _
      unfold CudaNativeBackend.stop
      split_ifs <;> rfl
    | setVramCaps caps => rfl
    | setDifficulty d => exact (replanned_setDifficulty s env d).parallelLanesSupported_eq
    | setThermalBatchScale scale => exact lib_setThermalBatchScale s scale
    | setVramBatchScale scale => exact lib_setVramBatchScale s scale
    | updateThermalBatchFromTemp temperatureC =>
      exact lib_setThermalBatchScale { s with lastTempC := temperatureC } _
    | updateThermalLanesFromTemp temperatureC =>
      show (s.updateThermalLanesFromTemp env temperatureC).parallelLanesSupported = _
      unfold CudaNativeBackend.updateThermalLanesFromTemp
      split_ifs
      · rfl
      · exact (replanned_reapplyLiveCaps _ env).parallelLanesSupported_eq
    | updateVramPressureFromUsed used target emergency =>
      refine (replanned_reapplyLiveCaps _ env).parallelLanesSupported_eq.trans ?_
      unfold CudaNativeBackend.noteVramPressure
      dsimp only
      split_ifs <;> exact lib_setVramBatchScale _ _

/-! ### Growing slots -/

theorem growLanes_spec (created : ℕ → Bool) (slots missing : ℕ) :
    ((∀ k, slots ≤ k → k < slots + missing → created k = true) ∧
      growLanes created slots missing = (slots + missing, true)) ∨
    ∃ grown < slots + missing, slots ≤ grown ∧ created grown = false ∧
      growLanes created slots missing = (grown, false) := by
  induction missing generalizing slots with
  | zero => exact Or.inl ⟨fun k hk hlt => absurd hlt (by omega), rfl⟩
  | succ missing ih =>
    unfold growLanes
    cases hfirst : created slots with
    | false => exact Or.inr ⟨slots, by omega, le_rfl, hfirst, rfl⟩
    | true =>
      rw [if_pos rfl]
      rcases ih (slots + 1) with ⟨hall, heq⟩ | ⟨grown, hlt, hle, hthrow, heq⟩
      · refine Or.inl ⟨fun k hk hlt => ?_, ?_⟩
        · rcases hk.eq_or_lt with rfl | hk
          · exact hfirst
          · exact hall k hk (by omega)
        · rw [heq, Nat.add_right_comm, Nat.add_assoc]
      · exact Or.inr ⟨grown, by omega, by omega, hthrow, heq⟩

/-- Every slot a resize to `laneCount` has to grow is created. -/
def SlotsCreated (created : ℕ → Bool) (laneCount : ℤ) (state : State) : Prop :=
  ∀ k, state.getD 0 ≤ k → k < laneCount.toNat → created k = true

/-- A resized engine holds the slots it is asked for exactly when all of them are created. -/
theorem setLaneCount_spec (created : ℕ → Bool) (laneCount : ℤ) (slots : ℕ) :
    ∃ grown, (xenCudaSetLaneCount created laneCount (some slots)).1 = some grown ∧
      (laneCount.toNat ≤ grown ↔ SlotsCreated created laneCount (some slots)) := by
  unfold xenCudaSetLaneCount SlotsCreated
  by_cases hpos : laneCount ≤ 0
  · dsimp only
    rw [if_pos hpos]
    exact ⟨slots, rfl, iff_of_true (by omega) fun k _ hk => absurd hk (by omega)⟩
  · dsimp only
    rw [if_neg hpos, Option.getD_some]
    rcases growLanes_spec created slots (laneCount.toNat - slots) with
      ⟨hall, heq⟩ | ⟨grown, hlt, hle, hthrow, heq⟩
    · rw [heq]
      refine ⟨_, rfl, iff_of_true ?_ fun k hk hlt => hall k hk (by omega)⟩
      omega
    · rw [heq]
      refine ⟨grown, rfl, iff_of_false (by omega) fun hall => ?_⟩
      exact absurd (hthrow.symm.trans (hall grown hle (by omega))) nofun

/-! ### Both sides of a session -/

/-- The backend beside the native engine. -/
structure SlotSession where
  backend : CudaNativeBackend
  state : State

/-- What the native engine answers during one operation. -/
structure NativeReply where
  /-- Whether creating the backend of a slot succeeds. -/
  created : ℕ → Bool
  /-- `xen_cuda_device_info`. -/
  deviceInfo : Option DeviceInfo

/-- The answers of `CudaEngine`: an error code of the native engine is a `RuntimeError`. -/
def NativeReply.engine (reply : NativeReply) (state : State) : EngineReply where
  init _ := if (xenCudaInit reply.created).2 then .ok else .refused
  deviceInfo := reply.deviceInfo
  setLaneCount laneCount :=
    if (xenCudaSetLaneCount reply.created laneCount state).2 then .ok else .refused
  laneCopy _ _ := .refused

namespace SlotSession

/-- `g_state` when an operation comes to set lanes up: `start` has initialised it. -/
def initialized (m : SlotSession) (reply : NativeReply) : SessionOp → State
  | .op .start => if m.backend.started then m.state else (xenCudaInit reply.created).1
  | _ => m.state

/-- The argument of the `xen_cuda_set_lane_count` call of an operation, if it makes one. -/
def laneCountCall (m : SlotSession) (reply : NativeReply) (op : SessionOp) : Option ℤ :=
  (m.backend.syncPoint (reply.engine (m.initialized reply op), op)).bind fun t =>
    if t.parallelLanesSupported then some t.lanes else none

/-- One operation on both sides. -/
def step (m : SlotSession) : NativeReply × SessionOp → SlotSession
  | (reply, op) =>
    let state := m.initialized reply op
    { backend := m.backend.sessionStep (reply.engine state, op)
      state :=
        match op, m.laneCountCall reply op with
        | .op .stop, _ => if m.backend.started then none else state
        | _, some laneCount => (xenCudaSetLaneCount reply.created laneCount state).1
        | _, none => state }

/-- A new backend of a library with parallel lanes. -/
def create (settings : Settings) (maxLanes : ℤ) : SlotSession where
  backend := CudaNativeBackend.create settings true maxLanes
  state := none

/-- Every lane that any call of `mine_batch` passes to the engine has a slot. -/
def SlotsCover (m : SlotSession) : Prop :=
  ∀ env : BatchEnv, ∀ lane ∈ m.backend.passedLanes (env.onSlots m.state), lane < m.state.getD 0

/-- If the operation resizes the engine, every slot that has to grow is created: the
`xen_cuda_set_lane_count` call does not fail. -/
def ResizeSucceeds (m : SlotSession) : NativeReply × SessionOp → Prop
  | (reply, op) => ∀ laneCount ∈ m.laneCountCall reply op,
    SlotsCreated reply.created laneCount (m.initialized reply op)

/-! ### Passed lanes -/

theorem sequentialPassed_subset (env : BatchEnv) (lanes : List ℕ) :
    sequentialPassed env lanes ⊆ lanes := by
  induction lanes with
  | nil => exact List.Subset.refl _
  | cons lane lanes ih =>
    unfold sequentialPassed
    split_ifs
    · exact List.nil_subset _
    · exact List.cons_subset_cons _ ih
    · exact List.cons_subset_cons _ (List.nil_subset _)

/-- No abort, and lanes with a slot do their batch: the loop gets to the first lane without one. -/
theorem mem_sequentialPassed {env : BatchEnv} {lanes : List ℕ} {slots : ℕ}
    (habort : ∀ call, env.abortCheck call = false) (hok : ∀ lane < slots, (env.engine lane).ok = true)
    (hsorted : lanes.Pairwise (· < ·)) (hmem : slots ∈ lanes) :
    slots ∈ sequentialPassed env lanes := by
  induction lanes with
  | nil => exact hmem
  | cons lane lanes ih =>
    obtain ⟨hless, hsorted⟩ := List.pairwise_cons.mp hsorted
    have hgo : ¬ env.abortCheck (lane + 1) = true := by
      rw [habort]
      exact Bool.false_ne_true
    unfold sequentialPassed
    rw [if_neg hgo]
    rcases List.mem_cons.mp hmem with rfl | hmem
    · exact List.mem_cons_self
    · rw [if_pos (hok lane (hless slots hmem))]
      exact List.mem_cons_of_mem _ (ih hsorted hmem)

theorem passedLanes_subset (s : CudaNativeBackend) (env : BatchEnv) :
    s.passedLanes env ⊆ List.range s.lanes.toNat := by
  unfold passedLanes
  split_ifs
  · exact List.nil_subset _
  · exact sequentialPassed_subset env _
  · exact List.Subset.refl _

/-- A batch in which nothing goes wrong. -/
def quietBatch : BatchEnv where
  abortCheck _ := false
  engine _ := { laneNotInitialized with ok := true, error := "" }
  completion := []
  now := 0

variable {m : SlotSession}

theorem slotsCover_iff : m.SlotsCover ↔
    (m.backend.started = true → m.backend.lanes.toNat ≤ m.state.getD 0) := by
  constructor
  · intro hcover hrun
    by_contra hmore
    rw [not_le] at hmore
    -- the first lane without a slot
    have hpassed : m.state.getD 0 ∈ m.backend.passedLanes (quietBatch.onSlots m.state) := by
      have hmem := List.mem_range.mpr hmore
      have hgo : ¬ (m.backend.started = false ∨
          (quietBatch.onSlots m.state).abortCheck 0 = true) := by
        rw [hrun]
        rintro (h | h) <;> cases h
      unfold passedLanes
      rw [if_neg hgo]
      split_ifs
      · refine mem_sequentialPassed (fun _ => rfl) (fun lane hlane => ?_) List.pairwise_lt_range hmem
        show (if lane < m.state.getD 0 then quietBatch.engine lane else laneNotInitialized).ok = true
        rw [if_pos hlane]
        rfl
      · exact hmem
    exact lt_irrefl _ (hcover quietBatch _ hpassed)
  · intro hcover env lane hlane
    have hrun : m.backend.started = true := by
      by_contra hstop
      unfold passedLanes at hlane
      rw [if_pos (Or.inl (Bool.not_eq_true _ ▸ hstop))] at hlane
      cases hlane
    exact (List.mem_range.mp (passedLanes_subset _ _ hlane)).trans_le (hcover hrun)

/-! ### Runs -/

/-- What holds of every state of a session: the library has parallel lanes, and a running backend has
initialised the engine. -/
structure Linked (m : SlotSession) : Prop where
  lib : m.backend.parallelLanesSupported = true
  initialized : m.backend.started = true → ∃ slots, m.state = some slots

theorem linked_create (settings : Settings) (maxLanes : ℤ) : (create settings maxLanes).Linked :=
  ⟨rfl, nofun⟩

/-- `start` leaves an initialised engine, and no other operation but `stop` touches it before lanes are
set up. -/
theorem initialized_of_running (reply : NativeReply) (op : SessionOp)
    (hrun : m.backend.started = true) : m.initialized reply op = m.state := by
  unfold initialized
  split
  next => exact if_pos hrun
  next => rfl

theorem initialized_of_start {reply : NativeReply} {state : State} {reserve : ℤ}
    (hstop : m.backend.started = false) (hinit : (reply.engine state).init reserve = .ok) :
    ∃ slots, m.initialized reply (.op .start) = some slots := by
  have hskip : ¬ m.backend.started = true := by
    rw [hstop]
    exact Bool.false_ne_true
  unfold initialized
  dsimp only
  rw [if_neg hskip]
  have hinit : (if (xenCudaInit reply.created).2 then Outcome.ok else .refused) = .ok := hinit
  unfold xenCudaInit at hinit ⊢
  generalize growLanes reply.created 0 1 = grown at hinit ⊢
  obtain ⟨slots, _ | _⟩ := grown
  · cases hinit
  · exact ⟨slots, rfl⟩

/-- An operation keeps lanes and slots in step exactly when its resize succeeds. -/
theorem step_spec (h : m.Linked) (i : NativeReply × SessionOp) :
    (m.step i).Linked ∧ (m.SlotsCover → ((m.step i).SlotsCover ↔ m.ResizeSucceeds i)) := by
  obtain ⟨reply, op⟩ := i
  rw [slotsCover_iff, slotsCover_iff]
  have hlib : (m.step (reply, op)).backend.parallelLanesSupported = true :=
    (sessionStep_lib _ _ _).trans h.lib
  rcases sessionStep_cases m.backend (reply.engine (m.initialized reply op)) op with
    ⟨t, hpoint, heq, hrun, hop, hinit⟩ | ⟨hpoint, hkeep⟩
  · have hback : (m.step (reply, op)).backend
        = (t.syncLaneEngines (reply.engine (m.initialized reply op))).1 := heq
    have htlib : t.parallelLanesSupported = true := by
      rw [hback, (replanned_syncLaneEngines t _).parallelLanesSupported_eq] at hlib
      exact hlib
    have hlanes : (m.step (reply, op)).backend.lanes = t.lanes := by
      obtain ⟨engines, mode, hsync, -⟩ :=
        syncLaneEngines_eq t (reply.engine (m.initialized reply op))
      rw [hback, hsync]
    have hstarted : (m.step (reply, op)).backend.started = true := by
      rw [hback, (started_syncLaneEngines t _).1, hrun]
    have hcall : m.laneCountCall reply op = some t.lanes := by
      unfold laneCountCall
      rw [hpoint, Option.bind_some, if_pos htlib]
    obtain ⟨slots, hslots⟩ : ∃ slots, m.initialized reply op = some slots := by
      rcases hinit with hran | ⟨rfl, hstop, hinit⟩
      · rw [initialized_of_running reply op hran]
        exact h.initialized hran
      · exact initialized_of_start hstop hinit
    obtain ⟨grown, hgrown, hiff⟩ := setLaneCount_spec reply.created t.lanes slots
    have hstate : (m.step (reply, op)).state = some grown := by
      rw [← hgrown, ← hslots]
      unfold step
      dsimp only
      rw [hcall]
      split
      next => exact absurd rfl hop
      next laneCount _ hsome => rw [Option.some.inj hsome]
      next hnone => cases hnone
    refine ⟨⟨hlib, fun _ => ⟨grown, hstate⟩⟩, fun _ => ?_⟩
    rw [hstarted, hlanes, hstate, Option.getD_some, hiff, ← hslots]
    dsimp only [ResizeSucceeds]
    rw [hcall]
    simp
  · have hcall : m.laneCountCall reply op = none := by
      unfold laneCountCall
      rw [hpoint]
      rfl
    -- an operation that sets no lanes up leaves a running backend its slots
    have hstate : (m.step (reply, op)).backend.started = true → m.backend.started = true ∧
        (m.step (reply, op)).state = m.state := by
      intro hrun
      obtain ⟨hran, hop, -⟩ := hkeep hrun
      refine ⟨hran, ?_⟩
      rw [← initialized_of_running reply op hran]
      unfold step
      dsimp only
      rw [hcall]
      split
      next => exact absurd rfl hop
      next hsome => cases hsome
      next => rfl
    refine ⟨⟨hlib, fun hrun => ?_⟩, fun hcover => iff_of_true (fun hrun => ?_) ?_⟩
    · obtain ⟨hran, hsame⟩ := hstate hrun
      rw [hsame]
      exact h.initialized hran
    · obtain ⟨hran, hsame⟩ := hstate hrun
      obtain ⟨-, -, hlanes⟩ := hkeep hrun
      rw [hsame, show (m.step (reply, op)).backend.lanes = m.backend.lanes from hlanes]
      exact hcover hran
    · intro laneCount hmem
      rw [hcall] at hmem
      cases hmem

/-- **Lane fallback never addresses a lane the native engine does not have**, exactly in the runs in
which no resize fails: in every state of a run every lane that `mine_batch` can pass to the engine has a
slot, if and only if each `xen_cuda_set_lane_count` call creates the slots it has to grow. -/
theorem slots_cover_iff (settings : Settings) (maxLanes : ℤ)
    (inputs : List (NativeReply × SessionOp)) :
    (∀ n, (Run.final step (create settings maxLanes) (inputs.take n)).SlotsCover) ↔
      Run.Meets step ResizeSucceeds (create settings maxLanes) inputs := by
  have hcreate : (create settings maxLanes).SlotsCover := slotsCover_iff.mpr nofun
  have hlinked : ∀ n, (Run.final step (create settings maxLanes) (inputs.take n)).Linked := fun n =>
    Run.invariant (fun _ i h => (step_spec h i).1) (linked_create settings maxLanes)
  rw [Run.meets_iff_forall_take (I := fun m : SlotSession => m.Linked ∧ m.SlotsCover) ?_
    ⟨linked_create settings maxLanes, hcreate⟩]
  · exact forall_congr' fun n => (and_iff_right (hlinked n)).symm
  · rintro m i ⟨h, hcover⟩
    obtain ⟨hnext, hiff⟩ := step_spec h i
    rw [and_iff_right hnext, hiff hcover]

/-- A card of 24 GiB, on which the slots below `slots` can be created. -/
def cardWithSlots (slots : ℕ) : NativeReply where
  created slot := decide (slot < slots)
  deviceInfo := steadyEngine.deviceInfo


/-- The fifth slot throws in a start with eight lanes: the fallback keeps eight lanes on four slots, and
the next batch ends with an exception. -/
theorem slots_cover_fails :
    let m := Run.final step (create { memoryCost := 100 } 8) [(cardWithSlots 4, .op .start)]
    ¬ m.SlotsCover ∧ m.backend.lanes = 8 ∧ m.state = some 4 ∧ m.backend.parallelMode = .sequential ∧
      m.backend.mineBatch (quietBatch.onSlots m.state) = .error "CUDA lane not initialized" := by
  intro m
  refine ⟨fun hcover => ?_, by decide +kernel, by decide +kernel, by decide +kernel, by decide +kernel⟩
  exact absurd (slotsCover_iff.mp hcover (by decide +kernel)) (by decide +kernel)

/-! ### Mining on -/

theorem runLane_onSlots {env : BatchEnv} {state : State} {lane : ℕ} (h : lane < state.getD 0) :
    (env.onSlots state).runLane lane = env.runLane lane := by
  unfold BatchEnv.runLane
  rw [show (env.onSlots state).engine lane = env.engine lane from if_pos h]

theorem sequentialLanes_onSlots (s : CudaNativeBackend) (env : BatchEnv) (state : State)
    {lanes : List ℕ} (h : ∀ lane ∈ lanes, lane < state.getD 0) (t : BatchTotals) :
    s.sequentialLanes (env.onSlots state) t lanes = s.sequentialLanes env t lanes := by
  induction lanes generalizing t with
  | nil => rfl
  | cons lane lanes ih =>
    obtain ⟨hlane, hlanes⟩ := List.forall_mem_cons.mp h
    unfold sequentialLanes
    rw [runLane_onSlots hlane, show (env.onSlots state).abortCheck = env.abortCheck from rfl]
    split_ifs
    · rfl
    · cases env.runLane lane with
      | error error => rfl
      | ok result => exact ih hlanes _

theorem parallelLanes_onSlots (s : CudaNativeBackend) (env : BatchEnv) (state : State)
    {lanes : List ℕ} (h : ∀ lane ∈ lanes, lane < state.getD 0) (t : BatchTotals) :
    s.parallelLanes (env.onSlots state) t lanes = s.parallelLanes env t lanes := by
  induction lanes generalizing t with
  | nil => rfl
  | cons lane lanes ih =>
    obtain ⟨hlane, hlanes⟩ := List.forall_mem_cons.mp h
    unfold parallelLanes
    rw [runLane_onSlots hlane]
    cases env.runLane lane with
    | error error => rfl
    | ok result => exact ih hlanes _

/-- With a slot for every lane a batch goes as its lanes do: the engine refuses none. -/
theorem mineBatch_onSlots (h : m.SlotsCover) (env : BatchEnv)
    (hcomp : ∀ lane ∈ env.completion, lane < m.backend.lanes.toNat) :
    m.backend.mineBatch (env.onSlots m.state) = m.backend.mineBatch env := by
  unfold mineBatch
  cases hrun : m.backend.started with
  | false => rfl
  | true =>
    have hcover := slotsCover_iff.mp h hrun
    have hrange : ∀ lane ∈ List.range m.backend.lanes.toNat, lane < m.state.getD 0 :=
      fun lane hlane => (List.mem_range.mp hlane).trans_le hcover
    have hdone : ∀ lane ∈ env.completion, lane < m.state.getD 0 :=
      fun lane hlane => (hcomp lane hlane).trans_le hcover
    rw [sequentialLanes_onSlots _ _ _ hrange,
      show (env.onSlots m.state).completion = env.completion from rfl,
      parallelLanes_onSlots _ _ _ hdone]
    rfl

end SlotSession

end XenMiner.CudaNativeBackend
