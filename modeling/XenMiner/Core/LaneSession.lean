import XenMiner.Efficiency.CudaLanePolicy
import XenMiner.Mining.CudaNative

/-!
# `core/supervisor.py`, `mining/backends/cuda_native.py`: the lane cap over sessions

The backend plans with `maxLanesCap` and shares one policy object with the supervisor, which lowers
the cap when the GPU restarts after it got too hot and lifts it again when the network is back at the
reference difficulty.  A restart of the process loads the policy file.

Every write succeeds.  What the supervisor reads at a step (a temperature, the difficulty it mines at,
the clock) is an input.
-/

namespace XenMiner

open CudaLanePolicy CudaNativeBackend

/-- Supervisor, backend and policy file, as far as lane caps go. -/
structure LaneSession where
  /-- `settings.cuda_max_lanes`. -/
  cudaMaxLanes : ℤ
  backend : CudaNativeBackend
  /-- `backend._lane_policy`. -/
  lanePolicy : CudaLanePolicyState
  policyFile : PolicyFile
  /-- `_reduce_lanes_after_cooldown`. -/
  reduceLanesAfterCooldown : Bool

/-- The readings of `_utc_now` during one step. -/
abbrev Clock := ℕ → String

namespace LaneSession

/-- A process that has loaded `policy`. -/
def startWith (settings : Settings) (parallelLanesSupported : Bool) (cudaMaxLanes : ℤ)
    (file : PolicyFile) (policy : CudaLanePolicyState) : LaneSession where
  cudaMaxLanes := cudaMaxLanes
  backend := create settings parallelLanesSupported policy.effectiveMaxLanes
  lanePolicy := policy
  policyFile := file
  reduceLanesAfterCooldown := false

variable (s : LaneSession)

/-! ### The backend -/

/-- `CudaNativeBackend.reduce_lane_cap`, with the cap it returns. -/
def reduceLaneCap (updatedAt : String) : LaneSession × ℤ :=
  let newCap := max 1 (s.backend.maxLanesCap - 1)
  if newCap = s.backend.maxLanesCap then (s, newCap)
  else
    let policy := { s.lanePolicy with effectiveMaxLanes := newCap }
    ({ s with
        backend := { s.backend with maxLanesCap := newCap }
        lanePolicy := policy
        policyFile := saveLanePolicy policy updatedAt }, newCap)

/-- `CudaNativeBackend.restore_lane_cap_if_cool`. -/
def restoreLaneCapIfCool (clock : Clock) (temperatureC : ℤ) (difficulty : Option ℤ) :
    LaneSession :=
  match CudaLanePolicy.restoreLaneCapIfCool s.lanePolicy (clock 0) temperatureC
      s.backend.settings.warnGpuTempC (difficulty.getD s.backend.difficulty)
      s.backend.settings.vramReferenceDifficulty with
  | none => s
  | some policy =>
    { s with
      backend := { s.backend with maxLanesCap := policy.effectiveMaxLanes }
      lanePolicy := policy
      policyFile := saveLanePolicy policy (clock 1) }

/-! ### The supervisor -/

/-- `_note_temp_cooldown`: `temperatureC` is `none` without a snapshot. -/
def noteTempCooldown (temperatureC : Option ℤ) : LaneSession :=
  if temperatureC.isSome ∧ 1 < s.backend.lanes then { s with reduceLanesAfterCooldown := true }
  else s

/-- `_apply_lane_cap_after_temp`. -/
def applyLaneCapAfterTemp (clock : Clock) (temperatureC : Option ℤ) (miningDifficulty : ℤ) :
    LaneSession :=
  if s.reduceLanesAfterCooldown = false then s
  else if s.backend.lanes ≤ 1 then { s with reduceLanesAfterCooldown := false }
  else
    let lanesActive := s.backend.lanes
    let before := s.backend.maxLanesCap
    let (s, after) := s.reduceLaneCap (clock 0)
    let s := { s with reduceLanesAfterCooldown := false }
    if before ≤ after then s
    else
      let policy := recordTempLaneReduction s.lanePolicy (clock 1) (temperatureC.getD 0)
        miningDifficulty lanesActive before after
        "GPU temp cap hit during multi-lane low-difficulty mining"
      { s with lanePolicy := policy, policyFile := saveLanePolicy policy (clock 2) }

/-- `_graceful_gpu_stop`, as far as lanes go. -/
def gracefulGpuStop (temperatureC : Option ℤ) : LaneSession :=
  let s := s.noteTempCooldown temperatureC
  { s with backend := s.backend.stop }

/-- `_maybe_restart_gpu` once the cooldown is over. -/
def maybeRestartGpu (clock : Clock) (temperatureC : Option ℤ) (miningDifficulty : ℤ)
    (env : EngineReply) : LaneSession :=
  if s.backend.started then s
  else
    let s := s.applyLaneCapAfterTemp clock temperatureC miningDifficulty
    { s with backend := (s.backend.start env).1 }

/-- `_maybe_restore_cuda_lane_cap`. -/
def maybeRestoreCudaLaneCap (clock : Clock) (temperatureC : Option ℤ) (difficulty : ℤ) :
    LaneSession :=
  if difficulty < s.backend.settings.vramReferenceDifficulty then s
  else
    match temperatureC with
    | none => s
    | some temperatureC => s.restoreLaneCapIfCool clock temperatureC (some difficulty)

/-! ### Steps -/

variable (intOfFloat : List Char → Except LoadError ℤ)

/-- A new process with the same settings; one that cannot load the policy does not come up. -/
def restart : LaneSession :=
  match loadLanePolicy intOfFloat s.policyFile s.cudaMaxLanes with
  | .ok policy =>
    startWith s.backend.settings s.backend.parallelLanesSupported s.cudaMaxLanes s.policyFile policy
  | .error _ => s

/-- A step of a session. -/
inductive Step
  /-- Any other operation on the backend, with the engine's answers. -/
  | live (env : EngineReply) (op : Op)
  | cooldown (temperatureC : Option ℤ)
  | reduce (clock : Clock) (temperatureC : Option ℤ) (miningDifficulty : ℤ)
  | restore (clock : Clock) (temperatureC : Option ℤ) (difficulty : ℤ)
  | restart

def step : Step → LaneSession
  | .live env op => { s with backend := s.backend.step (env, op) }
  | .cooldown temperatureC => s.noteTempCooldown temperatureC
  | .reduce clock temperatureC miningDifficulty =>
    s.applyLaneCapAfterTemp clock temperatureC miningDifficulty
  | .restore clock temperatureC difficulty =>
    s.maybeRestoreCudaLaneCap clock temperatureC difficulty
  | .restart => s.restart intOfFloat

end LaneSession

end XenMiner
