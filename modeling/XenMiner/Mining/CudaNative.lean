import XenMiner.Config.Settings
import XenMiner.Efficiency.ThermalPolicy
import XenMiner.Lib.Binary64
import XenMiner.Mining.VramBatch

/-!
# `mining/backends/cuda_native.py`: the CUDA backend

The backend keeps a plan (`vramPlan`), the plan it was derived from (`baseVramPlan`), the lanes and
the batch it launches with, and the way it runs several lanes (`parallelMode`).  An operation leaves
a state behind also when it raises, so operations that can raise return the state together with an
`Except`.

The engine is an oracle (`EngineReply`): each operation gets the answers the engine gives to its
calls.  Whether the library has parallel lanes is fixed when the library is loaded.

The two batch scales are the doubles of the source.  Where they are applied to a batch, and in the
planner, floats are exact.
-/

namespace XenMiner

open PyNum ThermalPolicy VramBatch VramPolicy

/-! ### The engine -/

/-- `_parallel_mode`. -/
inductive ParallelMode
  | sequential
  | native
  | dllCopies
  deriving DecidableEq, Repr

/-- How a call into the engine ends. -/
inductive Outcome
  | ok
  /-- An error lane set-up falls back on: `RuntimeError`, for lane copies also `OSError`. -/
  | refused
  /-- Any other exception. -/
  | raised
  deriving DecidableEq, Repr

structure DeviceInfo where
  totalVramBytes : ℤ
  freeVramBytes : ℤ
  deriving DecidableEq, Repr

/-- What the engine answers during one operation. -/
structure EngineReply where
  /-- `init` of the primary engine, given the reserve in bytes. -/
  init : ℤ → Outcome
  /-- `device_info`; `none` when it raises. -/
  deviceInfo : Option DeviceInfo
  /-- `set_lane_count`. -/
  setLaneCount : ℤ → Outcome
  /-- Copying, loading and initialising the library for a lane, given the reserve in bytes. -/
  laneCopy : ℤ → ℤ → Outcome

/-- Why an operation raised, with the figures its message reports. -/
inductive Failure
  | engine
  | couldNotSize (difficulty budgetMib targetMib headroomMib foreignMib totalMib : ℤ)
  | violatesLimits (plan : CudaVramPlan)
  | underFilled (plan : CudaVramPlan)
  | exceedsCap (batch limit laneBudgetMib conc lanes : ℤ)
  deriving DecidableEq, Repr

/-! ### The state -/

structure CudaNativeBackend where
  settings : Settings
  /-- `_engine.parallel_lanes_supported`. -/
  parallelLanesSupported : Bool
  lanes : ℤ
  batchPerLane : ℤ
  batchSize : ℤ
  difficulty : ℤ
  started : Bool
  vramPlan : Option CudaVramPlan
  maxLanesCap : ℤ
  /-- The lanes with an engine of their own. -/
  laneEngines : List ℤ
  parallelMode : ParallelMode
  vramCaps : Option VramCaps
  thermalBatchScale : ℚ
  vramBatchScale : ℚ
  plannedBatchPerLane : ℤ
  baseVramPlan : Option CudaVramPlan
  thermalLaneCap : Option ℤ
  vramLaneCap : Option ℤ
  lastTempC : ℤ
  desktopBaselineMib : ℤ
  foreignVramMib : ℤ
  lastVramUsedMib : ℤ

namespace CudaNativeBackend

/-- The state an operation leaves behind, and how it ended. -/
abbrev Result (α : Type) := CudaNativeBackend × Except Failure α

/-- `__init__`; the lane policy file yields `effectiveMaxLanes`. -/
def create (settings : Settings) (parallelLanesSupported : Bool) (effectiveMaxLanes : ℤ) :
    CudaNativeBackend where
  settings := settings
  parallelLanesSupported := parallelLanesSupported
  lanes := 1
  batchPerLane := settings.cudaBatchSize
  batchSize := settings.cudaBatchSize
  difficulty := settings.memoryCost
  started := false
  vramPlan := none
  maxLanesCap := effectiveMaxLanes
  laneEngines := []
  parallelMode := .sequential
  vramCaps := none
  thermalBatchScale := 1
  vramBatchScale := 1
  plannedBatchPerLane := settings.cudaBatchSize
  baseVramPlan := none
  thermalLaneCap := none
  vramLaneCap := none
  lastTempC := 0
  desktopBaselineMib := 0
  foreignVramMib := 0
  lastVramUsedMib := 0

variable (s : CudaNativeBackend)

/-! ### Planning -/

def setVramCaps (caps : Option VramCaps) : CudaNativeBackend := { s with vramCaps := caps }

/-- The caps `_caps_for_total` answers, which it also stores. -/
def capsForTotal (totalMib : ℤ) : VramCaps :=
  match s.vramCaps with
  | some caps =>
    if caps.totalMib = totalMib then caps else resolveVramCaps (s.settings.capsArgs totalMib)
  | none => resolveVramCaps (s.settings.capsArgs totalMib)

/-- Lane batches that will sit in VRAM together: `none` stands for all of them. -/
def concurrentVramLanesHint : Option ℤ :=
  if s.parallelMode = .native ∨ s.parallelMode = .dllCopies then none
  else if s.parallelLanesSupported then none
  else if s.settings.cudaAllowDllLaneCopies ∧ s.parallelMode = .dllCopies then none
  else some 1

/-- `_plan_pack_mode`. -/
def planPackMode : String :=
  let base := PyStr.lower (PyStr.strip (PyStr.orElse s.settings.cudaLanePackMode "fill"))
  if s.concurrentVramLanesHint = none then PyStr.orElse base "fill"
  else if base = "coverage" ∨ base = "prefixes" ∨ base = "sweep" then base
  else "fill"

/-- Total memory of a reading in MiB. -/
def deviceTotalMib (info : DeviceInfo) : ℤ := max 1 (info.totalVramBytes / mibBytes)

/-- Used memory of a reading in MiB. -/
def deviceUsedMib (info : DeviceInfo) : ℤ :=
  max 0 ((info.totalVramBytes - info.freeVramBytes) / mibBytes)

/-- The accounting half of `_plan_from_device`: caps for this card and foreign usage. -/
def observeDevice (info : DeviceInfo) : CudaNativeBackend :=
  let caps := s.capsForTotal (deviceTotalMib info)
  let used := deviceUsedMib info
  let s := { s with vramCaps := some caps }
  if s.settings.vramAccountDesktop then
    let estimate :=
      match s.vramPlan with
      | some p =>
        estimateForeignVramMib used p.batchVramMib p.runtimeOverheadMib s.desktopBaselineMib
      | none => estimateForeignVramMib used 0 0 s.desktopBaselineMib
    -- before mining all used memory is foreign
    if s.desktopBaselineMib ≤ 0 ∧ s.vramPlan = none then
      { s with foreignVramMib := used, desktopBaselineMib := used }
    else { s with foreignVramMib := estimate }
  else { s with foreignVramMib := 0 }

/-- The fill fraction of the clock curve. -/
def fillFraction (difficulty : ℤ) : ℚ :=
  if s.settings.clockCurveEnabled then
    difficultyBatchFillFraction difficulty s.settings.vramReferenceDifficulty
      s.settings.clockLowDifficulty s.settings.clockBatchFillLow s.settings.clockBatchFillRef
      s.settings.clockBatchFillHigh s.settings.gpuHighDiffTempFullRatio
  else 1

/-- The arguments of `plan_cuda_batch`, read from the state after `observeDevice`. -/
def planArgs (info : DeviceInfo) (difficulty : ℤ) : PlanArgs :=
  let caps := s.capsForTotal (deviceTotalMib info)
  { totalBytes := info.totalVramBytes
    freeBytes := info.freeVramBytes
    targetMib := caps.targetMib
    desktopHeadroomMib := caps.headroomMib
    difficulty := difficulty
    referenceDifficulty := s.settings.vramReferenceDifficulty
    maxLanes := s.maxLanesCap
    laneReserve := s.settings.cudaLaneReserve
    explicitBatch := if 0 < s.settings.cudaBatchSize then s.settings.cudaBatchSize else 0
    explicitMaxBatch := s.settings.cudaMaxBatchSize
    runtimeOverheadMib := caps.runtimeOverheadMib
    minBatchPerLane := s.settings.cudaMinBatchPerLane
    packMode := s.planPackMode
    foreignUsedMib := s.foreignVramMib
    safetyMarginMib := if s.settings.vramAccountDesktop then s.settings.vramSafetyMarginMib else 0
    concurrentVramLanes := s.concurrentVramLanesHint
    budgetFillFraction := s.fillFraction difficulty }

/-- The checks of `_plan_from_device` on the plan it got. -/
def checkPlan (info : DeviceInfo) (difficulty : ℤ) (plan : CudaVramPlan) :
    Except Failure CudaVramPlan :=
  let caps := s.capsForTotal (deviceTotalMib info)
  let short := plan.budgetMib - plan.batchVramMib
  if plan.batchPerLane ≤ 0 then
    .error (.couldNotSize difficulty plan.budgetMib caps.targetMib caps.headroomMib
      s.foreignVramMib caps.totalMib)
  else if plan.withinLimits = false then .error (.violatesLimits plan)
  else if difficulty < s.settings.vramReferenceDifficulty ∧ plan.fillsBudget 64 = false
      ∧ s.settings.clockCurveEnabled = false ∧ max 64 (max 1 plan.budgetMib / 20) < short then
    .error (.underFilled plan)
  else .ok plan

/-- `_plan_from_device`. -/
def planFromDevice (info : DeviceInfo) (difficulty : ℤ) : Result CudaVramPlan :=
  let s := s.observeDevice info
  (s, s.checkPlan info difficulty (planCudaBatch (s.planArgs info difficulty)))

/-- The batch the engine would accept for a plan: `0` when nothing fits. -/
def laneMemoryLimit (plan : CudaVramPlan) (difficulty : ℤ) : ℤ :=
  let conc := plan.effectiveConcurrentVramLanes
  memoryLimitedBatchSize (max 1 (plan.budgetBytes / max 1 conc) + cudaEngineReserveBytes) difficulty

/-- `_verify_batch_fits_budget`. -/
def verifyBatchFitsBudget (plan : CudaVramPlan) (difficulty : ℤ) : Except Failure Unit :=
  let conc := plan.effectiveConcurrentVramLanes
  let limit := laneMemoryLimit plan difficulty
  let limit := if 0 < s.settings.cudaMaxBatchSize then min limit s.settings.cudaMaxBatchSize
    else limit
  if limit < plan.batchPerLane ∧ 0 < limit then
    .error (.exceedsCap plan.batchPerLane limit
      (max 1 (plan.budgetBytes / max 1 conc) / mibBytes) conc plan.lanes)
  else .ok ()

/-- The soft clamp of `set_difficulty`: the same limit, but the batch is cut instead. -/
def softClamp (plan : CudaVramPlan) (difficulty : ℤ) : CudaVramPlan :=
  let limit := laneMemoryLimit plan difficulty
  let limit := if 0 < s.settings.cudaMaxBatchSize ∧ 0 < limit then
    min limit s.settings.cudaMaxBatchSize else limit
  if 0 < limit ∧ limit < plan.batchPerLane then
    { plan with batchPerLane := limit, batchSize := limit }
  else plan

/-! ### Applying a plan -/

/-- The lanes the difficulty bias leaves of `planned`. -/
def biasedLanes (planned difficulty : ℤ) : ℤ :=
  if s.settings.gpuDifficultyLaneBias ∧ 1 < planned then
    difficultyLaneBias planned difficulty s.settings.vramReferenceDifficulty
      s.settings.gpuDifficultyLaneFullPackRatio
  else planned

/-- The thermal and VRAM lane caps in force. -/
def liveLaneCaps : List ℤ := s.thermalLaneCap.toList ++ s.vramLaneCap.toList

/-- Difficulty bias and live lane caps on top of a plan. -/
def effectivePlan (base : CudaVramPlan) : CudaVramPlan :=
  let biased := s.biasedLanes base.lanes base.difficulty
  let plan := if biased < base.lanes then applyLaneCap base biased else base
  match s.liveLaneCaps.filter (· < plan.lanes) with
  | [] => plan
  | c :: caps => applyLaneCap plan (caps.foldl min c)

/-- The floor of the thermal scale. -/
def thermalFloor : ℚ := clampFloat (Binary64.round s.settings.gpuThermalBatchMinScale) (1 / 2) 1

/-- The floor of the VRAM scale. -/
def vramFloor : ℚ := clampFloat (Binary64.round s.settings.vramSoftMinScale) (1 / 2) 1

/-- `_combined_batch_scale`. -/
def combinedBatchScale : ℚ :=
  combineBatchScales [s.thermalBatchScale, s.vramBatchScale] (min s.thermalFloor s.vramFloor)

/-- `_apply_plan` with its `base` argument, as every caller passes it. -/
def applyPlan (plan base : CudaVramPlan) : CudaNativeBackend :=
  let batch := applyBatchScale plan.batchPerLane s.combinedBatchScale
  { s with
    baseVramPlan := some base
    vramPlan := some plan
    lanes := plan.lanes
    plannedBatchPerLane := plan.batchPerLane
    batchPerLane := batch
    batchSize := batch }

/-- The rescaling at the end of both scale setters. -/
def rescale : CudaNativeBackend :=
  if 0 < s.plannedBatchPerLane then
    let batch := applyBatchScale s.plannedBatchPerLane s.combinedBatchScale
    { s with batchPerLane := batch, batchSize := batch }
  else s

/-! ### Lane engines -/

/-- `_worker_reserve_bytes`. -/
def workerReserveBytes : ℤ :=
  match s.vramCaps with
  | some caps => caps.runtimeOverheadMib * mibBytes
  | none =>
    if 0 < s.settings.cudaRuntimeOverheadMib then s.settings.cudaRuntimeOverheadMib * mibBytes
    else max 256 s.settings.runtimeOverheadFloorMib * mibBytes

/-- The lanes that need an engine of their own: `range(1, lanes)`. -/
def neededLanes (lanes : ℤ) : List ℤ := (List.range (lanes - 1).toNat).map fun i => (i : ℤ) + 1

/-- Create the missing lane copies in order, up to the first that fails. -/
def loadLanes (copy : ℤ → Outcome) : (loaded needed : List ℤ) → List ℤ × Outcome
  | loaded, [] => (loaded, .ok)
  | loaded, lane :: needed =>
    if lane ∈ loaded then loadLanes copy loaded needed
    else
      match copy lane with
      | .ok => loadLanes copy (loaded ++ [lane]) needed
      | outcome => (loaded, outcome)

/-- `_sync_lane_copy_workers`. -/
def syncLaneCopyWorkers (env : EngineReply) : CudaNativeBackend × Outcome :=
  let needed := neededLanes s.lanes
  let kept := s.laneEngines.filter (· ∈ needed)
  match loadLanes (fun lane => env.laneCopy lane s.workerReserveBytes) kept needed with
  | (loaded, .ok) => ({ s with laneEngines := loaded, parallelMode := .dllCopies }, .ok)
  | (loaded, outcome) => ({ s with laneEngines := loaded }, outcome)

/-- `_use_sequential_multi_prefix`. -/
def useSequentialMultiPrefix : CudaNativeBackend :=
  { s with laneEngines := [], parallelMode := .sequential }

/-- Turn the outcome of lane set-up into the fallback the source catches it with. -/
def settle (outcome : Outcome) : Result Unit :=
  match outcome with
  | .ok => (s, .ok ())
  | .refused => (s.useSequentialMultiPrefix, .ok ())
  | .raised => (s, .error .engine)

/-- `_sync_lane_engines`. -/
def syncLaneEngines (env : EngineReply) : Result Unit :=
  if s.started = false then (s, .ok ())
  else if s.parallelLanesSupported then
    let mode := if 1 < s.lanes then ParallelMode.native else .sequential
    let s := { s with laneEngines := [], parallelMode := mode }
    s.settle (env.setLaneCount s.lanes)
  else if 1 < s.lanes then
    if s.settings.cudaAllowDllLaneCopies = false then (s.useSequentialMultiPrefix, .ok ())
    else
      let (s, outcome) := s.syncLaneCopyWorkers env
      s.settle outcome
  else ({ s with laneEngines := [], parallelMode := .sequential }, .ok ())

/-- `_reapply_live_caps`, answering whether lanes or batch changed. -/
def reapplyLiveCaps (env : EngineReply) : Result Bool :=
  match s.baseVramPlan with
  | none => (s, .ok false)
  | some base =>
    let plan := s.effectivePlan base
    let t := s.applyPlan plan base
    if plan.lanes ≠ s.lanes then
      let (u, ended) := t.syncLaneEngines env
      (u, ended.map fun _ => true)
    else (t, .ok (decide (s.batchPerLane ≠ t.batchPerLane)))

/-! ### Operations -/

/-- The memory `start` asks the engine to keep free. -/
def initReserveBytes (caps : VramCaps) : ℤ :=
  let reserve := max (max caps.headroomMib s.settings.minHeadroomFloorMib) 512
  (if 0 < s.settings.headroomMib then max reserve s.settings.headroomMib else reserve) * mibBytes

/-- The state `start` plans in: caps looked up for a guessed card, and everything in use before the
first batch counted as foreign. -/
def coldStart (info : DeviceInfo) : CudaNativeBackend :=
  { s with
    vramCaps := some (s.capsForTotal 32768)
    desktopBaselineMib := deviceUsedMib info
    foreignVramMib := deviceUsedMib info }

/-- `start` after `device_info` answered: plan, check, apply, set the lanes up. -/
def startWith (env : EngineReply) (info : DeviceInfo) : Result Unit :=
  match s.planFromDevice info s.difficulty with
  | (s, .error failure) => (s, .error failure)
  | (s, .ok base) =>
    match s.verifyBatchFitsBudget base s.difficulty with
    | .error failure => (s, .error failure)
    | .ok () =>
      let s := s.applyPlan (s.effectivePlan base) base
      let s := { s with started := true }
      s.syncLaneEngines env

/-- `start`. -/
def start (env : EngineReply) : Result Unit :=
  if s.started then (s, .ok ())
  else
    let caps := s.capsForTotal 32768
    match env.init (s.initReserveBytes caps), env.deviceInfo with
    | .ok, some info => (s.coldStart info).startWith env info
    | _, _ => ({ s with vramCaps := some caps }, .error .engine)

/-- `stop`. -/
def stop : CudaNativeBackend :=
  if s.started then
    { s with
      laneEngines := []
      started := false
      vramPlan := none
      baseVramPlan := none
      thermalLaneCap := none
      desktopBaselineMib := 0
      foreignVramMib := 0
      parallelMode := .sequential }
  else s

/-- The `try` block of `set_difficulty`. -/
def replan (env : EngineReply) : Result Unit :=
  match env.deviceInfo with
  | none => (s, .error .engine)
  | some info =>
    match s.planFromDevice info s.difficulty with
    | (s, .error failure) => (s, .error failure)
    | (s, .ok base) =>
      let base := s.softClamp base s.difficulty
      let s := s.applyPlan (s.effectivePlan base) base
      s.syncLaneEngines env

/-- The first assignment of `set_difficulty`. -/
def storeDifficulty (difficulty : ℤ) : CudaNativeBackend :=
  { s with difficulty := max 1 difficulty }

/-- `set_difficulty`: the new difficulty is stored first, and a replan that raises is swallowed, to
keep hashing at the new difficulty with the previous batch and lanes. -/
def setDifficulty (env : EngineReply) (difficulty : ℤ) : CudaNativeBackend :=
  if difficulty = s.difficulty ∧ s.started then s
  else
    let s := s.storeDifficulty difficulty
    if s.started then (s.replan env).1 else s

/-- The dead band of both scale setters: `abs(new - old) < 0.005`. -/
def NearScale (old new : ℚ) : Prop := |Binary64.round (new - old)| < Binary64.round (1 / 200)

instance : DecidableRel NearScale := fun _ _ => inferInstanceAs (Decidable (_ < _))

/-- `set_thermal_batch_scale`. -/
def setThermalBatchScale (scale : ℚ) : CudaNativeBackend :=
  let new := clampFloat scale s.thermalFloor 1
  if NearScale s.thermalBatchScale new then s
  else { s with thermalBatchScale := new }.rescale

/-- `set_vram_batch_scale`. -/
def setVramBatchScale (scale : ℚ) : CudaNativeBackend :=
  let new := clampFloat scale s.vramFloor 1
  if NearScale s.vramBatchScale new then s
  else { s with vramBatchScale := new }.rescale

/-- The lanes live caps start from: the base plan's after the difficulty bias. -/
def plannedLanes : ℤ :=
  match s.baseVramPlan with
  | some base => s.biasedLanes base.lanes base.difficulty
  | none => s.lanes

/-- `update_vram_pressure_from_used` up to the point where the live caps are applied again. -/
def noteVramPressure (usedMib targetMib emergencyMib : ℤ) : CudaNativeBackend :=
  let s := { s with lastVramUsedMib := usedMib }
  if s.settings.vramSoftDerateEnabled then
    let s := s.setVramBatchScale <|
      vramPressureScale usedMib targetMib emergencyMib s.settings.vramSoftMinScale 0 Binary64.round
    if s.settings.vramSoftLaneEnabled ∧ 1 < s.plannedLanes then
      { s with
        vramLaneCap := some (vramPressureLaneCap s.plannedLanes usedMib targetMib emergencyMib
          (max 1 s.settings.gpuThermalLaneMin)) }
    else { s with vramLaneCap := none }
  else { s.setVramBatchScale 1 with vramLaneCap := none }

/-- `update_vram_pressure_from_used`. -/
def updateVramPressureFromUsed (env : EngineReply) (usedMib targetMib emergencyMib : ℤ) :
    CudaNativeBackend :=
  ((s.noteVramPressure usedMib targetMib emergencyMib).reapplyLiveCaps env).1

/-- `update_thermal_batch_from_temp`. -/
def updateThermalBatchFromTemp (temperatureC : ℤ) : CudaNativeBackend :=
  let s := { s with lastTempC := temperatureC }
  s.setThermalBatchScale <|
    if s.settings.gpuThermalBatchEnabled then
      ThermalPolicy.thermalBatchScale temperatureC s.settings.warnGpuTempC s.settings.maxGpuTempC
        s.settings.gpuThermalBatchMinScale 5 Binary64.round
    else 1

/-- `update_thermal_lanes_from_temp` up to the point where the live caps are applied again. -/
def noteThermalLanes (temperatureC : ℤ) : CudaNativeBackend :=
  { s with
    lastTempC := temperatureC
    thermalLaneCap := some (ThermalPolicy.thermalLaneCap s.plannedLanes temperatureC
      s.settings.warnGpuTempC s.settings.maxGpuTempC (max 1 s.settings.gpuThermalLaneMin)) }

/-- `update_thermal_lanes_from_temp`. -/
def updateThermalLanesFromTemp (env : EngineReply) (temperatureC : ℤ) : CudaNativeBackend :=
  if s.baseVramPlan = none ∨ s.settings.gpuThermalLaneEnabled = false then
    { s with lastTempC := temperatureC }
  else ((s.noteThermalLanes temperatureC).reapplyLiveCaps env).1

/-! ### Launching -/

/-- Lane batches `mine_batch` runs at the same time. -/
def concurrentLanes : ℤ :=
  if s.parallelMode = .native ∨ s.parallelMode = .dllCopies then s.lanes else 1

/-- One operation of the supervisor on the backend. -/
inductive Op
  | start
  | stop
  | setVramCaps (caps : Option VramCaps)
  | setDifficulty (difficulty : ℤ)
  | setThermalBatchScale (scale : ℚ)
  | setVramBatchScale (scale : ℚ)
  | updateThermalBatchFromTemp (temperatureC : ℤ)
  | updateThermalLanesFromTemp (temperatureC : ℤ)
  | updateVramPressureFromUsed (usedMib targetMib emergencyMib : ℤ)

/-- One operation, with what the engine answers during it; exceptions are the caller's. -/
def step (s : CudaNativeBackend) : EngineReply × Op → CudaNativeBackend
  | (env, .start) => (s.start env).1
  | (_, .stop) => s.stop
  | (_, .setVramCaps caps) => s.setVramCaps caps
  | (env, .setDifficulty difficulty) => s.setDifficulty env difficulty
  | (_, .setThermalBatchScale scale) => s.setThermalBatchScale scale
  | (_, .setVramBatchScale scale) => s.setVramBatchScale scale
  | (_, .updateThermalBatchFromTemp temperatureC) => s.updateThermalBatchFromTemp temperatureC
  | (env, .updateThermalLanesFromTemp temperatureC) =>
    s.updateThermalLanesFromTemp env temperatureC
  | (env, .updateVramPressureFromUsed usedMib targetMib emergencyMib) =>
    s.updateVramPressureFromUsed env usedMib targetMib emergencyMib

end CudaNativeBackend

end XenMiner
