import XenMiner.Core.LaneSession
import XenMiner.Core.Supervisor
import XenMiner.Efficiency.VramGuard
import XenMiner.Mining.MineBatch

/-!
# `core/supervisor.py`: the loop of `run`, with the CUDA backend

A pass of the loop reads the GPU, lets the guard stop it, starts it again once the cooldown is over,
mines a batch and services the queue.  The queue's part of the supervisor is `sup`, whose clock all
readings of `time.time()` come from; the backend with its lane cap is `gpu`.

What a pass does to a running backend beside starting and stopping it (`set_difficulty` from a refresh,
the derates) is given as a list of operations, and so are the engine's answers and the GPU's readings
(`Pass`).  An exception that leaves the loop ends the session as `finally` does.

`events` records the stops and the batches and is read by nothing.  A stop is recorded with the reading
after it, a batch with the last reading before it.
-/

namespace XenMiner

open Argon2Common (Argon2)
open VramGuard (DifficultyContext)

/-- The settings that only the loop reads, and the time limit of `run`. -/
structure LoopSettings where
  maxSeconds : Option ℕ
  networkPollIntervalS : ℤ
  statsIntervalS : ℤ
  gpuCooldownS : ℤ
  maxBoardTempC : ℤ
  warnBoardTempC : ℤ
  gpuHighDiffTempEnabled : Bool
  gpuHighDiffTempStartRatio : ℚ
  gpuHighDiffTempMaxTightenC : ℤ

/-- An operation on the backend that neither starts nor stops it. -/
abbrev RunningOp := { op : CudaNativeBackend.Op // op ≠ .start ∧ op ≠ .stop }

inductive GpuEvent
  | stop (time : ℚ)
  | batch (time : ℚ)
  deriving DecidableEq, Repr

/-- What one pass meets outside. -/
structure Pass where
  snap : Option GpuSnapshot
  /-- The snapshots of the restarts and of the abort checks. -/
  restartSnap : Option GpuSnapshot
  checkSnap : ℕ → Option GpuSnapshot
  laneClock : Clock
  startReply : EngineReply
  lanes : ℕ → CudaEngine.HashApiResult
  completion : List ℕ
  now : ℤ
  /-- The other operations on the backend, by the place in the pass. -/
  live : ℕ → List (EngineReply × RunningOp)

structure RunLoop where
  loop : LoopSettings
  caps : VramPolicy.VramCaps
  sup : Supervisor
  gpu : LaneSession
  running : Bool := true
  cooldownUntil : ℚ := 0
  started : ℚ := 0
  lastNetCheck : ℚ := 0
  lastQueueFlush : ℚ := 0
  lastXuniFlush : ℚ := 0
  /-- The last reading of the clock. -/
  seen : ℚ := 0
  events : List GpuEvent := []

namespace RunLoop

variable (w : World) (A : Argon2) (s : RunLoop)

/-- `time.time()`. -/
def readClock : RunLoop × ℚ :=
  ({ s with sup := s.sup.tick, seen := w.now s.sup.clock }, w.now s.sup.clock)

/-- An operation of the supervisor on the queue. -/
def onQueue (op : Supervisor.Op) : RunLoop := { s with sup := s.sup.step w A op }

def onBackend (f : CudaNativeBackend → CudaNativeBackend) : RunLoop :=
  { s with gpu := { s.gpu with backend := f s.gpu.backend } }

def live (ops : List (EngineReply × RunningOp)) : RunLoop :=
  s.onBackend fun backend => ops.foldl (fun b x => b.step (x.1, x.2.1)) backend

/-- `_is_gpu_backend_running`. -/
def gpuBackendRunning : Bool := s.gpu.backend.started

/-! ### The guard -/

/-- The context `_configure_guard_temp_context` sets. -/
def tempContext : DifficultyContext where
  difficulty := s.sup.miningDifficulty
  referenceDifficulty := s.sup.settings.vramReferenceDifficulty
  highDiffEnabled := s.loop.gpuHighDiffTempEnabled
  highDiffStartRatio := s.loop.gpuHighDiffTempStartRatio
  highDiffFullRatio := s.sup.settings.gpuHighDiffTempFullRatio
  highDiffMaxTightenC := s.loop.gpuHighDiffTempMaxTightenC

/-- The guard of `_apply_vram_policy`, with its context. -/
def guard : VramGuard :=
  .ofCaps s.caps s.sup.settings.maxGpuTempC s.sup.settings.warnGpuTempC s.loop.gpuCooldownS
    (some s.loop.maxBoardTempC) (some s.loop.warnBoardTempC) s.tempContext

/-- `_policy_temp_eval` of a present snapshot. -/
def policyTempEval (snap : GpuSnapshot) : VramGuard.DualTempEval :=
  let active := s.gpu.backend.lanes
  let planned := match s.gpu.backend.baseVramPlan with
    | some base => max active base.lanes
    | none => active
  VramGuard.evaluateSnapshotTemps snap s.sup.settings.warnGpuTempC s.sup.settings.maxGpuTempC
    s.loop.warnBoardTempC s.loop.maxBoardTempC
    { plannedLanes := planned
      minLanes := max 1 s.sup.settings.gpuThermalLaneMin
      batchMinScale := s.sup.settings.gpuThermalBatchMinScale }
    s.tempContext

/-- `_gpu_temp_abort_check`. -/
def gpuTempAbortCheck (snap : Option GpuSnapshot) : Bool :=
  match snap with
  | none => false
  | some snap => (s.policyTempEval snap).abort

/-- `_gpu_paused_for_cooldown`. -/
def gpuPausedForCooldown : RunLoop × Bool :=
  let (s, now) := s.readClock w
  (s, decide (now < s.cooldownUntil))

/-! ### Stopping and starting -/

/-- `self.backend.stop()`. -/
def stopBackend : RunLoop := s.onBackend (·.stop)

/-- `self._cooldown_until = time.time() + cooldown_s`, behind a stop. -/
def beginCooldown (cooldownS : ℤ) : RunLoop :=
  let (s, now) := s.readClock w
  { s with cooldownUntil := now + cooldownS, events := .stop now :: s.events }

/-- `_graceful_gpu_stop`. -/
def gracefulGpuStop (cooldownS : ℤ) (snap : Option GpuSnapshot)
    (ops : List (EngineReply × RunningOp)) : RunLoop :=
  let s := { s with gpu := s.gpu.noteTempCooldown (snap.map GpuSnapshot.temperatureC) }
  let s := (s.onQueue w A .tryFlush).live ops
  s.stopBackend.beginCooldown w cooldownS

/-- `_apply_gpu_safety`; a warning reads the clock for its log. -/
def applyGpuSafety (snap : Option GpuSnapshot) (ops : List (EngineReply × RunningOp)) :
    RunLoop × Bool :=
  let action := s.guard.evaluate snap
  match action.level with
  | .ok => (s, true)
  | .warn => ((s.readClock w).1, true)
  | .emergency =>
    if action.gracefulStop then
      let (s, paused) := s.gpuPausedForCooldown w
      if paused && !s.gpuBackendRunning then (s, true)
      else (s.gracefulGpuStop w A action.cooldownS snap ops, true)
    else
      let s := (s.stopBackend.onQueue w A .tryFlush).live ops
      (s.beginCooldown w action.cooldownS, false)

/-- `_graceful_shutdown`; the loop is left. -/
def shutDown : RunLoop := { s.stopBackend.onQueue w A .shutdown with running := false }

/-- `_maybe_restart_gpu`; a start that raises leaves the loop. -/
def maybeRestartGpu (p : Pass) : RunLoop :=
  let (s, now) := s.readClock w
  if now < s.cooldownUntil then s
  else if s.gpuBackendRunning then s
  else
    let gpu := s.gpu.applyLaneCapAfterTemp p.laneClock (p.restartSnap.map GpuSnapshot.temperatureC)
      s.sup.miningDifficulty
    let (backend, ended) := gpu.backend.start p.startReply
    let s := { s with gpu := { gpu with backend := backend } }
    match ended with
    | .ok () => s
    | .error _ => s.shutDown w A

/-! ### A pass -/

/-- `_service_pending_queue`, with the times of the last flushes. -/
def serviceQueue (now : ℚ) (aggressive : Bool) : RunLoop :=
  let (sup, lastQueueFlush, lastXuniFlush) := s.sup.servicePendingQueue w A now s.lastQueueFlush
    s.lastXuniFlush (min 5 s.loop.statsIntervalS) aggressive
  { s with sup := sup, lastQueueFlush := lastQueueFlush, lastXuniFlush := lastXuniFlush }

/-- The end of a pass without mining: the queue is serviced, and the GPU perhaps restarted. -/
def waitOut (now : ℚ) (p : Pass) : RunLoop :=
  ((s.serviceQueue w A now true).live (p.live 2)).maybeRestartGpu w A p

def batchEnv (p : Pass) : BatchEnv where
  abortCheck := fun k => s.gpuTempAbortCheck (p.checkSnap k)
  engine := p.lanes
  completion := p.completion
  now := p.now

/-- A batch of a running backend is recorded. -/
def noteBatch : RunLoop :=
  if s.gpuBackendRunning then { s with events := .batch s.seen :: s.events } else s

/-- The rest of a pass that mines. -/
def mine (p : Pass) : RunLoop :=
  let s := s.noteBatch
  match s.gpu.backend.mineBatch (s.batchEnv p) with
  | .error _ => s.shutDown w A
  | .ok batch =>
    if batch.aborted then
      let s := s.gracefulGpuStop w A s.loop.gpuCooldownS p.snap (p.live 1)
      let (s, now) := s.readClock w
      s.waitOut w A now p
    else
      let s := match batch.hit with
        | some hit => (s.onQueue w A (.hit hit)).live (p.live 1)
        | none => s
      let (s, now) := s.readClock w
      (s.serviceQueue w A now false).live (p.live 2)

/-- `time.time() - started >= max_seconds`, if there is a limit. -/
def timeUp : RunLoop × Bool :=
  match s.loop.maxSeconds with
  | some (seconds + 1) =>
    let (s, now) := s.readClock w
    (s, decide ((seconds + 1 : ℚ) ≤ now - s.started))
  | _ => (s, false)

/-- The refresh of a pass. -/
def pollNetwork (now : ℚ) : RunLoop :=
  if (s.loop.networkPollIntervalS : ℚ) ≤ now - s.lastNetCheck then
    { s.onQueue w A .refresh with lastNetCheck := now }
  else s

/-- A pass once the guard has let it go on. -/
def passOn (now : ℚ) (p : Pass) : RunLoop :=
  let s := s.maybeRestartGpu w A p
  if s.running = false then s
  else
    let (s, paused) := s.gpuPausedForCooldown w
    if paused && !s.gpuBackendRunning then s.waitOut w A now p else s.mine w A p

/-- One pass of the loop. -/
def pass (p : Pass) : RunLoop :=
  if s.running = false then s
  else
    let (s, expired) := s.timeUp w
    if expired then s.shutDown w A
    else
      let (s, now) := s.readClock w
      let s := (s.pollNetwork w A now).live (p.live 0)
      let (s, safe) := s.applyGpuSafety w A p.snap (p.live 1)
      if safe then s.passOn w A now p else s.waitOut w A now p

/-- `run` up to its loop: the backend is started, and an exception of the start is only logged. -/
def start (loop : LoopSettings) (caps : VramPolicy.VramCaps) (sup : Supervisor) (gpu : LaneSession)
    (startReply : EngineReply) : RunLoop :=
  let sup := sup.start w A
  let now := w.now sup.clock
  { loop := loop
    caps := caps
    sup := sup.tick
    gpu := { gpu with backend := (gpu.backend.start startReply).1 }
    started := now
    lastNetCheck := now
    seen := now }

end RunLoop

end XenMiner
