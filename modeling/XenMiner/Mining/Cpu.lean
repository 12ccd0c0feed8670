import XenMiner.Mining.BlockTypes
import XenMiner.Mining.MineBatch

/-!
# `mining/backends/cpu.py`, `efficiency/lane_manager.py`: the CPU backend

Worker processes hash keys of their lane until they find a block or see the stop event they were
spawned with.  The supervisor's loop tunes the lanes, takes hits from the queue and starts workers
again after a hit; `set_lanes` replaces both the event and the queue.

Controller and workers take turns in any order.  `stop` joins one worker at a time (a worker that does
not end in time is terminated), and a call of `mine_batch` is the poll that ends it and, after a hit,
its return.  Events, queues and workers are numbered in the order of their creation.
-/

namespace XenMiner

/-- `classify_hash`. -/
def Argon2Common.classifyHash (hashStr : String) : Option String :=
  let kind := BlockTypes.classifyBlock hashStr ""
  if kind = .other then none else some kind.text

/-- What a worker puts in the queue. -/
structure RawHit where
  key : String
  hashStr : String
  blockType : String
  attempts : ℤ
  lane : ℤ
  deriving DecidableEq, Repr

/-- Where a worker is in `_worker_loop`. -/
inductive WorkerPlace
  /-- Before it checks the stop event. -/
  | checking
  /-- The event was clear: the next key is hashed. -/
  | hashing
  | done
  deriving DecidableEq, Repr

structure CpuWorker where
  lane : ℤ
  localIndex : ℤ
  stopEvent : ℕ
  hitQueue : ℕ
  place : WorkerPlace
  deriving DecidableEq, Repr

structure CpuArgon2Backend where
  strategyName : String
  lanes : ℤ
  processes : List ℕ := []
  stopEvent : ℕ := 0
  hitQueue : ℕ := 0
  lastCount : ℕ := 0
  deriving DecidableEq, Repr

structure LaneManager where
  lanes : ℤ
  rampStep : ℤ
  deriving DecidableEq, Repr

/-- Where the supervisor is. -/
inductive CpuPlace
  /-- Between two calls. -/
  | ready
  /-- In `stop`, called by `set_lanes` for a number of lanes, or to shut down. -/
  | stopping (setLanes : Option ℤ)
  /-- In `mine_batch`, with a hit. -/
  | fetched (hit : BlockHit)
  /-- `mine_batch` returned a hit. -/
  | gotHit
  /-- Stopped for good. -/
  | down
  deriving DecidableEq, Repr

/-- The supervisor with its backend and the workers. -/
structure CpuMiner where
  backend : CpuArgon2Backend
  laneManager : LaneManager
  place : CpuPlace
  /-- Whether each stop event is set. -/
  stopEvents : List Bool
  hitQueues : List (List RawHit)
  countValue : ℕ := 0
  workers : List CpuWorker := []
  /-- All hits put so far. -/
  puts : List RawHit := []
  /-- The results `mine_batch` returned so far. -/
  batches : List MineBatchResult := []

/-- The hit `mine_batch` makes of what a worker put. -/
def RawHit.blockHit (raw : RawHit) (strategyName : String) (now : ℤ) : BlockHit where
  key := raw.key
  hashStr := raw.hashStr
  blockType := raw.blockType
  attempts := raw.attempts
  strategy := strategyName
  foundAt := now

namespace CpuMiner

variable (s : CpuMiner)

/-- `stop_event.is_set()`. -/
def isSet (event : ℕ) : Bool := s.stopEvents.getD event false

/-- The content of the backend's queue. -/
def queue : List RawHit := s.hitQueues.getD s.backend.hitQueue []

/-! ### Workers -/

def setWorker (i : ℕ) (w : CpuWorker) : CpuMiner := { s with workers := s.workers.set i w }

/-- `hit_queue.put`. -/
def putHit (queue : ℕ) (hit : RawHit) : CpuMiner :=
  { s with
    hitQueues := s.hitQueues.modify queue (· ++ [hit])
    puts := s.puts ++ [hit] }

variable (keyFn : ℤ → ℤ → String) (argon2Hash : String → String)

/-- One hash of `_worker_loop`. -/
def hashOnce (i : ℕ) (w : CpuWorker) : CpuMiner :=
  let key := keyFn w.lane w.localIndex
  let localIndex := w.localIndex + 1
  let h := argon2Hash key
  let s := { s with countValue := s.countValue + 1 }
  match Argon2Common.classifyHash h with
  | none => s.setWorker i { w with localIndex := localIndex, place := .checking }
  | some blockType =>
    let hit : RawHit :=
      { key := key, hashStr := h, blockType := blockType, attempts := localIndex, lane := w.lane }
    (s.putHit w.hitQueue hit).setWorker i { w with localIndex := localIndex, place := .done }

/-- One step of worker `i`. -/
def workerStep (i : ℕ) : CpuMiner :=
  match s.workers[i]? with
  | none => s
  | some w =>
    match w.place with
    | .checking => s.setWorker i { w with place := if s.isSet w.stopEvent then .done else .hashing }
    | .hashing => s.hashOnce keyFn argon2Hash i w
    | .done => s

/-- A worker of `_spawn_workers`. -/
def newWorker (lane : ℕ) : CpuWorker where
  lane := lane
  localIndex := lane * 1000000
  stopEvent := s.backend.stopEvent
  hitQueue := s.backend.hitQueue
  place := .checking

/-- `_spawn_workers`. -/
def spawnWorkers : CpuMiner :=
  let lanes := List.range s.backend.lanes.toNat
  { s with
    workers := s.workers ++ lanes.map s.newWorker
    backend := { s.backend with
      processes := s.backend.processes ++ lanes.map (s.workers.length + ·) } }

/-! ### The backend -/

/-- `_stop_event.set()`. -/
def setStopEvent : CpuMiner := { s with stopEvents := s.stopEvents.set s.backend.stopEvent true }

/-- `set_lanes` up to its `stop`. -/
def setLanes (lanes : ℤ) : CpuMiner :=
  let lanes := max 1 lanes
  if lanes = s.backend.lanes ∧ s.backend.processes ≠ [] then s
  else { s.setStopEvent with place := .stopping (some lanes) }

/-- The rest of `set_lanes`. -/
def replaceLanes (lanes : ℤ) : CpuMiner :=
  spawnWorkers
    { s with
      backend := { s.backend with
        lanes := lanes
        stopEvent := s.stopEvents.length
        hitQueue := s.hitQueues.length }
      stopEvents := s.stopEvents ++ [false]
      hitQueues := s.hitQueues ++ [[]]
      place := .ready }

/-- The end of worker `i`, by itself or by `terminate`. -/
def joinWorker (i : ℕ) : CpuMiner :=
  { s with workers := s.workers.modify i fun w => { w with place := .done } }

/-- The next step of `stop`, or what follows it. -/
def join (setLanes : Option ℤ) : CpuMiner :=
  match s.backend.processes with
  | i :: rest => { s.joinWorker i with backend := { s.backend with processes := rest } }
  | [] =>
    match setLanes with
    | some lanes => s.replaceLanes lanes
    | none => { s with place := .down }

/-- The end of `mine_batch`. -/
def returnBatch (hit : Option BlockHit) : CpuMiner :=
  { s with
    backend := { s.backend with lastCount := s.countValue }
    batches := s.batches ++ [{ hashesDone := s.countValue - s.backend.lastCount, hit := hit }] }

/-- `mine_batch` up to its last poll; without a hit it returns. -/
def pollQueue (now : ℤ) : CpuMiner :=
  match s.queue with
  | [] => s.returnBatch none
  | raw :: rest =>
    { s with
      hitQueues := s.hitQueues.set s.backend.hitQueue rest
      place := .fetched (raw.blockHit s.backend.strategyName now) }

/-! ### The supervisor -/

/-- `LaneManager.tune`, with the answers of the budget. -/
def tune (shouldReduce canAddLane : Bool) : CpuMiner :=
  let set (lanes : ℤ) : CpuMiner :=
    { s with laneManager := { s.laneManager with lanes := lanes } }.setLanes lanes
  if shouldReduce then
    let newLanes := max 1 (s.laneManager.lanes - s.laneManager.rampStep)
    if newLanes ≠ s.laneManager.lanes then set newLanes else s
  else if canAddLane then set (s.laneManager.lanes + s.laneManager.rampStep)
  else s

/-- The backend and the lane manager as they are created; the manager sets its lanes. -/
def create (strategyName : String) (cpuLanes rampStep : ℤ) : CpuMiner :=
  let s : CpuMiner :=
    { backend := { strategyName := strategyName, lanes := cpuLanes }
      laneManager := { lanes := max 1 cpuLanes, rampStep := max 1 rampStep }
      place := .ready
      stopEvents := [false]
      hitQueues := [[]] }
  s.setLanes s.laneManager.lanes

/-- Whose turn it is, and which call the supervisor makes. -/
inductive CpuAction
  | worker (i : ℕ)
  | start
  | tune (shouldReduce canAddLane : Bool)
  /-- `stop` goes on. -/
  | join
  /-- `mine_batch` is called, or goes on. -/
  | mineBatch (now : ℤ)
  | shutdown
  deriving DecidableEq, Repr

/-- One turn; an action the supervisor cannot take where it is changes nothing. -/
def step (s : CpuMiner) (a : CpuAction) : CpuMiner :=
  match a, s.place with
  | .worker i, _ => s.workerStep keyFn argon2Hash i
  | .start, .ready => s.spawnWorkers
  -- `if batch.hit: ...; self.backend.start()`
  | .start, .gotHit => { s.spawnWorkers with place := .ready }
  | .tune shouldReduce canAddLane, .ready => s.tune shouldReduce canAddLane
  | .join, .stopping setLanes => s.join setLanes
  | .mineBatch now, .ready => s.pollQueue now
  | .mineBatch _, .fetched hit => { s.setStopEvent.returnBatch (some hit) with place := .gotHit }
  | .shutdown, .ready => { s.setStopEvent with place := .stopping none }
  | .shutdown, .gotHit => { s.setStopEvent with place := .stopping none }
  | _, _ => s

end CpuMiner

end XenMiner
