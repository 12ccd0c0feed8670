import XenMiner.Core.Models
import XenMiner.Mining.BlockTypes
import XenMiner.Mining.CudaEngine
import XenMiner.Mining.CudaNative

/-!
# `mine_batch` and the run loop

`CudaNativeBackend.mine_batch` runs one batch on every lane, one lane after the other or all at the
same time, and merges the lane results into a `MineBatchResult`; `Supervisor.run` hands its hit to
`handle_hit` unless the batch was aborted.
-/

namespace XenMiner

open CudaEngine

/-- `mining/base.py`: the result of a batch. -/
structure MineBatchResult where
  hashesDone : ℕ
  hit : Option BlockHit
  aborted : Bool := false
  abortReason : String := ""
  deriving DecidableEq, Repr

/-- What happens around one call of `mine_batch`. -/
structure BatchEnv where
  /-- The answer of the abort check at each of its calls. -/
  abortCheck : ℕ → Bool
  /-- The engine's result for each lane. -/
  engine : ℕ → HashApiResult
  /-- The order in which parallel lanes complete. -/
  completion : List ℕ
  now : ℤ

/-- `_run_lane`: a result that is not `ok` raises. -/
def BatchEnv.runLane (env : BatchEnv) (lane : ℕ) : Except String CudaBatchResult :=
  let result := fillResult (env.engine lane)
  if result.ok then .ok result
  else .error (PyStr.orElse result.error s!"CUDA lane {lane} batch failed")

namespace CudaNativeBackend

variable (s : CudaNativeBackend) (env : BatchEnv)

/-- `_hit_from_result`: the first match becomes the hit. -/
def hitFromResult (result : CudaBatchResult) : Option BlockHit :=
  match result.found with
  | [] => none
  | m :: _ => some
    { key := m.key
      hashStr := m.hashStr
      blockType := (BlockTypes.classifyBlock m.hashStr m.pattern).text
      attempts := result.attempts
      strategy := s.settings.strategy
      hps := result.hashrate
      foundAt := env.now
      memoryCost := some s.difficulty }

/-- The totals the loops of `mine_batch` carry. -/
structure BatchTotals where
  hashes : ℕ := 0
  hit : Option BlockHit := none
  lanesDone : ℕ := 0

/-- Merge a lane's result: the first hit is kept. -/
def BatchTotals.add (t : BatchTotals) (result : CudaBatchResult) : BatchTotals where
  hashes := t.hashes + result.attempts
  hit := if t.hit.isNone then s.hitFromResult env result else t.hit
  lanesDone := t.lanesDone + 1

/-- The reason text of an abort. -/
def abortText (rest : String) : String :=
  "GPU temp limit (" ++ toString s.settings.maxGpuTempC ++ "C) — " ++ rest

/-- The lane loop of the sequential mode: the check before lane `k` is call `k + 1`. -/
def sequentialLanes (t : BatchTotals) : List ℕ → Except String (BatchTotals × String)
  | [] => .ok (t, "")
  | lane :: lanes =>
    if env.abortCheck (lane + 1) then
      .ok (t, s.abortText s!"stopped after lane {t.lanesDone}/{s.lanes}")
    else
      match env.runLane lane with
      | .error error => .error error
      | .ok result => sequentialLanes (t.add s env result) lanes

/-- The merge of the parallel mode, in completion order; the first failed lane raises. -/
def parallelLanes (t : BatchTotals) : List ℕ → Except String BatchTotals
  | [] => .ok t
  | lane :: lanes =>
    match env.runLane lane with
    | .error error => .error error
    | .ok result => parallelLanes (t.add s env result) lanes

/-- Lanes run at the same time. -/
def parallel : Bool :=
  1 < s.lanes && (s.parallelMode == .native || s.parallelMode == .dllCopies)

/-- `mine_batch`. -/
def mineBatch : Except String MineBatchResult :=
  if s.started = false then .ok { hashesDone := 0, hit := none }
  else if env.abortCheck 0 then
    .ok
      { hashesDone := 0
        hit := none
        aborted := true
        abortReason := s.abortText "aborted before batch" }
  else if s.parallel = false then
    match s.sequentialLanes env {} (List.range s.lanes.toNat) with
    | .error error => .error error
    | .ok (t, reason) => .ok
      { hashesDone := t.hashes, hit := t.hit, aborted := decide (reason ≠ ""), abortReason := reason }
  else
    match s.parallelLanes env {} env.completion with
    | .error error => .error error
    | .ok t =>
      let reason :=
        if env.abortCheck 1 then
          s.abortText s!"stopped after parallel lanes ({t.lanesDone}/{s.lanes})"
        else ""
      .ok
        { hashesDone := t.hashes
          hit := t.hit
          aborted := decide (reason ≠ "")
          abortReason := reason }

/-- What `Supervisor.run` hands to `handle_hit` for one call: an aborted batch stops the GPU instead,
and an exception of the backend ends the run. -/
def handledHits : List BlockHit :=
  match s.mineBatch env with
  | .error _ => []
  | .ok batch => if batch.aborted then [] else batch.hit.toList

end CudaNativeBackend

end XenMiner
