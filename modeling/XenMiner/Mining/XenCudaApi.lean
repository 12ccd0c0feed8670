import XenMiner.Mining.MineBatch

/-!
# `native/engine/xen_cuda_api.cpp`: the lane slots of the engine

The native engine keeps a slot for each lane in `g_state`; a call for a lane without a slot fails.
Creating the backend of a slot can throw: `created` says of each slot whether it does not.
-/

namespace XenMiner

open CudaEngine

namespace XenCudaApi

/-- `g_state`: nothing before `xen_cuda_init`, else the number of lane slots. -/
abbrev State := Option ℕ

/-- The loop of `grow_lanes` over the missing slots, up to the first that throws: the slots there are
then, and whether all were created. -/
def growLanes (created : ℕ → Bool) (slots : ℕ) : ℕ → ℕ × Bool
  | 0 => (slots, true)
  | missing + 1 =>
    if created slots then growLanes created (slots + 1) missing else (slots, false)

/-- `xen_cuda_init`: one slot; if it throws, no state is left. -/
def xenCudaInit (created : ℕ → Bool) : State × Bool :=
  match growLanes created 0 1 with
  | (slots, true) => (some slots, true)
  | (_, false) => (none, false)

/-- `xen_cuda_set_lane_count`, answering whether it returns `0`.  Slots grown before the one that throws
stay. -/
def xenCudaSetLaneCount (created : ℕ → Bool) (laneCount : ℤ) : State → State × Bool
  | none => (none, false)
  | some slots =>
    if laneCount ≤ 0 then (some slots, false)
    else
      match growLanes created slots (laneCount.toNat - slots) with
      | (slots, true) => (some (min slots laneCount.toNat), true)
      | (slots, false) => (some slots, false)

/-- The answer of `run_lane_batch_locked` for a lane without a slot. -/
def laneNotInitialized : HashApiResult where
  ok := false
  error := "CUDA lane not initialized"
  attempts := 0
  hashrate := 0
  elapsedMs := 0
  batchSize := 0
  found := []

/-- `run_lane_batch_locked`: the lane's own backend runs the batch. -/
def runLaneBatchLocked (state : State) (runBatch : ℕ → HashApiResult) (lane : ℕ) : HashApiResult :=
  if lane < state.getD 0 then runBatch lane else laneNotInitialized

end XenCudaApi

/-- The same call of `mine_batch`, with the batches run on the slots there are. -/
def BatchEnv.onSlots (env : BatchEnv) (state : XenCudaApi.State) : BatchEnv :=
  { env with engine := XenCudaApi.runLaneBatchLocked state env.engine }

namespace CudaNativeBackend

variable (s : CudaNativeBackend) (env : BatchEnv)

/-- The lanes the loop of the sequential mode passes to `xen_cuda_run_lane_batch`: it ends at the first
abort, and behind the first lane that fails. -/
def sequentialPassed : List ℕ → List ℕ
  | [] => []
  | lane :: lanes =>
    if env.abortCheck (lane + 1) then []
    else lane :: if (env.engine lane).ok then sequentialPassed lanes else []

/-- The lanes a call of `mine_batch` passes to `xen_cuda_run_lane_batch`: all of them in parallel mode,
where each has a worker of its own. -/
def passedLanes : List ℕ :=
  if s.started = false ∨ env.abortCheck 0 = true then []
  else if s.parallel = false then sequentialPassed env (List.range s.lanes.toNat)
  else List.range s.lanes.toNat

end CudaNativeBackend

end XenMiner
