import Mathlib.Data.Rat.Defs

/-!
# A batch of the native engine

`fill_result` of `native/engine/xen_cuda_api.cpp` copies the matches of a batch into a fixed-size C
structure, and `CudaEngine.run_lane_batch` of `mining/cuda_engine.py` reads them back into a list.
The engine's texts are ASCII without a NUL.
-/

namespace XenMiner.CudaEngine

def xenCudaMaxMatches : ℕ := 32

def xenCudaKeyLen : ℕ := 65

def xenCudaHashLen : ℕ := 256

def xenCudaPatternLen : ℕ := 32

def xenCudaErrLen : ℕ := 256

/-- `copy_str` into a buffer of `len` bytes, read back as a text. -/
def copyStr (len : ℕ) (src : String) : String := String.ofList (src.toList.take (len - 1))

theorem copyStr_of_le {len : ℕ} {src : String} (h : src.toList.length ≤ len - 1) :
    copyStr len src = src := by
  unfold copyStr
  rw [List.take_of_length_le h, String.ofList_toList]

/-- A match of the engine.  Its keys are `64` hexadecimal digits. -/
structure HashApiMatch where
  key : String
  hash : String
  matchedPattern : String
  attemptIndex : ℕ
  key_length_le : key.toList.length ≤ 64

/-- The fields of `hashapi::HashApiResult` that reach the miner. -/
structure HashApiResult where
  ok : Bool
  error : String
  attempts : ℕ
  hashrate : ℚ
  elapsedMs : ℚ
  batchSize : ℕ
  found : List HashApiMatch

structure CudaMatch where
  key : String
  hashStr : String
  pattern : String
  attemptIndex : ℕ
  deriving DecidableEq, Repr

/-- What the miner reads of a batch. -/
structure CudaBatchResult where
  ok : Bool
  error : String
  attempts : ℕ
  hashrate : ℚ
  elapsedMs : ℚ
  batchSize : ℕ
  found : List CudaMatch
  deriving DecidableEq, Repr

/-- One slot of the match array. -/
def copyMatch (m : HashApiMatch) : CudaMatch where
  key := copyStr xenCudaKeyLen m.key
  hashStr := copyStr xenCudaHashLen m.hash
  pattern := copyStr xenCudaPatternLen m.matchedPattern
  attemptIndex := m.attemptIndex

/-- `fill_result`, and `run_lane_batch` reading the structure back: the call answers `-3` when the
batch is not ok. -/
def fillResult (src : HashApiResult) : CudaBatchResult where
  ok := src.ok
  error :=
    if src.ok = false ∧ src.error = "" then "xen_cuda_run_lane_batch rc=-3"
    else copyStr xenCudaErrLen src.error
  attempts := src.attempts
  hashrate := src.hashrate
  elapsedMs := src.elapsedMs
  batchSize := src.batchSize
  found := (src.found.take xenCudaMaxMatches).map copyMatch

theorem copyMatch_key (m : HashApiMatch) : (copyMatch m).key = m.key :=
  copyStr_of_le m.key_length_le

end XenMiner.CudaEngine
