import Mathlib.Data.Int.Order.Basic
import Mathlib.Data.Rat.Defs

/-!
# `core/models.py`: blocks, GPU snapshots and counters

Only the sensor fields of `GpuSnapshot` that the guard reads are kept, and only the block counters of
`MiningStats`; the others are for display.  Timestamps are whole seconds: every text made from one is
`isoformat(timespec="seconds")`.
-/

namespace XenMiner

/-- A block a backend found.  The type is a text: other sources report labels of their own. -/
structure BlockHit where
  key : String
  hashStr : String
  blockType : String
  attempts : ℤ
  strategy : String
  hps : ℚ := 0
  foundAt : ℤ
  memoryCost : Option ℤ := none
  deriving DecidableEq, Repr

/-- One reading of the GPU.  A discrete sensor that is unavailable reads `0`. -/
structure GpuSnapshot where
  totalMib : ℤ
  usedMib : ℤ
  /-- Control temperature: the hottest of the available sensors. -/
  temperatureC : ℤ
  gpuTempC : ℤ := 0
  boardTempC : ℤ := 0
  hotspotTempC : ℤ := 0
  tempSource : String := "gpu"
  deriving DecidableEq, Repr

def GpuSnapshot.headroomMib (s : GpuSnapshot) : ℤ := s.totalMib - s.usedMib

/-- A count for each kind of block. -/
structure KindCounts where
  xuni : ℕ := 0
  xnm : ℕ := 0
  xblk : ℕ := 0
  deriving DecidableEq, Repr

def KindCounts.total (c : KindCounts) : ℕ := c.xuni + c.xnm + c.xblk

/-- The session's counters: each group of fields `x_xuni`, `x_xnm`, `x_xblk` is one `KindCounts`. -/
structure MiningStats where
  sessionHits : ℕ := 0
  found : KindCounts := {}
  enqueued : KindCounts := {}
  acceptedLive : KindCounts := {}
  acceptedFlush : KindCounts := {}
  failedLive : KindCounts := {}
  rejectedFlush : KindCounts := {}
  rejectedLive : KindCounts := {}
  resubmission : KindCounts := {}
  droppedFlush : ℕ := 0
  queued : ℕ := 0
  deriving DecidableEq, Repr

def MiningStats.rejectedTotal (stats : MiningStats) : ℕ :=
  stats.rejectedLive.total + stats.rejectedFlush.total

end XenMiner
