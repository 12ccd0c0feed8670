import XenMiner.Core.Models
import XenMiner.Lib.PyStr

/-!
# `monitoring/metrics.py`: the session's counters

The hash rate is not modelled.  The two dictionaries of rejected keys are lists of a kind and a key.
-/

namespace XenMiner

/-- `_norm_kind`. -/
def normKind (kind : String) : String :=
  let upper := PyStr.upper kind
  if upper ∈ ["XUNI", "XNM", "XBLK"] then upper else "XBLK"

/-- `_inc`. -/
def KindCounts.inc (c : KindCounts) (kind : String) : KindCounts :=
  if normKind kind = "XUNI" then { c with xuni := c.xuni + 1 }
  else if normKind kind = "XNM" then { c with xnm := c.xnm + 1 }
  else { c with xblk := c.xblk + 1 }

structure MetricsTracker where
  stats : MiningStats := {}
  rejectedLiveKeys : List (String × String) := []
  rejectedFlushKeys : List (String × String) := []
  deriving DecidableEq

namespace MetricsTracker

variable (m : MetricsTracker)

def recordFound (kind : String) : MetricsTracker :=
  { m with stats := { m.stats with
      sessionHits := m.stats.sessionHits + 1, found := m.stats.found.inc kind } }

def recordEnqueued (kind : String) : MetricsTracker :=
  { m with stats := { m.stats with enqueued := m.stats.enqueued.inc kind } }

def recordAcceptedLive (kind : String) : MetricsTracker :=
  { m with stats := { m.stats with acceptedLive := m.stats.acceptedLive.inc kind } }

def recordAcceptedFlush (kind : String) : MetricsTracker :=
  { m with stats := { m.stats with acceptedFlush := m.stats.acceptedFlush.inc kind } }

/-- A key counts once per kind. -/
def recordRejectedLive (kind blockKey : String) : MetricsTracker :=
  if (normKind kind, blockKey) ∈ m.rejectedLiveKeys then m
  else
    { m with
      rejectedLiveKeys := (normKind kind, blockKey) :: m.rejectedLiveKeys
      stats := { m.stats with
        rejectedLive := m.stats.rejectedLive.inc kind
        failedLive := m.stats.failedLive.inc kind } }

/-- A key counts once per kind. -/
def recordRejectedFlush (kind blockKey : String) : MetricsTracker :=
  if (normKind kind, blockKey) ∈ m.rejectedFlushKeys then m
  else
    { m with
      rejectedFlushKeys := (normKind kind, blockKey) :: m.rejectedFlushKeys
      stats := { m.stats with rejectedFlush := m.stats.rejectedFlush.inc kind } }

def recordResubmission (kind : String) : MetricsTracker :=
  { m with stats := { m.stats with resubmission := m.stats.resubmission.inc kind } }

def recordDroppedFlush : MetricsTracker :=
  { m with stats := { m.stats with droppedFlush := m.stats.droppedFlush + 1 } }

def syncPending (count : ℕ) : MetricsTracker :=
  { m with stats := { m.stats with queued := count } }

end MetricsTracker

end XenMiner
