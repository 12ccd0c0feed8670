import XenMiner.Monitoring.Metrics
import Mathlib.Algebra.Order.Field.Rat

/-!
# `monitoring/dashboard_stats.py` and `monitoring/rewards.py`: the rows of the dashboard

Accepted blocks are shown as tokens, at the reward of the date `on`.  Dates are ordinals.
-/

namespace XenMiner

/-- An amount for each kind of block. -/
structure KindAmounts where
  xuni : ℚ
  xnm : ℚ
  xblk : ℚ
  deriving DecidableEq, Repr

namespace Rewards

/-- `XNM_GENESIS_DATE`, the 13th of September 2023. -/
def xnmGenesisDate : ℤ := 738776

/-- Years of 365 days since genesis. -/
def xnmYearIndex (on : ℤ) : ℕ :=
  if on < xnmGenesisDate then 0 else ((on - xnmGenesisDate) / 365).toNat

/-- `XNM_INITIAL_REWARD`, halved every year. -/
def xnmRewardPerBlock (on : ℤ) : ℚ := 10 / 2 ^ xnmYearIndex on

/-- `blocks_to_tokens` for the three kinds; XUNI and XBLK pay one token a block. -/
def blocksToTokens (blocks : KindCounts) (on : ℤ) : KindAmounts where
  xuni := blocks.xuni
  xnm := blocks.xnm * xnmRewardPerBlock on
  xblk := blocks.xblk

end Rewards

namespace DashboardStats

open Rewards

/-- The counts of two counters together. -/
def addCounts (c d : KindCounts) : KindCounts where
  xuni := c.xuni + d.xuni
  xnm := c.xnm + d.xnm
  xblk := c.xblk + d.xblk

def toAmounts (c : KindCounts) : KindAmounts where
  xuni := c.xuni
  xnm := c.xnm
  xblk := c.xblk

def acceptedBlocksByKind (stats : MiningStats) : KindCounts :=
  addCounts stats.acceptedLive stats.acceptedFlush

def acceptedTokensByKind (stats : MiningStats) (on : ℤ) : KindAmounts :=
  blocksToTokens (acceptedBlocksByKind stats) on

def rejectedByKind (stats : MiningStats) : KindCounts :=
  addCounts stats.rejectedLive stats.rejectedFlush

/-- The rows of the table: label, values, unit. -/
def dashboardRows (stats : MiningStats) (pendingByType resubmissionByType : Option KindCounts)
    (on : ℤ) : List (String × KindAmounts × String) :=
  [("Found (session)", toAmounts stats.found, "blocks"),
    ("Accepted (today)", acceptedTokensByKind stats on, "tokens"),
    ("Rejected (pool)", toAmounts (rejectedByKind stats), "blocks"),
    ("Queued", toAmounts (pendingByType.getD {}), "blocks"),
    ("Resubmit", toAmounts (resubmissionByType.getD {}), "blocks")]

end DashboardStats

end XenMiner
