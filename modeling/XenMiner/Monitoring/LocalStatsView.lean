import XenMiner.Monitoring.DashboardStats
import XenMiner.Monitoring.LocalStats

/-!
# `monitoring/periods.py` and `monitoring/local_stats.py`: days and weeks compared

The view sets this mining day against the one before, and the week so far against the whole week before,
in tokens at the reward of each day.  A week begins on Monday at 1:00.  Amounts are exact; the labels and
the texts about rewards are left out.
-/

namespace XenMiner

namespace Periods

def previousMiningDay (now : ℤ) : ℤ := miningDay now - 1

/-- `day.weekday()`: Monday is `0`. -/
def weekday (day : ℤ) : ℤ := (day + 6) % 7

/-- The Monday of the mining week. -/
def miningWeekStart (now : ℤ) : ℤ := miningDay now - weekday (miningDay now)

def previousMiningWeekStart (now : ℤ) : ℤ := miningWeekStart now - 7

/-- The loop of `mining_week_days`. -/
def daysFrom (stop : ℤ) : ℕ → ℤ → List ℤ
  | 0, _ => []
  | fuel + 1, cursor => if cursor ≤ stop then cursor :: daysFrom stop fuel (cursor + 1) else []

/-- The days of the week so far; the loop ends after seven at most. -/
def miningWeekDays (now : ℤ) : List ℤ := daysFrom (miningDay now) 8 (miningWeekStart now)

def previousMiningWeekDays (now : ℤ) : List ℤ :=
  (List.range 7).map fun offset : ℕ => previousMiningWeekStart now + (offset : ℤ)

end Periods

/-! ### Changes -/

structure TokenChange where
  delta : Option ℚ
  pct : Option ℚ
  deriving DecidableEq, Repr

/-- `_pct_change`. -/
def pctChange : Option ℚ → Option ℚ → Option ℚ
  | some delta, some baseline => if baseline = 0 then none else some (delta / baseline * 100)
  | _, _ => none

/-- `_token_change`. -/
def tokenChange (current : ℚ) : Option ℚ → TokenChange
  | none => { delta := none, pct := none }
  | some baseline =>
    { delta := some (current - baseline), pct := pctChange (some (current - baseline)) (some baseline) }

structure KindChanges where
  xuni : TokenChange
  xnm : TokenChange
  xblk : TokenChange
  deriving DecidableEq, Repr

/-- `day_change` and `week_change`, for the three kinds. -/
def kindChanges (current : KindAmounts) (baseline : Option KindAmounts) : KindChanges where
  xuni := tokenChange current.xuni (baseline.map KindAmounts.xuni)
  xnm := tokenChange current.xnm (baseline.map KindAmounts.xnm)
  xblk := tokenChange current.xblk (baseline.map KindAmounts.xblk)

/-! ### The view -/

structure LocalStatsView where
  todayTokens : KindAmounts
  todayBlocks : KindCounts
  day : KindChanges
  week : KindChanges
  deriving DecidableEq, Repr

namespace LocalMiningStatsTracker

open Periods

variable (t : LocalMiningStatsTracker)

/-- `_has_day`. -/
def hasDay (day : ℤ) : Bool := (t.days day).isSome

/-- `_day_tokens`: a day's blocks at that day's reward. -/
def dayTokens (day : ℤ) : KindAmounts := Rewards.blocksToTokens (t.dayCounts day) day

/-- `_sum_tokens`. -/
def sumTokens (days : List ℤ) : KindAmounts :=
  days.foldl
    (fun totals day =>
      { xuni := totals.xuni + (t.dayTokens day).xuni
        xnm := totals.xnm + (t.dayTokens day).xnm
        xblk := totals.xblk + (t.dayTokens day).xblk })
    { xuni := 0, xnm := 0, xblk := 0 }

/-- `_has_any_day`. -/
def hasAnyDay (days : List ℤ) : Bool := days.any t.hasDay

def view (now : ℤ) : LocalStatsView :=
  let today := miningDay now
  let yesterday := previousMiningDay now
  let yesterdayTokens := if t.hasDay yesterday then some (t.dayTokens yesterday) else none
  let priorWeek :=
    if t.hasAnyDay (previousMiningWeekDays now) then some (t.sumTokens (previousMiningWeekDays now))
    else none
  { todayTokens := t.dayTokens today
    todayBlocks := t.dayCounts today
    day := kindChanges (t.dayTokens today) yesterdayTokens
    week := kindChanges (t.sumTokens (miningWeekDays now)) priorWeek }

end LocalMiningStatsTracker

end XenMiner
