import XenMiner.Monitoring.Metrics

/-!
# `monitoring/periods.py` and `monitoring/local_stats.py`: accepts per mining day

A mining day rolls over at 1:00 local time.  The clock reads seconds of local time since the day
before the first date, so that a date is its ordinal.  The saved history maps dates to counts, which
are natural numbers as the tracker saves them; texts, labels and tokens per period are for display.
-/

namespace XenMiner

/-! ### Periods -/

namespace Periods

/-- `DAY_ROLLOVER_HOUR`. -/
def dayRolloverHour : ℤ := 1

/-- `now.date()`. -/
def date (now : ℤ) : ℤ := now / 86400

/-- `now.hour`. -/
def hour (now : ℤ) : ℤ := now % 86400 / 3600

/-- The date a moment counts for. -/
def miningDay (now : ℤ) : ℤ :=
  if hour now < dayRolloverHour then date now - 1 else date now

/-- Mining days are calendar days of a clock that is an hour behind. -/
theorem miningDay_eq (now : ℤ) : miningDay now = date (now - 3600) := by
  unfold miningDay hour date dayRolloverHour
  split_ifs <;> omega

theorem miningDay_mono {a b : ℤ} (h : a ≤ b) : miningDay a ≤ miningDay b := by
  rw [miningDay_eq, miningDay_eq]
  unfold date
  omega

end Periods

/-! ### The tracker -/

structure LocalMiningStatsTracker where
  days : ℤ → Option KindCounts

namespace LocalMiningStatsTracker

open Periods

variable (t : LocalMiningStatsTracker)

/-- `_day_counts`. -/
def dayCounts (day : ℤ) : KindCounts := (t.days day).getD {}

/-- Raw accepted block counts of the current mining day. -/
def todayCounts (now : ℤ) : KindCounts := t.dayCounts (miningDay now)

/-- `record_accept`. -/
def recordAccept (kind : String) (now : ℤ) : LocalMiningStatsTracker where
  days := Function.update t.days (miningDay now) (some ((t.todayCounts now).inc kind))

@[simp]
theorem dayCounts_recordAccept (kind : String) (now day : ℤ) :
    (t.recordAccept kind now).dayCounts day =
      if day = miningDay now then (t.dayCounts day).inc kind else t.dayCounts day := by
  unfold dayCounts recordAccept
  dsimp only
  by_cases hday : day = miningDay now
  · rw [hday, if_pos rfl, Function.update_self]
    rfl
  · rw [if_neg hday, Function.update_of_ne hday]

end LocalMiningStatsTracker

end XenMiner
