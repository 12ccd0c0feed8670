import XenMiner.Lib.Run
import XenMiner.Monitoring.DashboardStats
import XenMiner.Monitoring.LocalStats
import Mathlib.Tactic.Positivity

/-!
# "Accepted (today)" and the day it counts

The dashboard shows the session's accept counters, which hydration starts at the counts the history
has for the mining day of the start; nothing resets them when the day rolls over.  Shown and saved
counts differ by the saved counts of the two days and by the accepts of other mining days
(`accepted_eq_todayCounts_iff`): they agree until 1:00 (`accepted_eq_todayCounts_of_day`), and after
it only by coincidence.
-/

namespace XenMiner.DashboardStats

open Periods

/-! ### Counts -/

theorem counts_ext {c d : KindCounts} : c = d ↔
    c.xuni = d.xuni ∧ c.xnm = d.xnm ∧ c.xblk = d.xblk := by
  constructor
  · rintro rfl
    exact ⟨rfl, rfl, rfl⟩
  · rintro ⟨h1, h2, h3⟩
    cases c
    cases d
    simp_all

theorem addCounts_assoc (a b c : KindCounts) :
    addCounts (addCounts a b) c = addCounts a (addCounts b c) := by
  simp only [addCounts, Nat.add_assoc]

theorem addCounts_comm (a b : KindCounts) : addCounts a b = addCounts b a := by
  simp only [addCounts, Nat.add_comm]

theorem addCounts_right_cancel {a b c : KindCounts} : addCounts a c = addCounts b c ↔ a = b := by
  simp only [counts_ext, addCounts]
  omega

@[simp]
theorem addCounts_empty (c : KindCounts) : addCounts c {} = c := rfl

/-- An increment can be counted on either side. -/
theorem addCounts_inc (c d : KindCounts) (kind : String) :
    addCounts c (d.inc kind) = (addCounts c d).inc kind := by
  unfold KindCounts.inc
  split_ifs <;> rfl

theorem inc_addCounts (c d : KindCounts) (kind : String) :
    addCounts (c.inc kind) d = (addCounts c d).inc kind := by
  rw [addCounts_comm, addCounts_inc, addCounts_comm]

/-- Rewards are positive, so tokens tell the counts. -/
theorem acceptedTokensByKind_eq_iff {stats : MiningStats} {c : KindCounts} {on : ℤ} :
    acceptedTokensByKind stats on = Rewards.blocksToTokens c on ↔ acceptedBlocksByKind stats = c := by
  refine ⟨fun h => ?_, fun h => congrArg (Rewards.blocksToTokens · on) h⟩
  have hpos : 0 < Rewards.xnmRewardPerBlock on := by
    unfold Rewards.xnmRewardPerBlock
    positivity
  unfold acceptedTokensByKind Rewards.blocksToTokens at h
  rw [KindAmounts.mk.injEq] at h
  obtain ⟨hxuni, hxnm, hxblk⟩ := h
  refine counts_ext.mpr ⟨by exact_mod_cast hxuni, ?_, by exact_mod_cast hxblk⟩
  exact_mod_cast mul_right_cancel₀ hpos.ne' hxnm

/-- The row "Accepted (today)" shows the tokens of some counts exactly if these are the accepted
blocks. -/
theorem acceptedRow_mem_iff {stats : MiningStats} {pendingByType resubmissionByType : Option KindCounts}
    {c : KindCounts} {on : ℤ} :
    ("Accepted (today)", Rewards.blocksToTokens c on, "tokens") ∈
        dashboardRows stats pendingByType resubmissionByType on ↔ acceptedBlocksByKind stats = c := by
  have hrow : ("Accepted (today)", Rewards.blocksToTokens c on, "tokens") ∈
      dashboardRows stats pendingByType resubmissionByType on ↔
      acceptedTokensByKind stats on = Rewards.blocksToTokens c on := by
    simp [dashboardRows, eq_comm]
  exact hrow.trans acceptedTokensByKind_eq_iff

/-! ### Sessions -/

/-- A session's accept counters and its saved history. -/
structure Session where
  metrics : MetricsTracker
  localStats : LocalMiningStatsTracker

/-- An accept by the pool: of a block just found, or of a queued one. -/
inductive Accept
  | live (kind : String)
  | flush (kind : String)

def Accept.kind : Accept → String
  | .live kind => kind
  | .flush kind => kind

namespace Session

/-- `_hydrate_accepted_metrics_from_local_stats`. -/
def hydrate (m : MetricsTracker) (t : LocalMiningStatsTracker) (now : ℤ) : MetricsTracker :=
  { m with stats := { m.stats with acceptedLive := t.todayCounts now } }

/-- A session over a saved history, hydrated at the start. -/
def start (history : LocalMiningStatsTracker) (now : ℤ) : Session where
  metrics := hydrate {} history now
  localStats := history

/-- An accept at a moment, as `handle_hit` and `_apply_outcome` record it. -/
def step (s : Session) : ℤ × Accept → Session
  | (now, .live kind) =>
    { metrics := s.metrics.recordAcceptedLive kind
      localStats := s.localStats.recordAccept kind now }
  | (now, .flush kind) =>
    { metrics := s.metrics.recordAcceptedFlush kind
      localStats := s.localStats.recordAccept kind now }

end Session

open Session

variable {s : Session} {history : LocalMiningStatsTracker} {events : List (ℤ × Accept)}

/-- How many blocks of each kind some accepts are. -/
def tally : List (ℤ × Accept) → KindCounts
  | [] => {}
  | e :: events => (tally events).inc e.2.kind

/-- Accepts divide into those of one mining day and the others. -/
theorem tally_partition (p : ℤ × Accept → Bool) (events : List (ℤ × Accept)) :
    tally events = addCounts (tally (events.filter fun e => !p e)) (tally (events.filter p)) := by
  induction events with
  | nil => rfl
  | cons e events ih =>
    cases hp : p e with
    | true =>
      rw [List.filter_cons_of_neg (by simp [hp]), List.filter_cons_of_pos hp]
      simp only [tally, addCounts_inc]
      rw [ih]
    | false =>
      rw [List.filter_cons_of_pos (by simp [hp]), List.filter_cons_of_neg (by simp [hp])]
      simp only [tally, inc_addCounts]
      rw [ih]

/-- One accept counts once on the dashboard. -/
theorem accepted_step (s : Session) (e : ℤ × Accept) :
    acceptedBlocksByKind (s.step e).metrics.stats =
      (acceptedBlocksByKind s.metrics.stats).inc e.2.kind := by
  obtain ⟨now, a⟩ := e
  unfold acceptedBlocksByKind
  cases a with
  | live kind =>
    dsimp only [step, MetricsTracker.recordAcceptedLive, Accept.kind]
    rw [inc_addCounts]
  | flush kind =>
    dsimp only [step, MetricsTracker.recordAcceptedFlush, Accept.kind]
    rw [addCounts_inc]

/-- One accept counts once in the history, on its own mining day. -/
theorem dayCounts_step (s : Session) (e : ℤ × Accept) (day : ℤ) :
    (s.step e).localStats.dayCounts day =
      if day = miningDay e.1 then (s.localStats.dayCounts day).inc e.2.kind
      else s.localStats.dayCounts day := by
  obtain ⟨now, a⟩ := e
  cases a with
  | live kind => exact LocalMiningStatsTracker.dayCounts_recordAccept _ kind now day
  | flush kind => exact LocalMiningStatsTracker.dayCounts_recordAccept _ kind now day

/-- The dashboard counts every accept of the session. -/
theorem accepted_final (s : Session) (events : List (ℤ × Accept)) :
    acceptedBlocksByKind (Run.final step s events).metrics.stats =
      addCounts (acceptedBlocksByKind s.metrics.stats) (tally events) := by
  induction events generalizing s with
  | nil => rfl
  | cons e events ih =>
    rw [Run.final_cons, ih, accepted_step, inc_addCounts]
    exact (addCounts_inc _ _ _).symm

/-- The history counts, for each mining day, the accepts of that day. -/
theorem dayCounts_final (s : Session) (events : List (ℤ × Accept)) (day : ℤ) :
    (Run.final step s events).localStats.dayCounts day =
      addCounts (s.localStats.dayCounts day)
        (tally (events.filter fun e => decide (miningDay e.1 = day))) := by
  induction events generalizing s with
  | nil => rfl
  | cons e events ih =>
    rw [Run.final_cons, ih, dayCounts_step]
    by_cases hday : day = miningDay e.1
    · rw [if_pos hday, List.filter_cons_of_pos (by simp [hday]), inc_addCounts]
      exact (addCounts_inc _ _ _).symm
    · rw [if_neg hday, List.filter_cons_of_neg (by simpa using fun h => hday h.symm)]

/-- The accepts of a session on other mining days than that of `now`. -/
def onOtherDays (events : List (ℤ × Accept)) (now : ℤ) : List (ℤ × Accept) :=
  events.filter fun e => !decide (miningDay e.1 = miningDay now)

/-- The counters on the dashboard are those of the current mining day exactly if the saved counts of the
mining day of the start and the session's accepts on other days add up to its saved counts. -/
theorem acceptedBlocks_eq_iff (history : LocalMiningStatsTracker) (started : ℤ)
    (events : List (ℤ × Accept)) (now : ℤ) :
    acceptedBlocksByKind (Run.final step (start history started) events).metrics.stats =
        (Run.final step (start history started) events).localStats.todayCounts now ↔
      addCounts (history.dayCounts (miningDay started)) (tally (onOtherDays events now)) =
        history.dayCounts (miningDay now) := by
  have hshown : acceptedBlocksByKind (Run.final step (start history started) events).metrics.stats =
      addCounts (history.dayCounts (miningDay started)) (tally events) :=
    accepted_final _ _
  have hsaved : (Run.final step (start history started) events).localStats.todayCounts now =
      addCounts (history.dayCounts (miningDay now))
        (tally (events.filter fun e => decide (miningDay e.1 = miningDay now))) :=
    dayCounts_final _ _ _
  rw [hshown, hsaved, tally_partition (fun e => decide (miningDay e.1 = miningDay now)) events,
    ← addCounts_assoc, addCounts_right_cancel]
  rfl

/-- **When "Accepted (today)" is today's count.**  For every saved history, every start and every
sequence of accepts, at every moment: the counters on the dashboard are the history's counts of the
current mining day, and its row shows their tokens, exactly if the saved counts of the mining day of
the start and the session's accepts on other days add up to the saved counts of the current day. -/
theorem accepted_eq_todayCounts_iff (history : LocalMiningStatsTracker) (started : ℤ)
    (events : List (ℤ × Accept)) (now : ℤ) :
    let s := Run.final step (start history started) events
    let agrees := addCounts (history.dayCounts (miningDay started)) (tally (onOtherDays events now)) =
      history.dayCounts (miningDay now)
    (acceptedBlocksByKind s.metrics.stats = s.localStats.todayCounts now ↔ agrees) ∧
      ∀ (pendingByType resubmissionByType : Option KindCounts) (on : ℤ),
        ("Accepted (today)", Rewards.blocksToTokens (s.localStats.todayCounts now) on, "tokens") ∈
          dashboardRows s.metrics.stats pendingByType resubmissionByType on ↔ agrees := by
  intro s agrees
  have hcounts := acceptedBlocks_eq_iff history started events now
  exact ⟨hcounts, fun _ _ _ => acceptedRow_mem_iff.trans hcounts⟩

/-- Before the first rollover the counts agree, whatever was accepted, on a clock that does not go
back. -/
theorem accepted_eq_todayCounts_of_day {started now : ℤ}
    (hevents : ∀ e ∈ events, started ≤ e.1 ∧ e.1 ≤ now) (hday : miningDay now = miningDay started) :
    acceptedBlocksByKind (Run.final step (start history started) events).metrics.stats =
      (Run.final step (start history started) events).localStats.todayCounts now := by
  have hnone : onOtherDays events now = [] := by
    refine List.filter_eq_nil_iff.mpr fun e he => ?_
    have hlow := miningDay_mono (hevents e he).1
    have hhigh := miningDay_mono (hevents e he).2
    have hsame : miningDay e.1 = miningDay now := by omega
    simp [hsame]
  rw [acceptedBlocks_eq_iff, hnone, hday]
  rfl

/-- A miner that starts at 14:00 on a fresh history and finds one block ten minutes later still shows
it as today's at 2:00. -/
theorem accepted_ne_todayCounts_rollover :
    let s := Run.final step (start ⟨fun _ => none⟩ 63919980000) [(63919980600, .live "XNM")]
    acceptedBlocksByKind s.metrics.stats = { xnm := 1 } ∧
      s.localStats.todayCounts 63920023200 = {} ∧
      miningDay 63920023200 = miningDay 63919980000 + 1 := by
  decide +kernel

end XenMiner.DashboardStats
