import XenMiner.Monitoring.OutageScan
import XenMiner.Monitoring.ServerUptime
import Mathlib.Data.Int.ConditionallyCompleteOrder
import Mathlib.Order.Interval.Set.SurjOn
import Mathlib.Tactic.Linarith
import Mathlib.Tactic.NormNum

/-!
# Outages are classified exactly

The loop looks at every minute that starts before the end of an outage, from the one of its start on
(`scan_spec`).  Local minutes grow with the instant and leave none out, so these are the minutes of the
instants of the outage, and the loop finds one in the window iff there is such an instant
(`outageOverlapsXuni_returns`).  On timestamps in whole microseconds that is what the tracker records
(`returns_tracker_outageOverlapsXuni`).
-/

namespace XenMiner.OutageScan

open PyNum

/-- A loop with fuel returns `b`. -/
def Returns {β : Type*} (loop : ℕ → Option β) (b : β) : Prop := ∃ n, ∀ fuel ≥ n, loop fuel = some b

namespace DateTime

variable {d : DateTime} {utcOffset : ℤ}

theorem epochMinute_addMinute : d.addMinute.epochMinute = d.epochMinute + 1 :=
  Int.add_ediv_of_dvd_right (dvd_refl minuteMicros)

theorem floorMinute_micros : d.floorMinute.micros = d.epochMinute * minuteMicros := by
  show d.micros - d.micros % minuteMicros = d.micros / minuteMicros * minuteMicros
  unfold minuteMicros
  omega

theorem epochMinute_floorMinute : d.floorMinute.epochMinute = d.epochMinute := by
  rw [epochMinute, floorMinute_micros]
  exact Int.mul_ediv_cancel _ (by decide)

/-- The local minute of an instant grows with it. -/
theorem epochMinute_fromTimestamp_mono :
    Monotone fun ts => (fromTimestamp utcOffset ts).epochMinute := by
  intro s t hst
  have hround : pyRound (s * 1000000) ≤ pyRound (t * 1000000) := pyRound_mono (by linarith)
  exact Int.ediv_le_ediv (by decide) (Int.add_le_add_right hround utcOffset)

/-- Every local minute is that of some instant. -/
theorem epochMinute_fromTimestamp_surjective :
    Function.Surjective fun ts => (fromTimestamp utcOffset ts).epochMinute := by
  intro m
  refine ⟨((m * minuteMicros - utcOffset : ℤ) : ℚ) / 1000000, ?_⟩
  have hmicros : (fromTimestamp utcOffset
      (((m * minuteMicros - utcOffset : ℤ) : ℚ) / 1000000)).micros = m * minuteMicros := by
    show pyRound _ + utcOffset = _
    rw [div_mul_cancel₀ _ (by norm_num), pyRound_intCast]
    omega
  show _ / minuteMicros = m
  rw [hmicros]
  exact Int.mul_ediv_cancel _ (by decide)

end DateTime

/-! ### The loop -/

variable {last cursor : DateTime}

theorem micros_le_iff (hwhole : cursor.micros = cursor.epochMinute * minuteMicros) :
    cursor.micros ≤ last.micros ↔ cursor.epochMinute ≤ last.epochMinute := by
  rw [hwhole]
  exact (Int.le_ediv_iff_mul_le (by decide)).symm

/-- One of the minutes from `first` to `last` is in the window. -/
def WindowBetween (first last : ℤ) : Prop :=
  ∃ m, first ≤ m ∧ m ≤ last ∧ Policy.inXuniWindow (m % 60).toNat = true

/-- A minute outside the window can be left out. -/
theorem windowBetween_succ_iff {m n : ℤ} (hm : Policy.inXuniWindow (m % 60).toNat = false) :
    WindowBetween (m + 1) n ↔ WindowBetween m n := by
  constructor
  · rintro ⟨k, hmk, hkn, hk⟩
    exact ⟨k, by omega, hkn, hk⟩
  · rintro ⟨k, hmk, hkn, hk⟩
    have hne : k ≠ m := by
      rintro rfl
      exact absurd hk (by rw [hm]; decide)
    exact ⟨k, by omega, hkn, hk⟩

theorem not_windowBetween (hwhole : cursor.micros = cursor.epochMinute * minuteMicros)
    (hpast : ¬ cursor.micros ≤ last.micros) :
    ¬ WindowBetween cursor.epochMinute last.epochMinute := by
  rintro ⟨m, hcursor, hlast, -⟩
  exact hpast ((micros_le_iff hwhole).mpr (hcursor.trans hlast))

/-- The loop looks at the minutes up to the end. -/
theorem scan_spec {n fuel : ℕ} (hn : last.micros < cursor.micros + n * minuteMicros) (hfuel : n < fuel)
    (hwhole : cursor.micros = cursor.epochMinute * minuteMicros) :
    ∃ b, scan last fuel cursor = some b ∧
      (b = true ↔ WindowBetween cursor.epochMinute last.epochMinute) := by
  induction n generalizing cursor fuel with
  | zero =>
    obtain ⟨fuel, rfl⟩ := Nat.exists_eq_add_of_lt hfuel
    have hpast : ¬ cursor.micros ≤ last.micros := by omega
    exact ⟨false, if_neg hpast, iff_of_false (by decide) (not_windowBetween hwhole hpast)⟩
  | succ n ih =>
    cases fuel with
    | zero => exact absurd hfuel (Nat.not_lt_zero _)
    | succ fuel =>
      rw [scan]
      by_cases hle : cursor.micros ≤ last.micros
      · rw [if_pos hle]
        by_cases hwindow : cursor.inXuniWindow = true
        · rw [if_pos hwindow]
          refine ⟨true, rfl, fun _ => ?_, fun _ => rfl⟩
          exact ⟨cursor.epochMinute, le_rfl, (micros_le_iff hwhole).mp hle, hwindow⟩
        · rw [if_neg hwindow]
          have hnext : last.micros < cursor.addMinute.micros + n * minuteMicros := by
            show last.micros < cursor.micros + minuteMicros + n * minuteMicros
            push_cast at hn
            linarith
          have hstep : cursor.addMinute.micros = cursor.addMinute.epochMinute * minuteMicros := by
            rw [DateTime.epochMinute_addMinute, add_one_mul, ← hwhole]
            rfl
          obtain ⟨b, hb, hiff⟩ := ih hnext (Nat.lt_of_succ_lt_succ hfuel) hstep
          refine ⟨b, hb, hiff.trans ?_⟩
          rw [DateTime.epochMinute_addMinute]
          exact windowBetween_succ_iff (Bool.not_eq_true _ ▸ hwindow)
      · rw [if_neg hle]
        exact ⟨false, rfl, iff_of_false (by decide) (not_windowBetween hwhole hle)⟩

/-! ### An outage -/

variable (utcOffset : ℤ) {startTs endTs : ℚ}

/-- The minutes of an outage. -/
theorem outageOverlapsXuni_spec : ∃ b, Returns (outageOverlapsXuni utcOffset startTs endTs) b ∧
    (b = true ↔ WindowBetween (DateTime.fromTimestamp utcOffset startTs).epochMinute
      (DateTime.fromTimestamp utcOffset endTs).epochMinute) := by
  generalize hstart : DateTime.fromTimestamp utcOffset startTs = first
  generalize hend : DateTime.fromTimestamp utcOffset endTs = last
  have hwhole : first.floorMinute.micros = first.floorMinute.epochMinute * minuteMicros := by
    rw [DateTime.epochMinute_floorMinute, DateTime.floorMinute_micros]
  -- more rounds than microseconds
  obtain ⟨n, hrounds⟩ : ∃ n : ℕ, last.micros < first.floorMinute.micros + n * minuteMicros := by
    refine ⟨(last.micros - first.floorMinute.micros + 1).toNat, ?_⟩
    unfold minuteMicros
    omega
  have hscan : ∀ fuel > n, ∃ b, outageOverlapsXuni utcOffset startTs endTs fuel = some b ∧
      (b = true ↔ WindowBetween first.epochMinute last.epochMinute) := by
    intro fuel hfuel
    rw [outageOverlapsXuni, hstart, hend, ← DateTime.epochMinute_floorMinute]
    exact scan_spec hrounds hfuel hwhole
  by_cases hwindow : WindowBetween first.epochMinute last.epochMinute
  · refine ⟨true, ⟨n + 1, fun fuel hfuel => ?_⟩, iff_of_true rfl hwindow⟩
    obtain ⟨b, hb, hiff⟩ := hscan fuel hfuel
    rw [hb, hiff.mpr hwindow]
  · refine ⟨false, ⟨n + 1, fun fuel hfuel => ?_⟩, iff_of_false (by decide) hwindow⟩
    obtain ⟨b, hb, hiff⟩ := hscan fuel hfuel
    rw [hb, Bool.eq_false_iff.mpr (mt hiff.mp hwindow)]

/-- The minutes of an outage are those of its instants. -/
theorem windowBetween_iff (h : startTs ≤ endTs) :
    WindowBetween (DateTime.fromTimestamp utcOffset startTs).epochMinute
        (DateTime.fromTimestamp utcOffset endTs).epochMinute ↔
      ∃ t, startTs ≤ t ∧ t ≤ endTs ∧ (DateTime.fromTimestamp utcOffset t).inXuniWindow = true := by
  have hmono := @DateTime.epochMinute_fromTimestamp_mono utcOffset
  constructor
  · rintro ⟨m, hfirst, hlast, hm⟩
    obtain ⟨t, ht, rfl⟩ := surjOn_Icc_of_monotone_surjective hmono
      DateTime.epochMinute_fromTimestamp_surjective h ⟨hfirst, hlast⟩
    exact ⟨t, ht.1, ht.2, hm⟩
  · rintro ⟨t, hstart, hend, ht⟩
    exact ⟨_, hmono hstart, hmono hend, ht⟩

/-- The loop returns whether some instant of the outage is in the window. -/
theorem outageOverlapsXuni_returns (h : startTs ≤ endTs) :
    ∃ b, Returns (outageOverlapsXuni utcOffset startTs endTs) b ∧
      (b = true ↔ ∃ t, startTs ≤ t ∧ t ≤ endTs ∧
        (DateTime.fromTimestamp utcOffset t).inXuniWindow = true) := by
  obtain ⟨b, hb, hiff⟩ := outageOverlapsXuni_spec utcOffset
  exact ⟨b, hb, hiff.trans (windowBetween_iff utcOffset h)⟩

/-- From half a second before minute 56 to its start. -/
theorem outageOverlapsXuni_returns_short : ((6719 / 2 : ℚ) ≤ 3360) ∧
    ∃ b, Returns (outageOverlapsXuni 0 (6719 / 2) 3360) b ∧
      (b = true ↔ ∃ t, (6719 / 2 : ℚ) ≤ t ∧ t ≤ 3360 ∧
        (DateTime.fromTimestamp 0 t).inXuniWindow = true) :=
  ⟨by norm_num, outageOverlapsXuni_returns 0 (by norm_num)⟩

/-! ### The tracker -/

theorem minuteOf_eq (utcOffset micros : ℤ) :
    ServerUptime.minuteOf (utcOffset / 1000000) (micros / 1000000) =
      (DateTime.fromTimestamp utcOffset (micros / 1000000)).epochMinute := by
  have hsum : ((micros : ℚ) / 1000000 + utcOffset / 1000000) / 60 =
      ((micros + utcOffset : ℤ) : ℚ) / ((60000000 : ℕ) : ℚ) := by
    push_cast
    ring
  have hmicros : (DateTime.fromTimestamp utcOffset (micros / 1000000)).micros = micros + utcOffset := by
    show pyRound ((micros : ℚ) / 1000000 * 1000000) + utcOffset = _
    rw [div_mul_cancel₀ _ (by norm_num), pyRound_intCast]
  rw [ServerUptime.minuteOf, hsum, Rat.floor_intCast_div_natCast, DateTime.epochMinute, hmicros]
  rfl

theorem tracker_outageOverlapsXuni_eq_true_iff {utcOffset startTs endTs : ℚ} :
    ServerUptime.outageOverlapsXuni utcOffset startTs endTs = true ↔
      WindowBetween (ServerUptime.minuteOf utcOffset startTs) (ServerUptime.minuteOf utcOffset endTs) := by
  rw [ServerUptime.outageOverlapsXuni, List.any_eq_true]
  constructor
  · rintro ⟨i, hi, hwindow⟩
    rw [List.mem_range] at hi
    exact ⟨_, by omega, by omega, hwindow⟩
  · rintro ⟨m, hfirst, hlast, hwindow⟩
    obtain ⟨i, rfl⟩ := Int.le.dest hfirst
    refine ⟨i, List.mem_range.mpr ?_, hwindow⟩
    omega

/-- The tracker records what the loop returns, if the timestamps are whole microseconds. -/
theorem returns_tracker_outageOverlapsXuni (utcOffset first last : ℤ) :
    Returns (outageOverlapsXuni utcOffset (first / 1000000) (last / 1000000))
      (ServerUptime.outageOverlapsXuni (utcOffset / 1000000) (first / 1000000) (last / 1000000)) := by
  obtain ⟨b, hb, hiff⟩ := @outageOverlapsXuni_spec utcOffset (first / 1000000) (last / 1000000)
  rw [← minuteOf_eq, ← minuteOf_eq, ← tracker_outageOverlapsXuni_eq_true_iff] at hiff
  rwa [← Bool.eq_iff_iff.mpr hiff]

end XenMiner.OutageScan
