import XenMiner.Monitoring.Equiv.ServerUptime
import XenMiner.Monitoring.ServerUptimeView
import Mathlib.Data.Int.Interval

/-!
# Pruning the history of the server

What is dropped at a probe is too old to be shown again: as far as hours and the current outage go, the
view of a tracker that is pruned at every probe is the view of one that is never pruned (`view_saved`).
The saved history stays within 49 hours and 200 outages (`bounded_saved`).
-/

namespace XenMiner.ServerUptime

variable {utcOffset : ℚ} {hourly hourly' : List (ℤ × Bucket)} {t u : Tracker} {hour key : ℤ}

/-! ### Buckets by hour -/

theorem bucketAt_cons (k : ℤ) (b : Bucket) :
    bucketAt ((k, b) :: hourly) key = if k = key then b else bucketAt hourly key := by
  unfold bucketAt
  rw [List.lookup_cons]
  by_cases hkey : k = key
  · simp [hkey]
  · have hne : (key == k) = false := by simpa using Ne.symm hkey
    rw [hne, if_neg hkey]

theorem bucketAt_credit (online : Bool) (s : ℚ) :
    bucketAt (credit hour online s hourly) key =
      if hour = key then (bucketAt hourly key).add online s else bucketAt hourly key := by
  induction hourly with
  | nil =>
    rw [credit, bucketAt_cons]
    rfl
  | cons e hourly ih =>
    obtain ⟨k, b⟩ := e
    rw [credit]
    split_ifs with hk hkey hkey
    · rw [bucketAt_cons, bucketAt_cons, if_pos (hk.trans hkey), if_pos (hk.trans hkey)]
    · rw [bucketAt_cons, bucketAt_cons, if_neg (hk ▸ hkey), if_neg (hk ▸ hkey)]
    · rw [bucketAt_cons, bucketAt_cons, ih, if_pos hkey, if_neg (hkey ▸ hk), if_neg (hkey ▸ hk)]
    · rw [bucketAt_cons, bucketAt_cons, ih, if_neg hkey]

/-- What is kept by a filter on hours keeps its bucket. -/
theorem bucketAt_filter {first : ℤ} (h : first ≤ key) :
    bucketAt (hourly.filter fun e => first ≤ e.1) key = bucketAt hourly key := by
  induction hourly with
  | nil => rfl
  | cons e hourly ih =>
    obtain ⟨k, b⟩ := e
    rw [bucketAt_cons, List.filter_cons]
    split_ifs with hkeep hkey hkey
    · rw [bucketAt_cons, if_pos hkey]
    · rw [bucketAt_cons, if_neg hkey, ih]
    · exact absurd (hkey ▸ h) (by simpa using hkeep)
    · exact ih

/-- Crediting the same time does not tell buckets apart that agree. -/
theorem bucketAt_creditLoop (h : bucketAt hourly key = bucketAt hourly' key) (online : Bool) (endTs : ℚ)
    (fuel : ℕ) (cursor : ℚ) :
    bucketAt (creditLoop utcOffset online endTs fuel cursor hourly) key =
      bucketAt (creditLoop utcOffset online endTs fuel cursor hourly') key := by
  induction fuel generalizing cursor hourly hourly' with
  | zero => exact h
  | succ fuel ih =>
    rw [creditLoop, creditLoop]
    split_ifs
    · exact ih (by rw [bucketAt_credit, bucketAt_credit, h]) _
    · exact h

/-! ### Two trackers -/

/-- From an hour on, the trackers agree on what is shown of the time. -/
structure Agree (first : ℤ) (t u : Tracker) : Prop where
  bucketAt : ∀ key, first ≤ key → bucketAt t.hourly key = bucketAt u.hourly key
  lastOk : t.lastOk = u.lastOk
  lastProbeAt : t.lastProbeAt = u.lastProbeAt
  outageStart : t.outageStart = u.outageStart

variable {first : ℤ}

/-- An outage begins with a failure after a success or at first, and ends with a success. -/
theorem outageStart_recordProbe (ok : Bool) (now : ℚ) :
    (t.recordProbe utcOffset ok now).outageStart =
      if ok then (if t.lastOk = some false then none else t.outageStart)
      else if t.lastOk = some false then t.outageStart else some now := by
  have hcredit : (t.creditSinceProbe utcOffset now).outageStart = t.outageStart ∧
      (t.creditSinceProbe utcOffset now).lastOk = t.lastOk := by
    unfold Tracker.creditSinceProbe
    split
    · exact ⟨rfl, rfl⟩
    · exact ⟨rfl, rfl⟩
  show ((t.creditSinceProbe utcOffset now).changeState utcOffset ok now).outageStart = _
  rw [← hcredit.1, ← hcredit.2]
  generalize t.creditSinceProbe utcOffset now = u
  unfold Tracker.changeState Tracker.closeOutage
  cases hstate : u.lastOk with
  | none => cases ok <;> rfl
  | some was =>
    cases was with
    | true => cases ok <;> rfl
    | false =>
      cases ok with
      | false => rfl
      | true =>
        cases hstart : u.outageStart with
        | none => exact hstart
        | some startTs => rfl

theorem Agree.recordProbe (h : Agree first t u) (ok : Bool) (now : ℚ) :
    Agree first (t.recordProbe utcOffset ok now) (u.recordProbe utcOffset ok now) where
  bucketAt := by
    intro key hkey
    show ServerUptime.bucketAt ((t.creditSinceProbe utcOffset now).changeState utcOffset ok now).hourly key =
      ServerUptime.bucketAt ((u.creditSinceProbe utcOffset now).changeState utcOffset ok now).hourly key
    rw [changeState_hourly, changeState_hourly]
    unfold Tracker.creditSinceProbe
    rw [h.lastProbeAt, h.lastOk]
    cases u.lastProbeAt with
    | none => exact h.bucketAt key hkey
    | some last =>
      cases u.lastOk with
      | none => exact h.bucketAt key hkey
      | some online =>
        show ServerUptime.bucketAt (addDuration utcOffset t.hourly last now online) key =
          ServerUptime.bucketAt (addDuration utcOffset u.hourly last now online) key
        unfold addDuration
        split_ifs
        · exact h.bucketAt key hkey
        · exact bucketAt_creditLoop (h.bucketAt key hkey) _ _ _ _
  lastOk := rfl
  lastProbeAt := rfl
  outageStart := by
    rw [outageStart_recordProbe, outageStart_recordProbe, h.lastOk, h.outageStart]

theorem Agree.prune (h : Agree first t u) {savedAt : ℚ}
    (hsaved : hourOf utcOffset (savedAt - hourlyRetentionS) ≤ first) :
    Agree first (t.prune utcOffset savedAt) u where
  bucketAt := by
    intro key hkey
    rw [← h.bucketAt key hkey]
    exact bucketAt_filter (hsaved.trans hkey)
  lastOk := h.lastOk
  lastProbeAt := h.lastProbeAt
  outageStart := h.outageStart

/-! ### Runs of probes -/

/-- A probe: its result, its moment, and the moment at which the tracker is saved. -/
structure Probe where
  ok : Bool
  ts : ℚ
  savedAt : ℚ

/-- The tracker that every probe saves. -/
def saved (utcOffset : ℚ) (probes : List Probe) : Tracker :=
  Run.final (fun t p => t.probe utcOffset p.ok p.ts p.savedAt) {} probes

/-- The tracker that keeps everything. -/
def unpruned (utcOffset : ℚ) (probes : List Probe) : Tracker :=
  Run.final (fun t p => t.recordProbe utcOffset p.ok p.ts) {} probes

theorem hourOf_mono {a b : ℚ} (h : a ≤ b) : hourOf utcOffset a ≤ hourOf utcOffset b := by
  unfold hourOf
  exact Int.floor_mono (by linarith)

theorem hourOf_sub (ts : ℚ) (hours : ℤ) :
    hourOf utcOffset (ts - hours * 3600) = hourOf utcOffset ts - hours := by
  unfold hourOf
  rw [← Int.floor_sub_intCast]
  congr 1
  ring

theorem hourOf_retention (utcOffset savedAt : ℚ) :
    hourOf utcOffset (savedAt - hourlyRetentionS) = hourOf utcOffset savedAt - 48 := hourOf_sub savedAt 48

theorem agree_final {first : ℤ} {probes : List Probe}
    (hsaved : ∀ p ∈ probes, hourOf utcOffset (p.savedAt - hourlyRetentionS) ≤ first)
    (h : Agree first t u) :
    Agree first (Run.final (fun t p => t.probe utcOffset p.ok p.ts p.savedAt) t probes)
      (Run.final (fun t p => t.recordProbe utcOffset p.ok p.ts) u probes) := by
  induction probes generalizing t u with
  | nil => exact h
  | cons p probes ih =>
    obtain ⟨hp, hrest⟩ := List.forall_mem_cons.mp hsaved
    exact ih hrest ((h.recordProbe p.ok p.ts).prune hp)

/-- What a row says about time. -/
def HourlyUptimeRow.time (r : HourlyUptimeRow) : ℤ × Option ℚ × ℚ := (r.hour, r.uptimePct, r.offlineS)

theorem Agree.projectedHourly (h : Agree first t u) (now : ℚ) {key : ℤ} (hkey : first ≤ key) :
    ServerUptime.bucketAt (projectedHourly utcOffset t.hourly now t.lastOk t.lastProbeAt) key =
      ServerUptime.bucketAt (projectedHourly utcOffset u.hourly now u.lastOk u.lastProbeAt) key := by
  rw [h.lastOk, h.lastProbeAt]
  unfold ServerUptime.projectedHourly
  cases u.lastProbeAt with
  | none => exact h.bucketAt key hkey
  | some last =>
    cases u.lastOk with
    | none => exact h.bucketAt key hkey
    | some online =>
      dsimp only
      split_ifs
      · exact h.bucketAt key hkey
      · exact bucketAt_creditLoop (h.bucketAt key hkey) _ _ _ _

/-- **Pruning is not seen.**  Whatever the probes and their moments, if the tracker was never saved after
`now`, then the view at `now` shows the hours, the offline time and the current outage that it would show
had nothing been dropped. -/
theorem view_saved (utcOffset : ℚ) (probes : List Probe) (now : ℚ)
    (hnow : ∀ p ∈ probes, p.savedAt ≤ now) :
    let v := (saved utcOffset probes).view utcOffset now
    let full := (unpruned utcOffset probes).view utcOffset now
    v.hours.map HourlyUptimeRow.time = full.hours.map HourlyUptimeRow.time ∧
      v.offlineS24h = full.offlineS24h ∧ v.currentOk = full.currentOk ∧
      v.currentOutageS = full.currentOutageS := by
  intro v full
  have hagree : Agree (hourOf utcOffset (now - hourlyRetentionS)) (saved utcOffset probes)
      (unpruned utcOffset probes) :=
    agree_final (fun p hp => hourOf_mono (sub_le_sub_right (hnow p hp) _))
      ⟨fun _ _ => rfl, rfl, rfl, rfl⟩
  have hfirst : hourOf utcOffset (now - hourlyRetentionS) = hourOf utcOffset now - 48 :=
    hourOf_retention utcOffset now
  have hwindow : hourOf utcOffset (now - 23 * 3600) = hourOf utcOffset now - 23 := hourOf_sub now 23
  have hbucket : ∀ key, hourOf utcOffset now - 48 ≤ key →
      bucketAt (projectedHourly utcOffset (saved utcOffset probes).hourly now
          (saved utcOffset probes).lastOk (saved utcOffset probes).lastProbeAt) key =
        bucketAt (projectedHourly utcOffset (unpruned utcOffset probes).hourly now
          (unpruned utcOffset probes).lastOk (unpruned utcOffset probes).lastProbeAt) key :=
    fun key hkey => hagree.projectedHourly now (hfirst ▸ hkey)
  refine ⟨?_, ?_, ?_, ?_⟩
  · show List.map _ (List.map _ _) = List.map _ (List.map _ _)
    rw [List.map_map, List.map_map]
    apply List.map_congr_left
    intro offset hoffset
    have hlt : offset < 6 := List.mem_range.mp hoffset
    show HourlyUptimeRow.time (Tracker.row ..) = HourlyUptimeRow.time (Tracker.row ..)
    unfold HourlyUptimeRow.time Tracker.row
    rw [hbucket _ (by omega)]
  · show (List.map _ _).sum = (List.map _ _).sum
    congr 1
    apply List.map_congr_left
    intro offset _
    rw [hbucket _ (by omega)]
  · show (saved utcOffset probes).lastOk.getD false = (unpruned utcOffset probes).lastOk.getD false
    rw [hagree.lastOk]
  · show (saved utcOffset probes).currentOutageS now = (unpruned utcOffset probes).currentOutageS now
    unfold Tracker.currentOutageS
    rw [hagree.lastOk, hagree.lastProbeAt, hagree.outageStart]

/-- Two days and a half with a failure in the middle; the first hours are dropped. -/
theorem view_saved_days :
    (∀ p ∈ [Probe.mk true 0 0, Probe.mk false 100000 100000, Probe.mk true 200000 200001],
      p.savedAt ≤ (210000 : ℚ)) ∧
    ((saved 0 [⟨true, 0, 0⟩, ⟨false, 100000, 100000⟩, ⟨true, 200000, 200001⟩]).view 0 210000).offlineS24h =
      ((unpruned 0 [⟨true, 0, 0⟩, ⟨false, 100000, 100000⟩, ⟨true, 200000, 200001⟩]).view 0
        210000).offlineS24h :=
  ⟨by decide +kernel, (view_saved 0 _ 210000 (by decide +kernel)).2.1⟩

/-! ### The size of what is saved -/

/-- The buckets have distinct hours, none after any bound on the probes. -/
structure Dated (utcOffset : ℚ) (probes : List Probe) (t : Tracker) : Prop where
  distinct : Distinct t.hourly
  hour : ∀ e ∈ t.hourly, ∃ p ∈ probes, e.1 ≤ hourOf utcOffset p.ts

variable {probes : List Probe}

/-- The time since the last probe is credited to no hour after this one. -/
theorem hour_addDuration {a b : ℚ} (hab : a < b) (online : Bool) {e : ℤ × Bucket}
    (he : e ∈ addDuration utcOffset hourly a b online) :
    (∃ e' ∈ hourly, e'.1 = e.1) ∨ e.1 ≤ hourOf utcOffset b := by
  refine addDuration_rule (P := fun _ h => ∀ e ∈ h, (∃ e' ∈ hourly, e'.1 = e.1) ∨
    e.1 ≤ hourOf utcOffset b) ?_ hab.le (fun e he => Or.inl ⟨e, he, rfl⟩) e he
  intro cursor chunkEnd hour h hP hlt hle hlo _ e he
  rcases fst_credit (List.mem_map_of_mem he) with heq | hmem
  · -- the chunk begins in its hour, and before the end
    refine Or.inr ?_
    rw [heq]
    have hhour : hour ≤ hourOf utcOffset cursor := by
      unfold hourOf
      rw [Int.le_floor, le_div_iff₀ (by norm_num)]
      unfold hourStart at hlo
      linarith
    exact hhour.trans (hourOf_mono (hlt.le.trans hle))
  · obtain ⟨e', he', hkey⟩ := List.mem_map.mp hmem
    rw [← hkey]
    exact hP e' he'

theorem Dated.creditSinceProbe (h : Dated utcOffset probes t) (p : Probe) :
    Distinct (t.creditSinceProbe utcOffset p.ts).hourly ∧
      ∀ e ∈ (t.creditSinceProbe utcOffset p.ts).hourly,
        ∃ q ∈ probes ++ [p], e.1 ≤ hourOf utcOffset q.ts := by
  have hold : ∀ e ∈ t.hourly, ∃ q ∈ probes ++ [p], e.1 ≤ hourOf utcOffset q.ts := by
    intro e he
    obtain ⟨q, hq, hle⟩ := h.hour e he
    exact ⟨q, List.mem_append_left _ hq, hle⟩
  unfold Tracker.creditSinceProbe
  split
  next last online _ _ =>
    rcases lt_or_ge last p.ts with hlt | hge
    · refine ⟨h.distinct.addDuration hlt.le online, fun e he => ?_⟩
      rcases hour_addDuration hlt online he with ⟨e', he', hkey⟩ | hle
      · exact hkey ▸ hold e' he'
      · exact ⟨p, List.mem_append_right _ (List.mem_singleton_self p), hle⟩
    · show Distinct (addDuration ..) ∧ ∀ e ∈ addDuration .., _
      rw [addDuration_of_le hge]
      exact ⟨h.distinct, hold⟩
  next => exact ⟨h.distinct, hold⟩

theorem Dated.probe (h : Dated utcOffset probes t) (p : Probe) :
    Dated utcOffset (probes ++ [p]) (t.probe utcOffset p.ok p.ts p.savedAt) := by
  obtain ⟨hdistinct, hhour⟩ := h.creditSinceProbe p
  have hsame : ((t.creditSinceProbe utcOffset p.ts).changeState utcOffset p.ok p.ts).hourly =
      (t.creditSinceProbe utcOffset p.ts).hourly := changeState_hourly _ p.ok p.ts
  rw [← hsame] at hdistinct hhour
  exact ⟨hdistinct.sublist (List.filter_sublist.map Prod.fst),
    fun e he => hhour e (List.mem_of_mem_filter he)⟩

theorem dated_saved (utcOffset : ℚ) (probes : List Probe) :
    Dated utcOffset probes (saved utcOffset probes) := by
  induction probes using List.reverseRecOn with
  | nil => exact ⟨List.nodup_nil, fun _ h => nomatch h⟩
  | append_singleton probes p ih =>
    unfold saved
    rw [Run.final_append]
    exact ih.probe p

/-- **What is saved is bounded.**  However many probes there were and whatever they found, if no probe was
later than the last save, then the tracker keeps at most 49 hours, the one of the save and the 48 before
it, and 200 outages. -/
theorem bounded_saved (utcOffset : ℚ) (before : List Probe) (p : Probe)
    (hlast : ∀ q ∈ before ++ [p], q.ts ≤ p.savedAt) :
    (saved utcOffset (before ++ [p])).hourly.length ≤ 49 ∧
      (saved utcOffset (before ++ [p])).outages.length ≤ maxOutages := by
  have hdated := dated_saved utcOffset (before ++ [p])
  have hsaved : saved utcOffset (before ++ [p]) =
      (saved utcOffset before).probe utcOffset p.ok p.ts p.savedAt := Run.final_append
  constructor
  · let last := hourOf utcOffset p.savedAt
    have hrange : ∀ hour ∈ (saved utcOffset (before ++ [p])).hourly.map Prod.fst,
        hour ∈ Finset.Icc (last - 48) last := by
      intro hour hmem
      obtain ⟨e, he, rfl⟩ := List.mem_map.mp hmem
      obtain ⟨q, hq, hle⟩ := hdated.hour e he
      have hhigh : e.1 ≤ last := hle.trans (hourOf_mono (hlast q hq))
      rw [hsaved] at he
      have hlow := of_decide_eq_true (List.mem_filter.mp he).2
      rw [hourOf_retention] at hlow
      exact Finset.mem_Icc.mpr ⟨hlow, hhigh⟩
    have hcard := Finset.card_le_card (fun hour h => hrange hour (List.mem_toFinset.mp h))
    rw [List.toFinset_card_of_nodup hdated.distinct, List.length_map, Int.card_Icc] at hcard
    omega
  · rw [hsaved]
    unfold Tracker.probe Tracker.prune List.rtake
    dsimp only
    rw [List.length_drop, Nat.sub_sub_eq_min]
    exact min_le_right _ _

theorem bounded_saved_days :
    (∀ q ∈ [Probe.mk true 0 0] ++ [Probe.mk false 300000 300001], q.ts ≤ (300001 : ℚ)) ∧
    (saved 0 ([⟨true, 0, 0⟩] ++ [⟨false, 300000, 300001⟩])).hourly.length ≤ 49 :=
  ⟨by decide +kernel, (bounded_saved 0 [⟨true, 0, 0⟩] ⟨false, 300000, 300001⟩ (by decide +kernel)).1⟩

end XenMiner.ServerUptime
