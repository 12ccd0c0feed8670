import XenMiner.Lib.Overlap
import XenMiner.Lib.Run
import XenMiner.Monitoring.ServerUptime
import Mathlib.Algebra.BigOperators.Group.List.Basic
import Mathlib.Data.List.Nodup
import Mathlib.Tactic.NormNum
import Mathlib.Tactic.Ring

/-!
# Uptime bookkeeping conserves time

The splitting loop credits an interval to each hour by the length of its part in that hour
(`secondsAt_addDuration`), so the buckets hold, for each hour and state, the parts of the intervals
between probes (`secondsAt_afterProbes`), and altogether the time since the first probe.  Outages are kept
by their ends, not by the loop, and still account for the same offline time (`Balanced`).
-/

namespace XenMiner.ServerUptime

variable {utcOffset : ℚ} {hourly : List (ℤ × Bucket)} {t : Tracker}

/-! ### Buckets -/

theorem seconds_empty (online : Bool) : ({} : Bucket).seconds online = 0 := by
  cases online <;> rfl

theorem seconds_add (b : Bucket) (online field : Bool) (s : ℚ) :
    (b.add online s).seconds field = b.seconds field + if online = field then s else 0 := by
  cases online <;> cases field <;> simp [Bucket.add, Bucket.seconds]

/-- The seconds an hour has in one field. -/
def secondsAt (hourly : List (ℤ × Bucket)) (hour : ℤ) (online : Bool) : ℚ :=
  (hourly.map fun e => if e.1 = hour then e.2.seconds online else 0).sum

/-- The seconds all hours have in one field. -/
def total (hourly : List (ℤ × Bucket)) (online : Bool) : ℚ :=
  (hourly.map fun e => e.2.seconds online).sum

/-- Every hour has one bucket. -/
def Distinct (hourly : List (ℤ × Bucket)) : Prop := (hourly.map Prod.fst).Nodup

/-- A sum over the buckets to which a credit in one hour adds `g`. -/
theorem sum_credit {f : ℤ × Bucket → ℚ} {hour : ℤ} {online : Bool} {s g : ℚ}
    (hnew : f (hour, ({} : Bucket).add online s) = g)
    (hadd : ∀ b, f (hour, b.add online s) = f (hour, b) + g) (hourly : List (ℤ × Bucket)) :
    ((credit hour online s hourly).map f).sum = (hourly.map f).sum + g := by
  induction hourly with
  | nil => simp [credit, hnew]
  | cons e rest ih =>
    obtain ⟨key, b⟩ := e
    unfold credit
    split_ifs with hkey
    · rw [hkey, List.map_cons, List.map_cons, List.sum_cons, List.sum_cons, hadd]
      ring
    · rw [List.map_cons, List.map_cons, List.sum_cons, List.sum_cons, ih]
      ring

theorem secondsAt_credit (hour key : ℤ) (online field : Bool) (s : ℚ) :
    secondsAt (credit hour online s hourly) key field =
      secondsAt hourly key field + if hour = key ∧ online = field then s else 0 := by
  unfold secondsAt
  apply sum_credit
  · by_cases hkey : hour = key <;> simp [hkey, seconds_add, seconds_empty]
  · intro b
    by_cases hkey : hour = key <;> simp [hkey, seconds_add]

theorem total_credit (hour : ℤ) (online field : Bool) (s : ℚ) :
    total (credit hour online s hourly) field =
      total hourly field + if online = field then s else 0 := by
  unfold total
  apply sum_credit
  · simp [seconds_add, seconds_empty]
  · intro b
    exact seconds_add b online field s

theorem fst_credit {hour k : ℤ} {online : Bool} {s : ℚ}
    (h : k ∈ (credit hour online s hourly).map Prod.fst) : k = hour ∨ k ∈ hourly.map Prod.fst := by
  induction hourly with
  | nil => exact Or.inl (by simpa [credit] using h)
  | cons e rest ih =>
    obtain ⟨key, b⟩ := e
    unfold credit at h
    split_ifs at h with hkey
    · exact Or.inr (by simpa using h)
    · rcases List.mem_cons.mp h with hk | hk
      · exact Or.inr (List.mem_cons.mpr (Or.inl hk))
      · rcases ih hk with hk | hk
        · exact Or.inl hk
        · exact Or.inr (List.mem_cons_of_mem _ hk)

/-- A credit goes to the bucket of its hour, or makes it. -/
theorem Distinct.credit (h : Distinct hourly) (hour : ℤ) (online : Bool) (s : ℚ) :
    Distinct (credit hour online s hourly) := by
  induction hourly with
  | nil => exact List.nodup_cons.mpr ⟨List.not_mem_nil, List.nodup_nil⟩
  | cons e rest ih =>
    obtain ⟨key, b⟩ := e
    obtain ⟨hfresh, hrest⟩ := List.nodup_cons.mp h
    unfold ServerUptime.credit
    split_ifs with hkey
    · exact h
    · refine List.nodup_cons.mpr ⟨fun hmem => ?_, ih hrest⟩
      rcases fst_credit hmem with heq | hmem
      · exact hkey heq
      · exact hfresh hmem

/-- The seconds of an hour are those of its bucket. -/
theorem Distinct.secondsAt_eq (h : Distinct hourly) {hour : ℤ} {b : Bucket}
    (hmem : (hour, b) ∈ hourly) (online : Bool) : secondsAt hourly hour online = b.seconds online := by
  induction hourly with
  | nil => cases hmem
  | cons e rest ih =>
    obtain ⟨hfresh, hrest⟩ := List.nodup_cons.mp h
    unfold secondsAt at ih ⊢
    rw [List.map_cons, List.sum_cons]
    rcases List.mem_cons.mp hmem with heq | hmem
    · have hzero : (rest.map fun e => if e.1 = hour then e.2.seconds online else 0).sum = 0 := by
        refine List.sum_eq_zero fun x hx => ?_
        obtain ⟨e', he', rfl⟩ := List.mem_map.mp hx
        refine if_neg fun heq' => hfresh ?_
        rw [← heq]
        exact List.mem_map.mpr ⟨e', he', heq'⟩
      rw [hzero, ← heq, if_pos rfl, add_zero]
    · have hother : e.1 ≠ hour := by
        rintro rfl
        exact hfresh (List.mem_map.mpr ⟨_, hmem, rfl⟩)
      rw [if_neg hother, zero_add]
      exact ih hrest hmem

/-! ### The splitting loop -/

/-- Where an hour starts. -/
def hourStart (utcOffset : ℚ) (hour : ℤ) : ℚ := hour * 3600 - utcOffset

/-- The part of an interval in an hour. -/
def partIn (utcOffset : ℚ) (hour : ℤ) (startTs endTs : ℚ) : ℚ :=
  overlap startTs endTs (hourStart utcOffset hour) (hourEnd utcOffset hour)

theorem hourOf_bounds (utcOffset ts : ℚ) : hourStart utcOffset (hourOf utcOffset ts) ≤ ts ∧
    ts < hourEnd utcOffset (hourOf utcOffset ts) := by
  have hlow := Int.floor_le ((ts + utcOffset) / 3600)
  have hhigh := Int.lt_floor_add_one ((ts + utcOffset) / 3600)
  rw [le_div_iff₀ (by norm_num)] at hlow
  rw [div_lt_iff₀ (by norm_num)] at hhigh
  unfold hourStart hourEnd hourOf
  constructor <;> linarith

theorem hourStart_succ (utcOffset : ℚ) (hour : ℤ) :
    hourStart utcOffset (hour + 1) = hourEnd utcOffset hour := by
  unfold hourStart hourEnd
  push_cast
  ring

theorem hourStart_mono {i j : ℤ} (h : i ≤ j) : hourStart utcOffset i ≤ hourStart utcOffset j := by
  have h' : (i : ℚ) ≤ j := by exact_mod_cast h
  unfold hourStart
  linarith

/-- A timestamp at the end of an hour lies in the next one. -/
theorem hourOf_hourEnd (utcOffset : ℚ) (hour : ℤ) :
    hourOf utcOffset (hourEnd utcOffset hour) = hour + 1 := by
  unfold hourOf hourEnd
  have hval : ((hour + 1) * 3600 - utcOffset + utcOffset) / 3600 = ((hour + 1 : ℤ) : ℚ) := by
    push_cast
    ring
  rw [hval, Int.floor_intCast]

/-- A chunk inside one hour lies in no other. -/
theorem partIn_chunk {hour : ℤ} {a b : ℚ} (hab : a ≤ b) (hlo : hourStart utcOffset hour ≤ a)
    (hhi : b ≤ hourEnd utcOffset hour) (key : ℤ) :
    partIn utcOffset key a b = if hour = key then b - a else 0 := by
  unfold partIn
  split_ifs with hkey
  · rw [← hkey]
    exact overlap_of_subset hab hlo hhi
  · rcases lt_or_gt_of_ne hkey with hlt | hgt
    · refine overlap_of_before (hhi.trans ?_)
      rw [← hourStart_succ]
      exact hourStart_mono (by omega)
    · refine overlap_of_after (le_trans ?_ hlo)
      rw [← hourStart_succ]
      exact hourStart_mono (by omega)

/-- The loop has fuel for the hours that are left. -/
def Enough (utcOffset : ℚ) (fuel : ℕ) (cursor endTs : ℚ) : Prop :=
  endTs ≤ cursor ∨ hourOf utcOffset endTs - hourOf utcOffset cursor < fuel

theorem enough_hoursBetween (utcOffset cursor endTs : ℚ) :
    Enough utcOffset (hoursBetween utcOffset cursor endTs) cursor endTs := by
  unfold Enough hoursBetween
  by_cases h : endTs ≤ cursor
  · exact Or.inl h
  · omega

/-- **Rule for the splitting loop.**  What is kept by crediting one chunk of one hour, with `P` of the
cursor and the buckets, holds at the end. -/
theorem creditLoop_rule {online : Bool} {endTs : ℚ} {P : ℚ → List (ℤ × Bucket) → Prop}
    (hstep : ∀ cursor chunkEnd hour hourly, P cursor hourly → cursor < chunkEnd → chunkEnd ≤ endTs →
      hourStart utcOffset hour ≤ cursor → chunkEnd ≤ hourEnd utcOffset hour →
      P chunkEnd (credit hour online (chunkEnd - cursor) hourly)) :
    ∀ (fuel : ℕ) (cursor : ℚ) (hourly : List (ℤ × Bucket)), cursor ≤ endTs →
      Enough utcOffset fuel cursor endTs → P cursor hourly →
      P endTs (creditLoop utcOffset online endTs fuel cursor hourly) := by
  intro fuel
  induction fuel with
  | zero =>
    intro cursor hourly hle henough hP
    have hge : endTs ≤ cursor := by
      rcases henough with hge | hlt
      · exact hge
      · by_contra hcur
        have hmono : hourOf utcOffset cursor ≤ hourOf utcOffset endTs := by
          unfold hourOf
          exact Int.floor_mono (by linarith [not_le.mp hcur])
        omega
    rw [le_antisymm hge hle]
    exact hP
  | succ fuel ih =>
    intro cursor hourly hle henough hP
    unfold creditLoop
    split_ifs with hlt
    · dsimp only
      obtain ⟨hlo, hhi⟩ := hourOf_bounds utcOffset cursor
      refine ih _ _ (min_le_left _ _) ?_ (hstep _ _ _ _ hP (lt_min hlt hhi) (min_le_left _ _) hlo
        (min_le_right _ _))
      -- the cursor reaches the end, or goes to the next hour
      rcases le_total endTs (hourEnd utcOffset (hourOf utcOffset cursor)) with hend | hend
      · rw [min_eq_left hend]
        exact Or.inl le_rfl
      · rw [min_eq_right hend]
        unfold Enough
        rw [hourOf_hourEnd]
        rcases henough with hge | hleft
        · exact absurd hlt (not_lt.mpr hge)
        · exact Or.inr (by push_cast at hleft; omega)
    · rw [le_antisymm (not_lt.mp hlt) hle]
      exact hP

theorem addDuration_of_lt {a b : ℚ} {online : Bool} (h : a < b) :
    addDuration utcOffset hourly a b online =
      creditLoop utcOffset online b (hoursBetween utcOffset a b) a hourly := if_neg (not_le.mpr h)

theorem addDuration_of_le {a b : ℚ} {online : Bool} (h : b ≤ a) :
    addDuration utcOffset hourly a b online = hourly := if_pos h

/-- Rule for `addDuration`, from the rule for its loop. -/
theorem addDuration_rule {online : Bool} {a b : ℚ} {P : ℚ → List (ℤ × Bucket) → Prop}
    (hstep : ∀ cursor chunkEnd hour hourly, P cursor hourly → cursor < chunkEnd → chunkEnd ≤ b →
      hourStart utcOffset hour ≤ cursor → chunkEnd ≤ hourEnd utcOffset hour →
      P chunkEnd (credit hour online (chunkEnd - cursor) hourly))
    (hab : a ≤ b) (hP : P a hourly) : P b (addDuration utcOffset hourly a b online) := by
  rcases hab.lt_or_eq with hlt | rfl
  · rw [addDuration_of_lt hlt]
    exact creditLoop_rule hstep _ _ _ hab (enough_hoursBetween _ _ _) hP
  · rw [addDuration_of_le le_rfl]
    exact hP

/-- **An interval is credited to the hours it lies in**, each by its part, in its field. -/
theorem secondsAt_addDuration {a b : ℚ} (hab : a ≤ b) (key : ℤ) (online field : Bool) :
    secondsAt (addDuration utcOffset hourly a b online) key field =
      secondsAt hourly key field + if online = field then partIn utcOffset key a b else 0 := by
  refine addDuration_rule (P := fun cursor h => a ≤ cursor ∧ secondsAt h key field =
    secondsAt hourly key field + if online = field then partIn utcOffset key a cursor else 0)
    ?_ hab ⟨le_rfl, ?_⟩ |>.2
  · rintro cursor chunkEnd hour h ⟨hcur, hP⟩ hlt - hlo hhi
    refine ⟨hcur.trans hlt.le, ?_⟩
    rw [secondsAt_credit, hP, add_assoc]
    congr 1
    have hchunk := partIn_chunk hlt.le hlo hhi key
    have hwhole : partIn utcOffset key a cursor + partIn utcOffset key cursor chunkEnd =
        partIn utcOffset key a chunkEnd := overlap_add hcur hlt.le
    rw [hchunk] at hwhole
    by_cases hfield : online = field
    · simpa [hfield] using hwhole
    · simp [hfield]
  · have hnone : partIn utcOffset key a a = 0 := overlap_of_le le_rfl
    rw [hnone, ite_self, add_zero]

theorem total_addDuration {a b : ℚ} (hab : a ≤ b) (online field : Bool) :
    total (addDuration utcOffset hourly a b online) field =
      total hourly field + if online = field then b - a else 0 := by
  refine addDuration_rule (P := fun cursor h => total h field =
    total hourly field + if online = field then cursor - a else 0) ?_ hab ?_
  · intro cursor chunkEnd hour h hP _ _ _ _
    rw [total_credit, hP, add_assoc]
    congr 1
    split_ifs
    · ring
    · ring
  · rw [sub_self, ite_self, add_zero]

theorem Distinct.addDuration (h : Distinct hourly) {a b : ℚ} (hab : a ≤ b) (online : Bool) :
    Distinct (addDuration utcOffset hourly a b online) :=
  addDuration_rule (P := fun _ h => Distinct h) (fun _ _ _ _ hP _ _ _ _ => hP.credit _ _ _) hab h

/-! ### One probe -/

/-- The last probe was at `last` and found the state `ok`. -/
structure Seen (t : Tracker) (last : ℚ) (ok : Bool) : Prop where
  lastProbeAt : t.lastProbeAt = some last
  lastOk : t.lastOk = some ok

theorem seen_recordProbe (utcOffset : ℚ) (t : Tracker) (ok : Bool) (now : ℚ) :
    Seen (t.recordProbe utcOffset ok now) now ok := ⟨rfl, rfl⟩

theorem changeState_hourly (t : Tracker) (ok : Bool) (now : ℚ) :
    (t.changeState utcOffset ok now).hourly = t.hourly := by
  unfold Tracker.changeState
  split
  · rfl
  · rfl
  · unfold Tracker.closeOutage
    split <;> rfl
  · rfl

/-- The time since the last probe goes to the state of that probe. -/
theorem Seen.recordProbe_hourly {last : ℚ} {was : Bool} (h : Seen t last was) (utcOffset : ℚ)
    (ok : Bool) (now : ℚ) :
    (t.recordProbe utcOffset ok now).hourly = addDuration utcOffset t.hourly last now was := by
  show ((t.creditSinceProbe utcOffset now).changeState utcOffset ok now).hourly = _
  rw [changeState_hourly]
  simp [Tracker.creditSinceProbe, h.lastProbeAt, h.lastOk]

/-- The live view adds what a probe would store. -/
theorem Seen.projectedHourly {last : ℚ} {was : Bool} (h : Seen t last was) (now : ℚ) :
    projectedHourly utcOffset t.hourly now t.lastOk t.lastProbeAt =
      (t.recordProbe utcOffset was now).hourly := by
  rw [h.recordProbe_hourly, h.lastOk, h.lastProbeAt]
  rfl

/-! ### Outages -/

/-- The seconds of all closed outages. -/
def closedS (t : Tracker) : ℚ := (t.outages.map Outage.durationS).sum

/-- The age of the open outage at the last probe. -/
def openS (t : Tracker) : ℚ :=
  match t.outageStart, t.lastProbeAt with
  | some startTs, some last => last - startTs
  | _, _ => 0

/-- The outages account for the offline time, and one is open while the server is down. -/
structure Balanced (t : Tracker) (last : ℚ) (ok : Bool) : Prop extends Seen t last ok where
  up : ok = true → t.outageStart = none ∧ total t.hourly false = closedS t
  down : ok = false → ∃ startTs, t.outageStart = some startTs ∧ startTs ≤ last ∧
    total t.hourly false = closedS t + (last - startTs)

theorem Balanced.total_offline {last : ℚ} {ok : Bool} (h : Balanced t last ok) :
    total t.hourly false = closedS t + openS t := by
  cases ok with
  | true =>
    obtain ⟨hnone, htotal⟩ := h.up rfl
    simp [openS, hnone, htotal]
  | false =>
    obtain ⟨startTs, hstart, -, htotal⟩ := h.down rfl
    simp [openS, hstart, h.lastProbeAt, htotal]

/-- A closed outage accounts for the time it was open. -/
theorem closedS_closeOutage (utcOffset : ℚ) {startTs ts : ℚ} (hstart : t.outageStart = some startTs)
    (hle : startTs ≤ ts) : closedS (t.closeOutage utcOffset ts) = closedS t + (ts - startTs) := by
  have hduration : (Tracker.outageRecord utcOffset startTs ts).durationS = ts - startTs :=
    max_eq_right (sub_nonneg.mpr hle)
  unfold Tracker.closeOutage closedS
  rw [hstart]
  dsimp only
  split_ifs with hpos
  · rw [List.map_append, List.sum_append, List.map_singleton, List.sum_singleton, hduration]
  -- an outage without a duration leaves no record
  · rw [hduration] at hpos
    linarith

theorem Balanced.recordProbe {last now : ℚ} {was : Bool} (h : Balanced t last was)
    (hle : last ≤ now) (ok : Bool) : Balanced (t.recordProbe utcOffset ok now) now ok := by
  have hhourly := h.toSeen.recordProbe_hourly utcOffset ok now
  have htotal : total (t.recordProbe utcOffset ok now).hourly false =
      total t.hourly false + if was = false then now - last else 0 := by
    rw [hhourly, total_addDuration hle]
  refine ⟨seen_recordProbe _ t ok now, ?_, ?_⟩
  · rintro rfl
    cases was with
    | true =>
      obtain ⟨hnone, hoffline⟩ := h.up rfl
      refine ⟨?_, ?_⟩
      · simp [Tracker.recordProbe, Tracker.creditSinceProbe, Tracker.changeState, h.lastProbeAt,
          h.lastOk, hnone]
      · rw [htotal, if_neg (by simp), add_zero, hoffline]
        simp [closedS, Tracker.recordProbe, Tracker.creditSinceProbe, Tracker.changeState,
          h.lastProbeAt, h.lastOk]
    | false =>
      obtain ⟨startTs, hstart, hlast, hoffline⟩ := h.down rfl
      have hcredited : (t.creditSinceProbe utcOffset now).outageStart = some startTs := by
        simp [Tracker.creditSinceProbe, h.lastProbeAt, h.lastOk, hstart]
      have hclosed := closedS_closeOutage utcOffset hcredited (hlast.trans hle)
      have hbefore : closedS (t.creditSinceProbe utcOffset now) = closedS t := by
        simp [closedS, Tracker.creditSinceProbe, h.lastProbeAt, h.lastOk]
      have hafter : closedS (t.recordProbe utcOffset true now) =
          closedS ((t.creditSinceProbe utcOffset now).closeOutage utcOffset now) := by
        simp [closedS, Tracker.recordProbe, Tracker.changeState, Tracker.creditSinceProbe,
          h.lastProbeAt, h.lastOk]
      refine ⟨?_, ?_⟩
      · simp [Tracker.recordProbe, Tracker.creditSinceProbe, Tracker.changeState, h.lastProbeAt,
          h.lastOk, Tracker.closeOutage, hstart]
      · rw [htotal, if_pos rfl, hoffline, hafter, hclosed, hbefore]
        ring
  · rintro rfl
    have hsame : closedS (t.recordProbe utcOffset false now) = closedS t := by
      cases was <;>
        simp [closedS, Tracker.recordProbe, Tracker.creditSinceProbe, Tracker.changeState,
          Tracker.startOutage, h.lastProbeAt, h.lastOk]
    cases was with
    | true =>
      obtain ⟨-, hoffline⟩ := h.up rfl
      refine ⟨now, ?_, le_rfl, ?_⟩
      · simp [Tracker.recordProbe, Tracker.creditSinceProbe, Tracker.changeState,
          Tracker.startOutage, h.lastProbeAt, h.lastOk]
      · rw [htotal, if_neg (by simp), hoffline, hsame]
        ring
    | false =>
      obtain ⟨startTs, hstart, hlast, hoffline⟩ := h.down rfl
      refine ⟨startTs, ?_, hlast.trans hle, ?_⟩
      · simp [Tracker.recordProbe, Tracker.creditSinceProbe, Tracker.changeState, h.lastProbeAt,
          h.lastOk, hstart]
      · rw [htotal, if_pos rfl, hoffline, hsame]
        ring

/-! ### A sequence of probes -/

/-- The tracker after probes that found `(time, state)`. -/
def afterProbes (utcOffset : ℚ) (t : Tracker) (probes : List (ℚ × Bool)) : Tracker :=
  Run.final (fun t probe => t.recordProbe utcOffset probe.2 probe.1) t probes

/-- What an hour is due in one field: its parts of the intervals whose earlier probe found that
state. -/
def credited (utcOffset : ℚ) (hour : ℤ) (online : Bool) : List (ℚ × Bool) → ℚ
  | (ts, ok) :: (ts', ok') :: probes =>
    (if ok = online then partIn utcOffset hour ts ts' else 0) +
      credited utcOffset hour online ((ts', ok') :: probes)
  | _ => 0

/-- The probes after `last`, in the order of their times. -/
def Ordered (last : ℚ) (probes : List (ℚ × Bool)) : Prop :=
  ((last :: probes.map Prod.fst).Pairwise (· ≤ ·))

theorem Ordered.head {last : ℚ} {probe : ℚ × Bool} {probes : List (ℚ × Bool)}
    (h : Ordered last (probe :: probes)) : last ≤ probe.1 := (List.pairwise_cons.mp h).1 _ (by simp)

theorem Ordered.tail {last : ℚ} {probe : ℚ × Bool} {probes : List (ℚ × Bool)}
    (h : Ordered last (probe :: probes)) : Ordered probe.1 probes := (List.pairwise_cons.mp h).2

theorem Ordered.le_last {last : ℚ} {ok : Bool} {probes : List (ℚ × Bool)} (h : Ordered last probes) :
    last ≤ (((last, ok) :: probes).getLast (by simp)).1 := by
  induction probes generalizing last ok with
  | nil => exact le_rfl
  | cons probe probes ih =>
    rw [List.getLast_cons_cons]
    exact h.head.trans (ih h.tail)

theorem secondsAt_afterProbes (utcOffset : ℚ) {last : ℚ} {was : Bool} {probes : List (ℚ × Bool)}
    (h : Seen t last was) (hmono : Ordered last probes) (hour : ℤ) (online : Bool) :
    secondsAt (afterProbes utcOffset t probes).hourly hour online =
      secondsAt t.hourly hour online + credited utcOffset hour online ((last, was) :: probes) := by
  induction probes generalizing t last was with
  | nil => simp [afterProbes, credited]
  | cons probe probes ih =>
    obtain ⟨now, ok⟩ := probe
    have hrest := ih (seen_recordProbe utcOffset t ok now) hmono.tail
    show secondsAt (afterProbes utcOffset (t.recordProbe utcOffset ok now) probes).hourly hour online
      = _
    rw [hrest, h.recordProbe_hourly, secondsAt_addDuration hmono.head, credited, add_assoc]

theorem total_afterProbes (utcOffset : ℚ) {last : ℚ} {was : Bool} {probes : List (ℚ × Bool)}
    (h : Seen t last was) (hmono : Ordered last probes) :
    total (afterProbes utcOffset t probes).hourly true +
        total (afterProbes utcOffset t probes).hourly false =
      total t.hourly true + total t.hourly false +
        ((((last, was) :: probes).getLast (by simp)).1 - last) := by
  induction probes generalizing t last was with
  | nil => simp [afterProbes]
  | cons probe probes ih =>
    obtain ⟨now, ok⟩ := probe
    have hrest := ih (seen_recordProbe utcOffset t ok now) hmono.tail
    have honline (field : Bool) : total (t.recordProbe utcOffset ok now).hourly field =
        total t.hourly field + if was = field then now - last else 0 := by
      rw [h.recordProbe_hourly, total_addDuration hmono.head]
    rw [honline, honline] at hrest
    show total (afterProbes utcOffset (t.recordProbe utcOffset ok now) probes).hourly true +
      total (afterProbes utcOffset (t.recordProbe utcOffset ok now) probes).hourly false = _
    rw [hrest, List.getLast_cons_cons]
    cases was
    · simp
      ring
    · simp
      ring

theorem Balanced.afterProbes {last : ℚ} {was : Bool} {probes : List (ℚ × Bool)}
    (h : Balanced t last was) (hmono : Ordered last probes) :
    Balanced (afterProbes utcOffset t probes) (((last, was) :: probes).getLast (by simp)).1
      (((last, was) :: probes).getLast (by simp)).2 := by
  induction probes generalizing t last was with
  | nil => exact h
  | cons probe probes ih => exact ih (h.recordProbe hmono.head probe.2) hmono.tail

theorem distinct_afterProbes (utcOffset : ℚ) {last : ℚ} {was : Bool} {probes : List (ℚ × Bool)}
    (hseen : Seen t last was) (h : Distinct t.hourly) (hmono : Ordered last probes) :
    Distinct (afterProbes utcOffset t probes).hourly := by
  induction probes generalizing t last was with
  | nil => exact h
  | cons probe probes ih =>
    refine ih (seen_recordProbe _ t probe.2 probe.1) ?_ hmono.tail
    rw [hseen.recordProbe_hourly]
    exact h.addDuration hmono.head was

/-- An hour is due its part of the whole time. -/
theorem credited_both {last : ℚ} {was : Bool} {probes : List (ℚ × Bool)} (hmono : Ordered last probes)
    (hour : ℤ) : credited utcOffset hour true ((last, was) :: probes) +
      credited utcOffset hour false ((last, was) :: probes) =
      partIn utcOffset hour last (((last, was) :: probes).getLast (by simp)).1 := by
  induction probes generalizing last was with
  | nil =>
    have hnone : partIn utcOffset hour last last = 0 := overlap_of_le le_rfl
    simp [credited, hnone]
  | cons probe probes ih =>
    obtain ⟨now, ok⟩ := probe
    have hrest := @ih now ok hmono.tail
    have hwhole : partIn utcOffset hour last now + partIn utcOffset hour now
        (((now, ok) :: probes).getLast (by simp)).1 =
        partIn utcOffset hour last (((now, ok) :: probes).getLast (by simp)).1 :=
      overlap_add hmono.head hmono.tail.le_last
    rw [List.getLast_cons_cons, ← hwhole, ← hrest, credited, credited]
    cases was
    · simp
      ring
    · simp
      ring

/-- The first probe only sets the state. -/
theorem balanced_first (ok : Bool) (ts : ℚ) :
    Balanced (({} : Tracker).recordProbe utcOffset ok ts) ts ok := by
  refine ⟨seen_recordProbe _ _ ok ts, ?_, ?_⟩
  · rintro rfl
    exact ⟨rfl, rfl⟩
  · rintro rfl
    exact ⟨ts, rfl, le_rfl, by simp [Tracker.recordProbe, Tracker.creditSinceProbe,
      Tracker.changeState, Tracker.startOutage, total, closedS]⟩

theorem hourly_first (utcOffset : ℚ) (ok : Bool) (ts : ℚ) :
    (({} : Tracker).recordProbe utcOffset ok ts).hourly = [] := by
  cases ok <;> rfl

/-- **Uptime bookkeeping conserves time.**  After probes in the order of their times, the buckets
hold what each hour is due, no more than an hour each and altogether the time between the first
probe and the last; the outages account for the offline time; and the live view is what a probe with
the same state would store. -/
theorem uptime_conserved (utcOffset : ℚ) (first : ℚ × Bool) (probes : List (ℚ × Bool))
    (hmono : ((first :: probes).map Prod.fst).Pairwise (· ≤ ·)) :
    let t : Tracker := afterProbes utcOffset {} (first :: probes)
    let last := (first :: probes).getLast (by simp)
    (total t.hourly true + total t.hourly false = last.1 - first.1 ∧
      Distinct t.hourly ∧
      (∀ e ∈ t.hourly, e.2.onlineS + e.2.offlineS ≤ 3600) ∧
      ∀ hour online,
        secondsAt t.hourly hour online = credited utcOffset hour online (first :: probes)) ∧
    total t.hourly false = closedS t + openS t ∧
    ∀ now, last.1 ≤ now → projectedHourly utcOffset t.hourly now t.lastOk t.lastProbeAt =
      (t.recordProbe utcOffset last.2 now).hourly := by
  obtain ⟨ts, ok⟩ := first
  intro t last
  have hordered : Ordered ts probes := hmono
  have hfirst : Balanced (({} : Tracker).recordProbe utcOffset ok ts) ts ok := balanced_first ok ts
  have hempty := hourly_first utcOffset ok ts
  have hbalanced : Balanced t last.1 last.2 := hfirst.afterProbes hordered
  have hseconds (hour : ℤ) (online : Bool) :
      secondsAt t.hourly hour online = credited utcOffset hour online ((ts, ok) :: probes) := by
    have hrun := secondsAt_afterProbes utcOffset hfirst.toSeen hordered hour online
    rw [hempty] at hrun
    exact hrun.trans (zero_add _)
  have htotal : total t.hourly true + total t.hourly false = last.1 - ts := by
    have hrun := total_afterProbes utcOffset hfirst.toSeen hordered
    rw [hempty] at hrun
    exact hrun.trans (by simp [total, last])
  have hdistinct : Distinct t.hourly := by
    have hnil : Distinct (({} : Tracker).recordProbe utcOffset ok ts).hourly := by
      rw [hempty]
      exact List.nodup_nil
    have hrun := distinct_afterProbes utcOffset hfirst.toSeen hnil hordered
    exact hrun
  have hfull (e : ℤ × Bucket) (he : e ∈ t.hourly) : e.2.onlineS + e.2.offlineS ≤ 3600 := by
    have honline : e.2.onlineS = credited utcOffset e.1 true ((ts, ok) :: probes) := by
      rw [← hseconds, hdistinct.secondsAt_eq he]
      rfl
    have hoffline : e.2.offlineS = credited utcOffset e.1 false ((ts, ok) :: probes) := by
      rw [← hseconds, hdistinct.secondsAt_eq he]
      rfl
    have hhour : hourStart utcOffset e.1 ≤ hourEnd utcOffset e.1 := by
      rw [← hourStart_succ]
      exact hourStart_mono (by omega)
    have hpart : partIn utcOffset e.1 ts last.1 ≤ hourEnd utcOffset e.1 - hourStart utcOffset e.1 :=
      overlap_le hhour
    rw [honline, hoffline, credited_both hordered]
    refine hpart.trans (le_of_eq ?_)
    unfold hourEnd hourStart
    ring
  exact ⟨⟨htotal, hdistinct, hfull, hseconds⟩, hbalanced.total_offline,
    fun now _ => hbalanced.toSeen.projectedHourly now⟩

/-- Two hours up, then an outage over the end of an hour that is still open. -/
theorem uptime_conserved_outage :
    let probes : List (ℚ × Bool) := [(0, true), (7200, false), (10000, false), (11000, false)]
    let t := afterProbes 0 {} probes
    (total t.hourly true + total t.hourly false = 11000 - 0 ∧ Distinct t.hourly ∧
      (∀ e ∈ t.hourly, e.2.onlineS + e.2.offlineS ≤ 3600) ∧
      ∀ hour online, secondsAt t.hourly hour online = credited 0 hour online probes) ∧
    total t.hourly false = closedS t + openS t ∧
    ∀ now, 11000 ≤ now → projectedHourly 0 t.hourly now t.lastOk t.lastProbeAt =
      (t.recordProbe 0 false now).hourly :=
  uptime_conserved 0 (0, true) [(7200, false), (10000, false), (11000, false)] (by decide +kernel)

end XenMiner.ServerUptime
