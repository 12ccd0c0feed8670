import XenMiner.Lib.Run
import XenMiner.Monitoring.Timelapse
import Mathlib.Data.List.ReduceOption

/-!
# What the timeline shows

The deque of samples is bounded, and so is the time between two samples from below: a sample is pushed
out only after it has left the window, so the window is what the log has of it (`windowSamples_run`).
Each of these samples has its place on the chart, and the other places are dots (`sparkline_run`).  The
time between the first look at the network and the last one, or the end, is split into online and
offline (`uptime_run`).
-/

namespace XenMiner

open PyNum

namespace Timelapse

/-- Numbers at least `d` apart: the first and the last of them. -/
theorem add_length_mul_le {d x : ℚ} {xs : List ℚ} (h : (x :: xs).Pairwise fun a b => a + d ≤ b) :
    ∀ y ∈ (x :: xs).getLast?, x + xs.length * d ≤ y := by
  induction xs generalizing x with
  | nil =>
    intro y hy
    obtain rfl : x = y := by simpa using hy
    simp
  | cons x' xs ih =>
    intro y hy
    obtain ⟨hx, hrest⟩ := List.pairwise_cons.mp h
    rw [List.getLast?_cons_cons] at hy
    have hnext := hx x' List.mem_cons_self
    have hlast := ih hrest y hy
    rw [List.length_cons, Nat.cast_add, Nat.cast_one]
    linarith

namespace SessionTimelapse

variable {s s' : SessionTimelapse} {m : Moment} {now later : ℚ} {o : Observed} {sample : Sample}
  {width i : ℕ}

/-! ### The samples and the log -/

/-- The sample of a line. -/
def sampleOf : Record → Option Sample
  | .sample x => some x
  | _ => none

/-- The samples in the log. -/
def logged (s : SessionTimelapse) : List Sample := s.log.filterMap sampleOf

/-- Nothing of the samples has changed. -/
structure Frame (s s' : SessionTimelapse) : Prop where
  sampleIntervalS : s'.sampleIntervalS = s.sampleIntervalS
  windowS : s'.windowS = s.windowS
  maxSamples : s'.maxSamples = s.maxSamples
  started : s'.started = s.started
  lastSampleAt : s'.lastSampleAt = s.lastSampleAt
  samples : s'.samples = s.samples
  logged : s'.logged = s.logged

theorem Frame.refl (s : SessionTimelapse) : Frame s s := ⟨rfl, rfl, rfl, rfl, rfl, rfl, rfl⟩

theorem Frame.trans {s'' : SessionTimelapse} (h : Frame s s') (h' : Frame s' s'') : Frame s s'' where
  sampleIntervalS := h'.sampleIntervalS.trans h.sampleIntervalS
  windowS := h'.windowS.trans h.windowS
  maxSamples := h'.maxSamples.trans h.maxSamples
  started := h'.started.trans h.started
  lastSampleAt := h'.lastSampleAt.trans h.lastSampleAt
  samples := h'.samples.trans h.samples
  logged := h'.logged.trans h.logged

theorem frame_recordEvent (clock label : String) : Frame s (s.recordEvent now clock label) := by
  refine ⟨rfl, rfl, rfl, rfl, rfl, rfl, ?_⟩
  unfold logged recordEvent
  rw [List.filterMap_append]
  exact List.append_nil _

theorem frame_addElapsed : Frame s (s.addElapsed now) := by
  unfold addElapsed
  split
  · exact Frame.refl s
  · exact ⟨rfl, rfl, rfl, rfl, rfl, rfl, rfl⟩
  · exact ⟨rfl, rfl, rfl, rfl, rfl, rfl, rfl⟩

theorem frame_trackNetwork (networkOk : Bool) : Frame s (s.trackNetwork m networkOk) := by
  unfold trackNetwork
  dsimp only
  split_ifs
  · have hevent : Frame s ((s.addElapsed m.state).recordEvent m.event m.clock (netLabel networkOk)) :=
      frame_addElapsed.trans (frame_recordEvent _ _)
    exact hevent.trans ⟨rfl, rfl, rfl, rfl, rfl, rfl, rfl⟩
  · exact frame_addElapsed.trans ⟨rfl, rfl, rfl, rfl, rfl, rfl, rfl⟩

theorem frame_finalize (time : String) : Frame s (s.finalize now later time) := by
  have helapsed : Frame s (s.addElapsed now) := frame_addElapsed
  refine helapsed.trans ?_
  unfold finalize
  dsimp only
  split_ifs
  · refine ⟨rfl, rfl, rfl, rfl, rfl, rfl, ?_⟩
    unfold logged
    rw [List.filterMap_append]
    exact List.append_nil _
  · refine ⟨rfl, rfl, rfl, rfl, rfl, rfl, ?_⟩
    unfold logged
    rw [List.filterMap_append]
    exact List.append_nil _

/-- A sample is due. -/
def Due (s : SessionTimelapse) (now : ℚ) : Prop := s.sampleIntervalS ≤ now - s.lastSampleAt

theorem maybeSample_of_not_due (h : ¬ (s.trackNetwork m o.networkOk).Due now) :
    Frame s (s.maybeSample m now later o) := by
  unfold maybeSample
  dsimp only
  rw [if_pos (not_le.mp h)]
  exact frame_trackNetwork _

/-- The deque holds the last samples of the log, which are an interval apart. -/
structure Rolling (s : SessionTimelapse) : Prop where
  interval : 0 < s.sampleIntervalS
  kept : s.samples = s.logged.rtake s.maxSamples
  spaced : (s.logged.map Sample.wallTs).Pairwise fun a b => a + s.sampleIntervalS ≤ b
  last : ∀ x ∈ s.logged, x.wallTs ≤ s.lastSampleAt
  pos : ∀ x ∈ s.logged, 0 < x.wallTs
  lastSampleAt : 0 ≤ s.lastSampleAt
  room : s.windowS < s.maxSamples * s.sampleIntervalS

theorem Rolling.frame (h : s.Rolling) (hframe : Frame s s') : s'.Rolling := by
  obtain ⟨hinterval, hwindow, hmax, -, hlast, hsamples, hlogged⟩ := hframe
  constructor
  · rw [hinterval]
    exact h.interval
  · rw [hsamples, hlogged, hmax]
    exact h.kept
  · rw [hlogged, hinterval]
    exact h.spaced
  · rw [hlogged, hlast]
    exact h.last
  · rw [hlogged]
    exact h.pos
  · rw [hlast]
    exact h.lastSampleAt
  · rw [hwindow, hmax, hinterval]
    exact h.room

theorem rtake_concat_rtake {α : Type*} (l : List α) (x : α) (n : ℕ) :
    ((l.rtake n) ++ [x]).rtake n = (l ++ [x]).rtake n := by
  cases n with
  | zero => rw [List.rtake_zero, List.rtake_zero]
  | succ n =>
    rw [List.rtake_concat_succ, List.rtake_concat_succ]
    congr 1
    rw [List.rtake_eq_reverse_take_reverse, List.rtake_eq_reverse_take_reverse,
      List.rtake_eq_reverse_take_reverse, List.reverse_reverse, List.take_take,
      Nat.min_eq_left (Nat.le_succ n)]

theorem Rolling.maybeSample (h : s.Rolling) : (s.maybeSample m now later o).Rolling := by
  by_cases hdue : (s.trackNetwork m o.networkOk).Due now
  swap
  · exact h.frame (maybeSample_of_not_due hdue)
  have htracked : (s.trackNetwork m o.networkOk).Rolling := h.frame (frame_trackNetwork _)
  unfold SessionTimelapse.maybeSample
  dsimp only
  rw [if_neg (not_lt.mpr hdue)]
  generalize s.trackNetwork m o.networkOk = t at htracked hdue
  unfold Due at hdue
  have hnow : t.lastSampleAt + t.sampleIntervalS ≤ now := by linarith
  have hinterval := htracked.interval
  have hnonneg := htracked.lastSampleAt
  have hlogged : ∀ {u : SessionTimelapse}, u.log = t.log ++ [.sample (t.sampleAt now later o)] →
      u.logged = t.logged ++ [t.sampleAt now later o] := by
    intro u hu
    unfold logged
    rw [hu, List.filterMap_append]
    rfl
  constructor
  · exact hinterval
  · rw [hlogged rfl]
    dsimp only
    rw [htracked.kept, rtake_concat_rtake]
  · rw [hlogged rfl, List.map_append, List.pairwise_append]
    refine ⟨htracked.spaced, List.pairwise_singleton _ _, ?_⟩
    intro a ha b hb
    obtain ⟨x, hx, rfl⟩ := List.mem_map.mp ha
    rw [List.map_singleton, List.mem_singleton] at hb
    rw [hb]
    have hle := htracked.last x hx
    show x.wallTs + t.sampleIntervalS ≤ now
    linarith
  · rw [hlogged rfl]
    intro x hx
    rcases List.mem_append.mp hx with hold | hnew
    · have hle := htracked.last x hold
      show x.wallTs ≤ now
      linarith
    · rw [List.mem_singleton.mp hnew]
      exact le_rfl
  · rw [hlogged rfl]
    intro x hx
    rcases List.mem_append.mp hx with hold | hnew
    · exact htracked.pos x hold
    · rw [List.mem_singleton.mp hnew]
      show 0 < now
      linarith
  · show 0 ≤ now
    linarith
  · exact htracked.room

theorem Rolling.step (h : s.Rolling) (op : Op) : (s.step op).Rolling := by
  cases op with
  | recordEvent now clock label => exact h.frame (frame_recordEvent clock label)
  | maybeSample m now later o => exact h.maybeSample
  | uptime m networkOk => exact h.frame (frame_trackNetwork networkOk)
  | finalize now later time => exact h.frame (frame_finalize time)

/-- The default bound is above the number of samples in a window. -/
theorem rolling_create (sampleIntervalS : ℚ) (maxEvents : ℕ) (windowS started : ℚ) (time : String) :
    (create sampleIntervalS none maxEvents windowS started time).Rolling := by
  have hinterval : 0 < max 1 sampleIntervalS := lt_of_lt_of_le one_pos (le_max_left _ _)
  refine ⟨hinterval, (List.rtake_nil _).symm, List.Pairwise.nil, nofun, nofun, le_rfl, ?_⟩
  unfold create
  dsimp only
  rw [Option.getD_none]
  generalize max 1 sampleIntervalS = interval at hinterval
  generalize hwindow : max interval windowS = window
  have hnonneg : 0 ≤ window / interval :=
    div_nonneg (hinterval.le.trans (hwindow ▸ le_max_left _ _)) hinterval.le
  have hfloor : window / interval < pyInt (window / interval) + 1 := by
    rw [pyInt_of_nonneg hnonneg]
    exact Int.lt_floor_add_one _
  have hcast : ((pyInt (window / interval) + 8 : ℤ) : ℚ) ≤
      ((max 16 (pyInt (window / interval) + 8)).toNat : ℚ) := by
    exact_mod_cast (le_max_right 16 _).trans (Int.self_le_toNat _)
  rw [Int.cast_add] at hcast
  have hlt : window / interval < ((max 16 (pyInt (window / interval) + 8)).toNat : ℚ) := by
    norm_num at hcast ⊢
    linarith
  exact (div_lt_iff₀ hinterval).mp hlt

/-! ### The window -/

theorem sampleWallTs_eq (h : 0 < sample.wallTs) : s.sampleWallTs sample = sample.wallTs := if_pos h

/-- The samples of the log that are within the window. -/
def shown (s : SessionTimelapse) (now : ℚ) : List Sample :=
  s.logged.filter fun x => now - s.windowS ≤ x.wallTs

/-- A sample that the deque has given up is as many intervals old as the deque has places. -/
theorem Rolling.add_maxSamples_mul_le (h : s.Rolling)
    (hx : sample ∈ s.logged.take (s.logged.length - s.maxSamples)) :
    sample.wallTs + s.maxSamples * s.sampleIntervalS ≤ s.lastSampleAt := by
  obtain ⟨k, hk, rfl⟩ := List.mem_take_iff_getElem.mp hx
  have hlt : k < s.logged.length := by omega
  have hspaced := h.spaced.sublist ((List.drop_sublist k _).map Sample.wallTs)
  rw [List.drop_eq_getElem_cons hlt, List.map_cons] at hspaced
  set later := (s.logged.drop (k + 1)).map Sample.wallTs with hlater
  obtain ⟨y, hy⟩ : ∃ y, (s.logged[k].wallTs :: later).getLast? = some y :=
    ⟨_, List.getLast?_eq_some_getLast (List.cons_ne_nil _ _)⟩
  have hgap := add_length_mul_le hspaced y hy
  have hmem := List.mem_of_getLast? hy
  rw [hlater, ← List.map_cons, ← List.drop_eq_getElem_cons hlt] at hmem
  obtain ⟨x, hx', hwall⟩ := List.mem_map.mp hmem
  have hle := h.last x (List.mem_of_mem_drop hx')
  have hcount : s.maxSamples ≤ later.length := by
    rw [hlater, List.length_map, List.length_drop]
    omega
  have hmul : (s.maxSamples : ℚ) * s.sampleIntervalS ≤ later.length * s.sampleIntervalS :=
    mul_le_mul_of_nonneg_right (Nat.cast_le.mpr hcount) h.interval.le
  linarith

/-- What the deque has given up is behind the window. -/
theorem Rolling.windowSamples (h : s.Rolling) (hnow : s.lastSampleAt ≤ now) :
    s.windowSamples now = s.shown now := by
  have hwall : s.windowSamples now = s.samples.filter fun x => now - s.windowS ≤ x.wallTs := by
    refine List.filter_congr fun x hx => ?_
    rw [h.kept] at hx
    rw [sampleWallTs_eq (h.pos x (List.mem_of_mem_drop hx))]
  rw [hwall, h.kept]
  unfold shown List.rtake
  generalize hlogged : s.logged = samples
  have hout : (samples.take (samples.length - s.maxSamples)).filter
      (fun x => now - s.windowS ≤ x.wallTs) = [] := by
    refine List.filter_eq_nil_iff.mpr fun x hx => ?_
    rw [decide_eq_true_iff, not_le]
    have hgap := h.add_maxSamples_mul_le (hlogged ▸ hx)
    have hroom := h.room
    linarith
  conv_rhs => rw [← List.take_append_drop (samples.length - s.maxSamples) samples]
  rw [List.filter_append, hout, List.nil_append]

/-- A session with the default bound. -/
def session (sampleIntervalS : ℚ) (maxEvents : ℕ) (windowS started : ℚ) (time : String) (ops : List Op) :
    SessionTimelapse :=
  Run.final step (create sampleIntervalS none maxEvents windowS started time) ops

theorem rolling_session (sampleIntervalS : ℚ) (maxEvents : ℕ) (windowS started : ℚ) (time : String)
    (ops : List Op) : (session sampleIntervalS maxEvents windowS started time ops).Rolling :=
  Run.invariant (fun _ op h => h.step op) (rolling_create _ _ _ _ _)

/-- **The window is what the log has of it.**  However many samples a session takes, at any time since
the last of them the window shows all samples of the log that are in it. -/
theorem windowSamples_run (sampleIntervalS : ℚ) (maxEvents : ℕ) (windowS started : ℚ) (time : String)
    (ops : List Op) (now : ℚ)
    (hnow : (session sampleIntervalS maxEvents windowS started time ops).lastSampleAt ≤ now) :
    (session sampleIntervalS maxEvents windowS started time ops).windowSamples now =
      (session sampleIntervalS maxEvents windowS started time ops).shown now :=
  (rolling_session _ _ _ _ _ _).windowSamples hnow

def sampleMoment (t : ℚ) : Moment := ⟨t, t, "12:00:00"⟩

def sampleObserved (hps : ℚ) : Observed where
  hpsEma := hps
  gpu := none
  pending := 0
  accepted := 0
  networkOk := true

/-- Two samples, a minute apart. -/
def sampleOps : List Op :=
  [.maybeSample (sampleMoment 1000) 1000 1000 (sampleObserved 500),
    .maybeSample (sampleMoment 1060) 1060 1060 (sampleObserved 700)]

theorem windowSamples_run_minute :
    (session 30 10 3600 1000 "2026-01-01T12:00:00" sampleOps).windowSamples 1100 =
      (session 30 10 3600 1000 "2026-01-01T12:00:00" sampleOps).shown 1100 :=
  windowSamples_run 30 10 3600 1000 _ sampleOps 1100 (by decide +kernel)

/-! ### Online and offline -/

/-- The time an operation looks at the network. -/
def Op.looksAt : Op → Option ℚ
  | .maybeSample m _ _ _ => some m.state
  | .uptime m _ => some m.state
  | _ => none

/-- The time up to which an operation counts: that of its look, or of the end. -/
def Op.countsTo : Op → Option ℚ
  | .maybeSample m _ _ _ => some m.state
  | .uptime m _ => some m.state
  | .finalize now _ _ => some now
  | .recordEvent _ _ _ => none

/-- The time of the first look. -/
def firstLook (ops : List Op) : Option ℚ := (ops.filterMap Op.looksAt).head?

/-- The time of the last look, or of the end. -/
def lastCount (ops : List Op) : Option ℚ := (ops.filterMap Op.countsTo).getLast?

/-- The time that is split, up to the last look. -/
def split (s : SessionTimelapse) : ℚ := s.onlineS + s.offlineS

theorem split_addElapsed (now : ℚ) : (s.addElapsed now).split =
    s.split + if s.lastNetworkOk = none then 0 else now - s.lastStateAt := by
  unfold addElapsed split
  cases s.lastNetworkOk with
  | none => simp
  | some networkOk => cases networkOk <;> simp <;> ring

theorem addElapsed_state (now : ℚ) : (s.addElapsed now).lastNetworkOk = s.lastNetworkOk ∧
    (s.addElapsed now).lastStateAt = s.lastStateAt := by
  unfold addElapsed
  split <;> exact ⟨rfl, rfl⟩

theorem split_trackNetwork (networkOk : Bool) :
    (s.trackNetwork m networkOk).split = (s.addElapsed m.state).split ∧
    (s.trackNetwork m networkOk).lastNetworkOk = some networkOk ∧
    (s.trackNetwork m networkOk).lastStateAt = m.state := by
  unfold trackNetwork
  dsimp only
  split_ifs <;> exact ⟨rfl, rfl, rfl⟩

theorem split_maybeSample :
    (s.maybeSample m now later o).split = (s.trackNetwork m o.networkOk).split ∧
    (s.maybeSample m now later o).lastNetworkOk = (s.trackNetwork m o.networkOk).lastNetworkOk ∧
    (s.maybeSample m now later o).lastStateAt = (s.trackNetwork m o.networkOk).lastStateAt := by
  unfold maybeSample
  dsimp only
  split_ifs <;> exact ⟨rfl, rfl, rfl⟩

/-- The split time goes from `first`, the first look, to `last`. -/
def SplitSince (first last : Option ℚ) (s : SessionTimelapse) : Prop :=
  match first with
  | none => s.lastNetworkOk = none ∧ s.split = 0
  | some first =>
    s.lastNetworkOk ≠ none ∧ last = some s.lastStateAt ∧ s.split = s.lastStateAt - first

/-- A look at the network, the first one or a later one. -/
theorem SplitSince.look {first last : Option ℚ} (h : SplitSince first last s) {networkOk : Bool}
    (hsplit : s'.split = (s.addElapsed now).split) (hnetwork : s'.lastNetworkOk = some networkOk)
    (hstate : s'.lastStateAt = now) : SplitSince (some (first.getD now)) (some now) s' := by
  have hne : s'.lastNetworkOk ≠ none := hnetwork ▸ Option.some_ne_none _
  refine ⟨hne, congrArg some hstate.symm, ?_⟩
  rw [hsplit, split_addElapsed, hstate]
  cases first with
  | none =>
    obtain ⟨hnone, hzero⟩ := h
    rw [if_pos hnone, hzero, Option.getD_none]
    ring
  | some first =>
    obtain ⟨hsome, -, hsince⟩ := h
    rw [if_neg hsome, hsince, Option.getD_some]
    ring

/-- The end of a session closes the time since the last look. -/
theorem SplitSince.finalize {first last : Option ℚ} (h : SplitSince first last s) (time : String) :
    SplitSince first (some now) (s.finalize now later time) := by
  obtain ⟨hnetwork, hstate⟩ := addElapsed_state (s := s) now
  have hsplit := split_addElapsed (s := s) now
  unfold SessionTimelapse.finalize
  dsimp only
  rw [hnetwork]
  cases first with
  | none =>
    obtain ⟨hnone, hzero⟩ := h
    rw [if_pos hnone] at hsplit ⊢
    exact ⟨hnetwork.trans hnone, hsplit.trans ((add_zero _).trans hzero)⟩
  | some first =>
    obtain ⟨hsome, -, hsince⟩ := h
    rw [if_neg hsome] at hsplit ⊢
    refine ⟨hsome, rfl, ?_⟩
    show (s.addElapsed now).split = now - first
    rw [hsplit, hsince]
    ring

theorem SplitSince.step {first last : Option ℚ} (h : SplitSince first last s) (op : Op) :
    SplitSince (first.or op.looksAt) (op.countsTo.or last) (s.step op) := by
  have hlook : ∀ t : ℚ, first.or (some t) = some (first.getD t) := by
    intro t
    cases first <;> rfl
  cases op with
  | recordEvent now clock label =>
    rw [show Op.looksAt (.recordEvent now clock label) = none from rfl, Option.or_none]
    exact h
  | maybeSample m now later o =>
    obtain ⟨hsplit, hnetwork, hstate⟩ := split_trackNetwork (s := s) (m := m) o.networkOk
    obtain ⟨hsplit', hnetwork', hstate'⟩ : (s.maybeSample m now later o).split = _ ∧ _ ∧ _ :=
      split_maybeSample
    rw [show Op.looksAt (.maybeSample m now later o) = some m.state from rfl, hlook]
    exact h.look (hsplit'.trans hsplit) (hnetwork'.trans hnetwork) (hstate'.trans hstate)
  | uptime m networkOk =>
    obtain ⟨hsplit, hnetwork, hstate⟩ := split_trackNetwork (s := s) (m := m) networkOk
    rw [show Op.looksAt (.uptime m networkOk) = some m.state from rfl, hlook]
    exact h.look hsplit hnetwork hstate
  | finalize now later time =>
    rw [show Op.looksAt (.finalize now later time) = none from rfl, Option.or_none]
    exact h.finalize time

theorem firstLook_cons (op : Op) (ops : List Op) :
    firstLook (op :: ops) = op.looksAt.or (firstLook ops) := by
  unfold firstLook
  cases hop : op.looksAt with
  | none => rw [List.filterMap_cons_none hop, Option.none_or]
  | some t => rw [List.filterMap_cons_some hop, List.head?_cons, Option.some_or]

theorem lastCount_cons (op : Op) (ops : List Op) :
    lastCount (op :: ops) = (lastCount ops).or op.countsTo := by
  unfold lastCount
  cases hop : op.countsTo with
  | none => rw [List.filterMap_cons_none hop, Option.or_none]
  | some t => rw [List.filterMap_cons_some hop, List.getLast?_cons, Option.or_some]

theorem splitSince_run (first last : Option ℚ) (ops : List Op) (h : SplitSince first last s) :
    SplitSince (first.or (firstLook ops)) ((lastCount ops).or last) (Run.final step s ops) := by
  induction ops generalizing s first last with
  | nil =>
    rw [show firstLook [] = none from rfl, show lastCount [] = none from rfl, Option.or_none,
      Option.none_or]
    exact h
  | cons op ops ih =>
    have hnext := ih (first.or op.looksAt) (op.countsTo.or last) (h.step op)
    have hlater : ((lastCount ops).or op.countsTo).or last = (lastCount ops).or (op.countsTo.or last) :=
      Option.or_assoc
    rw [firstLook_cons, lastCount_cons, hlater, ← Option.or_assoc]
    exact hnext

/-- **Online and offline** together are the time from the first look at the network to the last one, or
to the end, and nothing before the first look, in every session. -/
theorem uptime_run (sampleIntervalS : ℚ) (maxEvents : ℕ) (windowS started : ℚ) (time : String)
    (ops : List Op) :
    let s := session sampleIntervalS maxEvents windowS started time ops
    s.onlineS + s.offlineS = (firstLook ops).elim 0 fun first =>
      (lastCount ops).elim 0 fun last => last - first := by
  have hrun : SplitSince (firstLook ops) ((lastCount ops).or none)
      (session sampleIntervalS maxEvents windowS started time ops) :=
    splitSince_run none none ops ⟨rfl, add_zero _⟩
  rw [Option.or_none] at hrun
  cases hfirst : firstLook ops with
  | none =>
    rw [hfirst] at hrun
    exact hrun.2
  | some first =>
    rw [hfirst] at hrun
    rw [hrun.2.1]
    exact hrun.2.2

/-- A minute online, half a minute offline up to the end. -/
example :
    let ops : List Op := [.uptime (sampleMoment 1000) true, .uptime (sampleMoment 1060) false,
      .finalize 1090 1090 "2026-01-01T12:01:30"]
    firstLook ops = some 1000 ∧ lastCount ops = some 1090 := by decide

/-! ### The chart -/

/-- A sample of the window has a place. -/
theorem exists_bucketOf (hwidth : 0 < width) (hwindow : now - s.windowS ≤ s.sampleWallTs sample)
    (hstarted : s.started ≤ s.sampleWallTs sample) :
    ∃ i < width, s.bucketOf width now sample = some i := by
  have hstart : now - s.effectiveWindowS now ≤ s.sampleWallTs sample := by
    unfold effectiveWindowS
    have hage := le_max_right s.sampleIntervalS (now - s.started)
    rcases min_choice s.windowS (max s.sampleIntervalS (now - s.started)) with hmin | hmin
    · rw [hmin]
      exact hwindow
    · rw [hmin]
      linarith
  unfold bucketOf
  dsimp only
  rw [if_neg (by linarith)]
  refine ⟨_, ?_, rfl⟩
  omega

theorem bucket_eq_nil_iff {samples : List Sample} :
    s.bucket samples width now i = [] ↔ ∀ x ∈ samples, s.bucketOf width now x ≠ some i := by
  unfold bucket
  rw [List.map_eq_nil_iff, List.filter_eq_nil_iff]
  simp only [decide_eq_true_eq, ne_eq]

theorem bucketValues_eq {samples : List Sample} (hi : i < width) :
    (s.bucketValues samples width now)[i]? =
      some (if s.bucket samples width now i = [] then none else some (mean (s.bucket samples width now i))) := by
  unfold bucketValues
  rw [List.getElem?_map, List.getElem?_range hi]
  rfl

theorem length_bucketValues {samples : List Sample} :
    (s.bucketValues samples width now).length = width := by
  unfold bucketValues
  rw [List.length_map, List.length_range]

theorem level_lt (hi value : ℚ) : level hi value < spark.length := by
  unfold level
  have hlength : (spark.length : ℤ) = 8 := rfl
  dsimp only
  split_ifs <;> omega

/-- Only a bucket without samples is a dot. -/
theorem glyph_eq_dot_iff {hi : ℚ} {value : Option ℚ} : glyph hi value = '·' ↔ value = none := by
  cases value with
  | none => exact iff_of_true rfl rfl
  | some value =>
    refine iff_of_false ?_ (Option.some_ne_none value)
    show (if hi ≤ 0 then '▁' else spark.getD (level hi value) '·') ≠ '·'
    split_ifs
    · decide
    · have hlevel := level_lt hi value
      have hmem : spark.getD (level hi value) '·' ∈ spark := by
        rw [List.getD_eq_getElem?_getD, List.getElem?_eq_getElem hlevel]
        exact List.getElem_mem hlevel
      intro hdot
      rw [hdot] at hmem
      exact absurd hmem (by decide)

/-- The chart is the glyphs of the buckets, on some scale. -/
theorem exists_sparkline_eq (s : SessionTimelapse) (hwidth : 0 < width) (now : ℚ) :
    ∃ hi, s.sparkline width now = (s.bucketValues (s.windowSamples now) width now).map (glyph hi) := by
  have hdots : ∀ {values : List (Option ℚ)}, (∀ v ∈ values, v = none) →
      List.replicate values.length '·' = values.map (glyph 0) := by
    intro values hnone
    refine (List.eq_replicate_iff.mpr ⟨List.length_map _, fun c hc => ?_⟩).symm
    obtain ⟨v, hv, rfl⟩ := List.mem_map.mp hc
    exact glyph_eq_dot_iff.mpr (hnone v hv)
  unfold sparkline
  dsimp only
  split_ifs with hsamples
  · refine ⟨0, ?_⟩
    rw [hsamples, ← hdots fun v hv => ?_, length_bucketValues, max_eq_right hwidth]
    obtain ⟨i, -, rfl⟩ := List.mem_map.mp hv
    rfl
  · split
    · next hnone =>
      refine ⟨0, ?_⟩
      obtain ⟨n, hn⟩ := (List.reduceOption_eq_nil_iff _).mp hnone
      rw [← hdots fun v hv => ?_, length_bucketValues]
      rw [hn] at hv
      exact List.eq_of_mem_replicate hv
    · exact ⟨_, rfl⟩

/-- The clock was not before the start when an operation took a sample. -/
def Op.NotBefore (t : ℚ) : Op → Prop
  | .maybeSample _ now _ _ => t ≤ now
  | _ => True

theorem wallTs_maybeSample {x : Sample} (hx : x ∈ (s.maybeSample m now later o).logged) :
    x ∈ s.logged ∨ x.wallTs = now := by
  have hframe : Frame s (s.trackNetwork m o.networkOk) := frame_trackNetwork _
  rw [← hframe.logged]
  unfold SessionTimelapse.maybeSample at hx
  dsimp only at hx
  split_ifs at hx
  · exact Or.inl hx
  · unfold logged at hx ⊢
    rw [List.filterMap_append] at hx
    rcases List.mem_append.mp hx with hold | hnew
    · exact Or.inl hold
    · right
      rw [List.mem_singleton.mp hnew]
      rfl

/-- The samples since the start. -/
structure Since (t : ℚ) (s : SessionTimelapse) : Prop where
  started : s.started = t
  logged : ∀ x ∈ s.logged, t ≤ x.wallTs

theorem Since.frame {t : ℚ} (h : Since t s) (hframe : Frame s s') : Since t s' where
  started := hframe.started.trans h.started
  logged := by
    rw [hframe.logged]
    exact h.logged

theorem Since.step {t : ℚ} (h : Since t s) {op : Op} (hop : op.NotBefore t) : Since t (s.step op) := by
  cases op with
  | recordEvent now clock label => exact h.frame (frame_recordEvent clock label)
  | uptime m networkOk => exact h.frame (frame_trackNetwork networkOk)
  | finalize now later time => exact h.frame (frame_finalize time)
  | maybeSample m now later o =>
    constructor
    · have htracked : Since t (s.trackNetwork m o.networkOk) := h.frame (frame_trackNetwork _)
      show (s.maybeSample m now later o).started = t
      unfold SessionTimelapse.maybeSample
      dsimp only
      split_ifs <;> exact htracked.started
    · intro x hx
      rcases wallTs_maybeSample hx with hold | hnew
      · exact h.logged x hold
      · rw [hnew]
        exact hop

/-- **The chart of a session** has `width` places.  Each sample that the log has of the window falls into
one of them, and the places into which none falls are the dots. -/
theorem sparkline_run (sampleIntervalS : ℚ) (maxEvents : ℕ) (windowS started : ℚ) (time : String)
    (ops : List Op) (width : ℕ) (now : ℚ) (hwidth : 0 < width) (hops : ∀ op ∈ ops, op.NotBefore started)
    (hnow : (session sampleIntervalS maxEvents windowS started time ops).lastSampleAt ≤ now) :
    let s := session sampleIntervalS maxEvents windowS started time ops
    (s.sparkline width now).length = width ∧
    (∀ x ∈ s.shown now, ∃ i < width, s.bucketOf width now x = some i) ∧
    ∀ i < width, (s.sparkline width now)[i]? = some '·' ↔
      ∀ x ∈ s.shown now, s.bucketOf width now x ≠ some i := by
  have hrolling := rolling_session sampleIntervalS maxEvents windowS started time ops
  have hwindow := windowSamples_run sampleIntervalS maxEvents windowS started time ops now hnow
  have hsince : Since started (session sampleIntervalS maxEvents windowS started time ops) :=
    (Run.Meets.of_mem hops).invariant (fun _ _ h hop => h.step hop) ⟨rfl, nofun⟩
  dsimp only
  generalize session sampleIntervalS maxEvents windowS started time ops = s at *
  obtain ⟨hi, hchart⟩ := exists_sparkline_eq s hwidth now
  rw [hwindow] at hchart
  refine ⟨?_, ?_, ?_⟩
  · rw [hchart, List.length_map, length_bucketValues]
  · -- a sample of the window was taken after the start, so its place is one of the chart's
    intro x hx
    obtain ⟨hlogged, hin⟩ := List.mem_filter.mp hx
    have hwall : s.sampleWallTs x = x.wallTs := sampleWallTs_eq (hrolling.pos x hlogged)
    refine exists_bucketOf hwidth ?_ ?_
    · rw [hwall]
      exact of_decide_eq_true hin
    · rw [hwall, hsince.started]
      exact hsince.logged x hlogged
  · intro i hi
    rw [hchart, List.getElem?_map, bucketValues_eq hi, Option.map_some, Option.some_inj, glyph_eq_dot_iff,
      ← bucket_eq_nil_iff]
    by_cases hempty : s.bucket (s.shown now) width now i = []
    · rw [if_pos hempty]
      exact iff_of_true rfl hempty
    · rw [if_neg hempty]
      exact iff_of_false (Option.some_ne_none _) hempty

theorem sparkline_run_minute :
    let s := session 30 10 3600 1000 "2026-01-01T12:00:00" sampleOps
    (s.sparkline 12 1100).length = 12 ∧
    (∀ x ∈ s.shown 1100, ∃ i < 12, s.bucketOf 12 1100 x = some i) ∧
    ∀ i < 12, (s.sparkline 12 1100)[i]? = some '·' ↔ ∀ x ∈ s.shown 1100, s.bucketOf 12 1100 x ≠ some i :=
  sparkline_run 30 10 3600 1000 _ sampleOps 12 1100 (by decide)
    (by
      unfold sampleOps
      simp only [List.forall_mem_cons, Op.NotBefore]
      norm_num)
    (by decide +kernel)

end SessionTimelapse

end Timelapse

end XenMiner
