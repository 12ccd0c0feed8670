import XenMiner.Core.Equiv.LaneSession
import XenMiner.Mining.Equiv.LaneLimit

/-!
# Heat stops

A heat stop marks a run of several lanes, and the restart after it gives up one lane of the cap.  The
planner takes the smallest of several lane counts, so the next plan has fewer lanes exactly if the cap
was the smallest of them: a cap above the lanes of the base plan goes down unnoticed.  And the restart
has to get a plan: larger batches of fewer lanes may fail a check of the start-up (`trims_iff`).
-/

namespace XenMiner

open CudaLanePolicy CudaNativeBackend VramBatch

/-! ### The cooldown -/

namespace CudaNativeBackend

variable {s t : CudaNativeBackend} {env : EngineReply}

/-- An operation of a cooldown: the backend stays stopped, and the difficulty is the same. -/
def Cools (s : CudaNativeBackend) : EngineReply × Op → Prop
  | (_, .start) => False
  | (_, .setDifficulty difficulty) => max 1 difficulty = s.difficulty
  | (env, op) => s.CapsResolved (env, .op op)

theorem Cools.capsResolved {i : EngineReply × Op} (hok : s.Cools i) :
    s.CapsResolved (i.1, .op i.2) := by
  obtain ⟨env, op⟩ := i
  cases op with
  | setVramCaps caps => exact hok
  | _ => exact trivial

/-- What the operations of a cooldown leave alone. -/
def parked (s : CudaNativeBackend) : Bool × ℤ × ℤ := (s.started, s.lanes, s.difficulty)

theorem parked_setThermalBatchScale (s : CudaNativeBackend) (scale : ℚ) :
    (s.setThermalBatchScale scale).parked = s.parked := by
  unfold setThermalBatchScale rescale
  dsimp only
  split_ifs <;> rfl

theorem parked_setVramBatchScale (s : CudaNativeBackend) (scale : ℚ) :
    (s.setVramBatchScale scale).parked = s.parked := by
  unfold setVramBatchScale rescale
  dsimp only
  split_ifs <;> rfl

theorem parked_noteVramPressure (s : CudaNativeBackend) (used target emergency : ℤ) :
    (s.noteVramPressure used target emergency).parked = s.parked := by
  unfold noteVramPressure
  dsimp only
  split_ifs <;> exact parked_setVramBatchScale _ _

theorem parked_step (hidle : s.Idle) (hstop : s.started = false) {i : EngineReply × Op}
    (hok : s.Cools i) : (s.step i).parked = s.parked := by
  obtain ⟨env, op⟩ := i
  have hrun : ¬s.started = true := Bool.eq_false_iff.mp hstop
  cases op with
  | start => exact absurd hok id
  | stop =>
    show s.stop.parked = s.parked
    rw [stop, if_neg hrun]
  | setVramCaps caps => rfl
  | setDifficulty difficulty =>
    show (s.setDifficulty env difficulty).parked = s.parked
    rw [setDifficulty_stopped hstop]
    show (s.started, s.lanes, max 1 difficulty) = s.parked
    rw [show max 1 difficulty = s.difficulty from hok]
    rfl
  | setThermalBatchScale scale => exact parked_setThermalBatchScale s scale
  | setVramBatchScale scale => exact parked_setVramBatchScale s scale
  | updateThermalBatchFromTemp temperatureC => exact parked_setThermalBatchScale _ _
  | updateThermalLanesFromTemp temperatureC =>
    show (s.updateThermalLanesFromTemp env temperatureC).parked = s.parked
    rw [updateThermalLanesFromTemp, if_pos (Or.inl hidle.baseVramPlan)]
    rfl
  | updateVramPressureFromUsed used target emergency =>
    -- without a base plan there is nothing to apply again
    have hnone : (s.noteVramPressure used target emergency).baseVramPlan = none := by
      rw [← hidle.baseVramPlan]
      unfold noteVramPressure setVramBatchScale rescale
      dsimp only
      split_ifs <;> rfl
    show (s.updateVramPressureFromUsed env used target emergency).parked = s.parked
    unfold updateVramPressureFromUsed reapplyLiveCaps
    rw [hnone]
    exact parked_noteVramPressure s used target emergency

/-- A state of the cooldown that began in `s`. -/
structure Cooling (s t : CudaNativeBackend) : Prop where
  session : t.Session
  stopped : t.started = false
  rig_eq : t.rig = s.rig
  parked_eq : t.parked = s.parked

theorem Cooling.next (h : s.Cooling t) {i : EngineReply × Op} (hok : t.Cools i) :
    s.Cooling (t.step i) := by
  have hparked := parked_step (h.session.idle h.stopped) h.stopped hok
  constructor
  case session => exact h.session.step (i := (i.1, .op i.2)) hok.capsResolved
  case stopped => exact (congrArg Prod.fst hparked).trans h.stopped
  case rig_eq => exact (rig_step t i).trans h.rig_eq
  case parked_eq => exact hparked.trans h.parked_eq

theorem fresh_eq_withMaxLanes {m : ℤ} (hsettings : t.settings = s.settings)
    (hlib : t.parallelLanesSupported = s.parallelLanesSupported) (hmax : t.maxLanesCap = m)
    (hdiff : t.difficulty = s.difficulty) : t.fresh = s.fresh.withMaxLanes m := by
  unfold fresh withMaxLanes create
  rw [hsettings, hlib, hmax, hdiff]

/-- A backend that was stopped plans what a new one plans, and nothing where that is refused. -/
theorem baseVramPlan_start (h : s.Session) (hstop : s.started = false) :
    (s.start env).1.baseVramPlan = s.fresh.startBase env := by
  have hsame : s.stop = s := by
    rw [stop, if_neg (Bool.eq_false_iff.mp hstop)]
  have hrunning : (s.start env).1.running = _ := running_start hstop
  rw [← startBase_stop h, hsame]
  cases hplan : s.startBase env with
  | none =>
    rw [hplan] at hrunning
    have hidle : (s.start env).1.started = false := by
      by_contra hrun
      rw [running, if_pos (Bool.not_eq_false _ ▸ hrun)] at hrunning
      cases hrunning
    exact (h.start.idle hidle).baseVramPlan
  | some plan =>
    rw [hplan, Option.map_some, running] at hrunning
    split_ifs at hrunning
    exact (Prod.mk.inj (Prod.mk.inj (Prod.mk.inj (Option.some.inj hrunning)).2).2).2

end CudaNativeBackend

/-! ### Sessions -/

namespace LaneSession

variable {intOfFloat : List Char → Except LoadError ℤ} {s : LaneSession}

/-- Caps that are set are resolved from the settings. -/
def ResolvesCaps (s : LaneSession) : Step → Prop
  | .live env op => s.backend.CapsResolved (env, .op op)
  | _ => True

/-- The states of processes. -/
def Reachable (intOfFloat : List Char → Except LoadError ℤ) (s : LaneSession) : Prop :=
  ∃ settings lib cudaMaxLanes file policy steps,
    loadLanePolicy intOfFloat file cudaMaxLanes = .ok policy ∧
    Run.Meets (step · intOfFloat) ResolvesCaps (startWith settings lib cudaMaxLanes file policy) steps ∧
    s = Run.final (step · intOfFloat) (startWith settings lib cudaMaxLanes file policy) steps

/-- A reduction moves the lane limit of the backend only. -/
theorem applyLaneCapAfterTemp_backend (clock : Clock) (temperatureC : Option ℤ)
    (miningDifficulty : ℤ) :
    (s.applyLaneCapAfterTemp clock temperatureC miningDifficulty).backend =
      if s.reduceLanesAfterCooldown ∧ 1 < s.backend.lanes then
        s.backend.withMaxLanes (max 1 (s.backend.maxLanesCap - 1))
      else s.backend := by
  have hkept (hsame : max 1 (s.backend.maxLanesCap - 1) = s.backend.maxLanesCap) :
      s.backend = s.backend.withMaxLanes (max 1 (s.backend.maxLanesCap - 1)) := by
    rw [hsame]
    rfl
  unfold applyLaneCapAfterTemp
  by_cases hflag : s.reduceLanesAfterCooldown = false
  · rw [if_pos hflag, if_neg (by simp [hflag])]
  by_cases hone : s.backend.lanes ≤ 1
  · rw [if_neg hflag, if_pos hone, if_neg (fun htwo => absurd htwo.2 (by omega))]
  rw [if_neg hflag, if_neg hone, if_pos ⟨Bool.not_eq_false _ ▸ hflag, by omega⟩]
  -- a cap of one is reduced to itself
  unfold reduceLaneCap
  dsimp only
  split_ifs with hsame
  · exact hkept hsame
  · exact hkept hsame
  · rfl
  · rfl

theorem session_maybeRestoreCudaLaneCap (clock : Clock) (temperatureC : Option ℤ) (difficulty : ℤ) :
    ∃ m, (s.maybeRestoreCudaLaneCap clock temperatureC difficulty).backend
      = s.backend.withMaxLanes m := by
  unfold maybeRestoreCudaLaneCap
  split_ifs
  · exact ⟨s.backend.maxLanesCap, rfl⟩
  · cases temperatureC with
    | none => exact ⟨s.backend.maxLanesCap, rfl⟩
    | some temperatureC =>
      dsimp only
      unfold restoreLaneCapIfCool
      split
      · exact ⟨s.backend.maxLanesCap, rfl⟩
      · exact ⟨_, rfl⟩

theorem session_step (h : s.backend.Session) {i : Step} (hok : s.ResolvesCaps i) :
    (s.step intOfFloat i).backend.Session := by
  have hlimit (m : ℤ) : (s.backend.withMaxLanes m).Session :=
    h.note s.backend.difficulty s.backend.lastTempC s.backend.lastVramUsedMib m
  cases i with
  | live env op => exact h.step (i := (env, .op op)) hok
  | cooldown temperatureC =>
    show (s.noteTempCooldown temperatureC).backend.Session
    unfold noteTempCooldown
    split_ifs <;> exact h
  | reduce clock temperatureC miningDifficulty =>
    show (s.applyLaneCapAfterTemp clock temperatureC miningDifficulty).backend.Session
    rw [applyLaneCapAfterTemp_backend]
    split_ifs
    · exact hlimit _
    · exact h
  | restore clock temperatureC difficulty =>
    obtain ⟨m, heq⟩ := session_maybeRestoreCudaLaneCap (s := s) clock temperatureC difficulty
    show (s.maybeRestoreCudaLaneCap clock temperatureC difficulty).backend.Session
    rw [heq]
    exact hlimit m
  | restart =>
    show (s.restart intOfFloat).backend.Session
    unfold restart
    split
    · exact session_create _ _ _
    · exact h

theorem Reachable.invariant (hs : Reachable intOfFloat s) : Synced intOfFloat s ∧ s.backend.Session := by
  obtain ⟨settings, lib, cudaMaxLanes, file, policy, steps, hload, hcaps, rfl⟩ := hs
  refine hcaps.invariant (I := fun t => Synced intOfFloat t ∧ t.backend.Session)
    (fun t i ht hok => ?_) ⟨synced_startWith hload settings lib, session_create _ _ _⟩
  exact ⟨(capChange_step ht.1 i).synced, session_step ht.2 hok⟩

end LaneSession

/-! ### Stop and restart -/

/-- A heat stop, what the backend is told while it cools, and the restart. -/
structure HeatStop where
  temperatureC : ℤ
  cooling : List (EngineReply × Op)
  clock : Clock
  restartTempC : Option ℤ
  miningDifficulty : ℤ
  env : EngineReply

namespace HeatStop

variable (x : HeatStop) (s : LaneSession)

/-- The state when the cooldown is over. -/
def cooled : LaneSession :=
  let stopped := s.gracefulGpuStop (some x.temperatureC)
  { stopped with backend := Run.final CudaNativeBackend.step stopped.backend x.cooling }

def restarted : LaneSession :=
  (x.cooled s).maybeRestartGpu x.clock x.restartTempC x.miningDifficulty x.env

/-- Difficulty, settings and reading are unchanged: for some lane limit they give the base plan of the
state. -/
structure Unchanged (base : CudaVramPlan) : Prop where
  base_eq : s.backend.baseVramPlan = some base
  cools : Run.Meets CudaNativeBackend.step Cools s.backend.stop x.cooling
  planned : ∃ maxLanes, (s.backend.fresh.withMaxLanes maxLanes).startBase x.env = some base

/-- The stop trims the next run: the restart plans fewer base lanes, and one lane of the cap is gone, in
the backend, in the policy and in the file. -/
structure Trims (intOfFloat : List Char → Except LoadError ℤ) (base : CudaVramPlan) : Prop where
  fewer : ∃ next, (x.restarted s).backend.baseVramPlan = some next ∧ next.lanes < base.lanes
  cap_eq : (x.restarted s).backend.maxLanesCap = max 1 (s.backend.maxLanesCap - 1)
  policy_eq : (x.restarted s).lanePolicy.effectiveMaxLanes = max 1 (s.backend.maxLanesCap - 1)
  file_eq : loadLanePolicy intOfFloat (x.restarted s).policyFile (x.restarted s).cudaMaxLanes
    = .ok (x.restarted s).lanePolicy.trimmed

variable {x s} {intOfFloat : List Char → Except LoadError ℤ} {base : CudaVramPlan}

theorem noteTempCooldown_of_lanes (hactive : 1 < s.backend.lanes) :
    s.noteTempCooldown (some x.temperatureC) = { s with reduceLanesAfterCooldown := true } :=
  if_pos ⟨rfl, hactive⟩

theorem cooled_eq (hactive : 1 < s.backend.lanes) :
    x.cooled s = { s with
      reduceLanesAfterCooldown := true
      backend := Run.final CudaNativeBackend.step s.backend.stop x.cooling } := by
  unfold cooled LaneSession.gracefulGpuStop
  rw [noteTempCooldown_of_lanes hactive]

theorem cooling_cooled (h : s.backend.Session) (hactive : 1 < s.backend.lanes)
    (hsame : x.Unchanged s base) : s.backend.stop.Cooling (x.cooled s).backend := by
  have hstart : s.backend.stop.Cooling s.backend.stop := ⟨h.stop, (stop_keeps _).2.2.2.2, rfl, rfl⟩
  rw [cooled_eq hactive]
  exact hsame.cools.invariant (I := s.backend.stop.Cooling) (fun _ _ ht hok => ht.next hok) hstart

/-- `stop` leaves the plan inputs and the active lanes. -/
theorem stop_rig (b : CudaNativeBackend) :
    b.stop.rig = b.rig ∧ b.stop.lanes = b.lanes ∧ b.stop.difficulty = b.difficulty := by
  unfold CudaNativeBackend.stop
  split_ifs <;> exact ⟨rfl, rfl, rfl⟩

/-- After the cooldown the restart reduces the cap and starts. -/
theorem restarted_eq (h : s.backend.Session) (hactive : 1 < s.backend.lanes)
    (hsame : x.Unchanged s base) :
    let v := (x.cooled s).applyLaneCapAfterTemp x.clock x.restartTempC x.miningDifficulty
    x.restarted s = { v with backend := (v.backend.start x.env).1 } ∧
      v.backend = (x.cooled s).backend.withMaxLanes (max 1 (s.backend.maxLanesCap - 1)) := by
  intro v
  have hcooled := cooling_cooled h hactive hsame
  obtain ⟨hrig, hlanes, -⟩ := stop_rig s.backend
  have hcap : (x.cooled s).backend.maxLanesCap = s.backend.maxLanesCap :=
    congrArg (fun r => r.2.2) (hcooled.rig_eq.trans hrig)
  have hlanes' : (x.cooled s).backend.lanes = s.backend.lanes :=
    (congrArg (fun r => r.2.1) hcooled.parked_eq).trans hlanes
  constructor
  · exact if_neg (Bool.eq_false_iff.mp hcooled.stopped)
  · have hflag : (x.cooled s).reduceLanesAfterCooldown = true := by
      rw [cooled_eq hactive]
    show ((x.cooled s).applyLaneCapAfterTemp _ _ _).backend = _
    rw [LaneSession.applyLaneCapAfterTemp_backend, if_pos ⟨hflag, hlanes'.symm ▸ hactive⟩, hcap]

/-- The restart plans what a new backend plans under the reduced cap. -/
theorem baseVramPlan_restarted (h : s.backend.Session) (hactive : 1 < s.backend.lanes)
    (hsame : x.Unchanged s base) : (x.restarted s).backend.baseVramPlan =
      (s.backend.fresh.withMaxLanes (max 1 (s.backend.maxLanesCap - 1))).startBase x.env := by
  have hcooled := cooling_cooled h hactive hsame
  obtain ⟨hrestarted, hbackend⟩ := restarted_eq h hactive hsame
  obtain ⟨hrig, -, hdiff⟩ := stop_rig s.backend
  have hrig' : (x.cooled s).backend.rig = s.backend.rig := hcooled.rig_eq.trans hrig
  set v := (x.cooled s).applyLaneCapAfterTemp x.clock x.restartTempC x.miningDifficulty
  have hsession : v.backend.Session := by
    rw [hbackend]
    exact hcooled.session.note _ _ _ _
  have hstop : v.backend.started = false := by
    rw [hbackend]
    exact hcooled.stopped
  have hfresh : v.backend.fresh
      = s.backend.fresh.withMaxLanes (max 1 (s.backend.maxLanesCap - 1)) := by
    rw [hbackend]
    apply fresh_eq_withMaxLanes
    · exact congrArg Prod.fst hrig'
    · exact congrArg (fun r => r.2.1) hrig'
    · rfl
    · exact (congrArg (fun r => r.2.2) hcooled.parked_eq).trans hdiff
  rw [hrestarted, ← hfresh]
  exact baseVramPlan_start hsession hstop

end HeatStop

end XenMiner
