import XenMiner.Core.Equiv.LaneSession
import XenMiner.Core.Equiv.QueueBalance
import XenMiner.Core.RunLoop
import XenMiner.Efficiency.Equiv.DieBoardTemps
import XenMiner.Mining.Equiv.Restart

/-!
# The loop keeps the cooldown, and mines once it is over

Only `_maybe_restart_gpu` starts the backend in the loop, and only once the clock has passed
`_cooldown_until`, which every stop sets to a cooldown behind itself (`Guarded`).  So no batch follows a
stop within the cooldown (`coolsDown_run`), an emergency stops the backend before the pass can mine
(`gpuBackendRunning_applyGpuSafety`), and a pass after the cooldown mines (`pass_mines`).
-/

namespace XenMiner

open Argon2Common (Argon2)

/-! ### A backend between its starts and stops -/

namespace CudaNativeBackend

variable {s : CudaNativeBackend} {env : EngineReply}

theorem started_observeDevice (s : CudaNativeBackend) (info : DeviceInfo) :
    (s.observeDevice info).started = s.started := by
  obtain ⟨caps, foreign, baseline, heq⟩ := observeDevice_eq s info
  rw [heq]

theorem started_rescale (s : CudaNativeBackend) : s.rescale.started = s.started := by
  unfold rescale
  split_ifs <;> rfl

theorem started_setThermalBatchScale (s : CudaNativeBackend) (scale : ℚ) :
    (s.setThermalBatchScale scale).started = s.started := by
  unfold setThermalBatchScale
  dsimp only
  split_ifs
  · rfl
  · exact started_rescale _

theorem started_setVramBatchScale (s : CudaNativeBackend) (scale : ℚ) :
    (s.setVramBatchScale scale).started = s.started := by
  unfold setVramBatchScale
  dsimp only
  split_ifs
  · rfl
  · exact started_rescale _

theorem started_noteVramPressure (s : CudaNativeBackend) (used target emergency : ℤ) :
    (s.noteVramPressure used target emergency).started = s.started := by
  unfold noteVramPressure
  dsimp only
  split_ifs <;> exact started_setVramBatchScale _ _

theorem replan_started (s : CudaNativeBackend) (env : EngineReply) :
    (s.replan env).1.started = s.started := by
  refine replan_rule (P := fun t => t.started = s.started) env rfl (started_observeDevice s)
    fun info t base _ hfrom => ?_
  have ht : t.started = s.started := (Prod.mk.inj hfrom).1 ▸ started_observeDevice s info
  exact (started_syncLaneEngines _ env).1.trans ht

/-- Only `start` starts the backend, and only `stop` stops it. -/
theorem started_step (s : CudaNativeBackend) (env : EngineReply) (op : RunningOp) :
    (s.step (env, op.1)).started = s.started := by
  obtain ⟨op, hstart, hstop⟩ := op
  cases op with
  | start => exact absurd rfl hstart
  | stop => exact absurd rfl hstop
  | setVramCaps caps => rfl
  | setDifficulty difficulty =>
    exact setDifficulty_rule (P := fun t => t.started = s.started) env (fun _ => rfl) (fun _ => rfl)
      fun _ _ => replan_started _ env
  | setThermalBatchScale scale => exact started_setThermalBatchScale s scale
  | setVramBatchScale scale => exact started_setVramBatchScale s scale
  | updateThermalBatchFromTemp temperatureC => exact started_setThermalBatchScale _ _
  | updateThermalLanesFromTemp temperatureC =>
    show (s.updateThermalLanesFromTemp env temperatureC).started = s.started
    unfold updateThermalLanesFromTemp
    split_ifs
    · rfl
    · exact (started_reapplyLiveCaps _ env).1
  | updateVramPressureFromUsed used target emergency =>
    show (s.updateVramPressureFromUsed env used target emergency).started = s.started
    unfold updateVramPressureFromUsed
    rw [(started_reapplyLiveCaps _ env).1, started_noteVramPressure]

theorem started_stop (s : CudaNativeBackend) : s.stop.started = false := by
  unfold stop
  split_ifs with h
  · rfl
  · exact eq_false_of_ne_true h

theorem started_live (s : CudaNativeBackend) (ops : List (EngineReply × RunningOp)) :
    (ops.foldl (fun b x => b.step (x.1, x.2.1)) s).started = s.started := by
  induction ops generalizing s with
  | nil => rfl
  | cons x ops ih => rw [List.foldl_cons, ih, started_step]

/-- A start that does not raise leaves the backend running. -/
theorem started_start (h : (s.start env).2 = .ok ()) : (s.start env).1.started = true := by
  unfold CudaNativeBackend.start at h ⊢
  split_ifs at h ⊢ with hrunning
  · exact hrunning
  dsimp only at h ⊢
  split at h
  · unfold startWith at h ⊢
    split at h
    · cases h
    · split at h
      · cases h
      · exact (started_syncLaneEngines _ env).1
  · cases h

end CudaNativeBackend

/-! ### Too hot -/

namespace VramGuard

/-- Whether a snapshot is too hot depends neither on the warning limits nor on the lanes. -/
theorem abort_evaluateSnapshotTemps (snap : GpuSnapshot)
    {dieWarn dieWarn' dieMax boardWarn boardWarn' boardMax : ℤ} {derate derate' : DerateArgs}
    {ctx ctx' : DifficultyContext} (hctx : boardTightenC ctx = boardTightenC ctx') :
    (evaluateSnapshotTemps snap dieWarn dieMax boardWarn boardMax derate ctx).abort =
      (evaluateSnapshotTemps snap dieWarn' dieMax boardWarn' boardMax derate' ctx').abort := by
  have hboard : ∀ die, effBoardTemp ctx die snap.boardTempC snap.hotspotTempC =
      effBoardTemp ctx' die snap.boardTempC snap.hotspotTempC := by
    intro die
    unfold effBoardTemp
    rw [hctx]
  unfold evaluateSnapshotTemps
  dsimp only
  rw [Bool.eq_iff_iff, evaluate_abort _ rfl, evaluate_abort _ rfl, evaluate_effDieC,
    evaluate_effDieC, evaluate_effBoardC, evaluate_effBoardC, hboard]
  exact Iff.rfl

theorem level_evaluateSnapshotTemps_iff (snap : GpuSnapshot)
    {dieWarn dieMax boardWarn boardMax : ℤ} {derate : DerateArgs} {ctx : DifficultyContext} :
    (evaluateSnapshotTemps snap dieWarn dieMax boardWarn boardMax derate ctx).level = .emergency ↔
      (evaluateSnapshotTemps snap dieWarn dieMax boardWarn boardMax derate ctx).abort = true := by
  generalize he : evaluateSnapshotTemps snap dieWarn dieMax boardWarn boardMax derate ctx = e
  rw [evaluate_level e he.symm]
  split_ifs with habort
  · exact iff_of_true rfl habort
  · exact iff_of_false nofun habort
  · exact iff_of_false nofun habort

end VramGuard

/-! ### The clock of the supervisor -/

namespace Supervisor

variable {w : World} {A : Argon2} {s : Supervisor}

theorem clock_gracefulShutdown : s.clock ≤ (s.gracefulShutdown w A).clock := by
  unfold gracefulShutdown
  split_ifs
  · exact le_rfl
  dsimp only
  generalize (if (s.queue.store.pendingByType none).xuni ≠ 0 ∧
    Policy.inXuniWindow (w.minute s.minutes) = false then _ else 0) = xuniHeld
  generalize hr : (if s.networkOk = true then refresh w A _ else _) = r
  have hrefreshed : s.clock ≤ r.1.clock := by
    rw [← hr]
    split_ifs
    · exact (advances_refresh { s with shuttingDown := true, minutes := s.minutes + 1 }).clock
    · exact le_rfl
  split_ifs
  · exact le_rfl
  · exact hrefreshed.trans (Nat.le_add_right _ _)
  · exact hrefreshed

/-- No operation within a session turns the clock back. -/
theorem clock_step {op : Op} (hop : op ≠ .start) : s.clock ≤ (s.step w A op).clock := by
  cases op with
  | start => exact absurd rfl hop
  | hit hit => exact advances_handleHit.clock
  | refresh => exact (advances_refresh s).clock
  | tryFlush => exact (advances_tryFlushPendingQueue s).clock
  | service => exact advances_servicePendingQueue.clock
  | shutdown => exact clock_gracefulShutdown

end Supervisor

namespace RunLoop

variable {w : World} {A : Argon2} {s : RunLoop} {c : ℤ} {P : RunLoop → Prop}

/-! ### What a pass is made of -/

theorem guard_cooldownS : s.guard.cooldownS = s.loop.gpuCooldownS := rfl

/-- Every emergency stops the GPU for the cooldown of the settings. -/
theorem cooldownS_of_emergency {snap : Option GpuSnapshot}
    (h : (s.guard.evaluate snap).level = .emergency) :
    (s.guard.evaluate snap).cooldownS = s.loop.gpuCooldownS := by
  have hstop : ∀ message code graceful,
      (s.guard.stopAction message code graceful).cooldownS = s.loop.gpuCooldownS :=
    fun _ _ _ => guard_cooldownS
  cases snap with
  | none => cases h
  | some snap =>
    unfold VramGuard.evaluate at h ⊢
    dsimp only at h ⊢
    split_ifs at h ⊢
    · exact hstop _ _ _
    · exact hstop _ _ _
    · exact hstop _ _ _

theorem gpuBackendRunning_stopBackend : s.stopBackend.gpuBackendRunning = false :=
  CudaNativeBackend.started_stop _

theorem gpuBackendRunning_live (ops : List (EngineReply × RunningOp)) :
    (s.live ops).gpuBackendRunning = s.gpuBackendRunning := CudaNativeBackend.started_live _ ops

theorem gpuBackendRunning_beginCooldown {c : ℤ} :
    (s.beginCooldown w c).gpuBackendRunning = s.gpuBackendRunning := rfl

theorem gpuBackendRunning_gracefulGpuStop {c : ℤ} {snap : Option GpuSnapshot}
    {ops : List (EngineReply × RunningOp)} :
    (s.gracefulGpuStop w A c snap ops).gpuBackendRunning = false := by
  unfold gracefulGpuStop
  rw [gpuBackendRunning_beginCooldown]
  exact gpuBackendRunning_stopBackend

/-- What the steps of a pass keep.  The backend is stopped when a cooldown begins, it is started only
once the cooldown is over, and a hit comes from a batch. -/
structure Kept (w : World) (A : Argon2) (P : RunLoop → Prop) : Prop where
  readClock : ∀ s, P s → P (s.readClock w).1
  onQueue : ∀ s op, op ≠ .start → (∀ hit, op ≠ .hit hit) → P s → P (s.onQueue w A op)
  live : ∀ s ops, P s → P (s.live ops)
  stopBackend : ∀ s, P s → P s.stopBackend
  beginCooldown : ∀ s, s.gpuBackendRunning = false → P s → P (s.beginCooldown w s.loop.gpuCooldownS)
  lanes : ∀ s gpu, gpu.backend.started = s.gpuBackendRunning → P s → P { s with gpu := gpu }
  restart : ∀ s gpu, s.cooldownUntil ≤ s.seen → P s → P { s with gpu := gpu }
  batch : ∀ s, P s → P s.noteBatch
  hit : ∀ s hit, s.gpuBackendRunning = true → P s → P (s.noteBatch.onQueue w A (.hit hit))
  times : ∀ s lastNetCheck lastQueueFlush lastXuniFlush running, P s →
    P { s with
      lastNetCheck := lastNetCheck, lastQueueFlush := lastQueueFlush
      lastXuniFlush := lastXuniFlush, running := running }

theorem noteBatch_gpu : s.noteBatch.gpu = s.gpu := by
  unfold noteBatch
  split_ifs <;> rfl

theorem mineBatch_of_stopped {b : CudaNativeBackend} {env : BatchEnv} (h : b.started = false) :
    b.mineBatch env = .ok { hashesDone := 0, hit := none } := if_pos h

namespace Kept

theorem gracefulGpuStop (hP : Kept w A P) (h : P s) (snap : Option GpuSnapshot)
    (ops : List (EngineReply × RunningOp)) :
    P (s.gracefulGpuStop w A s.loop.gpuCooldownS snap ops) := by
  have hlanes : (s.gpu.noteTempCooldown (snap.map GpuSnapshot.temperatureC)).backend.started =
      s.gpuBackendRunning := by
    unfold LaneSession.noteTempCooldown
    split_ifs <;> rfl
  refine hP.beginCooldown _ gpuBackendRunning_stopBackend (hP.stopBackend _ (hP.live _ ops ?_))
  exact hP.onQueue _ .tryFlush nofun nofun (hP.lanes s _ hlanes h)

theorem applyGpuSafety (hP : Kept w A P) (h : P s) (snap : Option GpuSnapshot)
    (ops : List (EngineReply × RunningOp)) : P (s.applyGpuSafety w A snap ops).1 := by
  unfold RunLoop.applyGpuSafety
  dsimp only
  cases hlevel : (s.guard.evaluate snap).level with
  | ok => exact h
  | warn => exact hP.readClock s h
  | emergency =>
    dsimp only
    rw [cooldownS_of_emergency hlevel]
    split_ifs
    · exact hP.readClock s h
    · exact hP.gracefulGpuStop (hP.readClock s h) snap ops
    · have hflushed := hP.onQueue _ .tryFlush nofun nofun (hP.stopBackend s h)
      refine hP.beginCooldown _ ?_ (hP.live _ ops hflushed)
      exact (gpuBackendRunning_live ops).trans gpuBackendRunning_stopBackend

theorem shutDown (hP : Kept w A P) (h : P s) : P (s.shutDown w A) :=
  hP.times _ _ _ _ false (hP.onQueue _ .shutdown nofun nofun (hP.stopBackend s h))

theorem maybeRestartGpu (hP : Kept w A P) (h : P s) (p : Pass) : P (s.maybeRestartGpu w A p) := by
  have hread := hP.readClock s h
  unfold RunLoop.maybeRestartGpu
  dsimp only
  split_ifs with hcooling
  · exact hread
  · exact hread
  · have hrestart : ∀ gpu, P { (s.readClock w).1 with gpu := gpu } := fun gpu =>
      hP.restart _ gpu (not_lt.mp hcooling) hread
    split
    · exact hrestart _
    · exact hP.shutDown (hrestart _)

theorem serviceQueue (hP : Kept w A P) (h : P s) (now : ℚ) (aggressive : Bool) :
    P (s.serviceQueue w A now aggressive) :=
  hP.times _ s.lastNetCheck _ _ s.running (hP.onQueue s
    (.service now s.lastQueueFlush s.lastXuniFlush (min 5 s.loop.statsIntervalS) aggressive)
    nofun nofun h)

theorem waitOut (hP : Kept w A P) (h : P s) (now : ℚ) (p : Pass) : P (s.waitOut w A now p) :=
  hP.maybeRestartGpu (hP.live _ _ (hP.serviceQueue h now true)) p

theorem mine (hP : Kept w A P) (h : P s) (p : Pass) : P (s.mine w A p) := by
  have hnoted := hP.batch s h
  unfold RunLoop.mine
  dsimp only
  cases hbatch : s.noteBatch.gpu.backend.mineBatch (s.noteBatch.batchEnv p) with
  | error error => exact hP.shutDown hnoted
  | ok batch =>
    dsimp only
    split_ifs
    · exact hP.waitOut (hP.readClock _ (hP.gracefulGpuStop hnoted _ _)) _ p
    · cases hhit : batch.hit with
      | none => exact hP.live _ _ (hP.serviceQueue (hP.readClock _ hnoted) _ false)
      | some hit =>
        -- a backend that is stopped finds nothing
        have hrun : s.gpuBackendRunning = true := by
          by_contra hstopped
          rw [noteBatch_gpu, mineBatch_of_stopped (eq_false_of_ne_true hstopped)] at hbatch
          rw [← Except.ok.inj hbatch] at hhit
          cases hhit
        refine hP.live _ _ (hP.serviceQueue (hP.readClock _ (hP.live _ _ ?_)) _ false)
        exact hP.hit s hit hrun h

theorem passOn (hP : Kept w A P) (h : P s) (now : ℚ) (p : Pass) : P (s.passOn w A now p) := by
  have hrestart := hP.maybeRestartGpu h p
  unfold RunLoop.passOn
  dsimp only
  split_ifs
  · exact hrestart
  · exact hP.waitOut (hP.readClock _ hrestart) now p
  · exact hP.mine (hP.readClock _ hrestart) p

theorem timeUp (hP : Kept w A P) (h : P s) : P (s.timeUp w).1 := by
  unfold RunLoop.timeUp
  split
  · exact hP.readClock s h
  · exact h

theorem pollNetwork (hP : Kept w A P) (h : P s) (now : ℚ) : P (s.pollNetwork w A now) := by
  unfold RunLoop.pollNetwork
  split_ifs
  · exact hP.times _ now _ _ _ (hP.onQueue s .refresh nofun nofun h)
  · exact h

/-- **Rule for a pass.** -/
theorem pass (hP : Kept w A P) (h : P s) (p : Pass) : P (s.pass w A p) := by
  have hchecked : ∀ {s}, P s → ∀ now,
      P (((s.pollNetwork w A now).live (p.live 0)).applyGpuSafety w A p.snap (p.live 1)).1 :=
    fun h now => hP.applyGpuSafety (hP.live _ _ (hP.pollNetwork h now)) _ _
  unfold RunLoop.pass
  dsimp only
  split_ifs
  · exact h
  · exact hP.shutDown (hP.timeUp h)
  · exact hP.passOn (hchecked (hP.readClock _ (hP.timeUp h)) _) _ p
  · exact hP.waitOut (hchecked (hP.readClock _ (hP.timeUp h)) _) _ p

/-- **Rule for a run of the loop.** -/
theorem run (hP : Kept w A P) (h : P s) (passes : List Pass) :
    P (Run.final (RunLoop.pass w A) s passes) :=
  Run.invariant (fun _ p h => hP.pass h p) h

end Kept

/-! ### The cooldown -/

/-- Newest event first: no batch within the cooldown of an earlier stop. -/
def CoolsDown (c : ℤ) (events : List GpuEvent) : Prop :=
  events.Pairwise fun later earlier =>
    ∀ t t' : ℚ, earlier = .stop t → later = .batch t' → t + c ≤ t'

/-- What the loop knows of its stops. -/
structure Guarded (w : World) (c : ℤ) (s : RunLoop) : Prop where
  cooldown : s.loop.gpuCooldownS = c
  seen : s.seen ≤ w.now s.sup.clock
  stops : ∀ t, .stop t ∈ s.events → t ≤ s.seen ∧ t + c ≤ s.cooldownUntil
  running : s.gpuBackendRunning = true → ∀ t, .stop t ∈ s.events → t + c ≤ s.seen
  log : CoolsDown c s.events

theorem Guarded.of_sup {sup : Supervisor} (h : Guarded w c s) (hclock : s.sup.clock ≤ sup.clock) :
    Guarded w c { s with sup := sup } :=
  ⟨h.cooldown, h.seen.trans (w.now_mono hclock), h.stops, h.running, h.log⟩

theorem Guarded.of_gpu {gpu : LaneSession} (h : Guarded w c s)
    (hgpu : gpu.backend.started = true → s.gpuBackendRunning = true) :
    Guarded w c { s with gpu := gpu } :=
  ⟨h.cooldown, h.seen, h.stops, fun hrun => h.running (hgpu hrun), h.log⟩

theorem Guarded.readClock (h : Guarded w c s) : Guarded w c (s.readClock w).1 where
  cooldown := h.cooldown
  seen := w.now_mono (Nat.le_succ _)
  stops t ht := ⟨(h.stops t ht).1.trans h.seen, (h.stops t ht).2⟩
  running hrun t ht := (h.running hrun t ht).trans h.seen
  log := h.log

/-- The cooldown of a stop begins behind it. -/
theorem Guarded.beginCooldown (h : Guarded w c s) (hstopped : s.gpuBackendRunning = false) :
    Guarded w c (s.beginCooldown w c) := by
  have hread := h.readClock
  refine ⟨hread.cooldown, hread.seen, ?_, ?_, ?_⟩
  · intro t ht
    rcases List.mem_cons.mp ht with heq | ht
    · obtain rfl := GpuEvent.stop.inj heq
      exact ⟨le_rfl, le_rfl⟩
    · -- the clock did not go back since the stops before
      have hold := (hread.stops t ht).1
      exact ⟨hold, add_le_add_left hold _⟩
  · intro hrun
    rw [gpuBackendRunning_beginCooldown, hstopped] at hrun
    cases hrun
  · refine List.pairwise_cons.mpr ⟨?_, h.log⟩
    intro _ _ _ _ _ heq
    cases heq

theorem Guarded.noteBatch (h : Guarded w c s) : Guarded w c s.noteBatch := by
  unfold RunLoop.noteBatch
  split_ifs with hrun
  · have hstops : ∀ t, .stop t ∈ GpuEvent.batch s.seen :: s.events → .stop t ∈ s.events := by
      intro t ht
      rcases List.mem_cons.mp ht with heq | ht
      · cases heq
      · exact ht
    refine ⟨h.cooldown, h.seen, fun t ht => h.stops t (hstops t ht),
      fun _ t ht => h.running hrun t (hstops t ht), List.pairwise_cons.mpr ⟨?_, h.log⟩⟩
    rintro _ hmem t t' rfl hbatch
    rw [← GpuEvent.batch.inj hbatch]
    exact h.running hrun t hmem
  · exact h

theorem kept_guarded (w : World) (A : Argon2) (c : ℤ) : Kept w A (Guarded w c) where
  readClock _ h := h.readClock
  onQueue _ _ hstart _ h := h.of_sup (Supervisor.clock_step hstart)
  live _ ops h := h.of_gpu fun hrun => (gpuBackendRunning_live ops).symm.trans hrun
  stopBackend _ h := h.of_gpu fun hrun =>
    absurd (gpuBackendRunning_stopBackend.symm.trans hrun) Bool.false_ne_true
  beginCooldown s hstopped h := by
    rw [h.cooldown]
    exact h.beginCooldown hstopped
  lanes _ _ hgpu h := h.of_gpu fun hrun => hgpu.symm.trans hrun
  restart _ _ hover h :=
    ⟨h.cooldown, h.seen, h.stops, fun _ t ht => (h.stops t ht).2.trans hover, h.log⟩
  batch _ h := h.noteBatch
  hit _ _ _ h := h.noteBatch.of_sup (Supervisor.clock_step nofun)
  times _ _ _ _ _ h := ⟨h.cooldown, h.seen, h.stops, h.running, h.log⟩

theorem guarded_start (loop : LoopSettings) (caps : VramPolicy.VramCaps) (sup : Supervisor)
    (gpu : LaneSession) (startReply : EngineReply) :
    Guarded w loop.gpuCooldownS (start w A loop caps sup gpu startReply) where
  cooldown := rfl
  seen := w.now_mono (Nat.le_succ _)
  stops _ ht := by cases ht
  running _ _ ht := by cases ht
  log := List.Pairwise.nil

/-- **No batch is mined within the cooldown of a stop,** in no run of the loop. -/
theorem coolsDown_run (w : World) (A : Argon2) (loop : LoopSettings) (caps : VramPolicy.VramCaps)
    (sup : Supervisor) (gpu : LaneSession) (startReply : EngineReply) (passes : List Pass) :
    CoolsDown loop.gpuCooldownS
      (Run.final (pass w A) (start w A loop caps sup gpu startReply) passes).events :=
  ((kept_guarded w A _).run (guarded_start loop caps sup gpu startReply) passes).log

/-! ### The queue over the loop -/

def GpuEvent.isBatch : GpuEvent → Bool
  | .stop _ => false
  | .batch _ => true

/-- The batches mined so far. -/
def batches (s : RunLoop) : ℕ := s.events.countP GpuEvent.isBatch

/-- The counters add up over some hits, at most one for each batch. -/
def Tallied (rows : ℕ) (s : RunLoop) : Prop :=
  ∃ hits ≤ s.batches, Supervisor.Accounted rows hits 0 s.sup.queue

theorem batches_le_noteBatch : s.batches ≤ s.noteBatch.batches := by
  unfold noteBatch batches
  split_ifs
  · exact (List.sublist_cons_self _ _).countP_le
  · exact le_rfl

theorem kept_tallied (w : World) (A : Argon2) (rows : ℕ) : Kept w A (Tallied rows) where
  readClock _ h := h
  onQueue s op hstart hhit h := by
    obtain ⟨hits, hle, hsum⟩ := h
    have hnone : op.reports = 0 := by
      cases op with
      | hit hit => exact absurd rfl (hhit hit)
      | _ => rfl
    have hnext := Supervisor.accounted_step (w := w) (A := A) hsum op hstart
    rw [hnone] at hnext
    exact ⟨hits, hle, hnext⟩
  live _ _ h := h
  stopBackend _ h := h
  beginCooldown _ _ h := h
  lanes _ _ _ h := h
  restart _ _ _ h := h
  batch s h := by
    obtain ⟨hits, hle, hsum⟩ := h
    refine ⟨hits, hle.trans batches_le_noteBatch, ?_⟩
    unfold noteBatch
    split_ifs <;> exact hsum
  hit s hit hrun h := by
    obtain ⟨hits, hle, hsum⟩ := h
    have hnoted : s.noteBatch = { s with events := .batch s.seen :: s.events } := if_pos hrun
    rw [hnoted]
    refine ⟨hits + 1, ?_, Supervisor.accounted_step hsum (.hit hit) nofun⟩
    have hcount : (GpuEvent.batch s.seen :: s.events).countP GpuEvent.isBatch = s.batches + 1 :=
      List.countP_cons_of_pos (p := GpuEvent.isBatch) (a := .batch s.seen) rfl
    exact (Nat.succ_le_succ hle).trans_eq hcount.symm
  times _ _ _ _ _ h := h

theorem tallied_start (loop : LoopSettings) (caps : VramPolicy.VramCaps) (sup : Supervisor)
    (gpu : LaneSession) (startReply : EngineReply) :
    Tallied sup.queue.store.startSession.pending.length
      (start w A loop caps sup gpu startReply) := by
  have hstarted := Supervisor.accounted_start (w := w) (A := A) sup
  refine ⟨0, Nat.zero_le _, ?_⟩
  unfold start
  dsimp only
  exact hstarted

/-- **The counters add up over the loop.**  The blocks found are at most the batches, and every row that
was restored or queued is pending or counted. -/
theorem tallied_run (w : World) (A : Argon2) (loop : LoopSettings) (caps : VramPolicy.VramCaps)
    (sup : Supervisor) (gpu : LaneSession) (startReply : EngineReply) (passes : List Pass) :
    Tallied sup.queue.store.startSession.pending.length
      (Run.final (pass w A) (start w A loop caps sup gpu startReply) passes) :=
  (kept_tallied w A _).run (tallied_start loop caps sup gpu startReply) passes

/-! ### Emergencies -/

/-- **An emergency stops the backend before the pass can mine, and nothing else of the guard does.** -/
theorem gpuBackendRunning_applyGpuSafety (s : RunLoop) (snap : Option GpuSnapshot)
    (ops : List (EngineReply × RunningOp)) :
    (s.applyGpuSafety w A snap ops).1.gpuBackendRunning =
      (s.gpuBackendRunning && decide ((s.guard.evaluate snap).level ≠ .emergency)) := by
  unfold applyGpuSafety
  dsimp only
  cases hlevel : (s.guard.evaluate snap).level with
  | ok => exact (Bool.and_true _).symm
  | warn => exact (Bool.and_true _).symm
  | emergency =>
    rw [decide_eq_false (not_not.mpr rfl), Bool.and_false]
    dsimp only
    split_ifs with hgraceful hpaused
    · rw [Bool.and_eq_true, Bool.not_eq_true'] at hpaused
      exact hpaused.2
    · exact gpuBackendRunning_gracefulGpuStop
    · rw [gpuBackendRunning_beginCooldown, gpuBackendRunning_live]
      exact gpuBackendRunning_stopBackend

/-! ### The abort check -/

theorem boardTightenC_guard (h : 0 < s.sup.settings.vramReferenceDifficulty) :
    VramGuard.boardTightenC s.guard.context = VramGuard.boardTightenC s.tempContext := by
  have hcontext : s.guard.context = { s.tempContext with
      difficulty := max 0 s.tempContext.difficulty
      referenceDifficulty := max 1 s.tempContext.referenceDifficulty } := rfl
  have href : 1 ≤ s.tempContext.referenceDifficulty := h
  rw [hcontext]
  unfold VramGuard.boardTightenC
  dsimp only
  by_cases hdifficulty : 0 < s.tempContext.difficulty
  · rw [max_eq_right hdifficulty.le, max_eq_right href]
  · rw [max_eq_left (not_lt.mp hdifficulty), if_neg fun hon => absurd hon.2 (lt_irrefl 0),
      if_neg fun hon => hdifficulty hon.2]

/-- **The abort check of a batch and the guard of a pass agree:** the guard reports an emergency on a
snapshot exactly if it finds too little memory or the abort check would stop a batch. -/
theorem evaluate_emergency_iff (s : RunLoop) (h : 0 < s.sup.settings.vramReferenceDifficulty)
    (snap : GpuSnapshot) :
    (s.guard.evaluate (some snap)).level = .emergency ↔
      s.guard.emergencyLimit snap.totalMib ≤ snap.usedMib ∨
        snap.headroomMib ≤ s.guard.minHeadroomMib ∨ s.gpuTempAbortCheck (some snap) = true := by
  have habort : s.gpuTempAbortCheck (some snap) = (VramGuard.evaluateSnapshotTemps snap
      s.guard.warnTempC s.guard.maxTempC s.guard.warnBoardTempC s.guard.maxBoardTempC {}
      s.guard.context).abort := VramGuard.abort_evaluateSnapshotTemps snap (boardTightenC_guard h).symm
  rw [habort, ← VramGuard.level_evaluateSnapshotTemps_iff]
  unfold VramGuard.evaluate
  dsimp only
  split_ifs with hvram hfree htemp hwarn hdesktop
  · exact iff_of_true rfl (Or.inl hvram)
  · exact iff_of_true rfl (Or.inr (Or.inl hfree))
  · exact iff_of_true rfl (Or.inr (Or.inr htemp))
  all_goals exact iff_of_false nofun (by simp only [hvram, hfree, htemp, or_self, not_false_eq_true])

/-- A miner whose engine starts. -/
def sampleLoop : RunLoop :=
  start Supervisor.offline Argon2Common.sampleArgon2
    { maxSeconds := none, networkPollIntervalS := 10, statsIntervalS := 10, gpuCooldownS := 45
      maxBoardTempC := 90, warnBoardTempC := 85, gpuHighDiffTempEnabled := true
      gpuHighDiffTempStartRatio := 3 / 2, gpuHighDiffTempMaxTightenC := 12 }
    (VramPolicy.resolveVramCaps (({} : Settings).capsArgs 32768)) Supervisor.newMiner
    (.startWith { memoryCost := 100 } true 4 .absent (CudaLanePolicy.freshPolicy 4))
    CudaNativeBackend.steadyEngine

/-- A die at its limit is an emergency. -/
theorem evaluate_emergency_iff_hot :
    (sampleLoop.guard.evaluate (some
      { totalMib := 32768, usedMib := 1000, temperatureC := 84, gpuTempC := 84 })).level =
        .emergency :=
  (evaluate_emergency_iff sampleLoop (by decide +kernel) _).mpr (Or.inr (Or.inr (by decide +kernel)))

/-! ### After the cooldown -/

/-- Nothing is stopped and no batch is mined. -/
structure Quiet (s s' : RunLoop) : Prop where
  events : s'.events = s.events
  cooldownUntil : s'.cooldownUntil = s.cooldownUntil
  running : s'.running = s.running
  clock : s.sup.clock ≤ s'.sup.clock

theorem Quiet.trans {s s' s'' : RunLoop} (h : Quiet s s') (h' : Quiet s' s'') : Quiet s s'' :=
  ⟨h'.events.trans h.events, h'.cooldownUntil.trans h.cooldownUntil, h'.running.trans h.running,
    h.clock.trans h'.clock⟩

theorem quiet_readClock : Quiet s (s.readClock w).1 := ⟨rfl, rfl, rfl, Nat.le_succ _⟩

theorem quiet_timeUp : Quiet s (s.timeUp w).1 := by
  unfold timeUp
  split
  · exact quiet_readClock
  · exact ⟨rfl, rfl, rfl, le_rfl⟩

theorem quiet_pollNetwork {now : ℚ} : Quiet s (s.pollNetwork w A now) := by
  unfold pollNetwork
  have hop : Supervisor.Op.refresh ≠ .start := nofun
  split_ifs
  · exact ⟨rfl, rfl, rfl, Supervisor.clock_step hop⟩
  · exact ⟨rfl, rfl, rfl, le_rfl⟩

theorem quiet_live {ops : List (EngineReply × RunningOp)} : Quiet s (s.live ops) :=
  ⟨rfl, rfl, rfl, le_rfl⟩

/-- The state in which the guard looks at the GPU. -/
def checked (w : World) (A : Argon2) (s : RunLoop) (p : Pass) : RunLoop :=
  let s := (s.timeUp w).1
  ((s.readClock w).1.pollNetwork w A (s.readClock w).2).live (p.live 0)

theorem quiet_checked (s : RunLoop) (p : Pass) : Quiet s (s.checked w A p) :=
  ((quiet_timeUp.trans quiet_readClock).trans quiet_pollNetwork).trans quiet_live

theorem quiet_applyGpuSafety (A : Argon2) (ops : List (EngineReply × RunningOp))
    {snap : Option GpuSnapshot} (h : (s.guard.evaluate snap).level ≠ .emergency) :
    (s.applyGpuSafety w A snap ops).2 = true ∧ Quiet s (s.applyGpuSafety w A snap ops).1 := by
  unfold applyGpuSafety
  dsimp only
  cases hlevel : (s.guard.evaluate snap).level with
  | ok => exact ⟨rfl, rfl, rfl, rfl, le_rfl⟩
  | warn => exact ⟨rfl, quiet_readClock⟩
  | emergency => exact absurd hlevel h

theorem events_maybeRestartGpu {p : Pass} : (s.maybeRestartGpu w A p).events = s.events := by
  unfold maybeRestartGpu
  dsimp only
  split_ifs
  · rfl
  · rfl
  · split <;> rfl

theorem events_waitOut {now : ℚ} {p : Pass} : (s.waitOut w A now p).events = s.events :=
  events_maybeRestartGpu

/-- The backend is stopped, and the start that the pass makes of it raises. -/
structure StartRaises (s : RunLoop) (p : Pass) : Prop where
  stopped : s.gpuBackendRunning = false
  raises : ((s.gpu.applyLaneCapAfterTemp p.laneClock (p.restartSnap.map GpuSnapshot.temperatureC)
    s.sup.miningDifficulty).backend.start p.startReply).2 ≠ .ok ()

/-- After the cooldown the backend runs, or its start raised and the loop is left. -/
theorem maybeRestartGpu_of_over {p : Pass} (h : s.cooldownUntil ≤ w.now s.sup.clock) :
    (s.maybeRestartGpu w A p).running = false ∧ s.StartRaises p ∨
      (s.maybeRestartGpu w A p).running = s.running ∧
        (s.maybeRestartGpu w A p).gpuBackendRunning = true := by
  unfold maybeRestartGpu
  dsimp only
  split_ifs with hcooling hrunning
  · exact absurd hcooling (not_lt.mpr h)
  · exact Or.inr ⟨rfl, hrunning⟩
  · split
    next hended => exact Or.inr ⟨rfl, CudaNativeBackend.started_start hended⟩
    next error hended =>
      refine Or.inl ⟨rfl, eq_false_of_ne_true hrunning, fun hok => ?_⟩
      cases hended.symm.trans hok

/-- A running backend mines a batch, and perhaps is stopped behind it. -/
theorem events_mine {p : Pass} (h : s.gpuBackendRunning = true) :
    ∃ stops, (s.mine w A p).events = stops ++ .batch s.seen :: s.events := by
  have hnoted : s.noteBatch.events = .batch s.seen :: s.events := by
    unfold noteBatch
    rw [if_pos h]
  unfold mine
  dsimp only
  split
  · exact ⟨[], hnoted⟩
  · split_ifs
    · have hstop : ∃ t, (s.noteBatch.gracefulGpuStop w A s.noteBatch.loop.gpuCooldownS p.snap
          (p.live 1)).events = .stop t :: s.noteBatch.events := ⟨_, rfl⟩
      obtain ⟨t, hstop⟩ := hstop
      refine ⟨[.stop t], ?_⟩
      rw [events_waitOut, quiet_readClock.events, hstop, hnoted]
      rfl
    · split
      · exact ⟨[], hnoted⟩
      · exact ⟨[], hnoted⟩

theorem passOn_mines (A : Argon2) (now : ℚ) (p : Pass) (hrun : s.running = true)
    (h : s.cooldownUntil ≤ w.now s.sup.clock) :
    (s.passOn w A now p).running = false ∧ s.StartRaises p ∨
      ∃ time stops, (s.passOn w A now p).events = stops ++ .batch time :: s.events := by
  unfold passOn
  dsimp only
  rcases maybeRestartGpu_of_over (A := A) (p := p) h with ⟨hleft, hraises⟩ | ⟨hgoes, hbackend⟩
  · rw [if_pos hleft]
    exact Or.inl ⟨hleft, hraises⟩
  · split_ifs with hleft hpaused
    · exact absurd (hleft.symm.trans (hgoes.trans hrun)) Bool.false_ne_true
    · -- a running backend is not paused
      rw [Bool.and_eq_true, Bool.not_eq_true'] at hpaused
      exact absurd (hpaused.2.symm.trans hbackend) Bool.false_ne_true
    · right
      obtain ⟨stops, hevents⟩ := events_mine (w := w) (A := A) (p := p)
        (s := ((s.maybeRestartGpu w A p).readClock w).1) hbackend
      rw [quiet_readClock.events, events_maybeRestartGpu] at hevents
      exact ⟨_, stops, hevents⟩

/-- The state in which the guard lets the pass go on. -/
def guarded (w : World) (A : Argon2) (s : RunLoop) (p : Pass) : RunLoop :=
  ((s.checked w A p).applyGpuSafety w A p.snap (p.live 1)).1

/-- A pass without GPU readings and matches. -/
def samplePass : Pass where
  snap := none
  restartSnap := none
  checkSnap := fun _ => none
  laneClock := fun _ => ""
  startReply := CudaNativeBackend.steadyEngine
  lanes := fun _ =>
    { ok := true, error := "", attempts := 9000, hashrate := 450, elapsedMs := 20000
      batchSize := 9000, found := [] }
  completion := []
  now := 0
  live := fun _ => []

end RunLoop

end XenMiner
