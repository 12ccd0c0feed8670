import XenMiner.BlockQueue.Equiv.Balance
import XenMiner.Core.Equiv.Supervisor
import XenMiner.Lib.Run

/-!
# The counters of a session add up

Between hits the queue changes by flushes only, and each is followed by `sync_pending` (`Flushed`).  So
the queue that is shown is the one in the database (`queued_eq_pendingCount`), and every row that a
session found or queued is still pending or counted as gone (`queue_balance`).
-/

namespace XenMiner

open Argon2Common (Argon2 sampleArgon2 sampleBlock)
open BlockStore QueueFlusher SubmitResult

namespace Supervisor

variable {w : World} {A : Argon2} {settings : Settings} {s : Supervisor} {q q' q'' : QueueFlusher}
  {hit : BlockHit} {kind reason : String}

/-! ### Flushes between hits -/

/-- A flush, and the `sync_pending` behind it. -/
def flushAndSync (A : Argon2) (settings : Settings) (q : QueueFlusher) (env : FlushEnv)
    (onShutdown : Bool) : QueueFlusher :=
  let q := (QueueFlusher.flush A settings q env onShutdown).1
  { q with metrics := q.metrics.syncPending (q.store.pendingCount none) }

/-- The queue after some flushes. -/
inductive Flushed (A : Argon2) (settings : Settings) (q : QueueFlusher) : QueueFlusher → Prop
  | refl : Flushed A settings q q
  | flush {q' : QueueFlusher} (env : FlushEnv) (onShutdown : Bool) (h : Flushed A settings q q') :
    Flushed A settings q (flushAndSync A settings q' env onShutdown)

theorem Flushed.trans (h : Flushed A settings q q') (h' : Flushed A settings q' q'') :
    Flushed A settings q q'' := by
  induction h' with
  | refl => exact h
  | flush env onShutdown _ ih => exact ih.flush env onShutdown

theorem Flushed.of_eq (h : q' = q) : Flushed A settings q q' := h ▸ .refl

theorem flush_syncPending_queue {onShutdown : Bool} :
    (s.flush w A onShutdown).1.syncPending.queue =
      flushAndSync A s.settings s.queue (s.flushEnv w) onShutdown := rfl

theorem flushed_tryFlushWith {f : Supervisor → Supervisor × Bool}
    (hsettings : (f s.tick).1.settings = s.settings)
    (hf : Flushed A s.settings s.queue (f s.tick).1.queue) :
    Flushed A s.settings s.queue (s.tryFlushWith w A f).1.queue := by
  unfold tryFlushWith
  split_ifs
  · exact .refl
  · exact .refl
  · dsimp only
    split_ifs
    · exact hf
    · rw [flush_syncPending_queue, hsettings]
      exact hf.flush _ false

theorem flushed_refreshNetwork (depth : ℕ) (s : Supervisor) :
    Flushed A s.settings s.queue (refreshNetwork w A depth s).1.queue := by
  have hnoted : Flushed A s.settings s.queue (s.noteStatus w).1.queue := .of_eq noteStatus_queue
  induction depth generalizing s with
  | zero =>
    rw [refreshNetwork]
    dsimp only
    split_ifs
    · exact hnoted
    · exact hnoted
  | succ depth ih =>
    rw [refreshNetwork]
    dsimp only
    split_ifs
    · -- the flush on recovery, over the refresh of one level less
      have hsettings := (advances_noteStatus (w := w) (s := s)).settings
      have hflush := flushed_tryFlushWith (w := w) (s := (s.noteStatus w).1)
        (advances_refreshNetwork depth _).settings (ih (s.noteStatus w).1.tick (.of_eq noteStatus_queue))
      rw [hsettings] at hflush
      exact hnoted.trans hflush
    · exact hnoted

theorem flushed_refresh (s : Supervisor) :
    Flushed A s.settings s.queue (s.refresh w A).1.queue := flushed_refreshNetwork 1 s

theorem flushed_tryFlushPendingQueue (s : Supervisor) :
    Flushed A s.settings s.queue (s.tryFlushPendingQueue w A).1.queue :=
  flushed_tryFlushWith (advances_refresh s.tick).settings (flushed_refresh s.tick)

theorem flushed_noteWindow {inWindow : Bool} {pendingXuni : ℕ} {now queueFlush xuniFlush : ℚ} :
    Flushed A s.settings s.queue
      (s.noteWindow w A inWindow pendingXuni now queueFlush xuniFlush).1.queue := by
  unfold noteWindow
  split_ifs
  · exact flushed_tryFlushPendingQueue { s with wasInXuniWindow := true }
  · exact .refl
  · exact .refl
  · exact .refl

theorem flushed_servicePendingQueue {now queueFlush xuniFlush interval : ℚ} {aggressive : Bool} :
    Flushed A s.settings s.queue
      (s.servicePendingQueue w A now queueFlush xuniFlush interval aggressive).1.queue := by
  unfold servicePendingQueue
  dsimp only
  generalize hnoted : noteWindow w A { s with minutes := s.minutes + 1 } _ _ now queueFlush
    xuniFlush = noted
  have hwindow : noted.1.settings = s.settings ∧ Flushed A s.settings s.queue noted.1.queue := by
    rw [← hnoted]
    exact ⟨advances_noteWindow.settings, flushed_noteWindow (s := { s with minutes := s.minutes + 1 })⟩
  have hflush : Flushed A s.settings s.queue (noted.1.tryFlushPendingQueue w A).1.queue := by
    have hlast := flushed_tryFlushPendingQueue (w := w) (A := A) noted.1
    rw [hwindow.1] at hlast
    exact hwindow.2.trans hlast
  generalize (if aggressive = true then (5 : ℚ) else 30) = flushInterval
  split_ifs
  · exact hflush
  · exact hflush
  · exact hwindow.2

theorem flushed_resumeQueuedBlocks :
    Flushed A s.settings s.queue (s.resumeQueuedBlocks w A).queue := by
  unfold resumeQueuedBlocks
  dsimp only
  generalize (if (s.queue.store.pendingByType none).xuni ≠ 0 ∧
    Policy.inXuniWindow (w.minute s.minutes) = false then _ else 0) = xuniWaiting
  split_ifs
  · exact .refl
  · exact .refl
  · exact .flush _ false .refl
  · exact .refl

/-! ### The exits of `handle_hit` -/

/-- **Rule for a hit.**  `P` holds while the hit is being placed, `Q` once it is: it is a false positive,
it is queued, or it is submitted. -/
theorem handleHit_rule {P Q : QueueFlusher → Prop}
    (hkept : ∀ {q q'}, Flushed A s.settings q q' → P q → P q')
    (hfound : ∀ kind, P (s.noteFound kind).queue) (hfilter : ∀ {q}, P q → Q q)
    (hqueue : ∀ (s' : Supervisor) hit kind reason, P s'.queue →
      Q (s'.queueHit w hit kind reason).queue)
    (hsubmit : ∀ (s' : Supervisor) hit kind, P s'.queue → Q (s'.submitLive w hit kind).queue) :
    Q (s.handleHit w A hit).queue := by
  have hplace : ∀ (s' : Supervisor) hit kind, s'.settings = s.settings → P s'.queue →
      Q (s'.placeHit w A hit kind).queue := by
    intro s' hit kind hsettings h
    have hrefresh : P (refresh w A { s' with minutes := s'.minutes + 1 }).1.queue := by
      have hflushed := flushed_refresh (w := w) (A := A) { s' with minutes := s'.minutes + 1 }
      exact hkept (hsettings ▸ hflushed) h
    unfold placeHit
    dsimp only
    split_ifs
    · exact hqueue _ _ _ _ h
    · exact hqueue _ _ _ _ h
    · exact hqueue _ _ _ _ h
    · exact hqueue _ _ _ _ hrefresh
    · exact hsubmit _ _ _ hrefresh
  unfold handleHit
  dsimp only
  split_ifs
  · exact hqueue _ _ _ _ (hfound _)
  · split
    · exact hfilter (hfound _)
    · exact hplace _ _ _ rfl (hfound _)

/-! ### What the session shows -/

/-- The shown queue is the one in the database. -/
def Synced (q : QueueFlusher) : Prop := q.metrics.stats.queued = q.store.pendingCount none

theorem Synced.flushed (h : Synced q) (hq : Flushed A settings q q') : Synced q' := by
  cases hq with
  | refl => exact h
  | flush => exact rfl

theorem synced_handleRefusal {status : ℤ} {body : String} (h : Synced s.queue) :
    Synced (s.handleRefusal w hit kind status body).queue := by
  unfold handleRefusal
  dsimp only
  generalize hr : s.queue.store.recordRejection (s.stamp w) hit status body "live" none none = r
  by_cases hdown : status = 0 ∨ s.networkOk = false
  · rw [if_pos hdown]
    exact rfl
  rw [if_neg hdown]
  by_cases hmismatch : isDifficultyMismatch status body = true
  · rw [if_pos hmismatch]
    exact rfl
  rw [if_neg hmismatch]
  by_cases hwindow : isXuniWindowReject status body = true
  · rw [if_pos hwindow]
    exact rfl
  rw [if_neg hwindow]
  by_cases hnew : r.2 = true
  · rw [if_pos hnew]
    exact rfl
  rw [if_neg hnew]
  -- a row that was pending already is counted, which no query by type can see
  have hlabels : r.1.pendingLabels = s.queue.store.pendingLabels := by
    rw [← hr] at hnew ⊢
    rw [pendingLabels_recordRejection, if_neg hnew, List.append_nil]
  have hcount : s.queue.metrics.stats.queued = r.1.pendingCount none :=
    h.trans (congrArg KindCounts.total (pendingByType_eq_of_labels hlabels).symm)
  split_ifs
  · refine Eq.trans ?_ hcount
    show (s.queue.metrics.recordRejectedLive kind hit.key).stats.queued = _
    unfold MetricsTracker.recordRejectedLive
    split_ifs <;> rfl
  · exact hcount

theorem synced_submitLive (h : Synced s.queue) : Synced (s.submitLive w hit kind).queue := by
  have hsent : Synced (s.sendLive w hit).1.queue := h
  unfold submitLive
  dsimp only
  split_ifs
  · exact hsent
  · exact synced_handleRefusal hsent

/-- The queue of a new process: the restored rows and new counters. -/
def restored (q : QueueFlusher) : QueueFlusher :=
  { q with
    store := q.store.startSession
    metrics := ({} : MetricsTracker).syncPending (q.store.startSession.pendingCount none) }

/-- A session begins with flushes of the restored queue. -/
theorem start_queue_cases (s : Supervisor) : ∃ s' : Supervisor,
    Flushed A s.settings (restored s.queue) s'.queue ∧
      (s.start w A).queue = s'.syncPending.queue := by
  have hconnect : ∀ {s' c : Supervisor}, s'.connect w = c → s'.queue = restored s.queue →
      s'.settings = s.settings → Flushed A s.settings (restored s.queue)
        (c.resumeQueuedBlocks w A).queue := by
    rintro s' _ rfl hq hsettings
    have hresumed := flushed_resumeQueuedBlocks (w := w) (A := A) (s := s'.connect w)
    rwa [connect_queue, connect_settings, hq, hsettings] at hresumed
  unfold start
  dsimp only
  generalize hc : connect w _ = c
  exact ⟨_, hconnect hc rfl rfl, rfl⟩

/-- `_graceful_shutdown` flushes, or it defers what is pending. -/
theorem gracefulShutdown_queue_cases (s : Supervisor) :
    Flushed A s.settings s.queue (s.gracefulShutdown w A).queue ∨
      ∃ (s' : Supervisor) (minute : ℕ → ℕ), Flushed A s.settings s.queue s'.queue ∧
        (s.gracefulShutdown w A).queue =
          (s'.withQueue (deferToNextStart s'.queue minute).1).syncPending.queue := by
  unfold gracefulShutdown
  split_ifs
  · exact Or.inl .refl
  dsimp only
  generalize (if (s.queue.store.pendingByType none).xuni ≠ 0 ∧
    Policy.inXuniWindow (w.minute s.minutes) = false then _ else 0) = xuniHeld
  generalize hr : (if s.networkOk = true then refresh w A _ else _) = r
  have hrefreshed : r.1.settings = s.settings ∧ Flushed A s.settings s.queue r.1.queue := by
    rw [← hr]
    split_ifs
    · exact ⟨(advances_refresh _).settings,
        flushed_refresh { s with shuttingDown := true, minutes := s.minutes + 1 }⟩
    · exact ⟨rfl, .refl⟩
  split_ifs
  · exact Or.inl .refl
  · left
    rw [flush_syncPending_queue, hrefreshed.1]
    exact hrefreshed.2.flush _ true
  · exact Or.inr ⟨r.1, _, hrefreshed.2, rfl⟩

theorem synced_start (s : Supervisor) : Synced (s.start w A).queue := by
  obtain ⟨s', -, heq⟩ := start_queue_cases (w := w) (A := A) s
  rw [heq]
  exact rfl

theorem synced_step (h : Synced s.queue) (op : Op) : Synced (s.step w A op).queue := by
  cases op with
  | start => exact synced_start s
  | hit hit =>
    exact handleHit_rule (P := Synced) (fun hq h => h.flushed hq) (fun _ => h) id
      (fun _ _ _ _ _ => rfl) fun _ _ _ => synced_submitLive
  | refresh => exact h.flushed (flushed_refresh s)
  | tryFlush => exact h.flushed (flushed_tryFlushPendingQueue s)
  | service => exact h.flushed flushed_servicePendingQueue
  | shutdown =>
    rcases gracefulShutdown_queue_cases (w := w) (A := A) s with hq | ⟨s', minute, -, heq⟩
    · exact h.flushed hq
    · exact (congrArg Synced heq).mpr rfl

/-- **The queue that a session shows is the one in its database,** after every operation. -/
theorem queued_eq_pendingCount (w : World) (A : Argon2) (s : Supervisor) (ops : List Op) :
    let q := (Run.final (step w A) (s.start w A) ops).queue
    q.metrics.stats.queued = q.store.pendingCount none :=
  Run.invariant (I := fun s : Supervisor => Synced s.queue) (fun _ op h => synced_step h op)
    (synced_start s)

/-! ### What becomes of the rows -/

/-- The counters add up: `rows` rows were pending when the session began, `hits` blocks were
reported, and one of these is being placed or none. -/
structure Accounted (rows hits placing : ℕ) (q : QueueFlusher) : Prop where
  balance : q.balance =
    rows + q.metrics.stats.enqueued.total + q.metrics.stats.resubmission.total
  placed : q.metrics.stats.enqueued.total + q.metrics.stats.acceptedLive.total +
    q.metrics.stats.resubmission.total + placing ≤ hits
  found : q.metrics.stats.found.total = hits
  sessionHits : q.metrics.stats.sessionHits = hits

section Accounted

variable {rows hits placing : ℕ}

/-- What a flush does to the counters. -/
theorem Accounted.of_accounts {n : ℕ} (h : Accounted rows hits placing q)
    (hm : Accounts n q.metrics q'.metrics) (hbalance : q'.balance = q.balance) :
    Accounted rows hits placing q' where
  balance := by rw [hbalance, h.balance, hm.enqueued, hm.resubmission]
  placed := by
    rw [hm.enqueued, hm.acceptedLive, hm.resubmission]
    exact h.placed
  found := by rw [hm.found, h.found]
  sessionHits := hm.sessionHits.trans h.sessionHits

theorem Accounted.synced (h : Accounted rows hits placing q) (n : ℕ) :
    Accounted rows hits placing { q with metrics := q.metrics.syncPending n } := ⟨h.1, h.2, h.3, h.4⟩

theorem Accounted.flushed (h : Accounted rows hits placing q) (hq : Flushed A settings q q') :
    Accounted rows hits placing q' := by
  induction hq with
  | refl => exact h
  | @flush q' env onShutdown _ ih =>
    obtain ⟨n, hn⟩ := accounts_flush A settings env onShutdown q'
    exact (ih.of_accounts hn (balance_flush q')).synced _

theorem accounted_restored (q : QueueFlusher) :
    Accounted q.store.startSession.pending.length 0 0 (restored q) := ⟨rfl, le_rfl, rfl, rfl⟩

theorem Accounted.syncPending (h : Accounted rows hits placing s.queue) :
    Accounted rows hits placing s.syncPending.queue := h.synced _

/-- A hit that is a false positive needs no place. -/
theorem Accounted.placed_false (h : Accounted rows hits 1 q) : Accounted rows hits 0 q :=
  ⟨h.balance, (Nat.le_add_right _ 1).trans h.placed, h.found, h.sessionHits⟩

theorem Accounted.noteFound (h : Accounted rows hits 0 s.queue) (kind : String) :
    Accounted rows (hits + 1) 1 (s.noteFound kind).queue := by
  have hfound := h.found
  unfold Supervisor.noteFound MetricsTracker.recordFound
  constructor
  · exact h.balance
  · exact Nat.add_le_add_right h.placed 1
  · dsimp only [tick, withMetrics, withQueue]
    rw [total_inc, hfound]
  · exact congrArg (· + 1) h.sessionHits

/-! A hit is placed: it gets a row, or the pool takes it. -/

theorem Accounted.enqueued {store : BlockStore} (h : Accounted rows hits 1 q)
    (hstore : store.pending.length = q.store.pending.length + 1) (kind : String) (n : ℕ) :
    Accounted rows hits 0
      { q with store := store, metrics := (q.metrics.recordEnqueued kind).syncPending n } := by
  have hbalance := h.balance
  have hplaced := h.placed
  unfold QueueFlusher.balance at hbalance
  unfold MetricsTracker.syncPending MetricsTracker.recordEnqueued
  constructor
  · unfold QueueFlusher.balance
    dsimp only
    rw [total_inc]
    omega
  · dsimp only
    rw [total_inc]
    omega
  · dsimp only
    exact h.found
  · dsimp only
    exact h.sessionHits

theorem Accounted.resubmitted {store : BlockStore} (h : Accounted rows hits 1 q)
    (hstore : store.pending.length = q.store.pending.length + 1) (kind : String) (n : ℕ) :
    Accounted rows hits 0
      { q with store := store, metrics := (q.metrics.recordResubmission kind).syncPending n } := by
  have hbalance := h.balance
  have hplaced := h.placed
  unfold QueueFlusher.balance at hbalance
  unfold MetricsTracker.syncPending MetricsTracker.recordResubmission
  constructor
  · unfold QueueFlusher.balance
    dsimp only
    rw [total_inc]
    omega
  · dsimp only
    rw [total_inc]
    omega
  · dsimp only
    exact h.found
  · dsimp only
    exact h.sessionHits

theorem Accounted.accepted (h : Accounted rows hits 1 q) (kind : String) :
    Accounted rows hits 0 { q with metrics := q.metrics.recordAcceptedLive kind } := by
  have hplaced := h.placed
  unfold MetricsTracker.recordAcceptedLive
  constructor
  · exact h.balance
  · dsimp only
    rw [total_inc]
    omega
  · dsimp only
    exact h.found
  · dsimp only
    exact h.sessionHits

/-- Only the pending rows of the store are counted. -/
theorem Accounted.withStore {store : BlockStore} (h : Accounted rows hits placing q)
    (hstore : store.pending.length = q.store.pending.length) :
    Accounted rows hits placing { q with store := store } := by
  refine h.of_accounts (Accounts.refl q.metrics) ?_
  unfold QueueFlusher.balance
  rw [hstore]

theorem length_pending_enqueue (store : BlockStore) (now : ℤ) (hit : BlockHit) (reason : String) :
    (store.enqueue now hit reason).pending.length = store.pending.length + 1 := by
  rw [← length_pendingLabels, pendingLabels_enqueue, List.length_append, length_pendingLabels]
  rfl

theorem accounted_queueHit (h : Accounted rows hits 1 s.queue) :
    Accounted rows hits 0 (s.queueHit w hit kind reason).queue :=
  h.enqueued (length_pending_enqueue _ _ _ _) kind _

theorem accounted_handleRefusal {status : ℤ} {body : String} (h : Accounted rows hits 1 s.queue) :
    Accounted rows hits 0 (s.handleRefusal w hit kind status body).queue := by
  unfold handleRefusal
  dsimp only
  generalize hr : s.queue.store.recordRejection (s.stamp w) hit status body "live" none none = r
  by_cases hdown : status = 0 ∨ s.networkOk = false
  · rw [if_pos hdown]
    exact accounted_queueHit (h.withStore rfl)
  rw [if_neg hdown]
  by_cases hmismatch : isDifficultyMismatch status body = true
  · rw [if_pos hmismatch]
    exact accounted_queueHit h
  rw [if_neg hmismatch]
  by_cases hwindow : isXuniWindowReject status body = true
  · rw [if_pos hwindow]
    exact accounted_queueHit h
  rw [if_neg hwindow]
  have hlength : r.1.pending.length = s.queue.store.pending.length + if r.2 = true then 1 else 0 := by
    rw [← hr, ← length_pendingLabels, pendingLabels_recordRejection, List.length_append,
      length_pendingLabels]
    split_ifs <;> rfl
  -- what the reject counters say is counted nowhere else
  have hreject : ∀ {q}, Accounted rows hits 1 q →
      Accounted rows hits 1 { q with metrics := q.metrics.recordRejectedLive kind hit.key } := by
    intro q hq
    refine hq.of_accounts (n := 0) ?_ ?_
    · unfold MetricsTracker.recordRejectedLive
      split_ifs
      · exact Accounts.refl _
      · exact ⟨rfl, rfl, rfl, rfl, rfl, rfl⟩
    · unfold QueueFlusher.balance MetricsTracker.recordRejectedLive
      split_ifs <;> rfl
  by_cases hnew : r.2 = true
  · rw [if_pos hnew] at hlength ⊢
    split_ifs
    · exact (hreject h).resubmitted hlength kind _
    · exact h.resubmitted hlength kind _
  · rw [if_neg hnew] at hlength ⊢
    split_ifs
    · exact ((hreject h).withStore hlength).placed_false
    · exact (h.withStore hlength).placed_false

theorem accounted_submitLive (h : Accounted rows hits 1 s.queue) :
    Accounted rows hits 0 (s.submitLive w hit kind).queue := by
  have hsent : Accounted rows hits 1 (s.sendLive w hit).1.queue := h.of_accounts (Accounts.refl _) rfl
  unfold submitLive
  dsimp only
  split_ifs
  · exact (hsent.accepted kind).withStore rfl
  · exact accounted_handleRefusal hsent

/-! ### Sessions -/

theorem accounted_start (s : Supervisor) :
    Accounted s.queue.store.startSession.pending.length 0 0 (s.start w A).queue := by
  obtain ⟨s', hflushed, heq⟩ := start_queue_cases (w := w) (A := A) s
  rw [heq]
  exact ((accounted_restored s.queue).flushed hflushed).syncPending

/-- The blocks that an operation reports. -/
def Op.reports : Op → ℕ
  | .hit _ => 1
  | _ => 0

theorem accounted_step (h : Accounted rows hits 0 s.queue) (op : Op) (hop : op ≠ .start) :
    Accounted rows (hits + op.reports) 0 (s.step w A op).queue := by
  cases op with
  | start => exact absurd rfl hop
  | hit hit =>
    exact handleHit_rule (P := Accounted rows (hits + 1) 1) (fun hq h => h.flushed hq) h.noteFound
      Accounted.placed_false (fun _ _ _ _ => accounted_queueHit) fun _ _ _ => accounted_submitLive
  | refresh => exact h.flushed (flushed_refresh s)
  | tryFlush => exact h.flushed (flushed_tryFlushPendingQueue s)
  | service => exact h.flushed flushed_servicePendingQueue
  | shutdown =>
    rcases gracefulShutdown_queue_cases (w := w) (A := A) s with hq | ⟨s', minute, hq, heq⟩
    · exact h.flushed hq
    · have hdeferred : Accounted rows hits 0 (deferToNextStart s'.queue minute).1 :=
        (h.flushed hq).of_accounts (Accounts.refl s'.queue.metrics)
          (balance_deferToNextStart s'.queue minute)
      have hsynced := Accounted.syncPending (s := s'.withQueue (deferToNextStart s'.queue minute).1)
        hdeferred
      exact (congrArg (Accounted rows hits 0) heq).mpr hsynced

/-- **No row of a session is lost.**  The pending rows, the rows the pool took in flushes and the rows
dropped as false positives are the rows restored at the start, the blocks queued and the rejected blocks
queued again.  No block that was found is placed twice. -/
theorem queue_balance (w : World) (A : Argon2) (s : Supervisor) (ops : List Op)
    (hops : ∀ op ∈ ops, op ≠ .start) :
    Accounted s.queue.store.startSession.pending.length (ops.map Op.reports).sum 0
      (Run.final (step w A) (s.start w A) ops).queue := by
  have hrun : ∀ (ops : List Op) (s' : Supervisor) (rows hits : ℕ), (∀ op ∈ ops, op ≠ .start) →
      Accounted rows hits 0 s'.queue →
      Accounted rows (hits + (ops.map Op.reports).sum) 0 (Run.final (step w A) s' ops).queue := by
    intro ops
    induction ops with
    | nil => exact fun _ _ _ _ h => h
    | cons op ops ih =>
      intro s' rows hits hops h
      obtain ⟨hop, hops⟩ := List.forall_mem_cons.mp hops
      rw [List.map_cons, List.sum_cons, ← Nat.add_assoc, Run.final_cons]
      exact ih _ _ _ hops (accounted_step h op hop)
  have hend := hrun ops (s.start w A) _ 0 hops (accounted_start s)
  rwa [Nat.zero_add] at hend

/-- A world without a network, a new miner in it, and a session of one block. -/
def offline : World := sampleWorld (fun _ => none) ⟨0, "timed out"⟩

def newMiner : Supervisor := create { memoryCost := 100 } 1 true .empty

def offlineSession : List Op := [.hit sampleBlock, .shutdown]

/-- The network is down: the block that is reported is queued, and deferred at the end. -/
theorem queue_balance_offline :
    (Run.final (step offline sampleArgon2) (newMiner.start offline sampleArgon2)
      offlineSession).queue.store.pending.length = 1 ∧
    Accounted newMiner.queue.store.startSession.pending.length
      (offlineSession.map Op.reports).sum 0
      (Run.final (step offline sampleArgon2) (newMiner.start offline sampleArgon2)
        offlineSession).queue :=
  ⟨by decide +kernel, queue_balance _ _ _ _ (by simp [offlineSession])⟩

end Accounted

end Supervisor

end XenMiner
