import XenMiner.Core.Equiv.Supervisor

/-!
# One pending row per block

`record_rejection` and the import look for a pending row of the key first; `_queue_hit` does not.  So a
block that is reported again while its row is pending gets a second row (`keysDistinct_fails`), unless
its report comes to none of the exits that call `_queue_hit`: `keysDistinct_handleHit_iff`.  The keys
stay distinct in every run whose reports all meet this condition (`keysDistinct_run`).
-/

namespace XenMiner

open Argon2Common
open BlockStore SubmitResult
open Policy (inXuniWindow)

namespace BlockStore

variable {s : BlockStore} {now : ℤ} {hit : BlockHit} {reason : String}

theorem KeysDistinct.apply_of_none (h : s.KeysDistinct) (op : StoreOp)
    (hnone : ∀ key, ¬ s.newKey key op) : (s.apply op).KeysDistinct :=
  h.apply op fun key hkey => absurd hkey (hnone key)

theorem KeysDistinct.recordRejection (h : s.KeysDistinct) {httpStatus : ℤ} {body source : String}
    {pendingId : Option ℕ} {queueReason : Option String} :
    (s.recordRejection now hit httpStatus body source pendingId queueReason).1.KeysDistinct := by
  refine h.apply (.recordRejection now hit httpStatus body source pendingId queueReason) ?_
  intro key hkey
  cases pendingId with
  | some rowId => cases hkey
  | none => exact hkey.2

theorem KeysDistinct.recordDirectSubmit (h : s.KeysDistinct) {httpStatus : ℤ} {body : String} :
    (s.recordDirectSubmit now hit httpStatus body).KeysDistinct := h

/-- The import takes up no pending key. -/
theorem KeysDistinct.startSession (h : s.KeysDistinct) : s.startSession.KeysDistinct := by
  have himport := h.apply .importPendingFromJsonl fun key hkey => hkey.1
  have hmigrate := himport.apply_of_none .migrateRejectedPending fun _ => id
  exact hmigrate.apply_of_none .reclassifyPending fun _ => id

/-- `enqueue` does not look for the key. -/
theorem keysDistinct_enqueue_iff (h : s.KeysDistinct) :
    (s.enqueue now hit reason).KeysDistinct ↔ hit.key ∉ s.pendingKeys := by
  constructor
  · intro hdistinct hpending
    obtain ⟨x, hx, hkey⟩ := mem_pendingKeys.mp hpending
    obtain ⟨hmem, hstatus⟩ := mem_pending.mp hx
    have hold : x ∈ (s.enqueue now hit reason).pending :=
      mem_pending.mpr ⟨Table.mem_insert.mpr (Or.inl hmem), hstatus⟩
    have hnew : (s.pendingBlocks.nextId, queueRow now hit reason) ∈
        (s.enqueue now hit reason).pending :=
      mem_pending.mpr ⟨Table.mem_insert.mpr (Or.inr rfl), rfl⟩
    have hsame := hdistinct x hold _ hnew hkey
    have hlt := s.pendingBlocks.lt_next x hmem
    rw [hsame] at hlt
    exact lt_irrefl _ hlt
  · intro hnew
    refine h.apply (.enqueue now hit reason) ?_
    rintro key rfl
    exact hnew

end BlockStore

namespace QueueFlusher

variable {A : Argon2} {settings : Settings} {q : QueueFlusher} {env : FlushEnv} {onShutdown : Bool}

/-- A flush queues nothing. -/
theorem keysDistinct_flush (h : q.store.KeysDistinct) :
    (flush A settings q env onShutdown).1.store.KeysDistinct := by
  refine flush_induction (P := fun s _ _ => s.KeysDistinct) q h ?_
  rintro s sent dropped rowId row op o - - hs heffect
  cases heffect with
  | hold | keep => exact hs
  | mark => exact hs.apply_of_none _ fun _ => id
  | drop => exact hs.apply_of_none _ fun _ => id
  | accept => exact hs.apply_of_none _ fun _ => id
  | reject => exact hs.recordRejection

theorem keysDistinct_deferToNextStart {minute : ℕ → ℕ} (h : q.store.KeysDistinct) :
    (deferToNextStart q minute).1.store.KeysDistinct :=
  deferToNextStart_induction q minute h fun _ rowId reason _ hs =>
    hs.apply_of_none (.markPendingReason rowId reason) fun _ => id

end QueueFlusher

namespace Supervisor

variable {w : World} {A : Argon2} {s : Supervisor} {hit prepared : BlockHit} {kind reason : String}

/-- No two pending rows of the queue have the same key. -/
def DistinctQueue (q : QueueFlusher) : Prop := q.store.KeysDistinct

theorem keptByFlush_distinctQueue (A : Argon2) (settings : Settings) :
    KeptByFlush A settings DistinctQueue where
  metrics := fun _ _ h => h
  flush := fun _ _ _ h => QueueFlusher.keysDistinct_flush h

/-! ### The exits of `handle_hit` -/

/-- After this reply the block is queued by `_queue_hit`. -/
def isHeldReply (networkOk : Bool) (status : ℤ) (body : String) : Bool :=
  !submitAccepted status body &&
    (decide (status = 0) || !networkOk || isDifficultyMismatch status body ||
      isXuniWindowReject status body)

/-- A prepared hit comes to `_queue_hit` only while its key is not pending. -/
def PlacesNew (w : World) (A : Argon2) (s : Supervisor) (hit : BlockHit) (kind : String) : Prop :=
  if s.shuttingDown = true ∨ kind = "XUNI" ∧ inXuniWindow (w.minute s.minutes) = false then
    hit.key ∉ s.queue.store.pendingKeys
  else
    let (s, up) := refresh w A { s with minutes := s.minutes + 1 }
    up = false ∨ isHeldReply s.networkOk (w.reply s.replies).status (w.reply s.replies).body = true →
      hit.key ∉ s.queue.store.pendingKeys

/-- A hit comes to `_queue_hit` only while its key is not pending. -/
def QueuesNew (w : World) (A : Argon2) (s : Supervisor) (hit : BlockHit) : Prop :=
  let kind := hitKind (s.attachHitMemoryCost hit)
  if s.inDifficultyTransition w = true then hit.key ∉ s.queue.store.pendingKeys
  else
    ∀ prepared, (s.noteFound kind).prepareLiveHit A (s.attachHitMemoryCost hit) = some prepared →
      PlacesNew w A (s.noteFound kind) prepared kind

theorem keysDistinct_queueHit_iff (h : s.queue.store.KeysDistinct) :
    (s.queueHit w hit kind reason).queue.store.KeysDistinct ↔ hit.key ∉ s.queue.store.pendingKeys :=
  keysDistinct_enqueue_iff h

theorem keysDistinct_submitLive_iff (h : s.queue.store.KeysDistinct) :
    (s.submitLive w hit kind).queue.store.KeysDistinct ↔
      (isHeldReply s.networkOk (w.reply s.replies).status (w.reply s.replies).body = true →
        hit.key ∉ s.queue.store.pendingKeys) := by
  by_cases haccepted : submitAccepted (w.reply s.replies).status (w.reply s.replies).body = true
  · rw [submitLive_store_of_accepted haccepted]
    refine iff_of_true h.recordDirectSubmit fun hheld => ?_
    simp [isHeldReply, haccepted] at hheld
  · have hrefused := eq_false_of_ne_true haccepted
    have hnetwork : (s.sendLive w hit).1.networkOk = s.networkOk := rfl
    have hstore : (s.sendLive w hit).1.queue.store = s.queue.store := rfl
    rw [submitLive_store_of_refused hrefused, handleRefusal_store, hnetwork, hstore]
    split_ifs with hdown hmismatch hwindow
    · have hheld : isHeldReply s.networkOk (w.reply s.replies).status (w.reply s.replies).body =
          true := by
        rcases hdown with hzero | hoff
        · rw [isHeldReply, hrefused, decide_eq_true hzero]
          rfl
        · simp [isHeldReply, hrefused, hoff]
      rw [keysDistinct_enqueue_iff h.recordDirectSubmit]
      exact ⟨fun hkey _ => hkey, fun hkey => hkey hheld⟩
    · rw [keysDistinct_enqueue_iff h]
      exact ⟨fun hkey _ => hkey, fun hkey => hkey (by simp [isHeldReply, hrefused, hmismatch])⟩
    · rw [keysDistinct_enqueue_iff h]
      exact ⟨fun hkey _ => hkey, fun hkey => hkey (by simp [isHeldReply, hrefused, hwindow])⟩
    · -- `record_rejection` looks for the key
      refine iff_of_true h.recordRejection fun hheld => ?_
      rw [not_or] at hdown
      simp [isHeldReply, hrefused, hdown.1, hdown.2, hmismatch, hwindow] at hheld

theorem keysDistinct_placeHit_iff (h : s.queue.store.KeysDistinct) :
    (s.placeHit w A hit kind).queue.store.KeysDistinct ↔ PlacesNew w A s hit kind := by
  have hminute : ∀ reason,
      (queueHit w { s with minutes := s.minutes + 1 } hit kind reason).queue.store.KeysDistinct ↔
        hit.key ∉ s.queue.store.pendingKeys :=
    fun _ => keysDistinct_queueHit_iff (s := { s with minutes := s.minutes + 1 }) h
  have hrefresh : DistinctQueue (refresh w A { s with minutes := s.minutes + 1 }).1.queue :=
    refresh_queue (keptByFlush_distinctQueue A s.settings) h
  unfold placeHit PlacesNew
  dsimp only
  generalize refresh w A { s with minutes := s.minutes + 1 } = r at hrefresh ⊢
  by_cases hshutting : s.shuttingDown = true
  · rw [if_pos hshutting, if_pos (Or.inl hshutting)]
    split_ifs
    · exact hminute _
    · exact hminute _
  · rw [if_neg hshutting]
    by_cases hheld : kind = "XUNI" ∧ inXuniWindow (w.minute s.minutes) = false
    · rw [if_pos hheld, if_pos (Or.inr hheld)]
      exact hminute _
    · rw [if_neg hheld, if_neg (not_or.mpr ⟨hshutting, hheld⟩)]
      by_cases hup : r.2 = false
      · rw [if_pos hup, keysDistinct_queueHit_iff hrefresh]
        exact ⟨fun hkey _ => hkey, fun hkey => hkey (Or.inl hup)⟩
      · rw [if_neg hup, keysDistinct_submitLive_iff hrefresh]
        exact ⟨fun hkey hany => hkey (hany.resolve_left hup), fun hkey hreply => hkey (Or.inr hreply)⟩

/-- A report keeps the keys distinct if and only if it comes to `_queue_hit` only while its key is not
pending. -/
theorem keysDistinct_handleHit_iff (h : s.queue.store.KeysDistinct) :
    (s.handleHit w A hit).queue.store.KeysDistinct ↔ QueuesNew w A s hit := by
  have hfound : ∀ kind, (s.noteFound kind).queue.store.KeysDistinct := fun _ => h
  have hkey : (s.attachHitMemoryCost hit).key = hit.key := by
    unfold attachHitMemoryCost
    cases hit.memoryCost with
    | some c => rfl
    | none =>
      dsimp only
      cases s.backend <;> rfl
  unfold handleHit QueuesNew
  dsimp only
  by_cases hdeferred : s.inDifficultyTransition w = true
  · rw [if_pos hdeferred, if_pos hdeferred, keysDistinct_queueHit_iff (hfound _), hkey]
    rfl
  · rw [if_neg hdeferred, if_neg hdeferred]
    generalize hitKind (s.attachHitMemoryCost hit) = kind
    cases hprepared : (s.noteFound kind).prepareLiveHit A (s.attachHitMemoryCost hit) with
    | none => exact iff_of_true (hfound kind) fun _ hsome => by cases hsome
    | some prepared =>
      dsimp only
      rw [keysDistinct_placeHit_iff (hfound kind)]
      exact ⟨fun hplaces _ heq => Option.some.inj heq ▸ hplaces, fun hall => hall prepared rfl⟩

/-! ### Runs -/

/-- What happens in a run: the supervisor's operations, and an import or a rejection by itself. -/
inductive Event
  | session (op : Op)
  | importPendingFromJsonl
  | recordRejection (now : ℤ) (hit : BlockHit) (httpStatus : ℤ) (body source : String)
      (pendingId : Option ℕ) (queueReason : Option String)

def eventStep (w : World) (A : Argon2) (s : Supervisor) : Event → Supervisor
  | .session op => s.step w A op
  | .importPendingFromJsonl => s.withStore (s.queue.store.importPendingFromJsonl false).1
  | .recordRejection now hit httpStatus body source pendingId queueReason =>
    s.withStore (s.queue.store.recordRejection now hit httpStatus body source pendingId queueReason).1

/-- The reports of a run. -/
def ReportsNew (w : World) (A : Argon2) (s : Supervisor) (e : Event) : Prop :=
  ∀ hit, e = .session (.hit hit) → QueuesNew w A s hit

theorem distinctQueue_eventStep {e : Event} (h : DistinctQueue s.queue)
    (hnew : ReportsNew w A s e) : DistinctQueue (s.eventStep w A e).queue := by
  have hkept := keptByFlush_distinctQueue A s.settings
  cases e with
  | importPendingFromJsonl =>
    exact BlockStore.KeysDistinct.apply h .importPendingFromJsonl fun _ hkey => hkey.1
  | recordRejection => exact BlockStore.KeysDistinct.recordRejection h
  | session op =>
    cases op with
    | start => exact start_queue hkept (BlockStore.KeysDistinct.startSession h)
    | hit hit => exact (keysDistinct_handleHit_iff h).mpr (hnew hit rfl)
    | refresh => exact refresh_queue hkept h
    | tryFlush => exact tryFlushPendingQueue_queue hkept h
    | service => exact servicePendingQueue_queue hkept h
    | shutdown =>
      exact gracefulShutdown_queue hkept (fun _ _ => QueueFlusher.keysDistinct_deferToNextStart) h

theorem distinctQueue_create (settings : Settings) (workers : ℤ) (isCudaNative : Bool) :
    DistinctQueue (create settings workers isCudaNative .empty).queue :=
  fun _ hx => nomatch hx

/-- The reports of a run that keeps the keys distinct all meet the condition. -/
theorem meets_reportsNew {events : List Event} (h : DistinctQueue s.queue)
    (hkept : Run.Meets (eventStep w A) (fun s e => DistinctQueue (s.eventStep w A e).queue) s events) :
    Run.Meets (eventStep w A) (ReportsNew w A) s events := by
  refine hkept.imp_of_invariant (I := fun s : Supervisor => DistinctQueue s.queue) ?_ ?_ h
  · intro s e hbefore hafter
    exact hafter
  · rintro s e hbefore hafter hit rfl
    exact (keysDistinct_handleHit_iff hbefore).mp hafter

/-- **One pending row per block.**  A report keeps the keys distinct exactly if it comes to
`_queue_hit` only while its key is not pending; in every run, over any number of sessions, whose
reports all do, no two pending rows have the same key. -/
theorem keysDistinct_run (w : World) (A : Argon2) :
    (∀ (s : Supervisor) (hit : BlockHit), s.queue.store.KeysDistinct →
      ((s.handleHit w A hit).queue.store.KeysDistinct ↔ QueuesNew w A s hit)) ∧
    ∀ (settings : Settings) (workers : ℤ) (isCudaNative : Bool) (events : List Event),
      Run.Meets (eventStep w A) (ReportsNew w A) (create settings workers isCudaNative .empty) events →
      (Run.final (eventStep w A) (create settings workers isCudaNative .empty)
        events).queue.store.KeysDistinct := by
  refine ⟨fun s hit h => keysDistinct_handleHit_iff h, ?_⟩
  intro settings workers isCudaNative events hrun
  refine hrun.invariant (I := fun s : Supervisor => DistinctQueue s.queue)
    (fun s e h hnew => distinctQueue_eventStep h hnew) ?_
  exact distinctQueue_create settings workers isCudaNative

/-- A world without a network. -/
def downWorld : World := sampleWorld (fun _ => none) ⟨0, "timed out"⟩

def downMiner : Supervisor := create { memoryCost := 100 } 1 true .empty

/-- A world whose network is up for one status, at which the pool takes everything. -/
def briefWorld : World := sampleWorld (fun n => if n = 2 then some 100 else none) ⟨200, "ok"⟩

/-- The block is reported, sent, and reported once more. -/
def reportedTwice : List Event :=
  [.session .start, .session (.hit sampleBlock), .session .tryFlush, .session (.hit sampleBlock)]

def afterBrief (events : List Event) : Supervisor :=
  Run.final (eventStep briefWorld sampleArgon2) downMiner events

/-- A block that is no longer pending may be reported again. -/
theorem keysDistinct_run_again :
    (afterBrief (reportedTwice.take 2)).queue.store.pendingKeys = ["a"] ∧
      (afterBrief (reportedTwice.take 3)).queue.store.pendingKeys = [] ∧
      (afterBrief reportedTwice).queue.store.pendingKeys = ["a"] ∧
      (afterBrief reportedTwice).queue.store.KeysDistinct := by
  have hkept : Run.Meets (eventStep briefWorld sampleArgon2)
      (fun s e => DistinctQueue (s.eventStep briefWorld sampleArgon2 e).queue) downMiner
      reportedTwice := by
    unfold DistinctQueue KeysDistinct
    decide +kernel
  have hmeets := meets_reportsNew (distinctQueue_create _ _ _) hkept
  have hdistinct := (keysDistinct_run briefWorld sampleArgon2).2 { memoryCost := 100 } 1 true
    reportedTwice hmeets
  refine ⟨by decide +kernel, by decide +kernel, by decide +kernel, ?_⟩
  unfold afterBrief downMiner
  exact hdistinct

/-- The network is down, and the block is reported once in each of two sessions: it then has two
pending rows. -/
theorem keysDistinct_fails :
    ¬ (Run.final (eventStep downWorld sampleArgon2) downMiner
      [.session .start, .session (.hit sampleBlock), .session .start,
        .session (.hit sampleBlock)]).queue.store.KeysDistinct := by
  unfold KeysDistinct
  decide +kernel

end Supervisor

end XenMiner
