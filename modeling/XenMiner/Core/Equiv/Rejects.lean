import XenMiner.BlockQueue.Equiv.Rejects
import XenMiner.Core.Equiv.Supervisor
import XenMiner.Lib.Run

/-!
# Live submissions and the queue agree on rejections

A flush notes a rejection only for a reply that counts as one.  A live submission notes everything
but the waits: a gateway timeout as a rejection (`rejects_timeout`), and a failure of the network as
a failed submission, which the next start takes for a rejection.  `rejects_counted` shows that in a
run whose replies are all clear, every rejection comes from a reply that counts.
-/

namespace XenMiner

open Argon2Common (Argon2 sampleArgon2 sampleBlock)
open BlockStore SubmitResult
open QueueFlusher (Justified)

namespace Supervisor

variable {w : World} {A : Argon2} {s : Supervisor} {hit : BlockHit} {kind : String} {status : ℤ}
  {body : String} {sent : List Sent}

/-- The rejections of the queue are those of clear replies. -/
def JustifiedQueue (q : QueueFlusher) : Prop := Justified [] q.store q.sent q.dropped

theorem keptByFlush_justifiedQueue (A : Argon2) (settings : Settings) :
    KeptByFlush A settings JustifiedQueue where
  metrics := fun _ _ h => h
  flush := fun _ _ _ h => QueueFlusher.justified_flush h

/-! ### A hit -/

theorem justified_queueHit {reason : String} (hreason : reason ≠ resubmissionReason)
    (h : JustifiedQueue s.queue) : JustifiedQueue (s.queueHit w hit kind reason).queue := by
  exact h.applyOnly (.enqueue (s.stamp w) hit reason) fun _ heq => absurd heq hreason

theorem backed_handleRefusal (h : s.queue.store.Backed sent)
    (hanswer : Answered sent hit.key status body) (hclear : ClearRefusal s.networkOk status body) :
    (s.handleRefusal w hit kind status body).queue.store.Backed sent := by
  have hqueue : ∀ {store : BlockStore} {reason}, store.Backed sent → reason ≠ resubmissionReason →
      (store.enqueue (s.stamp w) hit reason).Backed sent :=
    fun hstore hreason => hstore.enqueue fun heq => absurd heq hreason
  rw [handleRefusal_store]
  split_ifs with hdown hmismatch hwindow
  · -- Without an HTTP status or without a network, only a counted reject is clear.
    have hcounts : countsAsReject status body = true := by
      rcases hclear with hcounts | ⟨hup, hwait⟩
      · exact hcounts
      · rcases hdown with rfl | hdown
        · simp [isDifficultyMismatch, isXuniWindowReject] at hwait
        · rw [hup] at hdown
          cases hdown
    exact hqueue (h.apply (.recordDirectSubmit _ hit status body)
      ⟨hanswer, Or.inl hcounts⟩) (by decide)
  · exact hqueue h (by decide)
  · exact hqueue h (by decide)
  · have hcounts : countsAsReject status body = true := by
      rcases hclear with hcounts | ⟨-, hwait⟩
      · exact hcounts
      · exact absurd hwait (not_or.mpr ⟨hmismatch, hwindow⟩)
    exact h.apply (.recordRejection _ hit status body "live" none none)
      ⟨⟨hanswer, hcounts⟩, fun _ _ hid => nomatch hid⟩

/-- After a refusal, the block is pending. -/
theorem mem_pendingKeys_handleRefusal :
    hit.key ∈ (s.handleRefusal w hit kind status body).queue.store.pendingKeys := by
  rw [handleRefusal_store]
  split_ifs
  · exact mem_pendingKeys_enqueue
  · exact mem_pendingKeys_enqueue
  · exact mem_pendingKeys_enqueue
  · exact mem_pendingKeys_recordRejection

/-- A refusal takes nothing out of the queue. -/
theorem held_handleRefusal {key : String} (h : s.queue.store.Held sent key) :
    (s.handleRefusal w hit kind status body).queue.store.Held sent key := by
  have hkeep : ∀ {store : BlockStore} (op : StoreOp), store.Held sent key →
      (∀ now rowId httpStatus body, op ≠ .markSubmitted now rowId httpStatus body) →
      (store.apply op).Held sent key :=
    fun op hstore hop => hstore.apply op (List.Subset.refl _)
      fun now rowId httpStatus body heq => absurd heq (hop now rowId httpStatus body)
  rw [handleRefusal_store]
  split_ifs
  · exact hkeep (.enqueue _ hit _) (hkeep (.recordDirectSubmit _ hit status body) h nofun) nofun
  · exact hkeep (.enqueue _ hit _) h nofun
  · exact hkeep (.enqueue _ hit _) h nofun
  · exact hkeep (.recordRejection _ hit status body "live" none none) h nofun

/-- What the live path notes, exactly. -/
theorem handleRefusal_unnoted_iff :
    (countsAsReject status body = true ∨
        Unnoted s.queue.store (s.handleRefusal w hit kind status body).queue.store) ↔
      ClearRefusal s.networkOk status body := by
  unfold ClearRefusal
  refine or_congr_right' fun hcounts => ?_
  rw [handleRefusal_store]
  split_ifs with hdown hmismatch hwindow
  · have hnoted : ¬ Unnoted s.queue.store ((s.queue.store.recordDirectSubmit (s.stamp w) hit status
        body).enqueue (s.stamp w) hit "network_down") := by
      intro h
      have hrows := congrArg Table.nextId h.submitted
      exact Nat.succ_ne_self _ hrows
    refine iff_of_false hnoted ?_
    rintro ⟨hup, hwait⟩
    rcases hdown with rfl | hdown
    · simp [isDifficultyMismatch, isXuniWindowReject] at hwait
    · rw [hup] at hdown
      cases hdown
  · refine iff_of_true (unnoted_enqueue (by decide)) ⟨?_, Or.inl hmismatch⟩
    simpa using (not_or.mp hdown).2
  · refine iff_of_true (unnoted_enqueue (by decide)) ⟨?_, Or.inr hwindow⟩
    simpa using (not_or.mp hdown).2
  · refine iff_of_false not_unnoted_recordRejection ?_
    rintro ⟨-, hwait⟩
    exact not_or.mpr ⟨hmismatch, hwindow⟩ hwait

theorem loggedKeys_subset_handleRefusal :
    s.queue.store.loggedKeys ⊆
      (s.handleRefusal w hit kind status body).queue.store.loggedKeys := by
  rw [handleRefusal_store]
  split_ifs
  · exact loggedKeys_subset_apply _ (.enqueue _ hit _)
  · exact loggedKeys_subset_apply _ (.enqueue _ hit _)
  · exact loggedKeys_subset_apply _ (.enqueue _ hit _)
  · exact loggedKeys_subset_apply _ (.recordRejection _ hit status body "live" none none)

/-- **Rule for a live submission.** -/
theorem justified_submitLive (h : JustifiedQueue s.queue) :
    JustifiedQueue (s.submitLive w hit kind).queue := by
  have hsent : (s.submitLive w hit kind).queue.sent = s.queue.sent ++ [s.liveSent w hit] :=
    submitLive_sent
  have hdropped : (s.submitLive w hit kind).queue.dropped = s.queue.dropped ++ [] :=
    submitLive_dropped.trans (List.append_nil _).symm
  have hsub : s.queue.sent ⊆ s.queue.sent ++ [s.liveSent w hit] := List.subset_append_left _ _
  have hmem : s.liveSent w hit ∈ s.queue.sent ++ [s.liveSent w hit] := by simp
  have hanswer : Answered (s.queue.sent ++ [s.liveSent w hit]) hit.key (w.reply s.replies).status
      (w.reply s.replies).body := ⟨_, hmem, rfl, rfl, rfl⟩
  unfold JustifiedQueue Justified
  rw [hsent, hdropped]
  intro hclear
  by_cases haccepted :
      submitAccepted (w.reply s.replies).status (w.reply s.replies).body = true
  · rw [submitLive_store_of_accepted haccepted] at hclear ⊢
    obtain ⟨hbacked, hheld⟩ := h (hclear.before
      (loggedKeys_subset_apply _ (.recordDirectSubmit _ hit _ _)))
    refine ⟨(hbacked.mono hsub).apply (.recordDirectSubmit _ hit _ _)
      ⟨hanswer, Or.inr haccepted⟩, fun key hkey => ?_⟩
    rw [List.nil_append, List.map_append, List.mem_append] at hkey
    rcases hkey with hold | hnew
    · exact (hheld key hold).apply (.recordDirectSubmit _ hit _ _) hsub nofun
    · rw [List.mem_singleton.mp hnew]
      exact Or.inr ⟨_, hmem, rfl, haccepted⟩
  · have hrefused := eq_false_of_ne_true haccepted
    rw [submitLive_store_of_refused hrefused] at hclear ⊢
    have hlogged : (s.sendLive w hit).1.queue.store.loggedKeys ⊆
        ((s.sendLive w hit).1.handleRefusal w hit kind (w.reply s.replies).status
          (w.reply s.replies).body).queue.store.loggedKeys := loggedKeys_subset_handleRefusal
    obtain ⟨hbacked, hheld⟩ := h (hclear.before hlogged)
    have hlive : ClearRefusal s.networkOk (w.reply s.replies).status (w.reply s.replies).body :=
      (hclear.2 _ hmem).refusal hrefused rfl
    refine ⟨backed_handleRefusal (s := (s.sendLive w hit).1) (hbacked.mono hsub) hanswer hlive,
      fun key hkey => ?_⟩
    rw [List.nil_append, List.map_append, List.mem_append] at hkey
    rcases hkey with hold | hnew
    · exact held_handleRefusal (s := (s.sendLive w hit).1) ((hheld key hold).imp_right fun htaken => htaken.mono hsub)
    · rw [List.mem_singleton.mp hnew]
      exact Or.inl mem_pendingKeys_handleRefusal

/-! ### Runs -/

theorem justified_startSession {q : QueueFlusher} (h : JustifiedQueue q) :
    JustifiedQueue { q with store := q.store.startSession } := by
  have himport := h.applyOnly .importPendingFromJsonl fun _ => trivial
  have hmigrate := himport.applyOnly .migrateRejectedPending fun hclear x hx haccepted => by
    have hlogged := (hclear.2 x hx).anti (loggedKeys_subset_apply _ .migrateRejectedPending)
    unfold Sent.Clear at hlogged
    rwa [if_pos haccepted] at hlogged
  exact hmigrate.applyOnly .reclassifyPending fun _ => trivial

/-- **Step lemma.** -/
theorem justified_step (op : Op) (h : JustifiedQueue s.queue) :
    JustifiedQueue (s.step w A op).queue := by
  have hkept := keptByFlush_justifiedQueue A s.settings
  cases op with
  | start => exact start_queue hkept (justified_startSession h)
  | hit hit =>
    exact handleHit_queue hkept (fun _ _ _ _ hreason => justified_queueHit hreason)
      (fun _ _ _ => justified_submitLive) h
  | refresh => exact refresh_queue hkept h
  | tryFlush => exact tryFlushPendingQueue_queue hkept h
  | service now queueFlush xuniFlush interval aggressive => exact servicePendingQueue_queue hkept h
  | shutdown =>
    exact gracefulShutdown_queue hkept (fun _ _ => QueueFlusher.justified_deferToNextStart) h

/-- All rejections come from replies that count: the lines of `rejected.jsonl`, the submissions the
pool did not take, and the rows that are queued again.  What was sent is pending or was taken. -/
structure RejectsCounted (q : QueueFlusher) : Prop where
  lines : ∀ line ∈ q.store.rejectedJsonl,
    Answered q.sent line.key line.httpStatus line.responseBody ∧
      countsAsReject line.httpStatus line.responseBody = true
  failed : ∀ x ∈ q.store.submittedBlocks.rows,
    submitAccepted x.2.httpStatus x.2.responseBody = false →
      Answered q.sent x.2.key x.2.httpStatus x.2.responseBody ∧
        countsAsReject x.2.httpStatus x.2.responseBody = true
  resubmissions : ∀ x ∈ q.store.pending, x.2.queueReason = resubmissionReason →
    Refused q.sent x.2.key
  waiting : ∀ x ∈ q.sent, q.store.Held q.sent x.key

theorem JustifiedQueue.counted {q : QueueFlusher} (h : JustifiedQueue q)
    (hclear : QueueFlusher.Clear q.store q.sent q.dropped) : RejectsCounted q := by
  obtain ⟨hbacked, hheld⟩ := h hclear
  refine ⟨hbacked.lines, fun x hx hrefused => ?_, fun x hx => (hbacked.pending x hx).1,
    fun x hx => hheld x.key (List.mem_append_right _ (List.mem_map_of_mem hx))⟩
  obtain ⟨hanswer, hcounts | haccepted⟩ := hbacked.submitted x hx
  · exact ⟨hanswer, hcounts⟩
  · rw [hrefused] at haccepted
    cases haccepted

/-- A new queue has no rejections. -/
theorem justifiedQueue_empty : JustifiedQueue { store := .empty } := by
  intro _
  refine ⟨⟨?_, ?_, ?_, ?_⟩, ?_⟩
  · exact fun line hline => nomatch hline
  · exact fun x hx => nomatch hx
  · exact fun r hr => nomatch hr
  · exact fun x hx => nomatch hx
  · exact fun key hkey => nomatch hkey

/-- **Rejections.**  A live submission that is not taken is handled as what it counts as if and only
if its reply is clear.  A flush always handles it so.  In every run from an empty queue whose
replies are clear and that drops nothing, all rejections come from replies that count. -/
theorem rejects_agree (w : World) (A : Argon2) :
    (∀ (s : Supervisor) (hit : BlockHit) (kind : String),
      submitAccepted (w.reply s.replies).status (w.reply s.replies).body = false →
      ((countsAsReject (w.reply s.replies).status (w.reply s.replies).body = true ∨
          Unnoted s.queue.store (s.submitLive w hit kind).queue.store) ↔
        ClearRefusal s.networkOk (w.reply s.replies).status (w.reply s.replies).body)) ∧
    (∀ (settings : Settings) (env : FlushEnv) (onShutdown : Bool) (store : BlockStore) (rowId : ℕ)
      (row : PendingRow) (x : Sent),
      (prepareRow A settings env onShutdown store rowId row).2.sent = some x →
      submitAccepted x.status x.body = false →
      countsAsReject x.status x.body = true ∨
        Unnoted store (prepareRow A settings env onShutdown store rowId row).1) ∧
    ∀ (settings : Settings) (workers : ℤ) (isCudaNative : Bool) (ops : List Op) (q : QueueFlusher),
      q = (Run.final (step w A) (create settings workers isCudaNative .empty) ops).queue →
      QueueFlusher.Clear q.store q.sent q.dropped → RejectsCounted q := by
  refine ⟨fun s hit kind hrefused => ?_, fun settings env onShutdown store rowId row x hsent => ?_,
    ?_⟩
  · rw [submitLive_store_of_refused hrefused]
    exact handleRefusal_unnoted_iff (s := (s.sendLive w hit).1)
  · exact prepareRow_unnoted hsent
  · rintro settings workers isCudaNative ops q rfl hclear
    have hrun : JustifiedQueue
        (Run.final (step w A) (create settings workers isCudaNative .empty) ops).queue :=
      Run.invariant (I := fun s : Supervisor => JustifiedQueue s.queue)
        (fun _ op => justified_step op) justifiedQueue_empty
    exact hrun.counted hclear

/-- The run of one session in which a block is found and submitted. -/
def submittedOnce (reply : Reply) : Supervisor :=
  Run.final (step (sampleWorld (fun _ => some 100) reply) sampleArgon2)
    (create {} 1 true .empty) [.start, .hit sampleBlock]

/-- A genuine reject is counted. -/
theorem rejects_agree_genuine :
    RejectsCounted (submittedOnce ⟨400, "Invalid key format"⟩).queue ∧
      (submittedOnce ⟨400, "Invalid key format"⟩).queue.store.rejectedJsonl.length = 1 :=
  ⟨(rejects_agree _ _).2.2 {} 1 true [.start, .hit sampleBlock] _ rfl (by decide +kernel),
    by decide +kernel⟩

/-- The timeout of a gateway is no rejection, yet the block is logged and queued as rejected. -/
theorem rejects_timeout :
    let q := (submittedOnce ⟨504, "Gateway timeout"⟩).queue
    (∀ x ∈ q.sent, countsAsReject x.status x.body = false) ∧
      (∃ line ∈ q.store.rejectedJsonl, countsAsReject line.httpStatus line.responseBody = false) ∧
      (∃ x ∈ q.store.pending, x.2.queueReason = resubmissionReason) ∧ ¬ RejectsCounted q := by
  intro q
  have hline : ∃ line ∈ q.store.rejectedJsonl,
      countsAsReject line.httpStatus line.responseBody = false := by decide +kernel
  refine ⟨by decide +kernel, hline, by decide +kernel, fun h => ?_⟩
  obtain ⟨line, hmem, hcounts⟩ := hline
  rw [(h.lines line hmem).2] at hcounts
  cases hcounts

end Supervisor

end XenMiner
