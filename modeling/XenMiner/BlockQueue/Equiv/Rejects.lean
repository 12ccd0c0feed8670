import XenMiner.BlockQueue.Equiv.Flush

/-!
# What counts as a rejection

`Backed` says that the store's rejections come from replies that count as rejections: each line of
`rejected.jsonl`, each failed submission and each row that is queued again.  `Backed.apply` carries it
over every store operation that is called with such replies, `Clean.backed_flush` over a flush.
-/

namespace XenMiner

open Argon2Common (Argon2)
open BlockStore SubmitResult

/-- The pool answered the key so. -/
def Answered (sent : List Sent) (key : String) (status : ℤ) (body : String) : Prop :=
  ∃ x ∈ sent, x.key = key ∧ x.status = status ∧ x.body = body

/-- Some reply for the key counts as a rejection. -/
def Refused (sent : List Sent) (key : String) : Prop :=
  ∃ x ∈ sent, x.key = key ∧ countsAsReject x.status x.body = true

namespace BlockStore

/-- The keys `queue.jsonl` lists. -/
def loggedKeys (s : BlockStore) : List String := s.queueJsonl.map QueueRecord.key

/-- The rejections in the store come from replies that count. -/
structure Backed (s : BlockStore) (sent : List Sent) : Prop where
  lines : ∀ line ∈ s.rejectedJsonl, Answered sent line.key line.httpStatus line.responseBody ∧
    countsAsReject line.httpStatus line.responseBody = true
  submitted : ∀ x ∈ s.submittedBlocks.rows,
    Answered sent x.2.key x.2.httpStatus x.2.responseBody ∧
      (countsAsReject x.2.httpStatus x.2.responseBody = true ∨
        submitAccepted x.2.httpStatus x.2.responseBody = true)
  records : ∀ r ∈ s.queueJsonl, r.reason = some resubmissionReason → Refused sent r.key
  pending : ∀ x ∈ s.pending,
    (x.2.queueReason = resubmissionReason → Refused sent x.2.key) ∧ x.2.key ∈ s.loggedKeys

/-- An operation is called with replies of the pool, and what it queues again was rejected. -/
def CallBacked (s : BlockStore) (sent : List Sent) : StoreOp → Prop
  | .enqueue _ hit reason => reason = resubmissionReason → Refused sent hit.key
  | .markPendingReason _ reason => reason ≠ resubmissionReason
  | .recordRejection _ hit httpStatus body _ pendingId _ =>
    (Answered sent hit.key httpStatus body ∧ countsAsReject httpStatus body = true) ∧
      ∀ rowId row, pendingId = some rowId → (rowId, row) ∈ s.pendingBlocks.rows → row.key = hit.key
  | .recordDirectSubmit _ hit httpStatus body =>
    Answered sent hit.key httpStatus body ∧
      (countsAsReject httpStatus body = true ∨ submitAccepted httpStatus body = true)
  | .markSubmitted _ rowId httpStatus body =>
    ∀ row, (rowId, row) ∈ s.pendingBlocks.rows → Answered sent row.key httpStatus body ∧
      submitAccepted httpStatus body = true
  | .migrateRejectedPending =>
    ∀ x ∈ sent, submitAccepted x.status x.body = true →
      200 ≤ x.status ∧ x.status < 300 ∨ x.key ∉ s.loggedKeys
  | .importPendingFromJsonl | .reclassifyPending => True

variable {s : BlockStore} {sent sent' : List Sent}

/-! ### More replies -/

theorem Backed.mono (h : Backed s sent) (hsub : sent ⊆ sent') : Backed s sent' := by
  have hanswered : ∀ {key status body}, Answered sent key status body →
      Answered sent' key status body := by
    rintro key status body ⟨x, hx, hanswer⟩
    exact ⟨x, hsub hx, hanswer⟩
  have hrefused : ∀ {key}, Refused sent key → Refused sent' key := by
    rintro key ⟨x, hx, hcounts⟩
    exact ⟨x, hsub hx, hcounts⟩
  refine ⟨fun line hline => ?_, fun x hx => ?_, fun r hr hreason => ?_, fun x hx => ?_⟩
  · exact (h.lines line hline).imp_left hanswered
  · exact (h.submitted x hx).imp_left hanswered
  · exact hrefused (h.records r hr hreason)
  · exact (h.pending x hx).imp_left fun hq hreason => hrefused (hq hreason)

/-! ### The operations -/

theorem refused_of_counted {key : String} {status : ℤ} {body : String}
    (h : Answered sent key status body ∧ countsAsReject status body = true) : Refused sent key := by
  obtain ⟨⟨x, hx, hkey, hstatus, hbody⟩, hcounts⟩ := h
  refine ⟨x, hx, hkey, ?_⟩
  rw [hstatus, hbody]
  exact hcounts

theorem taken_of_accepted {key : String} {status : ℤ} {body : String}
    (h : Answered sent key status body ∧ submitAccepted status body = true) : Taken sent key := by
  obtain ⟨⟨x, hx, hkey, hstatus, hbody⟩, haccepted⟩ := h
  refine ⟨x, hx, hkey, ?_⟩
  rw [hstatus, hbody]
  exact haccepted

/-- A new line for the queue. -/
theorem Backed.enqueue (h : Backed s sent) {now : ℤ} {hit : BlockHit} {reason : String}
    (hreason : reason = resubmissionReason → Refused sent hit.key) :
    Backed (s.enqueue now hit reason) sent where
  lines := h.lines
  submitted := h.submitted
  records := by
    intro r hr hr'
    rcases List.mem_append.mp hr with hr | hr
    · exact h.records r hr hr'
    · rw [List.mem_singleton.mp hr] at hr' ⊢
      exact hreason (Option.some.inj hr')
  pending := by
    intro x hx
    obtain ⟨hmem, hstatus⟩ := mem_pending.mp hx
    have hkeys : (s.enqueue now hit reason).loggedKeys = s.loggedKeys ++ [hit.key] :=
      List.map_append
    rw [hkeys]
    rcases Table.mem_insert.mp hmem with hold | rfl
    · exact (h.pending x (mem_pending.mpr ⟨hold, hstatus⟩)).imp_right
        fun hkey => List.mem_append_left _ hkey
    · exact ⟨hreason, List.mem_append_right _ List.mem_cons_self⟩

/-- An update of the rows that keeps the blocks. -/
theorem Backed.update (h : Backed s sent) {p : ℕ → PendingRow → Bool} {f : PendingRow → PendingRow}
    (hblock : ∀ r, PendingRow.SameBlock r (f r))
    (hstatus : ∀ r, (f r).status = .pending → r.status = .pending)
    (hreason : ∀ i r, (i, r) ∈ s.pending → p i r = true → (f r).queueReason = resubmissionReason →
      Refused sent r.key) :
    Backed { s with pendingBlocks := s.pendingBlocks.update p f } sent where
  lines := h.lines
  submitted := h.submitted
  records := h.records
  pending := by
    intro x hx
    obtain ⟨hmem, hpending⟩ := mem_pending.mp hx
    obtain ⟨y, hy, rfl⟩ := Table.mem_update.mp hmem
    by_cases hp : p y.1 y.2 = true
    · rw [if_pos hp] at hpending ⊢
      have hold : y ∈ s.pending := mem_pending.mpr ⟨hy, hstatus _ hpending⟩
      have hkey : (f y.2).key = y.2.key := (hblock y.2).key
      dsimp only
      rw [hkey]
      exact ⟨hreason y.1 y.2 hold hp, (h.pending y hold).2⟩
    · rw [if_neg hp] at hpending ⊢
      exact h.pending y (mem_pending.mpr ⟨hy, hpending⟩)

/-- A submission is recorded. -/
theorem Backed.submit (h : Backed s sent) {row : SubmittedRow}
    (hrow : Answered sent row.key row.httpStatus row.responseBody ∧
      (countsAsReject row.httpStatus row.responseBody = true ∨
        submitAccepted row.httpStatus row.responseBody = true)) :
    Backed { s with submittedBlocks := s.submittedBlocks.insert row } sent where
  lines := h.lines
  records := h.records
  pending := h.pending
  submitted := by
    intro x hx
    rcases Table.mem_insert.mp hx with hold | rfl
    · exact h.submitted x hold
    · exact hrow

/-- A first rejection is noted. -/
theorem Backed.noteReject (h : Backed s sent) {now : ℤ} {hit : BlockHit} {httpStatus : ℤ}
    {body source : String}
    (hcounted : Answered sent hit.key httpStatus body ∧ countsAsReject httpStatus body = true) :
    Backed (s.noteReject now hit httpStatus body source) sent := by
  have hlogged : Backed (s.logRejection now hit httpStatus body source) sent := by
    refine ⟨fun line hline => ?_, h.submitted, h.records, h.pending⟩
    rcases List.mem_append.mp hline with hold | hnew
    · exact h.lines line hold
    · rw [List.mem_singleton.mp hnew]
      exact hcounted
  exact hlogged.submit ⟨hcounted.1, Or.inl hcounted.2⟩

/-- **Every operation.** -/
theorem Backed.apply (h : Backed s sent) (op : StoreOp) (hcall : s.CallBacked sent op) :
    Backed (s.apply op) sent := by
  cases op with
  | enqueue now hit reason => exact h.enqueue hcall
  | markPendingReason pendingId reason =>
    exact h.update (fun _ => rfl) (fun _ hstatus => hstatus)
      fun _ _ _ _ hreason => absurd hreason hcall
  | recordRejection now hit httpStatus body source pendingId queueReason =>
    obtain ⟨hcounted, hrow⟩ := hcall
    rcases recordRejection_cases s now hit httpStatus body source pendingId queueReason with
      ⟨-, heq⟩ | ⟨rowId, row, p, reason, hmem, -, ⟨-, hp⟩, hwhich, heq⟩ | ⟨-, -, heq⟩
    · rw [BlockStore.apply, heq]
      exact h
    · have hkey : row.key = hit.key := by
        rcases hwhich with ⟨hid, -⟩ | ⟨-, hkey, -⟩
        · exact hrow rowId row hid hmem
        · exact hkey
      have hcount : Backed (s.countReject p reason) sent := by
        refine h.update (fun _ => rfl) (fun _ hstatus => hstatus) fun i r hr hpi _ => ?_
        obtain rfl := hp i r hpi
        rw [Table.row_unique (mem_pending.mp hr).1 hmem, hkey]
        exact refused_of_counted hcounted
      rw [BlockStore.apply, heq]
      dsimp only
      split_ifs
      · exact hcount.noteReject hcounted
      · exact hcount
    · rw [BlockStore.apply, heq]
      exact (h.noteReject hcounted).enqueue fun _ => refused_of_counted hcounted
  | recordDirectSubmit now hit httpStatus body => exact h.submit hcall
  | markSubmitted now rowId httpStatus body =>
    rcases markSubmitted_cases s now rowId httpStatus body with ⟨-, heq⟩ | ⟨row, hrow, heq⟩
    · rw [BlockStore.apply, heq]
      exact h
    · obtain ⟨hanswer, haccepted⟩ := hcall row hrow
      have hmarked := h.update (p := fun i _ => decide (i = rowId))
        (f := fun r => { r with status := .submitted }) (fun _ => rfl) (fun _ hs => by cases hs)
        fun i r hr hi hreason => (h.pending (i, r) hr).1 hreason
      rw [BlockStore.apply, heq]
      exact hmarked.submit ⟨hanswer, Or.inr haccepted⟩
  | importPendingFromJsonl =>
    obtain ⟨new, hrows, hnew⟩ := importPendingFromJsonl_rows s
    refine ⟨h.lines, h.submitted, h.records, fun x hx => ?_⟩
    obtain ⟨hmem, hstatus⟩ := mem_pending.mp hx
    rw [BlockStore.apply, hrows] at hmem
    rcases List.mem_append.mp hmem with hold | hadded
    · exact h.pending x (mem_pending.mpr ⟨hold, hstatus⟩)
    · have hrow : x.2 ∈ new.map Prod.snd := List.mem_map_of_mem hadded
      rw [hnew] at hrow
      obtain ⟨r, hr, heq⟩ := List.mem_map.mp hrow
      have hlog : r ∈ s.queueJsonl := (mem_restorable hr).1
      rw [← heq]
      refine ⟨fun hreason => h.records r hlog ?_, List.mem_map_of_mem hlog⟩
      -- A line without a reason is queued as imported.
      cases hr' : r.reason with
      | none =>
        unfold importedRow at hreason
        rw [hr'] at hreason
        have himported : "imported" = resubmissionReason := hreason
        exact absurd himported (by decide)
      | some reason =>
        unfold importedRow at hreason
        rw [hr'] at hreason
        exact congrArg some hreason
  | migrateRejectedPending =>
    refine h.update (fun _ => rfl) (fun _ hs => hs) fun i r hr hp _ => ?_
    obtain ⟨-, hfailed⟩ := Bool.and_eq_true_iff.mp hp
    obtain ⟨x, hx, hfails⟩ := List.any_eq_true.mp hfailed
    simp only [Bool.and_eq_true, decide_eq_true_eq, Bool.not_eq_true'] at hfails
    obtain ⟨hkey, hnot⟩ := hfails
    obtain ⟨hanswer, hcounts | haccepted⟩ := h.submitted x hx
    · rw [← hkey]
      exact refused_of_counted ⟨hanswer, hcounts⟩
    · -- The pool took the block with another status: it is not in the log.
      obtain ⟨y, hy, hykey, hystatus, hybody⟩ := hanswer
      rw [← hystatus, ← hybody] at haccepted
      rcases hcall y hy haccepted with hok | hout
      · rw [hystatus] at hok
        rw [SubmittedRow.isAccepted_iff.mpr hok] at hnot
        cases hnot
      · rw [hykey, hkey] at hout
        exact absurd (h.pending (i, r) hr).2 hout
  | reclassifyPending =>
    exact h.update (fun r => PendingRow.SameBlock.relabel r _) (fun _ hs => hs)
      fun i r hr _ hreason => (h.pending (i, r) hr).1 hreason

/-- Every logged key stays logged. -/
theorem loggedKeys_subset_apply (s : BlockStore) (op : StoreOp) :
    s.loggedKeys ⊆ (s.apply op).loggedKeys :=
  List.map_subset _ (queueJsonl_prefix_apply s op).subset

/-! ### What stays in the queue -/

/-- The key is still pending, or the pool took it. -/
def Held (s : BlockStore) (sent : List Sent) (key : String) : Prop :=
  key ∈ s.pendingKeys ∨ Taken sent key

/-- A block that was rejected live is pending afterwards. -/
theorem mem_pendingKeys_recordRejection {now : ℤ} {hit : BlockHit} {httpStatus : ℤ}
    {body source : String} {queueReason : Option String} :
    hit.key ∈
      (s.recordRejection now hit httpStatus body source none queueReason).1.pendingKeys := by
  by_cases hkey : hit.key ∈ s.pendingKeys
  · exact mem_pendingKeys_apply hkey
      (.recordRejection now hit httpStatus body source none queueReason) nofun
  · rcases recordRejection_cases s now hit httpStatus body source none queueReason with
      ⟨⟨_, hnone⟩, -⟩ | ⟨rowId, row, p, reason, hmem, hstatus, -, hwhich, -⟩ | ⟨-, -, heq⟩
    · cases hnone
    · rcases hwhich with ⟨hnone, -⟩ | ⟨-, hrow, -⟩
      · cases hnone
      · exact absurd (mem_pendingKeys.mpr ⟨(rowId, row), mem_pending.mpr ⟨hmem, hstatus⟩, hrow⟩) hkey
    · rw [heq]
      exact mem_pendingKeys_enqueue

/-- An operation keeps what is held if it marks only blocks that the pool took. -/
theorem Held.apply {key : String} (h : s.Held sent key) (op : StoreOp) (hsub : sent ⊆ sent')
    (hop : ∀ now rowId httpStatus body, op = .markSubmitted now rowId httpStatus body →
      ∀ row, (rowId, row) ∈ s.pendingBlocks.rows → Taken sent' row.key) :
    (s.apply op).Held sent' key := by
  rcases h with hpending | htaken
  · by_cases htaken : Taken sent' key
    · exact Or.inr htaken
    · refine Or.inl (mem_pendingKeys_apply hpending op ?_)
      rintro now rowId httpStatus body heq row hrow rfl
      exact htaken (hop now rowId httpStatus body heq row hrow)
  · exact Or.inr (htaken.mono hsub)

end BlockStore

/-! ### Replies that are no rejections -/

/-- No rejection is noted from `s` to `s'`: there is no new line and no new submission, and what is
queued as rejected was queued so before. -/
structure Unnoted (s s' : BlockStore) : Prop where
  lines : s'.rejectedJsonl = s.rejectedJsonl
  submitted : s'.submittedBlocks = s.submittedBlocks
  pending : ∀ x ∈ s'.pending, x.2.queueReason = resubmissionReason → x ∈ s.pending

theorem unnoted_self (s : BlockStore) : Unnoted s s := ⟨rfl, rfl, fun _ hx _ => hx⟩

theorem unnoted_enqueue {s : BlockStore} {now : ℤ} {hit : BlockHit} {reason : String}
    (hreason : reason ≠ resubmissionReason) : Unnoted s (s.enqueue now hit reason) := by
  refine ⟨rfl, rfl, fun x hx hxreason => ?_⟩
  obtain ⟨hmem, hstatus⟩ := mem_pending.mp hx
  rcases Table.mem_insert.mp hmem with hold | rfl
  · exact mem_pending.mpr ⟨hold, hstatus⟩
  · exact absurd hxreason hreason

theorem unnoted_markPendingReason {s : BlockStore} {rowId : ℕ} {reason : String}
    (hreason : reason ≠ resubmissionReason) : Unnoted s (s.markPendingReason rowId reason) := by
  refine ⟨rfl, rfl, fun x hx hxreason => ?_⟩
  obtain ⟨hmem, hstatus⟩ := mem_pending.mp hx
  rw [markPendingReason_pendingBlocks] at hmem
  obtain ⟨y, hy, rfl⟩ := Table.mem_update.mp hmem
  split_ifs at hxreason hstatus ⊢
  · exact absurd hxreason hreason
  · exact mem_pending.mpr ⟨hy, hstatus⟩

/-- A rejection that is recorded live is noted, whether the block is pending already or not. -/
theorem not_unnoted_recordRejection {s : BlockStore} {now : ℤ} {hit : BlockHit} {httpStatus : ℤ}
    {body source : String} {queueReason : Option String} :
    ¬ Unnoted s (s.recordRejection now hit httpStatus body source none queueReason).1 := by
  have hline : ∀ s' : BlockStore, s'.rejectedJsonl ≠
      (s'.noteReject now hit httpStatus body source).rejectedJsonl := by
    intro s' heq
    exact List.cons_ne_nil _ _ (List.self_eq_append_right.mp heq)
  intro h
  rcases recordRejection_cases s now hit httpStatus body source none queueReason with
    ⟨⟨_, hnone⟩, -⟩ | ⟨rowId, row, p, reason, hmem, hstatus, ⟨hp, -⟩, hwhich, heq⟩ | ⟨-, -, heq⟩
  · cases hnone
  · obtain ⟨hnone, -⟩ | ⟨-, -, rfl⟩ := hwhich
    · cases hnone
    rw [heq] at h
    dsimp only at h
    split_ifs at h
    · exact hline _ h.lines.symm
    · -- The row is counted once more, so it is not the row it was.
      have hrow : (rowId, { row with
          queueReason := resubmissionReason, rejectCount := row.rejectCount + 1 }) ∈
            (s.countReject p resubmissionReason).pending := by
        refine mem_pending.mpr ⟨Table.mem_update.mpr ⟨(rowId, row), hmem, ?_⟩, hstatus⟩
        rw [if_pos hp]
      have hold := (mem_pending.mp (h.pending _ hrow rfl)).1
      have hcount := congrArg PendingRow.rejectCount (Table.row_unique hold hmem)
      exact Nat.succ_ne_self _ hcount
  · rw [heq] at h
    exact hline s h.lines.symm

/-- **A flush notes a rejection for a reply that counts as one, and for no other that the pool does
not take.** -/
theorem prepareRow_unnoted {A : Argon2} {settings : Settings} {env : FlushEnv} {onShutdown : Bool}
    {s : BlockStore} {rowId : ℕ} {row : PendingRow} {x : Sent}
    (hsent : (prepareRow A settings env onShutdown s rowId row).2.sent = some x)
    (hrefused : submitAccepted x.status x.body = false) :
    countsAsReject x.status x.body = true ∨
      Unnoted s (prepareRow A settings env onShutdown s rowId row).1 := by
  obtain ⟨op, heq, heffect⟩ := prepareRow_effect A settings env onShutdown s rowId row
  rw [heq]
  have hx : env.sentFor rowId row.key = x := by
    rcases heffect.sent with hnone | hsome
    · rw [hnone] at hsent
      cases hsent
    · rw [hsome] at hsent
      exact Option.some.inj hsent
  cases heffect with
  | hold | keep => exact Or.inr (unnoted_self s)
  | mark hreason => exact Or.inr (unnoted_markPendingReason hreason)
  | drop _ hnone =>
    rw [hnone] at hsent
    cases hsent
  | accept _ haccepted =>
    rw [← hx] at hrefused
    have hnot : submitAccepted (env.reply rowId).status (env.reply rowId).body = false := hrefused
    rw [haccepted] at hnot
    cases hnot
  | reject _ _ hcounts =>
    left
    rw [← hx]
    exact hcounts

/-! ### Clear replies -/

/-- What the pool answers to a live submission that it does not take is a rejection, or a wait for
the difficulty or the window while the network is up. -/
def ClearRefusal (networkOk : Bool) (status : ℤ) (body : String) : Prop :=
  countsAsReject status body = true ∨
    networkOk = true ∧
      (isDifficultyMismatch status body = true ∨ isXuniWindowReject status body = true)

/-- The reply is handled for what it is: a block that is logged for the queue is taken with a 2xx
status only, and a live submission that is not taken is clearly refused. -/
def Sent.Clear (x : Sent) (logged : List String) : Prop :=
  if submitAccepted x.status x.body = true then 200 ≤ x.status ∧ x.status < 300 ∨ x.key ∉ logged
  else
    match x.source with
    | .flush => True
    | .live networkOk => ClearRefusal networkOk x.status x.body

instance (networkOk : Bool) (status : ℤ) (body : String) :
    Decidable (ClearRefusal networkOk status body) :=
  inferInstanceAs (Decidable (_ ∨ _ ∧ (_ ∨ _)))

instance (x : Sent) (logged : List String) : Decidable (x.Clear logged) := by
  unfold Sent.Clear
  cases x.source with
  | flush => infer_instance
  | live networkOk => infer_instance

theorem Sent.Clear.refusal {x : Sent} {logged : List String} {networkOk : Bool} (h : x.Clear logged)
    (hrefused : submitAccepted x.status x.body = false) (hlive : x.source = .live networkOk) :
    ClearRefusal networkOk x.status x.body := by
  unfold Sent.Clear at h
  rw [hrefused, if_neg Bool.false_ne_true, hlive] at h
  exact h

theorem Sent.Clear.anti {x : Sent} {logged logged' : List String} (h : x.Clear logged')
    (hsub : logged ⊆ logged') : x.Clear logged := by
  unfold Sent.Clear at h ⊢
  split_ifs at h ⊢
  · exact h.imp_right fun hout hmem => hout (hsub hmem)
  · exact h

namespace QueueFlusher

/-- All replies were clear, and no block was dropped as a false positive. -/
def Clear (s : BlockStore) (sent : List Sent) (dropped : List String) : Prop :=
  dropped = [] ∧ ∀ x ∈ sent, x.Clear s.loggedKeys

instance (s : BlockStore) (sent : List Sent) (dropped : List String) :
    Decidable (Clear s sent dropped) := inferInstanceAs (Decidable (_ ∧ _))

/-- If all replies were clear, the rejections are backed, and what was sent is still pending or was
taken, like the further `keys`. -/
def Justified (keys : List String) : FlushInvariant := fun s sent dropped =>
  Clear s sent dropped →
    s.Backed sent ∧ ∀ key ∈ keys ++ sent.map (·.key), s.Held sent key

variable {A : Argon2} {settings : Settings} {env : FlushEnv} {onShutdown : Bool} {s s' : BlockStore}
  {sent new : List Sent} {dropped more keys : List String}

theorem Clear.before (h : Clear s' (sent ++ new) (dropped ++ more))
    (hlogged : s.loggedKeys ⊆ s'.loggedKeys) : Clear s sent dropped := by
  obtain ⟨hdropped, hsent⟩ := h
  refine ⟨(List.append_eq_nil_iff.mp hdropped).1, fun x hx => ?_⟩
  exact (hsent x (List.mem_append_left _ hx)).anti hlogged

/-- **Rule for one operation**, with replies for keys that are held anyway. -/
theorem Justified.apply (h : Justified keys s sent dropped) (op : StoreOp)
    (hnew : ∀ x ∈ new, x.key ∈ keys)
    (hcall : Clear (s.apply op) (sent ++ new) (dropped ++ more) → s.CallBacked (sent ++ new) op) :
    Justified keys (s.apply op) (sent ++ new) (dropped ++ more) := by
  intro hclear
  obtain ⟨hbacked, hheld⟩ := h (hclear.before (loggedKeys_subset_apply s op))
  have hsub : sent ⊆ sent ++ new := List.subset_append_left _ _
  refine ⟨(hbacked.mono hsub).apply op (hcall hclear), fun key hkey => ?_⟩
  have hold : s.Held sent key := by
    rw [List.map_append, ← List.append_assoc, List.mem_append] at hkey
    rcases hkey with hold | hadded
    · exact hheld key hold
    · obtain ⟨x, hx, rfl⟩ := List.mem_map.mp hadded
      exact hheld _ (List.mem_append_left _ (hnew x hx))
  refine hold.apply op hsub ?_
  rintro now rowId httpStatus body rfl row hrow
  exact taken_of_accepted (hcall hclear row hrow)

/-- **Rule for an operation without a reply.** -/
theorem Justified.applyOnly (h : Justified keys s sent dropped) (op : StoreOp)
    (hcall : Clear (s.apply op) sent dropped → s.CallBacked sent op) :
    Justified keys (s.apply op) sent dropped := by
  have hstep : Clear (s.apply op) (sent ++ []) (dropped ++ []) → s.CallBacked (sent ++ []) op := by
    rwa [List.append_nil, List.append_nil]
  have happlied := h.apply op (fun x hx => absurd hx List.not_mem_nil) hstep
  rwa [List.append_nil, List.append_nil] at happlied

/-- **Rule for replies that change nothing.** -/
theorem Justified.reply (h : Justified keys s sent dropped) (hnew : ∀ x ∈ new, x.key ∈ keys) :
    Justified keys s (sent ++ new) (dropped ++ more) := by
  intro hclear
  obtain ⟨hbacked, hheld⟩ := h (hclear.before (List.Subset.refl _))
  have hsub : sent ⊆ sent ++ new := List.subset_append_left _ _
  refine ⟨hbacked.mono hsub, fun key hkey => ?_⟩
  rw [List.map_append, ← List.append_assoc, List.mem_append] at hkey
  have hold : s.Held sent key := by
    rcases hkey with hold | hadded
    · exact hheld key hold
    · obtain ⟨x, hx, rfl⟩ := List.mem_map.mp hadded
      exact hheld _ (List.mem_append_left _ (hnew x hx))
  exact hold.imp_right fun htaken => htaken.mono hsub

/-- The turn of a row whose key is held. -/
theorem Justified.rowEffect {rowId : ℕ} {row : PendingRow} {op : Option StoreOp}
    {o : FlushRowOutcome} (h : Justified keys s sent dropped) (hkey : row.key ∈ keys)
    (hrow : ∀ row', (rowId, row') ∈ s.pendingBlocks.rows → row'.key = row.key)
    (heffect : RowEffect A settings env rowId row op o) :
    Justified keys (s.applyOption op) (sent ++ o.sent.toList)
      (dropped ++ (droppedKey o).toList) := by
  have hnew : ∀ x ∈ o.sent.toList, x.key ∈ keys := by
    intro x hx
    rcases heffect.sent with hnone | hsome
    · rw [hnone] at hx
      cases hx
    · rw [hsome, Option.toList_some, List.mem_singleton] at hx
      rw [hx]
      exact hkey
  have hanswered : o.sent = some (env.sentFor rowId row.key) →
      Answered (sent ++ o.sent.toList) row.key (env.reply rowId).status (env.reply rowId).body := by
    intro hsome
    rw [hsome]
    exact ⟨_, List.mem_append_right _ List.mem_cons_self, rfl, rfl, rfl⟩
  cases heffect with
  | hold | keep => exact h.reply hnew
  | mark hreason => exact h.apply _ hnew fun _ => hreason
  | drop _ _ hdropped =>
    -- A dropped block is not clear.
    intro hclear
    unfold droppedKey at hclear
    rw [if_pos hdropped] at hclear
    exact absurd (List.append_eq_nil_iff.mp hclear.1).2 (List.cons_ne_nil _ _)
  | accept hsent haccepted =>
    refine h.apply _ hnew fun _ row' hrow' => ?_
    rw [hrow row' hrow']
    exact ⟨hanswered hsent, haccepted⟩
  | reject hhit hsent hcounts =>
    refine h.apply _ hnew fun _ => ⟨⟨?_, hcounts⟩, ?_⟩
    · rw [hhit]
      exact hanswered hsent
    · rintro _ row' hid hrow'
      obtain rfl := Option.some.inj hid
      rw [hrow row' hrow', hhit]

/-- **Rule for a flush.** -/
theorem justified_flush {q : QueueFlusher} (h : Justified [] q.store q.sent q.dropped) :
    Justified [] (flush A settings q env onShutdown).1.store
      (flush A settings q env onShutdown).1.sent (flush A settings q env onShutdown).1.dropped := by
  have hflush : Justified q.store.pendingKeys (flush A settings q env onShutdown).1.store
      (flush A settings q env onShutdown).1.sent (flush A settings q env onShutdown).1.dropped := by
    refine flush_induction q ?_ ?_
    · intro hclear
      obtain ⟨hbacked, hheld⟩ := h hclear
      refine ⟨hbacked, fun key hkey => ?_⟩
      rcases List.mem_append.mp hkey with hpending | hsent
      · exact Or.inl hpending
      · exact hheld key hsent
    · intro s sent dropped rowId row op o hrow hkeeps hs heffect
      refine hs.rowEffect (mem_pendingKeys.mpr ⟨(rowId, row), hrow, rfl⟩) ?_ heffect
      intro row' hrow'
      obtain ⟨r, hr, hblock⟩ := hkeeps rowId row (mem_pending.mp hrow).1
      rw [Table.row_unique hrow' hr, hblock.key]
  intro hclear
  obtain ⟨hbacked, hheld⟩ := hflush hclear
  exact ⟨hbacked, fun key hkey => hheld key (List.mem_append_right _ hkey)⟩

/-- **Rule for `defer_to_next_start`.** -/
theorem justified_deferToNextStart {q : QueueFlusher} {minute : ℕ → ℕ}
    (h : Justified [] q.store q.sent q.dropped) :
    Justified [] (deferToNextStart q minute).1.store (deferToNextStart q minute).1.sent
      (deferToNextStart q minute).1.dropped := by
  refine deferToNextStart_induction (P := fun s => Justified [] s q.sent q.dropped) q minute h ?_
  intro s rowId reason hreason hs
  exact hs.applyOnly (.markPendingReason rowId reason) fun _ => hreason

end QueueFlusher

end XenMiner
