import XenMiner.BlockQueue.Equiv.Flush
import XenMiner.Monitoring.Equiv.Metrics

/-!
# What a flush takes out of the queue, and what it counts

A row leaves the queue exactly when the flush counts it, as taken by the pool or as dropped
(`prepareRow_balance`).  A row is looked at once, by its id, so the pending rows and the two counts add
up to the same before and after a whole flush (`balance_flush`).
-/

namespace XenMiner

open BlockStore SubmitResult

/-! ### The number of pending rows -/

namespace BlockStore

variable {s : BlockStore} {now : ℤ} {hit : BlockHit} {httpStatus : ℤ} {body source reason : String}
  {rowId : ℕ} {row : PendingRow}

/-- The labels `pending_by_type` counts. -/
def pendingLabels (s : BlockStore) : List String := s.pending.map fun x => x.2.blockType

theorem length_pendingLabels : s.pendingLabels.length = s.pending.length := List.length_map _

theorem pendingByType_eq_of_labels {s' : BlockStore} (h : s'.pendingLabels = s.pendingLabels) :
    s'.pendingByType none = s.pendingByType none := by
  have hall : ∀ t : BlockStore, (t.pending.filter fun _ => true) = t.pending :=
    fun t => List.filter_true _
  unfold pendingByType groups
  dsimp only
  rw [hall, hall]
  show (s'.pendingLabels.dedup.map _).foldl _ _ = (s.pendingLabels.dedup.map _).foldl _ _
  rw [h]
  exact congrArg (fun labels : List String =>
    ((s.pendingLabels.dedup.map fun label => (label, labels.count label)).foldl addGroup {})) h

/-- An update that leaves the label and the status of every row alone. -/
theorem pendingLabels_update {s' : BlockStore} {p : ℕ → PendingRow → Bool}
    {f : PendingRow → PendingRow} (hs : s'.pendingBlocks = s.pendingBlocks.update p f)
    (hf : ∀ r, (f r).isPending = r.isPending ∧ (f r).blockType = r.blockType) :
    s'.pendingLabels = s.pendingLabels := by
  unfold pendingLabels pending
  rw [hs]
  exact Table.map_select_update hf

theorem pendingLabels_markPendingReason :
    (s.markPendingReason rowId reason).pendingLabels = s.pendingLabels :=
  pendingLabels_update markPendingReason_pendingBlocks fun _ => ⟨rfl, rfl⟩

theorem countReject_pendingBlocks {p : ℕ → PendingRow → Bool} :
    (s.countReject p reason).pendingBlocks = s.pendingBlocks.update p fun r =>
      { r with queueReason := reason, rejectCount := r.rejectCount + 1 } := rfl

theorem pendingLabels_enqueue :
    (s.enqueue now hit reason).pendingLabels = s.pendingLabels ++ [hit.blockType] := by
  unfold pendingLabels pending Table.select
  rw [enqueue_pendingBlocks, Table.rows_insert, List.filter_append, List.map_append]
  rfl

/-- A rejection adds a row if it says so, and nothing else. -/
theorem pendingLabels_recordRejection {pendingId : Option ℕ} {queueReason : Option String} :
    (s.recordRejection now hit httpStatus body source pendingId queueReason).1.pendingLabels =
      s.pendingLabels ++
        if (s.recordRejection now hit httpStatus body source pendingId queueReason).2
        then [hit.blockType] else [] := by
  rcases recordRejection_cases s now hit httpStatus body source pendingId queueReason with
    ⟨-, heq⟩ | ⟨i, r, p, why, -, -, -, -, heq⟩ | ⟨-, -, heq⟩
  · rw [heq]
    exact (List.append_nil _).symm
  · have hcount : (s.countReject p why).pendingLabels = s.pendingLabels :=
      pendingLabels_update countReject_pendingBlocks fun _ => ⟨rfl, rfl⟩
    rw [heq, if_neg Bool.false_ne_true, List.append_nil]
    dsimp only
    split_ifs
    · exact hcount
    · exact hcount
  · rw [heq]
    exact pendingLabels_enqueue

theorem recordRejection_some {pendingId : ℕ} {queueReason : Option String} :
    (s.recordRejection now hit httpStatus body source (some pendingId) queueReason).2 = false := by
  rcases recordRejection_cases s now hit httpStatus body source (some pendingId) queueReason with
    ⟨-, heq⟩ | ⟨i, r, p, why, -, -, -, -, heq⟩ | ⟨hnone, -⟩
  · rw [heq]
  · rw [heq]
  · cases hnone

/-- The row that is marked as submitted leaves the queue. -/
theorem length_pending_markSubmitted (h : (rowId, row) ∈ s.pending) :
    (s.markSubmitted now rowId httpStatus body).pending.length + 1 = s.pending.length := by
  obtain ⟨hmem, hstatus⟩ := mem_pending.mp h
  rcases markSubmitted_cases s now rowId httpStatus body with ⟨hnone, -⟩ | ⟨r, -, heq⟩
  · exact absurd rfl (hnone _ hmem)
  rw [heq]
  unfold pending Table.select Table.update
  dsimp only
  obtain ⟨before, after, hrows⟩ := List.append_of_mem hmem
  -- no other row has the id
  have hsorted := s.pendingBlocks.sorted
  rw [hrows, List.pairwise_append, List.pairwise_cons] at hsorted
  obtain ⟨-, ⟨hafter, -⟩, hbefore⟩ := hsorted
  have hother : ∀ rows : List (ℕ × PendingRow), (∀ x ∈ rows, x.1 ≠ rowId) →
      rows.map (fun x => (x.1, if decide (x.1 = rowId) then { x.2 with status := .submitted }
        else x.2)) = rows := by
    intro rows hne
    refine (List.map_congr_left fun x hx => ?_).trans (List.map_id rows)
    rw [if_neg (by simpa using hne x hx)]
    rfl
  have hbefore : ∀ x ∈ before, x.1 ≠ rowId := fun x hx =>
    Nat.ne_of_lt (hbefore x hx _ List.mem_cons_self)
  have hafter : ∀ x ∈ after, x.1 ≠ rowId := fun x hx => Nat.ne_of_gt (hafter x hx)
  rw [hrows, List.map_append, List.map_cons, hother before hbefore, hother after hafter]
  have hrow : row.isPending = true := PendingRow.isPending_iff.mpr hstatus
  have hdone : ({ row with status := .submitted } : PendingRow).isPending = false := rfl
  simp [List.filter_append, hrow, hdone]
  omega

end BlockStore

/-! ### One row -/

namespace QueueFlusher

/-- What the flush takes out of the queue for an outcome. -/
def takes (o : FlushRowOutcome) : ℕ :=
  if o.waitingDifficulty = true ∨ o.waitingXuni = true then 0
  else if o.dropped = true ∨ o.flushed = true then 1 else 0

/-- The counters a flush leaves alone, and the sum of the two it raises for rows it takes. -/
structure Accounts (n : ℕ) (m m' : MetricsTracker) : Prop where
  sessionHits : m'.stats.sessionHits = m.stats.sessionHits
  found : m'.stats.found = m.stats.found
  enqueued : m'.stats.enqueued = m.stats.enqueued
  acceptedLive : m'.stats.acceptedLive = m.stats.acceptedLive
  resubmission : m'.stats.resubmission = m.stats.resubmission
  taken : m'.stats.acceptedFlush.total + m'.stats.droppedFlush =
    m.stats.acceptedFlush.total + m.stats.droppedFlush + n

variable {n n' : ℕ} {m m' m'' : MetricsTracker}

theorem Accounts.refl (m : MetricsTracker) : Accounts 0 m m := ⟨rfl, rfl, rfl, rfl, rfl, rfl⟩

theorem Accounts.trans (h : Accounts n m m') (h' : Accounts n' m' m'') : Accounts (n + n') m m'' where
  sessionHits := h'.sessionHits.trans h.sessionHits
  found := h'.found.trans h.found
  enqueued := h'.enqueued.trans h.enqueued
  acceptedLive := h'.acceptedLive.trans h.acceptedLive
  resubmission := h'.resubmission.trans h.resubmission
  taken := by
    rw [h'.taken, h.taken]
    omega

theorem accounts_recordDroppedFlush : Accounts 1 m m.recordDroppedFlush :=
  ⟨rfl, rfl, rfl, rfl, rfl, rfl⟩

theorem accounts_recordAcceptedFlush {kind : String} : Accounts 1 m (m.recordAcceptedFlush kind) := by
  unfold MetricsTracker.recordAcceptedFlush
  constructor
  case taken =>
    dsimp only
    rw [total_inc]
    omega
  all_goals dsimp only

theorem accounts_recordRejectedFlush {kind key : String} :
    Accounts 0 m (m.recordRejectedFlush kind key) := by
  unfold MetricsTracker.recordRejectedFlush
  split_ifs
  · exact Accounts.refl m
  · exact ⟨rfl, rfl, rfl, rfl, rfl, rfl⟩

/-- An outcome is counted as the rows it takes. -/
theorem accounts_account (acc : MetricsTracker × ℕ) (o : FlushRowOutcome) :
    Accounts (takes o) acc.1 (account acc o).1 := by
  unfold account takes
  by_cases hdifficulty : o.waitingDifficulty = true
  · rw [if_pos hdifficulty, if_pos (Or.inl hdifficulty)]
    exact Accounts.refl _
  by_cases hxuni : o.waitingXuni = true
  · rw [if_neg hdifficulty, if_pos hxuni, if_pos (Or.inr hxuni)]
    exact Accounts.refl _
  rw [if_neg hdifficulty, if_neg hxuni, if_neg (not_or.mpr ⟨hdifficulty, hxuni⟩)]
  dsimp only
  unfold applyOutcome
  by_cases hdropped : o.dropped = true
  · rw [if_pos hdropped, if_pos (Or.inl hdropped)]
    exact accounts_recordDroppedFlush
  by_cases hflushed : o.flushed = true
  · rw [if_neg hdropped, if_pos hflushed, if_pos (Or.inr hflushed)]
    exact accounts_recordAcceptedFlush
  rw [if_neg hdropped, if_neg hflushed, if_neg (not_or.mpr ⟨hdropped, hflushed⟩)]
  split_ifs
  · exact accounts_recordRejectedFlush
  · exact Accounts.refl _

theorem accounts_foldl (outcomes : List FlushRowOutcome) (acc : MetricsTracker × ℕ) :
    Accounts (outcomes.map takes).sum acc.1 (outcomes.foldl account acc).1 := by
  induction outcomes generalizing acc with
  | nil => exact Accounts.refl _
  | cons o outcomes ih =>
    rw [List.map_cons, List.sum_cons, List.foldl_cons]
    exact (accounts_account acc o).trans (ih _)

end QueueFlusher

open QueueFlusher

variable {A : Argon2Common.Argon2} {settings : Settings} {env : FlushEnv} {onShutdown : Bool}
  {s : BlockStore} {rowId : ℕ} {row queued : PendingRow}

theorem length_pending_of_labels {s' : BlockStore} (h : s'.pendingLabels = s.pendingLabels) :
    s'.pending.length = s.pending.length := by
  rw [← length_pendingLabels, h, length_pendingLabels]

theorem submitRow_balance {hit : BlockHit} {memoryCost : ℤ} (h : (rowId, queued) ∈ s.pending) :
    (submitRow env onShutdown s rowId hit memoryCost).1.pending.length +
      takes (submitRow env onShutdown s rowId hit memoryCost).2 = s.pending.length := by
  have hmark : ∀ reason, (s.markPendingReason rowId reason).pending.length = s.pending.length :=
    fun _ => length_pending_of_labels pendingLabels_markPendingReason
  unfold submitRow
  dsimp only
  by_cases haccepted : submitAccepted (env.reply rowId).status (env.reply rowId).body = true
  · rw [if_pos haccepted]
    exact length_pending_markSubmitted h
  rw [if_neg haccepted]
  by_cases hmismatch : isDifficultyMismatch (env.reply rowId).status (env.reply rowId).body = true
  · rw [if_pos hmismatch]
    exact hmark _
  rw [if_neg hmismatch]
  by_cases hwindow : isXuniWindowReject (env.reply rowId).status (env.reply rowId).body = true
  · rw [if_pos hwindow]
    exact hmark _
  rw [if_neg hwindow]
  -- a refused row stays, whatever is written down about it
  by_cases hcounts : countsAsReject (env.reply rowId).status (env.reply rowId).body = true
  · rw [if_pos hcounts]
    refine length_pending_of_labels ?_
    rw [pendingLabels_recordRejection, recordRejection_some, if_neg Bool.false_ne_true,
      List.append_nil]
  · rw [if_neg hcounts]
    by_cases hqueued : (onShutdown && decide (PyStr.upper hit.blockType ∈ ["XNM", "XBLK"])) = true
    · rw [if_pos hqueued]
      exact hmark _
    · rw [if_neg hqueued]
      rfl

/-- A row leaves the queue when its outcome is counted as taken, and only then. -/
theorem prepareRow_balance (A : Argon2Common.Argon2) (settings : Settings) (env : FlushEnv)
    (onShutdown : Bool) (row : PendingRow) (h : (rowId, queued) ∈ s.pending) :
    (prepareRow A settings env onShutdown s rowId row).1.pending.length +
      takes (prepareRow A settings env onShutdown s rowId row).2 = s.pending.length := by
  unfold prepareRow
  cases disposition A settings env.difficulty (env.stamp rowId) row with
  | waiting blockMemoryCost => rfl
  | falsePositive => exact length_pending_markSubmitted h
  | prepared hit memoryCost =>
    dsimp only
    by_cases hready : (Policy.readyToFlush hit.blockType (env.minute rowId)).1 = false
    · rw [if_pos hready]
      cases onShutdown with
      | true => exact length_pending_of_labels pendingLabels_markPendingReason
      | false => rfl
    · rw [if_neg hready]
      exact submitRow_balance h

/-- The turn of a row leaves the other rows in the queue. -/
theorem prepareRow_stays {i : ℕ} {r : PendingRow} (h : (i, r) ∈ s.pending) (hi : i ≠ rowId) :
    ∃ r', (i, r') ∈ (prepareRow A settings env onShutdown s rowId row).1.pending := by
  obtain ⟨op, heq, heffect⟩ := prepareRow_effect A settings env onShutdown s rowId row
  rw [heq]
  cases hop : op with
  | none => exact ⟨r, h⟩
  | some o =>
    subst hop
    have hother : ∀ now httpStatus body, o ≠ .markSubmitted now i httpStatus body := by
      rintro now httpStatus body rfl
      cases heffect with
      | drop => exact hi rfl
      | accept => exact hi rfl
    obtain ⟨r', hr', -⟩ := pending_stays h hother
    exact ⟨r', hr'⟩

/-! ### A flush -/

namespace QueueFlusher

theorem prepareRows_balance (A : Argon2Common.Argon2) (settings : Settings) (env : FlushEnv)
    (onShutdown : Bool) {rows : List (ℕ × PendingRow)} (hids : (rows.map Prod.fst).Nodup)
    (h : ∀ x ∈ rows, ∃ r, (x.1, r) ∈ s.pending) :
    (prepareRows A settings env onShutdown s rows).1.pending.length +
      ((prepareRows A settings env onShutdown s rows).2.map takes).sum = s.pending.length := by
  induction rows generalizing s with
  | nil => rfl
  | cons x rows ih =>
    obtain ⟨rowId, row⟩ := x
    obtain ⟨⟨queued, hqueued⟩, hrest⟩ := List.forall_mem_cons.mp h
    rw [List.map_cons, List.nodup_cons] at hids
    have hturn := prepareRow_balance A settings env onShutdown row hqueued
    have hstays : ∀ y ∈ rows,
        ∃ r, (y.1, r) ∈ (prepareRow A settings env onShutdown s rowId row).1.pending := by
      intro y hy
      obtain ⟨r, hr⟩ := hrest y hy
      refine prepareRow_stays hr fun hsame => hids.1 ?_
      rw [← show y.1 = rowId from hsame]
      exact List.mem_map.mpr ⟨y, hy, rfl⟩
    have hnext := ih hids.2 hstays
    rw [prepareRows]
    dsimp only at hturn hnext ⊢
    rw [List.map_cons, List.sum_cons]
    omega

theorem nodup_pending_ids (s : BlockStore) : (s.pending.map Prod.fst).Nodup := by
  have hids : (s.pendingBlocks.rows.map Prod.fst).Nodup :=
    List.pairwise_map.mpr (s.pendingBlocks.sorted.imp fun hlt => Nat.ne_of_lt hlt)
  exact hids.sublist (List.filter_sublist.map Prod.fst)

/-- The pending rows, and the rows the flushes of the session took out of the queue. -/
def balance (q : QueueFlusher) : ℕ :=
  q.store.pending.length + q.metrics.stats.acceptedFlush.total + q.metrics.stats.droppedFlush

/-- **A flush takes no row out of the queue that it does not count, and counts none that stays.** -/
theorem balance_flush (q : QueueFlusher) :
    (flush A settings q env onShutdown).1.balance = q.balance := by
  have hrows := prepareRows_balance A settings env onShutdown (nodup_pending_ids q.store)
    fun x hx => ⟨x.2, hx⟩
  have htaken := (accounts_foldl (prepareRows A settings env onShutdown q.store q.store.pending).2
    (q.metrics, 0)).taken
  unfold balance flush
  dsimp only at htaken ⊢
  omega

/-- A flush counts nothing but what it takes. -/
theorem accounts_flush (A : Argon2Common.Argon2) (settings : Settings) (env : FlushEnv)
    (onShutdown : Bool) (q : QueueFlusher) :
    ∃ n, Accounts n q.metrics (flush A settings q env onShutdown).1.metrics :=
  ⟨_, accounts_foldl _ (q.metrics, 0)⟩

theorem balance_deferToNextStart (q : QueueFlusher) (minute : ℕ → ℕ) :
    (deferToNextStart q minute).1.balance = q.balance := by
  have hlabels := deferToNextStart_induction (P := fun s => s.pendingLabels = q.store.pendingLabels)
    q minute rfl fun s rowId reason _ h => pendingLabels_markPendingReason.trans h
  have hlength := length_pending_of_labels hlabels
  unfold balance
  rw [hlength]
  rfl

end QueueFlusher

end XenMiner
