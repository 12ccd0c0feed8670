import XenMiner.BlockQueue.Crash
import XenMiner.BlockQueue.Equiv.Store

/-!
# The ledger only moves forward

`Forward s s'` says what may become of a store: its rows stay and keep their blocks, a submitted row
stays as it is, submissions are only added, and a submitted row keeps its submission.  Every single
write moves forward (`meets_writes`), so an operation that a crash cuts short does too
(`forward_crash`), and so does every run of such operations (`ledger_forward`).
-/

namespace XenMiner

open BlockStore

/-- A row keeps its key and its hash, and once it is submitted it does not change. -/
structure PendingRow.Onward (r r' : PendingRow) : Prop where
  key : r'.key = r.key
  hashStr : r'.hashStr = r.hashStr
  submitted : r.status = .submitted → r' = r

namespace PendingRow.Onward

variable {r r' r'' : PendingRow}

theorem refl (r : PendingRow) : Onward r r := ⟨rfl, rfl, fun _ => rfl⟩

theorem trans (h : Onward r r') (h' : Onward r' r'') : Onward r r'' := by
  refine ⟨h'.key.trans h.key, h'.hashStr.trans h.hashStr, fun hsubmitted => ?_⟩
  obtain rfl := h.submitted hsubmitted
  exact h'.submitted hsubmitted

/-- A pending row may change in its other columns. -/
theorem of_pending (hpending : r.status = .pending) (hblock : SameBlock r r') : Onward r r' := by
  refine ⟨hblock.key, hblock.hashStr, fun hsubmitted => ?_⟩
  rw [hpending] at hsubmitted
  cases hsubmitted

/-- A status goes back to pending from no other. -/
theorem status (h : Onward r r') (hpending : r'.status = .pending) : r.status = .pending := by
  cases hr : r.status with
  | pending => rfl
  | submitted => rw [← hr, ← h.submitted hr, hpending]

end PendingRow.Onward

namespace BlockStore

variable {s s' s'' : BlockStore}

/-- Every submitted row has a submission of its key. -/
def Recorded (s : BlockStore) : Prop :=
  ∀ x ∈ s.pendingBlocks.rows, x.2.status = .submitted →
    ∃ y ∈ s.submittedBlocks.rows, y.2.key = x.2.key

structure Forward (s s' : BlockStore) : Prop where
  rows : s.pendingBlocks.Keeps PendingRow.Onward s'.pendingBlocks
  submissions : s.submittedBlocks.rows <+: s'.submittedBlocks.rows
  recorded : s.Recorded → s'.Recorded

namespace Forward

theorem refl (s : BlockStore) : Forward s s :=
  ⟨Table.Keeps.refl PendingRow.Onward.refl _, List.prefix_refl _, id⟩

theorem trans (h : Forward s s') (h' : Forward s' s'') : Forward s s'' :=
  ⟨h.rows.trans (fun _ _ _ => PendingRow.Onward.trans) h'.rows, h.submissions.trans h'.submissions,
    fun hrec => h'.recorded (h.recorded hrec)⟩

/-! ### Rules -/

/-- New rows are pending. -/
theorem append (new : List (ℕ × PendingRow))
    (hrows : s'.pendingBlocks.rows = s.pendingBlocks.rows ++ new)
    (hnew : ∀ x ∈ new, x.2.status = .pending) (hsub : s'.submittedBlocks = s.submittedBlocks) :
    Forward s s' := by
  refine ⟨fun i r hr => ⟨r, ?_, PendingRow.Onward.refl r⟩, ?_, fun hrec x hx hsubmitted => ?_⟩
  · rw [hrows]
    exact List.mem_append_left _ hr
  · rw [hsub]
  · rw [hrows] at hx
    rw [hsub]
    rcases List.mem_append.mp hx with hx | hx
    · exact hrec x hx hsubmitted
    · rw [hnew x hx] at hsubmitted
      cases hsubmitted

/-- Logs do not count. -/
theorem of_tables (hrows : s'.pendingBlocks = s.pendingBlocks)
    (hsub : s'.submittedBlocks = s.submittedBlocks) : Forward s s' := by
  refine append [] ?_ ?_ hsub
  · rw [hrows, List.append_nil]
  · simp

/-- A new submission. -/
theorem insert {x : SubmittedRow} (hrows : s'.pendingBlocks = s.pendingBlocks)
    (hsub : s'.submittedBlocks = s.submittedBlocks.insert x) : Forward s s' := by
  refine ⟨?_, ?_, fun hrec y hy hsubmitted => ?_⟩
  · rw [hrows]
    exact Table.Keeps.refl PendingRow.Onward.refl _
  · rw [hsub]
    exact List.prefix_append _ _
  · rw [hrows] at hy
    obtain ⟨z, hz, hkey⟩ := hrec y hy hsubmitted
    rw [hsub]
    exact ⟨z, Table.mem_insert.mpr (Or.inl hz), hkey⟩

/-- An update of pending rows that leaves them pending. -/
theorem update {p : ℕ → PendingRow → Bool} {f : PendingRow → PendingRow}
    (hrows : s'.pendingBlocks = s.pendingBlocks.update p f)
    (hsub : s'.submittedBlocks = s.submittedBlocks)
    (hp : ∀ i r, (i, r) ∈ s.pendingBlocks.rows → p i r = true → r.status = .pending)
    (hf : ∀ r, PendingRow.SameBlock r (f r) ∧ (f r).status = r.status) : Forward s s' := by
  refine ⟨?_, ?_, fun hrec x hx hsubmitted => ?_⟩
  · rw [hrows]
    exact Table.keeps_update PendingRow.Onward.refl fun i r hr hpr =>
      PendingRow.Onward.of_pending (hp i r hr hpr) (hf r).1
  · rw [hsub]
  · rw [hrows] at hx
    obtain ⟨⟨i, r⟩, hr, rfl⟩ := Table.mem_update.mp hx
    rw [hsub]
    dsimp only at hsubmitted ⊢
    by_cases hpr : p i r = true
    · rw [if_pos hpr, (hf r).2, hp i r hr hpr] at hsubmitted
      cases hsubmitted
    · rw [if_neg hpr] at hsubmitted ⊢
      exact hrec _ hr hsubmitted

end Forward

/-! ### The writes -/

theorem forward_markSubmitted (s : BlockStore) (now : ℤ) (rowId : ℕ) (httpStatus : ℤ)
    (body : String) : Forward s (s.markSubmitted now rowId httpStatus body) := by
  rcases markSubmitted_cases s now rowId httpStatus body with ⟨-, heq⟩ | ⟨row, hrow, heq⟩
  · rw [heq]
    exact Forward.refl s
  · rw [heq]
    refine ⟨Table.keeps_update PendingRow.Onward.refl fun i r _ _ => ⟨rfl, rfl, fun hsubmitted => ?_⟩,
      List.prefix_append _ _, fun hrec x hx hsubmitted => ?_⟩
    · rw [← hsubmitted]
    · obtain ⟨⟨i, r⟩, hr, rfl⟩ := Table.mem_update.mp hx
      dsimp only at hsubmitted ⊢
      by_cases hi : i = rowId
      · -- the row that is marked now has the submission inserted with it
        subst hi
        obtain rfl := Table.row_unique hr hrow
        refine ⟨_, Table.mem_insert.mpr (Or.inr rfl), ?_⟩
        rw [if_pos (decide_eq_true rfl)]
      · rw [if_neg (by simpa using hi)] at hsubmitted ⊢
        obtain ⟨y, hy, hkey⟩ := hrec _ hr hsubmitted
        exact ⟨y, Table.mem_insert.mpr (Or.inl hy), hkey⟩

theorem forward_importPendingFromJsonl (s : BlockStore) :
    Forward s (s.importPendingFromJsonl false).1 := by
  obtain ⟨new, hrows, hnew⟩ := importPendingFromJsonl_rows s
  refine Forward.append new hrows (fun x hx => ?_) rfl
  have hrow : x.2 ∈ new.map Prod.snd := List.mem_map_of_mem hx
  rw [hnew] at hrow
  obtain ⟨record, -, hrecord⟩ := List.mem_map.mp hrow
  rw [← hrecord]
  rfl

theorem forward_insertPending (s : BlockStore) (now : ℤ) (hit : BlockHit) (reason : String) :
    Forward s (insertPending (queueRow now hit reason) s) := by
  refine Forward.append [(s.pendingBlocks.nextId, queueRow now hit reason)] rfl ?_ rfl
  intro x hx
  rw [List.mem_singleton.mp hx]
  rfl

theorem forward_countReject {p : ℕ → PendingRow → Bool} (reason : String)
    (hp : ∀ i r, (i, r) ∈ s.pendingBlocks.rows → p i r = true → r.status = .pending) :
    Forward s (s.countReject p reason) := by
  refine Forward.update (f := fun r => { r with queueReason := reason, rejectCount := r.rejectCount + 1 })
    rfl rfl hp ?_
  intro r
  exact ⟨rfl, rfl⟩

theorem forward_markPendingReason (s : BlockStore) (pendingId : ℕ) (reason : String) :
    Forward s (s.markPendingReason pendingId reason) := by
  refine Forward.update markPendingReason_pendingBlocks rfl (fun i r _ hchosen => ?_) ?_
  · simp only [Bool.and_eq_true] at hchosen
    exact PendingRow.isPending_iff.mp hchosen.2
  · intro r
    exact ⟨rfl, rfl⟩

theorem forward_migrateRejectedPending (s : BlockStore) : Forward s s.migrateRejectedPending.1 := by
  refine Forward.update migrateRejectedPending_pendingBlocks rfl (fun i r _ hchosen => ?_) ?_
  · simp only [isRejectedPending, Bool.and_eq_true] at hchosen
    exact PendingRow.isPending_iff.mp hchosen.1.1
  · intro r
    exact ⟨rfl, rfl⟩

theorem forward_reclassifyPending (s : BlockStore) : Forward s s.reclassifyPending.1 := by
  refine Forward.update reclassifyPending_pendingBlocks rfl (fun i r _ hchosen => ?_) ?_
  · simp only [isMislabelled, Bool.and_eq_true] at hchosen
    exact PendingRow.isPending_iff.mp hchosen.1.1
  · intro r
    exact ⟨PendingRow.SameBlock.relabel r _, rfl⟩

/-- One write of a run moves forward. -/
def WritesForward (s : BlockStore) (w : Write) : Prop := Forward s (w s)

theorem meets_enqueueWrites (s : BlockStore) (now : ℤ) (hit : BlockHit) (reason : String) :
    Run.Meets write WritesForward s (enqueueWrites now hit reason) :=
  ⟨Forward.of_tables rfl rfl, forward_insertPending _ now hit reason, trivial⟩

theorem meets_noteRejectWrites (s : BlockStore) (now : ℤ) (hit : BlockHit) (httpStatus : ℤ)
    (body source : String) :
    Run.Meets write WritesForward s (noteRejectWrites now hit httpStatus body source) :=
  ⟨Forward.of_tables rfl rfl, Forward.insert rfl rfl, trivial⟩

theorem meets_recordRejectionWrites (s : BlockStore) (now : ℤ) (hit : BlockHit) (httpStatus : ℤ)
    (body source : String) (pendingId : Option ℕ) (queueReason : Option String) :
    Run.Meets write WritesForward s
      (s.recordRejectionWrites now hit httpStatus body source pendingId queueReason) := by
  have hnote : ∀ (s : BlockStore) (row : PendingRow), Run.Meets write WritesForward s
      (if row.rejectCount = 0 then noteRejectWrites now hit httpStatus body source else []) := by
    intro s row
    split_ifs
    · exact meets_noteRejectWrites s now hit httpStatus body source
    · exact Run.meets_nil
  unfold recordRejectionWrites
  cases pendingId with
  | some rowId =>
    dsimp only
    cases s.pendingBlocks.fetchOne fun i (r : PendingRow) => decide (i = rowId) && r.isPending with
    | none => exact Run.meets_nil
    | some x =>
      refine ⟨forward_countReject _ fun i r _ hchosen => ?_, hnote _ _⟩
      simp only [Bool.and_eq_true] at hchosen
      exact PendingRow.isPending_iff.mp hchosen.2
  | none =>
    dsimp only
    cases hrow : s.pendingBlocks.fetchOne fun _ (r : PendingRow) =>
        decide (r.key = hit.key) && r.isPending with
    | none =>
      exact Run.meets_append.mpr
        ⟨meets_noteRejectWrites s now hit httpStatus body source, meets_enqueueWrites _ now hit _⟩
    | some x =>
      -- the update names the row by its id alone; it is the pending row that was just read
      obtain ⟨hmem, hchosen⟩ := Table.mem_of_fetchOne hrow
      simp only [Bool.and_eq_true] at hchosen
      refine ⟨forward_countReject _ fun i r hr hi => ?_, hnote _ _⟩
      obtain rfl : i = x.1 := of_decide_eq_true hi
      rw [Table.row_unique hr hmem]
      exact PendingRow.isPending_iff.mp hchosen.2

/-- Every write of every operation moves forward. -/
theorem meets_writes (s : BlockStore) (op : StoreOp) :
    Run.Meets write WritesForward s (s.writes op) := by
  cases op with
  | enqueue now hit reason => exact meets_enqueueWrites s now hit reason
  | markPendingReason pendingId reason => exact ⟨forward_markPendingReason s pendingId reason, trivial⟩
  | recordRejection now hit httpStatus body source pendingId queueReason =>
    exact meets_recordRejectionWrites s now hit httpStatus body source pendingId queueReason
  | recordDirectSubmit now hit httpStatus body => exact ⟨Forward.insert rfl rfl, trivial⟩
  | markSubmitted now rowId httpStatus body =>
    exact ⟨forward_markSubmitted s now rowId httpStatus body, trivial⟩
  | importPendingFromJsonl => exact ⟨forward_importPendingFromJsonl s, trivial⟩
  | migrateRejectedPending => exact ⟨forward_migrateRejectedPending s, trivial⟩
  | reclassifyPending => exact ⟨forward_reclassifyPending s, trivial⟩

/-! ### Runs with crashes -/

theorem Forward.final {writes : List Write} (h : Run.Meets write WritesForward s writes) :
    Forward s (Run.final write s writes) :=
  h.invariant (I := Forward s) (fun _ _ hs hw => hs.trans hw) (Forward.refl s)

/-- An operation moves forward wherever it is cut short. -/
theorem forward_crash (s : BlockStore) (op : StoreOp) (n : ℕ) : Forward s (s.crash op n) :=
  Forward.final ((meets_writes s op).take n)

/-- An operation, and after how many of its writes the process dies. -/
def crashStep (s : BlockStore) (x : StoreOp × ℕ) : BlockStore := s.crash x.1 x.2

theorem forward_final (s : BlockStore) (ops : List (StoreOp × ℕ)) :
    Forward s (Run.final crashStep s ops) :=
  Run.invariant (I := Forward s) (fun t x h => h.trans (forward_crash t x.1 x.2)) (Forward.refl s)

/-- In every run, with crashes between any two writes, what was in the store before `later` is in it
afterwards: rows keep their blocks, submitted rows stay as they are and have their submission. -/
theorem ledger_forward (ops later : List (StoreOp × ℕ)) :
    let s := Run.final crashStep .empty ops
    let s' := Run.final crashStep s later
    s.pendingBlocks.Keeps PendingRow.Onward s'.pendingBlocks ∧
      s.submittedBlocks.rows <+: s'.submittedBlocks.rows ∧ s'.Recorded := by
  dsimp only
  have hforward := forward_final (Run.final crashStep .empty ops) later
  have hrecorded : Recorded .empty := by
    intro x hx
    cases hx
  exact ⟨hforward.rows, hforward.submissions,
    hforward.recorded ((forward_final .empty ops).recorded hrecorded)⟩

end BlockStore

end XenMiner
