import XenMiner.BlockQueue.Store

/-!
# What the store's operations do

One lemma for each operation says everything it can do; from these, every operation keeps the block
in each row (`keeps_apply`) and never takes back a submission or a line
(`submittedBlocks_prefix_apply`).  `importPendingFromJsonl_rows` lists the rows an import adds.
-/

namespace XenMiner

open BlockStore

/-- A row without the columns that operations change. -/
def PendingRow.block (r : PendingRow) : PendingRow :=
  { r with blockType := "", queueReason := "", rejectCount := 0, status := .pending }

/-- Two rows hold the same block. -/
def PendingRow.SameBlock (r r' : PendingRow) : Prop := r'.block = r.block

namespace PendingRow.SameBlock

variable {r r' r'' : PendingRow}

theorem refl (r : PendingRow) : SameBlock r r := rfl

theorem relabel (r : PendingRow) (label : String) : SameBlock r { r with blockType := label } := rfl

theorem trans (h : SameBlock r r') (h' : SameBlock r' r'') : SameBlock r r'' := Eq.trans h' h

theorem key (h : SameBlock r r') : r'.key = r.key :=
  show r'.block.key = r.block.key from congrArg PendingRow.key h

theorem hashStr (h : SameBlock r r') : r'.hashStr = r.hashStr :=
  show r'.block.hashStr = r.block.hashStr from congrArg PendingRow.hashStr h

theorem memoryCost (h : SameBlock r r') : r'.memoryCost = r.memoryCost :=
  show r'.block.memoryCost = r.block.memoryCost from congrArg PendingRow.memoryCost h

end PendingRow.SameBlock

theorem PendingRow.isPending_iff {r : PendingRow} : r.isPending = true ↔ r.status = .pending :=
  decide_eq_true_iff

theorem SubmittedRow.isAccepted_iff {r : SubmittedRow} :
    r.isAccepted = true ↔ 200 ≤ r.httpStatus ∧ r.httpStatus < 300 := by
  unfold SubmittedRow.isAccepted
  rw [Bool.and_eq_true, decide_eq_true_iff, decide_eq_true_iff]

namespace BlockStore

variable {s : BlockStore} {now : ℤ} {hit : BlockHit} {httpStatus : ℤ} {body source : String}

/-! ### Keys -/

theorem mem_pending {x : ℕ × PendingRow} :
    x ∈ s.pending ↔ x ∈ s.pendingBlocks.rows ∧ x.2.status = .pending := by
  unfold pending
  rw [Table.mem_select, PendingRow.isPending_iff]

theorem mem_pendingKeys {key : String} : key ∈ s.pendingKeys ↔ ∃ x ∈ s.pending, x.2.key = key := by
  unfold pendingKeys pending
  exact List.mem_map

theorem mem_acceptedKeys {key : String} :
    key ∈ s.acceptedKeys ↔ ∃ x ∈ s.submittedBlocks.rows, x.2.isAccepted = true ∧ x.2.key = key := by
  unfold acceptedKeys
  rw [List.mem_map]
  simp only [Table.mem_select, and_assoc]

/-! ### Fields -/

section Fields

variable {pendingId : ℕ} {reason : String} {p : ℕ → PendingRow → Bool}

@[simp]
theorem enqueue_pendingBlocks :
    (s.enqueue now hit reason).pendingBlocks = s.pendingBlocks.insert (queueRow now hit reason) :=
  rfl

@[simp]
theorem enqueue_submittedBlocks :
    (s.enqueue now hit reason).submittedBlocks = s.submittedBlocks := rfl

@[simp]
theorem enqueue_queueJsonl :
    (s.enqueue now hit reason).queueJsonl = s.queueJsonl ++ [queueRecord now hit reason] := rfl

@[simp]
theorem enqueue_rejectedJsonl : (s.enqueue now hit reason).rejectedJsonl = s.rejectedJsonl := rfl

@[simp]
theorem markPendingReason_submittedBlocks :
    (s.markPendingReason pendingId reason).submittedBlocks = s.submittedBlocks := rfl

@[simp]
theorem markPendingReason_queueJsonl :
    (s.markPendingReason pendingId reason).queueJsonl = s.queueJsonl := rfl

@[simp]
theorem markPendingReason_rejectedJsonl :
    (s.markPendingReason pendingId reason).rejectedJsonl = s.rejectedJsonl := rfl

@[simp]
theorem countReject_submittedBlocks :
    (s.countReject p reason).submittedBlocks = s.submittedBlocks := rfl

@[simp]
theorem countReject_queueJsonl : (s.countReject p reason).queueJsonl = s.queueJsonl := rfl

@[simp]
theorem countReject_rejectedJsonl : (s.countReject p reason).rejectedJsonl = s.rejectedJsonl := rfl

@[simp]
theorem recordDirectSubmit_pendingBlocks :
    (s.recordDirectSubmit now hit httpStatus body).pendingBlocks = s.pendingBlocks := rfl

@[simp]
theorem recordDirectSubmit_queueJsonl :
    (s.recordDirectSubmit now hit httpStatus body).queueJsonl = s.queueJsonl := rfl

@[simp]
theorem recordDirectSubmit_rejectedJsonl :
    (s.recordDirectSubmit now hit httpStatus body).rejectedJsonl = s.rejectedJsonl := rfl

@[simp]
theorem noteReject_pendingBlocks :
    (s.noteReject now hit httpStatus body source).pendingBlocks = s.pendingBlocks := rfl

@[simp]
theorem noteReject_queueJsonl :
    (s.noteReject now hit httpStatus body source).queueJsonl = s.queueJsonl := rfl

theorem markPendingReason_pendingBlocks :
    (s.markPendingReason pendingId reason).pendingBlocks =
      s.pendingBlocks.update (fun i r => decide (i = pendingId) && r.isPending)
        fun r => { r with queueReason := reason } := rfl

theorem migrateRejectedPending_pendingBlocks :
    s.migrateRejectedPending.1.pendingBlocks =
      s.pendingBlocks.update (fun _ r => s.isRejectedPending r)
        fun r => { r with queueReason := resubmissionReason } := rfl

theorem reclassifyPending_pendingBlocks :
    s.reclassifyPending.1.pendingBlocks =
      s.pendingBlocks.update (fun _ r => isMislabelled r)
        fun r => { r with blockType := newType r } := rfl

end Fields

/-! ### The operations on a row -/

theorem markSubmitted_cases (s : BlockStore) (now : ℤ) (rowId : ℕ) (httpStatus : ℤ)
    (body : String) :
    (∀ x ∈ s.pendingBlocks.rows, x.1 ≠ rowId) ∧ s.markSubmitted now rowId httpStatus body = s ∨
    ∃ row, (rowId, row) ∈ s.pendingBlocks.rows ∧
      s.markSubmitted now rowId httpStatus body =
        { s with
          pendingBlocks := s.pendingBlocks.update (fun i _ => decide (i = rowId))
            fun r => { r with status := .submitted }
          submittedBlocks := s.submittedBlocks.insert
            { key := row.key, hashStr := row.hashStr, blockType := row.blockType
              strategy := row.strategy, attempts := row.attempts, httpStatus := httpStatus
              responseBody := body, submittedAt := now } } := by
  unfold markSubmitted
  cases hrow : s.pendingBlocks.fetchOne fun i _ => decide (i = rowId) with
  | none =>
    left
    refine ⟨fun x hx => ?_, rfl⟩
    simpa using Table.fetchOne_eq_none.mp hrow x hx
  | some x =>
    obtain ⟨i, row⟩ := x
    obtain ⟨hmem, hid⟩ := Table.mem_of_fetchOne hrow
    obtain rfl : i = rowId := of_decide_eq_true hid
    right
    exact ⟨row, hmem, rfl⟩

/-- A rejection of a queued row counts it, and notes it the first time; a rejection of a block that
is not queued notes it and queues it. -/
theorem recordRejection_cases (s : BlockStore) (now : ℤ) (hit : BlockHit) (httpStatus : ℤ)
    (body source : String) (pendingId : Option ℕ) (queueReason : Option String) :
    (∃ rowId, pendingId = some rowId) ∧
      s.recordRejection now hit httpStatus body source pendingId queueReason = (s, false) ∨
    (∃ rowId row p reason, (rowId, row) ∈ s.pendingBlocks.rows ∧ row.status = .pending ∧
      (p rowId row = true ∧ ∀ i r, p i r = true → i = rowId) ∧
      (pendingId = some rowId ∧ reason = PyStr.orElse (queueReason.getD "") resubmissionReason ∨
        pendingId = none ∧ row.key = hit.key ∧ reason = resubmissionReason) ∧
      s.recordRejection now hit httpStatus body source pendingId queueReason =
        (if row.rejectCount = 0 then
          (s.countReject p reason).noteReject now hit httpStatus body source
        else s.countReject p reason, false)) ∨
    pendingId = none ∧ hit.key ∉ s.pendingKeys ∧
      s.recordRejection now hit httpStatus body source pendingId queueReason =
        ((s.noteReject now hit httpStatus body source).enqueue now hit resubmissionReason, true) := by
  unfold recordRejection
  cases pendingId with
  | some rowId =>
    dsimp only
    cases hrow : s.pendingBlocks.fetchOne
        (fun i (r : PendingRow) => decide (i = rowId) && r.isPending) with
    | none =>
      left
      exact ⟨⟨rowId, rfl⟩, rfl⟩
    | some x =>
      obtain ⟨i, row⟩ := x
      obtain ⟨hmem, hchosen⟩ := Table.mem_of_fetchOne hrow
      simp only [Bool.and_eq_true, decide_eq_true_eq] at hchosen
      obtain ⟨rfl, hpending⟩ := hchosen
      right; left
      refine ⟨i, row, fun j r => decide (j = i) && r.isPending, _, hmem,
        PendingRow.isPending_iff.mp hpending, ⟨?_, ?_⟩, Or.inl ⟨rfl, rfl⟩, ?_⟩
      · simp [hpending]
      · intro j r hj
        simp only [Bool.and_eq_true, decide_eq_true_eq] at hj
        exact hj.1
      · dsimp only
        split_ifs <;> rfl
  | none =>
    dsimp only
    cases hrow : s.pendingBlocks.fetchOne
        (fun _ (r : PendingRow) => decide (r.key = hit.key) && r.isPending) with
    | none =>
      right; right
      refine ⟨rfl, fun hkey => ?_, rfl⟩
      obtain ⟨x, hx, hxkey⟩ := mem_pendingKeys.mp hkey
      obtain ⟨hmem, hstatus⟩ := mem_pending.mp hx
      have hchosen := Table.fetchOne_eq_none.mp hrow x hmem
      simp [hxkey, PendingRow.isPending_iff.mpr hstatus] at hchosen
    | some x =>
      obtain ⟨i, row⟩ := x
      obtain ⟨hmem, hchosen⟩ := Table.mem_of_fetchOne hrow
      simp only [Bool.and_eq_true, decide_eq_true_eq] at hchosen
      obtain ⟨hkey, hpending⟩ := hchosen
      right; left
      refine ⟨i, row, fun j _ => decide (j = i), _, hmem, PendingRow.isPending_iff.mp hpending,
        ⟨decide_eq_true rfl, ?_⟩, Or.inr ⟨rfl, hkey, rfl⟩, ?_⟩
      · intro j r hj
        exact of_decide_eq_true hj
      · dsimp only
        split_ifs <;> rfl

/-! ### The import -/

/-- The lines an import takes up when it knows some keys already. -/
def restorable (known : List String) : List QueueRecord → List QueueRecord
  | [] => []
  | record :: records =>
    if record.key ∈ known then restorable known records
    else record :: restorable (record.key :: known) records

theorem mem_restorable {known : List String} {records : List QueueRecord} {record : QueueRecord}
    (h : record ∈ restorable known records) : record ∈ records ∧ record.key ∉ known := by
  induction records generalizing known with
  | nil => cases h
  | cons r records ih =>
    rw [restorable] at h
    split_ifs at h with hknown
    · obtain ⟨hmem, hkey⟩ := ih h
      exact ⟨List.mem_cons_of_mem r hmem, hkey⟩
    · rcases List.mem_cons.mp h with rfl | h
      · exact ⟨List.mem_cons_self, hknown⟩
      · obtain ⟨hmem, hkey⟩ := ih h
        exact ⟨List.mem_cons_of_mem r hmem, fun hk => hkey (List.mem_cons_of_mem _ hk)⟩

/-- An import takes up each key once. -/
theorem nodup_restorable (known : List String) (records : List QueueRecord) :
    ((restorable known records).map QueueRecord.key).Nodup := by
  induction records generalizing known with
  | nil => exact List.nodup_nil
  | cons r records ih =>
    rw [restorable]
    split_ifs
    · exact ih known
    · rw [List.map_cons, List.nodup_cons]
      refine ⟨fun hmem => ?_, ih _⟩
      obtain ⟨record, hrecord, hkey⟩ := List.mem_map.mp hmem
      exact (mem_restorable hrecord).2 (hkey ▸ List.mem_cons_self)

/-- An import leaves out no new key. -/
theorem exists_restorable {known : List String} {records : List QueueRecord} {record : QueueRecord}
    (hmem : record ∈ records) (hkey : record.key ∉ known) :
    ∃ r ∈ restorable known records, r.key = record.key := by
  induction records generalizing known with
  | nil => cases hmem
  | cons r records ih =>
    rw [restorable]
    rcases List.mem_cons.mp hmem with rfl | hmem
    · rw [if_neg hkey]
      exact ⟨record, List.mem_cons_self, rfl⟩
    · split_ifs
      · exact ih hmem hkey
      · by_cases hsame : record.key = r.key
        · exact ⟨r, List.mem_cons_self, hsame.symm⟩
        · have hnext : record.key ∉ r.key :: known := by simp [hsame, hkey]
          obtain ⟨r', hr', hkey'⟩ := ih hmem hnext
          exact ⟨r', List.mem_cons_of_mem r hr', hkey'⟩

/-- Nothing is skipped when the keys are new and distinct. -/
theorem restorable_eq_self {known : List String} {records : List QueueRecord}
    (hnew : ∀ record ∈ records, record.key ∉ known)
    (hnd : (records.map QueueRecord.key).Nodup) : restorable known records = records := by
  induction records generalizing known with
  | nil => rfl
  | cons r records ih =>
    rw [List.map_cons, List.nodup_cons] at hnd
    rw [restorable, if_neg (hnew r List.mem_cons_self)]
    rw [ih ?_ hnd.2]
    intro record hrecord hmem
    rcases List.mem_cons.mp hmem with heq | hmem
    · exact hnd.1 (heq ▸ List.mem_map_of_mem hrecord)
    · exact hnew record (List.mem_cons_of_mem r hrecord) hmem

theorem foldl_line_rows {accepted known : List String} {a : Import} {records : List QueueRecord}
    (hknown : ∀ key, key ∈ known ↔ key ∈ a.seen ∨ key ∈ a.pending ∨ key ∈ accepted) :
    ∃ new, (records.foldl (Import.line accepted false) a).pendingBlocks.rows =
        a.pendingBlocks.rows ++ new ∧
      new.map Prod.snd = (restorable known records).map importedRow := by
  induction records generalizing a known with
  | nil => exact ⟨[], by simp, rfl⟩
  | cons r records ih =>
    rw [List.foldl_cons, restorable]
    by_cases hskip : r.key ∈ known
    · rw [if_pos hskip, Import.line, if_pos ((hknown _).mp hskip)]
      exact ih hknown
    · rw [if_neg hskip, Import.line, if_neg (fun h => hskip ((hknown _).mpr h)),
        if_neg Bool.false_ne_true]
      have hnext : ∀ key, key ∈ r.key :: known ↔
          key ∈ r.key :: a.seen ∨ key ∈ r.key :: a.pending ∨ key ∈ accepted := by
        intro key
        simp only [List.mem_cons, hknown]
        tauto
      obtain ⟨new, hrows, hnew⟩ := ih (a := ⟨a.pendingBlocks.insert (importedRow r),
        r.key :: a.pending, r.key :: a.seen, a.imported + 1⟩) hnext
      refine ⟨(a.pendingBlocks.nextId, importedRow r) :: new, ?_, ?_⟩
      · rw [hrows, Table.rows_insert, List.append_assoc, List.singleton_append]
      · rw [List.map_cons, List.map_cons, hnew]

/-- An import adds a row for the first line of each key that is neither pending nor accepted. -/
theorem importPendingFromJsonl_rows (s : BlockStore) :
    ∃ new, (s.importPendingFromJsonl false).1.pendingBlocks.rows = s.pendingBlocks.rows ++ new ∧
      new.map Prod.snd =
        (restorable (s.pendingKeys ++ s.acceptedKeys) s.queueJsonl).map importedRow :=
  foldl_line_rows fun key => by simp

/-- A logged block that is neither pending nor accepted is pending after an import. -/
theorem mem_pendingKeys_import {s : BlockStore} {record : QueueRecord}
    (hlog : record ∈ s.queueJsonl) (hpending : record.key ∉ s.pendingKeys)
    (haccepted : record.key ∉ s.acceptedKeys) :
    record.key ∈ (s.importPendingFromJsonl false).1.pendingKeys := by
  obtain ⟨new, hrows, hnew⟩ := importPendingFromJsonl_rows s
  have hout : record.key ∉ s.pendingKeys ++ s.acceptedKeys := by
    rw [List.mem_append, not_or]
    exact ⟨hpending, haccepted⟩
  obtain ⟨r, hr, hkey⟩ := exists_restorable hlog hout
  have hrow : importedRow r ∈ new.map Prod.snd := by
    rw [hnew]
    exact List.mem_map_of_mem hr
  obtain ⟨x, hx, hxrow⟩ := List.mem_map.mp hrow
  refine mem_pendingKeys.mpr ⟨x, mem_pending.mpr ⟨?_, ?_⟩, ?_⟩
  · rw [hrows]
    exact List.mem_append_right _ hx
  · rw [hxrow]
    rfl
  · rw [hxrow, ← hkey]
    rfl

/-! ### Every operation -/

theorem keeps_countReject {p : ℕ → PendingRow → Bool} {reason : String} :
    s.pendingBlocks.Keeps PendingRow.SameBlock (s.countReject p reason).pendingBlocks :=
  Table.keeps_update PendingRow.SameBlock.refl fun _ _ _ _ => rfl

/-- No operation loses a row or changes the block in it. -/
theorem keeps_apply (s : BlockStore) (op : StoreOp) :
    s.pendingBlocks.Keeps PendingRow.SameBlock (s.apply op).pendingBlocks := by
  have hrefl := Table.Keeps.refl PendingRow.SameBlock.refl s.pendingBlocks
  cases op with
  | enqueue now hit reason => exact hrefl.insert
  | markPendingReason pendingId reason =>
    rw [apply, markPendingReason_pendingBlocks]
    exact Table.keeps_update PendingRow.SameBlock.refl fun _ _ _ _ => rfl
  | recordRejection now hit httpStatus body source pendingId queueReason =>
    rcases recordRejection_cases s now hit httpStatus body source pendingId queueReason with
      ⟨-, heq⟩ | ⟨rowId, row, p, reason, -, -, -, -, heq⟩ | ⟨-, -, heq⟩
    · rw [apply, heq]
      exact hrefl
    · rw [apply, heq]
      dsimp only
      split_ifs
      · exact keeps_countReject
      · exact keeps_countReject
    · rw [apply, heq]
      exact hrefl.insert
  | recordDirectSubmit now hit httpStatus body => exact hrefl
  | markSubmitted now rowId httpStatus body =>
    rcases markSubmitted_cases s now rowId httpStatus body with ⟨-, heq⟩ | ⟨row, -, heq⟩
    · rw [apply, heq]
      exact hrefl
    · rw [apply, heq]
      exact Table.keeps_update PendingRow.SameBlock.refl fun _ _ _ _ => rfl
  | importPendingFromJsonl =>
    obtain ⟨new, hrows, -⟩ := importPendingFromJsonl_rows s
    intro i r hr
    refine ⟨r, ?_, PendingRow.SameBlock.refl r⟩
    rw [apply, hrows]
    exact List.mem_append_left _ hr
  | migrateRejectedPending =>
    rw [apply, migrateRejectedPending_pendingBlocks]
    exact Table.keeps_update PendingRow.SameBlock.refl fun _ _ _ _ => rfl
  | reclassifyPending =>
    rw [apply, reclassifyPending_pendingBlocks]
    exact Table.keeps_update PendingRow.SameBlock.refl fun _ r _ _ =>
      PendingRow.SameBlock.relabel r _

/-- A row that is pending after an update. -/
theorem stays_update {i : ℕ} {r : PendingRow} {p : ℕ → PendingRow → Bool}
    {f : PendingRow → PendingRow} (hx : (i, r) ∈ s.pending)
    (hf : p i r = true → PendingRow.SameBlock r (f r) ∧ (f r).status = .pending) :
    ∃ r', (i, r') ∈ (s.pendingBlocks.update p f).rows ∧ r'.status = .pending ∧
      PendingRow.SameBlock r r' := by
  obtain ⟨hmem, hstatus⟩ := mem_pending.mp hx
  refine ⟨if p i r then f r else r, Table.mem_update.mpr ⟨(i, r), hmem, rfl⟩, ?_⟩
  by_cases hp : p i r = true
  · rw [if_pos hp]
    exact ⟨(hf hp).2, (hf hp).1⟩
  · rw [if_neg hp]
    exact ⟨hstatus, PendingRow.SameBlock.refl r⟩

/-- Only `mark_submitted` takes a row out of the queue. -/
theorem pending_stays {i : ℕ} {r : PendingRow} {op : StoreOp} (hx : (i, r) ∈ s.pending)
    (hop : ∀ now httpStatus body, op ≠ .markSubmitted now i httpStatus body) :
    ∃ r', (i, r') ∈ (s.apply op).pending ∧ PendingRow.SameBlock r r' := by
  obtain ⟨hmem, hstatus⟩ := mem_pending.mp hx
  have hstays : ∀ {s' : BlockStore}, (∃ r', (i, r') ∈ s'.pendingBlocks.rows ∧
      r'.status = .pending ∧ PendingRow.SameBlock r r') →
      ∃ r', (i, r') ∈ s'.pending ∧ PendingRow.SameBlock r r' := by
    rintro s' ⟨r', hmem', hstatus', hblock⟩
    exact ⟨r', mem_pending.mpr ⟨hmem', hstatus'⟩, hblock⟩
  have hcount : ∀ {p reason}, ∃ r', (i, r') ∈ (s.countReject p reason).pendingBlocks.rows ∧
      r'.status = .pending ∧ PendingRow.SameBlock r r' :=
    stays_update hx fun _ => ⟨rfl, hstatus⟩
  apply hstays
  cases op with
  | enqueue now hit reason =>
    exact ⟨r, Table.mem_insert.mpr (Or.inl hmem), hstatus, PendingRow.SameBlock.refl r⟩
  | markPendingReason pendingId reason => exact stays_update hx fun _ => ⟨rfl, hstatus⟩
  | recordRejection now hit httpStatus body source pendingId queueReason =>
    rcases recordRejection_cases s now hit httpStatus body source pendingId queueReason with
      ⟨-, heq⟩ | ⟨rowId, row, p, reason, -, -, -, -, heq⟩ | ⟨-, -, heq⟩
    · rw [apply, heq]
      exact ⟨r, hmem, hstatus, PendingRow.SameBlock.refl r⟩
    · rw [apply, heq]
      dsimp only
      split_ifs
      · exact hcount
      · exact hcount
    · rw [apply, heq]
      exact ⟨r, Table.mem_insert.mpr (Or.inl hmem), hstatus, PendingRow.SameBlock.refl r⟩
  | recordDirectSubmit now hit httpStatus body =>
    exact ⟨r, hmem, hstatus, PendingRow.SameBlock.refl r⟩
  | markSubmitted now rowId httpStatus body =>
    rcases markSubmitted_cases s now rowId httpStatus body with ⟨-, heq⟩ | ⟨row, -, heq⟩
    · rw [apply, heq]
      exact ⟨r, hmem, hstatus, PendingRow.SameBlock.refl r⟩
    · rw [apply, heq]
      refine stays_update hx fun hi => ?_
      obtain rfl : i = rowId := of_decide_eq_true hi
      exact absurd rfl (hop now httpStatus body)
  | importPendingFromJsonl =>
    obtain ⟨new, hrows, -⟩ := importPendingFromJsonl_rows s
    refine ⟨r, ?_, hstatus, PendingRow.SameBlock.refl r⟩
    rw [apply, hrows]
    exact List.mem_append_left _ hmem
  | migrateRejectedPending =>
    rw [apply, migrateRejectedPending_pendingBlocks]
    exact stays_update hx fun _ => ⟨rfl, hstatus⟩
  | reclassifyPending =>
    rw [apply, reclassifyPending_pendingBlocks]
    exact stays_update hx fun _ => ⟨PendingRow.SameBlock.relabel r _, hstatus⟩

/-- A key stays pending as long as no row of it is marked as submitted. -/
theorem mem_pendingKeys_apply {key : String} (h : key ∈ s.pendingKeys) (op : StoreOp)
    (hop : ∀ now rowId httpStatus body, op = .markSubmitted now rowId httpStatus body →
      ∀ row, (rowId, row) ∈ s.pendingBlocks.rows → row.key ≠ key) :
    key ∈ (s.apply op).pendingKeys := by
  obtain ⟨⟨i, r⟩, hx, rfl⟩ := mem_pendingKeys.mp h
  obtain ⟨r', hr', hblock⟩ := pending_stays hx fun now httpStatus body heq =>
    hop now i httpStatus body heq r (mem_pending.mp hx).1 rfl
  exact mem_pendingKeys.mpr ⟨(i, r'), hr', hblock.key⟩

theorem mem_pendingKeys_enqueue {now : ℤ} {hit : BlockHit} {reason : String} :
    hit.key ∈ (s.enqueue now hit reason).pendingKeys :=
  mem_pendingKeys.mpr ⟨(s.pendingBlocks.nextId, queueRow now hit reason),
    mem_pending.mpr ⟨Table.mem_insert.mpr (Or.inr rfl), rfl⟩, rfl⟩

/-- No operation takes a line out of `queue.jsonl`. -/
theorem queueJsonl_prefix_apply (s : BlockStore) (op : StoreOp) :
    s.queueJsonl <+: (s.apply op).queueJsonl := by
  cases op with
  | enqueue now hit reason => exact List.prefix_append _ _
  | recordRejection now hit httpStatus body source pendingId queueReason =>
    rcases recordRejection_cases s now hit httpStatus body source pendingId queueReason with
      ⟨-, heq⟩ | ⟨rowId, row, p, reason, -, -, -, -, heq⟩ | ⟨-, -, heq⟩
    · rw [apply, heq]
    · rw [apply, heq]
      dsimp only
      split_ifs
      · rw [noteReject_queueJsonl, countReject_queueJsonl]
      · rw [countReject_queueJsonl]
    · rw [apply, heq]
      exact List.prefix_append _ _
  | markSubmitted now rowId httpStatus body =>
    rcases markSubmitted_cases s now rowId httpStatus body with ⟨-, heq⟩ | ⟨row, -, heq⟩
    · rw [apply, heq]
    · rw [apply, heq]
  | markPendingReason | recordDirectSubmit | importPendingFromJsonl | migrateRejectedPending |
    reclassifyPending => exact List.prefix_refl _

/-- No operation takes back a submission. -/
theorem submittedBlocks_prefix_apply (s : BlockStore) (op : StoreOp) :
    s.submittedBlocks.rows <+: (s.apply op).submittedBlocks.rows := by
  cases op with
  | recordRejection now hit httpStatus body source pendingId queueReason =>
    rcases recordRejection_cases s now hit httpStatus body source pendingId queueReason with
      ⟨-, heq⟩ | ⟨rowId, row, p, reason, -, -, -, -, heq⟩ | ⟨-, -, heq⟩
    · rw [apply, heq]
    · rw [apply, heq]
      dsimp only
      split_ifs
      · exact List.prefix_append _ _
      · exact List.prefix_refl _
    · rw [apply, heq]
      exact List.prefix_append _ _
  | recordDirectSubmit now hit httpStatus body => exact List.prefix_append _ _
  | markSubmitted now rowId httpStatus body =>
    rcases markSubmitted_cases s now rowId httpStatus body with ⟨-, heq⟩ | ⟨row, -, heq⟩
    · rw [apply, heq]
    · rw [apply, heq]
      exact List.prefix_append _ _
  | enqueue now hit reason => exact List.prefix_refl _
  | markPendingReason pendingId reason => exact List.prefix_refl _
  | importPendingFromJsonl | migrateRejectedPending | reclassifyPending => exact List.prefix_refl _

theorem acceptedKeys_subset_apply (s : BlockStore) (op : StoreOp) :
    s.acceptedKeys ⊆ (s.apply op).acceptedKeys := by
  intro key hkey
  obtain ⟨x, hx, haccepted, hxkey⟩ := mem_acceptedKeys.mp hkey
  exact mem_acceptedKeys.mpr
    ⟨x, (submittedBlocks_prefix_apply s op).subset hx, haccepted, hxkey⟩

/-- The keys an operation may put into the queue. -/
def newKey (s : BlockStore) (key : String) : StoreOp → Prop
  | .enqueue _ hit _ => key = hit.key
  | .recordRejection _ hit _ _ _ none _ => key = hit.key ∧ key ∉ s.pendingKeys
  | .importPendingFromJsonl => key ∉ s.pendingKeys ∧ key ∉ s.acceptedKeys
  | _ => False

theorem mem_pending_update {p : ℕ → PendingRow → Bool} {f : PendingRow → PendingRow}
    {x : ℕ × PendingRow} (hx : x ∈ (s.pendingBlocks.update p f).rows)
    (hpending : x.2.status = .pending) (hblock : ∀ r, PendingRow.SameBlock r (f r))
    (hstatus : ∀ r, (f r).status = .pending → r.status = .pending) :
    ∃ y ∈ s.pending, y.1 = x.1 ∧ PendingRow.SameBlock y.2 x.2 := by
  obtain ⟨y, hy, rfl⟩ := Table.mem_update.mp hx
  by_cases hp : p y.1 y.2 = true
  · rw [if_pos hp] at hpending ⊢
    exact ⟨y, mem_pending.mpr ⟨hy, hstatus _ hpending⟩, rfl, hblock _⟩
  · rw [if_neg hp] at hpending ⊢
    exact ⟨y, mem_pending.mpr ⟨hy, hpending⟩, rfl, PendingRow.SameBlock.refl _⟩

/-- An update of the blocks' other fields adds no rows. -/
theorem rows_update {op : StoreOp} {p : ℕ → PendingRow → Bool} {f : PendingRow → PendingRow}
    (hblock : ∀ r, PendingRow.SameBlock r (f r))
    (hstatus : ∀ r, (f r).status = .pending → r.status = .pending) :
    ∃ old new, (s.pendingBlocks.update p f).rows = old ++ new ∧
      (∀ x ∈ old, x.2.status = .pending →
        ∃ y ∈ s.pending, y.1 = x.1 ∧ PendingRow.SameBlock y.2 x.2) ∧
      (new.map fun x => x.2.key).Nodup ∧ ∀ x ∈ new, s.newKey x.2.key op := by
  refine ⟨_, [], (List.append_nil _).symm, fun x hx hpending => ?_, List.nodup_nil, by simp⟩
  exact mem_pending_update hx hpending hblock hstatus

/-- The rows after an operation: those it found, perhaps changed, and new rows with different keys.
Of the former, only rows that were pending are pending. -/
theorem apply_rows (s : BlockStore) (op : StoreOp) :
    ∃ old new, (s.apply op).pendingBlocks.rows = old ++ new ∧
      (∀ x ∈ old, x.2.status = .pending →
        ∃ y ∈ s.pending, y.1 = x.1 ∧ PendingRow.SameBlock y.2 x.2) ∧
      (new.map fun x => x.2.key).Nodup ∧ ∀ x ∈ new, s.newKey x.2.key op := by
  have hsame : ∀ x ∈ s.pendingBlocks.rows, x.2.status = .pending →
      ∃ y ∈ s.pending, y.1 = x.1 ∧ PendingRow.SameBlock y.2 x.2 := fun x hx hstatus =>
    ⟨x, mem_pending.mpr ⟨hx, hstatus⟩, rfl, PendingRow.SameBlock.refl _⟩
  have hnone : ∀ x ∈ ([] : List (ℕ × PendingRow)), s.newKey x.2.key op := by simp
  cases op with
  | enqueue now hit reason =>
    exact ⟨_, _, rfl, hsame, List.nodup_singleton _, by simp [newKey, queueRow]⟩
  | markPendingReason pendingId reason => exact rows_update (fun _ => rfl) fun _ h => h
  | recordRejection now hit httpStatus body source pendingId queueReason =>
    rcases recordRejection_cases s now hit httpStatus body source pendingId queueReason with
      ⟨-, heq⟩ | ⟨rowId, row, p, reason, -, -, -, -, heq⟩ | ⟨rfl, hkey, heq⟩
    · rw [apply, heq]
      exact ⟨_, [], (List.append_nil _).symm, hsame, List.nodup_nil, hnone⟩
    · have hrows : (s.apply (.recordRejection now hit httpStatus body source pendingId
          queueReason)).pendingBlocks = (s.countReject p reason).pendingBlocks := by
        rw [apply, heq]
        dsimp only
        split_ifs <;> rfl
      rw [hrows]
      exact rows_update (fun _ => rfl) fun _ h => h
    · -- a block that is not queued gets a row
      rw [apply, heq]
      refine ⟨_, _, rfl, hsame, List.nodup_singleton _, ?_⟩
      intro x hx
      rw [List.mem_singleton.mp hx]
      exact ⟨rfl, hkey⟩
  | recordDirectSubmit now hit httpStatus body =>
    exact ⟨_, [], (List.append_nil _).symm, hsame, List.nodup_nil, hnone⟩
  | markSubmitted now rowId httpStatus body =>
    rcases markSubmitted_cases s now rowId httpStatus body with ⟨-, heq⟩ | ⟨row, -, heq⟩
    · rw [apply, heq]
      exact ⟨_, [], (List.append_nil _).symm, hsame, List.nodup_nil, hnone⟩
    · rw [apply, heq]
      exact rows_update (fun _ => rfl) fun _ h => by cases h
  | importPendingFromJsonl =>
    obtain ⟨new, hrows, hnew⟩ := importPendingFromJsonl_rows s
    -- the lines that are restored are the first of their keys, and none is queued or accepted
    refine ⟨_, new, hrows, hsame, ?_, ?_⟩
    · have hkeys : (new.map fun x => x.2.key) =
          (restorable (s.pendingKeys ++ s.acceptedKeys) s.queueJsonl).map QueueRecord.key := by
        have hmap := congrArg (List.map PendingRow.key) hnew
        simpa [Function.comp_def, importedRow] using hmap
      rw [hkeys]
      exact nodup_restorable _ _
    · intro x hx
      have hrow : x.2 ∈ new.map Prod.snd := List.mem_map_of_mem hx
      rw [hnew] at hrow
      obtain ⟨record, hrecord, heq⟩ := List.mem_map.mp hrow
      have hout := (mem_restorable hrecord).2
      rw [List.mem_append, not_or] at hout
      rw [← heq]
      exact hout
  | migrateRejectedPending =>
    rw [apply, migrateRejectedPending_pendingBlocks]
    exact rows_update (fun _ => rfl) fun _ h => h
  | reclassifyPending =>
    rw [apply, reclassifyPending_pendingBlocks]
    exact rows_update (fun r => PendingRow.SameBlock.relabel r _) fun _ h => h

/-- A pending row was pending before, or its key is new. -/
theorem pending_apply (s : BlockStore) (op : StoreOp) {x : ℕ × PendingRow}
    (hx : x ∈ (s.apply op).pending) :
    (∃ y ∈ s.pending, y.1 = x.1 ∧ PendingRow.SameBlock y.2 x.2) ∨ s.newKey x.2.key op := by
  obtain ⟨hmem, hstatus⟩ := mem_pending.mp hx
  obtain ⟨old, new, hrows, hold, -, hnew⟩ := apply_rows s op
  rw [hrows, List.mem_append] at hmem
  exact hmem.imp (fun hmem => hold x hmem hstatus) fun hmem => hnew x hmem

/-- No two pending rows have the same key. -/
def KeysDistinct (s : BlockStore) : Prop :=
  ∀ x ∈ s.pending, ∀ y ∈ s.pending, x.2.key = y.2.key → x = y

/-- An operation keeps the keys distinct if what it queues is not pending already. -/
theorem KeysDistinct.apply (h : s.KeysDistinct) (op : StoreOp)
    (hnewKey : ∀ key, s.newKey key op → key ∉ s.pendingKeys) : (s.apply op).KeysDistinct := by
  intro x hx y hy hkey
  obtain ⟨old, new, hrows, hold, hnd, hnew⟩ := apply_rows s op
  -- A row that was there and a new row have different keys.
  have hapart : ∀ a ∈ old, a.2.status = .pending → ∀ b ∈ new, a.2.key ≠ b.2.key := by
    intro a ha hstatus b hb heq
    obtain ⟨a', ha', -, hblock⟩ := hold a ha hstatus
    exact hnewKey _ (hnew b hb) (mem_pendingKeys.mpr ⟨a', ha', hblock.key ▸ heq⟩)
  obtain ⟨hxmem, hxstatus⟩ := mem_pending.mp hx
  obtain ⟨hymem, hystatus⟩ := mem_pending.mp hy
  have hxrows := hxmem
  have hyrows := hymem
  rw [hrows, List.mem_append] at hxmem hymem
  rcases hxmem with hxold | hxnew
  · rcases hymem with hyold | hynew
    · obtain ⟨x', hx', hxid, hxblock⟩ := hold x hxold hxstatus
      obtain ⟨y', hy', hyid, hyblock⟩ := hold y hyold hystatus
      have hsame : x' = y' := h x' hx' y' hy' (by rw [← hxblock.key, ← hyblock.key, hkey])
      have hid : x.1 = y.1 := by rw [← hxid, ← hyid, hsame]
      have hxrow : (y.1, x.2) ∈ (s.apply op).pendingBlocks.rows := hid ▸ hxrows
      exact Prod.ext hid (Table.row_unique hxrow hyrows)
    · exact absurd hkey (hapart x hxold hxstatus y hynew)
  · rcases hymem with hyold | hynew
    · exact absurd hkey.symm (hapart y hyold hystatus x hxnew)
    · exact List.inj_on_of_nodup_map hnd hxnew hynew hkey

end BlockStore

end XenMiner
