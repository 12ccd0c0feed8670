import XenMiner.BlockQueue.Store
import XenMiner.Lib.Run

/-!
# The writes of a store operation

An operation is made of transactions and of lines that are appended to the logs.  The process may die
between any two of them (`crash`); `final_writes` says that together they are the operation.
-/

namespace XenMiner.BlockStore

/-- A transaction, or the append of a line. -/
abbrev Write := BlockStore → BlockStore

def appendQueueLine (record : QueueRecord) (s : BlockStore) : BlockStore :=
  { s with queueJsonl := s.queueJsonl ++ [record] }

def insertPending (row : PendingRow) (s : BlockStore) : BlockStore :=
  { s with pendingBlocks := s.pendingBlocks.insert row }

def enqueueWrites (now : ℤ) (hit : BlockHit) (reason : String) : List Write :=
  [appendQueueLine (queueRecord now hit reason), insertPending (queueRow now hit reason)]

/-- The writes of `log_rejection` and of `record_direct_submit`. -/
def noteRejectWrites (now : ℤ) (hit : BlockHit) (httpStatus : ℤ) (body source : String) :
    List Write :=
  [fun s => s.logRejection now hit httpStatus body source,
    fun s => s.recordDirectSubmit now hit httpStatus body]

def recordRejectionWrites (s : BlockStore) (now : ℤ) (hit : BlockHit) (httpStatus : ℤ)
    (body source : String) (pendingId : Option ℕ) (queueReason : Option String) : List Write :=
  match pendingId with
  | some pendingId =>
    let chosen := fun i (r : PendingRow) => decide (i = pendingId) && r.isPending
    match s.pendingBlocks.fetchOne chosen with
    | none => []
    | some (_, row) =>
      (fun s => s.countReject chosen (PyStr.orElse (queueReason.getD "") resubmissionReason)) ::
        if row.rejectCount = 0 then noteRejectWrites now hit httpStatus body source else []
  | none =>
    match s.pendingBlocks.fetchOne fun _ r => decide (r.key = hit.key) && r.isPending with
    | some (rowId, row) =>
      (fun s => s.countReject (fun i _ => decide (i = rowId)) resubmissionReason) ::
        if row.rejectCount = 0 then noteRejectWrites now hit httpStatus body source else []
    | none =>
      noteRejectWrites now hit httpStatus body source ++ enqueueWrites now hit resubmissionReason

/-- The writes of an operation, in order; what it reads, it reads before the first. -/
def writes (s : BlockStore) : StoreOp → List Write
  | .enqueue now hit reason => enqueueWrites now hit reason
  | .markPendingReason pendingId reason => [fun s => s.markPendingReason pendingId reason]
  | .recordRejection now hit httpStatus body source pendingId queueReason =>
    s.recordRejectionWrites now hit httpStatus body source pendingId queueReason
  | .recordDirectSubmit now hit httpStatus body =>
    [fun s => s.recordDirectSubmit now hit httpStatus body]
  | .markSubmitted now rowId httpStatus body =>
    [fun s => s.markSubmitted now rowId httpStatus body]
  | .importPendingFromJsonl => [fun s => (s.importPendingFromJsonl false).1]
  | .migrateRejectedPending => [fun s => s.migrateRejectedPending.1]
  | .reclassifyPending => [fun s => s.reclassifyPending.1]

/-- One write after the other. -/
def write (s : BlockStore) (w : Write) : BlockStore := w s

/-- The store after the first `n` writes of an operation. -/
def crash (s : BlockStore) (op : StoreOp) (n : ℕ) : BlockStore :=
  Run.final write s ((s.writes op).take n)

/-- All writes are the operation. -/
theorem final_writes (s : BlockStore) (op : StoreOp) : Run.final write s (s.writes op) = s.apply op := by
  cases op with
  | recordRejection now hit httpStatus body source pendingId queueReason =>
    unfold writes recordRejectionWrites apply recordRejection
    cases pendingId with
    | some rowId =>
      dsimp only
      cases s.pendingBlocks.fetchOne fun i (r : PendingRow) => decide (i = rowId) && r.isPending with
      | none => rfl
      | some x =>
        dsimp only
        split_ifs <;> rfl
    | none =>
      dsimp only
      cases s.pendingBlocks.fetchOne fun _ (r : PendingRow) =>
          decide (r.key = hit.key) && r.isPending with
      | none => rfl
      | some x =>
        dsimp only
        split_ifs <;> rfl
  | _ => rfl

/-- An operation that is not cut short. -/
theorem crash_of_length_le {s : BlockStore} {op : StoreOp} {n : ℕ}
    (h : (s.writes op).length ≤ n) : s.crash op n = s.apply op := by
  unfold crash
  rw [List.take_of_length_le h]
  exact final_writes s op

end XenMiner.BlockStore
