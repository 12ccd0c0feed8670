import XenMiner.Core.Models
import XenMiner.Lib.Table
import XenMiner.Mining.BlockTypes

/-!
# `block_queue/store.py`: the queue's database and its logs

`BlockStore` holds the two tables, `queue.jsonl` and `rejected.jsonl`, the logs as the records of
their lines.  Every operation is one transaction; `now` is the time it stamps.  Counts that are
only logged are returned where the source returns them.
-/

namespace XenMiner

open BlockTypes (classifyBlock)

def resubmissionReason : String := "resubmission"

def outsideXuniWindowReason : String := "outside_xuni_window"

def shutdownPendingReason : String := "shutdown_pending"

def difficultyChangeReason : String := "difficulty_change"

/-- `pending_blocks.status`. -/
inductive BlockStatus
  | pending
  | submitted
  deriving DecidableEq, Repr

/-- A row of `pending_blocks`; the id is the table's. -/
structure PendingRow where
  key : String
  hashStr : String
  blockType : String
  strategy : String
  attempts : ℤ
  hps : ℚ
  foundAt : ℤ
  queuedAt : ℤ
  queueReason : String := ""
  rejectCount : ℕ := 0
  memoryCost : Option ℤ := none
  status : BlockStatus := .pending
  deriving DecidableEq, Repr

/-- A row of `submitted_blocks`. -/
structure SubmittedRow where
  key : String
  hashStr : String
  blockType : String
  strategy : String
  attempts : ℤ
  httpStatus : ℤ
  responseBody : String
  submittedAt : ℤ
  deriving DecidableEq, Repr

/-- A line of `queue.jsonl`.  Lines of older versions may lack the optional fields. -/
structure QueueRecord where
  key : String
  hashStr : String
  blockType : String
  strategy : String
  attempts : ℤ
  hps : Option ℚ
  foundAt : Option ℤ
  queuedAt : ℤ
  reason : Option String
  memoryCost : Option ℤ
  deriving DecidableEq, Repr

/-- A line of `rejected.jsonl`. -/
structure RejectRecord where
  key : String
  hashStr : String
  blockType : String
  strategy : String
  attempts : ℤ
  hps : ℚ
  foundAt : ℤ
  rejectedAt : ℤ
  httpStatus : ℤ
  responseBody : String
  source : String
  category : String
  deriving DecidableEq, Repr

structure BlockStore where
  pendingBlocks : Table PendingRow
  submittedBlocks : Table SubmittedRow
  queueJsonl : List QueueRecord
  rejectedJsonl : List RejectRecord
  deriving DecidableEq

def PendingRow.isPending (r : PendingRow) : Bool := r.status = .pending

/-- `http_status >= 200 AND http_status < 300`. -/
def SubmittedRow.isAccepted (r : SubmittedRow) : Bool := 200 ≤ r.httpStatus && r.httpStatus < 300

namespace BlockStore

/-- A new database and no logs. -/
def empty : BlockStore where
  pendingBlocks := .empty
  submittedBlocks := .empty
  queueJsonl := []
  rejectedJsonl := []

variable (s : BlockStore)

/-! ### Queueing -/

/-- The line `enqueue` appends. -/
def queueRecord (now : ℤ) (hit : BlockHit) (reason : String) : QueueRecord where
  key := hit.key
  hashStr := hit.hashStr
  blockType := hit.blockType
  strategy := hit.strategy
  attempts := hit.attempts
  hps := some hit.hps
  foundAt := some hit.foundAt
  queuedAt := now
  reason := some reason
  memoryCost := hit.memoryCost

/-- The row `enqueue` inserts. -/
def queueRow (now : ℤ) (hit : BlockHit) (reason : String) : PendingRow where
  key := hit.key
  hashStr := hit.hashStr
  blockType := hit.blockType
  strategy := hit.strategy
  attempts := hit.attempts
  hps := hit.hps
  foundAt := hit.foundAt
  queuedAt := now
  queueReason := reason
  memoryCost := hit.memoryCost

/-- `enqueue`; no caller reads the id it returns, `s.pendingBlocks.nextId`. -/
def enqueue (now : ℤ) (hit : BlockHit) (reason : String) : BlockStore :=
  { s with
    queueJsonl := s.queueJsonl ++ [queueRecord now hit reason]
    pendingBlocks := s.pendingBlocks.insert (queueRow now hit reason) }

/-- `mark_pending_reason`. -/
def markPendingReason (pendingId : ℕ) (reason : String) : BlockStore :=
  { s with
    pendingBlocks := s.pendingBlocks.update (fun i r => decide (i = pendingId) && r.isPending)
      fun r => { r with queueReason := reason } }

/-! ### Submissions -/

/-- `record_direct_submit`. -/
def recordDirectSubmit (now : ℤ) (hit : BlockHit) (httpStatus : ℤ) (body : String) : BlockStore :=
  { s with
    submittedBlocks := s.submittedBlocks.insert
      { key := hit.key
        hashStr := hit.hashStr
        blockType := hit.blockType
        strategy := hit.strategy
        attempts := hit.attempts
        httpStatus := httpStatus
        responseBody := body
        submittedAt := now } }

/-- `mark_submitted`: the row is found by its id alone. -/
def markSubmitted (now : ℤ) (rowId : ℕ) (httpStatus : ℤ) (body : String) : BlockStore :=
  match s.pendingBlocks.fetchOne fun i _ => decide (i = rowId) with
  | none => s
  | some (_, row) =>
    { s with
      pendingBlocks := s.pendingBlocks.update (fun i _ => decide (i = rowId))
        fun r => { r with status := .submitted }
      submittedBlocks := s.submittedBlocks.insert
        { key := row.key
          hashStr := row.hashStr
          blockType := row.blockType
          strategy := row.strategy
          attempts := row.attempts
          httpStatus := httpStatus
          responseBody := body
          submittedAt := now } }

/-! ### Rejections -/

/-- `log_rejection`. -/
def logRejection (now : ℤ) (hit : BlockHit) (httpStatus : ℤ) (body source : String) : BlockStore :=
  { s with
    rejectedJsonl := s.rejectedJsonl ++
      [{ key := hit.key
         hashStr := hit.hashStr
         blockType := hit.blockType
         strategy := hit.strategy
         attempts := hit.attempts
         hps := hit.hps
         foundAt := hit.foundAt
         rejectedAt := now
         httpStatus := httpStatus
         responseBody := body
         source := source
         category := resubmissionReason }] }

/-- The `UPDATE` of `record_rejection`. -/
def countReject (p : ℕ → PendingRow → Bool) (reason : String) : BlockStore :=
  { s with
    pendingBlocks := s.pendingBlocks.update p fun r =>
      { r with queueReason := reason, rejectCount := r.rejectCount + 1 } }

/-- The line and the row of a first reject. -/
def noteReject (now : ℤ) (hit : BlockHit) (httpStatus : ℤ) (body source : String) : BlockStore :=
  (s.logRejection now hit httpStatus body source).recordDirectSubmit now hit httpStatus body

/-- `record_rejection`: a pending row is counted, and logged at its first reject; without one the
block is logged and queued, which is the answer `true`. -/
def recordRejection (now : ℤ) (hit : BlockHit) (httpStatus : ℤ) (body source : String)
    (pendingId : Option ℕ) (queueReason : Option String) : BlockStore × Bool :=
  match pendingId with
  | some pendingId =>
    let chosen := fun i (r : PendingRow) => decide (i = pendingId) && r.isPending
    match s.pendingBlocks.fetchOne chosen with
    | none => (s, false)
    | some (_, row) =>
      let s := s.countReject chosen (PyStr.orElse (queueReason.getD "") resubmissionReason)
      if row.rejectCount = 0 then (s.noteReject now hit httpStatus body source, false)
      else (s, false)
  | none =>
    match s.pendingBlocks.fetchOne fun _ r => decide (r.key = hit.key) && r.isPending with
    | some (rowId, row) =>
      let s := s.countReject (fun i _ => decide (i = rowId)) resubmissionReason
      if row.rejectCount = 0 then (s.noteReject now hit httpStatus body source, false)
      else (s, false)
    | none =>
      ((s.noteReject now hit httpStatus body source).enqueue now hit resubmissionReason, true)

/-! ### The start of a session -/

/-- `accepted_keys`. -/
def acceptedKeys : List String :=
  (s.submittedBlocks.select SubmittedRow.isAccepted).map fun x => x.2.key

/-- A block `list_accepted_submits` lists. -/
structure AcceptedSubmit where
  key : String
  hashStr : String
  blockType : String
  submittedAt : ℤ
  deriving DecidableEq, Repr

/-- The entry of a row: its label is kept where the hash has no kind. -/
def acceptedSubmit (row : SubmittedRow) : AcceptedSubmit where
  key := row.key
  hashStr := row.hashStr
  blockType :=
    match classifyBlock row.hashStr row.blockType with
    | .other => PyStr.upper (PyStr.orElse row.blockType "XNM")
    | kind => kind.text
  submittedAt := row.submittedAt

/-- The loop over the rows, each key once. -/
def uniqueSubmits (seen : List String) : List SubmittedRow → List AcceptedSubmit
  | [] => []
  | row :: rows =>
    if row.key = "" ∨ row.key ∈ seen then uniqueSubmits seen rows
    else acceptedSubmit row :: uniqueSubmits (row.key :: seen) rows

/-- `list_accepted_submits`: the newest accepted submissions. -/
def listAcceptedSubmits (limit : ℤ) : List AcceptedSubmit :=
  let newest := ((s.submittedBlocks.select SubmittedRow.isAccepted).map Prod.snd).reverse
  uniqueSubmits [] (newest.take (max 1 (min limit 20000)).toNat)

/-- The keys of the pending rows. -/
def pendingKeys : List String :=
  (s.pendingBlocks.select PendingRow.isPending).map fun x => x.2.key

/-- The row of a line that is imported again: its memory cost is not among the columns. -/
def importedRow (record : QueueRecord) : PendingRow where
  key := record.key
  hashStr := record.hashStr
  blockType := record.blockType
  strategy := record.strategy
  attempts := record.attempts
  hps := record.hps.getD 0
  foundAt := record.foundAt.getD record.queuedAt
  queuedAt := record.queuedAt
  queueReason := record.reason.getD "imported"

/-- What the loop over the lines carries. -/
structure Import where
  pendingBlocks : Table PendingRow
  pending : List String
  seen : List String
  imported : ℕ

/-- One line. -/
def Import.line (accepted : List String) (dryRun : Bool) (a : Import) (record : QueueRecord) :
    Import :=
  if record.key ∈ a.seen ∨ record.key ∈ a.pending ∨ record.key ∈ accepted then a
  else if dryRun then { a with seen := record.key :: a.seen, imported := a.imported + 1 }
  else
    { pendingBlocks := a.pendingBlocks.insert (importedRow record)
      pending := record.key :: a.pending
      seen := record.key :: a.seen
      imported := a.imported + 1 }

/-- `import_pending_from_jsonl`. -/
def importPendingFromJsonl (dryRun : Bool) : BlockStore × ℕ :=
  let start : Import :=
    { pendingBlocks := s.pendingBlocks, pending := s.pendingKeys, seen := [], imported := 0 }
  let done := s.queueJsonl.foldl (Import.line s.acceptedKeys dryRun) start
  ({ s with pendingBlocks := done.pendingBlocks }, done.imported)

/-- The pending rows `migrate_rejected_pending` marks: some submission of the key failed. -/
def isRejectedPending (r : PendingRow) : Bool :=
  r.isPending && r.queueReason ≠ resubmissionReason
    && s.submittedBlocks.rows.any fun x => x.2.key = r.key && !x.2.isAccepted

/-- `migrate_rejected_pending`. -/
def migrateRejectedPending : BlockStore × ℕ :=
  ({ s with
     pendingBlocks := s.pendingBlocks.update (fun _ r => s.isRejectedPending r)
       fun r => { r with queueReason := resubmissionReason } },
    (s.pendingBlocks.select s.isRejectedPending).length)

/-- The label `reclassify_pending` gives a row. -/
def newType (r : PendingRow) : String := (classifyBlock r.hashStr r.blockType).text

/-- The rows `reclassify_pending` relabels. -/
def isMislabelled (r : PendingRow) : Bool :=
  r.isPending && newType r ≠ "OTHER" && newType r ≠ r.blockType

/-- `reclassify_pending`. -/
def reclassifyPending : BlockStore × ℕ :=
  ({ s with
     pendingBlocks := s.pendingBlocks.update (fun _ r => isMislabelled r)
       fun r => { r with blockType := newType r } },
    (s.pendingBlocks.select isMislabelled).length)

/-! ### Reading the queue -/

/-- `pending`: the pending rows in id order. -/
def pending : List (ℕ × PendingRow) := s.pendingBlocks.select PendingRow.isPending

/-- One group of the query: a known label sets its count, any other adds to `XBLK`. -/
def addGroup (c : KindCounts) (g : String × ℕ) : KindCounts :=
  let key := PyStr.upper g.1
  if key = "XUNI" then { c with xuni := g.2 }
  else if key = "XNM" then { c with xnm := g.2 }
  else if key = "XBLK" then { c with xblk := g.2 }
  else { c with xblk := c.xblk + g.2 }

/-- `GROUP BY block_type`, in an order SQLite may return the groups in. -/
def groups (rows : List (ℕ × PendingRow)) : List (String × ℕ) :=
  let labels := rows.map fun x => x.2.blockType
  labels.dedup.map fun label => (label, labels.count label)

/-- `pending_by_type`; `resubmission` keeps only the rows queued for that reason, or only the
others. -/
def pendingByType (resubmission : Option Bool) : KindCounts :=
  let kept := fun (r : PendingRow) =>
    match resubmission with
    | none => true
    | some true => decide (r.queueReason = resubmissionReason)
    | some false => decide (r.queueReason ≠ resubmissionReason)
  (groups (s.pending.filter fun x => kept x.2)).foldl addGroup {}

/-- `pending_count`. -/
def pendingCount (resubmission : Option Bool) : ℕ := (s.pendingByType resubmission).total

/-! ### Operations -/

/-- The operations of the store that change it. -/
inductive StoreOp
  | enqueue (now : ℤ) (hit : BlockHit) (reason : String)
  | markPendingReason (pendingId : ℕ) (reason : String)
  | recordRejection (now : ℤ) (hit : BlockHit) (httpStatus : ℤ) (body source : String)
      (pendingId : Option ℕ) (queueReason : Option String)
  | recordDirectSubmit (now : ℤ) (hit : BlockHit) (httpStatus : ℤ) (body : String)
  | markSubmitted (now : ℤ) (rowId : ℕ) (httpStatus : ℤ) (body : String)
  | importPendingFromJsonl
  | migrateRejectedPending
  | reclassifyPending

def apply (s : BlockStore) : StoreOp → BlockStore
  | .enqueue now hit reason => s.enqueue now hit reason
  | .markPendingReason pendingId reason => s.markPendingReason pendingId reason
  | .recordRejection now hit httpStatus body source pendingId queueReason =>
    (s.recordRejection now hit httpStatus body source pendingId queueReason).1
  | .recordDirectSubmit now hit httpStatus body => s.recordDirectSubmit now hit httpStatus body
  | .markSubmitted now rowId httpStatus body => s.markSubmitted now rowId httpStatus body
  | .importPendingFromJsonl => (s.importPendingFromJsonl false).1
  | .migrateRejectedPending => s.migrateRejectedPending.1
  | .reclassifyPending => s.reclassifyPending.1

/-- What a session does with the store before it mines. -/
def startSession : BlockStore :=
  (((s.importPendingFromJsonl false).1.migrateRejectedPending).1.reclassifyPending).1

end BlockStore

end XenMiner
