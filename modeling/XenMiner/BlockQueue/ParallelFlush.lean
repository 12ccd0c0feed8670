import XenMiner.BlockQueue.Flush
import XenMiner.Lib.Run

/-!
# The submit pool

`flush` hands every row to a worker of the submit pool.  Up to its call into the store a worker reads
only the row it got and its environment, so `rowCall` settles that call; the call itself is a sequence
of statements and appends, between which other workers take their turns.  The workers of one flush take
turns in any order (`SubmitPool.step`), and the outcomes are accounted for in the order of the rows.

`settled` records which rows were marked submitted and is read by nothing.
-/

namespace XenMiner

open Argon2Common (Argon2)
open Policy (readyToFlush)
open SubmitResult

/-- What the worker of a row reads from outside. -/
structure RowEnv where
  argon2 : Argon2
  flush : FlushEnv

/-- The call of `_prepare_row` into the store. -/
inductive RowCall
  | markPendingReason (reason : String)
  | markSubmitted (httpStatus : ℤ) (body : String)
  | recordRejection (hit : BlockHit) (httpStatus : ℤ) (body reason : String)
  deriving DecidableEq

def RowCall.storeOp (now : ℤ) (rowId : ℕ) : RowCall → BlockStore.StoreOp
  | .markPendingReason reason => .markPendingReason rowId reason
  | .markSubmitted httpStatus body => .markSubmitted now rowId httpStatus body
  | .recordRejection hit httpStatus body reason =>
    .recordRejection now hit httpStatus body "flush" (some rowId) (some reason)

/-- The call of a row that was submitted. -/
def submitCall (env : FlushEnv) (onShutdown : Bool) (rowId : ℕ) (hit : BlockHit) : Option RowCall :=
  let status := (env.reply rowId).status
  let body := (env.reply rowId).body
  let shutdownQueued := onShutdown && decide (PyStr.upper hit.blockType ∈ ["XNM", "XBLK"])
  let failReason := if shutdownQueued then some shutdownPendingReason else none
  if submitAccepted status body then some (.markSubmitted status body)
  else if isDifficultyMismatch status body then some (.markPendingReason difficultyChangeReason)
  else if isXuniWindowReject status body then some (.markPendingReason outsideXuniWindowReason)
  else if countsAsReject status body then
    some (.recordRejection hit status body (failReason.getD resubmissionReason))
  else failReason.map .markPendingReason

/-- The call of a row, if there is one. -/
def rowCall (settings : Settings) (env : RowEnv) (onShutdown : Bool) (rowId : ℕ) (row : PendingRow) :
    Option RowCall :=
  match disposition env.argon2 settings env.flush.difficulty (env.flush.stamp rowId) row with
  | .waiting _ => none
  | .falsePositive => some (.markSubmitted 0 "filtered:false_positive")
  | .prepared hit _ =>
    if (readyToFlush hit.blockType (env.flush.minute rowId)).1 = false then
      if onShutdown then some (.markPendingReason outsideXuniWindowReason) else none
    else submitCall env.flush onShutdown rowId hit

/-! ### Workers -/

/-- Where a worker is in its call. -/
inductive Worker
  | calling (now : ℤ) (call : RowCall)
  /-- `mark_submitted` has read the row. -/
  | submitting (now : ℤ) (row : PendingRow) (httpStatus : ℤ) (body : String)
  /-- `record_rejection` has read whether this is the first reject. -/
  | counting (now : ℤ) (first : Bool) (hit : BlockHit) (httpStatus : ℤ) (body reason : String)
  /-- Before `log_rejection`. -/
  | logging (now : ℤ) (hit : BlockHit) (httpStatus : ℤ) (body : String)
  /-- Before `record_direct_submit`. -/
  | recording (now : ℤ) (hit : BlockHit) (httpStatus : ℤ) (body : String)
  | done
  deriving DecidableEq

namespace Worker

/-- A worker that comes to its call. -/
def begin (now : ℤ) : Option RowCall → Worker
  | none => .done
  | some call => .calling now call

/-- The next statement, transaction or append of the worker of a row. -/
def step (rowId : ℕ) (s : BlockStore) : Worker → Worker × BlockStore
  | .calling _ (.markPendingReason reason) => (.done, s.markPendingReason rowId reason)
  | .calling now (.markSubmitted httpStatus body) =>
    match s.pendingBlocks.fetchOne fun i _ => decide (i = rowId) with
    | none => (.done, s)
    | some (_, row) => (.submitting now row httpStatus body, s)
  | .calling now (.recordRejection hit httpStatus body reason) =>
    match s.pendingBlocks.fetchOne fun i r => decide (i = rowId) && r.isPending with
    | none => (.done, s)
    | some (_, row) => (.counting now (decide (row.rejectCount = 0)) hit httpStatus body reason, s)
  | .submitting now row httpStatus body =>
    (.done,
      { s with
        pendingBlocks := s.pendingBlocks.update (fun i _ => decide (i = rowId))
          fun r => { r with status := .submitted }
        submittedBlocks := s.submittedBlocks.insert
          { key := row.key
            hashStr := row.hashStr
            blockType := row.blockType
            strategy := row.strategy
            attempts := row.attempts
            httpStatus := httpStatus
            responseBody := body
            submittedAt := now } })
  | .counting now first hit httpStatus body reason =>
    (if first then .logging now hit httpStatus body else .done,
      s.countReject (fun i r => decide (i = rowId) && r.isPending)
        (PyStr.orElse reason resubmissionReason))
  | .logging now hit httpStatus body =>
    (.recording now hit httpStatus body, s.logRejection now hit httpStatus body "flush")
  | .recording now hit httpStatus body => (.done, s.recordDirectSubmit now hit httpStatus body)
  | .done => (.done, s)

/-- The row that the next step marks submitted. -/
def settles (rowId : ℕ) : Worker → List ℕ
  | .submitting _ _ _ _ => [rowId]
  | _ => []

end Worker

/-- The store and the workers by the ids of their rows. -/
structure SubmitPool where
  store : BlockStore
  workers : ℕ → Worker
  settled : List ℕ := []

namespace SubmitPool

/-- A turn of the worker of a row. -/
def step (p : SubmitPool) (rowId : ℕ) : SubmitPool where
  store := ((p.workers rowId).step rowId p.store).2
  workers := Function.update p.workers rowId ((p.workers rowId).step rowId p.store).1
  settled := p.settled ++ (p.workers rowId).settles rowId

/-- The worker of a row that `pending` read. -/
def startWorker (settings : Settings) (envs : ℕ → RowEnv) (onShutdown : Bool) (s : BlockStore)
    (rowId : ℕ) : Worker :=
  match s.pendingBlocks.fetchOne fun i r => decide (i = rowId) && r.isPending with
  | none => .done
  | some (_, row) =>
    .begin ((envs rowId).flush.stamp rowId) (rowCall settings (envs rowId) onShutdown rowId row)

/-- One worker for each pending row. -/
def start (settings : Settings) (envs : ℕ → RowEnv) (onShutdown : Bool) (s : BlockStore) :
    SubmitPool where
  store := s
  workers := startWorker settings envs onShutdown s

end SubmitPool

/-! ### The flush -/

namespace QueueFlusher

/-- The rows one by one, each in its own environment. -/
def prepareEach (settings : Settings) (envs : ℕ → RowEnv) (onShutdown : Bool) :
    BlockStore → List (ℕ × PendingRow) → BlockStore × List FlushRowOutcome
  | s, [] => (s, [])
  | s, (rowId, row) :: rows =>
    let (s, outcome) := prepareRow (envs rowId).argon2 settings (envs rowId).flush onShutdown s rowId row
    let (s, outcomes) := prepareEach settings envs onShutdown s rows
    (s, outcome :: outcomes)

/-- The end of `flush`: the outcomes are accounted for. -/
def finish (q : QueueFlusher) (store : BlockStore) (outcomes : List FlushRowOutcome) :
    QueueFlusher × ℕ :=
  let (metrics, flushed) := outcomes.foldl account (q.metrics, 0)
  ({ store := store
     metrics := metrics
     sent := q.sent ++ outcomes.filterMap (·.sent)
     dropped := q.dropped ++ outcomes.filterMap droppedKey }, flushed)

/-- A flush that handles the rows one by one in id order. -/
def flushEach (settings : Settings) (q : QueueFlusher) (envs : ℕ → RowEnv) (onShutdown : Bool) :
    QueueFlusher × ℕ :=
  let (store, outcomes) := prepareEach settings envs onShutdown q.store q.store.pending
  q.finish store outcomes

/-- The pool after its workers took turns in the given order. -/
def runPool (settings : Settings) (q : QueueFlusher) (envs : ℕ → RowEnv) (onShutdown : Bool)
    (order : List ℕ) : SubmitPool :=
  Run.final SubmitPool.step (SubmitPool.start settings envs onShutdown q.store) order

/-- All workers have ended: then `flush` goes on. -/
def Finished (settings : Settings) (q : QueueFlusher) (envs : ℕ → RowEnv) (onShutdown : Bool)
    (order : List ℕ) : Prop :=
  ∀ x ∈ q.store.pending, (q.runPool settings envs onShutdown order).workers x.1 = .done

instance (settings : Settings) (q : QueueFlusher) (envs : ℕ → RowEnv) (onShutdown : Bool)
    (order : List ℕ) : Decidable (Finished settings q envs onShutdown order) :=
  inferInstanceAs (Decidable (∀ _ ∈ _, _))

/-- `flush`, with the workers taking turns in the given order; `map` collects the outcomes in the order
of the rows. -/
def flushParallel (settings : Settings) (q : QueueFlusher) (envs : ℕ → RowEnv) (onShutdown : Bool)
    (order : List ℕ) : QueueFlusher × ℕ :=
  q.finish (q.runPool settings envs onShutdown order).store
    (q.store.pending.map fun x =>
      (prepareRow (envs x.1).argon2 settings (envs x.1).flush onShutdown q.store x.1 x.2).2)

end QueueFlusher

end XenMiner
