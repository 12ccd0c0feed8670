import XenMiner.BlockQueue.Policy
import XenMiner.BlockQueue.Store
import XenMiner.Config.Settings
import XenMiner.Lib.PyNum
import XenMiner.Mining.Argon2Common
import XenMiner.Monitoring.Metrics
import XenMiner.Networking.SubmitResult

/-!
# `block_queue/flush.py`: submitting the queue

The submit pool runs `_prepare_row` on the rows of one flush; here the rows take their turns in id
order.  What a row reads from outside (`FlushEnv`) is given by its id: each row asks for the minute,
the time and the pool's reply at most once.

`Sent` and `QueueFlusher.dropped` record what happened and are read by nothing: every submission with
its reply and the transition deadline in force, and every block dropped as a false positive.
-/

namespace XenMiner

open Argon2Common (Argon2 memoryCostFromHash prepareHitForSubmit)
open Policy (readyToFlush)
open SubmitResult

/-- Where a submission came from; a live one with the network flag at the reply. -/
inductive Source
  | live (networkOk : Bool)
  | flush
  deriving DecidableEq, Repr

/-- One call of `Submitter.submit` and its reply. -/
structure Sent where
  time : ℚ
  deferUntil : ℚ
  source : Source
  key : String
  status : ℤ
  body : String
  deriving DecidableEq, Repr

/-- What one flush reads from outside. -/
structure FlushEnv where
  /-- `get_difficulty()`. -/
  difficulty : ℤ
  /-- `_defer_submit_until` of the supervisor, for the record. -/
  deferUntil : ℚ
  time : ℕ → ℚ
  minute : ℕ → ℕ
  reply : ℕ → Reply

/-- The stamp of a store operation for a row. -/
def FlushEnv.stamp (env : FlushEnv) (rowId : ℕ) : ℤ := ⌊env.time rowId⌋

/-- `_FlushRowOutcome`, with the submission it made. -/
structure FlushRowOutcome where
  rowId : ℕ
  kind : String := ""
  key : String := ""
  hashStr : String := ""
  flushed : Bool := false
  dropped : Bool := false
  waitingXuni : Bool := false
  waitingDifficulty : Bool := false
  blockMemoryCost : Option ℤ := none
  shutdownQueued : Bool := false
  countedReject : Bool := false
  warn : String := ""
  sent : Option Sent := none
  deriving DecidableEq

/-! ### One row -/

/-- How a row stands at a difficulty. -/
inductive Disposition
  | waiting (blockMemoryCost : ℤ)
  | falsePositive
  | prepared (hit : BlockHit) (memoryCost : ℤ)
  deriving DecidableEq

/-- The memory cost a row is held for: its column, else the one its hash shows. -/
def PendingRow.blockMemoryCost (row : PendingRow) : Option ℤ :=
  PyNum.optOr row.memoryCost (memoryCostFromHash row.hashStr)

/-- The hit made of a row; neither its memory cost nor its time is passed on. -/
def PendingRow.toHit (row : PendingRow) (now : ℤ) : BlockHit where
  key := row.key
  hashStr := row.hashStr
  blockType := row.blockType
  attempts := row.attempts
  strategy := row.strategy
  hps := row.hps
  foundAt := now

/-- The first part of `_prepare_row`: wait for the difficulty, else verify. -/
def disposition (A : Argon2) (settings : Settings) (currentDifficulty : ℤ) (now : ℤ)
    (row : PendingRow) : Disposition :=
  if row.blockMemoryCost ≠ none ∧ row.blockMemoryCost ≠ some currentDifficulty then
    .waiting (row.blockMemoryCost.getD 0)
  else
    let memoryCost := PyNum.optOrInt row.blockMemoryCost currentDifficulty
    match prepareHitForSubmit A (row.toHit now) settings.saltHex memoryCost settings.timeCost 1
      settings.hashLen with
    | none => .falsePositive
    | some hit => .prepared hit memoryCost

/-- The last part of `_prepare_row`: the submission of a prepared row. -/
def submitRow (env : FlushEnv) (onShutdown : Bool) (s : BlockStore) (rowId : ℕ) (hit : BlockHit)
    (memoryCost : ℤ) : BlockStore × FlushRowOutcome :=
  let reply := env.reply rowId
  let status := reply.status
  let body := reply.body
  let sent : Sent :=
    { time := env.time rowId, deferUntil := env.deferUntil, source := .flush, key := hit.key,
      status := status, body := body }
  let hint := submitResponseHint status body
  let cost := if memoryCost = 0 then none else some memoryCost
  let label := hit.blockType ++ " key=" ++ PyStr.take 16 hit.key ++ "... (" ++ hint ++ ")"
  if submitAccepted status body then
    (s.markSubmitted (env.stamp rowId) rowId status body,
      { rowId := rowId
        flushed := true
        key := hit.key
        hashStr := hit.hashStr
        kind := hit.blockType
        blockMemoryCost := cost
        warn := if PyStr.contains "duplicate" hint then "Flushed " ++ label else ""
        sent := some sent })
  else if isDifficultyMismatch status body then
    (s.markPendingReason rowId difficultyChangeReason,
      { rowId := rowId, waitingDifficulty := true, key := hit.key, kind := hit.blockType
        blockMemoryCost := cost, sent := some sent })
  else if isXuniWindowReject status body then
    (s.markPendingReason rowId outsideXuniWindowReason,
      { rowId := rowId, waitingXuni := true, key := hit.key, kind := hit.blockType
        sent := some sent })
  else
    let shutdownQueued := onShutdown && decide (PyStr.upper hit.blockType ∈ ["XNM", "XBLK"])
    let failReason := if shutdownQueued then some shutdownPendingReason else none
    let countedReject := countsAsReject status body
    let s :=
      if countedReject then
        (s.recordRejection (env.stamp rowId) hit status body "flush" (some rowId)
          (some (failReason.getD resubmissionReason))).1
      else
        match failReason with
        | some reason => s.markPendingReason rowId reason
        | none => s
    let retryNote := if onShutdown then "queued for next start" else "kept in queue for retry"
    (s,
      { rowId := rowId
        key := hit.key
        kind := hit.blockType
        shutdownQueued := shutdownQueued
        countedReject := countedReject
        warn := "Flush failed " ++ label ++ " — " ++ retryNote
        sent := some sent })

/-- `_prepare_row`. -/
def prepareRow (A : Argon2) (settings : Settings) (env : FlushEnv) (onShutdown : Bool)
    (s : BlockStore) (rowId : ℕ) (row : PendingRow) : BlockStore × FlushRowOutcome :=
  match disposition A settings env.difficulty (env.stamp rowId) row with
  | .waiting blockMemoryCost =>
    (s, { rowId := rowId, waitingDifficulty := true, key := row.key, kind := row.blockType
          blockMemoryCost := some blockMemoryCost })
  | .falsePositive =>
    (s.markSubmitted (env.stamp rowId) rowId 0 "filtered:false_positive",
      { rowId := rowId, dropped := true, key := row.key })
  | .prepared hit memoryCost =>
    if (readyToFlush hit.blockType (env.minute rowId)).1 = false then
      (if onShutdown then s.markPendingReason rowId outsideXuniWindowReason else s,
        { rowId := rowId, waitingXuni := true, key := hit.key, kind := hit.blockType })
    else submitRow env onShutdown s rowId hit memoryCost

/-! ### The flusher -/

structure QueueFlusher where
  store : BlockStore
  metrics : MetricsTracker := {}
  sent : List Sent := []
  dropped : List String := []
  deriving DecidableEq

namespace QueueFlusher

/-- `_apply_outcome`, for the rows that wait for nothing. -/
def applyOutcome (m : MetricsTracker) (outcome : FlushRowOutcome) : MetricsTracker × ℕ :=
  if outcome.dropped then (m.recordDroppedFlush, 0)
  else if outcome.flushed then (m.recordAcceptedFlush outcome.kind, 1)
  else if outcome.warn ≠ "" ∧ outcome.countedReject = true then
    (m.recordRejectedFlush outcome.kind outcome.key, 0)
  else (m, 0)

/-- The accounting of `flush`. -/
def account (acc : MetricsTracker × ℕ) (outcome : FlushRowOutcome) : MetricsTracker × ℕ :=
  if outcome.waitingDifficulty then acc
  else if outcome.waitingXuni then acc
  else
    let (m, flushed) := applyOutcome acc.1 outcome
    (m, acc.2 + flushed)

/-- The turns of the rows. -/
def prepareRows (A : Argon2) (settings : Settings) (env : FlushEnv) (onShutdown : Bool) :
    BlockStore → List (ℕ × PendingRow) → BlockStore × List FlushRowOutcome
  | s, [] => (s, [])
  | s, (rowId, row) :: rows =>
    let (s, outcome) := prepareRow A settings env onShutdown s rowId row
    let (s, outcomes) := prepareRows A settings env onShutdown s rows
    (s, outcome :: outcomes)

/-- The key of a block an outcome dropped. -/
def droppedKey (outcome : FlushRowOutcome) : Option String :=
  if outcome.dropped then some outcome.key else none

/-- `flush`: the number is that of the blocks the pool took. -/
def flush (A : Argon2) (settings : Settings) (q : QueueFlusher) (env : FlushEnv)
    (onShutdown : Bool) : QueueFlusher × ℕ :=
  let (store, outcomes) := prepareRows A settings env onShutdown q.store q.store.pending
  let (metrics, flushed) := outcomes.foldl account (q.metrics, 0)
  ({ store := store
     metrics := metrics
     sent := q.sent ++ outcomes.filterMap (·.sent)
     dropped := q.dropped ++ outcomes.filterMap droppedKey }, flushed)

/-- The reason `defer_to_next_start` gives a row. -/
def deferReason (minute : ℕ → ℕ) (x : ℕ × PendingRow) : String :=
  let kind := PyStr.upper x.2.blockType
  if kind = "XUNI" ∧ (readyToFlush kind (minute x.1)).1 = false then outsideXuniWindowReason
  else shutdownPendingReason

/-- `defer_to_next_start`: the number is that of the deferred blocks. -/
def deferToNextStart (q : QueueFlusher) (minute : ℕ → ℕ) : QueueFlusher × ℕ :=
  ({ q with
     store := q.store.pending.foldl
       (fun s x => s.markPendingReason x.1 (deferReason minute x)) q.store },
    q.store.pending.length)

end QueueFlusher

end XenMiner
