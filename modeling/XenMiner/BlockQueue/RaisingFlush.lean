import XenMiner.BlockQueue.ParallelFlush
import XenMiner.Monitoring.LocalStats

/-!
# A flush whose workers raise

A worker may raise before any of its statements and behind the last one: the salt is bad, SQLite fails
and takes the transaction back, there is no memory for the outcome.  `SubmitCpuPool.map` asks the
futures in the order of the rows, and the first exception it meets leaves `flush` before an outcome is
accounted for.  The workers of the other rows go on.

Here `flush` also keeps the saved accepts per day; `clock` is the time at which the outcome of a row is
accounted for.
-/

namespace XenMiner

/-! ### Workers that raise -/

/-- What the future of a row knows. -/
inductive Future
  | running
  | returned
  | raised
  deriving DecidableEq, Repr

/-- A worker that raises after `left` more statements, if `left` is a number. -/
structure Task where
  worker : Worker
  left : Option ℕ
  future : Future := .running

/-- The next statement of a row's worker, its return, or its exception. -/
def Task.step (rowId : ℕ) (s : BlockStore) (t : Task) : Task × BlockStore :=
  match t.future with
  | .running =>
    if t.left = some 0 then ({ t with future := .raised }, s)
    else if t.worker = .done then
      -- All statements are done, and the outcome is built.
      ({ t with future := if t.left = none then .returned else .raised }, s)
    else
      let (worker, s) := t.worker.step rowId s
      ({ t with worker := worker, left := t.left.map (· - 1) }, s)
  | .returned | .raised => (t, s)

/-- The store and the tasks by the ids of their rows. -/
structure RaisingPool where
  store : BlockStore
  tasks : ℕ → Task

namespace RaisingPool

/-- A turn of the worker of a row. -/
def step (p : RaisingPool) (rowId : ℕ) : RaisingPool where
  store := ((p.tasks rowId).step rowId p.store).2
  tasks := Function.update p.tasks rowId ((p.tasks rowId).step rowId p.store).1

/-- One task for each pending row. -/
def start (settings : Settings) (envs : ℕ → RowEnv) (raises : ℕ → Option ℕ) (onShutdown : Bool)
    (s : BlockStore) : RaisingPool where
  store := s
  tasks rowId :=
    { worker := SubmitPool.startWorker settings envs onShutdown s rowId, left := raises rowId }

/-- How far `[future.result() for future in futures]` comes: it waits for the first future that has not
ended, if no exception came before. -/
def gather (tasks : ℕ → Task) : List ℕ → Future
  | [] => .returned
  | rowId :: rowIds =>
    match (tasks rowId).future with
    | .returned => gather tasks rowIds
    | future => future

end RaisingPool

/-! ### The flush -/

/-- What a flush leaves behind: the number it returns, unless it raises. -/
structure FlushEnd where
  store : BlockStore
  metrics : MetricsTracker
  localStats : LocalMiningStatsTracker
  flushed : Option ℕ

namespace QueueFlusher

/-- `local_stats` in the accounting of `flush`. -/
def recordOutcome (clock : ℕ → ℤ) (t : LocalMiningStatsTracker) (outcome : FlushRowOutcome) :
    LocalMiningStatsTracker :=
  if outcome.waitingDifficulty then t
  else if outcome.waitingXuni then t
  else if outcome.dropped then t
  else if outcome.flushed then t.recordAccept outcome.kind (clock outcome.rowId)
  else t

/-- The pool after its workers took turns in the given order. -/
def runTasks (settings : Settings) (q : QueueFlusher) (envs : ℕ → RowEnv) (raises : ℕ → Option ℕ)
    (onShutdown : Bool) (order : List ℕ) : RaisingPool :=
  Run.final RaisingPool.step (RaisingPool.start settings envs raises onShutdown q.store) order

/-- The outcome of the worker of a row. -/
def rowOutcome (settings : Settings) (q : QueueFlusher) (envs : ℕ → RowEnv) (onShutdown : Bool)
    (x : ℕ × PendingRow) : FlushRowOutcome :=
  (prepareRow (envs x.1).argon2 settings (envs x.1).flush onShutdown q.store x.1 x.2).2

/-- `flush`, with the workers taking turns in the given order; `none` while it waits for one. -/
def flushRaising (settings : Settings) (q : QueueFlusher) (t : LocalMiningStatsTracker)
    (envs : ℕ → RowEnv) (raises : ℕ → Option ℕ) (clock : ℕ → ℤ) (onShutdown : Bool)
    (order : List ℕ) : Option FlushEnd :=
  let p := q.runTasks settings envs raises onShutdown order
  let outcomes := q.store.pending.map (q.rowOutcome settings envs onShutdown)
  match RaisingPool.gather p.tasks (q.store.pending.map Prod.fst) with
  | .running => none
  | .raised =>
    some { store := p.store, metrics := q.metrics, localStats := t, flushed := none }
  | .returned =>
    let (metrics, flushed) := outcomes.foldl account (q.metrics, 0)
    some
      { store := p.store
        metrics := metrics
        localStats := outcomes.foldl (recordOutcome clock) t
        flushed := some flushed }

end QueueFlusher

end XenMiner
