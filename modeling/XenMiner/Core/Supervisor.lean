import XenMiner.BlockQueue.Flush

/-!
# `core/supervisor.py`: hits, the network and the queue

The part of the supervisor that decides what happens to a block: `handle_hit`, `refresh_network`,
the flushes of the queue, and the start and the end of a session.  Temperatures, lanes, the
dashboard and the reports to other sites are left out.

The outside is a `World`: the readings of the clock, of the poller's status and of the local minute,
and the pool's replies, each in the order in which they are asked for.  The supervisor's four
cursors count what was asked so far.  Of the backend only its difficulty matters here.

Every submission returns, and so does every flush; `Core/RaisingSubmit` has the hit whose handling
raises, and `BlockQueue/RaisingFlush` the flush.  The `except Exception` around the flush at shutdown
has nothing to catch then.
-/

namespace XenMiner

open Argon2Common (Argon2 prepareHitForSubmit)
open BlockTypes (BlockKind classifyBlock)
open Policy (inXuniWindow parallelismForSingle)
open SubmitResult

/-- What the supervisor reads from outside; `time.time()` never goes back. -/
structure World where
  now : ℕ → ℚ
  now_nonneg : ∀ n, 0 ≤ now n
  now_mono : Monotone now
  /-- The difficulty of the poller's status, if the network is up. -/
  poll : ℕ → Option ℤ
  minute : ℕ → ℕ
  /-- What `submit` returns. -/
  reply : ℕ → Reply

/-- `is_cuda_native`, with the difficulty of the CUDA backend. -/
inductive MinerBackend
  | cuda (difficulty : ℤ)
  | other
  deriving DecidableEq, Repr

/-- `set_difficulty`. -/
def MinerBackend.setDifficulty (difficulty : ℤ) : MinerBackend → MinerBackend
  | .cuda _ => .cuda (max 1 difficulty)
  | .other => .other

structure Supervisor where
  settings : Settings
  /-- `submit_pool.workers`. -/
  workers : ℤ
  backend : MinerBackend
  queue : QueueFlusher
  networkOk : Bool := false
  networkDifficulty : Option ℤ := none
  lastNetworkLogOk : Option Bool := none
  deferSubmitUntil : ℚ := 0
  shuttingDown : Bool := false
  wasInXuniWindow : Bool := false
  clock : ℕ := 0
  polls : ℕ := 0
  minutes : ℕ := 0
  replies : ℕ := 0

/-- `accept_network_difficulty`. -/
def acceptNetworkDifficulty (diff fallback : ℤ) : ℤ := if diff ≤ 0 then fallback else diff

namespace Supervisor

variable (w : World) (A : Argon2) (s : Supervisor)

def stamp : ℤ := ⌊w.now s.clock⌋

def tick : Supervisor := { s with clock := s.clock + 1 }

def withQueue (queue : QueueFlusher) : Supervisor := { s with queue := queue }

def withStore (store : BlockStore) : Supervisor := s.withQueue { s.queue with store := store }

def withMetrics (metrics : MetricsTracker) : Supervisor :=
  s.withQueue { s.queue with metrics := metrics }

/-- `metrics.sync_pending(store.pending_count())`. -/
def syncPending : Supervisor :=
  s.withMetrics (s.queue.metrics.syncPending (s.queue.store.pendingCount none))

/-! ### The difficulty -/

def miningDifficulty : ℤ :=
  match s.backend with
  | .cuda difficulty => difficulty
  | .other => PyNum.optOrInt s.networkDifficulty s.settings.memoryCost

def difficultyTransitionSettleS : ℚ := max 5 (s.settings.sampleIntervalS : ℚ)

def inDifficultyTransition : Bool := decide (w.now s.clock < s.deferSubmitUntil)

def beginDifficultyTransition : Supervisor :=
  { s.tick with deferSubmitUntil := w.now s.clock + s.difficultyTransitionSettleS }

/-- `_apply_network_difficulty`: a new valid difficulty begins a transition. -/
def applyNetworkDifficulty (rawDiff : ℤ) : Supervisor × ℤ :=
  let fallback := PyNum.optOrInt s.networkDifficulty s.settings.memoryCost
  let diff := acceptNetworkDifficulty rawDiff fallback
  if rawDiff ≤ 0 then (s, diff)
  else
    match s.networkDifficulty with
    | some oldDiff => if diff ≠ oldDiff then (s.beginDifficultyTransition w, diff) else (s, diff)
    | none => (s, diff)

/-- The new difficulty, in force. -/
def storeDifficulty (diff : ℤ) : Supervisor :=
  { s with networkDifficulty := some diff, backend := s.backend.setDifficulty diff }

/-! ### The network and the queue -/

/-- `refresh_network` up to the flush on recovery: whether the network is up, and whether it was
known to be down before. -/
def noteStatus : Supervisor × Bool × Bool :=
  let status := w.poll s.polls
  let s := { s with polls := s.polls + 1 }
  match status with
  | some rawDiff =>
    let s :=
      if s.networkDifficulty ≠ some rawDiff then
        let (s, diff) := s.applyNetworkDifficulty w rawDiff
        s.storeDifficulty diff
      else s
    let wasDown := s.lastNetworkLogOk = some false
    ({ s with networkOk := true, lastNetworkLogOk := some true }, true, wasDown)
  | none => ({ s with networkOk := false, lastNetworkLogOk := some false }, false, false)

/-- The outside of one flush. -/
def flushEnv : FlushEnv where
  difficulty := s.miningDifficulty
  deferUntil := s.deferSubmitUntil
  time := fun rowId => w.now (s.clock + rowId)
  minute := fun rowId => w.minute (s.minutes + rowId)
  reply := fun rowId => w.reply (s.replies + rowId)

/-- The cursors after a flush: a row asks under its id. -/
def flushed (queue : QueueFlusher) : Supervisor :=
  { s with
    queue := queue
    clock := s.clock + s.queue.store.pendingBlocks.nextId
    minutes := s.minutes + s.queue.store.pendingBlocks.nextId
    replies := s.replies + s.queue.store.pendingBlocks.nextId }

/-- `flusher.flush`. -/
def flush (onShutdown : Bool) : Supervisor × ℕ :=
  let (queue, count) := QueueFlusher.flush A s.settings s.queue (s.flushEnv w) onShutdown
  (s.flushed queue, count)

/-- `_try_flush_pending_queue`, over the `refresh_network` it calls. -/
def tryFlushWith (refresh : Supervisor → Supervisor × Bool) : Supervisor × ℕ :=
  if s.queue.store.pendingCount none = 0 then (s, 0)
  else if s.inDifficultyTransition w then (s.tick, 0)
  else
    let (s, up) := refresh s.tick
    if up = false then (s, 0)
    else
      let (s, count) := s.flush w A false
      (s.syncPending, count)

/-- `refresh_network`, with at most `depth` flushes on recovery inside of one another. -/
def refreshNetwork : ℕ → Supervisor → Supervisor × Bool
  | depth, s =>
    let (s, up, wasDown) := s.noteStatus w
    if up = true ∧ wasDown = true ∧ 0 < s.queue.store.pendingCount none then
      match depth with
      | 0 => (s, up)
      | depth + 1 => ((s.tryFlushWith w A (refreshNetwork depth)).1, up)
    else (s, up)

/-- `refresh_network`: a flush on recovery finds the network known to be up. -/
def refresh : Supervisor × Bool := refreshNetwork w A 1 s

/-- `_try_flush_pending_queue`. -/
def tryFlushPendingQueue : Supervisor × ℕ := s.tryFlushWith w A (refresh w A)

/-- The first part of `_service_pending_queue`: the opening and the closing of the window. -/
def noteWindow (inWindow : Bool) (pendingXuni : ℕ) (now lastQueueFlush lastXuniFlush : ℚ) :
    Supervisor × ℚ × ℚ :=
  if inWindow = true ∧ s.wasInXuniWindow = false then
    let s := { s with wasInXuniWindow := true }
    if pendingXuni ≠ 0 then ((s.tryFlushPendingQueue w A).1, now, now)
    else (s, lastQueueFlush, lastXuniFlush)
  else if inWindow = false then
    ({ s with wasInXuniWindow := false }, lastQueueFlush, lastXuniFlush)
  else (s, lastQueueFlush, lastXuniFlush)

/-- `_service_pending_queue`: the state, and the times of the last flushes. -/
def servicePendingQueue (now lastQueueFlush lastXuniFlush xuniFlushIntervalS : ℚ)
    (aggressive : Bool) : Supervisor × ℚ × ℚ :=
  let inWindow := inXuniWindow (w.minute s.minutes)
  let s := { s with minutes := s.minutes + 1 }
  let pendingXuni := (s.queue.store.pendingByType none).xuni
  let flushIntervalS : ℚ := if aggressive then 5 else 30
  let (s, lastQueueFlush, lastXuniFlush) :=
    s.noteWindow w A inWindow pendingXuni now lastQueueFlush lastXuniFlush
  if aggressive = true ∨ flushIntervalS ≤ now - lastQueueFlush then
    ((s.tryFlushPendingQueue w A).1, now, lastXuniFlush)
  else if inWindow = true ∧ pendingXuni ≠ 0 ∧ xuniFlushIntervalS ≤ now - lastXuniFlush then
    ((s.tryFlushPendingQueue w A).1, lastQueueFlush, now)
  else (s, lastQueueFlush, lastXuniFlush)

/-! ### A hit -/

def prepareLiveHit (hit : BlockHit) : Option BlockHit :=
  prepareHitForSubmit A hit s.settings.saltHex s.miningDifficulty s.settings.timeCost
    (parallelismForSingle s.workers s.settings.parallelism) s.settings.hashLen

def attachHitMemoryCost (hit : BlockHit) : BlockHit :=
  match hit.memoryCost with
  | some _ => hit
  | none =>
    match s.backend with
    | .cuda difficulty => { hit with memoryCost := some difficulty }
    | .other => { hit with memoryCost := some s.miningDifficulty }

/-- The kind a hit is counted as. -/
def hitKind (hit : BlockHit) : String :=
  match classifyBlock hit.hashStr hit.blockType with
  | .other => PyStr.orElse hit.blockType "OTHER"
  | kind => kind.text

def queueHit (hit : BlockHit) (kind reason : String) : Supervisor :=
  let s := s.withStore (s.queue.store.enqueue (s.stamp w) hit reason)
  let s := s.withMetrics (s.queue.metrics.recordEnqueued kind)
  s.syncPending

/-- The end of `handle_hit`, once the pool refused a prepared hit. -/
def handleRefusal (hit : BlockHit) (kind : String) (status : ℤ) (body : String) : Supervisor :=
  if status = 0 ∨ s.networkOk = false then
    let s := s.withStore (s.queue.store.recordDirectSubmit (s.stamp w) hit status body)
    s.queueHit w hit kind "network_down"
  else if isDifficultyMismatch status body then s.queueHit w hit kind difficultyChangeReason
  else if isXuniWindowReject status body then s.queueHit w hit kind outsideXuniWindowReason
  else
    let (store, newlyQueued) :=
      s.queue.store.recordRejection (s.stamp w) hit status body "live" none none
    let s := s.withStore store
    let s :=
      if countsAsReject status body then
        s.withMetrics (s.queue.metrics.recordRejectedLive kind hit.key)
      else s
    if newlyQueued then
      let s := s.withMetrics (s.queue.metrics.recordResubmission kind)
      s.syncPending
    else s

/-- `submitter.submit` of a live hit. -/
def sendLive (hit : BlockHit) : Supervisor × Reply :=
  let reply := w.reply s.replies
  let sent : Sent :=
    { time := w.now s.clock, deferUntil := s.deferSubmitUntil, source := .live s.networkOk
      key := hit.key, status := reply.status, body := reply.body }
  ({ s.tick with
     replies := s.replies + 1
     queue := { s.queue with sent := s.queue.sent ++ [sent] } }, reply)

/-- The submission of a prepared hit. -/
def submitLive (hit : BlockHit) (kind : String) : Supervisor :=
  let (s, reply) := s.sendLive w hit
  if submitAccepted reply.status reply.body then
    let s := s.withMetrics (s.queue.metrics.recordAcceptedLive kind)
    s.withStore (s.queue.store.recordDirectSubmit (s.stamp w) hit reply.status reply.body)
  else s.handleRefusal w hit kind reply.status reply.body

/-- `handle_hit` from the shutdown check on. -/
def placeHit (hit : BlockHit) (kind : String) : Supervisor :=
  let held := kind = "XUNI" ∧ inXuniWindow (w.minute s.minutes) = false
  let s := { s with minutes := s.minutes + 1 }
  if s.shuttingDown then
    if held then s.queueHit w hit kind outsideXuniWindowReason
    else s.queueHit w hit kind shutdownPendingReason
  else if held then s.queueHit w hit kind outsideXuniWindowReason
  else
    let (s, up) := s.refresh w A
    if up = false then s.queueHit w hit kind "network_down"
    else s.submitLive w hit kind

/-- The hit is counted, and the clock was read. -/
def noteFound (kind : String) : Supervisor := (s.withMetrics (s.queue.metrics.recordFound kind)).tick

/-- `handle_hit`. -/
def handleHit (hit : BlockHit) : Supervisor :=
  let hit := s.attachHitMemoryCost hit
  let kind := hitKind hit
  let deferred := s.inDifficultyTransition w
  let s := s.noteFound kind
  if deferred then s.queueHit w hit kind difficultyChangeReason
  else
    match s.prepareLiveHit A hit with
    | none => s
    | some hit => s.placeHit w A hit kind

/-! ### A session -/

/-- `__init__`. -/
def create (settings : Settings) (workers : ℤ) (isCudaNative : Bool) (store : BlockStore) :
    Supervisor where
  settings := settings
  workers := workers
  backend := if isCudaNative then .cuda settings.memoryCost else .other
  queue := { store := store }

/-- A new process on the same files; the outside goes on. -/
def restart : Supervisor :=
  { create s.settings s.workers (s.backend ≠ .other) s.queue.store with
    queue := { store := s.queue.store, sent := s.queue.sent, dropped := s.queue.dropped }
    clock := s.clock
    polls := s.polls
    minutes := s.minutes
    replies := s.replies }

/-- `run` up to the first difficulty. -/
def connect : Supervisor :=
  let status := w.poll s.polls
  let s := { s with polls := s.polls + 1 }
  match status with
  | some rawDiff =>
    let (s, diff) := s.applyNetworkDifficulty w rawDiff
    { s.storeDifficulty diff with networkOk := true, lastNetworkLogOk := some true }
  | none =>
    { s.storeDifficulty s.settings.memoryCost with
      networkOk := false, lastNetworkLogOk := some false }

/-- `_resume_queued_blocks`. -/
def resumeQueuedBlocks : Supervisor :=
  let counts := s.queue.store.pendingByType none
  let inWindow := inXuniWindow (w.minute s.minutes)
  let s := { s with minutes := s.minutes + 1 }
  let xuniWaiting := if counts.xuni ≠ 0 ∧ inWindow = false then counts.xuni else 0
  let submitNow := counts.xnm + counts.xblk + (counts.xuni - xuniWaiting)
  if counts.total = 0 then s
  else if s.networkOk = false then s
  else if submitNow ≠ 0 then (s.flush w A false).1.syncPending
  else s

/-- `run` up to its loop, in a new process. -/
def start : Supervisor :=
  let s := s.restart
  let s := s.withStore s.queue.store.startSession
  let s := s.syncPending
  let s := s.connect w
  let s := s.resumeQueuedBlocks w A
  let s := s.syncPending
  { s with wasInXuniWindow := inXuniWindow (w.minute s.minutes), minutes := s.minutes + 1 }

/-- `_graceful_shutdown`. -/
def gracefulShutdown : Supervisor :=
  if s.shuttingDown then s
  else
    let s := { s with shuttingDown := true }
    let counts := s.queue.store.pendingByType none
    let inWindow := inXuniWindow (w.minute s.minutes)
    let s := { s with minutes := s.minutes + 1 }
    let xuniHeld := if counts.xuni ≠ 0 ∧ inWindow = false then counts.xuni else 0
    let sending := counts.xnm + counts.xblk + (counts.xuni - xuniHeld)
    if sending = 0 then s
    else
      let (s, networkUp) := if s.networkOk then s.refresh w A else (s, false)
      if networkUp then (s.flush w A true).1.syncPending
      else
        let base := s.minutes
        let queue := (s.queue.deferToNextStart fun rowId => w.minute (base + rowId)).1
        { s with
          queue := queue
          minutes := base + s.queue.store.pendingBlocks.nextId }.syncPending

/-- What happens to a supervisor. -/
inductive Op
  | start
  | hit (hit : BlockHit)
  | refresh
  /-- The flush of `_graceful_gpu_stop` and of a safety stop. -/
  | tryFlush
  | service (now lastQueueFlush lastXuniFlush xuniFlushIntervalS : ℚ) (aggressive : Bool)
  | shutdown

def step (s : Supervisor) : Op → Supervisor
  | .start => s.start w A
  | .hit hit => s.handleHit w A hit
  | .refresh => (s.refresh w A).1
  | .tryFlush => (s.tryFlushPendingQueue w A).1
  | .service now lastQueueFlush lastXuniFlush xuniFlushIntervalS aggressive =>
    (s.servicePendingQueue w A now lastQueueFlush lastXuniFlush xuniFlushIntervalS aggressive).1
  | .shutdown => s.gracefulShutdown w A

end Supervisor

end XenMiner
