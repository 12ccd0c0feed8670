import XenMiner.BlockQueue.RaisingSubmit
import XenMiner.Core.Supervisor

/-!
# A hit whose handling raises

`handle_hit` catches nothing.  An exception of `submit`, its own or that of a queued block it flushes on
recovery, leaves it: what it did so far stays, and the statements behind are not run.  A function here
ends with a result, or with the supervisor that an exception leaves behind.

Submissions are numbered like the replies they would get; `raises` says which of them raise.
-/

namespace XenMiner

open Argon2Common (Argon2)
open Policy (inXuniWindow)

namespace Supervisor

variable (w : World) (A : Argon2) (raises : ℕ → Bool) (s : Supervisor)

namespace Raising

/-- `flusher.flush`. -/
def flush : Except Supervisor (Supervisor × ℕ) :=
  match QueueFlusher.flushOrRaise A s.settings s.queue (s.flushEnv w)
    (fun rowId => raises (s.replies + rowId)) false with
  | (queue, some count) => .ok (s.flushed queue, count)
  | (queue, none) => .error (s.flushed queue)

/-- `_try_flush_pending_queue`, over the `refresh_network` it calls. -/
def tryFlushWith (refresh : Supervisor → Except Supervisor (Supervisor × Bool)) :
    Except Supervisor (Supervisor × ℕ) :=
  if s.queue.store.pendingCount none = 0 then .ok (s, 0)
  else if s.inDifficultyTransition w then .ok (s.tick, 0)
  else do
    let (s, up) ← refresh s.tick
    if up = false then return (s, 0)
    let (s, count) ← flush w A raises s
    return (s.syncPending, count)

/-- `refresh_network`, with at most `depth` flushes on recovery inside of one another. -/
def refreshNetwork : ℕ → Supervisor → Except Supervisor (Supervisor × Bool)
  | depth, s =>
    let (s, up, wasDown) := s.noteStatus w
    if up = true ∧ wasDown = true ∧ 0 < s.queue.store.pendingCount none then
      match depth with
      | 0 => .ok (s, up)
      | depth + 1 => do
        let (s, _) ← tryFlushWith w A raises s (refreshNetwork depth)
        return (s, up)
    else .ok (s, up)

/-- `refresh_network`. -/
def refresh : Except Supervisor (Supervisor × Bool) := refreshNetwork w A raises 1 s

/-- `submitter.submit` of a live hit, and what follows it. -/
def submitLive (hit : BlockHit) (kind : String) : Except Supervisor Supervisor :=
  if raises s.replies then .error { s.tick with replies := s.replies + 1 }
  else .ok (s.submitLive w hit kind)

/-- `handle_hit` from the shutdown check on. -/
def placeHit (hit : BlockHit) (kind : String) : Except Supervisor Supervisor :=
  let held := kind = "XUNI" ∧ inXuniWindow (w.minute s.minutes) = false
  let s := { s with minutes := s.minutes + 1 }
  if s.shuttingDown then
    if held then .ok (s.queueHit w hit kind outsideXuniWindowReason)
    else .ok (s.queueHit w hit kind shutdownPendingReason)
  else if held then .ok (s.queueHit w hit kind outsideXuniWindowReason)
  else do
    let (s, up) ← refresh w A raises s
    if up = false then return s.queueHit w hit kind "network_down"
    submitLive w raises s hit kind

/-- `handle_hit`. -/
def handleHit (hit : BlockHit) : Except Supervisor Supervisor :=
  let hit := s.attachHitMemoryCost hit
  let kind := hitKind hit
  let deferred := s.inDifficultyTransition w
  let s := s.noteFound kind
  if deferred then .ok (s.queueHit w hit kind difficultyChangeReason)
  else
    match s.prepareLiveHit A hit with
    | none => .ok s
    | some hit => placeHit w A raises s hit kind

/-- The supervisor a function leaves behind. -/
def left : Except Supervisor Supervisor → Supervisor
  | .ok s => s
  | .error s => s

end Raising

/-! ### The submissions of a hit -/

/-- The submissions of a flush. -/
def flushCalls : List ℕ :=
  (s.queue.store.pending.filter (submits A s.settings (s.flushEnv w))).map fun x => s.replies + x.1

/-- The submissions of `refresh_network`: those of the flush on recovery. -/
def refreshCalls : List ℕ :=
  let (s, up, wasDown) := s.noteStatus w
  if up = true ∧ wasDown = true ∧ 0 < s.queue.store.pendingCount none ∧
      s.inDifficultyTransition w = false then
    -- the flush reads the status once more
    let (s, up, _) := s.tick.noteStatus w
    if up then s.flushCalls w A else []
  else []

/-- The submissions of `handle_hit`: those of `refresh_network`, and that of the hit. -/
def hitCalls (hit : BlockHit) : List ℕ :=
  let hit := s.attachHitMemoryCost hit
  let kind := hitKind hit
  let deferred := s.inDifficultyTransition w
  let s := s.noteFound kind
  let held := kind = "XUNI" ∧ inXuniWindow (w.minute s.minutes) = false
  if deferred = true ∨ s.prepareLiveHit A hit = none ∨ s.shuttingDown = true ∨ held then []
  else
    let s := { s with minutes := s.minutes + 1 }
    let (t, up) := s.refresh w A
    s.refreshCalls w A ++ if up then [t.replies] else []

end Supervisor

end XenMiner
