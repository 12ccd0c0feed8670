import XenMiner.BlockQueue.Flush

/-!
# Submissions that raise

`Submitter.submit` turns what `urlopen` raises into a status of zero, but it reads the body of an
`HTTPError` in the handler of that error, and a connection that is lost there makes `submit` itself
raise.  The worker of a row then ends before any of its statements on the store.  The workers of the
other rows take their turns, and the exception leaves `flush` before an outcome is accounted for.

Whether a submission raises is said by `raises`, under the same id as its reply.
-/

namespace XenMiner

open Argon2Common (Argon2)
open Policy (readyToFlush)

/-- The worker of a row comes to its submission. -/
def submits (A : Argon2) (settings : Settings) (env : FlushEnv) (x : ℕ × PendingRow) : Bool :=
  match disposition A settings env.difficulty (env.stamp x.1) x.2 with
  | .prepared hit _ => (readyToFlush hit.blockType (env.minute x.1)).1
  | _ => false

namespace QueueFlusher

/-- The submission of a row raises. -/
def rowRaises (A : Argon2) (settings : Settings) (env : FlushEnv) (raises : ℕ → Bool)
    (x : ℕ × PendingRow) : Bool :=
  submits A settings env x && raises x.1

/-- `flush`, with what it returns; `none` if an exception leaves it. -/
def flushOrRaise (A : Argon2) (settings : Settings) (q : QueueFlusher) (env : FlushEnv)
    (raises : ℕ → Bool) (onShutdown : Bool) : QueueFlusher × Option ℕ :=
  let rows := q.store.pending.filter fun x => !rowRaises A settings env raises x
  let (store, outcomes) := prepareRows A settings env onShutdown q.store rows
  let left : QueueFlusher :=
    { q with
      store := store
      sent := q.sent ++ outcomes.filterMap (·.sent)
      dropped := q.dropped ++ outcomes.filterMap droppedKey }
  if q.store.pending.any (rowRaises A settings env raises) then (left, none)
  else
    let (metrics, flushed) := outcomes.foldl account (q.metrics, 0)
    ({ left with metrics := metrics }, some flushed)

end QueueFlusher

end XenMiner
