import XenMiner.Lib.PyText
import Mathlib.Data.Rat.Defs

/-!
# `monitoring/woodyminer_stats.py`: the uploads to the leaderboard

A thread posts the stats and waits, again and again; the tenth failure in a row and each one after it
double the wait.  What is posted and what comes back is left to the outside.
-/

namespace XenMiner.WoodyminerStatsUploader

/-- What `upload_once` returns; the status is `0` if there was no answer. -/
structure Reply where
  status : ℤ
  body : Text
  deriving DecidableEq, Repr

/-- A line of the session log. -/
inductive LogLine
  | info (text : Text)
  | warn (text : Text)
  deriving DecidableEq, Repr

def LogLine.isWarn : LogLine → Bool
  | .warn _ => true
  | .info _ => false

/-- An upload, with the seconds that are waited after it. -/
structure Upload where
  start : ℚ
  reply : Reply
  waitS : ℤ
  deriving DecidableEq, Repr

/-- The thread of the uploader: the local variables of `_run`. -/
structure Loop where
  originalPeriodS : ℤ
  periodS : ℤ
  failureCount : ℕ := 0
  loggedFailure : Bool := false
  loggedSuccess : Bool := false
  now : ℚ
  /-- The uploads so far, the newest first. -/
  uploads : List Upload := []
  /-- The lines logged so far, the newest first. -/
  log : List LogLine := []
  deriving DecidableEq, Repr

/-- The start of `_run`, for the configured period. -/
def Loop.create (uploadPeriodS : ℤ) (now : ℚ) : Loop where
  originalPeriodS := max 15 uploadPeriodS
  periodS := max 15 uploadPeriodS
  now := now + 10

/-- One time round: the upload begins some time after the thread wakes up, and takes some time. -/
structure Turn where
  reply : Reply
  late : ℚ
  took : ℚ
  late_nonneg : 0 ≤ late
  took_nonneg : 0 ≤ took

def successLine : LogLine := .info "Woodyminer stat upload OK — leaderboard updated".toList

def failureLine (reply : Reply) : LogLine :=
  let detail := (reply.body.map fun c => if c = '\n' then ' ' else c).take 160
  .warn ("Woodyminer stat upload failed (HTTP ".toList ++ (toString reply.status).toList ++ ") — ".toList
    ++ detail ++ " — will retry with backoff".toList)

variable (l : Loop)

/-- The branch of an upload that the site accepted. -/
def Loop.noteSuccess : Loop :=
  { l with
    failureCount := 0
    periodS := l.originalPeriodS
    loggedFailure := false
    loggedSuccess := true
    log := if l.loggedSuccess then l.log else successLine :: l.log }

/-- The other branch. -/
def Loop.noteFailure (reply : Reply) : Loop :=
  { l with
    failureCount := l.failureCount + 1
    periodS := if 10 ≤ l.failureCount + 1 then min (l.periodS * 2) 600 else l.periodS
    loggedFailure := true
    log := if l.loggedFailure then l.log else failureLine reply :: l.log }

/-- One time round the loop of `_run`. -/
def Loop.turn (t : Turn) : Loop :=
  let start := l.now + t.late
  let l := if t.reply.status = 201 then l.noteSuccess else l.noteFailure t.reply
  { l with
    now := start + t.took + l.periodS
    uploads := { start := start, reply := t.reply, waitS := l.periodS } :: l.uploads }

/-- The thread after some turns. -/
def Loop.run (turns : List Turn) : Loop := turns.foldl Loop.turn l

end XenMiner.WoodyminerStatsUploader
