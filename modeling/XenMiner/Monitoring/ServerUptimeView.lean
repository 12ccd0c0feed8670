import XenMiner.Monitoring.ServerUptime
import Mathlib.Data.List.DropRight

/-!
# `monitoring/server_uptime.py`: what is kept, and what is shown

Every probe saves the tracker, and saving drops what is too old; a new process goes on from what was
saved.  The view shows the last hours with the time since the last probe.  Saving reads the clock once
here; labels are left out.
-/

namespace XenMiner.ServerUptime

/-- `_HOURLY_RETENTION_H`, in seconds. -/
def hourlyRetentionS : ℚ := 48 * 3600

/-- `_OUTAGE_RETENTION_D`, in seconds. -/
def outageRetentionS : ℚ := 14 * 86400

/-- `_MAX_OUTAGES`. -/
def maxOutages : ℕ := 200

/-- `_DISPLAY_HOURS`. -/
def displayHours : ℕ := 6

/-- `hourly.get(key, empty)`. -/
def bucketAt (hourly : List (ℤ × Bucket)) (hour : ℤ) : Bucket := (hourly.lookup hour).getD {}

/-- A row of the view. -/
structure HourlyUptimeRow where
  hour : ℤ
  uptimePct : Option ℚ
  offlineS : ℚ
  outageCount : ℕ
  deriving DecidableEq, Repr

structure ServerUptimeView where
  hours : List HourlyUptimeRow
  avgOutageS : Option ℚ
  outageCount : ℕ
  xuniOutageCount : ℕ
  currentOk : Bool
  currentOutageS : Option ℚ
  offlineS24h : ℚ
  deriving DecidableEq, Repr

namespace Tracker

variable (utcOffset : ℚ) (t : Tracker)

/-- `_prune`. -/
def prune (savedAt : ℚ) : Tracker :=
  { t with
    hourly := t.hourly.filter fun e => hourOf utcOffset (savedAt - hourlyRetentionS) ≤ e.1
    outages := (t.outages.filter fun o => savedAt - outageRetentionS ≤ o.endTs).rtake maxOutages }

/-- `record_probe` with the `_save` at its end. -/
def probe (ok : Bool) (now savedAt : ℚ) : Tracker :=
  (t.recordProbe utcOffset ok now).prune utcOffset savedAt

/-- The age of the outage the server is in. -/
def currentOutageS (now : ℚ) : Option ℚ :=
  if t.lastOk = some true then none
  else
    match t.outageStart, t.lastProbeAt, t.lastOk with
    | some startTs, _, _ => some (max 0 (now - startTs))
    | none, some last, some false => some (max 0 (now - last))
    | _, _, _ => none

/-- The row of an hour. -/
def row (hourly : List (ℤ × Bucket)) (hour : ℤ) : HourlyUptimeRow :=
  let bucket := bucketAt hourly hour
  let totalS := bucket.onlineS + bucket.offlineS
  { hour := hour
    uptimePct := if 0 < totalS then some (bucket.onlineS / totalS * 100) else none
    offlineS := bucket.offlineS
    outageCount := t.outages.countP fun o => hourOf utcOffset o.startTs = hour }

/-- `view`: the newest hour comes first. -/
def view (now : ℚ) : ServerUptimeView :=
  let hourly := projectedHourly utcOffset t.hourly now t.lastOk t.lastProbeAt
  let windowStart := hourOf utcOffset (now - 23 * 3600)
  let completed := t.outages.map Outage.durationS
  { hours := (List.range displayHours).map fun offset : ℕ =>
      t.row utcOffset hourly (hourOf utcOffset now - (offset : ℤ))
    avgOutageS := if completed = [] then none else some (completed.sum / completed.length)
    outageCount := t.outages.length
    xuniOutageCount := t.outages.countP Outage.duringXuniWindow
    currentOk := t.lastOk.getD false
    currentOutageS := t.currentOutageS now
    offlineS24h := ((List.range 24).map fun offset : ℕ =>
      (bucketAt hourly (windowStart + (offset : ℤ))).offlineS).sum }

end Tracker

end XenMiner.ServerUptime
