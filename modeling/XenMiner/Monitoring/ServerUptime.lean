import XenMiner.BlockQueue.Policy
import Mathlib.Data.Rat.Floor

/-!
# `monitoring/server_uptime.py`: uptime per hour and outages

Probes of the server fill buckets, one for each local hour, and open and close outages.  Local time
is at a fixed offset from UTC, so an hour is the number of hours since the local epoch; timestamps
are exact.  The tracker is never pruned here, and its file, which restores it at the next start, is
not modelled; neither are the labels of the view.
-/

namespace XenMiner.ServerUptime

/-- Seconds a server was up and down in one hour. -/
structure Bucket where
  onlineS : ℚ := 0
  offlineS : ℚ := 0
  deriving DecidableEq, Repr

/-- `bucket[field]`. -/
def Bucket.seconds (b : Bucket) (online : Bool) : ℚ := if online then b.onlineS else b.offlineS

/-- `bucket[field] += seconds`. -/
def Bucket.add (b : Bucket) (online : Bool) (seconds : ℚ) : Bucket :=
  if online then { b with onlineS := b.onlineS + seconds }
  else { b with offlineS := b.offlineS + seconds }

/-- A closed outage. -/
structure Outage where
  startTs : ℚ
  endTs : ℚ
  durationS : ℚ
  duringXuniWindow : Bool
  deriving DecidableEq, Repr

structure Tracker where
  /-- The buckets in the order of their creation. -/
  hourly : List (ℤ × Bucket) := []
  outages : List Outage := []
  lastOk : Option Bool := none
  lastProbeAt : Option ℚ := none
  outageStart : Option ℚ := none
  deriving DecidableEq, Repr

/-! ### Local time -/

variable (utcOffset : ℚ)

/-- The local hour of a timestamp. -/
def hourOf (ts : ℚ) : ℤ := ⌊(ts + utcOffset) / 3600⌋

/-- `next_hour.timestamp()`, where the hour after `hour` starts. -/
def hourEnd (hour : ℤ) : ℚ := (hour + 1) * 3600 - utcOffset

/-- The local minute of a timestamp. -/
def minuteOf (ts : ℚ) : ℤ := ⌊(ts + utcOffset) / 60⌋

/-- `_outage_overlaps_xuni`: any minute from the start on lies in the window. -/
def outageOverlapsXuni (startTs endTs : ℚ) : Bool :=
  let first := minuteOf utcOffset startTs
  (List.range (minuteOf utcOffset endTs - first + 1).toNat).any fun i =>
    Policy.inXuniWindow ((first + i) % 60).toNat

/-! ### Buckets -/

/-- `setdefault(key, empty)[field] += seconds`. -/
def credit (hour : ℤ) (online : Bool) (seconds : ℚ) : List (ℤ × Bucket) → List (ℤ × Bucket)
  | [] => [(hour, ({} : Bucket).add online seconds)]
  | (key, bucket) :: rest =>
    if key = hour then (key, bucket.add online seconds) :: rest
    else (key, bucket) :: credit hour online seconds rest

/-- The splitting loop, which both callers have: the time from the cursor to the end, hour by hour.
Its fuel is the number of hours it can meet. -/
def creditLoop (online : Bool) (endTs : ℚ) : ℕ → ℚ → List (ℤ × Bucket) → List (ℤ × Bucket)
  | 0, _, hourly => hourly
  | fuel + 1, cursor, hourly =>
    if cursor < endTs then
      let hour := hourOf utcOffset cursor
      let chunkEnd := min endTs (hourEnd utcOffset hour)
      creditLoop online endTs fuel chunkEnd (credit hour online (chunkEnd - cursor) hourly)
    else hourly

/-- The hours from one timestamp to another. -/
def hoursBetween (startTs endTs : ℚ) : ℕ :=
  (hourOf utcOffset endTs - hourOf utcOffset startTs + 1).toNat

/-- `_add_duration`. -/
def addDuration (hourly : List (ℤ × Bucket)) (startTs endTs : ℚ) (online : Bool) :
    List (ℤ × Bucket) :=
  if endTs ≤ startTs then hourly
  else creditLoop utcOffset online endTs (hoursBetween utcOffset startTs endTs) startTs hourly

/-- `_projected_hourly`: the buckets with the time since the last probe. -/
def projectedHourly (hourly : List (ℤ × Bucket)) (now : ℚ) (lastOk : Option Bool)
    (lastProbeAt : Option ℚ) : List (ℤ × Bucket) :=
  match lastProbeAt, lastOk with
  | some last, some online =>
    if now ≤ last then hourly
    else creditLoop utcOffset online now (hoursBetween utcOffset last now) last hourly
  | _, _ => hourly

/-! ### Probes -/

namespace Tracker

variable (t : Tracker)

/-- `_start_outage`. -/
def startOutage (ts : ℚ) : Tracker := { t with outageStart := some ts }

/-- The record of an outage that is over. -/
def outageRecord (startTs endTs : ℚ) : Outage where
  startTs := startTs
  endTs := endTs
  durationS := max 0 (endTs - startTs)
  duringXuniWindow := outageOverlapsXuni utcOffset startTs endTs

/-- `_close_outage`; an outage without a duration leaves no record. -/
def closeOutage (ts : ℚ) : Tracker :=
  match t.outageStart with
  | none => t
  | some startTs =>
    let outage := outageRecord utcOffset startTs ts
    { t with
      outages := if 0 < outage.durationS then t.outages ++ [outage] else t.outages
      outageStart := none }

/-- The time since the last probe goes to its state. -/
def creditSinceProbe (now : ℚ) : Tracker :=
  match t.lastProbeAt, t.lastOk with
  | some last, some online =>
    { t with hourly := addDuration utcOffset t.hourly last now online }
  | _, _ => t

/-- The change of state at a probe. -/
def changeState (ok : Bool) (now : ℚ) : Tracker :=
  match t.lastOk, ok with
  | none, false => t.startOutage now
  | some true, false => t.startOutage now
  | some false, true => t.closeOutage utcOffset now
  | _, _ => t

/-- `record_probe`. -/
def recordProbe (ok : Bool) (now : ℚ) : Tracker :=
  { (t.creditSinceProbe utcOffset now).changeState utcOffset ok now with
    lastOk := some ok
    lastProbeAt := some now }

end Tracker

end XenMiner.ServerUptime
