import XenMiner.BlockQueue.Policy
import XenMiner.Lib.PyNum

/-!
# `monitoring/server_uptime.py`: the loop of `_outage_overlaps_xuni`

The loop steps a naive local `datetime` through an outage, a minute at a time.  A `datetime` is its
number of microseconds since the local epoch, at a fixed offset from UTC; timestamps are exact, and
`datetime.fromtimestamp` rounds them to microseconds.  The first and last year of `datetime` are not
modelled.
-/

namespace XenMiner.OutageScan

open PyNum

/-- A naive local `datetime`. -/
structure DateTime where
  micros : ℤ
  deriving DecidableEq, Repr

/-- Microseconds in a minute. -/
def minuteMicros : ℤ := 60000000

namespace DateTime

/-- `datetime.fromtimestamp`, at an offset of `utcOffset` microseconds. -/
def fromTimestamp (utcOffset : ℤ) (ts : ℚ) : DateTime where
  micros := pyRound (ts * 1000000) + utcOffset

variable (d : DateTime)

/-- The minutes since the local epoch. -/
def epochMinute : ℤ := d.micros / minuteMicros

/-- `d.minute`. -/
def minute : ℕ := (d.epochMinute % 60).toNat

/-- `d.replace(second=0, microsecond=0)`. -/
def floorMinute : DateTime where
  micros := d.micros - d.micros % minuteMicros

/-- `d + timedelta(minutes=1)`. -/
def addMinute : DateTime where
  micros := d.micros + minuteMicros

/-- `in_xuni_window(d)`. -/
def inXuniWindow : Bool := Policy.inXuniWindow d.minute

end DateTime

/-- The loop from `cursor` on; `none` is that it goes on after `fuel` rounds. -/
def scan (last : DateTime) : ℕ → DateTime → Option Bool
  | 0, _ => none
  | fuel + 1, cursor =>
    if cursor.micros ≤ last.micros then
      if cursor.inXuniWindow then some true else scan last fuel cursor.addMinute
    else some false

/-- `_outage_overlaps_xuni`. -/
def outageOverlapsXuni (utcOffset : ℤ) (startTs endTs : ℚ) (fuel : ℕ) : Option Bool :=
  scan (DateTime.fromTimestamp utcOffset endTs) fuel (DateTime.fromTimestamp utcOffset startTs).floorMinute

end XenMiner.OutageScan
