import XenMiner.Core.Models
import XenMiner.Lib.PyNum
import Mathlib.Data.List.DropRight

/-!
# `monitoring/timelapse.py`: the timeline of a session

The timeline keeps the last samples, the last milestones, the time online and offline, and a log of all
of them.  Every operation is given the clock as it reads it, each reading on its own.  The log is the
records of its lines.
-/

namespace XenMiner

open PyNum

namespace Timelapse

/-- `_SPARK`. -/
def spark : List Char := ['▁', '▂', '▃', '▄', '▅', '▆', '▇', '█']

/-- `TimelapseSample`. -/
structure Sample where
  elapsedS : ℤ
  hps : ℚ
  vramMib : ℤ
  tempC : ℤ
  pending : ℕ
  accepted : ℕ
  networkOk : Bool
  wallTs : ℚ
  deriving DecidableEq, Repr

/-- `TimelapseEvent`. -/
structure Event where
  elapsedS : ℤ
  clock : String
  label : String
  deriving DecidableEq, Repr

/-- A line of the log; `time` is the text of the wall clock. -/
inductive Record
  | sessionStart (time : String)
  | event (e : Event)
  | sample (s : Sample)
  | sessionEnd (time : String) (elapsedS onlineS offlineS : ℤ) (accepted : ℕ)
  deriving DecidableEq, Repr

/-- `SessionTimelapse`. -/
structure SessionTimelapse where
  sampleIntervalS : ℚ
  windowS : ℚ
  /-- The bound of `_samples`. -/
  maxSamples : ℕ
  maxEvents : ℕ
  started : ℚ
  lastSampleAt : ℚ := 0
  lastNetworkOk : Option Bool := none
  onlineS : ℚ := 0
  offlineS : ℚ := 0
  lastStateAt : ℚ
  samples : List Sample := []
  events : List Event := []
  log : List Record
  deriving DecidableEq

/-- `SessionTimelapse(log_path, …)` at the time `started`. -/
def create (sampleIntervalS : ℚ) (maxSamples : Option ℤ) (maxEvents : ℕ) (windowS started : ℚ)
    (time : String) : SessionTimelapse :=
  let sampleIntervalS := max 1 sampleIntervalS
  let windowS := max sampleIntervalS windowS
  let maxSamples := maxSamples.getD (pyInt (windowS / sampleIntervalS) + 8)
  { sampleIntervalS, windowS
    maxSamples := (max 16 maxSamples).toNat
    maxEvents, started
    lastStateAt := started
    log := [.sessionStart time] }

/-- The clock while an operation runs: `_track_network` reads `state`, an event `event` and the text
`clock`. -/
structure Moment where
  state : ℚ
  event : ℚ
  clock : String

namespace SessionTimelapse

variable (s : SessionTimelapse)

/-- `elapsed_s`. -/
def elapsedS (now : ℚ) : ℤ := max 0 (pyInt (now - s.started))

/-- `record_event`. -/
def recordEvent (now : ℚ) (clock label : String) : SessionTimelapse :=
  let event : Event := { elapsedS := s.elapsedS now, clock := clock, label := label }
  { s with
    events := (event :: s.events).take s.maxEvents
    log := s.log ++ [.event event] }

/-- The label of a change of the network. -/
def netLabel (networkOk : Bool) : String := if networkOk then "NET online" else "NET offline"

/-- The time since the last look at the network is added to the state found then. -/
def addElapsed (now : ℚ) : SessionTimelapse :=
  match s.lastNetworkOk with
  | none => s
  | some true => { s with onlineS := s.onlineS + (now - s.lastStateAt) }
  | some false => { s with offlineS := s.offlineS + (now - s.lastStateAt) }

/-- `_track_network`. -/
def trackNetwork (m : Moment) (networkOk : Bool) : SessionTimelapse :=
  let s := s.addElapsed m.state
  let s :=
    if s.lastNetworkOk = some (!networkOk) then s.recordEvent m.event m.clock (netLabel networkOk) else s
  { s with lastNetworkOk := some networkOk, lastStateAt := m.state }

/-- What `maybe_sample` is told. -/
structure Observed where
  hpsEma : ℚ
  gpu : Option GpuSnapshot
  pending : ℕ
  accepted : ℕ
  networkOk : Bool

/-- The sample taken at `now`; the elapsed time is read at `later`. -/
def sampleAt (now later : ℚ) (o : Observed) : Sample where
  elapsedS := s.elapsedS later
  hps := max 0 o.hpsEma
  vramMib := o.gpu.elim 0 GpuSnapshot.usedMib
  tempC := o.gpu.elim 0 GpuSnapshot.temperatureC
  pending := o.pending
  accepted := o.accepted
  networkOk := o.networkOk
  wallTs := now

/-- `maybe_sample`. -/
def maybeSample (m : Moment) (now later : ℚ) (o : Observed) : SessionTimelapse :=
  let s := s.trackNetwork m o.networkOk
  if now - s.lastSampleAt < s.sampleIntervalS then s
  else
    let sample := s.sampleAt now later o
    { s with
      lastSampleAt := now
      samples := (s.samples ++ [sample]).rtake s.maxSamples
      log := s.log ++ [.sample sample] }

/-- `finalize`. -/
def finalize (now later : ℚ) (time : String) : SessionTimelapse :=
  let s := s.addElapsed now
  let s := if s.lastNetworkOk = none then s else { s with lastStateAt := now }
  { s with
    log := s.log ++ [.sessionEnd time (s.elapsedS later) (pyInt s.onlineS) (pyInt s.offlineS)
      ((s.samples.getLast?).elim 0 Sample.accepted)] }

/-! ### The window -/

/-- `_sample_wall_ts`. -/
def sampleWallTs (sample : Sample) : ℚ :=
  if 0 < sample.wallTs then sample.wallTs else s.started + sample.elapsedS

/-- `_window_samples`. -/
def windowSamples (now : ℚ) : List Sample :=
  s.samples.filter fun sample => now - s.windowS ≤ s.sampleWallTs sample

/-- `_effective_window_s`. -/
def effectiveWindowS (now : ℚ) : ℚ := min s.windowS (max s.sampleIntervalS (now - s.started))

/-- The bucket of a sample, if the chart has a place for it. -/
def bucketOf (width : ℕ) (now : ℚ) (sample : Sample) : Option ℕ :=
  let effWindow := s.effectiveWindowS now
  let windowStart := now - effWindow
  let ts := s.sampleWallTs sample
  if ts < windowStart - 1 / 1000000 then none
  else
    let rel := if 0 < effWindow then (ts - windowStart) / effWindow else 1
    some (min (width - 1 : ℤ) (max 0 (pyInt (rel * width)))).toNat

/-- A bucket of `_bucket_values`. -/
def bucket (samples : List Sample) (width : ℕ) (now : ℚ) (i : ℕ) : List ℚ :=
  (samples.filter fun sample => s.bucketOf width now sample = some i).map fun sample => max 0 sample.hps

/-- The mean of some values. -/
def mean (values : List ℚ) : ℚ := values.sum / values.length

/-- `_bucket_values`. -/
def bucketValues (samples : List Sample) (width : ℕ) (now : ℚ) : List (Option ℚ) :=
  (List.range width).map fun i =>
    let values := s.bucket samples width now i
    if values = [] then none else some (mean values)

/-- The step of a value on the scale from zero to `hi`. -/
def level (hi value : ℚ) : ℕ :=
  let n : ℤ := spark.length - 1
  let idx := max 0 (min n (pyRound (value / hi * n)))
  (if 0 < value ∧ idx = 0 then 1 else idx).toNat

/-- The glyph of a bucket. -/
def glyph (hi : ℚ) : Option ℚ → Char
  | none => '·'
  | some value => if hi ≤ 0 then '▁' else spark.getD (level hi value) '·'

/-- `sparkline`. -/
def sparkline (width : ℕ) (now : ℚ) : List Char :=
  let samples := s.windowSamples now
  if samples = [] then List.replicate (max 1 width) '·'
  else
    let values := s.bucketValues samples width now
    match values.reduceOption with
    | [] => List.replicate width '·'
    | v :: vs => values.map (glyph (vs.foldl max v))

/-- `average_hps`. -/
def averageHps (now : ℚ) : ℚ :=
  let live := ((s.windowSamples now).map Sample.hps).filter fun hps => 0 < hps
  if live = [] then 0 else mean live

/-! ### Operations -/

/-- The operations that change the timeline; `uptime` is `format_uptime_split`. -/
inductive Op
  | recordEvent (now : ℚ) (clock label : String)
  | maybeSample (m : Moment) (now later : ℚ) (o : Observed)
  | uptime (m : Moment) (networkOk : Bool)
  | finalize (now later : ℚ) (time : String)

def step (s : SessionTimelapse) : Op → SessionTimelapse
  | .recordEvent now clock label => s.recordEvent now clock label
  | .maybeSample m now later o => s.maybeSample m now later o
  | .uptime m networkOk => s.trackNetwork m networkOk
  | .finalize now later time => s.finalize now later time

end SessionTimelapse

end Timelapse

end XenMiner
