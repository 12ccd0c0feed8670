import XenMiner.Core.Models
import XenMiner.Efficiency.ThermalPolicy

/-!
# `efficiency/gpu_power.py`: the power limit of the GPU

`GpuPowerBooster` changes the power limit of the driver and the power plan of Windows.  `Host` is what
it changes; how a request to the driver or a call of `powercfg` ends is an argument of the operation
that makes it.
-/

namespace XenMiner

open PyNum
open ThermalPolicy (normalizePowerRange normalizePowerRange_spec difficultyPowerTargetPct)

/-! ### The machine -/

/-- The power limit with the range the driver allows, and the power plan, named by its GUID. -/
structure Host where
  limitMw : ℤ
  minLimitMw : ℤ
  maxLimitMw : ℤ
  powerScheme : String
  isWin32 : Bool
  deriving DecidableEq, Repr

/-- How a request for a power limit ends: NVML or `nvidia-smi` takes it, or neither. -/
inductive LimitReply
  | nvml
  | nvidiaSmi
  | refused
  deriving DecidableEq, Repr

/-- What `powercfg` does: it shows the active plan, and it activates another one. -/
structure Powercfg where
  shows : Bool := true
  activates : Bool := true
  deriving DecidableEq, Repr

namespace Host

/-- `_set_power_limit_mw`; `nvidia-smi` takes whole watts. -/
def setPowerLimitMw (h : Host) (reply : LimitReply) (limitMw : ℤ) : Host × Bool :=
  match reply with
  | .nvml => ({ h with limitMw := limitMw }, true)
  | .nvidiaSmi => ({ h with limitMw := 1000 * max 1 (pyRound (limitMw / 1000)) }, true)
  | .refused => (h, false)

/-- `powercfg /setactive`. -/
def setActive (h : Host) (powercfg : Powercfg) (scheme : String) : Host :=
  if powercfg.activates then { h with powerScheme := scheme } else h

end Host

/-! ### The booster -/

/-- What `__init__` takes over; the percentages are in order. -/
structure PowerConfig where
  targetPct : ℤ
  minPct : ℤ
  warnTempC : ℤ
  windowsPerformanceMode : Bool
  difficultyPowerEnabled : Bool
  referenceDifficulty : ℤ
  fullDerateRatio : ℚ
  lowDifficulty : ℤ
  min_ge : 50 ≤ minPct
  min_le : minPct ≤ targetPct
  target_le : targetPct ≤ 100

namespace PowerConfig

/-- The arguments of `__init__`. -/
def create (targetPct minPct warnTempC : ℤ) (windowsPerformanceMode difficultyPowerEnabled : Bool)
    (referenceDifficulty : ℤ) (fullDerateRatio : ℚ) (lowDifficulty : ℤ) : PowerConfig where
  targetPct := (normalizePowerRange targetPct minPct).1
  minPct := (normalizePowerRange targetPct minPct).2
  warnTempC := warnTempC
  windowsPerformanceMode := windowsPerformanceMode
  difficultyPowerEnabled := difficultyPowerEnabled
  referenceDifficulty := max 1 referenceDifficulty
  fullDerateRatio := max (101 / 100) fullDerateRatio
  lowDifficulty := max 1 lowDifficulty
  min_ge := (normalizePowerRange_spec targetPct minPct).1
  min_le := (normalizePowerRange_spec targetPct minPct).2.1
  target_le := (normalizePowerRange_spec targetPct minPct).2.2

end PowerConfig

structure GpuPowerBooster where
  config : PowerConfig
  difficulty : ℤ
  effectiveTargetPct : ℤ
  originalLimitMw : Option ℤ := none
  minLimitMw : ℤ := 0
  maxLimitMw : ℤ := 0
  currentLimitMw : Option ℤ := none
  applied : Bool := false
  savedPowerScheme : Option String := none

namespace GpuPowerBooster

def highPerformanceGuid : String := "8c5e7fda-e8bf-4a96-9a85-a6e23a8c635c"

/-- `__init__`. -/
def create (config : PowerConfig) : GpuPowerBooster where
  config := config
  difficulty := config.referenceDifficulty
  effectiveTargetPct := config.targetPct

variable (b : GpuPowerBooster) (h : Host)

def computeEffectiveTargetPct : ℤ :=
  if b.config.difficultyPowerEnabled = false then b.config.targetPct
  else
    difficultyPowerTargetPct b.config.targetPct b.difficulty b.config.referenceDifficulty
      b.config.minPct b.config.fullDerateRatio b.config.lowDifficulty

/-- `set_difficulty`; it returns the new effective target. -/
def setDifficulty (difficulty : ℤ) : GpuPowerBooster :=
  let b := { b with difficulty := max 1 difficulty }
  { b with effectiveTargetPct := b.computeEffectiveTargetPct }

def targetMwForPct (pct : ℤ) : ℤ :=
  let span := b.maxLimitMw - b.minLimitMw
  b.minLimitMw + pyInt (span * pct / 100)

/-- `_enable_windows_high_performance`. -/
def enableWindowsHighPerformance (powercfg : Powercfg) : GpuPowerBooster × Host :=
  let b := if powercfg.shows then { b with savedPowerScheme := some h.powerScheme } else b
  (b, h.setActive powercfg highPerformanceGuid)

/-- The driver's range as `apply` reads it. -/
def recordLimits : GpuPowerBooster :=
  let b :=
    { b with
      originalLimitMw := some h.limitMw
      minLimitMw := h.minLimitMw
      maxLimitMw := h.maxLimitMw }
  { b with effectiveTargetPct := b.computeEffectiveTargetPct }

/-- `apply`, unless the limits cannot be read. -/
def apply (reply : LimitReply) (powercfg : Powercfg) : GpuPowerBooster × Host :=
  let b := b.recordLimits h
  let targetMw := b.targetMwForPct b.effectiveTargetPct
  if targetMw ≤ h.limitMw then
    ({ b with currentLimitMw := some h.limitMw, applied := true }, h)
  else
    let (h, accepted) := h.setPowerLimitMw reply targetMw
    if accepted = false then (b, h)
    else
      let b := { b with currentLimitMw := some targetMw, applied := true }
      if b.config.windowsPerformanceMode ∧ h.isWin32 then b.enableWindowsHighPerformance h powercfg
      else (b, h)

/-- The hottest of control, board and die temperature. -/
def hottest (snap : GpuSnapshot) : ℤ :=
  max (max snap.temperatureC snap.boardTempC) snap.gpuTempC

/-- `target_mw` in `adjust`. -/
def targetMw : ℤ := b.targetMwForPct b.computeEffectiveTargetPct

/-- `floor_mw` in `adjust`: the lower end of the configured range. -/
def floorMw : ℤ :=
  max b.minLimitMw (min (min (b.targetMwForPct b.config.minPct) b.targetMw) b.maxLimitMw)

def stepMw : ℤ := max 5000 ((b.maxLimitMw - b.minLimitMw) / 20)

/-- The step of `adjust` from a limit at a temperature. -/
def nextMw (current temp : ℤ) : ℤ :=
  let new :=
    if b.config.warnTempC - 2 ≤ temp then max b.floorMw (current - b.stepMw)
    else if temp ≤ b.config.warnTempC - 12 then min b.targetMw (current + b.stepMw)
    else if b.targetMw < current then max b.targetMw (current - b.stepMw)
    else if current < b.targetMw ∧ temp ≤ b.config.warnTempC - 5 then
      min b.targetMw (current + b.stepMw)
    else current
  max b.floorMw (min new b.maxLimitMw)

/-- `adjust`. -/
def adjust (snap : Option GpuSnapshot) (reply : LimitReply) : GpuPowerBooster × Host :=
  match snap, b.currentLimitMw with
  | some snap, some current =>
    if b.applied = false ∨ b.maxLimitMw ≤ b.minLimitMw then (b, h)
    else
      let b := { b with effectiveTargetPct := b.computeEffectiveTargetPct }
      let new := b.nextMw current (hottest snap)
      if new = current then (b, h)
      else
        let (h, accepted) := h.setPowerLimitMw reply new
        if accepted = false then (b, h) else ({ b with currentLimitMw := some new }, h)
  | _, _ => (b, h)

/-- `restore`. -/
def restore (reply : LimitReply) (powercfg : Powercfg) : GpuPowerBooster × Host :=
  match b.originalLimitMw with
  | none => (b, h)
  | some original =>
    if b.applied = false then (b, h)
    else if b.currentLimitMw = some original then (b, h)
    else
      let (h, _) := h.setPowerLimitMw reply original
      let h :=
        match b.savedPowerScheme with
        | some scheme => if h.isWin32 then h.setActive powercfg scheme else h
        | none => h
      ({ b with
         savedPowerScheme := if h.isWin32 then none else b.savedPowerScheme
         applied := false }, h)

end GpuPowerBooster

/-! ### Sessions -/

/-- A booster and its machine. -/
structure PowerSession where
  booster : GpuPowerBooster
  host : Host

/-- Calls in a session, with what they meet; `apply` may fail to read the limits. -/
inductive PowerCall
  | apply (readable : Bool) (reply : LimitReply) (powercfg : Powercfg)
  | setDifficulty (difficulty : ℤ)
  | adjust (snap : Option GpuSnapshot) (reply : LimitReply)

namespace PowerSession

def step (s : PowerSession) : PowerCall → PowerSession
  | .apply readable reply powercfg =>
    if readable = false then s
    else
      let (booster, host) := s.booster.apply s.host reply powercfg
      { booster := booster, host := host }
  | .setDifficulty difficulty => { s with booster := s.booster.setDifficulty difficulty }
  | .adjust snap reply =>
    let (booster, host) := s.booster.adjust s.host snap reply
    { booster := booster, host := host }

end PowerSession

end XenMiner
