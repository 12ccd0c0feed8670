import XenMiner.Core.Models
import XenMiner.Efficiency.ThermalPolicy
import XenMiner.Efficiency.VramPolicy
import XenMiner.Lib.PyStr

/-!
# `efficiency/vram_guard.py`: the hardware guard

`VramGuard.evaluate` looks at a snapshot and answers with an action: stop the GPU because used
memory reached the emergency limit, because too little memory is free, or because the die or the
board reached its maximum; warn; or go on.
-/

namespace XenMiner.VramGuard

open ThermalPolicy

inductive Level
  | ok
  | warn
  | emergency
  deriving DecidableEq, Repr

/-- The `code` of a guard action or of a temperature evaluation. -/
inductive Code
  | ok
  | vramEmergency
  | headroomCritical
  | dieTempEmergency
  | boardTempEmergency
  | tempEmergency
  | dieTempWarn
  | boardTempWarn
  | desktopVramLow
  deriving DecidableEq, Repr

structure GuardAction where
  level : Level
  message : String
  code : Code := .ok
  shouldStopGpu : Bool := false
  gracefulStop : Bool := false
  cooldownS : ℤ := 0
  deriving DecidableEq, Repr

/-- Die against board temperature, each under its own cap. -/
structure DualTempEval where
  level : Level
  code : Code
  message : String
  dieC : ℤ
  boardC : ℤ
  hotspotC : ℤ
  effDieC : ℤ
  effBoardC : ℤ
  batchScale : ℚ
  laneCapFromTemp : Option ℤ
  abort : Bool
  deriving DecidableEq, Repr

/-- `_norm_limit`: a hard limit of at least `1` and a warning limit below it. -/
def normLimit (warn hard : ℤ) : ℤ × ℤ :=
  let hard := max 1 hard
  let warn := if 1 < hard then min warn (hard - 1) else warn
  (max 1 warn, hard)

/-- The difficulty context of the board proxy, `set_difficulty_context`. -/
structure DifficultyContext where
  difficulty : ℤ := 0
  referenceDifficulty : ℤ := 1100
  highDiffEnabled : Bool := true
  highDiffStartRatio : ℚ := 3 / 2
  highDiffFullRatio : ℚ := 19 / 10
  highDiffMaxTightenC : ℤ := 12

/-- The lanes and the scale floor a caller derates from. -/
structure DerateArgs where
  plannedLanes : ℤ := 1
  minLanes : ℤ := 1
  batchMinScale : ℚ := 3 / 5

/-- A reading as the messages print it: `0` stands for a missing sensor. -/
def tempText (c : ℤ) : String := if c = 0 then "n/a" else toString c

/-- `evaluate_die_board_temps`. -/
def evaluateDieBoardTemps (dieC boardC hotspotC dieWarnC dieMaxC boardWarnC boardMaxC : ℤ)
    (derate : DerateArgs) (ctx : DifficultyContext) : DualTempEval :=
  let (dieWarn, dieMax) := normLimit dieWarnC dieMaxC
  let (boardWarn, boardMax) := normLimit boardWarnC boardMaxC
  let die := max 0 dieC
  let board := max 0 boardC
  let hotspot := max 0 hotspotC
  let effDie := if 0 < die then die else if 0 < hotspot then hotspot else 0
  let effBoard :=
    if 0 < board then board
    else
      let base := max die hotspot
      if ctx.highDiffEnabled ∧ 0 < base ∧ 0 < ctx.difficulty then
        effectiveControlTempC base ctx.difficulty ctx.referenceDifficulty ctx.highDiffStartRatio
          ctx.highDiffFullRatio ctx.highDiffMaxTightenC
      else base
  let dieScale :=
    if 0 < effDie then thermalBatchScale effDie dieWarn dieMax derate.batchMinScale else 1
  let boardScale :=
    if 0 < effBoard then thermalBatchScale effBoard boardWarn boardMax derate.batchMinScale else 1
  let laneFromDie :=
    if 0 < effDie ∧ 1 < derate.plannedLanes then
      thermalLaneCap derate.plannedLanes effDie dieWarn dieMax derate.minLanes
    else derate.plannedLanes
  let laneFromBoard :=
    if 0 < effBoard ∧ 1 < derate.plannedLanes then
      thermalLaneCap derate.plannedLanes effBoard boardWarn boardMax derate.minLanes
    else derate.plannedLanes
  let dieHard := decide (0 < effDie ∧ dieMax ≤ effDie)
  let boardHard := decide (0 < effBoard ∧ boardMax ≤ effBoard)
  let abort := dieHard || boardHard
  -- warnings count only when neither limit is reached
  let dieSoft := !abort && decide (0 < effDie ∧ dieWarn ≤ effDie)
  let boardSoft := !abort && decide (0 < effBoard ∧ boardWarn ≤ effBoard)
  let code : Code :=
    if dieHard && boardHard then .tempEmergency
    else if dieHard then .dieTempEmergency
    else if boardHard then .boardTempEmergency
    else if dieSoft then .dieTempWarn
    else if boardSoft then .boardTempWarn
    else .ok
  let reasons : List String :=
    (if dieHard then [s!"die {effDie}C >= max {dieMax}C"] else [])
      ++ (if boardHard then [s!"board {effBoard}C >= max {boardMax}C"] else [])
      ++ (if dieSoft then [s!"die {effDie}C >= warn {dieWarn}C"] else [])
      ++ (if boardSoft then [s!"board {effBoard}C >= warn {boardWarn}C"] else [])
  let detail := "die=" ++ tempText die ++ "C board=" ++ tempText board ++ "C hotspot="
    ++ tempText hotspot ++ "C"
  { level := if abort then .emergency else if dieSoft || boardSoft then .warn else .ok
    code := code
    message := if reasons.isEmpty then "Temps OK (" ++ detail ++ ")"
      else String.intercalate "; " reasons ++ " (" ++ detail ++ ")"
    dieC := die
    boardC := board
    hotspotC := hotspot
    effDieC := effDie
    effBoardC := effBoard
    batchScale := min dieScale boardScale
    laneCapFromTemp :=
      if 1 < derate.plannedLanes then some (min laneFromDie laneFromBoard) else none
    abort := abort }

/-- `evaluate_snapshot_temps` of a present snapshot. -/
def evaluateSnapshotTemps (snap : GpuSnapshot) (dieWarnC dieMaxC boardWarnC boardMaxC : ℤ)
    (derate : DerateArgs) (ctx : DifficultyContext) : DualTempEval :=
  let source := PyStr.orElse snap.tempSource "gpu"
  -- an old snapshot has its die reading in the control temperature
  let die :=
    if snap.gpuTempC ≤ 0 ∧ (source = "gpu" ∨ source = "die") then snap.temperatureC
    else snap.gpuTempC
  evaluateDieBoardTemps die snap.boardTempC snap.hotspotTempC dieWarnC dieMaxC boardWarnC boardMaxC
    derate ctx

end VramGuard

/-- Emergency stop before CUDA runs out of memory, and the two temperature caps. -/
structure VramGuard where
  targetVramMib : ℤ
  desktopHeadroomMib : ℤ
  emergencyVramMib : ℤ
  minHeadroomMib : ℤ
  maxTempC : ℤ
  warnTempC : ℤ
  maxBoardTempC : ℤ
  warnBoardTempC : ℤ
  cooldownS : ℤ
  context : VramGuard.DifficultyContext

namespace VramGuard

/-- `VramGuard.__init__`. -/
def init (targetVramMib desktopHeadroomMib emergencyVramMib minHeadroomMib maxTempC warnTempC
    cooldownS : ℤ) (maxBoardTempC warnBoardTempC : Option ℤ) : VramGuard :=
  let bmax := maxBoardTempC.getD (max 90 maxTempC)
  let bwarn := warnBoardTempC.getD (min 85 (bmax - 1))
  { targetVramMib := targetVramMib
    desktopHeadroomMib := desktopHeadroomMib
    emergencyVramMib := emergencyVramMib
    minHeadroomMib := minHeadroomMib
    maxTempC := maxTempC
    warnTempC := if 1 < maxTempC then min warnTempC (maxTempC - 1) else warnTempC
    maxBoardTempC := bmax
    warnBoardTempC := min bwarn (bmax - 1)
    cooldownS := cooldownS
    context := {} }

/-- `set_difficulty_context`. -/
def setDifficultyContext (g : VramGuard) (ctx : DifficultyContext) : VramGuard :=
  { g with context := { ctx with
      difficulty := max 0 ctx.difficulty
      referenceDifficulty := max 1 ctx.referenceDifficulty } }

/-- The guard `Supervisor._apply_vram_policy` builds from the caps and the temperature limits. -/
def ofCaps (caps : VramPolicy.VramCaps) (maxTempC warnTempC cooldownS : ℤ)
    (maxBoardTempC warnBoardTempC : Option ℤ) (ctx : DifficultyContext) : VramGuard :=
  (init caps.targetMib caps.headroomMib caps.emergencyMib caps.minHeadroomMib maxTempC warnTempC
    cooldownS maxBoardTempC warnBoardTempC).setDifficultyContext ctx

/-- The used memory at which the guard stops the GPU. -/
def emergencyLimit (g : VramGuard) (totalMib : ℤ) : ℤ :=
  min g.emergencyVramMib (max (totalMib - 256) 0)

/-- An emergency action: the GPU stops and cools down. -/
def stopAction (g : VramGuard) (message : String) (code : Code) (graceful : Bool) : GuardAction :=
  { level := .emergency
    message := message
    code := code
    shouldStopGpu := true
    gracefulStop := graceful
    cooldownS := g.cooldownS }

/-- `VramGuard.evaluate`. -/
def evaluate (g : VramGuard) : Option GpuSnapshot → GuardAction
  | none => { level := .ok, message := "GPU metrics unavailable" }
  | some snap =>
    let limit := g.emergencyLimit snap.totalMib
    let free := snap.headroomMib
    let tev := evaluateSnapshotTemps snap g.warnTempC g.maxTempC g.warnBoardTempC g.maxBoardTempC {}
      g.context
    if limit ≤ snap.usedMib then
      g.stopAction s!"VRAM emergency: {snap.usedMib}MiB >= {limit}MiB" .vramEmergency false
    else if free ≤ g.minHeadroomMib then
      g.stopAction s!"Headroom critical: {free}MiB <= {g.minHeadroomMib}MiB" .headroomCritical
        false
    else if tev.level = .emergency then g.stopAction tev.message tev.code true
    else if tev.level = .warn then { level := .warn, message := tev.message, code := tev.code }
    else if free < g.desktopHeadroomMib then
      { level := .warn
        message := s!"Desktop VRAM low: {free}MiB free "
          ++ s!"(need {g.desktopHeadroomMib}MiB for console/desktop)"
        code := .desktopVramLow }
    else { level := .ok, message := s!"VRAM {snap.usedMib}MiB headroom {free}MiB" }

end VramGuard

end XenMiner
