import XenMiner.Lib.Binary64

/-!
# `efficiency/vram_policy.py`: caps for one GPU

`resolveVramCaps` turns the percentages of `miner.ini`, or the absolute overrides where one is
set, into MiB and clamps the five figures against each other.  Percentages are doubles, and a
percentage of a card is computed as the source computes it: `64.1` percent of `16000` MiB are `10255`.
-/

namespace XenMiner.VramPolicy

open PyNum

/-- The default profile as percentages of a `32607` MiB card. -/
def referencePct (mib : ℤ) : ℚ := Binary64.round (Binary64.round (100 * mib) / 32607)

/-- Resolved absolute caps for one GPU. -/
structure VramCaps where
  totalMib : ℤ
  targetMib : ℤ
  headroomMib : ℤ
  emergencyMib : ℤ
  minHeadroomMib : ℤ
  runtimeOverheadMib : ℤ
  targetPct : ℚ
  headroomPct : ℚ
  emergencyPct : ℚ
  minHeadroomPct : ℚ
  overheadPct : ℚ
  deriving DecidableEq, Repr

/-- `_clamp_pct`. -/
def clampPct (value : ℚ) : ℚ := clamp (Binary64.round value) 0 100

/-- `int(total * pct / 100.0)`. -/
def percentOf (total : ℤ) (pct : ℚ) : ℤ :=
  pyInt (Binary64.round (Binary64.round (Binary64.round total * pct) / 100))

example : percentOf 16000 (clampPct (641 / 10)) = 10255 := by decide +kernel

/-- The arguments of `resolve_vram_caps`; an override of `0` is unused. -/
structure CapsArgs where
  totalMib : ℤ
  targetPct : ℚ := referencePct 22528
  desktopHeadroomPct : ℚ := referencePct 8192
  emergencyVramPct : ℚ := referencePct 30252
  minHeadroomPct : ℚ := referencePct 1200
  runtimeOverheadPct : ℚ := referencePct 2048
  minHeadroomFloorMib : ℤ := 512
  overheadFloorMib : ℤ := 256
  emergencyFreeFloorMib : ℤ := 256
  targetMibOverride : ℤ := 0
  headroomMibOverride : ℤ := 0
  emergencyMibOverride : ℤ := 0
  minHeadroomMibOverride : ℤ := 0
  runtimeOverheadMibOverride : ℤ := 0

namespace CapsArgs

variable (a : CapsArgs)

def total : ℤ := max 1 a.totalMib

/-- The override when it is set, otherwise the percentage of the card. -/
def request (override : ℤ) (pct : ℚ) : ℤ :=
  if 0 < override then override else percentOf a.total (clampPct pct)

def targetRequest : ℤ := a.request a.targetMibOverride a.targetPct

def headroomRequest : ℤ := a.request a.headroomMibOverride a.desktopHeadroomPct

def emergencyRequest : ℤ := a.request a.emergencyMibOverride a.emergencyVramPct

def minHeadroomRequest : ℤ := a.request a.minHeadroomMibOverride a.minHeadroomPct

def overheadRequest : ℤ := a.request a.runtimeOverheadMibOverride a.runtimeOverheadPct

end CapsArgs

/-- Turn percentage policy into absolute MiB for this GPU. -/
def resolveVramCaps (a : CapsArgs) : VramCaps :=
  let total := a.total
  -- floors and clamps so the policy stays feasible on every card size
  let headroom := max a.minHeadroomFloorMib (min a.headroomRequest (max 0 (total - 1)))
  let minHead := max a.minHeadroomFloorMib (min a.minHeadroomRequest headroom)
  let overhead := max a.overheadFloorMib (min a.overheadRequest (max 0 (total / 2)))
  -- the emergency limit leaves some memory free but is never compared with the target
  let emergency := min a.emergencyRequest (max 0 (total - a.emergencyFreeFloorMib))
  let emergency := max emergency minHead
  let target := max 0 (min a.targetRequest (max 0 (total - headroom)))
  let overhead :=
    if 0 < target then min overhead (max a.overheadFloorMib (target / 2)) else overhead
  { totalMib := total
    targetMib := target
    headroomMib := headroom
    emergencyMib := emergency
    minHeadroomMib := minHead
    runtimeOverheadMib := overhead
    targetPct := clampPct a.targetPct
    headroomPct := clampPct a.desktopHeadroomPct
    emergencyPct := clampPct a.emergencyVramPct
    minHeadroomPct := clampPct a.minHeadroomPct
    overheadPct := clampPct a.runtimeOverheadPct }

end XenMiner.VramPolicy
