import XenMiner.Lib.PyNum

/-!
# `efficiency/thermal_policy.py`: derate curves

Pure curves that ease batch and lanes off as temperature, VRAM usage or difficulty climb.  Every
curve is flat, then linear, then flat; the guards of the source for an empty span are kept although
the clamps above them already exclude one.

Floats are exact rationals, so a result that is rounded to an integer may be the neighbour of the
source's where the exact value lies on a tie or next to one: `highDiffTempTightenC 266 152 1.5 1.9 12`
is `8`, the source's `7`, and `applyBatchScale` of `22016` at `31 / 43` is `15872`, the source's `15871`.
The two batch scales are compared with a dead band later on; they take the rounding `rnd` of a float
operation, which is exact by default.
-/

namespace XenMiner.ThermalPolicy

open PyNum

/-- `clamp_int`. -/
def clampInt (value lo hi : ℤ) : ℤ := clamp value lo hi

/-- `clamp_float`. -/
def clampFloat (value lo hi : ℚ) : ℚ := clamp value lo hi

/-- Position of `x` on a ramp of length `span` that starts at `start`, clamped to `[0, 1]`. -/
def rampPosition (x start span : ℤ) : ℚ := clampFloat ((x - start) / span) 0 1

/-! ### Batch curves -/

/-- VRAM batch fill fraction against difficulty. -/
def difficultyBatchFillFraction (difficulty referenceDifficulty lowDifficulty : ℤ)
    (fillAtLow fillAtRef fillAtHigh fullDerateRatio : ℚ) : ℚ :=
  let lowF := clampFloat fillAtLow (2 / 5) 1
  let refF := clampFloat fillAtRef (2 / 5) 1
  let highF := clampFloat fillAtHigh (2 / 5) 1
  if difficulty ≤ 0 ∨ referenceDifficulty ≤ 0 then refF
  else
    let low := max 1 lowDifficulty
    let ref := max low referenceDifficulty
    let dif := max 1 difficulty
    let ratio := if 1 < fullDerateRatio then fullDerateRatio else 19 / 10
    let high := max (ref + 1) (pyRound (ref * ratio))
    if dif ≤ low then lowF
    else if dif ≤ ref then
      let span := ref - low
      let t := if 0 < span then rampPosition dif low span else 1
      clampFloat (lowF + t * (refF - lowF)) (2 / 5) 1
    else
      let span := high - ref
      let t := if 0 < span then rampPosition dif ref span else 1
      clampFloat (refF + t * (highF - refF)) (2 / 5) 1

/-- Batch scale as the GPU nears its limits: `1` while cool, the floor from the maximum on. -/
def thermalBatchScale (temperatureC warnTempC maxTempC : ℤ) (minScale : ℚ := 7 / 10)
    (coolMarginC : ℤ := 5) (rnd : ℚ → ℚ := id) : ℚ :=
  let floor := clampFloat (rnd minScale) (1 / 2) 1
  if temperatureC ≤ 0 then 1
  else
    let hard := max (warnTempC + 1) maxTempC
    let coolStart := warnTempC - max 0 coolMarginC
    if temperatureC ≤ coolStart then 1
    else if hard ≤ temperatureC then floor
    else
      let span := hard - coolStart
      if span ≤ 0 then floor
      else
        let t := rnd ((temperatureC - coolStart : ℤ) / span)
        clampFloat (rnd (1 - rnd (t * rnd (1 - floor)))) floor 1

/-- Apply a soft scale to a planned batch; never below `1` when there is a batch. -/
def applyBatchScale (batchSize : ℤ) (scale : ℚ) : ℤ :=
  if batchSize ≤ 0 then 0 else max 1 (pyInt (batchSize * clampFloat scale (1 / 2) 1))

/-- Batch scale as used VRAM rises past the target towards the emergency limit. -/
def vramPressureScale (usedMib targetMib emergencyMib : ℤ) (minScale : ℚ := 11 / 20)
    (startSlackMib : ℤ := 0) (rnd : ℚ → ℚ := id) : ℚ :=
  let floor := clampFloat (rnd minScale) (1 / 2) 1
  let used := max 0 usedMib
  let target := max 1 targetMib
  let emerg := max (target + 1) emergencyMib
  let start := target + max 0 startSlackMib
  if used ≤ start then 1
  else if emerg ≤ used then floor
  else
    let span := emerg - start
    if span ≤ 0 then floor
    else
      let t := rnd ((used - start : ℤ) / span)
      clampFloat (rnd (1 - rnd (t * rnd (1 - floor)))) floor 1

/-- The most aggressive of several soft scales, not below `floor`. -/
def combineBatchScales (scales : List ℚ) (floor : ℚ := 1 / 2) : ℚ :=
  let lo := clampFloat floor (1 / 2) 1
  match scales with
  | [] => 1
  | s :: rest => clampFloat (rest.foldl min s) lo 1

/-! ### Lane curves -/

/-- The step all lane curves end in: `planned` lanes at `t = 0`, `floor` lanes at `t = 1`. -/
def shrinkLanes (planned floor : ℤ) (t : ℚ) : ℤ :=
  clampInt (pyRound (planned - t * (planned - floor))) floor planned

/-- Lane cap under VRAM pressure. -/
def vramPressureLaneCap (plannedLanes usedMib targetMib emergencyMib : ℤ) (minLanes : ℤ := 1) : ℤ :=
  let planned := max 1 plannedLanes
  let floor := clampInt minLanes 1 planned
  if planned ≤ floor then planned
  else
    let scale := vramPressureScale usedMib targetMib emergencyMib (1 / 2)
    if 999 / 1000 ≤ scale then planned
    else shrinkLanes planned floor (clampFloat ((1 - scale) / (1 / 2)) 0 1)

/-- Lane cap under heat. -/
def thermalLaneCap (plannedLanes temperatureC warnTempC maxTempC : ℤ) (minLanes : ℤ := 1)
    (coolMarginC : ℤ := 8) (startDerateMarginC : ℤ := 3) : ℤ :=
  let planned := max 1 plannedLanes
  let floor := clampInt minLanes 1 planned
  if planned ≤ floor then planned
  else if temperatureC ≤ 0 then planned
  else
    let hard := max (warnTempC + 1) maxTempC
    let coolStart := warnTempC - max 0 coolMarginC
    let derateStart := max coolStart (warnTempC - max 0 startDerateMarginC)
    if temperatureC ≤ derateStart then planned
    else if hard ≤ temperatureC then floor
    else
      let span := hard - derateStart
      if span ≤ 0 then floor
      else shrinkLanes planned floor (rampPosition temperatureC derateStart span)

/-- Bias lanes down as difficulty climbs to the reference, even where VRAM could pack more. -/
def difficultyLaneBias (plannedLanes difficulty referenceDifficulty : ℤ)
    (fullPackRatio : ℚ := 7 / 20) : ℤ :=
  let planned := max 1 plannedLanes
  if planned ≤ 1 ∨ referenceDifficulty ≤ 0 ∨ difficulty ≤ 0 then planned
  else if referenceDifficulty ≤ difficulty then 1
  else
    let fullAt := max 1
      (pyInt (referenceDifficulty * max (1 / 20) (min (19 / 20) fullPackRatio)))
    if difficulty ≤ fullAt then planned
    else
      let span := referenceDifficulty - fullAt
      if span ≤ 0 then 1
      else shrinkLanes planned 1 (rampPosition difficulty fullAt span)

/-! ### Power -/

/-- `normalize_power_range` with its default band: target and floor, the floor not above the target. -/
def normalizePowerRange (targetPct minPct : ℤ) : ℤ × ℤ :=
  let target := clampInt targetPct 50 100
  let floor := clampInt minPct 50 100
  (target, if target < floor then target else floor)

theorem normalizePowerRange_spec (targetPct minPct : ℤ) :
    50 ≤ (normalizePowerRange targetPct minPct).2 ∧
      (normalizePowerRange targetPct minPct).2 ≤ (normalizePowerRange targetPct minPct).1 ∧
      (normalizePowerRange targetPct minPct).1 ≤ 100 := by
  unfold normalizePowerRange clampInt clamp
  dsimp only
  split_ifs <;> omega

/-- Power target against difficulty: full power at low difficulty, the floor from the full derate on. -/
def difficultyPowerTargetPct (baseTargetPct difficulty referenceDifficulty minPct : ℤ)
    (fullDerateRatio : ℚ) (lowDifficulty : ℤ) : ℤ :=
  let (target, floor) := normalizePowerRange baseTargetPct minPct
  if difficulty ≤ 0 ∨ referenceDifficulty ≤ 0 then target
  else
    let low := max 1 lowDifficulty
    let ref := max low referenceDifficulty
    let dif := max 1 difficulty
    if dif ≤ low then target
    else
      let ratio := if 1 < fullDerateRatio then fullDerateRatio else 2
      let high := max (ref + 1) (pyRound (ref * ratio))
      let mid := clampInt (pyRound (target - 7 / 20 * (target - floor))) floor target
      if dif ≤ ref then
        let span := ref - low
        let t := if 0 < span then rampPosition dif low span else 1
        clampInt (pyRound (target - t * (target - mid))) floor target
      else
        let span := high - ref
        let t := if 0 < span then rampPosition dif ref span else 1
        clampInt (pyRound (mid - t * (mid - floor))) floor target

/-! ### Control temperature -/

/-- Degrees added to the measured temperature at high difficulty. -/
def highDiffTempTightenC (difficulty referenceDifficulty : ℤ) (startRatio : ℚ := 3 / 2)
    (fullRatio : ℚ := 2) (maxTightenC : ℤ := 10) : ℤ :=
  if difficulty ≤ 0 ∨ referenceDifficulty ≤ 0 ∨ maxTightenC ≤ 0 then 0
  else
    let start : ℚ := referenceDifficulty * max 1 startRatio
    let full : ℚ := referenceDifficulty * max (startRatio + 1 / 100) fullRatio
    if (difficulty : ℚ) ≤ start then 0
    else if full ≤ (difficulty : ℚ) then maxTightenC
    else pyRound (clampFloat ((difficulty - start) / (full - start)) 0 1 * maxTightenC)

/-- Measured control temperature plus the high-difficulty heat proxy. -/
def effectiveControlTempC (measuredTempC difficulty referenceDifficulty : ℤ)
    (startRatio : ℚ := 3 / 2) (fullRatio : ℚ := 2) (maxTightenC : ℤ := 10) : ℤ :=
  if measuredTempC ≤ 0 then 0
  else measuredTempC
    + highDiffTempTightenC difficulty referenceDifficulty startRatio fullRatio maxTightenC

end XenMiner.ThermalPolicy
