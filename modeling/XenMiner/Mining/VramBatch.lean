import XenMiner.Lib.Binary64
import XenMiner.Lib.PyStr

/-!
# `mining/vram_batch.py`: sizing CUDA batches from the VRAM caps

The planner turns a device reading and the caps of `miner.ini` into a `CudaVramPlan`: a number of
lanes and a batch per lane.  `planCudaBatch` sizes the batch for the lanes that are resident at
once (`concurrentVramLanes`: all of them in parallel mode, one in sequential mode), and
`clampPlanToCaps` and `applyLaneCap` shrink a plan afterwards.

Integers are unbounded.  Every definition that computes with floats takes the rounding `rnd` of a
float operation: with `Binary64.round` it computes the source's doubles, with `id`, its default, exact
rationals.  Then one attempt weighs `difficulty · 1024 · 1.001` bytes exactly, which is more than in
doubles: `1024000` attempts at difficulty `1` fill `1001` MiB, and in doubles a byte less.
-/

namespace XenMiner.VramBatch

open PyNum

/-- Bytes the engine subtracts from free memory before it sizes a batch. -/
def cudaEngineReserveBytes : ℤ := 100 * 1024 * 1024

/-- `BYTES_PER_ATTEMPT_FACTOR`. -/
def bytesPerAttemptFactor : ℚ := 1001 / 1000

/-- Driver and context memory not counted by the batch estimate. -/
def defaultCudaRuntimeOverheadMib : ℤ := 2048

/-- Attempts each lane keeps when lanes are packed. -/
def defaultMinBatchPerLane : ℤ := 2048

/-- Hard ceiling on the number of lanes. -/
def defaultAbsoluteMaxLanes : ℤ := 32

/-- Bytes in one MiB. -/
def mibBytes : ℤ := 1024 * 1024

def clampFillFraction (value : ℚ) (rnd : ℚ → ℚ := id) : ℚ := clamp (rnd value) (rnd (2 / 5)) 1

/-! ### Pack modes -/

/-- The pack modes the planner tells apart; every other text of `miner.ini` packs like `fill`. -/
inductive PackMode
  | fill
  | boost
  | coverage
  deriving DecidableEq, Repr

/-- `(pack_mode or "fill").strip().lower()`, and the tests the planner makes on the result. -/
def PackMode.ofText (text : String) : PackMode :=
  let mode := PyStr.lower (PyStr.strip (PyStr.orElse text "fill"))
  if mode = "boost" then .boost
  else if mode = "coverage" ∨ mode = "prefixes" ∨ mode = "sweep" then .coverage
  else .fill

/-! ### Plans -/

/-- Batch choice tied to configured VRAM limits. -/
structure CudaVramPlan where
  batchSize : ℤ
  lanes : ℤ
  batchPerLane : ℤ
  laneReserve : ℤ
  budgetBytes : ℤ
  budgetMib : ℤ
  batchVramBytes : ℤ
  batchVramMib : ℤ
  usedBeforeMib : ℤ
  projectedUsedMib : ℤ
  projectedHeadroomMib : ℤ
  runtimeOverheadMib : ℤ
  targetMib : ℤ
  effectiveTargetMib : ℤ
  vramScale : ℚ
  desktopHeadroomMib : ℤ
  difficulty : ℤ
  foreignUsedMib : ℤ
  concurrentVramLanes : ℤ
  deriving DecidableEq, Repr

/-- How many lane batches sit in VRAM at once. -/
def CudaVramPlan.effectiveConcurrentVramLanes (p : CudaVramPlan) : ℤ :=
  if 0 < p.concurrentVramLanes then max 1 (min p.concurrentVramLanes (max 1 p.lanes))
  else max 1 p.lanes

/-- The projection respects both caps of `miner.ini`. -/
def CudaVramPlan.withinLimits (p : CudaVramPlan) : Bool :=
  p.projectedUsedMib ≤ p.targetMib && p.desktopHeadroomMib ≤ p.projectedHeadroomMib

def CudaVramPlan.fillsBudget (p : CudaVramPlan) (toleranceMib : ℤ) : Bool :=
  |p.batchVramMib - p.budgetMib| ≤ toleranceMib

/-! ### Batch sizes -/

def bytesPerAttempt (difficulty : ℤ) (rnd : ℚ → ℚ := id) : ℚ :=
  rnd (rnd (rnd difficulty * 1024) * rnd bytesPerAttemptFactor)

/-- Attempts that fit beside the engine's reserve (`hashapi::estimateCudaMemoryBatchLimit`). -/
def memoryLimitedBatchSize (freeVramBytes difficulty : ℤ) (rnd : ℚ → ℚ := id) : ℤ :=
  if difficulty ≤ 0 ∨ freeVramBytes ≤ cudaEngineReserveBytes then 0
  else
    let available := rnd (freeVramBytes - cudaEngineReserveBytes)
    let perAttempt := bytesPerAttempt difficulty rnd
    if perAttempt ≤ 0 then 0 else pyInt (rnd (available / perAttempt))

/-- `select_batch_size` with `fill_vram_cap=True`, as every caller in the planner passes it. -/
def selectBatchSize (budgetBytes difficulty explicitMaxBatch : ℤ) (rnd : ℚ → ℚ := id) : ℤ :=
  let memoryLimit := memoryLimitedBatchSize (budgetBytes + cudaEngineReserveBytes) difficulty rnd
  if memoryLimit ≤ 0 then 0
  else if 0 < explicitMaxBatch then min memoryLimit explicitMaxBatch
  else memoryLimit

/-- Approximate footprint of one lane's batch. -/
def estimateBatchVramBytes (batchSize difficulty : ℤ) (rnd : ℚ → ℚ := id) : ℤ :=
  if batchSize ≤ 0 ∨ difficulty ≤ 0 then 0
  else pyInt (rnd (rnd batchSize * bytesPerAttempt difficulty rnd))

/-- Lane count of the parallel planner: one lane from the reference difficulty on, more below. -/
def cudaLaneCount (difficulty referenceDifficulty maxLanes budgetBytes minBatchPerLane : ℤ)
    (packMode : PackMode) (rnd : ℚ → ℚ := id) : ℤ :=
  if maxLanes ≤ 1 ∨ referenceDifficulty ≤ 0 ∨ difficulty ≤ 0 then 1
  else if referenceDifficulty ≤ difficulty then 1
  else
    let cap := max 1 (min maxLanes defaultAbsoluteMaxLanes)
    let minBpl := max 1 minBatchPerLane
    let boost := max 1 (referenceDifficulty / difficulty)
    if packMode = .boost ∨ budgetBytes ≤ 0 then max 1 (min cap boost)
    else
      let totalAttempts := memoryLimitedBatchSize (budgetBytes + cudaEngineReserveBytes) difficulty rnd
      if totalAttempts ≤ 0 then 1
      else max 1 (min cap (max boost (max 1 (totalAttempts / minBpl))))

/-- Bytes the caps leave to the batch beside foreign usage, CUDA overhead and safety margin. -/
def vramCapBatchBudgetBytes (totalBytes targetMib desktopHeadroomMib runtimeOverheadMib
    foreignUsedMib safetyMarginMib : ℤ) : ℤ :=
  let totalMib := totalBytes / mibBytes
  let foreign := max 0 foreignUsedMib
  let overhead := max 0 runtimeOverheadMib + max 0 safetyMarginMib
  let capBatchMib := max 0 (targetMib - foreign - overhead)
  let headroomLimitedMib := max 0 (totalMib - desktopHeadroomMib - foreign - overhead)
  min capBatchMib headroomLimitedMib * mibBytes

/-- Estimate of the VRAM other programs hold, from a live reading. -/
def estimateForeignVramMib (usedMib batchVramMib runtimeOverheadMib desktopBaselineMib : ℤ) : ℤ :=
  let minerish := max 0 batchVramMib + max 0 runtimeOverheadMib
  max (max 0 desktopBaselineMib) (max 0 (max 0 usedMib - minerish))

/-! ### Building a plan -/

/-- `_make_plan` with `_plan_projection` inlined: the record of a choice and its projection. -/
def makePlan (batchPerLane lanes laneReserve budgetBytes budgetMib usedBeforeMib runtimeOverheadMib
    targetMib effectiveTargetMib desktopHeadroomMib difficulty foreignUsedMib totalMib
    concurrentVramLanes : ℤ) (rnd : ℚ → ℚ := id) : CudaVramPlan :=
  let conc := max 1 (min concurrentVramLanes (max 1 lanes))
  let batchVramBytes := estimateBatchVramBytes batchPerLane difficulty rnd * conc
  let batchVramMib := batchVramBytes / mibBytes
  let projectedUsedMib := max 0 foreignUsedMib + batchVramMib + runtimeOverheadMib
  { batchSize := batchPerLane
    lanes := lanes
    batchPerLane := batchPerLane
    laneReserve := laneReserve
    budgetBytes := budgetBytes
    budgetMib := budgetMib
    batchVramBytes := batchVramBytes
    batchVramMib := batchVramMib
    usedBeforeMib := usedBeforeMib
    projectedUsedMib := projectedUsedMib
    projectedHeadroomMib := max 0 (totalMib - projectedUsedMib)
    runtimeOverheadMib := runtimeOverheadMib
    targetMib := targetMib
    effectiveTargetMib := effectiveTargetMib
    vramScale := 1
    desktopHeadroomMib := desktopHeadroomMib
    difficulty := difficulty
    foreignUsedMib := foreignUsedMib
    concurrentVramLanes := conc }

/-- `_make_plan` with the fields of `p` and a new batch, lane count and concurrency, as the two
shrinking passes call it. -/
def CudaVramPlan.resize (p : CudaVramPlan) (batchPerLane lanes totalMib conc : ℤ)
    (rnd : ℚ → ℚ := id) : CudaVramPlan :=
  makePlan batchPerLane lanes p.laneReserve p.budgetBytes p.budgetMib p.usedBeforeMib
    p.runtimeOverheadMib p.targetMib p.effectiveTargetMib p.desktopHeadroomMib p.difficulty
    p.foreignUsedMib totalMib conc rnd

/-- The card size the shrinking passes reconstruct from a plan. -/
def CudaVramPlan.totalMib (p : CudaVramPlan) : ℤ := p.projectedUsedMib + p.projectedHeadroomMib

/-- The batch of one lane when the plan's budget is split over `conc` resident lanes. -/
def CudaVramPlan.splitBatch (p : CudaVramPlan) (conc : ℤ) (rnd : ℚ → ℚ := id) : ℤ :=
  selectBatchSize (max 1 (p.budgetBytes / conc)) p.difficulty 0 rnd

/-- The loop of `clamp_plan_to_caps`; `fuel` is the `range(10_000)` of the source. -/
def clampLoop (p : CudaVramPlan) (fuel : ℕ) (lanes batchPerLane conc : ℤ) (rnd : ℚ → ℚ := id) :
    CudaVramPlan :=
  match fuel with
  | 0 => p
  | fuel + 1 =>
    let candidate := p.resize batchPerLane lanes p.totalMib conc rnd
    if candidate.withinLimits then candidate
    else if 1 < batchPerLane then
      clampLoop p fuel lanes (max 1 (pyInt (rnd (rnd batchPerLane * rnd (49 / 50))))) conc rnd
    else if 1 < lanes ∧ 1 < conc then
      -- parallel only: drop a lane and split the budget again
      let lanes' := lanes - 1
      let conc' := min conc lanes'
      clampLoop p fuel lanes' (p.splitBatch conc' rnd) conc' rnd
    else p

/-- Shrink batch and lanes until the projection fits the caps. -/
def clampPlanToCaps (p : CudaVramPlan) (rnd : ℚ → ℚ := id) : CudaVramPlan :=
  if p.withinLimits then p
  else clampLoop p 10000 p.lanes p.batchPerLane p.effectiveConcurrentVramLanes rnd

/-- Force a plan down to at most `maxLanes` lanes. -/
def applyLaneCap (p : CudaVramPlan) (maxLanes : ℤ) (rnd : ℚ → ℚ := id) : CudaVramPlan :=
  let cap := max 1 maxLanes
  if p.lanes ≤ cap ∨ p.lanes ≤ 1 then p
  else
    let conc := min p.effectiveConcurrentVramLanes cap
    let batchPerLane := if conc ≤ 1 then p.batchPerLane else p.splitBatch conc rnd
    clampPlanToCaps (p.resize batchPerLane cap p.totalMib conc rnd) rnd

/-! ### `plan_cuda_batch` -/

/-- The arguments of `plan_cuda_batch`, with its defaults. -/
structure PlanArgs where
  totalBytes : ℤ
  freeBytes : ℤ
  targetMib : ℤ
  desktopHeadroomMib : ℤ
  difficulty : ℤ
  referenceDifficulty : ℤ
  maxLanes : ℤ := 8
  laneReserve : ℤ := 1
  explicitBatch : ℤ := 0
  explicitMaxBatch : ℤ := 0
  runtimeOverheadMib : ℤ := defaultCudaRuntimeOverheadMib
  minBatchPerLane : ℤ := defaultMinBatchPerLane
  packMode : String := "fill"
  foreignUsedMib : ℤ := 0
  safetyMarginMib : ℤ := 0
  concurrentVramLanes : Option ℤ := none
  budgetFillFraction : ℚ := 1

namespace PlanArgs

variable (a : PlanArgs)

/-- The batch budget under the caps, before the fill fraction. -/
def capBudgetBytes : ℤ :=
  vramCapBatchBudgetBytes a.totalBytes a.targetMib a.desktopHeadroomMib
    (max 0 a.runtimeOverheadMib) (max 0 a.foreignUsedMib) (max 0 a.safetyMarginMib)

/-- The batch budget: the full cap budget, or the configured fraction of it. -/
def budgetBytes (rnd : ℚ → ℚ := id) : ℤ :=
  let fill := clampFillFraction a.budgetFillFraction rnd
  if fill < rnd (999 / 1000) then max 1 (pyInt (rnd (rnd a.capBudgetBytes * fill)))
  else a.capBudgetBytes

/-- One resident buffer: the caller asked for sequential multi-prefix lanes. -/
def seqMode : Bool :=
  match a.concurrentVramLanes with
  | none => false
  | some c => decide (c ≤ 1)

/-- Lane count of the sequential planner: lanes only multiply key prefixes there. -/
def sequentialLanes (rnd : ℚ → ℚ := id) : ℤ :=
  let cap := max 1 (min a.maxLanes defaultAbsoluteMaxLanes)
  if a.referenceDifficulty ≤ a.difficulty then 1
  else if PackMode.ofText a.packMode = .coverage then
    let boost := if 0 < a.difficulty ∧ 0 < a.referenceDifficulty then
      max 1 (a.referenceDifficulty / a.difficulty) else 1
    max 1 (min cap (max boost cap))
  else if a.difficulty ≤ 150 then
    min cap (max 1 (a.budgetBytes rnd / max 1 a.minBatchPerLane))
  else 1

def planLanes (rnd : ℚ → ℚ := id) : ℤ :=
  if a.seqMode then a.sequentialLanes rnd
  else cudaLaneCount a.difficulty a.referenceDifficulty (max 1 a.maxLanes) (a.budgetBytes rnd)
    a.minBatchPerLane (PackMode.ofText a.packMode) rnd

/-- Resident lane batches of the plan. -/
def planConc (rnd : ℚ → ℚ := id) : ℤ := if a.seqMode then 1 else a.planLanes rnd

def perLaneBudget (rnd : ℚ → ℚ := id) : ℤ :=
  if a.seqMode then max 1 (a.budgetBytes rnd)
  else max 1 (a.budgetBytes rnd / max 1 (a.planConc rnd))

/-- The explicit limits of `miner.ini` (`0` means unused) on a batch per lane. -/
def limitBatch (batch : ℤ) : ℤ :=
  let b := if 0 < a.explicitMaxBatch then min batch a.explicitMaxBatch else batch
  if 0 < a.explicitBatch then min b a.explicitBatch else b

/-- Batch per lane before the top-up. -/
def baseBatchPerLane (rnd : ℚ → ℚ := id) : ℤ :=
  let maxBatchPerLane :=
    selectBatchSize (a.perLaneBudget rnd) a.difficulty a.explicitMaxBatch rnd
  if maxBatchPerLane ≤ 0 then 0
  else if 0 < a.explicitBatch then min a.explicitBatch maxBatchPerLane
  else maxBatchPerLane

/-- Batch per lane after topping up the integer remainder of the split. -/
def planBatchPerLane (rnd : ℚ → ℚ := id) : ℤ :=
  let batch := a.baseBatchPerLane rnd
  if 0 < batch ∧ 0 < a.budgetBytes rnd then
    let perAttempt := bytesPerAttempt a.difficulty rnd
    if 0 < perAttempt then
      let maxTotalAttempts := pyInt (rnd (rnd (a.budgetBytes rnd) / perAttempt))
      max batch (a.limitBatch (maxTotalAttempts / max 1 (a.planConc rnd)))
    else batch
  else batch

/-- The plan of `plan_cuda_batch` before its final clamp. -/
def rawPlan (rnd : ℚ → ℚ := id) : CudaVramPlan :=
  makePlan (a.planBatchPerLane rnd) (a.planLanes rnd)
    (max 0 (min a.laneReserve (max 0 (a.planLanes rnd - 1)))) (a.budgetBytes rnd)
    (a.budgetBytes rnd / mibBytes)
    (max 0 ((a.totalBytes - a.freeBytes) / mibBytes))
    (max 0 a.runtimeOverheadMib + max 0 a.safetyMarginMib) a.targetMib a.targetMib
    a.desktopHeadroomMib a.difficulty (max 0 a.foreignUsedMib) (a.totalBytes / mibBytes)
    (a.planConc rnd) rnd

end PlanArgs

/-- Size CUDA batch and lanes from the VRAM caps. -/
def planCudaBatch (a : PlanArgs) (rnd : ℚ → ℚ := id) : CudaVramPlan :=
  clampPlanToCaps (a.rawPlan rnd) rnd

end XenMiner.VramBatch
