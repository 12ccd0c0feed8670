import XenMiner.Lib.BoundedSearch
import XenMiner.Mining.Equiv.VramBatch

/-!
# When the clamp loop is sound and complete

The sizes that `clamp_plan_to_caps` tries follow from the plan alone (`nextSize`), and the loop is a
search for the first one within what it takes for the limits (`clampLoop_eq`).  These are wider than
those of the card on which the plan was made: the loop reconstructs the card from the plan, whose
headroom is not negative even where the plan exceeds the card, and a headroom cap of zero or below is
always met.  So a size is sought that takes at most `loopRoomMib`, where `gpuRoomMib` would be right
(`gpuRoomMib_le_loopRoomMib`), and among the first 10,000 sizes only.

The sizes and their weights are those of the source's doubles.
-/

namespace XenMiner.VramBatch

open PyNum BoundedSearch

/-- What varies in the loop. -/
structure LaneSize where
  lanes : ℤ
  batchPerLane : ℤ
  conc : ℤ
  deriving DecidableEq

namespace CudaVramPlan

variable (p : CudaVramPlan)

/-- The size the loop starts with. -/
def firstSize : LaneSize where
  lanes := p.lanes
  batchPerLane := p.batchPerLane
  conc := p.effectiveConcurrentVramLanes

/-- The size the loop tries next. -/
def nextSize (z : LaneSize) : Option LaneSize :=
  if 1 < z.batchPerLane then
    some
      { z with
        batchPerLane :=
          max 1 (pyInt (Binary64.round (Binary64.round z.batchPerLane * Binary64.round (49 / 50)))) }
  else if 1 < z.lanes ∧ 1 < z.conc then
    some
      { lanes := z.lanes - 1
        batchPerLane := p.splitBatch (min z.conc (z.lanes - 1)) Binary64.round
        conc := min z.conc (z.lanes - 1) }
  else none

/-- The plan of a size on a card. -/
def sized (totalMib : ℤ) (z : LaneSize) : CudaVramPlan :=
  p.resize z.batchPerLane z.lanes totalMib z.conc Binary64.round

/-- What a size takes. -/
def usedMib (z : LaneSize) : ℤ := (p.sized 0 z).projectedUsedMib

/-- One lane with one attempt. -/
def oneAttempt : LaneSize where
  lanes := 1
  batchPerLane := 1
  conc := 1

/-- What the caps leave of a card. -/
def gpuRoomMib (totalMib : ℤ) : ℤ := min p.targetMib (totalMib - p.desktopHeadroomMib)

/-- What they leave in the eyes of the loop. -/
def loopRoomMib : ℤ :=
  if p.desktopHeadroomMib ≤ 0 then p.targetMib else p.gpuRoomMib p.totalMib

theorem sized_withinLimits_iff {z : LaneSize} :
    (p.sized p.totalMib z).withinLimits = true ↔ p.usedMib z ≤ p.loopRoomMib := by
  rw [withinLimits_iff]
  show p.usedMib z ≤ p.targetMib ∧ p.desktopHeadroomMib ≤ max 0 (p.totalMib - p.usedMib z) ↔ _
  unfold loopRoomMib gpuRoomMib
  split_ifs <;> omega

instance (room : ℤ) : DecidablePred fun z : LaneSize => p.usedMib z ≤ room := fun z =>
  inferInstanceAs (Decidable (p.usedMib z ≤ room))

/-- The loop is a search for a size that fits. -/
theorem clampLoop_eq (fuel : ℕ) (z : LaneSize) :
    clampLoop p fuel z.lanes z.batchPerLane z.conc Binary64.round =
      (search p.nextSize (fun z => p.usedMib z ≤ p.loopRoomMib) fuel z).elim p (p.sized p.totalMib) := by
  induction fuel generalizing z with
  | zero => rfl
  | succ fuel ih =>
    rw [clampLoop, search]
    have hfits : (p.resize z.batchPerLane z.lanes p.totalMib z.conc Binary64.round).withinLimits = true ↔
      p.usedMib z ≤ p.loopRoomMib := p.sized_withinLimits_iff
    by_cases hroom : p.usedMib z ≤ p.loopRoomMib
    · rw [if_pos (hfits.mpr hroom), if_pos hroom]
      rfl
    · rw [if_neg (mt hfits.mp hroom), if_neg hroom]
      by_cases hbatch : 1 < z.batchPerLane
      · rw [if_pos hbatch, nextSize, if_pos hbatch]
        exact ih
          { z with
            batchPerLane :=
              max 1 (pyInt (Binary64.round (Binary64.round z.batchPerLane * Binary64.round (49 / 50)))) }
      · by_cases hlanes : 1 < z.lanes ∧ 1 < z.conc
        · rw [if_neg hbatch, if_pos hlanes, nextSize, if_neg hbatch, if_pos hlanes]
          exact ih
            { lanes := z.lanes - 1
              batchPerLane := p.splitBatch (min z.conc (z.lanes - 1)) Binary64.round
              conc := min z.conc (z.lanes - 1) }
        · rw [if_neg hbatch, if_neg hlanes, nextSize, if_neg hbatch, if_neg hlanes]
          rfl

/-- A plan that was shrunk to the caps on a card respects them there, or one attempt breaks them. -/
structure IsClampOf (totalMib : ℤ) (q : CudaVramPlan) : Prop where
  sound : q.withinLimits = true →
    q.projectedUsedMib ≤ p.targetMib ∧ p.desktopHeadroomMib ≤ totalMib - q.projectedUsedMib
  complete : q.withinLimits = false →
    ¬ ((p.sized totalMib oneAttempt).projectedUsedMib ≤ p.targetMib ∧
      p.desktopHeadroomMib ≤ totalMib - (p.sized totalMib oneAttempt).projectedUsedMib)

theorem le_gpuRoomMib_iff {totalMib n : ℤ} :
    n ≤ p.gpuRoomMib totalMib ↔ n ≤ p.targetMib ∧ p.desktopHeadroomMib ≤ totalMib - n := by
  rw [gpuRoomMib]
  omega

variable {p}

theorem isClampOf_iff {totalMib : ℤ} {q : CudaVramPlan} : p.IsClampOf totalMib q ↔
    (q.withinLimits = true → q.projectedUsedMib ≤ p.gpuRoomMib totalMib) ∧
      (q.withinLimits = false → p.gpuRoomMib totalMib < p.usedMib oneAttempt) := by
  rw [← not_le, le_gpuRoomMib_iff, le_gpuRoomMib_iff]
  exact ⟨fun h => ⟨h.sound, h.complete⟩, fun h => ⟨h.1, h.2⟩⟩

/-- A size without a next one takes no more than one attempt. -/
theorem usedMib_le_of_nextSize_eq_none {z : LaneSize} (hz : p.nextSize z = none) :
    p.usedMib z ≤ p.usedMib oneAttempt := by
  unfold nextSize at hz
  split_ifs at hz with hbatch hlanes
  have hconc : max 1 (min z.conc (max 1 z.lanes)) = 1 := by omega
  have hbytes : estimateBatchVramBytes z.batchPerLane p.difficulty Binary64.round ≤
      estimateBatchVramBytes 1 p.difficulty Binary64.round := by
    rcases (not_lt.mp hbatch).lt_or_eq with hlt | heq
    · have hzero : estimateBatchVramBytes z.batchPerLane p.difficulty Binary64.round = 0 :=
        if_pos (Or.inl (by omega))
      rw [hzero]
      exact estimateBatchVramBytes_nonneg 1 p.difficulty Binary64.round
    · rw [heq]
  have hmib := Int.ediv_le_ediv mibBytes_pos hbytes
  show max 0 p.foreignUsedMib + estimateBatchVramBytes z.batchPerLane p.difficulty Binary64.round *
      max 1 (min z.conc (max 1 z.lanes)) / mibBytes + p.runtimeOverheadMib ≤
    max 0 p.foreignUsedMib + estimateBatchVramBytes 1 p.difficulty Binary64.round * 1 / mibBytes +
      p.runtimeOverheadMib
  rw [hconc, mul_one, mul_one]
  omega

/-- Where the loop is right: no size between the two rooms comes before the sizes that fit the card, and
the sizes are not cut off before them. -/
structure ScheduleFits (p : CudaVramPlan) (totalMib : ℤ) : Prop where
  between_rooms : ∀ k < 10000, ∀ z, iter p.nextSize k p.firstSize = some z →
    p.gpuRoomMib totalMib < p.usedMib z → p.usedMib z ≤ p.loopRoomMib →
      ∃ j < k, ∃ y, iter p.nextSize j p.firstSize = some y ∧ p.usedMib y ≤ p.gpuRoomMib totalMib
  not_cut_off : p.usedMib oneAttempt ≤ p.gpuRoomMib totalMib →
    iter p.nextSize 10000 p.firstSize = none ∨
      ∃ k < 10000, ∃ z, iter p.nextSize k p.firstSize = some z ∧ p.usedMib z ≤ p.gpuRoomMib totalMib

end CudaVramPlan

/-! ### Plans that were built for a card -/

section MakePlan

variable (b l r B Bm u o t et h d f T c : ℤ)

/-- The first size is that of the plan. -/
theorem usedMib_firstSize_makePlan :
    (makePlan b l r B Bm u o t et h d f T c Binary64.round).usedMib
        (makePlan b l r B Bm u o t et h d f T c Binary64.round).firstSize =
      (makePlan b l r B Bm u o t et h d f T c Binary64.round).projectedUsedMib := by
  have hconc : max 1 (min (max 1 (min c (max 1 l))) (max 1 l)) = max 1 (min c (max 1 l)) := by omega
  have hfirst : (makePlan b l r B Bm u o t et h d f T c Binary64.round).firstSize =
      { lanes := l, batchPerLane := b, conc := max 1 (min c (max 1 l)) } := by
    rw [CudaVramPlan.firstSize, makePlan_effectiveConcurrentVramLanes]
    rfl
  rw [hfirst]
  show max 0 f + estimateBatchVramBytes b d Binary64.round *
      max 1 (min (max 1 (min c (max 1 l))) (max 1 l)) / mibBytes + o =
    max 0 f + estimateBatchVramBytes b d Binary64.round * max 1 (min c (max 1 l)) / mibBytes + o
  rw [hconc]

/-- The card as the loop sees it is as large as the plan at least. -/
theorem totalMib_makePlan : (makePlan b l r B Bm u o t et h d f T c Binary64.round).totalMib =
    max (makePlan b l r B Bm u o t et h d f T c Binary64.round).projectedUsedMib T := by
  show _ + max 0 (T - (makePlan b l r B Bm u o t et h d f T c Binary64.round).projectedUsedMib) = _
  omega

/-- The loop never takes the limits for tighter than they are. -/
theorem gpuRoomMib_le_loopRoomMib : (makePlan b l r B Bm u o t et h d f T c Binary64.round).gpuRoomMib T ≤
    (makePlan b l r B Bm u o t et h d f T c Binary64.round).loopRoomMib := by
  have htotal := totalMib_makePlan b l r B Bm u o t et h d f T c
  unfold CudaVramPlan.loopRoomMib CudaVramPlan.gpuRoomMib
  split_ifs <;> omega

/-- It takes them for what they are if the plan is within the card and some headroom is asked for. -/
theorem loopRoomMib_eq_gpuRoomMib (hh : 0 < h)
    (hused : (makePlan b l r B Bm u o t et h d f T c Binary64.round).projectedUsedMib ≤ T) :
    (makePlan b l r B Bm u o t et h d f T c Binary64.round).loopRoomMib =
      (makePlan b l r B Bm u o t et h d f T c Binary64.round).gpuRoomMib T := by
  have htotal : (makePlan b l r B Bm u o t et h d f T c Binary64.round).totalMib = T :=
    (totalMib_makePlan b l r B Bm u o t et h d f T c).trans (max_eq_right hused)
  rw [CudaVramPlan.loopRoomMib, makePlan_desktopHeadroomMib, if_neg hh.not_ge, htotal]

theorem withinLimits_makePlan_iff :
    (makePlan b l r B Bm u o t et h d f T c Binary64.round).withinLimits = true ↔
    (makePlan b l r B Bm u o t et h d f T c Binary64.round).projectedUsedMib ≤
      (makePlan b l r B Bm u o t et h d f T c Binary64.round).loopRoomMib := by
  have htotal := totalMib_makePlan b l r B Bm u o t et h d f T c
  rw [CudaVramPlan.withinLimits_iff]
  show _ ∧ _ ≤ max 0 (T - (makePlan b l r B Bm u o t et h d f T c Binary64.round).projectedUsedMib) ↔ _
  unfold CudaVramPlan.loopRoomMib CudaVramPlan.gpuRoomMib
  split_ifs <;> omega

theorem clampPlanToCaps_of_search_eq_some {z : LaneSize}
    (hz : search (makePlan b l r B Bm u o t et h d f T c Binary64.round).nextSize
      (fun z => (makePlan b l r B Bm u o t et h d f T c Binary64.round).usedMib z ≤
        (makePlan b l r B Bm u o t et h d f T c Binary64.round).loopRoomMib) 10000
      (makePlan b l r B Bm u o t et h d f T c Binary64.round).firstSize = some z) :
    (clampPlanToCaps (makePlan b l r B Bm u o t et h d f T c Binary64.round)
        Binary64.round).withinLimits = true ∧
      (clampPlanToCaps (makePlan b l r B Bm u o t et h d f T c Binary64.round)
        Binary64.round).projectedUsedMib =
        (makePlan b l r B Bm u o t et h d f T c Binary64.round).usedMib z := by
  have hlimits := withinLimits_makePlan_iff b l r B Bm u o t et h d f T c
  have hused := usedMib_firstSize_makePlan b l r B Bm u o t et h d f T c
  generalize makePlan b l r B Bm u o t et h d f T c Binary64.round = p at *
  obtain ⟨k, -, hfirst⟩ := search_eq_some_iff.mp hz
  by_cases hp : p.withinLimits = true
  · rw [clampPlanToCaps_of_withinLimits hp]
    have hgood : p.usedMib p.firstSize ≤ p.loopRoomMib := hused ▸ hlimits.mp hp
    obtain ⟨-, rfl⟩ := hfirst.eq_of_isFirst (isFirst_zero_iff.mpr ⟨rfl, hgood⟩)
    exact ⟨hp, hused.symm⟩
  · have hclamp : clampPlanToCaps p Binary64.round = p.sized p.totalMib z := by
      rw [clampPlanToCaps, if_neg hp]
      exact (p.clampLoop_eq 10000 p.firstSize).trans (congrArg (Option.elim · p _) hz)
    rw [hclamp]
    exact ⟨p.sized_withinLimits_iff.mpr hfirst.meets, rfl⟩

theorem clampPlanToCaps_of_search_eq_none
    (hz : search (makePlan b l r B Bm u o t et h d f T c Binary64.round).nextSize
      (fun z => (makePlan b l r B Bm u o t et h d f T c Binary64.round).usedMib z ≤
        (makePlan b l r B Bm u o t et h d f T c Binary64.round).loopRoomMib) 10000
      (makePlan b l r B Bm u o t et h d f T c Binary64.round).firstSize = none) :
    (clampPlanToCaps (makePlan b l r B Bm u o t et h d f T c Binary64.round)
      Binary64.round).withinLimits = false := by
  have hlimits := withinLimits_makePlan_iff b l r B Bm u o t et h d f T c
  have hused := usedMib_firstSize_makePlan b l r B Bm u o t et h d f T c
  generalize makePlan b l r B Bm u o t et h d f T c Binary64.round = p at *
  have hp : ¬ p.withinLimits = true := by
    intro hp
    exact search_eq_none_iff.mp hz 0 (by norm_num) p.firstSize rfl (hused ▸ hlimits.mp hp)
  have hclamp : clampPlanToCaps p Binary64.round = p := by
    rw [clampPlanToCaps, if_neg hp]
    exact (p.clampLoop_eq 10000 p.firstSize).trans (congrArg (Option.elim · p _) hz)
  rw [hclamp]
  exact Bool.not_eq_true _ ▸ hp

/-- On a card that the plan does not exceed, with some headroom asked for, the rooms are the same. -/
theorem scheduleFits_iff_of_le (hh : 0 < h)
    (hused : (makePlan b l r B Bm u o t et h d f T c Binary64.round).projectedUsedMib ≤ T) :
    (makePlan b l r B Bm u o t et h d f T c Binary64.round).ScheduleFits T ↔
      ((makePlan b l r B Bm u o t et h d f T c Binary64.round).usedMib CudaVramPlan.oneAttempt ≤
          (makePlan b l r B Bm u o t et h d f T c Binary64.round).gpuRoomMib T →
        iter (makePlan b l r B Bm u o t et h d f T c Binary64.round).nextSize 10000
            (makePlan b l r B Bm u o t et h d f T c Binary64.round).firstSize = none ∨
          ∃ k < 10000, ∃ z,
            iter (makePlan b l r B Bm u o t et h d f T c Binary64.round).nextSize k
                (makePlan b l r B Bm u o t et h d f T c Binary64.round).firstSize = some z ∧
              (makePlan b l r B Bm u o t et h d f T c Binary64.round).usedMib z ≤
                (makePlan b l r B Bm u o t et h d f T c Binary64.round).gpuRoomMib T) := by
  have hrooms := loopRoomMib_eq_gpuRoomMib b l r B Bm u o t et h d f T c hh hused
  generalize makePlan b l r B Bm u o t et h d f T c Binary64.round = p at *
  constructor
  · exact fun hfits => hfits.not_cut_off
  · intro hcut
    exact ⟨fun _ _ _ _ hgpu hloop => absurd (hrooms ▸ hloop) hgpu.not_ge, hcut⟩

end MakePlan

end XenMiner.VramBatch
