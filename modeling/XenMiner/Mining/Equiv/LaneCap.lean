import XenMiner.Mining.Equiv.VramBatch

/-!
# Shrinking a plan keeps it inside its budget

`clampPlanToCaps` and `applyLaneCap` turn a plan into a smaller one (`CudaVramPlan.Shrunk`): the
difficulty and the budget stay, a plan whose resident batches fit the budget still fits
(`CudaVramPlan.Sized`), and the number of resident batches keeps its meaning, all lanes of a split
plan (`CudaVramPlan.Split`) and one buffer of a sequential one (`CudaVramPlan.SingleBuffer`).
-/

namespace XenMiner.VramBatch

open PyNum

namespace CudaVramPlan

/-- The resident batches of the plan, weighed exactly, stay inside its budget. -/
structure Sized (p : CudaVramPlan) : Prop where
  difficulty_pos : 0 < p.difficulty
  lanes_pos : 1 ≤ p.lanes
  batch_nonneg : 0 ≤ p.batchPerLane
  budget_nonneg : 0 ≤ p.budgetBytes
  fits : (p.effectiveConcurrentVramLanes : ℚ) * p.batchPerLane * bytesPerAttempt p.difficulty
    ≤ p.budgetBytes

/-- The budget is split over all lanes. -/
def Split (p : CudaVramPlan) : Prop := p.effectiveConcurrentVramLanes = p.lanes

/-- The budget is sized for a single resident batch. -/
def SingleBuffer (p : CudaVramPlan) : Prop := p.effectiveConcurrentVramLanes = 1

instance (p : CudaVramPlan) : Decidable p.SingleBuffer := inferInstanceAs (Decidable (_ = _))

/-- `q` is `p` with fewer lanes or a smaller batch. -/
structure Shrunk (p q : CudaVramPlan) : Prop where
  difficulty_eq : q.difficulty = p.difficulty
  sized : p.Sized → q.Sized
  split : p.Split → q.Split
  single : p.SingleBuffer → q.SingleBuffer

theorem Shrunk.refl (p : CudaVramPlan) : p.Shrunk p := ⟨rfl, id, id, id⟩

theorem Shrunk.trans {p q r : CudaVramPlan} (hpq : p.Shrunk q) (hqr : q.Shrunk r) : p.Shrunk r where
  difficulty_eq := hqr.difficulty_eq.trans hpq.difficulty_eq
  sized h := hqr.sized (hpq.sized h)
  split h := hqr.split (hpq.split h)
  single h := hqr.single (hpq.single h)

/-! ### Resizing -/

section Resize

variable {p : CudaVramPlan} {batch lanes total conc : ℤ}

@[simp]
theorem resize_difficulty : (p.resize batch lanes total conc).difficulty = p.difficulty := rfl

@[simp]
theorem resize_lanes : (p.resize batch lanes total conc).lanes = lanes := rfl

theorem effectiveConcurrentVramLanes_resize (h1 : 1 ≤ conc) (hle : conc ≤ lanes) :
    (p.resize batch lanes total conc).effectiveConcurrentVramLanes = conc := by
  unfold resize
  rw [makePlan_effectiveConcurrentVramLanes]
  omega

/-- A choice of lanes, batch and concurrency that the budget of `p` covers. -/
def Covers (p : CudaVramPlan) (lanes batch conc : ℤ) : Prop :=
  1 ≤ conc ∧ conc ≤ lanes ∧ 0 ≤ batch ∧
    (conc : ℚ) * batch * bytesPerAttempt p.difficulty ≤ p.budgetBytes

theorem Sized.resize (hp : p.Sized) (h : p.Covers lanes batch conc) :
    (p.resize batch lanes total conc).Sized := by
  obtain ⟨hconc, hle, hbatch, hfits⟩ := h
  refine ⟨hp.difficulty_pos, ?_, hbatch, hp.budget_nonneg, ?_⟩
  · exact hconc.trans hle
  · rw [effectiveConcurrentVramLanes_resize hconc hle]
    exact hfits

theorem Sized.covers (hp : p.Sized) :
    p.Covers p.lanes p.batchPerLane p.effectiveConcurrentVramLanes := by
  refine ⟨p.one_le_effectiveConcurrentVramLanes, ?_, hp.batch_nonneg, hp.fits⟩
  have hle := p.effectiveConcurrentVramLanes_le
  have hlanes := hp.lanes_pos
  omega

/-- Fewer resident batches, or smaller ones, are covered too. -/
theorem Covers.mono {lanes' batch' conc' : ℤ} (hd : 0 < p.difficulty)
    (h : p.Covers lanes batch conc) (hconc : 1 ≤ conc') (hle : conc' ≤ lanes')
    (hcc : conc' ≤ conc) (hbatch : 0 ≤ batch') (hbb : batch' ≤ batch) :
    p.Covers lanes' batch' conc' := by
  have hw := bytesPerAttempt_pos hd
  refine ⟨hconc, hle, hbatch, ?_⟩
  apply mul_le_budget_of_le hw (by omega) hbb
  exact mul_le_budget_of_shares_le hw h.2.2.1 hcc h.2.2.2

/-- Splitting the budget again covers any number of lanes. -/
theorem Sized.covers_splitBatch (hp : p.Sized) (hconc : 1 ≤ conc) (hle : conc ≤ lanes) :
    p.Covers lanes (p.splitBatch conc) conc := by
  refine ⟨hconc, hle, selectBatchSize_nonneg _ _ _, ?_⟩
  unfold splitBatch
  by_cases hshare : 1 ≤ p.budgetBytes / conc
  · rw [max_eq_right hshare]
    have hw := bytesPerAttempt_pos hp.difficulty_pos
    have hsel := selectBatchSize_le_fitCount 0 hp.difficulty_pos
      (lt_of_lt_of_le one_pos hshare)
    exact mul_le_budget_of_le hw (by omega) hsel (mul_fitCount_ediv_le hw (by omega))
  · rw [max_eq_left (by omega), selectBatchSize_one hp.difficulty_pos, Int.cast_zero, mul_zero,
      zero_mul]
    exact_mod_cast hp.budget_nonneg

/-- Resizing shrinks a plan when the budget covers the choice and the concurrency keeps its
meaning. -/
theorem resize_shrunk (hconc : 1 ≤ conc) (hle : conc ≤ lanes)
    (hcovers : p.Sized → p.Covers lanes batch conc) (hsplit : p.Split → conc = lanes)
    (hsingle : p.SingleBuffer → conc = 1) : p.Shrunk (p.resize batch lanes total conc) where
  difficulty_eq := rfl
  sized hp := hp.resize (hcovers hp)
  split hp := (effectiveConcurrentVramLanes_resize hconc hle).trans (hsplit hp)
  single hp := (effectiveConcurrentVramLanes_resize hconc hle).trans (hsingle hp)

end Resize

end CudaVramPlan

/-! ### `clamp_plan_to_caps` -/

section Clamp

variable {p : CudaVramPlan}

/-- The cut of the loop lowers a batch of more than one attempt. -/
theorem cutBatch_le {batch : ℤ} (h : 1 < batch) : max 1 (pyInt (batch * (49 / 50))) ≤ batch := by
  have hpos : (0 : ℚ) ≤ batch := by exact_mod_cast (by omega : 0 ≤ batch)
  have hcut : (pyInt (batch * (49 / 50)) : ℚ) ≤ batch * (49 / 50) :=
    pyInt_le (mul_nonneg hpos (by norm_num))
  have hle : (pyInt (batch * (49 / 50)) : ℚ) ≤ batch := by linarith
  have hle' : pyInt (batch * (49 / 50)) ≤ batch := by exact_mod_cast hle
  omega

theorem clampLoop_sized (hp : p.Sized) {lanes batch conc : ℤ} (h : p.Covers lanes batch conc)
    (fuel : ℕ) : (clampLoop p fuel lanes batch conc).Sized := by
  refine clampLoop_rule (I := p.Covers) hp ?_ ?_ ?_ fuel lanes batch conc h
  · intro lanes batch conc hI
    exact hp.resize hI
  · intro lanes batch conc hI hbatch
    exact hI.mono hp.difficulty_pos hI.1 hI.2.1 le_rfl (by omega) (cutBatch_le hbatch)
  · intro lanes batch conc _ hlanes hconc
    exact hp.covers_splitBatch (by omega) (by omega)

theorem clampLoop_split (hp : p.Split) {lanes batch : ℤ} (hlanes : 1 ≤ lanes) (fuel : ℕ) :
    (clampLoop p fuel lanes batch lanes).Split := by
  refine clampLoop_rule (P := CudaVramPlan.Split) (I := fun l _ c => 1 ≤ l ∧ c = l) hp ?_ ?_ ?_
    fuel lanes batch lanes ⟨hlanes, rfl⟩
  · rintro lanes batch conc ⟨h1, rfl⟩
    exact CudaVramPlan.effectiveConcurrentVramLanes_resize h1 le_rfl
  · rintro lanes batch conc hI -
    exact hI
  · rintro lanes batch conc ⟨h1, rfl⟩ hlanes -
    exact ⟨by omega, by omega⟩

/-- With one resident batch the clamp only ever cuts the batch. -/
theorem clampLoop_single (hp : p.SingleBuffer) (hlanes : 1 ≤ p.lanes) {batch : ℤ} (fuel : ℕ) :
    (clampLoop p fuel p.lanes batch 1).SingleBuffer ∧
      (clampLoop p fuel p.lanes batch 1).lanes = p.lanes := by
  refine clampLoop_rule (P := fun q => q.SingleBuffer ∧ q.lanes = p.lanes)
    (I := fun l _ c => l = p.lanes ∧ c = 1) ⟨hp, rfl⟩ ?_ ?_ ?_ fuel p.lanes batch 1 ⟨rfl, rfl⟩
  · rintro lanes batch conc ⟨rfl, rfl⟩
    exact ⟨CudaVramPlan.effectiveConcurrentVramLanes_resize le_rfl hlanes, rfl⟩
  · rintro lanes batch conc hI -
    exact hI
  · rintro lanes batch conc ⟨-, rfl⟩ - hconc
    omega

theorem clampLoop_difficulty (fuel : ℕ) (lanes batch conc : ℤ) :
    (clampLoop p fuel lanes batch conc).difficulty = p.difficulty := by
  refine clampLoop_rule (P := fun q => q.difficulty = p.difficulty) (I := fun _ _ _ => True) rfl ?_
    ?_ ?_ fuel lanes batch conc trivial
  · intro lanes batch conc _
    rfl
  · intros
    trivial
  · intros
    trivial

theorem clampPlanToCaps_shrunk (hlanes : 1 ≤ p.lanes) : p.Shrunk (clampPlanToCaps p) := by
  unfold clampPlanToCaps
  split_ifs
  · exact CudaVramPlan.Shrunk.refl p
  · refine ⟨clampLoop_difficulty _ _ _ _, fun hp => ?_, fun hp => ?_, fun hp => ?_⟩
    · exact clampLoop_sized hp hp.covers _
    · rw [hp]
      exact clampLoop_split hp hlanes _
    · rw [hp]
      exact (clampLoop_single hp hlanes _).1

theorem clampPlanToCaps_lanes (hp : p.SingleBuffer) (hlanes : 1 ≤ p.lanes) :
    (clampPlanToCaps p).lanes = p.lanes := by
  unfold clampPlanToCaps
  split_ifs
  · rfl
  · rw [hp]
    exact (clampLoop_single hp hlanes _).2

/-- The clamp only drops lanes. -/
theorem clampPlanToCaps_lanes_le : (clampPlanToCaps p).lanes ≤ p.lanes := by
  unfold clampPlanToCaps
  split_ifs
  · exact le_rfl
  · refine clampLoop_rule (P := fun q => q.lanes ≤ p.lanes) (I := fun lanes _ _ => lanes ≤ p.lanes)
      le_rfl ?_ ?_ ?_ _ _ _ _ le_rfl
    · intro lanes batch conc hle
      exact hle
    · intro lanes batch conc hle _
      exact hle
    · intro lanes batch conc hle _ _
      omega

end Clamp

/-! ### `apply_lane_cap` -/

section LaneCap

variable {p : CudaVramPlan} {k : ℤ}

theorem applyLaneCap_shrunk : p.Shrunk (applyLaneCap p k) := by
  have heff := p.one_le_effectiveConcurrentVramLanes
  simp only [applyLaneCap]
  split_ifs with hcap hconc
  · exact CudaVramPlan.Shrunk.refl p
  -- one buffer stays resident: the batch is kept
  · refine (CudaVramPlan.resize_shrunk (by omega) (by omega) ?_ ?_ ?_).trans
      (clampPlanToCaps_shrunk (le_max_left _ _))
    · intro hp
      exact hp.covers.mono hp.difficulty_pos (by omega) (by omega) (by omega) hp.batch_nonneg le_rfl
    · unfold CudaVramPlan.Split
      omega
    · unfold CudaVramPlan.SingleBuffer
      omega
  -- several buffers: the budget is split over the lanes that are left
  · refine (CudaVramPlan.resize_shrunk (by omega) (by omega) ?_ ?_ ?_).trans
      (clampPlanToCaps_shrunk (le_max_left _ _))
    · intro hp
      exact hp.covers_splitBatch (by omega) (by omega)
    · unfold CudaVramPlan.Split
      omega
    · unfold CudaVramPlan.SingleBuffer
      omega

/-- No plan of several lanes exceeds the cap put on it. -/
theorem applyLaneCap_lanes_le (hmany : 1 < p.lanes) : (applyLaneCap p k).lanes ≤ max 1 k := by
  simp only [applyLaneCap]
  split_ifs with hcap hconc
  · omega
  · exact clampPlanToCaps_lanes_le
  · exact clampPlanToCaps_lanes_le

/-- A lane cap on a single-buffer plan is exact. -/
theorem applyLaneCap_lanes (hp : p.SingleBuffer) (hlanes : 1 ≤ p.lanes) :
    (applyLaneCap p k).lanes = min p.lanes (max 1 k) := by
  simp only [applyLaneCap]
  split_ifs with hcap hconc
  · omega
  · unfold CudaVramPlan.SingleBuffer at hp
    rw [clampPlanToCaps_lanes]
    · rw [CudaVramPlan.resize_lanes]
      omega
    · unfold CudaVramPlan.SingleBuffer
      rw [CudaVramPlan.effectiveConcurrentVramLanes_resize (by omega) (by omega)]
      omega
    · exact le_max_left _ _
  · unfold CudaVramPlan.SingleBuffer at hp
    omega

end LaneCap

end XenMiner.VramBatch
