import XenMiner.Mining.Equiv.Derate

/-!
# Lane caps and the split of the budget

A lane cap of two or more on a split plan gives every lane that stays its share of the whole budget, so
caps compose and the budget stays in use.  A cap of one keeps the batch of the old split
(`CudaVramPlan.Fit.applyLaneCap_eq`): `conc <= 1` means a sequential plan there.  When caps agree is
`capsLanes_iff`.

The planner and the start-up check take the share of a lane in two ways, attempts of the whole budget
divided by the lanes and attempts of the whole bytes of a share.  When they agree is
`accepts_planCudaBatch_iff`.
-/

namespace XenMiner.VramBatch

open PyNum

theorem fit_planCudaBatch_of_batch {a : PlanArgs} (hb : 0 < (planCudaBatch a).batchPerLane) :
    (planCudaBatch a).Fit := by
  have hd := difficulty_pos_of_batch hb
  have hraw := planCudaBatch_eq_rawPlan hd hb
  have hsized : (planCudaBatch a).Sized := by
    rw [hraw]
    exact CudaNativeBackend.rawPlan_sized hd
  refine fit_planCudaBatch hb hsized ?_
  rw [hraw]
  unfold CudaVramPlan.Split CudaVramPlan.SingleBuffer
  rw [PlanArgs.effectiveConcurrentVramLanes_rawPlan, PlanArgs.planConc]
  split_ifs
  · exact Or.inr rfl
  · exact Or.inl rfl

theorem split_planCudaBatch {a : PlanArgs} (hb : 0 < (planCudaBatch a).batchPerLane)
    (hpar : a.seqMode = false) : (planCudaBatch a).Split := by
  rw [planCudaBatch_eq_rawPlan (difficulty_pos_of_batch hb) hb]
  unfold CudaVramPlan.Split
  rw [PlanArgs.effectiveConcurrentVramLanes_rawPlan, PlanArgs.planConc, hpar]
  rfl

/-! ### What a lane cap gives -/

namespace CudaVramPlan

variable {p : CudaVramPlan} {k x y : ℤ}

/-- The batch a split plan has under a lane cap below its lanes. -/
def cappedBatch (p : CudaVramPlan) (k : ℤ) : ℤ := if k = 1 then p.batchPerLane else p.splitBatch k

/-- `_plan_projection` of `conc` resident batches. -/
def usedWith (p : CudaVramPlan) (batch conc : ℤ) : ℤ :=
  max 0 p.foreignUsedMib + estimateBatchVramBytes batch p.difficulty * conc / mibBytes
    + p.runtimeOverheadMib

theorem Fit.applyLaneCap_eq (hp : p.Fit) (hsplit : p.Split) (hk : 1 ≤ k) :
    VramBatch.applyLaneCap p k =
      if p.lanes ≤ k then p else p.resize (p.cappedBatch k) k p.totalMib k := by
  have hcap : max 1 k = k := max_eq_right hk
  unfold Split at hsplit
  unfold VramBatch.applyLaneCap
  dsimp only
  rw [hcap, hsplit]
  by_cases hdone : p.lanes ≤ k
  · rw [if_pos (Or.inl hdone), if_pos hdone]
  · rw [if_neg (by omega), if_neg hdone, min_eq_right (by omega)]
    unfold cappedBatch
    -- the clamp behind the cap has nothing to do: the plan without it fits already
    by_cases hone : k = 1
    · subst hone
      rw [if_pos le_rfl, if_pos rfl]
      have hfit : (p.resize p.batchPerLane 1 p.totalMib 1).Fit := by
        refine hp.resize ?_ (Or.inr rfl) hp.batch_pos (by omega)
        exact hp.sized.covers.mono hp.sized.difficulty_pos le_rfl le_rfl
          p.one_le_effectiveConcurrentVramLanes hp.sized.batch_nonneg le_rfl
      exact clampPlanToCaps_of_withinLimits hfit.within
    · rw [if_neg (by omega), if_neg hone]
      have hfit : (p.resize (p.splitBatch k) k p.totalMib k).Fit := by
        refine hp.resize ?_ (Or.inl rfl) ?_ (by omega)
        · exact hp.sized.covers_splitBatch hk le_rfl
        · exact hp.one_le_splitBatch hk (by omega)
      exact clampPlanToCaps_of_withinLimits hfit.within

theorem projectedUsedMib_resize (p : CudaVramPlan) {batch total : ℤ} (hk : 1 ≤ k) :
    (p.resize batch k total k).projectedUsedMib = p.usedWith batch k := by
  have hconc : max 1 (min k (max 1 k)) = k := by omega
  show max 0 p.foreignUsedMib + estimateBatchVramBytes batch p.difficulty
    * max 1 (min k (max 1 k)) / mibBytes + p.runtimeOverheadMib = _
  rw [hconc]
  rfl

theorem projectedHeadroomMib_resize (p : CudaVramPlan) {batch total : ℤ} (hk : 1 ≤ k) :
    (p.resize batch k total k).projectedHeadroomMib = max 0 (total - p.usedWith batch k) := by
  have hused : (p.resize batch k total k).projectedUsedMib = p.usedWith batch k :=
    p.projectedUsedMib_resize hk
  rw [← hused]
  rfl

/-- Two choices for the same lanes differ in the batch or in the headroom. -/
theorem resize_eq_resize_iff {b b' total total' : ℤ} (hk : 1 ≤ k) :
    p.resize b k total k = p.resize b' k total' k ↔
      b = b' ∧ max 0 (total - p.usedWith b k) = max 0 (total' - p.usedWith b k) := by
  constructor
  · intro h
    have hb : b = b' := congrArg batchPerLane h
    subst hb
    have hfree := congrArg projectedHeadroomMib h
    rw [p.projectedHeadroomMib_resize hk, p.projectedHeadroomMib_resize hk] at hfree
    exact ⟨rfl, hfree⟩
  · rintro ⟨rfl, hfree⟩
    rw [← p.projectedHeadroomMib_resize hk, ← p.projectedHeadroomMib_resize hk] at hfree
    unfold resize makePlan at hfree ⊢
    dsimp only at hfree ⊢
    rw [hfree]

/-- Fewer lanes of a split plan: the second cap starts from the first one's lanes and headroom. -/
theorem Fit.applyLaneCap_twice (hp : p.Fit) (hsplit : p.Split) (hy : 1 ≤ y) (hyx : y < x)
    (hx : x < p.lanes) :
    VramBatch.applyLaneCap (VramBatch.applyLaneCap p x) y = VramBatch.applyLaneCap p y ↔
      (y = 1 → p.splitBatch x = p.batchPerLane) ∧
        (p.usedWith (p.splitBatch x) x ≤ p.totalMib ∨
          p.usedWith (p.splitBatch x) x ≤ p.usedWith (p.cappedBatch y) y) := by
  have hfit := (hp.applyLaneCap (k := x)).1
  have hsplit' : (VramBatch.applyLaneCap p x).Split := applyLaneCap_shrunk.split hsplit
  have hcapx : p.cappedBatch x = p.splitBatch x := if_neg (by omega)
  have hq := hp.applyLaneCap_eq hsplit (k := x) (by omega)
  rw [if_neg (by omega), hcapx] at hq
  set q := VramBatch.applyLaneCap p x with hqdef
  have hqx : q.lanes = x := by
    rw [hq]
    rfl
  have hqtotal : q.totalMib = p.usedWith (p.splitBatch x) x
      + max 0 (p.totalMib - p.usedWith (p.splitBatch x) x) := by
    unfold totalMib
    rw [hq, p.projectedHeadroomMib_resize (by omega), p.projectedUsedMib_resize (by omega)]
    rfl
  have hqy := hfit.applyLaneCap_eq hsplit' hy
  rw [hqx, if_neg (by omega)] at hqy
  have hpy := hp.applyLaneCap_eq hsplit hy
  rw [if_neg (by omega)] at hpy
  have hresize : q.resize (q.cappedBatch y) y q.totalMib y =
      p.resize (q.cappedBatch y) y q.totalMib y := by
    rw [hq]
    rfl
  have hbatch : q.cappedBatch y = p.cappedBatch y ↔ (y = 1 → p.splitBatch x = p.batchPerLane) := by
    unfold cappedBatch
    rw [hq]
    split_ifs with hone
    · exact ⟨fun h _ => h, fun h => h hone⟩
    · exact ⟨fun _ h => absurd h hone, fun _ => rfl⟩
  rw [hqy, hpy, hresize, resize_eq_resize_iff hy, hbatch]
  refine and_congr_right fun hsame => ?_
  rw [hbatch.mpr hsame, hqtotal]
  omega

/-! ### What stays in use -/

/-- The lanes of `q` fill its budget up to one attempt and one byte each. -/
def FillsLanes (q : CudaVramPlan) : Prop :=
  (q.budgetBytes : ℚ) - q.lanes
    < ((q.batchPerLane : ℚ) + 1) * q.lanes * bytesPerAttempt q.difficulty

theorem splitBatch_eq_fitCount (hd : 0 < p.difficulty) (h : 1 ≤ p.splitBatch k) :
    p.splitBatch k = fitCount (p.budgetBytes / k) (bytesPerAttempt p.difficulty) := by
  unfold splitBatch at h ⊢
  rcases lt_or_ge (p.budgetBytes / k) 1 with hlow | hshare
  · rw [max_eq_left hlow.le, selectBatchSize_one hd] at h
    omega
  · rw [max_eq_right hshare] at h ⊢
    unfold selectBatchSize at h ⊢
    rw [memoryLimitedBatchSize_add_reserve hd (by omega)] at h ⊢
    dsimp only at h ⊢
    split_ifs at h ⊢ with hnone hzero
    · omega
    · exact absurd hzero (lt_irrefl _)
    · rfl

/-- The budget is shared again by two lanes or more. -/
theorem Fit.fillsLanes_split (hp : p.Fit) (hsplit : p.Split) (hk : 1 ≤ k) (hlt : k < p.lanes)
    (total : ℤ) : (p.resize (p.splitBatch k) k total k).FillsLanes := by
  have hd := hp.sized.difficulty_pos
  unfold Split at hsplit
  have hone := hp.one_le_splitBatch hk (by omega)
  have hmore := sub_lt_split_mul (B := p.budgetBytes) (bytesPerAttempt_pos hd)
    (lt_of_lt_of_le one_pos hk)
  rw [← splitBatch_eq_fitCount hd hone] at hmore
  show (p.budgetBytes : ℚ) - k < ((p.splitBatch k : ℚ) + 1) * k * bytesPerAttempt p.difficulty
  linarith

/-- A plan topped up to the attempts of its whole budget. -/
def ToppedUp (p : CudaVramPlan) : Prop :=
  p.batchPerLane = fitCount p.budgetBytes (bytesPerAttempt p.difficulty) / p.lanes

theorem Fit.fillsLanes (hp : p.Fit) (htop : p.ToppedUp) : p.FillsLanes := by
  have hlanes := hp.sized.lanes_pos
  have hmore := lt_shares_mul (B := p.budgetBytes) (bytesPerAttempt_pos hp.sized.difficulty_pos)
    (lt_of_lt_of_le one_pos hlanes)
  unfold ToppedUp at htop
  rw [← htop] at hmore
  have hpos : (0 : ℚ) < p.lanes := by exact_mod_cast hlanes
  unfold FillsLanes
  linarith

/-- One lane with the batch of the old split fills the budget only when that batch is one attempt and
there were two lanes. -/
theorem Fit.fillsLanes_one_iff (hp : p.Fit) (hsplit : p.Split) (hlt : 1 < p.lanes) (total : ℤ) :
    (p.resize p.batchPerLane 1 total 1).FillsLanes ↔
      p.lanes = 2 ∧ (p.budgetBytes : ℚ) < 2 * bytesPerAttempt p.difficulty + 1 := by
  have hd := hp.sized.difficulty_pos
  have hw := one_lt_bytesPerAttempt hd
  have hfits := hp.sized.fits
  have hb := hp.batch_pos
  unfold Split at hsplit
  rw [hsplit] at hfits
  set w := bytesPerAttempt p.difficulty with hwdef
  have hgoal : (p.resize p.batchPerLane 1 total 1).FillsLanes ↔
      (p.budgetBytes : ℚ) - 1 < ((p.batchPerLane : ℚ) + 1) * w := by
    show (p.budgetBytes : ℚ) - (1 : ℤ) < ((p.batchPerLane : ℚ) + 1) * (1 : ℤ) * w ↔ _
    rw [Int.cast_one, mul_one]
  rw [hgoal]
  constructor
  · intro hfill
    -- two attempts more than the lane has would already exceed the budget
    have hfew : p.lanes * p.batchPerLane < p.batchPerLane + 2 := by
      by_contra hmany
      have hmany' : ((p.batchPerLane : ℚ) + 2) * w ≤ p.lanes * p.batchPerLane * w := by
        refine mul_le_mul_of_nonneg_right ?_ (by linarith)
        exact_mod_cast not_lt.mp hmany
      linarith
    have htwo : p.lanes = 2 := by nlinarith
    have hone : p.batchPerLane = 1 := by
      rw [htwo] at hfew
      omega
    refine ⟨htwo, ?_⟩
    rw [hone] at hfill
    push_cast at hfill
    linarith
  · rintro ⟨htwo, hsmall⟩
    have hone : (1 : ℚ) ≤ p.batchPerLane := by exact_mod_cast hb
    have hle : 2 * w ≤ ((p.batchPerLane : ℚ) + 1) * w := by
      refine mul_le_mul_of_nonneg_right ?_ (by linarith)
      linarith
    linarith

end CudaVramPlan

/-- Without explicit limits the planner tops the batches up. -/
theorem toppedUp_planCudaBatch {a : PlanArgs} (hb : 0 < (planCudaBatch a).batchPerLane)
    (hpar : a.seqMode = false) (hmax : a.explicitMaxBatch ≤ 0) (hexp : a.explicitBatch ≤ 0) :
    (planCudaBatch a).ToppedUp := by
  have hd := difficulty_pos_of_batch hb
  have hraw := planCudaBatch_eq_rawPlan hd hb
  rw [hraw] at hb ⊢
  have hplan : a.planBatchPerLane = a.limitBatch a.fitPerLane :=
    PlanArgs.planBatchPerLane_eq hd (PlanArgs.baseBatchPerLane_pos hb)
  have hconc : a.planConc = a.planLanes := by
    rw [PlanArgs.planConc, hpar]
    rfl
  show a.planBatchPerLane = fitCount a.budgetBytes (bytesPerAttempt a.difficulty) / a.planLanes
  rw [hplan, PlanArgs.limitBatch, if_neg (not_lt.mpr hexp), if_neg (not_lt.mpr hmax),
    PlanArgs.fitPerLane, hconc]

/-! ### When caps agree -/

/-- Capping to `x` and then to `y` lanes is capping once, and the plan for `x` lanes has its lanes,
respects the limits and fills the budget. -/
def CapsLanes (p : CudaVramPlan) (x y : ℤ) : Prop :=
  applyLaneCap (applyLaneCap p x) y = applyLaneCap p (min x y) ∧
    (applyLaneCap p x).lanes = min p.lanes x ∧ (applyLaneCap p x).withinLimits = true ∧
      (applyLaneCap p x).FillsLanes

/-- The cap of one lane does no harm, and a second cap sees the same card. -/
def CapsAgree (p : CudaVramPlan) (x y : ℤ) : Prop :=
  (x = 1 → p.lanes = 1 ∨
      p.lanes = 2 ∧ (p.budgetBytes : ℚ) < 2 * bytesPerAttempt p.difficulty + 1) ∧
    (y < x → x < p.lanes → (y = 1 → p.splitBatch x = p.batchPerLane) ∧
      (p.usedWith (p.splitBatch x) x ≤ p.totalMib ∨
        p.usedWith (p.splitBatch x) x ≤ p.usedWith (p.cappedBatch y) y))

/-- **Caps compose and keep the budget in use exactly when a cap of one lane is not applied to a plan
with several.** -/
theorem capsLanes_iff (a : PlanArgs) (hpar : a.seqMode = false) (hmax : a.explicitMaxBatch ≤ 0)
    (hexp : a.explicitBatch ≤ 0) (hb : 0 < (planCudaBatch a).batchPerLane) {x y : ℤ} (hx : 1 ≤ x)
    (hy : 1 ≤ y) : CapsLanes (planCudaBatch a) x y ↔ CapsAgree (planCudaBatch a) x y := by
  have hfit := fit_planCudaBatch_of_batch hb
  have hsplit := split_planCudaBatch hb hpar
  have htop := toppedUp_planCudaBatch hb hpar hmax hexp
  set p := planCudaBatch a
  have hlanes := hfit.sized.lanes_pos
  obtain ⟨hfitx, hlanesx⟩ := hfit.applyLaneCap (k := x)
  have hexact : (applyLaneCap p x).lanes = min p.lanes x := by omega
  have heqx := hfit.applyLaneCap_eq hsplit hx
  have hfill : (applyLaneCap p x).FillsLanes ↔ (x = 1 → p.lanes = 1 ∨
      p.lanes = 2 ∧ (p.budgetBytes : ℚ) < 2 * bytesPerAttempt p.difficulty + 1) := by
    rw [heqx]
    split_ifs with hdone
    · exact ⟨fun _ hone => Or.inl (by omega), fun _ => hfit.fillsLanes htop⟩
    · rcases eq_or_ne x 1 with rfl | hone
      · rw [CudaVramPlan.cappedBatch, if_pos rfl, hfit.fillsLanes_one_iff hsplit (by omega)]
        exact ⟨fun h _ => Or.inr h, fun h => (h rfl).resolve_left (by omega)⟩
      · rw [CudaVramPlan.cappedBatch, if_neg hone]
        exact ⟨fun _ h => absurd h hone,
          fun _ => hfit.fillsLanes_split hsplit hx (by omega) _⟩
  have hpath : applyLaneCap (applyLaneCap p x) y = applyLaneCap p (min x y) ↔
      (y < x → x < p.lanes → (y = 1 → p.splitBatch x = p.batchPerLane) ∧
        (p.usedWith (p.splitBatch x) x ≤ p.totalMib ∨
          p.usedWith (p.splitBatch x) x ≤ p.usedWith (p.cappedBatch y) y)) := by
    rcases lt_or_ge y x with hyx | hxy
    · rw [min_eq_right hyx.le]
      rcases lt_or_ge x p.lanes with hlt | hge
      · rw [hfit.applyLaneCap_twice hsplit hy hyx hlt]
        exact ⟨fun h _ _ => h, fun h => h hyx hlt⟩
      · rw [heqx, if_pos hge]
        exact ⟨fun _ _ h => absurd h (not_lt.mpr hge), fun _ => rfl⟩
    -- the second cap is no smaller than the first
    · have hsame := hfitx.applyLaneCap_eq (applyLaneCap_shrunk.split hsplit) hy
      rw [if_pos (by omega)] at hsame
      rw [min_eq_left hxy, hsame]
      exact ⟨fun _ h => absurd h (not_lt.mpr hxy), fun _ => rfl⟩
  unfold CapsLanes CapsAgree
  rw [hpath, hfill]
  exact ⟨fun h => ⟨h.2.2.2, h.1⟩, fun h => ⟨h.2, hexact, hfitx.within, h.1⟩⟩

/-- A 32 GiB card at difficulty `300`: three lanes. -/
def threeLanes : PlanArgs where
  totalBytes := 32607 * mibBytes
  freeBytes := 29743 * mibBytes
  targetMib := 22528
  desktopHeadroomMib := 8192
  difficulty := 300
  referenceDifficulty := 1100
  packMode := "boost"

/-- Two caps on it that agree. -/
theorem capsLanes_iff_threeLanes : CapsLanes (planCudaBatch threeLanes) 2 5 ∧
    ¬CapsLanes (planCudaBatch threeLanes) 1 1 := by
  have hb : 0 < (planCudaBatch threeLanes).batchPerLane := by decide +kernel
  have hpar : threeLanes.seqMode = false := rfl
  constructor
  · rw [capsLanes_iff threeLanes hpar (by decide) (by decide) hb (by decide) (by decide)]
    exact ⟨fun h => absurd h (by decide), fun h => absurd h (by decide)⟩
  · rw [capsLanes_iff threeLanes hpar (by decide) (by decide) hb (by decide) (by decide)]
    rintro ⟨hone, -⟩
    rcases hone rfl with h | ⟨h, -⟩
    · exact absurd h (by decide +kernel)
    · exact absurd h (by decide +kernel)

/-- One lane of the three keeps its third of the budget, and capping by way of two lanes gives it a
half. -/
theorem capsLanes_fails : ¬CapsLanes (planCudaBatch threeLanes) 1 1 ∧
    applyLaneCap (applyLaneCap (planCudaBatch threeLanes) 2) 1
      ≠ applyLaneCap (planCudaBatch threeLanes) (min 2 1) := by
  constructor
  · rintro ⟨-, -, -, hfill⟩
    unfold CudaVramPlan.FillsLanes at hfill
    exact absurd hfill (by decide +kernel)
  · decide +kernel

end XenMiner.VramBatch

/-! ### The start-up check -/

namespace XenMiner.CudaNativeBackend

open PyNum VramBatch

/-- The start-up check passes the plan and the soft clamp keeps it. -/
def Accepts (s : CudaNativeBackend) (plan : CudaVramPlan) (difficulty : ℤ) : Prop :=
  s.verifyBatchFitsBudget plan difficulty = .ok () ∧ s.softClamp plan difficulty = plan

theorem accepts_iff {s : CudaNativeBackend} {plan : CudaVramPlan} {difficulty : ℤ}
    (hlimit : 0 < laneMemoryLimit plan difficulty)
    (hmax : 0 < s.settings.cudaMaxBatchSize → plan.batchPerLane ≤ s.settings.cudaMaxBatchSize) :
    s.Accepts plan difficulty ↔ plan.batchPerLane ≤ laneMemoryLimit plan difficulty := by
  unfold Accepts verifyBatchFitsBudget softClamp
  dsimp only
  constructor
  · rintro ⟨hverify, -⟩
    by_contra hbig
    have hlow : ¬(laneMemoryLimit plan difficulty < plan.batchPerLane ∧
        0 < laneMemoryLimit plan difficulty) ∨ 0 < s.settings.cudaMaxBatchSize := by
      by_contra hboth
      obtain ⟨hraise, hnone⟩ := not_or.mp hboth
      rw [if_neg hnone, if_pos (not_not.mp hraise)] at hverify
      cases hverify
    have hceiling : 0 < s.settings.cudaMaxBatchSize := hlow.resolve_left (by omega)
    rw [if_pos hceiling, if_pos (by have := hmax hceiling; omega)] at hverify
    cases hverify
  · intro hle
    constructor
    · rw [if_neg]
      split_ifs with hceiling
      · have := hmax hceiling
        omega
      · omega
    · rw [if_neg]
      split_ifs with hceiling
      · have := hmax hceiling.1
        omega
      · omega

end XenMiner.CudaNativeBackend

namespace XenMiner.VramBatch

open PyNum

/-- Every batch that the exact share of a lane holds, under the explicit limits, is held by the whole
bytes of the share. -/
def PlanArgs.SharesWhole (a : PlanArgs) : Prop :=
  ∀ n ∈ a.fittingBatches, (n : ℚ) * bytesPerAttempt a.difficulty ≤ (a.budgetBytes / a.planConc : ℤ)

/-- So it is for one lane, and for a budget the lanes divide. -/
theorem PlanArgs.sharesWhole_of_dvd {a : PlanArgs} (h : a.planConc ∣ a.budgetBytes) :
    a.SharesWhole := by
  intro n hn
  obtain ⟨share, hshare⟩ := h
  have hconc := one_le_planConc a
  have hpos : (0 : ℚ) < a.planConc := by exact_mod_cast hconc
  have hfits := hn.1
  rw [hshare] at hfits ⊢
  rw [Int.mul_ediv_cancel_left _ (by omega)]
  push_cast at hfits
  rw [mul_assoc] at hfits
  exact le_of_mul_le_mul_left hfits hpos

theorem laneMemoryLimit_planCudaBatch {a : PlanArgs} (hb : 0 < (planCudaBatch a).batchPerLane) :
    CudaNativeBackend.laneMemoryLimit (planCudaBatch a) a.difficulty =
        fitCount (a.budgetBytes / a.planConc) (bytesPerAttempt a.difficulty) ∧
      0 < CudaNativeBackend.laneMemoryLimit (planCudaBatch a) a.difficulty := by
  have hd := difficulty_pos_of_batch hb
  have hraw := planCudaBatch_eq_rawPlan hd hb
  rw [hraw] at hb ⊢
  have hbase : 0 < a.baseBatchPerLane := PlanArgs.baseBatchPerLane_pos hb
  have hshare := PlanArgs.one_lt_perLaneBudget hd hbase
  rw [PlanArgs.perLaneBudget_eq] at hshare
  have hlimit : CudaNativeBackend.laneMemoryLimit a.rawPlan a.difficulty =
      fitCount (a.budgetBytes / a.planConc) (bytesPerAttempt a.difficulty) := by
    unfold CudaNativeBackend.laneMemoryLimit
    dsimp only
    rw [PlanArgs.effectiveConcurrentVramLanes_rawPlan, max_eq_right (PlanArgs.one_le_planConc a),
      show a.rawPlan.budgetBytes = a.budgetBytes from rfl, max_eq_right (by omega),
      memoryLimitedBatchSize_add_reserve hd (by omega)]
  refine ⟨hlimit, ?_⟩
  rw [hlimit]
  have hsel := PlanArgs.baseBatchPerLane_le_select a
  have hfit := selectBatchSize_le_fitCount a.explicitMaxBatch hd (lt_trans one_pos hshare)
  rw [PlanArgs.perLaneBudget_eq] at hsel
  rw [max_eq_right (by omega)] at hsel hfit
  omega

/-- **The start-up check accepts the planner's plan, and the soft clamp keeps it, exactly when no batch
falls between the exact share of a lane and its whole bytes.** -/
theorem accepts_planCudaBatch_iff (s : CudaNativeBackend) (a : PlanArgs)
    (hmax : a.explicitMaxBatch = s.settings.cudaMaxBatchSize)
    (hb : 0 < (planCudaBatch a).batchPerLane) :
    s.Accepts (planCudaBatch a) a.difficulty ↔ a.SharesWhole := by
  have hd := difficulty_pos_of_batch hb
  have hw := bytesPerAttempt_pos hd
  have hraw := planCudaBatch_eq_rawPlan hd hb
  obtain ⟨hlimit, hpos⟩ := laneMemoryLimit_planCudaBatch hb
  have hbatch : (planCudaBatch a).batchPerLane = a.planBatchPerLane := by
    rw [hraw]
    rfl
  rw [hbatch] at hb
  obtain ⟨hmem, hgreatest⟩ := PlanArgs.isGreatest_planBatchPerLane hd hb
  rw [CudaNativeBackend.accepts_iff hpos, hlimit, hbatch, le_fitCount_iff hw]
  · constructor
    · intro hle n hn
      have hn' : (n : ℚ) ≤ a.planBatchPerLane := by exact_mod_cast hgreatest hn
      exact (mul_le_mul_of_nonneg_right hn' hw.le).trans hle
    · exact fun hall => hall _ hmem
  · intro hceiling
    rw [hbatch]
    rw [← hmax] at hceiling ⊢
    exact hmem.2.1 hceiling

/-- A budget of `1001` MiB over five lanes: `1024` attempts of `205004.8` bytes are exactly a lane's
share of it. -/
def fiveLanes : PlanArgs where
  totalBytes := 32607 * mibBytes
  freeBytes := 29743 * mibBytes
  targetMib := 3049
  desktopHeadroomMib := 8192
  difficulty := 200
  referenceDifficulty := 1100
  packMode := "boost"

/-- At difficulty `250` four lanes divide that budget. -/
theorem accepts_planCudaBatch_iff_fourLanes :
    (CudaNativeBackend.create {} true 8).Accepts
      (planCudaBatch { fiveLanes with difficulty := 250 }) 250 := by
  have hb : 0 < (planCudaBatch { fiveLanes with difficulty := 250 }).batchPerLane := by
    decide +kernel
  refine (accepts_planCudaBatch_iff (CudaNativeBackend.create {} true 8)
    { fiveLanes with difficulty := 250 } rfl hb).mpr (PlanArgs.sharesWhole_of_dvd ?_)
  decide +kernel

/-- The planner tops the batch up to `1024`, and the check raises for more than `1023`. -/
theorem accepts_fails : 0 < (planCudaBatch fiveLanes).batchPerLane ∧
    (CudaNativeBackend.create {} true 8).verifyBatchFitsBudget (planCudaBatch fiveLanes) 200
      = .error (.exceedsCap 1024 1023 200 5 5) ∧
    (CudaNativeBackend.create {} true 8).softClamp (planCudaBatch fiveLanes) 200
      ≠ planCudaBatch fiveLanes := by
  refine ⟨by decide +kernel, ?_, by decide +kernel⟩
  decide +kernel

end XenMiner.VramBatch
