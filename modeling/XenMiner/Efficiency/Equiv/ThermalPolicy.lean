import XenMiner.Efficiency.ThermalPolicy

/-!
# Derate curves

Every curve of `efficiency/thermal_policy.py` is one formula, its branches being the clamped ends of
a ramp.  The VRAM scale is `1` less a drop that grows from the target to the emergency limit
(`vramPressureScale_eq`); the lane curves are `shrinkLanes` of how far a reading has come on its way
(`progress`), and fall as it climbs.
-/

namespace XenMiner.ThermalPolicy

open PyNum

/-! ### Ramps -/

theorem clampFloat_floor_mem (minScale : ℚ) :
    1 / 2 ≤ clampFloat minScale (1 / 2) 1 ∧ clampFloat minScale (1 / 2) 1 ≤ 1 :=
  ⟨le_clamp _ _ _, clamp_le (by norm_num)⟩

theorem clampFloat_of_le {x lo hi : ℚ} (h : x ≤ lo) (hlo : lo ≤ hi) : clampFloat x lo hi = lo := by
  unfold clampFloat clamp
  rw [min_eq_right (h.trans hlo), max_eq_left h]

theorem clampFloat_of_ge {x lo hi : ℚ} (h : hi ≤ x) (hlo : lo ≤ hi) : clampFloat x lo hi = hi := by
  unfold clampFloat clamp
  rw [min_eq_left h, max_eq_right hlo]

/-- Scaling down from `1` by a position on a ramp stays between floor and `1`. -/
theorem clampFloat_one_sub {t floor : ℚ} (ht0 : 0 ≤ t) (ht1 : t ≤ 1) (hfloor : floor ≤ 1) :
    clampFloat (1 - t * (1 - floor)) floor 1 = 1 - t * (1 - floor) := by
  have hdrop : 0 ≤ t * (1 - floor) := mul_nonneg ht0 (by linarith)
  have hlow : t * (1 - floor) ≤ 1 * (1 - floor) := mul_le_mul_of_nonneg_right ht1 (by linarith)
  exact clamp_eq_self (by linarith) (by linarith)

/-! ### VRAM pressure -/

/-- What a reading takes off the full VRAM scale. -/
def pressureDrop (usedMib targetMib emergencyMib : ℤ) (minScale : ℚ) : ℚ :=
  let target := max 1 targetMib
  clampFloat ((max 0 usedMib - target : ℤ) / (max (target + 1) emergencyMib - target : ℤ)) 0 1
    * (1 - clampFloat minScale (1 / 2) 1)

theorem pressureDrop_of_le {used target emergency : ℤ} {minScale : ℚ} (h : used ≤ target) :
    pressureDrop used target emergency minScale = 0 := by
  have hnum : ((max 0 used - max 1 target : ℤ) : ℚ) ≤ 0 := by
    exact_mod_cast (by omega : max 0 used - max 1 target ≤ 0)
  have hden : (0 : ℚ) ≤ (max (max 1 target + 1) emergency - max 1 target : ℤ) := by
    exact_mod_cast (by omega : 0 ≤ max (max 1 target + 1) emergency - max 1 target)
  unfold pressureDrop
  dsimp only
  rw [clampFloat_of_le (div_nonpos_of_nonpos_of_nonneg hnum hden) zero_le_one, zero_mul]

/-- The three branches of the VRAM scale are one formula. -/
theorem vramPressureScale_eq (used target emergency : ℤ) (minScale : ℚ) :
    vramPressureScale used target emergency minScale
      = 1 - pressureDrop used target emergency minScale := by
  have hfloor := (clampFloat_floor_mem minScale).2
  unfold vramPressureScale pressureDrop
  dsimp only [id_eq]
  rw [max_self, add_zero]
  generalize clampFloat minScale (1 / 2) 1 = floor at hfloor ⊢
  generalize htarget : max 1 target = t
  generalize hemerg : max (t + 1) emergency = e
  generalize hused : max 0 used = u
  have hspan : (0 : ℚ) < (e - t : ℤ) := by
    exact_mod_cast (by omega : 0 < e - t)
  split_ifs with hlow hhigh hempty
  · have hneg : ((u - t : ℤ) : ℚ) ≤ 0 := by exact_mod_cast (by omega : u - t ≤ 0)
    rw [clampFloat_of_le (div_nonpos_of_nonpos_of_nonneg hneg hspan.le) zero_le_one]
    ring
  · have hge : ((e - t : ℤ) : ℚ) ≤ (u - t : ℤ) := by exact_mod_cast (by omega : e - t ≤ u - t)
    rw [clampFloat_of_ge ((one_le_div hspan).mpr hge) zero_le_one]
    ring
  · omega
  · have hpos : (0 : ℚ) ≤ (u - t : ℤ) := by exact_mod_cast (by omega : 0 ≤ u - t)
    have hle : ((u - t : ℤ) : ℚ) ≤ (e - t : ℤ) := by exact_mod_cast (by omega : u - t ≤ e - t)
    have h0 := div_nonneg hpos hspan.le
    have h1 := (div_le_one hspan).mpr hle
    rw [clampFloat_one_sub h0 h1 hfloor]
    congr 2
    exact (clamp_eq_self h0 h1).symm

/-- However its operations round, the VRAM scale is between its floor and `1`. -/
theorem vramPressureScale_mem (used target emergency : ℤ) (minScale : ℚ) (slack : ℤ) (rnd : ℚ → ℚ) :
    clampFloat (rnd minScale) (1 / 2) 1 ≤ vramPressureScale used target emergency minScale slack rnd ∧
      vramPressureScale used target emergency minScale slack rnd ≤ 1 := by
  have hfloor := (clampFloat_floor_mem (rnd minScale)).2
  unfold vramPressureScale
  dsimp only
  split_ifs
  · exact ⟨hfloor, le_rfl⟩
  · exact ⟨le_rfl, hfloor⟩
  · exact ⟨le_rfl, hfloor⟩
  · exact ⟨le_clamp _ _ _, clamp_le hfloor⟩

theorem vramPressureScale_of_le {used target : ℤ} (h : used ≤ target) (emergency : ℤ) (minScale : ℚ)
    (rnd : ℚ → ℚ) : vramPressureScale used target emergency minScale 0 rnd = 1 := by
  have hlow : max 0 used ≤ max 1 target + max 0 0 := by omega
  exact if_pos hlow

/-- At the target and below there is no VRAM lane cap. -/
theorem vramPressureLaneCap_of_le {used target : ℤ} (h : used ≤ target)
    (planned emergency minLanes : ℤ) :
    vramPressureLaneCap planned used target emergency minLanes = max 1 planned := by
  unfold vramPressureLaneCap
  dsimp only
  rw [vramPressureScale_eq, pressureDrop_of_le h, sub_zero]
  split_ifs with hfew hfull
  · rfl
  · rfl
  · norm_num at hfull

/-! ### Progress -/

/-- How far `x` has come from `start` to `hard`, as a fraction. -/
def progress (x start hard : ℤ) : ℚ := if hard ≤ x then 1 else rampPosition x start (hard - start)

theorem progress_nonneg (x start hard : ℤ) : 0 ≤ progress x start hard := by
  unfold progress
  split_ifs
  · exact zero_le_one
  · exact le_clamp _ _ _

theorem progress_le_one (x start hard : ℤ) : progress x start hard ≤ 1 := by
  unfold progress
  split_ifs
  · exact le_rfl
  · exact clamp_le zero_le_one

theorem rampPosition_mono {x y start span : ℤ} (hspan : 0 ≤ span) (h : x ≤ y) :
    rampPosition x start span ≤ rampPosition y start span := by
  have hspan' : (0 : ℚ) ≤ span := by exact_mod_cast hspan
  have hxy : (x : ℚ) ≤ y := by exact_mod_cast h
  exact clamp_mono (div_le_div_of_nonneg_right (by linarith) hspan')

theorem progress_mono {x y start hard : ℤ} (hstart : start ≤ hard) (h : x ≤ y) :
    progress x start hard ≤ progress y start hard := by
  by_cases hend : hard ≤ y
  · have hy : progress y start hard = 1 := if_pos hend
    rw [hy]
    exact progress_le_one x start hard
  · unfold progress
    rw [if_neg (by omega), if_neg hend]
    exact rampPosition_mono (by omega) h

theorem progress_of_ge {x start hard : ℤ} (h : hard ≤ x) : progress x start hard = 1 := if_pos h

theorem progress_of_le {x start hard : ℤ} (hstart : start < hard) (h : x ≤ start) :
    progress x start hard = 0 := by
  have hnum : ((x : ℚ) - start) ≤ 0 := by
    have : (x : ℚ) ≤ start := by exact_mod_cast h
    linarith
  have hspan : (0 : ℚ) ≤ ((hard - start : ℤ) : ℚ) := by exact_mod_cast (by omega : 0 ≤ hard - start)
  unfold progress
  rw [if_neg (by omega)]
  exact clampFloat_of_le (div_nonpos_of_nonpos_of_nonneg hnum hspan) zero_le_one

/-! ### Lanes -/

section Lanes

variable {planned planned' floor : ℤ} {x y : ℚ}

theorem shrinkLanes_zero (h : floor ≤ planned) : shrinkLanes planned floor 0 = planned := by
  unfold shrinkLanes
  rw [zero_mul, sub_zero, pyRound_intCast]
  exact clamp_eq_self h le_rfl

theorem shrinkLanes_one (h : floor ≤ planned) : shrinkLanes planned floor 1 = floor := by
  unfold shrinkLanes
  rw [one_mul, sub_sub_cancel, pyRound_intCast]
  exact clamp_eq_self le_rfl h

theorem shrinkLanes_le (h : floor ≤ planned) (t : ℚ) : shrinkLanes planned floor t ≤ planned :=
  clamp_le h

/-- Further along the ramp there are no more lanes. -/
theorem shrinkLanes_anti (h : floor ≤ planned) (hxy : x ≤ y) :
    shrinkLanes planned floor y ≤ shrinkLanes planned floor x := by
  have hgap : (0 : ℚ) ≤ planned - floor := by
    have : (floor : ℚ) ≤ planned := by exact_mod_cast h
    linarith
  have hprod := mul_le_mul_of_nonneg_right hxy hgap
  exact clamp_mono (pyRound_mono (by linarith))

/-- Planning fewer lanes leaves no more. -/
theorem shrinkLanes_mono (h : planned ≤ planned') (hx : x ≤ 1) :
    shrinkLanes planned floor x ≤ shrinkLanes planned' floor x := by
  have hplanned : (planned : ℚ) ≤ planned' := by exact_mod_cast h
  have hprod := mul_le_mul_of_nonneg_right hx (sub_nonneg.mpr hplanned)
  have hround : pyRound (planned - x * (planned - floor))
      ≤ pyRound (planned' - x * (planned' - floor)) := pyRound_mono (by linarith)
  exact max_le_max le_rfl (min_le_min h hround)

end Lanes

/-! ### Heat -/

section Heat

variable {temp temp' : ℤ} (warn hard cool start : ℤ)

/-- Below the hard limit a ramp is as far as its fraction says. -/
theorem progress_eq_div {x start hard : ℤ} (hstart : start < x) (hhard : x < hard) :
    progress x start hard = ((x - start : ℤ) : ℚ) / ((hard - start : ℤ) : ℚ) := by
  have hnum : (0 : ℚ) ≤ ((x - start : ℤ) : ℚ) := by exact_mod_cast (by omega : 0 ≤ x - start)
  have hspan : (0 : ℚ) < ((hard - start : ℤ) : ℚ) := by exact_mod_cast (by omega : 0 < hard - start)
  have hle : ((x - start : ℤ) : ℚ) ≤ ((hard - start : ℤ) : ℚ) := by
    exact_mod_cast (by omega : x - start ≤ hard - start)
  unfold progress rampPosition
  rw [if_neg (by omega), ← Int.cast_sub]
  exact clamp_eq_self (div_nonneg hnum hspan.le) ((div_le_one hspan).mpr hle)

/-- The thermal scale falls along the way from the cool margin to the maximum. -/
theorem thermalBatchScale_eq (htemp : 0 < temp) (minScale : ℚ) :
    thermalBatchScale temp warn hard minScale cool
      = 1 - progress temp (warn - max 0 cool) (max (warn + 1) hard)
          * (1 - clampFloat minScale (1 / 2) 1) := by
  have hfloor := (clampFloat_floor_mem minScale).2
  have hway : warn - max 0 cool < max (warn + 1) hard := by omega
  unfold thermalBatchScale
  dsimp only [id_eq]
  rw [if_neg (by omega)]
  generalize clampFloat minScale (1 / 2) 1 = floor at hfloor ⊢
  generalize warn - max 0 cool = s at hway ⊢
  generalize max (warn + 1) hard = e at hway ⊢
  split_ifs with hlow hhigh hspan
  · rw [progress_of_le hway hlow]
    ring
  · rw [progress_of_ge hhigh]
    ring
  · omega
  · have hp0 := progress_nonneg temp s e
    have hp1 := progress_le_one temp s e
    rw [← progress_eq_div (by omega) (by omega)]
    exact clampFloat_one_sub hp0 hp1 hfloor

/-- Hotter never scales the batch up. -/
theorem thermalBatchScale_anti (h : temp ≤ temp') (minScale : ℚ) :
    thermalBatchScale temp' warn hard minScale cool ≤ thermalBatchScale temp warn hard minScale cool := by
  have hfloor := (clampFloat_floor_mem minScale).2
  by_cases hoff : temp' ≤ 0
  · have hone : ∀ x ≤ 0, thermalBatchScale x warn hard minScale cool = 1 := fun x hx => if_pos hx
    rw [hone _ hoff, hone _ (h.trans hoff)]
  · have hfall : ∀ x, 0 ≤ progress x (warn - max 0 cool) (max (warn + 1) hard)
        * (1 - clampFloat minScale (1 / 2) 1) := fun x =>
      mul_nonneg (progress_nonneg _ _ _) (by linarith)
    rw [thermalBatchScale_eq _ _ _ (not_le.mp hoff)]
    by_cases hcold : temp ≤ 0
    · have hone : thermalBatchScale temp warn hard minScale cool = 1 := if_pos hcold
      rw [hone]
      exact sub_le_self _ (hfall temp')
    · rw [thermalBatchScale_eq _ _ _ (not_le.mp hcold)]
      have hway := progress_mono (by omega : warn - max 0 cool ≤ max (warn + 1) hard) h
      have hprod := mul_le_mul_of_nonneg_right hway
        (by linarith : 0 ≤ 1 - clampFloat minScale (1 / 2) 1)
      linarith

/-- The thermal lane cap shrinks along the way from the derating margin to the maximum. -/
theorem thermalLaneCap_eq (htemp : 0 < temp) (planned minLanes : ℤ) :
    thermalLaneCap planned temp warn hard minLanes cool start
      = shrinkLanes (max 1 planned) (clampInt minLanes 1 (max 1 planned))
          (progress temp (max (warn - max 0 cool) (warn - max 0 start)) (max (warn + 1) hard)) := by
  have hfloor : clampInt minLanes 1 (max 1 planned) ≤ max 1 planned := clamp_le (le_max_left _ _)
  have hway : max (warn - max 0 cool) (warn - max 0 start) < max (warn + 1) hard := by omega
  unfold thermalLaneCap
  dsimp only
  generalize clampInt minLanes 1 (max 1 planned) = floor at hfloor ⊢
  generalize max (warn - max 0 cool) (warn - max 0 start) = s at hway ⊢
  generalize max (warn + 1) hard = e at hway ⊢
  split_ifs with hfew hoff hlow hhigh hspan
  · -- the floor is all there is
    have hlow : floor ≤ shrinkLanes (max 1 planned) floor (progress temp s e) := le_clamp _ _ _
    have hhigh := shrinkLanes_le hfloor (progress temp s e)
    omega
  · omega
  · rw [progress_of_le hway hlow, shrinkLanes_zero hfloor]
  · rw [progress_of_ge hhigh, shrinkLanes_one hfloor]
  · omega
  · rw [progress, if_neg hhigh]

theorem thermalLaneCap_le (planned temp minLanes : ℤ) :
    thermalLaneCap planned temp warn hard minLanes cool start ≤ max 1 planned := by
  have hfloor : clampInt minLanes 1 (max 1 planned) ≤ max 1 planned := clamp_le (le_max_left _ _)
  unfold thermalLaneCap
  dsimp only
  split_ifs <;> first
    | exact le_rfl
    | exact hfloor
    | exact shrinkLanes_le hfloor _

/-- Hotter never leaves more lanes. -/
theorem thermalLaneCap_anti (h : temp ≤ temp') (planned minLanes : ℤ) :
    thermalLaneCap planned temp' warn hard minLanes cool start
      ≤ thermalLaneCap planned temp warn hard minLanes cool start := by
  by_cases hcold : temp ≤ 0
  · have hall : thermalLaneCap planned temp warn hard minLanes cool start = max 1 planned := by
      unfold thermalLaneCap
      dsimp only
      rw [if_pos hcold, ite_self]
    rw [hall]
    exact thermalLaneCap_le _ _ _ _ _ _ _
  · rw [thermalLaneCap_eq _ _ _ _ (by omega), thermalLaneCap_eq _ _ _ _ (not_le.mp hcold)]
    exact shrinkLanes_anti (clamp_le (le_max_left _ _)) (progress_mono (by omega) h)

end Heat

/-! ### The board proxy -/

theorem highDiffTempTightenC_nonneg (d ref : ℤ) (startRatio fullRatio : ℚ) (maxTighten : ℤ) :
    0 ≤ highDiffTempTightenC d ref startRatio fullRatio maxTighten := by
  unfold highDiffTempTightenC
  dsimp only
  split_ifs with hoff
  · exact le_rfl
  · exact le_rfl
  · omega
  · have hmax : (0 : ℚ) ≤ maxTighten := by exact_mod_cast (by omega : 0 ≤ maxTighten)
    exact pyRound_nonneg (mul_nonneg (le_clamp _ _ _) hmax)

theorem highDiffTempTightenC_le (d ref : ℤ) (startRatio fullRatio : ℚ) (maxTighten : ℤ) :
    highDiffTempTightenC d ref startRatio fullRatio maxTighten ≤ max 0 maxTighten := by
  unfold highDiffTempTightenC
  dsimp only
  split_ifs
  · exact le_max_left _ _
  · exact le_max_left _ _
  · exact le_max_right _ _
  · have hmax : (0 : ℚ) ≤ maxTighten := by exact_mod_cast (by omega : 0 ≤ maxTighten)
    exact (pyRound_le (mul_le_of_le_one_left hmax (clamp_le zero_le_one))).trans (le_max_right _ _)

/-- Higher difficulty never tightens less. -/
theorem highDiffTempTightenC_mono {d d' : ℤ} (h : d ≤ d') (ref : ℤ) (startRatio fullRatio : ℚ)
    (maxTighten : ℤ) : highDiffTempTightenC d ref startRatio fullRatio maxTighten
      ≤ highDiffTempTightenC d' ref startRatio fullRatio maxTighten := by
  have hd : (d : ℚ) ≤ d' := by exact_mod_cast h
  have hnonneg := highDiffTempTightenC_nonneg d' ref startRatio fullRatio maxTighten
  have hle := highDiffTempTightenC_le d ref startRatio fullRatio maxTighten
  unfold highDiffTempTightenC at hnonneg hle ⊢
  dsimp only at hnonneg hle ⊢
  generalize (ref : ℚ) * max 1 startRatio = start at hnonneg hle ⊢
  generalize (ref : ℚ) * max (startRatio + 1 / 100) fullRatio = full at hnonneg hle ⊢
  by_cases hoff : d ≤ 0 ∨ ref ≤ 0 ∨ maxTighten ≤ 0
  · rw [if_pos hoff]
    exact hnonneg
  rw [if_neg hoff] at hle ⊢
  have hoff' : ¬ (d' ≤ 0 ∨ ref ≤ 0 ∨ maxTighten ≤ 0) := by omega
  rw [if_neg hoff'] at hnonneg ⊢
  by_cases hlow : (d : ℚ) ≤ start
  · rw [if_pos hlow]
    exact hnonneg
  have hlow' : ¬ (d' : ℚ) ≤ start := fun hle' => hlow (hd.trans hle')
  rw [if_neg hlow'] at hnonneg ⊢
  by_cases hhigh : full ≤ (d' : ℚ)
  · rw [if_pos hhigh]
    exact hle.trans_eq (max_eq_right (by omega))
  -- both on the ramp
  have hhigh' : ¬ full ≤ (d : ℚ) := fun hle' => hhigh (hle'.trans hd)
  rw [if_neg hlow, if_neg hhigh, if_neg hhigh']
  have hspan : 0 ≤ full - start := by
    rw [not_le] at hlow hhigh'
    linarith
  have hmax : (0 : ℚ) ≤ maxTighten := by exact_mod_cast (by omega : 0 ≤ maxTighten)
  have hramp : clampFloat ((d - start) / (full - start)) 0 1
      ≤ clampFloat ((d' - start) / (full - start)) 0 1 :=
    clamp_mono (div_le_div_of_nonneg_right (by linarith) hspan)
  exact pyRound_mono (mul_le_mul_of_nonneg_right hramp hmax)

/-! ### Difficulty -/

/-- The difficulty up to which all planned lanes stay. -/
def fullPackDifficulty (referenceDifficulty : ℤ) (fullPackRatio : ℚ) : ℤ :=
  max 1 (pyInt (referenceDifficulty * max (1 / 20) (min (19 / 20) fullPackRatio)))

theorem fullPackDifficulty_bounds {ref : ℤ} (href : 0 < ref) (ratio : ℚ) :
    fullPackDifficulty ref ratio ≤ ref ∧ (1 < ref → fullPackDifficulty ref ratio < ref) := by
  have href0 : (0 : ℚ) < ref := by exact_mod_cast href
  have hlow : (1 / 20 : ℚ) ≤ max (1 / 20) (min (19 / 20) ratio) := le_max_left _ _
  have hhigh : max (1 / 20) (min (19 / 20) ratio) ≤ (19 / 20 : ℚ) :=
    max_le (by norm_num) (min_le_left _ _)
  unfold fullPackDifficulty
  generalize max (1 / 20) (min (19 / 20) ratio) = r at hlow hhigh ⊢
  have hint := pyInt_le (mul_nonneg href0.le (by linarith : 0 ≤ r))
  have hprod := mul_le_mul_of_nonneg_left hhigh href0.le
  have hlt : (pyInt (ref * r) : ℚ) < ref := by linarith
  have hlt' : pyInt (ref * r) < ref := by exact_mod_cast hlt
  constructor
  · omega
  · omega

/-- The bias is a ramp from the full pack to one lane at the reference difficulty. -/
theorem difficultyLaneBias_eq {d ref : ℤ} (hd : 0 < d) (href : 0 < ref) (planned : ℤ) (ratio : ℚ) :
    difficultyLaneBias planned d ref ratio
      = shrinkLanes (max 1 planned) 1 (progress d (fullPackDifficulty ref ratio) ref) := by
  have hone : 1 ≤ max 1 planned := le_max_left _ _
  show (if max 1 planned ≤ 1 ∨ ref ≤ 0 ∨ d ≤ 0 then max 1 planned
    else if ref ≤ d then 1
    else if d ≤ fullPackDifficulty ref ratio then max 1 planned
    else if ref - fullPackDifficulty ref ratio ≤ 0 then 1
    else shrinkLanes (max 1 planned) 1
      (rampPosition d (fullPackDifficulty ref ratio) (ref - fullPackDifficulty ref ratio))) = _
  split_ifs with hnone hend hfull hspan
  · -- a single lane stays
    have hlow : 1 ≤ shrinkLanes (max 1 planned) 1 (progress d (fullPackDifficulty ref ratio) ref) :=
      le_clamp _ _ _
    have hhigh := shrinkLanes_le hone (progress d (fullPackDifficulty ref ratio) ref)
    omega
  · rw [progress_of_ge hend, shrinkLanes_one hone]
  · rw [progress_of_le ((fullPackDifficulty_bounds href ratio).2 (by omega)) hfull, shrinkLanes_zero hone]
  · have hlt := (fullPackDifficulty_bounds href ratio).2 (by omega)
    omega
  · rw [progress, if_neg hend]

theorem difficultyLaneBias_le (planned d ref : ℤ) (ratio : ℚ) :
    difficultyLaneBias planned d ref ratio ≤ max 1 planned := by
  unfold difficultyLaneBias
  dsimp only
  split_ifs <;> first
    | exact le_rfl
    | exact le_max_left _ _
    | exact shrinkLanes_le (le_max_left _ _) _

/-- Fewer planned lanes and a higher difficulty leave no more lanes. -/
theorem difficultyLaneBias_anti {planned planned' d d' ref : ℤ} (hplanned : planned' ≤ planned)
    (hd : 0 < d) (hdd : d ≤ d') (ratio : ℚ) :
    difficultyLaneBias planned' d' ref ratio ≤ difficultyLaneBias planned d ref ratio := by
  by_cases href : 0 < ref
  · rw [difficultyLaneBias_eq (by omega) href, difficultyLaneBias_eq hd href]
    calc shrinkLanes (max 1 planned') 1 (progress d' (fullPackDifficulty ref ratio) ref)
        ≤ shrinkLanes (max 1 planned) 1 (progress d' (fullPackDifficulty ref ratio) ref) :=
          shrinkLanes_mono (max_le_max le_rfl hplanned) (progress_le_one _ _ _)
      _ ≤ shrinkLanes (max 1 planned) 1 (progress d (fullPackDifficulty ref ratio) ref) :=
          shrinkLanes_anti (le_max_left _ _) (progress_mono (fullPackDifficulty_bounds href ratio).1 hdd)
  · -- without a reference there is no bias
    have hkeep : ∀ p e, difficultyLaneBias p e ref ratio = max 1 p :=
      fun p e => if_pos (Or.inr (Or.inl (not_lt.mp href)))
    rw [hkeep, hkeep]
    exact max_le_max le_rfl hplanned

/-! ### Power -/

/-- A range in order is already normal. -/
theorem normalizePowerRange_self {targetPct minPct : ℤ} (hmin : 50 ≤ minPct)
    (hle : minPct ≤ targetPct) (hmax : targetPct ≤ 100) :
    normalizePowerRange targetPct minPct = (targetPct, minPct) := by
  have htarget : clampInt targetPct 50 100 = targetPct := clamp_eq_self (hmin.trans hle) hmax
  have hfloor : clampInt minPct 50 100 = minPct := clamp_eq_self hmin (hle.trans hmax)
  unfold normalizePowerRange
  simp only [htarget, hfloor, if_neg hle.not_gt]

/-- The power target stays in the normal range, at every difficulty. -/
theorem difficultyPowerTargetPct_mem (targetPct difficulty referenceDifficulty minPct : ℤ)
    (fullDerateRatio : ℚ) (lowDifficulty : ℤ) :
    (normalizePowerRange targetPct minPct).2 ≤ difficultyPowerTargetPct targetPct difficulty
        referenceDifficulty minPct fullDerateRatio lowDifficulty ∧
      difficultyPowerTargetPct targetPct difficulty referenceDifficulty minPct fullDerateRatio
        lowDifficulty ≤ (normalizePowerRange targetPct minPct).1 := by
  have hle := (normalizePowerRange_spec targetPct minPct).2.1
  unfold difficultyPowerTargetPct
  generalize normalizePowerRange targetPct minPct = range at hle ⊢
  obtain ⟨target, floor⟩ := range
  dsimp only at hle ⊢
  -- every branch is the target itself or ends in a clamp
  have hclamp (x : ℤ) : floor ≤ clampInt x floor target ∧ clampInt x floor target ≤ target :=
    ⟨le_clamp _ _ _, clamp_le hle⟩
  split_ifs <;> first
    | exact ⟨hle, le_rfl⟩
    | exact hclamp _

end XenMiner.ThermalPolicy
