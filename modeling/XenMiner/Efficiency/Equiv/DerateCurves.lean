import XenMiner.Efficiency.Equiv.ThermalPolicy
import Mathlib.Data.Int.ConditionallyCompleteOrder

/-!
# The derate curves fall, within their bands

A curve is flat, then a ramp, then flat again, and its seams may coincide: the end of a ramp is set
beyond its start by a guard (`max (ref + 1) ..`, `max (target + 1) ..`), which moves it where the settings
are odd.  The results hold for all settings (`PowerCurve`, `ScaleCurve`, `LaneCurve`, `derateCurves`).
-/

namespace XenMiner.ThermalPolicy

open PyNum

/-! ### Ramps of integers -/

section Ease

variable {hi lo hi' lo' : ℤ} {x y : ℚ}

/-- From `hi` down to `lo`, rounded. -/
def ease (hi lo : ℤ) (t : ℚ) : ℤ := pyRound (hi - t * (hi - lo))

theorem ease_one (hi lo : ℤ) : ease hi lo 1 = lo := by
  unfold ease
  rw [one_mul, sub_sub_cancel, pyRound_intCast]

theorem ease_le (h : lo ≤ hi) (hx : 0 ≤ x) : ease hi lo x ≤ hi := by
  have hgap : (0 : ℚ) ≤ hi - lo := sub_nonneg.mpr (by exact_mod_cast h)
  exact pyRound_le (sub_le_self _ (mul_nonneg hx hgap))

theorem ease_anti (h : lo ≤ hi) (hxy : x ≤ y) : ease hi lo y ≤ ease hi lo x := by
  have hgap : (0 : ℚ) ≤ hi - lo := sub_nonneg.mpr (by exact_mod_cast h)
  exact pyRound_mono (sub_le_sub_left (mul_le_mul_of_nonneg_right hxy hgap) _)

theorem le_ease (h : lo ≤ hi) (hx : x ≤ 1) : lo ≤ ease hi lo x :=
  (ease_one hi lo).symm.trans_le (ease_anti h hx)

/-- Higher ends give a higher ramp. -/
theorem ease_mono (hhi : hi ≤ hi') (hlo : lo ≤ lo') (hx : 0 ≤ x) (hx1 : x ≤ 1) :
    ease hi lo x ≤ ease hi' lo' x := by
  have hends : (hi : ℚ) ≤ hi' ∧ (lo : ℚ) ≤ lo' := ⟨by exact_mod_cast hhi, by exact_mod_cast hlo⟩
  have htop := mul_le_mul_of_nonneg_left hends.1 (sub_nonneg.mpr hx1)
  have hbottom := mul_le_mul_of_nonneg_left hends.2 hx
  refine pyRound_mono ?_
  calc (hi : ℚ) - x * (hi - lo) = (1 - x) * hi + x * lo := by ring
    _ ≤ (1 - x) * hi' + x * lo' := add_le_add htop hbottom
    _ = hi' - x * (hi' - lo') := by ring

@[simp]
theorem ease_self (hi : ℤ) (t : ℚ) : ease hi hi t = hi := by
  unfold ease
  rw [sub_self, mul_zero, sub_zero, pyRound_intCast]

theorem shrinkLanes_eq_ease (h : lo ≤ hi) (hx : 0 ≤ x) (hx1 : x ≤ 1) :
    shrinkLanes hi lo x = ease hi lo x := clamp_eq_self (le_ease h hx1) (ease_le h hx)

end Ease

theorem rampPosition_nonneg (x start span : ℤ) : 0 ≤ rampPosition x start span := le_clamp _ _ _

theorem rampPosition_le_one (x start span : ℤ) : rampPosition x start span ≤ 1 := clamp_le zero_le_one

theorem rampPosition_of_ge {x start hard : ℤ} (hstart : start < hard) (h : hard ≤ x) :
    rampPosition x start (hard - start) = 1 := by
  have hspan : (0 : ℚ) < ((hard - start : ℤ) : ℚ) := by exact_mod_cast (by omega : 0 < hard - start)
  have hge : ((hard - start : ℤ) : ℚ) ≤ (x : ℚ) - start := by
    exact_mod_cast (by omega : hard - start ≤ x - start)
  exact clampFloat_of_ge ((one_le_div hspan).mpr hge) zero_le_one

/-! ### Power -/

section Power

variable (targetPct minPct referenceDifficulty lowDifficulty : ℤ) (fullDerateRatio : ℚ)

/-- The reference difficulty of the power curve. -/
def powerReference : ℤ := max (max 1 lowDifficulty) referenceDifficulty

/-- The difficulty of the full derate: `round(ref * ratio)`, but beyond the reference. -/
def fullDerateDifficulty : ℤ :=
  max (powerReference referenceDifficulty lowDifficulty + 1)
    (pyRound (powerReference referenceDifficulty lowDifficulty *
      if 1 < fullDerateRatio then fullDerateRatio else 2))

/-- What the power target does as the difficulty rises. -/
structure PowerCurve (power : ℤ → ℤ) : Prop where
  anti : Antitone power
  mem : ∀ d, (normalizePowerRange targetPct minPct).2 ≤ power d ∧
    power d ≤ (normalizePowerRange targetPct minPct).1
  low : ∀ d ≤ lowDifficulty, power d = (normalizePowerRange targetPct minPct).1
  full : 1 ≤ referenceDifficulty →
    ∀ d, fullDerateDifficulty referenceDifficulty lowDifficulty fullDerateRatio ≤ d →
      power d = (normalizePowerRange targetPct minPct).2
  off : referenceDifficulty ≤ 0 → ∀ d, power d = (normalizePowerRange targetPct minPct).1

/-- The power at the reference difficulty. -/
def midPower (target floor : ℤ) : ℤ := clampInt (ease target floor (7 / 20)) floor target

theorem midPower_mem {target floor : ℤ} (h : floor ≤ target) :
    floor ≤ midPower target floor ∧ midPower target floor ≤ target :=
  ⟨le_clamp _ _ _, clamp_le h⟩

variable {targetPct minPct referenceDifficulty lowDifficulty fullDerateRatio} {d d' : ℤ}

theorem power_of_off (h : referenceDifficulty ≤ 0) :
    difficultyPowerTargetPct targetPct d referenceDifficulty minPct fullDerateRatio lowDifficulty
      = (normalizePowerRange targetPct minPct).1 := if_pos (Or.inr h)

theorem power_of_low (h : d ≤ max 1 lowDifficulty) :
    difficultyPowerTargetPct targetPct d referenceDifficulty minPct fullDerateRatio lowDifficulty
      = (normalizePowerRange targetPct minPct).1 := by
  have hlow : max 1 d ≤ max 1 lowDifficulty := max_le (le_max_left _ _) h
  unfold difficultyPowerTargetPct
  dsimp only
  rw [if_pos hlow, ite_self]

/-- Beyond the low difficulty there are two ramps, which meet at `midPower`. -/
theorem power_of_high (href : 0 < referenceDifficulty) (h : max 1 lowDifficulty < d) :
    difficultyPowerTargetPct targetPct d referenceDifficulty minPct fullDerateRatio lowDifficulty
      = if d ≤ powerReference referenceDifficulty lowDifficulty then
          ease (normalizePowerRange targetPct minPct).1
            (midPower (normalizePowerRange targetPct minPct).1 (normalizePowerRange targetPct minPct).2)
            (rampPosition d (max 1 lowDifficulty)
              (powerReference referenceDifficulty lowDifficulty - max 1 lowDifficulty))
        else
          ease (midPower (normalizePowerRange targetPct minPct).1
              (normalizePowerRange targetPct minPct).2) (normalizePowerRange targetPct minPct).2
            (rampPosition d (powerReference referenceDifficulty lowDifficulty)
              (fullDerateDifficulty referenceDifficulty lowDifficulty fullDerateRatio
                - powerReference referenceDifficulty lowDifficulty)) := by
  have hle := (normalizePowerRange_spec targetPct minPct).2.1
  unfold difficultyPowerTargetPct
  generalize normalizePowerRange targetPct minPct = range at hle ⊢
  obtain ⟨target, floor⟩ := range
  dsimp only at hle ⊢
  obtain ⟨hfloor, htarget⟩ := midPower_mem hle
  have hdif : max 1 d = d := by omega
  have hoff : ¬ (d ≤ 0 ∨ referenceDifficulty ≤ 0) := by omega
  rw [if_neg hoff, hdif, if_neg (by omega)]
  have hhigh : powerReference referenceDifficulty lowDifficulty
      < fullDerateDifficulty referenceDifficulty lowDifficulty fullDerateRatio :=
    Int.lt_of_add_one_le (le_max_left _ _)
  show (if d ≤ powerReference referenceDifficulty lowDifficulty then
      clampInt (ease target (midPower target floor)
        (if 0 < powerReference referenceDifficulty lowDifficulty - max 1 lowDifficulty then
          rampPosition d (max 1 lowDifficulty)
            (powerReference referenceDifficulty lowDifficulty - max 1 lowDifficulty) else 1)) floor target
    else
      clampInt (ease (midPower target floor) floor
        (if 0 < fullDerateDifficulty referenceDifficulty lowDifficulty fullDerateRatio
            - powerReference referenceDifficulty lowDifficulty then
          rampPosition d (powerReference referenceDifficulty lowDifficulty)
            (fullDerateDifficulty referenceDifficulty lowDifficulty fullDerateRatio
              - powerReference referenceDifficulty lowDifficulty) else 1)) floor target) = _
  generalize powerReference referenceDifficulty lowDifficulty = ref at hhigh ⊢
  generalize fullDerateDifficulty referenceDifficulty lowDifficulty fullDerateRatio = high at hhigh ⊢
  split_ifs with hlow hspan hspan
  · exact clamp_eq_self (hfloor.trans (le_ease htarget (rampPosition_le_one _ _ _)))
      (ease_le htarget (rampPosition_nonneg _ _ _))
  · omega
  · exact clamp_eq_self (le_ease hfloor (rampPosition_le_one _ _ _))
      ((ease_le hfloor (rampPosition_nonneg _ _ _)).trans htarget)
  · omega

theorem powerCurve (targetPct minPct referenceDifficulty lowDifficulty : ℤ) (fullDerateRatio : ℚ) :
    PowerCurve targetPct minPct referenceDifficulty lowDifficulty fullDerateRatio fun d =>
      difficultyPowerTargetPct targetPct d referenceDifficulty minPct fullDerateRatio lowDifficulty := by
  have hmem := fun d => difficultyPowerTargetPct_mem targetPct d referenceDifficulty minPct
    fullDerateRatio lowDifficulty
  have hmid := midPower_mem (normalizePowerRange_spec targetPct minPct).2.1
  have hhigh : powerReference referenceDifficulty lowDifficulty
      < fullDerateDifficulty referenceDifficulty lowDifficulty fullDerateRatio :=
    Int.lt_of_add_one_le (le_max_left _ _)
  refine ⟨fun d d' hd => ?_, hmem, fun d hd => power_of_low (le_max_of_le_right hd), fun href d hd => ?_,
    fun href d => power_of_off href⟩
  · rcases le_or_gt referenceDifficulty 0 with hoff | href
    · rw [power_of_off hoff, power_of_off hoff]
    rcases le_or_gt d (max 1 lowDifficulty) with hlow | hlow
    · rw [power_of_low hlow]
      exact (hmem d').2
    rw [power_of_high href hlow, power_of_high href (hlow.trans_le hd)]
    split_ifs with hd'ref hdref hdref
    · exact ease_anti hmid.2 (rampPosition_mono (by omega) hd)
    · omega
    · -- the two ramps meet at the reference
      exact (ease_le hmid.1 (rampPosition_nonneg _ _ _)).trans (le_ease hmid.2 (rampPosition_le_one _ _ _))
    · exact ease_anti hmid.1 (rampPosition_mono (by omega) hd)
  · have href' : powerReference referenceDifficulty lowDifficulty < d := hhigh.trans_le hd
    have hlow : max 1 lowDifficulty < d := (le_max_left _ _).trans_lt href'
    rw [power_of_high (by omega) hlow, if_neg href'.not_ge, rampPosition_of_ge hhigh hd, ease_one]

end Power

/-! ### VRAM scale -/

section Scale

variable {used used' targetMib emergencyMib startSlackMib : ℤ} {minScale : ℚ}

/-- From where on the scale falls. -/
def pressureStart (targetMib startSlackMib : ℤ) : ℤ := max 1 targetMib + max 0 startSlackMib

/-- Where the scale is at its floor. -/
def pressureEnd (targetMib emergencyMib : ℤ) : ℤ := max (max 1 targetMib + 1) emergencyMib

/-- What the scale does as the used VRAM rises. -/
structure ScaleCurve (targetMib emergencyMib startSlackMib : ℤ) (minScale : ℚ) (scale : ℤ → ℚ) :
    Prop where
  anti : Antitone scale
  mem : ∀ used, clampFloat minScale (1 / 2) 1 ≤ scale used ∧ scale used ≤ 1
  low : ∀ used ≤ pressureStart targetMib startSlackMib, scale used = 1
  full : ∀ used, pressureEnd targetMib emergencyMib ≤ used →
    pressureStart targetMib startSlackMib < used → scale used = clampFloat minScale (1 / 2) 1

theorem scale_of_low (h : used ≤ pressureStart targetMib startSlackMib) :
    vramPressureScale used targetMib emergencyMib minScale startSlackMib = 1 := by
  have hused : max 0 used ≤ pressureStart targetMib startSlackMib := by
    unfold pressureStart at h ⊢
    omega
  exact if_pos hused

theorem scale_of_high (h : pressureStart targetMib startSlackMib < used) :
    vramPressureScale used targetMib emergencyMib minScale startSlackMib
      = 1 - progress used (pressureStart targetMib startSlackMib) (pressureEnd targetMib emergencyMib)
          * (1 - clampFloat minScale (1 / 2) 1) := by
  have hfloor := (clampFloat_floor_mem minScale).2
  have hused : max 0 used = used := by
    unfold pressureStart at h
    omega
  show (if max 0 used ≤ pressureStart targetMib startSlackMib then (1 : ℚ)
    else if pressureEnd targetMib emergencyMib ≤ max 0 used then clampFloat minScale (1 / 2) 1
    else if pressureEnd targetMib emergencyMib - pressureStart targetMib startSlackMib ≤ 0 then
      clampFloat minScale (1 / 2) 1
    else clampFloat (1 - ((max 0 used - pressureStart targetMib startSlackMib : ℤ) : ℚ)
      / ((pressureEnd targetMib emergencyMib - pressureStart targetMib startSlackMib : ℤ) : ℚ)
      * (1 - clampFloat minScale (1 / 2) 1)) (clampFloat minScale (1 / 2) 1) 1) = _
  rw [hused, if_neg h.not_ge]
  generalize pressureStart targetMib startSlackMib = start at h ⊢
  generalize pressureEnd targetMib emergencyMib = hard
  generalize clampFloat minScale (1 / 2) 1 = floor at hfloor ⊢
  split_ifs with hhigh hspan
  · rw [progress_of_ge hhigh]
    ring
  · omega
  · rw [← progress_eq_div h (not_le.mp hhigh)]
    exact clampFloat_one_sub (progress_nonneg _ _ _) (progress_le_one _ _ _) hfloor

theorem scaleCurve (targetMib emergencyMib startSlackMib : ℤ) (minScale : ℚ) :
    ScaleCurve targetMib emergencyMib startSlackMib minScale fun used =>
      vramPressureScale used targetMib emergencyMib minScale startSlackMib := by
  have hgap : 0 ≤ 1 - clampFloat minScale (1 / 2) 1 := sub_nonneg.mpr (clampFloat_floor_mem minScale).2
  have hmem : ∀ used, clampFloat minScale (1 / 2) 1
        ≤ vramPressureScale used targetMib emergencyMib minScale startSlackMib ∧
      vramPressureScale used targetMib emergencyMib minScale startSlackMib ≤ 1 := by
    intro used
    rcases le_or_gt used (pressureStart targetMib startSlackMib) with hlow | hhigh
    · rw [scale_of_low hlow]
      exact ⟨sub_nonneg.mp hgap, le_rfl⟩
    · rw [scale_of_high hhigh]
      have hdrop := mul_le_of_le_one_left hgap (progress_le_one used
        (pressureStart targetMib startSlackMib) (pressureEnd targetMib emergencyMib))
      have hnonneg := mul_nonneg (progress_nonneg used (pressureStart targetMib startSlackMib)
        (pressureEnd targetMib emergencyMib)) hgap
      exact ⟨by linarith, by linarith⟩
  refine ⟨fun used used' h => ?_, hmem, fun used => scale_of_low, fun used hend hstart => ?_⟩
  · rcases le_or_gt used (pressureStart targetMib startSlackMib) with hlow | hhigh
    · rw [scale_of_low hlow]
      exact (hmem used').2
    rw [scale_of_high hhigh, scale_of_high (hhigh.trans_le h)]
    refine sub_le_sub_left (mul_le_mul_of_nonneg_right ?_ hgap) 1
    rcases le_or_gt (pressureEnd targetMib emergencyMib) used with hend | hramp
    · rw [progress_of_ge hend, progress_of_ge (hend.trans h)]
    · exact progress_mono (hhigh.le.trans hramp.le) h
  · rw [scale_of_high hstart, progress_of_ge hend]
    ring

end Scale

/-! ### Lane caps -/

/-- What a lane cap does as its reading rises and with the planned lanes. -/
structure LaneCurve (minLanes : ℤ) (cap : ℤ → ℤ → ℤ) : Prop where
  anti : ∀ planned, Antitone (cap planned)
  mono : ∀ reading, Monotone fun planned => cap planned reading
  mem : ∀ planned reading, min (max 1 minLanes) (max 1 planned) ≤ cap planned reading ∧
    cap planned reading ≤ max 1 planned

/-- The least lanes a cap leaves. -/
theorem clampInt_minLanes (minLanes planned : ℤ) :
    clampInt minLanes 1 (max 1 planned) = min (max 1 minLanes) (max 1 planned) := by
  unfold clampInt clamp
  omega

/-- A cap that is all planned lanes where `f` holds, up to a seam, and then shrinks along a ramp. -/
theorem laneCurve_of_ramp {minLanes : ℤ} {cap : ℤ → ℤ → ℤ} {f : ℤ → Prop} {t : ℤ → ℚ}
    (hfull : ∀ planned x, f x → cap planned x = max 1 planned)
    (hramp : ∀ planned x, ¬ f x →
      cap planned x = ease (max 1 planned) (clampInt minLanes 1 (max 1 planned)) (t x))
    (hseam : ∀ x y, x ≤ y → f y → f x) (ht0 : ∀ x, 0 ≤ t x) (ht1 : ∀ x, t x ≤ 1)
    (htmono : ∀ x y, ¬ f x → x ≤ y → t x ≤ t y) : LaneCurve minLanes cap := by
  have hfloor : ∀ planned, clampInt minLanes 1 (max 1 planned) ≤ max 1 planned := fun planned =>
    clamp_le (le_max_left _ _)
  have hmem : ∀ planned x, clampInt minLanes 1 (max 1 planned) ≤ cap planned x ∧
      cap planned x ≤ max 1 planned := by
    intro planned x
    by_cases hx : f x
    · rw [hfull planned x hx]
      exact ⟨hfloor planned, le_rfl⟩
    · rw [hramp planned x hx]
      exact ⟨le_ease (hfloor planned) (ht1 x), ease_le (hfloor planned) (ht0 x)⟩
  refine ⟨fun planned x y hxy => ?_, fun x planned planned' h => ?_, fun planned x => ?_⟩
  · by_cases hx : f x
    · rw [hfull planned x hx]
      exact (hmem planned y).2
    · rw [hramp planned x hx, hramp planned y (fun hy => hx (hseam x y hxy hy))]
      exact ease_anti (hfloor planned) (htmono x y hx hxy)
  · dsimp only
    have hmax : max 1 planned ≤ max 1 planned' := max_le_max le_rfl h
    by_cases hx : f x
    · rw [hfull planned x hx, hfull planned' x hx]
      exact hmax
    · rw [hramp planned x hx, hramp planned' x hx]
      exact ease_mono hmax (max_le_max le_rfl (min_le_min hmax le_rfl)) (ht0 x) (ht1 x)
  · rw [← clampInt_minLanes]
    exact hmem planned x

theorem thermalLaneCurve (warnTempC maxTempC minLanes coolMarginC startDerateMarginC : ℤ) :
    LaneCurve minLanes fun planned temp =>
      thermalLaneCap planned temp warnTempC maxTempC minLanes coolMarginC startDerateMarginC := by
  have hway : max (warnTempC - max 0 coolMarginC) (warnTempC - max 0 startDerateMarginC)
      < max (warnTempC + 1) maxTempC := by omega
  have hfloor : ∀ planned, clampInt minLanes 1 (max 1 planned) ≤ max 1 planned := fun planned =>
    clamp_le (le_max_left _ _)
  refine laneCurve_of_ramp
    (f := fun temp => temp ≤ 0 ∨
      temp ≤ max (warnTempC - max 0 coolMarginC) (warnTempC - max 0 startDerateMarginC))
    (t := fun temp => progress temp
      (max (warnTempC - max 0 coolMarginC) (warnTempC - max 0 startDerateMarginC))
      (max (warnTempC + 1) maxTempC)) ?_ ?_ ?_ ?_ ?_ ?_
  · intro planned temp hfull
    rcases le_or_gt temp 0 with hoff | hon
    · unfold thermalLaneCap
      dsimp only
      rw [if_pos hoff, ite_self]
    · rw [thermalLaneCap_eq _ _ _ _ hon, progress_of_le hway (hfull.resolve_left (by omega)),
        shrinkLanes_zero (hfloor planned)]
  · intro planned temp hramp
    rw [thermalLaneCap_eq _ _ _ _ (by omega)]
    exact shrinkLanes_eq_ease (hfloor planned) (progress_nonneg _ _ _) (progress_le_one _ _ _)
  · exact fun x y hxy hy => hy.imp hxy.trans hxy.trans
  · exact fun x => progress_nonneg _ _ _
  · exact fun x => progress_le_one _ _ _
  · exact fun x y _ hxy => progress_mono hway.le hxy

theorem vramLaneCurve (targetMib emergencyMib minLanes : ℤ) :
    LaneCurve minLanes fun planned used =>
      vramPressureLaneCap planned used targetMib emergencyMib minLanes := by
  have hscale := (scaleCurve targetMib emergencyMib 0 (1 / 2)).anti
  have hfloor : ∀ planned, clampInt minLanes 1 (max 1 planned) ≤ max 1 planned := fun planned =>
    clamp_le (le_max_left _ _)
  refine laneCurve_of_ramp
    (f := fun used => 999 / 1000 ≤ vramPressureScale used targetMib emergencyMib (1 / 2))
    (t := fun used => clampFloat ((1 - vramPressureScale used targetMib emergencyMib (1 / 2)) / (1 / 2))
      0 1) ?_ ?_ ?_ ?_ ?_ ?_
  · intro planned used hfull
    unfold vramPressureLaneCap
    dsimp only
    rw [if_pos hfull, ite_self]
  · intro planned used hramp
    unfold vramPressureLaneCap
    dsimp only
    split_ifs with hfew
    · -- the floor is all there is
      rw [le_antisymm (hfloor planned) hfew, ease_self]
    · exact shrinkLanes_eq_ease (hfloor planned) (le_clamp _ _ _) (clamp_le zero_le_one)
  · exact fun x y hxy hy => hy.trans (hscale hxy)
  · exact fun x => le_clamp _ _ _
  · exact fun x => clamp_le zero_le_one
  · exact fun x y _ hxy =>
      clamp_mono (div_le_div_of_nonneg_right (sub_le_sub_left (hscale hxy) 1) (by norm_num))

/-! ### All curves -/

/-- **The derate curves**, for all settings. -/
theorem derateCurves :
    (∀ targetPct minPct referenceDifficulty lowDifficulty fullDerateRatio,
      PowerCurve targetPct minPct referenceDifficulty lowDifficulty fullDerateRatio fun difficulty =>
        difficultyPowerTargetPct targetPct difficulty referenceDifficulty minPct fullDerateRatio
          lowDifficulty) ∧
      (∀ targetMib emergencyMib startSlackMib minScale,
        ScaleCurve targetMib emergencyMib startSlackMib minScale fun used =>
          vramPressureScale used targetMib emergencyMib minScale startSlackMib) ∧
      (∀ targetMib emergencyMib minLanes, LaneCurve minLanes fun planned used =>
        vramPressureLaneCap planned used targetMib emergencyMib minLanes) ∧
      ∀ warnTempC maxTempC minLanes coolMarginC startDerateMarginC,
        LaneCurve minLanes fun planned temp =>
          thermalLaneCap planned temp warnTempC maxTempC minLanes coolMarginC startDerateMarginC :=
  ⟨powerCurve, scaleCurve, vramLaneCurve, thermalLaneCurve⟩

/-- Two seams that the guards move: at a ratio just above one, the power at `round(ref * ratio)` is not
yet the floor, and a slack beyond the emergency limit keeps the full scale there. -/
theorem derateCurves_seams :
    (pyRound (100 * (1001 / 1000)) ≤ 100 ∧
      difficultyPowerTargetPct 100 100 100 75 (1001 / 1000) 50 ≠ (normalizePowerRange 100 75).2) ∧
      max (100 + 1) 200 ≤ (300 : ℤ) ∧
        vramPressureScale 300 100 200 (1 / 2) 200 ≠ clampFloat (1 / 2) (1 / 2) 1 := by
  decide +kernel

end XenMiner.ThermalPolicy
