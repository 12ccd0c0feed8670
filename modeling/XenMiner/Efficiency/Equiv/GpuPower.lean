import XenMiner.Efficiency.Equiv.ThermalPolicy
import XenMiner.Efficiency.GpuPower
import XenMiner.Lib.Run

/-!
# Steering the power limit

While the driver takes every request, the booster's limit is the driver's (`Held`), and `adjust` moves
both to `nextMw` (`adjust_nvml`).  The floor of `adjust` is the limit of `min_pct` at every difficulty
(`floorMw_eq`), since the target never falls below `min_pct`; so each band of `adjust` keeps the limit
between floor and maximum.  In the cool band a call closes the gap to the target by one step, and the
limit after `n` of them is known exactly (`cool_run`).

What is promised of a run (`Steered`) is said in terms of the configuration, the driver's range and the
difficulty that was set last.
-/

namespace XenMiner

open PyNum

/-! ### What the calls ask for -/

/-- The limit that a percentage stands for in the driver's range. -/
def Host.limitOf (h : Host) (pct : ℤ) : ℤ :=
  h.minLimitMw + pyInt ((h.maxLimitMw - h.minLimitMw : ℤ) * pct / 100)

/-- The target for a difficulty. -/
def PowerConfig.targetPctAt (config : PowerConfig) (difficulty : ℤ) : ℤ :=
  if config.difficultyPowerEnabled then
    ThermalPolicy.difficultyPowerTargetPct config.targetPct difficulty config.referenceDifficulty
      config.minPct config.fullDerateRatio config.lowDifficulty
  else config.targetPct

/-- The difficulty set last, after one more call. -/
def PowerCall.lastSet (difficulty : ℤ) : PowerCall → ℤ
  | .setDifficulty new => max 1 new
  | _ => difficulty

namespace GpuPowerBooster

variable {b : GpuPowerBooster} {h : Host}

/-! ### Targets -/

/-- The effective target is in the configured range. -/
theorem computeEffectiveTargetPct_mem (b : GpuPowerBooster) :
    b.config.minPct ≤ b.computeEffectiveTargetPct ∧
      b.computeEffectiveTargetPct ≤ b.config.targetPct := by
  unfold computeEffectiveTargetPct
  split_ifs with henabled
  · -- without derating the target is the configured one
    exact ⟨b.config.min_le, le_rfl⟩
  · have hmem := ThermalPolicy.difficultyPowerTargetPct_mem b.config.targetPct b.difficulty
      b.config.referenceDifficulty b.config.minPct b.config.fullDerateRatio b.config.lowDifficulty
    rw [ThermalPolicy.normalizePowerRange_self b.config.min_ge b.config.min_le b.config.target_le] at hmem
    exact hmem

theorem computeEffectiveTargetPct_eq (b : GpuPowerBooster) :
    b.computeEffectiveTargetPct = b.config.targetPctAt b.difficulty := by
  unfold computeEffectiveTargetPct PowerConfig.targetPctAt
  cases b.config.difficultyPowerEnabled <;> rfl

theorem targetMwForPct_eq_limitOf (hmin : b.minLimitMw = h.minLimitMw)
    (hmax : b.maxLimitMw = h.maxLimitMw) (pct : ℤ) : b.targetMwForPct pct = h.limitOf pct := by
  unfold targetMwForPct Host.limitOf
  rw [hmin, hmax]

theorem targetMwForPct_mono (hrange : b.minLimitMw ≤ b.maxLimitMw) {p q : ℤ} (hp : 0 ≤ p)
    (hpq : p ≤ q) : b.targetMwForPct p ≤ b.targetMwForPct q := by
  have hspan : (0 : ℚ) ≤ (b.maxLimitMw - b.minLimitMw : ℤ) := by
    exact_mod_cast sub_nonneg.mpr hrange
  have hp' : (0 : ℚ) ≤ p := by exact_mod_cast hp
  have hpq' : (p : ℚ) ≤ q := by exact_mod_cast hpq
  apply add_le_add_right
  apply pyInt_mono
  · positivity
  · gcongr

theorem targetMwForPct_congr {b' : GpuPowerBooster} (hmin : b.minLimitMw = b'.minLimitMw)
    (hmax : b.maxLimitMw = b'.maxLimitMw) (pct : ℤ) : b.targetMwForPct pct = b'.targetMwForPct pct := by
  unfold targetMwForPct
  rw [hmin, hmax]

@[simp]
theorem targetMwForPct_zero (b : GpuPowerBooster) : b.targetMwForPct 0 = b.minLimitMw := by
  simp [targetMwForPct, pyInt]

@[simp]
theorem targetMwForPct_hundred (b : GpuPowerBooster) : b.targetMwForPct 100 = b.maxLimitMw := by
  have hfull : (((b.maxLimitMw - b.minLimitMw : ℤ) : ℚ) * ((100 : ℤ) : ℚ) / 100)
      = (b.maxLimitMw - b.minLimitMw : ℤ) := by
    push_cast
    ring
  show b.minLimitMw + pyInt _ = b.maxLimitMw
  rw [hfull, pyInt_intCast]
  ring

theorem targetMw_le (hrange : b.minLimitMw ≤ b.maxLimitMw) : b.targetMw ≤ b.maxLimitMw := by
  obtain ⟨hmin, hmax⟩ := b.computeEffectiveTargetPct_mem
  have hge := b.config.min_ge
  have hle := b.config.target_le
  calc b.targetMw ≤ b.targetMwForPct 100 := targetMwForPct_mono hrange (by omega) (by omega)
    _ = b.maxLimitMw := b.targetMwForPct_hundred

/-- The clamps of the floor do nothing: no target is below `min_pct`. -/
theorem floorMw_eq (hrange : b.minLimitMw ≤ b.maxLimitMw) :
    b.floorMw = b.targetMwForPct b.config.minPct ∧ b.floorMw ≤ b.targetMw := by
  obtain ⟨hmin, -⟩ := b.computeEffectiveTargetPct_mem
  have hge := b.config.min_ge
  have htarget : b.targetMwForPct b.config.minPct ≤ b.targetMw :=
    targetMwForPct_mono hrange (by omega) hmin
  have hmax := targetMw_le hrange
  have hlow : b.minLimitMw ≤ b.targetMwForPct b.config.minPct := by
    rw [← b.targetMwForPct_zero]
    exact targetMwForPct_mono hrange le_rfl (by omega)
  unfold floorMw
  omega

/-! ### The step of `adjust` -/

theorem stepMw_nonneg (b : GpuPowerBooster) : 0 ≤ b.stepMw := by
  unfold stepMw
  omega

/-- Twenty-one steps cross the range of the driver: twenty lose its remainder. -/
theorem range_le_stepMw (b : GpuPowerBooster) : b.maxLimitMw - b.minLimitMw ≤ 21 * b.stepMw := by
  unfold stepMw
  omega

theorem nextMw_mem (hrange : b.minLimitMw ≤ b.maxLimitMw) (current temp : ℤ) :
    b.floorMw ≤ b.nextMw current temp ∧ b.nextMw current temp ≤ b.maxLimitMw := by
  have hfloor := (floorMw_eq hrange).2
  have hmax := targetMw_le hrange
  constructor
  · exact le_max_left _ _
  · exact max_le (hfloor.trans hmax) (min_le_right _ _)

/-- Above the margin of `5` the limit does not rise. -/
theorem nextMw_le_of_hot {current temp : ℤ} (hcurrent : b.floorMw ≤ current)
    (htemp : b.config.warnTempC - 5 < temp) : b.nextMw current temp ≤ current := by
  have hstep := b.stepMw_nonneg
  unfold nextMw
  dsimp only
  split_ifs <;> omega

/-- In the cool band: one step up, or down to the target at once. -/
theorem nextMw_of_cool (hrange : b.minLimitMw ≤ b.maxLimitMw) {current temp : ℤ}
    (hcurrent : b.floorMw ≤ current) (htemp : temp ≤ b.config.warnTempC - 12) :
    b.nextMw current temp = min b.targetMw (current + b.stepMw) := by
  have hstep := b.stepMw_nonneg
  have hfloor := (floorMw_eq hrange).2
  have hmax := targetMw_le hrange
  unfold nextMw
  dsimp only
  rw [if_neg (by omega), if_pos htemp]
  omega

/-- `adjust` when the driver takes the request; asking for the current limit changes nothing. -/
theorem adjust_nvml (happlied : b.applied = true) (hcurrent : b.currentLimitMw = some h.limitMw)
    (hrange : b.minLimitMw < b.maxLimitMw) (snap : GpuSnapshot) :
    b.adjust h (some snap) .nvml =
      ({ b with
          effectiveTargetPct := b.computeEffectiveTargetPct
          currentLimitMw := some (b.nextMw h.limitMw (hottest snap)) },
        { h with limitMw := b.nextMw h.limitMw (hottest snap) }) := by
  have hguard : ¬(b.applied = false ∨ b.maxLimitMw ≤ b.minLimitMw) := by
    simp [happlied, hrange]
  unfold adjust
  simp only [hcurrent, if_neg hguard, Host.setPowerLimitMw, Bool.true_eq_false, if_false]
  split_ifs with hsame
  · -- the step of the updated booster is the step of `b`
    have hsame' : b.nextMw h.limitMw (hottest snap) = h.limitMw := hsame
    rw [hsame']
  · rfl

/-! ### `apply` -/

/-- The target that `apply` compares with the limit it finds. -/
def offeredMw (b : GpuPowerBooster) (h : Host) : ℤ :=
  (b.recordLimits h).targetMw

theorem apply_nvml (b : GpuPowerBooster) (h : Host) (powercfg : Powercfg) :
    b.apply h .nvml powercfg =
      if b.offeredMw h ≤ h.limitMw then
        ({ b.recordLimits h with currentLimitMw := some h.limitMw, applied := true }, h)
      else
        let b' :=
          { b.recordLimits h with currentLimitMw := some (b.offeredMw h), applied := true }
        let h' := { h with limitMw := b.offeredMw h }
        if b.config.windowsPerformanceMode ∧ h.isWin32 then b'.enableWindowsHighPerformance h' powercfg
        else (b', h') := rfl

/-- What `apply` leaves when the driver takes its request, whatever `powercfg` does. -/
structure Boosted (b : GpuPowerBooster) (h : Host) (b' : GpuPowerBooster) (h' : Host) : Prop where
  config_eq : b'.config = b.config
  min_eq : b'.minLimitMw = h.minLimitMw
  max_eq : b'.maxLimitMw = h.maxLimitMw
  original_eq : b'.originalLimitMw = some h.limitMw
  current_eq : b'.currentLimitMw = some h'.limitMw
  applied : b'.applied = true
  limit_eq : h'.limitMw = max h.limitMw (b.offeredMw h)
  host_eq : { h' with limitMw := h.limitMw, powerScheme := h.powerScheme } = h

theorem boosted_apply (b : GpuPowerBooster) (h : Host) (powercfg : Powercfg) :
    Boosted b h (b.apply h .nvml powercfg).1 (b.apply h .nvml powercfg).2 := by
  rw [apply_nvml]
  split_ifs with hle hwindows
  · exact ⟨rfl, rfl, rfl, rfl, rfl, rfl, (max_eq_left hle).symm, rfl⟩
  · -- `powercfg` touches the plan and the saved plan only
    have hlimit := (max_eq_right (not_le.mp hle).le).symm
    unfold enableWindowsHighPerformance Host.setActive
    cases powercfg.shows <;> cases powercfg.activates <;>
      exact ⟨rfl, rfl, rfl, rfl, rfl, rfl, hlimit, rfl⟩
  · exact ⟨rfl, rfl, rfl, rfl, rfl, rfl, (max_eq_right (not_le.mp hle).le).symm, rfl⟩

end GpuPowerBooster

namespace PowerCall

/-- NVML takes the request of the call, should it make one. -/
def Accepted : PowerCall → Prop
  | .apply _ reply _ => reply = .nvml
  | .setDifficulty _ => True
  | .adjust _ reply => reply = .nvml

end PowerCall

namespace PowerSession

open GpuPowerBooster (hottest)

/-! ### Runs -/

/-- The booster is applied, its limit and range are the driver's, and the limit is in the range that
`min_pct` leaves. -/
structure Held (config : PowerConfig) (h : Host) (s : PowerSession) : Prop where
  config_eq : s.booster.config = config
  min_eq : s.booster.minLimitMw = h.minLimitMw
  max_eq : s.booster.maxLimitMw = h.maxLimitMw
  hostMin_eq : s.host.minLimitMw = h.minLimitMw
  hostMax_eq : s.host.maxLimitMw = h.maxLimitMw
  applied : s.booster.applied = true
  current_eq : s.booster.currentLimitMw = some s.host.limitMw
  floor_le : s.booster.targetMwForPct config.minPct ≤ s.host.limitMw
  le_max : s.host.limitMw ≤ h.maxLimitMw

variable {s : PowerSession} {config : PowerConfig} {h : Host}

/-- `apply` holds any booster, the driver's limit being in its range. -/
theorem held_apply (hconfig : s.booster.config = config) (hrange : h.minLimitMw < h.maxLimitMw)
    (hmin : s.host.minLimitMw = h.minLimitMw) (hmax : s.host.maxLimitMw = h.maxLimitMw)
    (hle : s.host.limitMw ≤ h.maxLimitMw) (powercfg : Powercfg) :
    Held config h (s.step (.apply true .nvml powercfg)) := by
  have hboost := GpuPowerBooster.boosted_apply s.booster s.host powercfg
  have hread : (s.booster.recordLimits s.host).minLimitMw ≤ (s.booster.recordLimits s.host).maxLimitMw := by
    show s.host.minLimitMw ≤ s.host.maxLimitMw
    omega
  have htarget : s.booster.offeredMw s.host ≤ s.host.maxLimitMw := GpuPowerBooster.targetMw_le hread
  obtain ⟨hfloor, hfloor'⟩ := GpuPowerBooster.floorMw_eq hread
  constructor
  case config_eq => exact hboost.config_eq.trans hconfig
  case min_eq => exact hboost.min_eq.trans hmin
  case max_eq => exact hboost.max_eq.trans hmax
  case hostMin_eq => exact (congrArg Host.minLimitMw hboost.host_eq).trans hmin
  case hostMax_eq => exact (congrArg Host.maxLimitMw hboost.host_eq).trans hmax
  case applied => exact hboost.applied
  case current_eq => exact hboost.current_eq
  case floor_le =>
    -- the new limit is at least the target, and the target at least the floor
    have hpct : (s.booster.apply s.host .nvml powercfg).1.targetMwForPct config.minPct
        = (s.booster.recordLimits s.host).targetMwForPct (s.booster.recordLimits s.host).config.minPct := by
      rw [← hconfig]
      exact GpuPowerBooster.targetMwForPct_congr hboost.min_eq hboost.max_eq _
    calc (s.booster.apply s.host .nvml powercfg).1.targetMwForPct config.minPct
        = (s.booster.recordLimits s.host).floorMw := hpct.trans hfloor.symm
      _ ≤ s.booster.offeredMw s.host := hfloor'
      _ ≤ max s.host.limitMw (s.booster.offeredMw s.host) := le_max_right _ _
      _ = (s.booster.apply s.host .nvml powercfg).2.limitMw := hboost.limit_eq.symm
  case le_max =>
    calc (s.booster.apply s.host .nvml powercfg).2.limitMw
        = max s.host.limitMw (s.booster.offeredMw s.host) := hboost.limit_eq
      _ ≤ h.maxLimitMw := by omega

namespace Held

theorem step_adjust (hheld : Held config h s) (hrange : h.minLimitMw < h.maxLimitMw)
    (snap : GpuSnapshot) :
    s.step (.adjust (some snap) .nvml) =
      { booster :=
          { s.booster with
            effectiveTargetPct := s.booster.computeEffectiveTargetPct
            currentLimitMw := some (s.booster.nextMw s.host.limitMw (hottest snap)) }
        host := { s.host with limitMw := s.booster.nextMw s.host.limitMw (hottest snap) } } := by
  have hrange' : s.booster.minLimitMw < s.booster.maxLimitMw := by
    rw [hheld.min_eq, hheld.max_eq]
    exact hrange
  show PowerSession.mk (s.booster.adjust s.host (some snap) .nvml).1
    (s.booster.adjust s.host (some snap) .nvml).2 = _
  rw [GpuPowerBooster.adjust_nvml hheld.applied hheld.current_eq hrange']

/-- The floor of `adjust` is the limit of `min_pct`. -/
theorem floorMw_eq (hheld : Held config h s) (hrange : h.minLimitMw < h.maxLimitMw) :
    s.booster.floorMw = s.booster.targetMwForPct config.minPct := by
  rw [← hheld.config_eq]
  exact (GpuPowerBooster.floorMw_eq (hheld.min_eq ▸ hheld.max_eq ▸ hrange.le)).1

theorem next (hheld : Held config h s) (hrange : h.minLimitMw < h.maxLimitMw) {call : PowerCall}
    (hcall : call.Accepted) : Held config h (s.step call) := by
  cases call with
  | apply readable reply powercfg =>
    obtain rfl : reply = .nvml := hcall
    cases readable with
    | false => exact hheld
    | true =>
      exact held_apply hheld.config_eq hrange hheld.hostMin_eq hheld.hostMax_eq hheld.le_max powercfg
  | setDifficulty difficulty =>
    exact ⟨hheld.config_eq, hheld.min_eq, hheld.max_eq, hheld.hostMin_eq, hheld.hostMax_eq,
      hheld.applied, hheld.current_eq, hheld.floor_le, hheld.le_max⟩
  | adjust snap reply =>
    obtain rfl : reply = .nvml := hcall
    cases snap with
    | none => exact hheld
    | some snap =>
      -- `nextMw` clamps to the floor and to the maximum of the driver
      have hnext := GpuPowerBooster.nextMw_mem (hheld.min_eq ▸ hheld.max_eq ▸ hrange.le)
        s.host.limitMw (hottest snap)
      have hfloor := hheld.floorMw_eq hrange
      have hmax := hheld.max_eq
      rw [hheld.step_adjust hrange]
      exact ⟨hheld.config_eq, hheld.min_eq, hheld.max_eq, hheld.hostMin_eq, hheld.hostMax_eq,
        hheld.applied, rfl, hfloor ▸ hnext.1, hmax ▸ hnext.2⟩

/-- In the cool band a call closes the gap to the target by one step. -/
theorem limit_of_cool (hheld : Held config h s) (hrange : h.minLimitMw < h.maxLimitMw)
    {snap : GpuSnapshot} (hcool : hottest snap ≤ config.warnTempC - 12) :
    (s.step (.adjust (some snap) .nvml)).host.limitMw
      = min s.booster.targetMw (s.host.limitMw + s.booster.stepMw) := by
  rw [hheld.step_adjust hrange]
  apply GpuPowerBooster.nextMw_of_cool (hheld.min_eq ▸ hheld.max_eq ▸ hrange.le)
  · rw [hheld.floorMw_eq hrange]
    exact hheld.floor_le
  · rw [hheld.config_eq]
    exact hcool

/-- The limit after a run of cool snapshots. -/
theorem cool_run (hheld : Held config h s) (hrange : h.minLimitMw < h.maxLimitMw)
    {snaps : List GpuSnapshot} (hsnaps : snaps ≠ [])
    (hcool : ∀ snap ∈ snaps, hottest snap ≤ config.warnTempC - 12) :
    (Run.final PowerSession.step s (snaps.map fun snap => .adjust (some snap) .nvml)).host.limitMw
      = min s.booster.targetMw (s.host.limitMw + snaps.length * s.booster.stepMw) := by
  induction snaps generalizing s with
  | nil => exact absurd rfl hsnaps
  | cons snap snaps ih =>
    obtain ⟨hsnap, hrest⟩ := List.forall_mem_cons.mp hcool
    have hone := hheld.limit_of_cool hrange hsnap
    by_cases hlast : snaps = []
    · subst hlast
      simpa using hone
    · have haccepted : (PowerCall.adjust (some snap) .nvml).Accepted := rfl
      have hnext := hheld.next hrange haccepted
      -- neither target nor step size move with the limit
      have htarget : (s.step (.adjust (some snap) .nvml)).booster.targetMw = s.booster.targetMw := by
        rw [hheld.step_adjust hrange]
        rfl
      have hstep : (s.step (.adjust (some snap) .nvml)).booster.stepMw = s.booster.stepMw := by
        rw [hheld.step_adjust hrange]
        rfl
      have hnonneg := s.booster.stepMw_nonneg
      rw [List.map_cons, Run.final_cons, ih hnext hlast hrest, hone, htarget, hstep]
      have hmore : 0 ≤ (snaps.length : ℤ) * s.booster.stepMw := by positivity
      have hlen : ((snap :: snaps).length : ℤ) * s.booster.stepMw
          = snaps.length * s.booster.stepMw + s.booster.stepMw := by
        rw [List.length_cons]
        push_cast
        ring
      omega

end Held

/-- What the power steps promise in a state, for the difficulty set last: the limit between the value of
`min_pct` and the maximum of the driver; no step up above the margin of `5`, none that stays over the
target in the cool band, and the target reached in that band. -/
structure Steered (config : PowerConfig) (h : Host) (difficulty : ℤ) (s : PowerSession) : Prop where
  floor_le : h.limitOf config.minPct ≤ s.host.limitMw
  le_max : s.host.limitMw ≤ h.maxLimitMw
  hot : ∀ snap, config.warnTempC - 5 < hottest snap →
    (s.step (.adjust (some snap) .nvml)).host.limitMw ≤ s.host.limitMw
  cool : ∀ snap, hottest snap ≤ config.warnTempC - 12 →
    (s.step (.adjust (some snap) .nvml)).host.limitMw ≤ h.limitOf (config.targetPctAt difficulty)
  settles : ∀ snaps : List GpuSnapshot, 21 ≤ snaps.length →
    (∀ snap ∈ snaps, hottest snap ≤ config.warnTempC - 12) →
      (Run.final PowerSession.step s (snaps.map fun snap => .adjust (some snap) .nvml)).host.limitMw
        = h.limitOf (config.targetPctAt difficulty)

theorem Held.targetMw_eq (hheld : Held config h s) :
    s.booster.targetMw = h.limitOf (config.targetPctAt s.booster.difficulty) := by
  have htarget := s.booster.computeEffectiveTargetPct_eq
  rw [hheld.config_eq] at htarget
  exact (GpuPowerBooster.targetMwForPct_eq_limitOf hheld.min_eq hheld.max_eq _).trans
    (congrArg h.limitOf htarget)

theorem Held.steered (hheld : Held config h s) (hrange : h.minLimitMw < h.maxLimitMw) :
    Steered config h s.booster.difficulty s := by
  have htarget := hheld.targetMw_eq
  constructor
  case floor_le =>
    rw [← GpuPowerBooster.targetMwForPct_eq_limitOf hheld.min_eq hheld.max_eq]
    exact hheld.floor_le
  case le_max => exact hheld.le_max
  case hot =>
    intro snap hhot
    rw [hheld.step_adjust hrange]
    apply GpuPowerBooster.nextMw_le_of_hot
    · rw [hheld.floorMw_eq hrange]
      exact hheld.floor_le
    · rw [hheld.config_eq]
      exact hhot
  case cool =>
    intro snap hcool
    rw [hheld.limit_of_cool hrange hcool, ← htarget]
    exact min_le_left _ _
  case settles =>
    intro snaps hlen hcool
    have hsnaps : snaps ≠ [] := by
      rintro rfl
      simp at hlen
    rw [hheld.cool_run hrange hsnaps hcool, ← htarget]
    apply min_eq_left
    -- the steps of the run cross the whole range, and so the gap to the target
    have hspan := s.booster.range_le_stepMw
    have hrange' : s.booster.minLimitMw ≤ s.booster.maxLimitMw := hheld.min_eq ▸ hheld.max_eq ▸ hrange.le
    have htarget := GpuPowerBooster.targetMw_le hrange'
    have hfloor : s.booster.minLimitMw ≤ s.host.limitMw :=
      (le_max_left _ _).trans ((hheld.floorMw_eq hrange).trans_le hheld.floor_le)
    have hlen' : 21 * s.booster.stepMw ≤ snaps.length * s.booster.stepMw :=
      mul_le_mul_of_nonneg_right (by exact_mod_cast hlen) s.booster.stepMw_nonneg
    omega

/-- The booster keeps the difficulty set last, whatever else is called. -/
theorem difficulty_step (s : PowerSession) (call : PowerCall) :
    (s.step call).booster.difficulty = PowerCall.lastSet s.booster.difficulty call := by
  cases call with
  | apply readable reply powercfg =>
    cases readable with
    | false => rfl
    | true =>
      show (s.booster.apply s.host reply powercfg).1.difficulty = s.booster.difficulty
      unfold GpuPowerBooster.apply GpuPowerBooster.enableWindowsHighPerformance
      dsimp only
      split_ifs <;> rfl
  | setDifficulty difficulty => rfl
  | adjust snap reply =>
    show (s.booster.adjust s.host snap reply).1.difficulty = s.booster.difficulty
    unfold GpuPowerBooster.adjust
    dsimp only
    split <;> [split_ifs <;> rfl; rfl]

/-- **Power steps.**  After an `apply` that NVML accepts, every state of every run in which NVML goes on
accepting is `Steered` for the difficulty that was set last. -/
theorem steered_run (b : GpuPowerBooster) {h : Host} (hrange : h.minLimitMw < h.maxLimitMw)
    (hlimit : h.limitMw ≤ h.maxLimitMw) (powercfg : Powercfg) {calls : List PowerCall}
    (hcalls : ∀ call ∈ calls, call.Accepted) :
    Steered b.config h (Run.final PowerCall.lastSet b.difficulty calls)
      (Run.final PowerSession.step ⟨b, h⟩ (.apply true .nvml powercfg :: calls)) := by
  have hstart : Held b.config h (PowerSession.step ⟨b, h⟩ (.apply true .nvml powercfg)) :=
    held_apply (s := ⟨b, h⟩) rfl hrange rfl rfl hlimit powercfg
  have hrun : Held b.config h (Run.final PowerSession.step _ calls) :=
    (Run.Meets.of_mem hcalls).invariant (fun _ _ hheld => hheld.next hrange) hstart
  have hlast : (Run.final PowerSession.step ⟨b, h⟩ (.apply true .nvml powercfg :: calls)).booster.difficulty
      = Run.final PowerCall.lastSet b.difficulty (.apply true .nvml powercfg :: calls) :=
    Run.final_hom (f := fun s : PowerSession => s.booster.difficulty) difficulty_step
  exact hlast ▸ hrun.steered hrange

/-- A hot card at twice the reference difficulty, then a cool one at low difficulty. -/
theorem steered_run_heat :
    let config := PowerConfig.create 100 75 82 true true 1100 2 100
    let h : Host := ⟨330000, 200000, 600000, "381b4222-f694-41f0-9685-ff5bb260df2e", true⟩
    let hot : GpuSnapshot := ⟨24576, 8192, 79, 74, 81, 0, "board"⟩
    let cool : GpuSnapshot := ⟨24576, 8192, 60, 58, 60, 0, "board"⟩
    Steered config h 100 (Run.final PowerSession.step ⟨.create config, h⟩
      [.apply true .nvml {}, .setDifficulty 2200, .adjust (some hot) .nvml, .setDifficulty 100,
        .adjust (some cool) .nvml]) := by
  intro config h hot cool
  let calls : List PowerCall :=
    [.setDifficulty 2200, .adjust (some hot) .nvml, .setDifficulty 100, .adjust (some cool) .nvml]
  have hcalls : ∀ call ∈ calls, call.Accepted := by simp [calls, PowerCall.Accepted]
  exact steered_run (.create config) (h := h) (by decide) (by decide) {} hcalls

end PowerSession

end XenMiner
