import XenMiner.Efficiency.Equiv.ThermalPolicy
import XenMiner.Efficiency.VramGuard

/-!
# Die and board temperatures

`evaluateDieBoardTemps` first settles two effective temperatures (`effDieTemp`, `effBoardTemp`), with
proxies for missing sensors, and reads everything else off them: a limit counts when an effective
temperature reaches it (`Reaches`), and the curves take the worse of the two.  Both effective
temperatures climb with every sensor and with the difficulty as long as no sensor comes or goes, so
hotter readings never look safer (`evaluateDieBoardTemps_mono`).
-/

namespace XenMiner.VramGuard

open PyNum ThermalPolicy

variable {die die' board board' hotspot hotspot' d d' dieWarn dieMax boardWarn boardMax : ℤ}
  {derate : DerateArgs} {ctx : DifficultyContext}

/-! ### Effective temperatures -/

/-- The temperature the die limits look at: the hotspot stands in for a missing die. -/
def effDieTemp (die hotspot : ℤ) : ℤ := if 0 < die then die else max 0 hotspot

/-- The degrees the difficulty adds to a board without a sensor. -/
def boardTightenC (ctx : DifficultyContext) : ℤ :=
  if ctx.highDiffEnabled ∧ 0 < ctx.difficulty then
    highDiffTempTightenC ctx.difficulty ctx.referenceDifficulty ctx.highDiffStartRatio
      ctx.highDiffFullRatio ctx.highDiffMaxTightenC
  else 0

/-- The temperature the board limits look at: die or hotspot, tightened, for a missing board. -/
def effBoardTemp (ctx : DifficultyContext) (die board hotspot : ℤ) : ℤ :=
  if 0 < board then board
  else if 0 < max die hotspot then max die hotspot + boardTightenC ctx
  else 0

theorem evaluate_effDieC (die board hotspot : ℤ) :
    (evaluateDieBoardTemps die board hotspot dieWarn dieMax boardWarn boardMax derate ctx).effDieC
      = effDieTemp die hotspot := by
  show (if 0 < max 0 die then max 0 die else if 0 < max 0 hotspot then max 0 hotspot else 0) = _
  unfold effDieTemp
  split_ifs <;> omega

theorem evaluate_effBoardC (die board hotspot : ℤ) :
    (evaluateDieBoardTemps die board hotspot dieWarn dieMax boardWarn boardMax derate ctx).effBoardC
      = effBoardTemp ctx die board hotspot := by
  show (if 0 < max 0 board then max 0 board
    else if ctx.highDiffEnabled ∧ 0 < max (max 0 die) (max 0 hotspot) ∧ 0 < ctx.difficulty then
      effectiveControlTempC (max (max 0 die) (max 0 hotspot)) ctx.difficulty ctx.referenceDifficulty
        ctx.highDiffStartRatio ctx.highDiffFullRatio ctx.highDiffMaxTightenC
    else max (max 0 die) (max 0 hotspot)) = _
  have hbase : max (max 0 die) (max 0 hotspot) = max 0 (max die hotspot) := by omega
  rw [hbase]
  unfold effBoardTemp boardTightenC effectiveControlTempC
  generalize max die hotspot = base
  by_cases hboard : 0 < board
  · rw [if_pos (by omega), if_pos hboard]
    omega
  · rw [if_neg (by omega), if_neg hboard]
    by_cases hbase : 0 < base
    · rw [max_eq_right hbase.le, if_pos hbase, if_neg (not_le.mpr hbase)]
      by_cases hon : ctx.highDiffEnabled = true ∧ 0 < ctx.difficulty
      · rw [if_pos ⟨hon.1, hbase, hon.2⟩, if_pos hon]
      · rw [if_neg fun h => hon ⟨h.1, h.2.2⟩, if_neg hon, add_zero]
    · rw [max_eq_left (not_lt.mp hbase), if_neg fun h => absurd h.2.1 (lt_irrefl 0), if_neg hbase]

/-! ### What is read off them -/

/-- An effective temperature is there and reaches a limit. -/
def Reaches (temp limit : ℤ) : Prop := 0 < temp ∧ limit ≤ temp

instance (temp limit : ℤ) : Decidable (Reaches temp limit) := inferInstanceAs (Decidable (_ ∧ _))

theorem Reaches.mono {temp temp' limit : ℤ} (h : Reaches temp limit) (hle : temp ≤ temp') :
    Reaches temp' limit := ⟨h.1.trans_le hle, h.2.trans hle⟩

/-- An effective temperature that is missing takes nothing off the batch. -/
theorem thermalBatchScale_of_missing (temp warn hard : ℤ) (minScale : ℚ) :
    (if 0 < temp then thermalBatchScale temp warn hard minScale else 1)
      = thermalBatchScale temp warn hard minScale := by
  split_ifs with htemp
  · rfl
  · exact (if_pos (not_lt.mp htemp)).symm

/-- Nor does it take lanes. -/
theorem thermalLaneCap_of_missing {planned : ℤ} (hplanned : 1 < planned) (temp warn hard minLanes : ℤ) :
    (if 0 < temp ∧ 1 < planned then thermalLaneCap planned temp warn hard minLanes else planned)
      = thermalLaneCap planned temp warn hard minLanes := by
  split_ifs with htemp
  · rfl
  · have hmissing : temp ≤ 0 := by omega
    unfold thermalLaneCap
    dsimp only
    rw [if_pos hmissing, ite_self]
    omega

section Outputs

variable (e : DualTempEval)
  (he : e = evaluateDieBoardTemps die board hotspot dieWarn dieMax boardWarn boardMax derate ctx)

include he

theorem evaluate_abort : e.abort = true ↔ Reaches e.effDieC (normLimit dieWarn dieMax).2 ∨
    Reaches e.effBoardC (normLimit boardWarn boardMax).2 := by
  subst he
  show (decide _ || decide _) = true ↔ _
  rw [Bool.or_eq_true, decide_eq_true_iff, decide_eq_true_iff]
  exact Iff.rfl

theorem evaluate_level : e.level = if e.abort = true then .emergency
    else if Reaches e.effDieC (normLimit dieWarn dieMax).1 ∨
      Reaches e.effBoardC (normLimit boardWarn boardMax).1 then .warn else .ok := by
  subst he
  generalize hA : (evaluateDieBoardTemps die board hotspot dieWarn dieMax boardWarn boardMax derate
    ctx).abort = A
  have hlevel : (evaluateDieBoardTemps die board hotspot dieWarn dieMax boardWarn boardMax derate
      ctx).level = if A = true then .emergency
        else if (!A && decide (Reaches (evaluateDieBoardTemps die board hotspot dieWarn dieMax boardWarn
            boardMax derate ctx).effDieC (normLimit dieWarn dieMax).1)
          || !A && decide (Reaches (evaluateDieBoardTemps die board hotspot dieWarn dieMax boardWarn
            boardMax derate ctx).effBoardC (normLimit boardWarn boardMax).1)) = true
          then .warn else .ok := by
    rw [← hA]
    rfl
  rw [hlevel]
  cases A with
  | false => simp
  | true => rfl

theorem evaluate_batchScale : e.batchScale =
    min (thermalBatchScale e.effDieC (normLimit dieWarn dieMax).1 (normLimit dieWarn dieMax).2
        derate.batchMinScale)
      (thermalBatchScale e.effBoardC (normLimit boardWarn boardMax).1 (normLimit boardWarn boardMax).2
        derate.batchMinScale) := by
  subst he
  rw [← thermalBatchScale_of_missing, ← thermalBatchScale_of_missing (evaluateDieBoardTemps die board
    hotspot dieWarn dieMax boardWarn boardMax derate ctx).effBoardC]
  rfl

theorem evaluate_laneCap : e.laneCapFromTemp =
    if 1 < derate.plannedLanes then
      some (min
        (thermalLaneCap derate.plannedLanes e.effDieC (normLimit dieWarn dieMax).1
          (normLimit dieWarn dieMax).2 derate.minLanes)
        (thermalLaneCap derate.plannedLanes e.effBoardC (normLimit boardWarn boardMax).1
          (normLimit boardWarn boardMax).2 derate.minLanes))
    else none := by
  subst he
  by_cases hplanned : 1 < derate.plannedLanes
  · rw [if_pos hplanned, ← thermalLaneCap_of_missing hplanned, ← thermalLaneCap_of_missing hplanned
      (evaluateDieBoardTemps die board hotspot dieWarn dieMax boardWarn boardMax derate ctx).effBoardC]
    exact if_pos hplanned
  · rw [if_neg hplanned]
    exact if_neg hplanned

end Outputs

/-! ### Hotter readings -/

/-- `new` has the sensors of `old` and none of them reads less. -/
structure Hotter (old new : ℤ) : Prop where
  present : 0 < new ↔ 0 < old
  le : old ≤ new

theorem Hotter.effDieTemp (hdie : Hotter die die') (hhotspot : Hotter hotspot hotspot') :
    effDieTemp die hotspot ≤ VramGuard.effDieTemp die' hotspot' := by
  have hpresent := hdie.present
  have hle := hdie.le
  have hle' := hhotspot.le
  unfold VramGuard.effDieTemp
  split_ifs <;> omega

theorem boardTightenC_nonneg (ctx : DifficultyContext) : 0 ≤ boardTightenC ctx := by
  unfold boardTightenC
  split_ifs
  · exact highDiffTempTightenC_nonneg _ _ _ _ _
  · exact le_rfl

theorem boardTightenC_mono (h : d ≤ d') :
    boardTightenC { ctx with difficulty := d } ≤ boardTightenC { ctx with difficulty := d' } := by
  by_cases hon : ctx.highDiffEnabled = true ∧ 0 < d
  · have hon' : ctx.highDiffEnabled = true ∧ 0 < d' := ⟨hon.1, hon.2.trans_le h⟩
    unfold boardTightenC
    rw [if_pos hon, if_pos hon']
    exact highDiffTempTightenC_mono h _ _ _ _
  · have hzero : boardTightenC { ctx with difficulty := d } = 0 := if_neg hon
    rw [hzero]
    exact boardTightenC_nonneg _

theorem Hotter.effBoardTemp (hdie : Hotter die die') (hboard : Hotter board board')
    (hhotspot : Hotter hotspot hotspot') (hd : d ≤ d') :
    effBoardTemp { ctx with difficulty := d } die board hotspot
      ≤ VramGuard.effBoardTemp { ctx with difficulty := d' } die' board' hotspot' := by
  have htighten : boardTightenC { ctx with difficulty := d }
      ≤ boardTightenC { ctx with difficulty := d' } := boardTightenC_mono hd
  have hnonneg := boardTightenC_nonneg { ctx with difficulty := d' }
  have hpresent := hboard.present
  have hle := hboard.le
  have hdle := hdie.le
  have hhle := hhotspot.le
  unfold VramGuard.effBoardTemp
  split_ifs <;> omega

/-- `ok < warn < emergency`. -/
def Level.severity : Level → ℕ
  | .ok => 0
  | .warn => 1
  | .emergency => 2

/-- **Hotter readings never look safer.**  With the same sensors present, no sensor and no difficulty
lower: the level is at least as severe, an abort stays, and batch scale and lane cap are no larger. -/
theorem evaluateDieBoardTemps_mono (dieWarn dieMax boardWarn boardMax : ℤ) (derate : DerateArgs)
    (ctx : DifficultyContext) (hdie : Hotter die die') (hboard : Hotter board board')
    (hhotspot : Hotter hotspot hotspot') (hd : d ≤ d') :
    let old := evaluateDieBoardTemps die board hotspot dieWarn dieMax boardWarn boardMax derate
      { ctx with difficulty := d }
    let new := evaluateDieBoardTemps die' board' hotspot' dieWarn dieMax boardWarn boardMax derate
      { ctx with difficulty := d' }
    old.level.severity ≤ new.level.severity ∧ (old.abort = true → new.abort = true) ∧
      new.batchScale ≤ old.batchScale ∧
      (new.laneCapFromTemp.isSome = old.laneCapFromTemp.isSome ∧
        ∀ cap ∈ old.laneCapFromTemp, ∀ cap' ∈ new.laneCapFromTemp, cap' ≤ cap) := by
  intro old new
  have hdieTemp : old.effDieC ≤ new.effDieC := by
    rw [evaluate_effDieC, evaluate_effDieC]
    exact hdie.effDieTemp hhotspot
  have hboardTemp : old.effBoardC ≤ new.effBoardC := by
    rw [evaluate_effBoardC, evaluate_effBoardC]
    exact hdie.effBoardTemp hboard hhotspot hd
  have habort : old.abort = true → new.abort = true := by
    rw [evaluate_abort old rfl, evaluate_abort new rfl]
    exact Or.imp (fun h => h.mono hdieTemp) fun h => h.mono hboardTemp
  refine ⟨?_, habort, ?_, ?_⟩
  · rw [evaluate_level old rfl, evaluate_level new rfl]
    by_cases hstop : new.abort = true
    · rw [if_pos hstop]
      split_ifs <;> decide
    · rw [if_neg hstop, if_neg (mt habort hstop)]
      split_ifs with hwarn hwarn'
      · exact le_rfl
      · exact absurd (hwarn.imp (fun h => h.mono hdieTemp) fun h => h.mono hboardTemp) hwarn'
      · exact Nat.zero_le _
      · exact le_rfl
  · rw [evaluate_batchScale old rfl, evaluate_batchScale new rfl]
    exact min_le_min (thermalBatchScale_anti _ _ _ hdieTemp _) (thermalBatchScale_anti _ _ _ hboardTemp _)
  · rw [evaluate_laneCap old rfl, evaluate_laneCap new rfl]
    split_ifs
    · refine ⟨rfl, ?_⟩
      rintro _ ⟨⟩ _ ⟨⟩
      exact min_le_min (thermalLaneCap_anti _ _ _ _ hdieTemp _ _)
        (thermalLaneCap_anti _ _ _ _ hboardTemp _ _)
    · refine ⟨rfl, ?_⟩
      rintro _ ⟨⟩

/-- No board sensor: a die at 78 degrees is an emergency at twice the reference difficulty, and stays
one when it heats up. -/
theorem evaluateDieBoardTemps_mono_proxy :
    let derate : DerateArgs := { plannedLanes := 8 }
    let old := evaluateDieBoardTemps 78 0 0 78 84 85 90 derate { difficulty := 2100 }
    let new := evaluateDieBoardTemps 80 0 0 78 84 85 90 derate { difficulty := 2200 }
    old.abort = true ∧ new.abort = true ∧ new.batchScale ≤ old.batchScale := by
  intro derate old new
  have hdie : Hotter 78 80 := ⟨by decide, by decide⟩
  have hmissing : Hotter 0 0 := ⟨Iff.rfl, le_rfl⟩
  have hd : (2100 : ℤ) ≤ 2200 := by decide
  obtain ⟨-, habort, hscale, -⟩ :=
    evaluateDieBoardTemps_mono 78 84 85 90 derate {} hdie hmissing hmissing hd
  have hold : old.abort = true := by decide +kernel
  exact ⟨hold, habort hold, hscale⟩

end XenMiner.VramGuard
