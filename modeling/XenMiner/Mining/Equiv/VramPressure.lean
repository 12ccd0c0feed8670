import XenMiner.Efficiency.Equiv.ThermalPolicy
import XenMiner.Lib.DeadBand
import XenMiner.Mining.Equiv.Derate

/-!
# Coming back from VRAM pressure

A reading at the target or below asks for the full VRAM scale and for no VRAM lane cap.  The lane cap
is recomputed from each reading and always obeys (`effectivePlan_of_cap_ge`), but the scale follows
through a dead band of `0.005`.  A reading barely above the target can lead the scale near `1`, and from
there it never comes back; a run in which no reading does that recovers from everything
(`restored_run_iff`).
-/

namespace XenMiner.CudaNativeBackend

open PyNum ThermalPolicy VramBatch VramPolicy DeadBand

variable {s : CudaNativeBackend} {env : EngineReply} {base : CudaVramPlan}
  {used target emergency : ℤ}

/-! ### The lane cap -/

theorem one_le_biasedLanes {planned d : ℤ} (h : s.biasedLanes planned d < planned) :
    1 ≤ s.biasedLanes planned d := by
  unfold biasedLanes at h ⊢
  split_ifs at h ⊢
  · exact one_le_difficultyLaneBias _ _ _ _
  · omega

/-- A VRAM cap of at least the lanes that the bias leaves takes none away. -/
theorem effectivePlan_of_cap_ge
    (h : ∀ cap ∈ s.vramLaneCap, min base.lanes (s.biasedLanes base.lanes base.difficulty) ≤ cap) :
    s.effectivePlan base = ({ s with vramLaneCap := none } : CudaNativeBackend).effectivePlan base := by
  cases hcap : s.vramLaneCap with
  | none =>
    unfold effectivePlan liveLaneCaps
    rw [hcap]
    rfl
  | some cap =>
    have hge := h cap hcap
    -- bias alone leaves no more lanes than the cap allows
    have hplan : ((if s.biasedLanes base.lanes base.difficulty < base.lanes then
        applyLaneCap base (s.biasedLanes base.lanes base.difficulty) else base).lanes) ≤ cap := by
      split_ifs with hbias
      · have hpos := one_le_biasedLanes hbias
        have hle := applyLaneCap_lanes_le (p := base) (by omega)
          (k := s.biasedLanes base.lanes base.difficulty)
        omega
      · omega
    have hsame : ({ s with vramLaneCap := none } : CudaNativeBackend).biasedLanes base.lanes
        base.difficulty = s.biasedLanes base.lanes base.difficulty := rfl
    unfold effectivePlan liveLaneCaps
    rw [hsame]
    dsimp only
    generalize (if s.biasedLanes base.lanes base.difficulty < base.lanes then
      applyLaneCap base (s.biasedLanes base.lanes base.difficulty) else base) = plan at hplan ⊢
    have hdrop : [cap].filter (fun c => decide (c < plan.lanes)) = [] := by
      simpa using hplan
    rw [hcap, List.filter_append, Option.toList_some, hdrop, Option.toList_none, List.append_nil,
      List.append_nil]

/-! ### The scale -/

theorem combinedBatchScale_mem (s : CudaNativeBackend) :
    1 / 2 ≤ s.combinedBatchScale ∧ s.combinedBatchScale ≤ 1 := by
  have hlow := clampFloat_floor_mem (min s.thermalFloor s.vramFloor)
  exact ⟨hlow.1.trans (le_clamp _ _ _), clamp_le hlow.2⟩

theorem setVramBatchScale_vramBatchScale (s : CudaNativeBackend) (scale : ℚ) :
    (s.setVramBatchScale scale).vramBatchScale =
      follow NearScale s.vramBatchScale (clampFloat scale s.vramFloor 1) := by
  unfold setVramBatchScale rescale follow
  dsimp only
  split_ifs <;> rfl

theorem setThermalBatchScale_vramBatchScale (s : CudaNativeBackend) (scale : ℚ) :
    (s.setThermalBatchScale scale).vramBatchScale = s.vramBatchScale := by
  unfold setThermalBatchScale rescale
  dsimp only
  split_ifs <;> rfl

/-- The scale a reading asks for. -/
def pressureScale (s : CudaNativeBackend) (used target emergency : ℤ) : ℚ :=
  if s.settings.vramSoftDerateEnabled then
    vramPressureScale used target emergency s.settings.vramSoftMinScale 0 Binary64.round
  else 1

/-- The VRAM scale an operation asks for. -/
def scaleAsked (s : CudaNativeBackend) : EngineReply × Op → ℚ
  | (_, .setVramBatchScale scale) => clampFloat scale s.vramFloor 1
  | (_, .updateVramPressureFromUsed used target emergency) =>
    s.pressureScale used target emergency
  | _ => s.vramBatchScale

theorem noteVramPressure_vramBatchScale (s : CudaNativeBackend) (used target emergency : ℤ) :
    (s.noteVramPressure used target emergency).vramBatchScale =
      follow NearScale s.vramBatchScale (s.pressureScale used target emergency) := by
  have hset := fun scale => setVramBatchScale_vramBatchScale { s with lastVramUsedMib := used } scale
  unfold noteVramPressure pressureScale
  dsimp only at hset ⊢
  have hmem := vramPressureScale_mem used target emergency s.settings.vramSoftMinScale 0 Binary64.round
  have hclamp : clampFloat (vramPressureScale used target emergency s.settings.vramSoftMinScale 0
      Binary64.round) s.vramFloor 1 =
        vramPressureScale used target emergency s.settings.vramSoftMinScale 0 Binary64.round :=
    clamp_eq_self hmem.1 hmem.2
  have hone : clampFloat 1 s.vramFloor 1 = 1 := clamp_eq_self s.vramFloor_mem.2 le_rfl
  split_ifs
  · exact (hset _).trans (congrArg (follow NearScale _) hclamp)
  · exact (hset _).trans (congrArg (follow NearScale _) hclamp)
  · exact (hset _).trans (congrArg (follow NearScale _) hone)

theorem updateVramPressureFromUsed_vramBatchScale (s : CudaNativeBackend) (env : EngineReply)
    (used target emergency : ℤ) :
    (s.updateVramPressureFromUsed env used target emergency).vramBatchScale =
      follow NearScale s.vramBatchScale (s.pressureScale used target emergency) :=
  (replanned_reapplyLiveCaps _ env).vramBatchScale_eq.trans
    (noteVramPressure_vramBatchScale s used target emergency)

/-- Every operation leads the VRAM scale towards what it asks for, through the dead band. -/
theorem step_vramBatchScale (s : CudaNativeBackend) (i : EngineReply × Op) :
    (s.step i).vramBatchScale = follow NearScale s.vramBatchScale (s.scaleAsked i) := by
  have hkeep : follow NearScale s.vramBatchScale s.vramBatchScale = s.vramBatchScale := follow_self _
  obtain ⟨env, op⟩ := i
  cases op with
  | start => exact (replanned_start s env).vramBatchScale_eq.trans hkeep.symm
  | stop =>
    refine Eq.trans ?_ hkeep.symm
    show s.stop.vramBatchScale = _
    unfold CudaNativeBackend.stop
    split_ifs <;> rfl
  | setVramCaps caps => exact hkeep.symm
  | setDifficulty d => exact (replanned_setDifficulty s env d).vramBatchScale_eq.trans hkeep.symm
  | setThermalBatchScale scale =>
    exact (setThermalBatchScale_vramBatchScale s scale).trans hkeep.symm
  | setVramBatchScale scale => exact setVramBatchScale_vramBatchScale s scale
  | updateThermalBatchFromTemp temperatureC =>
    exact (setThermalBatchScale_vramBatchScale _ _).trans hkeep.symm
  | updateThermalLanesFromTemp temperatureC =>
    refine Eq.trans ?_ hkeep.symm
    show (s.updateThermalLanesFromTemp env temperatureC).vramBatchScale = _
    unfold CudaNativeBackend.updateThermalLanesFromTemp
    split_ifs
    · rfl
    · exact (replanned_reapplyLiveCaps _ env).vramBatchScale_eq
  | updateVramPressureFromUsed used target emergency =>
    exact updateVramPressureFromUsed_vramBatchScale s env used target emergency

/-- The scale is full or far enough from it to come back. -/
def ScaleRests (s : CudaNativeBackend) : Prop := Rests NearScale 1 s.vramBatchScale

/-- The operation asks for a scale that is full or far enough from it, or for one that the dead band
swallows. -/
def Recoverable (s : CudaNativeBackend) (i : EngineReply × Op) : Prop :=
  Rests NearScale 1 (s.scaleAsked i) ∨ NearScale s.vramBatchScale (s.scaleAsked i)

instance (s : CudaNativeBackend) (i : EngineReply × Op) : Decidable (s.Recoverable i) :=
  inferInstanceAs (Decidable (_ ∨ _))

theorem scaleRests_step_iff (h : s.ScaleRests) (i : EngineReply × Op) :
    (s.step i).ScaleRests ↔ s.Recoverable i := by
  unfold ScaleRests
  rw [step_vramBatchScale]
  exact rests_follow_iff h

/-! ### Relief -/

/-- The VRAM scale is full and the VRAM lane cap takes no lane away. -/
def VramRestored (s : CudaNativeBackend) : Prop :=
  s.vramBatchScale = 1 ∧ ∀ base, s.baseVramPlan = some base →
    s.vramPlan = some (({ s with vramLaneCap := none } : CudaNativeBackend).effectivePlan base) ∧
      s.lanes = (({ s with vramLaneCap := none } : CudaNativeBackend).effectivePlan base).lanes

/-- A relieved reading leaves no VRAM lane cap below the planned lanes. -/
theorem noteVramPressure_cap_ge (h : s.settings.vramSoftDerateEnabled = true → used ≤ target)
    (hbase : s.baseVramPlan = some base) :
    ∀ cap ∈ (s.noteVramPressure used target emergency).vramLaneCap,
      s.biasedLanes base.lanes base.difficulty ≤ cap := by
  have hplanned : ∀ scale, (({ s with lastVramUsedMib := used } : CudaNativeBackend).setVramBatchScale
      scale).plannedLanes = s.biasedLanes base.lanes base.difficulty := by
    intro scale
    unfold setVramBatchScale rescale plannedLanes
    dsimp only
    split_ifs <;> rw [hbase] <;> rfl
  unfold noteVramPressure
  dsimp only
  rw [hplanned]
  split_ifs with hsoft hlane
  · rintro cap ⟨⟩
    rw [vramPressureLaneCap_of_le (h hsoft)]
    exact le_max_right _ _
  · exact nofun
  · exact nofun

theorem noteVramPressure_biasedLanes (planned d : ℤ) :
    (s.noteVramPressure used target emergency).biasedLanes planned d = s.biasedLanes planned d := by
  unfold noteVramPressure setVramBatchScale rescale
  dsimp only
  split_ifs <;> rfl

/-- After a relieved reading the derating is undone exactly if the scale was not stuck. -/
theorem vramRestored_update_iff (h : s.settings.vramSoftDerateEnabled = true → used ≤ target) :
    (s.updateVramPressureFromUsed env used target emergency).VramRestored ↔ s.ScaleRests := by
  have hasked : s.pressureScale used target emergency = 1 := by
    unfold pressureScale
    split_ifs with hsoft
    · exact vramPressureScale_of_le (h hsoft) _ _ _
    · rfl
  unfold VramRestored ScaleRests
  rw [updateVramPressureFromUsed_vramBatchScale, hasked, ← follow_top_eq, and_iff_left]
  intro base hbase
  have hnoted := (noteVramPressure_keeps s used target emergency).1
  obtain ⟨hbase', -⟩ := reapplyLiveCaps_keeps (s.noteVramPressure used target emergency) env
  have hsome : s.baseVramPlan = some base := by
    rw [← hnoted, ← hbase']
    exact hbase
  have hcap : ∀ cap ∈ (s.noteVramPressure used target emergency).vramLaneCap, min base.lanes
      ((s.noteVramPressure used target emergency).biasedLanes base.lanes base.difficulty) ≤ cap := by
    intro cap hcap
    rw [noteVramPressure_biasedLanes]
    exact (min_le_right _ _).trans (noteVramPressure_cap_ge h hsome cap hcap)
  have heff := effectivePlan_of_cap_ge hcap
  unfold updateVramPressureFromUsed CudaNativeBackend.reapplyLiveCaps
  rw [hnoted, hsome]
  dsimp only
  split_ifs
  · obtain ⟨engines, mode, hsync, -⟩ := syncLaneEngines_eq ((s.noteVramPressure used target
      emergency).applyPlan ((s.noteVramPressure used target emergency).effectivePlan base) base) env
    rw [hsync]
    exact ⟨congrArg some heff, congrArg CudaVramPlan.lanes heff⟩
  · exact ⟨congrArg some heff, congrArg CudaVramPlan.lanes heff⟩

/-! ### Runs -/

/-- Two readings above the target, the second by 9 MiB only, and the pressure is gone: the scale stays
below `1` however often the usage is at the target again, and the batch with it. -/
theorem restored_fails :
    let s := Run.final step (create { memoryCost := 100 } true 8) [(steadyEngine, .start),
      (steadyEngine, .updateVramPressureFromUsed 10023 10000 11000),
      (steadyEngine, .updateVramPressureFromUsed 10009 10000 11000),
      (steadyEngine, .updateVramPressureFromUsed 10000 10000 11000),
      (steadyEngine, .updateVramPressureFromUsed 8000 10000 11000)]
    s.vramBatchScale = Binary64.round (19919 / 20000) ∧ s.batchPerLane < s.plannedBatchPerLane ∧
      ¬ s.VramRestored := by
  intro s
  have hstuck : s.vramBatchScale = Binary64.round (19919 / 20000) ∧ s.vramBatchScale ≠ 1 ∧
      s.batchPerLane < s.plannedBatchPerLane := by
    decide +kernel
  exact ⟨hstuck.1, hstuck.2.2, fun hrestored => hstuck.2.1 hrestored.1⟩

/-- **VRAM derating is undone once the pressure is gone**, at every point of a run, if and only if no
operation of the run asks for a scale within `0.005` of `1`, but not for `1`, that is `0.005` or more
away from the scale in force: a reading at the target or below, or any reading with soft derating off,
then brings the scale back to `1` and leaves no lane to the VRAM cap. -/
theorem restored_run_iff (settings : Settings) (lib : Bool) (maxLanes : ℤ)
    (inputs : List (EngineReply × Op)) :
    (∀ n env used target emergency,
      let s := Run.final step (create settings lib maxLanes) (inputs.take n)
      (s.settings.vramSoftDerateEnabled = true → used ≤ target) →
        (s.updateVramPressureFromUsed env used target emergency).VramRestored) ↔
      Run.Meets step Recoverable (create settings lib maxLanes) inputs := by
  have hfull : (create settings lib maxLanes).ScaleRests := rests_top
  rw [Run.meets_iff_forall_take (I := ScaleRests) (fun _ i h => scaleRests_step_iff h i) hfull]
  constructor
  · intro hall n
    -- with nothing in use every reading is relieved
    exact (vramRestored_update_iff fun _ => le_rfl).mp (hall n steadyEngine 0 0 0 fun _ => le_rfl)
  · intro hrests n env used target emergency s hrelieved
    exact (vramRestored_update_iff hrelieved).mpr (hrests n)

/-- A step of the scale that is exactly as wide as the dead band is swallowed, the difference of the
doubles being smaller: the readings end at the target, and the scale stays at `0.999375`. -/
example : (Run.final step (create {} true 8) [
    (steadyEngine, .updateVramPressureFromUsed 10033 10000 11440),
    (steadyEngine, .updateVramPressureFromUsed 10017 10000 11440),
    (steadyEngine, .updateVramPressureFromUsed 10002 10000 11440),
    (steadyEngine, .updateVramPressureFromUsed 10000 10000 11440)]).vramBatchScale =
      Binary64.round (999375 / 1000000) := by decide +kernel

end XenMiner.CudaNativeBackend
