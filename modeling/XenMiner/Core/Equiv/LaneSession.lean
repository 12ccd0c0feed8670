import XenMiner.Core.LaneSession
import XenMiner.Efficiency.Equiv.CudaLanePolicy
import XenMiner.Lib.Run
import XenMiner.Mining.Equiv.CudaNative

/-!
# The lane cap in memory, in the backend and on disk

`Synced` is what holds between the three copies of the cap after every step.  Each step changes the cap
in one of three ways (`CapChange`), from which the counting of the reductions and the conditions of a
restore follow.  A load of a load is that load, so a restart changes no cap, saved or not.
-/

namespace XenMiner

open CudaLanePolicy CudaNativeBackend

/-! ### Other operations on the backend -/

namespace CudaNativeBackend

variable {s : CudaNativeBackend} {env : EngineReply}

/-- What only the lane cap functions change, or nothing does. -/
def rig (s : CudaNativeBackend) : Settings × Bool × ℤ :=
  (s.settings, s.parallelLanesSupported, s.maxLanesCap)

theorem rig_observeDevice (s : CudaNativeBackend) (info : DeviceInfo) :
    (s.observeDevice info).rig = s.rig := by
  obtain ⟨caps, foreign, baseline, heq⟩ := observeDevice_eq s info
  rw [heq]
  rfl

theorem rig_syncLaneEngines (s : CudaNativeBackend) (env : EngineReply) :
    (s.syncLaneEngines env).1.rig = s.rig := by
  obtain ⟨engines, mode, heq, -⟩ := syncLaneEngines_eq s env
  rw [heq]
  rfl

theorem rig_reapplyLiveCaps (s : CudaNativeBackend) (env : EngineReply) :
    (s.reapplyLiveCaps env).1.rig = s.rig :=
  reapplyLiveCaps_rule (P := fun t => t.rig = s.rig) env (fun _ => rfl)
    (fun _ _ _ => rig_syncLaneEngines _ env) fun _ _ => rfl

theorem rig_rescale (s : CudaNativeBackend) : s.rescale.rig = s.rig := by
  unfold rescale
  split_ifs <;> rfl

theorem rig_setThermalBatchScale (s : CudaNativeBackend) (scale : ℚ) :
    (s.setThermalBatchScale scale).rig = s.rig := by
  unfold setThermalBatchScale
  dsimp only
  split_ifs
  · rfl
  · rw [rig_rescale]
    rfl

theorem rig_setVramBatchScale (s : CudaNativeBackend) (scale : ℚ) :
    (s.setVramBatchScale scale).rig = s.rig := by
  unfold setVramBatchScale
  dsimp only
  split_ifs
  · rfl
  · rw [rig_rescale]
    rfl

theorem rig_noteVramPressure (s : CudaNativeBackend) (used target emergency : ℤ) :
    (s.noteVramPressure used target emergency).rig = s.rig := by
  unfold noteVramPressure
  dsimp only
  split_ifs <;> exact rig_setVramBatchScale _ _

theorem rig_start (s : CudaNativeBackend) (env : EngineReply) : (s.start env).1.rig = s.rig := by
  have hseen : ∀ info, ((s.coldStart info).observeDevice info).rig = s.rig :=
    fun info => rig_observeDevice (s.coldStart info) info
  refine start_rule (P := fun t => t.rig = s.rig) env (fun _ => rfl) (fun _ => rfl)
    (fun info _ => hseen info) fun info t base _ _ hfrom => ?_
  have ht : t.rig = s.rig := (Prod.mk.inj hfrom).1 ▸ hseen info
  exact (rig_syncLaneEngines _ env).trans ht

theorem rig_replan (s : CudaNativeBackend) (env : EngineReply) : (s.replan env).1.rig = s.rig := by
  refine replan_rule (P := fun t => t.rig = s.rig) env rfl (rig_observeDevice s)
    fun info t base _ hfrom => ?_
  have ht : t.rig = s.rig := (Prod.mk.inj hfrom).1 ▸ rig_observeDevice s info
  exact (rig_syncLaneEngines _ env).trans ht

/-- No other operation touches the cap. -/
theorem rig_step (s : CudaNativeBackend) (i : EngineReply × Op) : (s.step i).rig = s.rig := by
  obtain ⟨env, op⟩ := i
  cases op with
  | start => exact rig_start s env
  | stop =>
    show s.stop.rig = s.rig
    unfold stop
    split_ifs <;> rfl
  | setVramCaps caps => rfl
  | setDifficulty difficulty =>
    exact setDifficulty_rule (P := fun t => t.rig = s.rig) env (fun _ => rfl) (fun _ => rfl)
      fun _ _ => rig_replan _ env
  | setThermalBatchScale scale => exact rig_setThermalBatchScale s scale
  | setVramBatchScale scale => exact rig_setVramBatchScale s scale
  | updateThermalBatchFromTemp temperatureC =>
    show (s.updateThermalBatchFromTemp temperatureC).rig = s.rig
    unfold updateThermalBatchFromTemp
    rw [rig_setThermalBatchScale]
    rfl
  | updateThermalLanesFromTemp temperatureC =>
    show (s.updateThermalLanesFromTemp env temperatureC).rig = s.rig
    unfold updateThermalLanesFromTemp
    split_ifs
    · rfl
    · rw [rig_reapplyLiveCaps]
      rfl
  | updateVramPressureFromUsed used target emergency =>
    show (s.updateVramPressureFromUsed env used target emergency).rig = s.rig
    unfold updateVramPressureFromUsed
    rw [rig_reapplyLiveCaps, rig_noteVramPressure]

end CudaNativeBackend

/-! ### Steps of a session -/

namespace LaneSession

variable {intOfFloat : List Char → Except LoadError ℤ} {s t : LaneSession}

/-- The three copies of the cap agree, and the file gives the policy back. -/
structure Synced (intOfFloat : List Char → Except LoadError ℤ) (s : LaneSession) : Prop where
  loadable : Loadable s.cudaMaxLanes s.lanePolicy
  cap : s.backend.maxLanesCap = s.lanePolicy.effectiveMaxLanes
  file : loadLanePolicy intOfFloat s.policyFile s.cudaMaxLanes = .ok s.lanePolicy.trimmed

/-- A policy that was just saved. -/
theorem synced_of_saved {updatedAt : String} (h : Loadable s.cudaMaxLanes s.lanePolicy)
    (hcap : s.backend.maxLanesCap = s.lanePolicy.effectiveMaxLanes)
    (hfile : s.policyFile = saveLanePolicy s.lanePolicy updatedAt) : Synced intOfFloat s where
  loadable := h
  cap := hcap
  file := by
    rw [hfile]
    exact loadLanePolicy_saveLanePolicy intOfFloat h updatedAt

/-- What one step does: the cap is kept, or lowered and counted, or raised where `rise` holds. -/
structure CapChange (intOfFloat : List Char → Except LoadError ℤ) (rise : Prop) (s t : LaneSession) :
    Prop where
  synced : Synced intOfFloat t
  cudaMaxLanes : t.cudaMaxLanes = s.cudaMaxLanes
  settings : t.backend.settings = s.backend.settings
  reductions : t.lanePolicy.tempReductions = s.lanePolicy.tempReductions +
    if t.backend.maxLanesCap < s.backend.maxLanesCap then 1 else 0
  rises : s.backend.maxLanesCap < t.backend.maxLanesCap → rise

theorem CapChange.imp {rise rise' : Prop} (h : CapChange intOfFloat rise s t)
    (himp : rise → rise') : CapChange intOfFloat rise' s t where
  synced := h.synced
  cudaMaxLanes := h.cudaMaxLanes
  settings := h.settings
  reductions := h.reductions
  rises hlt := himp (h.rises hlt)

/-- A step that at most forgets old events. -/
theorem capChange_of_keeps (h : Synced intOfFloat s)
    (hpolicy : t.lanePolicy.trimmed = s.lanePolicy.trimmed) (hfile : t.policyFile = s.policyFile)
    (hmax : t.cudaMaxLanes = s.cudaMaxLanes) (hset : t.backend.settings = s.backend.settings)
    (hcap : t.backend.maxLanesCap = s.backend.maxLanesCap) : CapChange intOfFloat False s t where
  synced := by
    obtain ⟨⟨hconfig, hpos, hle⟩, hsame, hload⟩ := h
    have hconfig' := congrArg CudaLanePolicyState.configMaxLanes hpolicy
    have heff := congrArg CudaLanePolicyState.effectiveMaxLanes hpolicy
    dsimp only [CudaLanePolicyState.trimmed] at hconfig' heff
    refine ⟨⟨?_, ?_, ?_⟩, ?_, ?_⟩
    · rw [hconfig', hmax, hconfig]
    · rw [heff]
      exact hpos
    · rw [heff, hconfig']
      exact hle
    · rw [hcap, heff, hsame]
    · rw [hfile, hmax, hpolicy]
      exact hload
  cudaMaxLanes := hmax
  settings := hset
  reductions := by
    have hred := congrArg CudaLanePolicyState.tempReductions hpolicy
    dsimp only [CudaLanePolicyState.trimmed] at hred
    rw [hred, hcap, if_neg (lt_irrefl _), add_zero]
  rises hlt := by
    rw [hcap] at hlt
    exact lt_irrefl _ hlt

theorem CapChange.refl (h : Synced intOfFloat s) : CapChange intOfFloat False s s :=
  capChange_of_keeps h rfl rfl rfl rfl rfl

/-- The cap goes down by one where it can. -/
theorem reduceLaneCap_cases (s : LaneSession) (updatedAt : String) :
    s.reduceLaneCap updatedAt = (s, max 1 (s.backend.maxLanesCap - 1)) ∧
        s.backend.maxLanesCap ≤ max 1 (s.backend.maxLanesCap - 1) ∨
      1 ≤ s.backend.maxLanesCap - 1 ∧ s.reduceLaneCap updatedAt =
        ({ s with
            backend := { s.backend with maxLanesCap := s.backend.maxLanesCap - 1 }
            lanePolicy := { s.lanePolicy with effectiveMaxLanes := s.backend.maxLanesCap - 1 }
            policyFile := saveLanePolicy
              { s.lanePolicy with effectiveMaxLanes := s.backend.maxLanesCap - 1 } updatedAt },
          s.backend.maxLanesCap - 1) ∨
      s.backend.maxLanesCap < 1 := by
  rcases lt_trichotomy s.backend.maxLanesCap 1 with hlow | hone | hhigh
  · exact Or.inr (Or.inr hlow)
  · refine Or.inl ⟨?_, by omega⟩
    have hsame : max 1 (s.backend.maxLanesCap - 1) = s.backend.maxLanesCap := by omega
    simp [reduceLaneCap, hsame]
  · refine Or.inr (Or.inl ⟨by omega, ?_⟩)
    have hnew : max 1 (s.backend.maxLanesCap - 1) = s.backend.maxLanesCap - 1 := by omega
    simp [reduceLaneCap, hnew]

theorem capChange_applyLaneCapAfterTemp (h : Synced intOfFloat s) (clock : Clock)
    (temperatureC : Option ℤ) (miningDifficulty : ℤ) : CapChange intOfFloat False s
      (s.applyLaneCapAfterTemp clock temperatureC miningDifficulty) := by
  unfold applyLaneCapAfterTemp
  split_ifs with hflag hlanes
  · exact CapChange.refl h
  · exact capChange_of_keeps h rfl rfl rfl rfl rfl
  have hpos : 1 ≤ s.backend.maxLanesCap := by
    rw [h.cap]
    exact h.loadable.pos
  rcases reduceLaneCap_cases s (clock 0) with ⟨heq, hle⟩ | ⟨hnew, heq⟩ | hlow
  -- a single lane is kept
  · rw [heq]
    dsimp only
    rw [if_pos hle]
    exact capChange_of_keeps h rfl rfl rfl rfl rfl
  -- the reduction is saved, counted, and saved again
  · rw [heq]
    dsimp only
    rw [if_neg (by omega)]
    have hloadable := h.loadable
    refine ⟨synced_of_saved ⟨hloadable.config, hnew, ?_⟩ rfl rfl, rfl, rfl, ?_, ?_⟩
    · have hle := hloadable.le
      have hcap := h.cap
      show s.backend.maxLanesCap - 1 ≤ s.lanePolicy.configMaxLanes
      omega
    · show s.lanePolicy.tempReductions + 1 = s.lanePolicy.tempReductions + if _ then 1 else 0
      rw [if_pos]
      show s.backend.maxLanesCap - 1 < s.backend.maxLanesCap
      omega
    · show s.backend.maxLanesCap < s.backend.maxLanesCap - 1 → False
      omega
  · exact absurd hlow (by omega)

/-- The step restores the cap at or above the reference difficulty, well below the warning. -/
def RestoresCool (s : LaneSession) (i : Step) : Prop :=
  ∃ clock temperatureC difficulty, i = .restore clock (some temperatureC) difficulty ∧
    s.backend.settings.vramReferenceDifficulty ≤ difficulty ∧
    temperatureC < s.backend.settings.warnGpuTempC - 5

theorem capChange_maybeRestoreCudaLaneCap (h : Synced intOfFloat s) (clock : Clock)
    (temperatureC : Option ℤ) (difficulty : ℤ) :
    CapChange intOfFloat (RestoresCool s (.restore clock temperatureC difficulty)) s
      (s.maybeRestoreCudaLaneCap clock temperatureC difficulty) := by
  have hkept := (CapChange.refl h).imp
    (False.elim : False → RestoresCool s (.restore clock temperatureC difficulty))
  unfold maybeRestoreCudaLaneCap
  split_ifs with href
  · exact hkept
  cases temperatureC with
  | none => exact hkept
  | some temperatureC =>
    dsimp only
    unfold restoreLaneCapIfCool CudaLanePolicy.restoreLaneCapIfCool
    rw [Option.getD_some, if_neg href]
    split_ifs with hwarm hfull
    · exact hkept
    · exact hkept
    · have hloadable := h.loadable
      have hpos := hloadable.pos
      have hcap := h.cap
      refine ⟨synced_of_saved ⟨hloadable.config, ?_, le_rfl⟩ rfl rfl, rfl, rfl, ?_, fun _ =>
        ⟨clock, temperatureC, difficulty, rfl, not_lt.mp href, not_le.mp hwarm⟩⟩
      · show 1 ≤ s.lanePolicy.configMaxLanes
        omega
      · show s.lanePolicy.tempReductions = s.lanePolicy.tempReductions + if _ then 1 else 0
        rw [if_neg, add_zero]
        show ¬s.lanePolicy.configMaxLanes < s.backend.maxLanesCap
        omega

theorem capChange_restart (h : Synced intOfFloat s) :
    CapChange intOfFloat False s (s.restart intOfFloat) := by
  unfold restart
  rw [h.file]
  exact capChange_of_keeps h (by simp [startWith, CudaLanePolicyState.trimmed]) rfl rfl rfl h.cap.symm

theorem capChange_live (h : Synced intOfFloat s) (env : EngineReply) (op : Op) :
    CapChange intOfFloat False s { s with backend := s.backend.step (env, op) } := by
  have hrig := rig_step s.backend (env, op)
  have hset : (s.backend.step (env, op)).settings = s.backend.settings := congrArg Prod.fst hrig
  have hcap : (s.backend.step (env, op)).maxLanesCap = s.backend.maxLanesCap :=
    congrArg (fun r => r.2.2) hrig
  exact capChange_of_keeps h rfl rfl rfl hset hcap

/-- **What one step does to the cap.** -/
theorem capChange_step (h : Synced intOfFloat s) (i : Step) :
    CapChange intOfFloat (RestoresCool s i) s (s.step intOfFloat i) := by
  cases i with
  | live env op => exact (capChange_live h env op).imp False.elim
  | cooldown temperatureC =>
    have hkept : CapChange intOfFloat False s (s.noteTempCooldown temperatureC) := by
      unfold noteTempCooldown
      split_ifs
      · exact capChange_of_keeps h rfl rfl rfl rfl rfl
      · exact CapChange.refl h
    exact hkept.imp False.elim
  | reduce clock temperatureC miningDifficulty =>
    exact (capChange_applyLaneCapAfterTemp h clock temperatureC miningDifficulty).imp False.elim
  | restore clock temperatureC difficulty =>
    exact capChange_maybeRestoreCudaLaneCap h clock temperatureC difficulty
  | restart => exact (capChange_restart h).imp False.elim

/-! ### Sessions -/

/-- A process that has just loaded the policy. -/
theorem synced_startWith {cudaMaxLanes : ℤ} {file : PolicyFile} {policy : CudaLanePolicyState}
    (hload : loadLanePolicy intOfFloat file cudaMaxLanes = .ok policy) (settings : Settings)
    (lib : Bool) : Synced intOfFloat (startWith settings lib cudaMaxLanes file policy) := by
  obtain ⟨hloadable, htrim⟩ := loadLanePolicy_eq_ok intOfFloat hload
  refine ⟨hloadable, rfl, ?_⟩
  show loadLanePolicy intOfFloat file cudaMaxLanes = .ok policy.trimmed
  rw [htrim, hload]

/-- The step lowers the cap. -/
def Lowers (s t : LaneSession) : Prop := t.backend.maxLanesCap < s.backend.maxLanesCap

instance (s t : LaneSession) : Decidable (Lowers s t) :=
  inferInstanceAs (Decidable (t.backend.maxLanesCap < s.backend.maxLanesCap))

/-- **The lane cap is one cap.**  After every session that starts with a policy loaded from whatever
file there is: memory and backend agree on a cap between one lane and the configured lanes; the file
gives this policy back, with its last fifty events; the reductions are the steps that lowered the cap;
and a step that raises it restores it cool, at or above the reference difficulty. -/
theorem lane_cap_synced (intOfFloat : List Char → Except LoadError ℤ) (settings : Settings)
    (lib : Bool) (cudaMaxLanes : ℤ) (file : PolicyFile) (policy : CudaLanePolicyState)
    (hload : loadLanePolicy intOfFloat file cudaMaxLanes = .ok policy) (steps : List Step) :
    let start := startWith settings lib cudaMaxLanes file policy
    let s := Run.final (step · intOfFloat) start steps
    1 ≤ s.lanePolicy.effectiveMaxLanes ∧
    s.lanePolicy.effectiveMaxLanes ≤ s.lanePolicy.configMaxLanes ∧
    s.lanePolicy.configMaxLanes = max 1 cudaMaxLanes ∧
    s.backend.maxLanesCap = s.lanePolicy.effectiveMaxLanes ∧
    loadLanePolicy intOfFloat s.policyFile cudaMaxLanes = .ok
      { s.lanePolicy with events := lastEvents s.lanePolicy.events } ∧
    s.lanePolicy.tempReductions =
      policy.tempReductions + Run.tally (step · intOfFloat) Lowers start steps ∧
    ∀ i, s.backend.maxLanesCap < (s.step intOfFloat i).backend.maxLanesCap →
      ∃ clock temperatureC difficulty, i = .restore clock (some temperatureC) difficulty ∧
        settings.vramReferenceDifficulty ≤ difficulty ∧ temperatureC < settings.warnGpuTempC - 5 := by
  intro start s
  have hstart : Synced intOfFloat start := synced_startWith hload settings lib
  have hrun : Synced intOfFloat s ∧ s.cudaMaxLanes = cudaMaxLanes ∧
      s.backend.settings = settings := by
    refine Run.invariant (I := fun t => Synced intOfFloat t ∧ t.cudaMaxLanes = cudaMaxLanes ∧
      t.backend.settings = settings) ?_ ⟨hstart, rfl, rfl⟩
    rintro t i ⟨hsynced, hmax, hset⟩
    have hchange := capChange_step hsynced i
    exact ⟨hchange.synced, hchange.cudaMaxLanes.trans hmax, hchange.settings.trans hset⟩
  obtain ⟨hsynced, hmax, hset⟩ := hrun
  refine ⟨hsynced.loadable.pos, hsynced.loadable.le, ?_, hsynced.cap, ?_, ?_, fun i hrise => ?_⟩
  · rw [hsynced.loadable.config, hmax]
  · rw [← hmax]
    exact hsynced.file
  · refine Run.counter_eq_tally (fun t => t.lanePolicy.tempReductions) (P := Lowers)
      (I := Synced intOfFloat) (fun t i ht => ?_) hstart
    have hchange := capChange_step ht i
    exact ⟨hchange.synced, hchange.reductions⟩
  · obtain ⟨clock, temperatureC, difficulty, hi, href, hcool⟩ :=
      (capChange_step hsynced i).rises hrise
    rw [hset] at href hcool
    exact ⟨clock, temperatureC, difficulty, hi, href, hcool⟩

/-- Four lanes get too hot, one is given up, the process restarts, and the cap is restored. -/
theorem lane_cap_synced_restored :
    let settings : Settings := { memoryCost := 100 }
    let step (s : LaneSession) (i : Step) := s.step (fun _ => .error .valueError) i
    let start := startWith settings true 4 .absent (freshPolicy 4)
    let steps : List Step := [.live steadyEngine .start, .cooldown (some 90),
      .reduce (fun _ => "") (some 60) 100, .restart, .restore (fun _ => "") (some 50) 1100]
    let s := Run.final step start steps
    1 ≤ s.lanePolicy.effectiveMaxLanes ∧
    s.lanePolicy.effectiveMaxLanes ≤ s.lanePolicy.configMaxLanes ∧
    s.lanePolicy.configMaxLanes = max 1 4 ∧
    s.backend.maxLanesCap = s.lanePolicy.effectiveMaxLanes ∧
    loadLanePolicy (fun _ => .error .valueError) s.policyFile 4 = .ok
      { s.lanePolicy with events := lastEvents s.lanePolicy.events } ∧
    s.lanePolicy.tempReductions = 0 + Run.tally step Lowers start steps ∧
    ∀ i, s.backend.maxLanesCap < (step s i).backend.maxLanesCap →
      ∃ clock temperatureC difficulty, i = .restore clock (some temperatureC) difficulty ∧
        settings.vramReferenceDifficulty ≤ difficulty ∧ temperatureC < settings.warnGpuTempC - 5 :=
  lane_cap_synced _ { memoryCost := 100 } true 4 .absent (freshPolicy 4) rfl _

end LaneSession

end XenMiner
