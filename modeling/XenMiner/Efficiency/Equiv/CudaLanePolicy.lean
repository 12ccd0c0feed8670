import XenMiner.Efficiency.CudaLanePolicy

/-!
# The saved lane cap is read back

Loading what was saved gives the policy back but for the events beyond the last fifty
(`loadLanePolicy_saveLanePolicy`).  Whatever the file holds, a load gives a cap between one lane and
the configured ones (`loadLanePolicy_eq_ok`).
-/

namespace XenMiner

namespace CudaLanePolicy

variable (intOfFloat : List Char → Except LoadError ℤ)

theorem length_lastEvents (events : List Json) : (lastEvents events).length ≤ 50 := by
  unfold lastEvents
  rw [List.length_drop]
  omega

theorem lastEvents_of_length_le {events : List Json} (h : events.length ≤ 50) :
    lastEvents events = events := by
  unfold lastEvents
  rw [Nat.sub_eq_zero_of_le h, List.drop_zero]

@[simp]
theorem lastEvents_lastEvents (events : List Json) :
    lastEvents (lastEvents events) = lastEvents events :=
  lastEvents_of_length_le (length_lastEvents events)

/-- What a load at `cudaMaxLanes` lanes gives. -/
structure Loadable (cudaMaxLanes : ℤ) (policy : CudaLanePolicyState) : Prop where
  config : policy.configMaxLanes = max 1 cudaMaxLanes
  pos : 1 ≤ policy.effectiveMaxLanes
  le : policy.effectiveMaxLanes ≤ policy.configMaxLanes

/-- The policy without the events a save drops. -/
def CudaLanePolicyState.trimmed (policy : CudaLanePolicyState) : CudaLanePolicyState :=
  { policy with events := lastEvents policy.events }

theorem loadable_freshPolicy (cudaMaxLanes : ℤ) :
    Loadable cudaMaxLanes (freshPolicy (max 1 cudaMaxLanes)) :=
  ⟨rfl, le_max_left _ _, le_rfl⟩

/-- A policy read from a file is within its limits and trimmed. -/
theorem readPolicy_eq_ok {config : ℤ} {value : Json} {policy : CudaLanePolicyState}
    (h : readPolicy intOfFloat config value = .ok policy) :
    policy.configMaxLanes = config ∧
      (∃ effective, policy.effectiveMaxLanes = max 1 (min config effective)) ∧
      policy.trimmed = policy := by
  unfold readPolicy at h
  split at h
  next members =>
    dsimp only at h
    cases heff : toInt intOfFloat
        (((Json.obj members).get "effective_max_lanes").getD (.int config)) with
    | error e => simp [heff, bind, Except.bind] at h
    | ok effective =>
      cases hred : toInt intOfFloat (((Json.obj members).get "temp_reductions").getD (.int 0)) with
      | error e => simp [heff, hred, bind, Except.bind] at h
      | ok reductions =>
        simp only [heff, hred, bind, Except.bind, pure, Except.pure, Except.ok.injEq] at h
        subst h
        exact ⟨rfl, ⟨effective, rfl⟩, by simp [CudaLanePolicyState.trimmed]⟩
  next => cases h

/-- What a load gives. -/
theorem loadLanePolicy_eq_ok {file : PolicyFile} {cudaMaxLanes : ℤ} {policy : CudaLanePolicyState}
    (h : loadLanePolicy intOfFloat file cudaMaxLanes = .ok policy) :
    Loadable cudaMaxLanes policy ∧ policy.trimmed = policy := by
  have hfresh : Loadable cudaMaxLanes (freshPolicy (max 1 cudaMaxLanes)) ∧
      (freshPolicy (max 1 cudaMaxLanes)).trimmed = freshPolicy (max 1 cudaMaxLanes) :=
    ⟨loadable_freshPolicy _, rfl⟩
  unfold loadLanePolicy at h
  dsimp only at h
  split at h
  next policy' hattempt =>
    rw [Except.ok.injEq] at h
    subst h
    cases file with
    | absent =>
      rw [Except.ok.injEq] at hattempt
      subst hattempt
      exact hfresh
    | broken error => cases hattempt
    | json value =>
      obtain ⟨hconfig, ⟨effective, heff⟩, htrim⟩ := readPolicy_eq_ok intOfFloat hattempt
      refine ⟨⟨hconfig, ?_, ?_⟩, htrim⟩
      · rw [heff]
        omega
      · rw [heff, hconfig]
        omega
  next error _ =>
    split_ifs at h with hcaught
    rw [Except.ok.injEq] at h
    subst h
    exact hfresh

/-- **Loading what was saved.** -/
theorem loadLanePolicy_saveLanePolicy {cudaMaxLanes : ℤ} {policy : CudaLanePolicyState}
    (h : Loadable cudaMaxLanes policy) (updatedAt : String) :
    loadLanePolicy intOfFloat (saveLanePolicy policy updatedAt) cudaMaxLanes =
      .ok policy.trimmed := by
  have hclamp : max 1 (min (max 1 cudaMaxLanes) policy.effectiveMaxLanes) =
      policy.effectiveMaxLanes := by
    have hpos := h.pos
    have hle := h.le
    rw [h.config] at hle
    omega
  have hread : readPolicy intOfFloat (max 1 cudaMaxLanes) (.obj [
      ("config_max_lanes", .int policy.configMaxLanes),
      ("effective_max_lanes", .int policy.effectiveMaxLanes),
      ("temp_reductions", .int policy.tempReductions),
      ("events", .arr (lastEvents policy.events)),
      ("updated_at", .str updatedAt)]) = .ok policy.trimmed := by
    simp [readPolicy, Json.get, toInt, bind, Except.bind, pure, Except.pure, List.lookup_cons, hclamp,
      CudaLanePolicyState.trimmed, h.config]
  unfold loadLanePolicy saveLanePolicy
  dsimp only
  rw [hread]

end CudaLanePolicy

end XenMiner
