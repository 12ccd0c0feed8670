import XenMiner.Efficiency.Equiv.DieBoardTemps
import XenMiner.Monitoring.Nvidia

/-!
# The hottest sensor and the temperature guard

The control temperature of a snapshot is the hottest sensor (`control_isGreatest`), but the guard takes
the snapshot apart again and looks at the die and at the board, with proxies where one is missing.  It
never looks at the memory sensor, nor at the hotspot beside a board sensor.  So it stops the GPU on
the control temperature exactly where a sensor it looks at reaches its own limit
(`stops_on_hottest_iff`); that covers every snapshot whose hottest sensor is the die, the board, or the
hotspot of a card without a board sensor (`stops_on_hottest`).
-/

namespace XenMiner.NvidiaMonitor

open VramGuard

variable {m : NvidiaMonitor} {reply : DriverReply} {snap : GpuSnapshot}
  {die board hotspot memory : ℤ}

/-! ### The hottest sensor -/

/-- The fold keeps one of the sensors, and none is hotter. -/
theorem hottest_spec (first : String × ℤ) (cs : List (String × ℤ)) :
    hottest first cs ∈ first :: cs ∧ ∀ c ∈ first :: cs, c.2 ≤ (hottest first cs).2 := by
  induction cs generalizing first with
  | nil => exact ⟨List.mem_singleton.mpr rfl, fun c hc => (List.mem_singleton.mp hc ▸ le_rfl)⟩
  | cons c cs ih =>
    show hottest (if first.2 < c.2 then c else first) cs ∈ _ ∧
      ∀ x ∈ first :: c :: cs, x.2 ≤ (hottest (if first.2 < c.2 then c else first) cs).2
    obtain ⟨hmem, hmax⟩ := ih (if first.2 < c.2 then c else first)
    have hkept := hmax _ List.mem_cons_self
    constructor
    · rcases List.mem_cons.mp hmem with heq | htail
      · rw [heq]
        split_ifs
        · exact List.mem_cons_of_mem _ List.mem_cons_self
        · exact List.mem_cons_self
      · exact List.mem_cons_of_mem _ (List.mem_cons_of_mem _ htail)
    · intro x hx
      rcases List.mem_cons.mp hx with rfl | hx
      · split_ifs at hkept ⊢ with hlt
        · exact hlt.le.trans hkept
        · exact hkept
      rcases List.mem_cons.mp hx with rfl | hx
      · split_ifs at hkept ⊢ with hlt
        · exact hkept
        · exact (not_lt.mp hlt).trans hkept
      · exact hmax x (List.mem_cons_of_mem _ hx)

theorem mem_candidates {c : String × ℤ} : c ∈ candidates board hotspot memory ↔
    (c = ("board", board) ∧ 0 < board) ∨ (c = ("hotspot", hotspot) ∧ 0 < hotspot) ∨
      (c = ("memory", memory) ∧ 0 < memory) := by
  unfold candidates
  split_ifs <;> simp [*]

/-- Which sensor the control temperature is, by its label. -/
theorem controlTemps_source (die board hotspot memory : ℤ) :
    let t := controlTemps die board hotspot memory
    (t.source = "gpu" ∧ t.control = die) ∨ (t.source = "board" ∧ t.control = board ∧ 0 < board) ∨
      (t.source = "hotspot" ∧ t.control = hotspot ∧ 0 < hotspot) ∨
        (t.source = "memory" ∧ t.control = memory ∧ 0 < memory) := by
  intro t
  have hmem := (hottest_spec ("gpu", die) (candidates board hotspot memory)).1
  have ht : (t.source, t.control) = hottest ("gpu", die) (candidates board hotspot memory) := rfl
  rw [← ht, List.mem_cons, mem_candidates] at hmem
  simp only [Prod.mk.injEq] at hmem
  tauto

/-- The control temperature is the hottest of the sensors that are there. -/
theorem control_isGreatest (die board hotspot memory : ℤ) :
    IsGreatest {n | n = die ∨ (n = board ∧ 0 < board) ∨ (n = hotspot ∧ 0 < hotspot) ∨
      (n = memory ∧ 0 < memory)} (controlTemps die board hotspot memory).control := by
  constructor
  · have hsource := controlTemps_source die board hotspot memory
    show _ = die ∨ _ ∨ _ ∨ _
    tauto
  · have hmax := (hottest_spec ("gpu", die) (candidates board hotspot memory)).2
    rintro n (rfl | ⟨rfl, hpos⟩ | ⟨rfl, hpos⟩ | ⟨rfl, hpos⟩)
    · exact hmax _ List.mem_cons_self
    · exact hmax ("board", n) (List.mem_cons_of_mem _ (mem_candidates.mpr (Or.inl ⟨rfl, hpos⟩)))
    · exact hmax ("hotspot", n)
        (List.mem_cons_of_mem _ (mem_candidates.mpr (Or.inr (Or.inl ⟨rfl, hpos⟩))))
    · exact hmax ("memory", n)
        (List.mem_cons_of_mem _ (mem_candidates.mpr (Or.inr (Or.inr ⟨rfl, hpos⟩))))

/-! ### Snapshots -/

/-- A snapshot is four readings and their control temperature. -/
structure Reads (snap : GpuSnapshot) (die board hotspot memory : ℤ) : Prop where
  gpuTempC : snap.gpuTempC = die
  boardTempC : snap.boardTempC = board
  hotspotTempC : snap.hotspotTempC = hotspot
  temperatureC : snap.temperatureC = (controlTemps die board hotspot memory).control
  tempSource : snap.tempSource = (controlTemps die board hotspot memory).source

theorem reads_of_snapshot (h : m.snapshot reply = some snap) : ∃ die, reply.dieTemp = some die ∧
    Reads snap die (m.readField reply .board) (m.readField reply .hotspot)
      (m.readField reply .memory) := by
  unfold snapshot readAllTemps at h
  split_ifs at h
  cases hmemory : reply.memory with
  | none => simp [hmemory] at h
  | some figures =>
    cases hdie : reply.dieTemp with
    | none => simp [hmemory, hdie] at h
    | some die =>
      simp only [hmemory, hdie, Option.map_some, Option.some.injEq] at h
      rw [← h]
      exact ⟨die, rfl, rfl, rfl, rfl, rfl, rfl⟩

/-- On a snapshot of the monitor the fallback for old snapshots changes nothing: labelled `gpu`, the
control temperature is the die reading. -/
theorem evaluateSnapshotTemps_eq (h : Reads snap die board hotspot memory)
    (dieWarn dieMax boardWarn boardMax : ℤ) (derate : DerateArgs) (ctx : DifficultyContext) :
    evaluateSnapshotTemps snap dieWarn dieMax boardWarn boardMax derate ctx
      = evaluateDieBoardTemps die board hotspot dieWarn dieMax boardWarn boardMax derate ctx := by
  obtain ⟨hdie, hboard, hhotspot, hcontrol, hsource⟩ := h
  unfold evaluateSnapshotTemps
  rw [hdie, hboard, hhotspot, hcontrol, hsource]
  dsimp only
  rcases controlTemps_source die board hotspot memory with
    ⟨hlabel, hsame⟩ | ⟨hlabel, -, -⟩ | ⟨hlabel, -, -⟩ | ⟨hlabel, -, -⟩
  · rw [hsame, ite_self]
  -- Another label is no stand-in for the die.
  · have hother : ¬ (die ≤ 0 ∧ (PyStr.orElse "board" "gpu" = "gpu" ∨ PyStr.orElse "board" "gpu" = "die")) :=
      fun h => absurd h.2 (by decide)
    rw [hlabel, if_neg hother]
  · have hother : ¬ (die ≤ 0 ∧
        (PyStr.orElse "hotspot" "gpu" = "gpu" ∨ PyStr.orElse "hotspot" "gpu" = "die")) :=
      fun h => absurd h.2 (by decide)
    rw [hlabel, if_neg hother]
  · have hother : ¬ (die ≤ 0 ∧
        (PyStr.orElse "memory" "gpu" = "gpu" ∨ PyStr.orElse "memory" "gpu" = "die")) :=
      fun h => absurd h.2 (by decide)
    rw [hlabel, if_neg hother]

/-! ### The guard -/

/-- If the hottest sensor reaches both limits of the guard, temperatures are an emergency with an abort
and the guard stops the GPU. -/
def StopsOnHottest (g : VramGuard) (derate : DerateArgs) (snap : GpuSnapshot) : Prop :=
  g.maxTempC ≤ snap.temperatureC → g.maxBoardTempC ≤ snap.temperatureC →
    let eval := evaluateSnapshotTemps snap g.warnTempC g.maxTempC g.warnBoardTempC g.maxBoardTempC
      derate g.context
    (eval.level = .emergency ∧ eval.abort = true) ∧ (g.evaluate (some snap)).level = .emergency

/-- A sensor the guard looks at is there and reaches its limit: the die, or the hotspot of a card without
a die reading; the board, or without one the hotter of die and hotspot with the difficulty's degrees. -/
def WatchedReaches (g : VramGuard) (snap : GpuSnapshot) : Prop :=
  (0 < snap.gpuTempC ∧ g.maxTempC ≤ snap.gpuTempC) ∨
    (snap.gpuTempC ≤ 0 ∧ 0 < snap.hotspotTempC ∧ g.maxTempC ≤ snap.hotspotTempC) ∨
    (0 < snap.boardTempC ∧ g.maxBoardTempC ≤ snap.boardTempC) ∨
    (snap.boardTempC ≤ 0 ∧ 0 < max snap.gpuTempC snap.hotspotTempC ∧
      g.maxBoardTempC ≤ max snap.gpuTempC snap.hotspotTempC + boardTightenC g.context)

instance (g : VramGuard) (snap : GpuSnapshot) : Decidable (WatchedReaches g snap) :=
  inferInstanceAs (Decidable (_ ∨ _))

theorem reaches_effDieTemp (limit : ℤ) : Reaches (effDieTemp die hotspot) (max 1 limit) ↔
    (0 < die ∧ limit ≤ die) ∨ (die ≤ 0 ∧ 0 < hotspot ∧ limit ≤ hotspot) := by
  unfold Reaches effDieTemp
  split_ifs <;> omega

theorem reaches_effBoardTemp (ctx : DifficultyContext) (limit : ℤ) :
    Reaches (effBoardTemp ctx die board hotspot) (max 1 limit) ↔
      (0 < board ∧ limit ≤ board) ∨
        (board ≤ 0 ∧ 0 < max die hotspot ∧ limit ≤ max die hotspot + boardTightenC ctx) := by
  have hnonneg := boardTightenC_nonneg ctx
  unfold Reaches effBoardTemp
  split_ifs <;> omega

theorem abort_iff (h : Reads snap die board hotspot memory) (g : VramGuard) (derate : DerateArgs) :
    (evaluateSnapshotTemps snap g.warnTempC g.maxTempC g.warnBoardTempC g.maxBoardTempC derate
      g.context).abort = true ↔ WatchedReaches g snap := by
  rw [evaluateSnapshotTemps_eq h, evaluate_abort _ rfl, evaluate_effDieC, evaluate_effBoardC]
  show Reaches _ (max 1 g.maxTempC) ∨ Reaches _ (max 1 g.maxBoardTempC) ↔ _
  rw [reaches_effDieTemp, reaches_effBoardTemp, or_assoc]
  unfold WatchedReaches
  rw [h.gpuTempC, h.boardTempC, h.hotspotTempC]

theorem level_eq_emergency_iff (h : Reads snap die board hotspot memory) (g : VramGuard)
    (derate : DerateArgs) :
    (evaluateSnapshotTemps snap g.warnTempC g.maxTempC g.warnBoardTempC g.maxBoardTempC derate
      g.context).level = .emergency ↔ WatchedReaches g snap := by
  rw [← abort_iff h g derate, evaluateSnapshotTemps_eq h, evaluate_level _ rfl]
  split_ifs with habort
  · exact iff_of_true rfl habort
  · exact iff_of_false nofun habort
  · exact iff_of_false nofun habort

theorem evaluate_emergency (g : VramGuard) (snap : GpuSnapshot)
    (h : (evaluateSnapshotTemps snap g.warnTempC g.maxTempC g.warnBoardTempC g.maxBoardTempC {}
      g.context).level = .emergency) : (g.evaluate (some snap)).level = .emergency := by
  unfold VramGuard.evaluate
  dsimp only
  split_ifs
  · rfl
  · rfl
  · rfl

theorem stopsOnHottest_of_reads (h : Reads snap die board hotspot memory) (g : VramGuard)
    (derate : DerateArgs) : StopsOnHottest g derate snap ↔
      (g.maxTempC ≤ snap.temperatureC → g.maxBoardTempC ≤ snap.temperatureC →
        WatchedReaches g snap) := by
  refine forall_congr' fun _ => forall_congr' fun _ => ?_
  dsimp only
  rw [abort_iff h, level_eq_emergency_iff h, and_self, and_iff_left_iff_imp]
  intro hreaches
  exact evaluate_emergency g snap ((level_eq_emergency_iff h g {}).mpr hreaches)

/-- **The hottest sensor is never ignored** exactly where one the guard looks at reaches its own
limit. -/
theorem stops_on_hottest_iff (m : NvidiaMonitor) (reply : DriverReply) (snap : GpuSnapshot)
    (h : m.snapshot reply = some snap) (g : VramGuard) (derate : DerateArgs) :
    StopsOnHottest g derate snap ↔
      (g.maxTempC ≤ snap.temperatureC → g.maxBoardTempC ≤ snap.temperatureC →
        WatchedReaches g snap) := by
  obtain ⟨die, -, hreads⟩ := reads_of_snapshot h
  exact stopsOnHottest_of_reads hreads g derate

/-- A card with every sensor. -/
def fourSensors : NvidiaMonitor where
  ready := true
  tempFields
    | .hotspot => some 1
    | .memory => some 2
    | .board => some 3

/-- A card without a board or hotspot sensor. -/
def memorySensor : NvidiaMonitor where
  ready := true
  tempFields
    | .memory => some 2
    | _ => none

/-- Die, hotspot, memory and board of one reading, on 8 GiB of which 4 are used. -/
def readings (die hotspot memory board : ℤ) : DriverReply where
  dieTemp := some die
  fieldValues
    | 1 => some [.skipped, .int hotspot]
    | 2 => some [.int memory]
    | 3 => some [.int board]
    | _ => none
  memory := some (8 * 1024 ^ 3, 4 * 1024 ^ 3)
  restAnswers := true

/-- The default limits. -/
def defaultLimits : VramGuard := VramGuard.init 6144 512 7680 256 84 78 30 (some 90) (some 85)

/-- A board at 92 degrees is the hottest sensor and stops the GPU. -/
theorem stops_on_hottest_iff_board :
    let snap : GpuSnapshot := ⟨8192, 4096, 92, 70, 92, 80, "board"⟩
    fourSensors.snapshot (readings 70 80 75 92) = some snap ∧
      (defaultLimits.evaluate (some snap)).level = .emergency := by
  intro snap
  have hsnap : fourSensors.snapshot (readings 70 80 75 92) = some snap := by decide +kernel
  have hstops := (stops_on_hottest_iff fourSensors (readings 70 80 75 92) snap hsnap defaultLimits
    {}).mpr fun _ _ => by decide +kernel
  exact ⟨hsnap, (hstops (by decide +kernel) (by decide +kernel)).2⟩

/-- Memory at 95 degrees beside a die at 60: the control temperature passes both limits, and the guard
sees nothing. -/
theorem stops_on_hottest_fails :
    let snap : GpuSnapshot := ⟨8192, 4096, 95, 60, 0, 0, "memory"⟩
    memorySensor.snapshot (readings 60 0 95 0) = some snap ∧
      ¬ StopsOnHottest defaultLimits {} snap ∧ (defaultLimits.evaluate (some snap)).level = .ok := by
  intro snap
  have hok : (defaultLimits.evaluate (some snap)).level = .ok := by decide +kernel
  refine ⟨by decide +kernel, ?_, hok⟩
  intro hstops
  have hlevel := (hstops (by decide +kernel) (by decide +kernel)).2
  rw [hok] at hlevel
  cases hlevel

/-- Where the die, the board, or the hotspot of a card without a board sensor is the hottest, nothing is
ignored. -/
theorem stops_on_hottest (h : m.snapshot reply = some snap) (hpos : 0 < snap.temperatureC)
    (hsource : snap.tempSource = "gpu" ∨ snap.tempSource = "board" ∨
      (snap.tempSource = "hotspot" ∧ snap.boardTempC ≤ 0))
    (g : VramGuard) (derate : DerateArgs) : StopsOnHottest g derate snap := by
  obtain ⟨die, -, hreads⟩ := reads_of_snapshot h
  refine (stopsOnHottest_of_reads hreads g derate).mpr fun hdie hboard => ?_
  have htemps := controlTemps_source die (m.readField reply .board) (m.readField reply .hotspot)
    (m.readField reply .memory)
  dsimp only at htemps
  have hnonneg := boardTightenC_nonneg g.context
  rw [← hreads.temperatureC, ← hreads.tempSource, ← hreads.gpuTempC, ← hreads.boardTempC,
    ← hreads.hotspotTempC] at htemps
  unfold WatchedReaches
  rcases htemps with ⟨hlabel, hsame⟩ | ⟨hlabel, hsame, -⟩ | ⟨hlabel, hsame, -⟩ | ⟨hlabel, -, -⟩
  · exact Or.inl (by omega)
  · exact Or.inr (Or.inr (Or.inl (by omega)))
  · have hmissing : snap.boardTempC ≤ 0 := by
      rcases hsource with hgpu | hb | ⟨-, hmissing⟩
      · exact absurd (hlabel.symm.trans hgpu) (by decide)
      · exact absurd (hlabel.symm.trans hb) (by decide)
      · exact hmissing
    exact Or.inr (Or.inr (Or.inr (by omega)))
  · rw [hlabel] at hsource
    exact absurd hsource (by simp)

end XenMiner.NvidiaMonitor
