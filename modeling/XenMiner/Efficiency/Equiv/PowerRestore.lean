import XenMiner.Efficiency.Equiv.GpuPower

/-!
# What `restore` puts back

`restore` returns early when the limit is already the original one, with the power plan still switched;
and each further `apply` records the limit and the plan it finds over the recorded ones.  So limit and
plan come back exactly when the last `apply` found the limit of the start, and the plan was never
switched away, or was switched once and the limit has since moved from the original
(`putsBack_iff`).
-/

namespace XenMiner

namespace GpuPowerBooster

variable {b : GpuPowerBooster} {h : Host}

/-- `apply` would raise the limit and switch the power plan. -/
def SwitchesPlan (b : GpuPowerBooster) (h : Host) : Prop :=
  h.limitMw < b.offeredMw h ∧ b.config.windowsPerformanceMode ∧ h.isWin32

instance : Decidable (SwitchesPlan b h) := inferInstanceAs (Decidable (_ ∧ _))

theorem apply_of_switchesPlan (hswitch : SwitchesPlan b h) :
    (b.apply h .nvml {}).1.savedPowerScheme = some h.powerScheme ∧
      (b.apply h .nvml {}).2.powerScheme = highPerformanceGuid := by
  obtain ⟨hlt, hwindows⟩ := hswitch
  rw [apply_nvml, if_neg (not_le.mpr hlt)]
  simp only [if_pos hwindows]
  exact ⟨rfl, rfl⟩

theorem apply_of_not_switchesPlan (hswitch : ¬SwitchesPlan b h) :
    (b.apply h .nvml {}).1.savedPowerScheme = b.savedPowerScheme ∧
      (b.apply h .nvml {}).2.powerScheme = h.powerScheme := by
  rw [apply_nvml]
  by_cases hle : b.offeredMw h ≤ h.limitMw
  · rw [if_pos hle]
    exact ⟨rfl, rfl⟩
  · have hwindows : ¬(b.config.windowsPerformanceMode ∧ h.isWin32) :=
      fun hwindows => hswitch ⟨not_le.mp hle, hwindows⟩
    rw [if_neg hle]
    dsimp only
    rw [if_neg hwindows]
    exact ⟨rfl, rfl⟩

/-- What a call of `adjust` keeps. -/
structure Adjusted (b : GpuPowerBooster) (h : Host) (b' : GpuPowerBooster) (h' : Host) : Prop where
  applied_eq : b'.applied = b.applied
  original_eq : b'.originalLimitMw = b.originalLimitMw
  saved_eq : b'.savedPowerScheme = b.savedPowerScheme
  host_eq : { h' with limitMw := h.limitMw } = h
  idle : b.applied = false → h' = h
  current_eq : b.currentLimitMw = some h.limitMw → b'.currentLimitMw = some h'.limitMw

theorem adjusted_adjust (b : GpuPowerBooster) (h : Host) (snap : Option GpuSnapshot) :
    Adjusted b h (b.adjust h snap .nvml).1 (b.adjust h snap .nvml).2 := by
  have hstay : Adjusted b h b h := ⟨rfl, rfl, rfl, rfl, fun _ => rfl, id⟩
  unfold adjust
  simp only [Host.setPowerLimitMw, Bool.true_eq_false, if_false]
  split
  case h_1 snap current hcurrent =>
    split_ifs with hguard hsame
    · exact hstay
    · exact ⟨rfl, rfl, rfl, rfl, fun _ => rfl, id⟩
    · exact ⟨rfl, rfl, rfl, rfl, fun hidle => absurd (Or.inl hidle) hguard, fun _ => rfl⟩
  case h_2 => exact hstay

/-! ### `restore` -/

/-- `restore` puts back limit and plan of `h`. -/
def PutsBack (b : GpuPowerBooster) (h' h : Host) : Prop :=
  (b.restore h' .nvml {}).2.limitMw = h.limitMw ∧
    (b.restore h' .nvml {}).2.powerScheme = h.powerScheme

instance {h' : Host} : Decidable (PutsBack b h' h) := inferInstanceAs (Decidable (_ ∧ _))

/-- Without an `apply` there is nothing to restore. -/
theorem restore_of_not_applied (hidle : b.applied = false) : (b.restore h .nvml {}).2 = h := by
  unfold restore
  cases b.originalLimitMw with
  | none => rfl
  | some original => exact congrArg Prod.snd (if_pos hidle)

/-- The early return: the limit is the original one, and the plan stays. -/
theorem restore_of_eq {original : ℤ} (horiginal : b.originalLimitMw = some original)
    (hcurrent : b.currentLimitMw = some original) : (b.restore h .nvml {}).2 = h := by
  unfold restore
  simp only [horiginal, hcurrent, if_true]
  split_ifs <;> rfl

theorem restore_of_ne {original : ℤ} (horiginal : b.originalLimitMw = some original)
    (happlied : b.applied = true) (hcurrent : b.currentLimitMw ≠ some original) :
    (b.restore h .nvml {}).2.limitMw = original ∧
      (b.restore h .nvml {}).2.powerScheme =
        if h.isWin32 then b.savedPowerScheme.getD h.powerScheme else h.powerScheme := by
  have hguard : ¬b.applied = false := by
    simp [happlied]
  unfold restore
  simp only [horiginal, if_neg hguard, if_neg hcurrent, Host.setPowerLimitMw, Host.setActive, if_true]
  cases b.savedPowerScheme with
  | none => simp
  | some scheme =>
    cases hwin : h.isWin32 with
    | false => simp
    | true => simp

end GpuPowerBooster

namespace PowerCall

/-- Every call of NVML and of `powercfg` succeeds. -/
def Succeeds : PowerCall → Prop
  | .apply readable reply powercfg => readable = true ∧ reply = .nvml ∧ powercfg = {}
  | .setDifficulty _ => True
  | .adjust _ reply => reply = .nvml

end PowerCall

namespace PowerSession

open GpuPowerBooster (highPerformanceGuid SwitchesPlan PutsBack)

variable {s : PowerSession} {h : Host}

/-- The call is an `apply` that switches the power plan. -/
def Switches (s : PowerSession) : PowerCall → Prop
  | .apply .. => SwitchesPlan s.booster s.host
  | .setDifficulty _ => False
  | .adjust .. => False

instance : ∀ call, Decidable (s.Switches call)
  | .apply .. => inferInstanceAs (Decidable (SwitchesPlan s.booster s.host))
  | .setDifficulty _ => inferInstanceAs (Decidable False)
  | .adjust .. => inferInstanceAs (Decidable False)

/-- The plan after `n` switches. -/
def planAfter (scheme : String) : ℕ → String
  | 0 => scheme
  | _ + 1 => highPerformanceGuid

/-- The saved plan after `n` switches: the one the last of them found. -/
def savedAfter (scheme : String) : ℕ → Option String
  | 0 => none
  | n + 1 => some (planAfter scheme n)

theorem planAfter_eq_iff {scheme : String} {n : ℕ} :
    planAfter scheme n = scheme ↔ scheme = highPerformanceGuid ∨ n = 0 := by
  cases n with
  | zero => simp [planAfter]
  | succ n => simp [planAfter, eq_comm]

/-- The state after `n` switches, from a fresh booster on `h`. -/
structure Tracked (h : Host) (n : ℕ) (s : PowerSession) : Prop where
  isWin32 : n ≠ 0 → s.host.isWin32 = true
  plan_eq : s.host.powerScheme = planAfter h.powerScheme n
  saved_eq : s.booster.savedPowerScheme = savedAfter h.powerScheme n
  idle : s.booster.applied = false → s.booster.originalLimitMw = none ∧ s.host.limitMw = h.limitMw
  held : s.booster.applied = true →
    s.booster.originalLimitMw.isSome ∧ s.booster.currentLimitMw = some s.host.limitMw

theorem Tracked.next {n : ℕ} (hs : Tracked h n s) {call : PowerCall} (hcall : call.Succeeds) :
    Tracked h (n + if s.Switches call then 1 else 0) (s.step call) := by
  cases call with
  | apply readable reply powercfg =>
    obtain ⟨rfl, rfl, rfl⟩ := hcall
    have hboost := GpuPowerBooster.boosted_apply s.booster s.host {}
    have hwin := congrArg Host.isWin32 hboost.host_eq
    have hheld : (s.step (.apply true .nvml {})).booster.originalLimitMw.isSome ∧
        (s.step (.apply true .nvml {})).booster.currentLimitMw
          = some (s.step (.apply true .nvml {})).host.limitMw :=
      ⟨Option.isSome_iff_exists.mpr ⟨_, hboost.original_eq⟩, hboost.current_eq⟩
    by_cases hswitch : s.Switches (.apply true .nvml {})
    · rw [if_pos hswitch]
      obtain ⟨hsaved, hplan⟩ := GpuPowerBooster.apply_of_switchesPlan hswitch
      constructor
      case isWin32 => exact fun _ => hwin.trans hswitch.2.2
      case plan_eq => exact hplan
      case saved_eq => exact hsaved.trans (congrArg some hs.plan_eq)
      case idle => exact fun hidle => Bool.noConfusion (hboost.applied.symm.trans hidle)
      case held => exact fun _ => hheld
    · rw [if_neg hswitch]
      obtain ⟨hsaved, hplan⟩ := GpuPowerBooster.apply_of_not_switchesPlan hswitch
      constructor
      case isWin32 => exact fun hn => hwin.trans (hs.isWin32 hn)
      case plan_eq => exact hplan.trans hs.plan_eq
      case saved_eq => exact hsaved.trans hs.saved_eq
      case idle => exact fun hidle => Bool.noConfusion (hboost.applied.symm.trans hidle)
      case held => exact fun _ => hheld
  | setDifficulty difficulty => exact ⟨hs.isWin32, hs.plan_eq, hs.saved_eq, hs.idle, hs.held⟩
  | adjust snap reply =>
    obtain rfl : reply = .nvml := hcall
    have hadjust := GpuPowerBooster.adjusted_adjust s.booster s.host snap
    constructor
    case isWin32 => exact fun hn => (congrArg Host.isWin32 hadjust.host_eq).trans (hs.isWin32 hn)
    case plan_eq => exact (congrArg Host.powerScheme hadjust.host_eq).trans hs.plan_eq
    case saved_eq => exact hadjust.saved_eq.trans hs.saved_eq
    case idle =>
      intro hidle
      have hidle' : s.booster.applied = false := hadjust.applied_eq.symm.trans hidle
      obtain ⟨horiginal, hlimit⟩ := hs.idle hidle'
      exact ⟨hadjust.original_eq.trans horiginal, (congrArg Host.limitMw (hadjust.idle hidle')).trans hlimit⟩
    case held =>
      intro happlied
      obtain ⟨horiginal, hcurrent⟩ := hs.held (hadjust.applied_eq.symm.trans happlied)
      exact ⟨(congrArg Option.isSome hadjust.original_eq).trans horiginal, hadjust.current_eq hcurrent⟩

theorem tracked_create (config : PowerConfig) (h : Host) : Tracked h 0 ⟨.create config, h⟩ :=
  ⟨fun hn => absurd rfl hn, rfl, rfl, fun _ => ⟨rfl, rfl⟩, fun happlied => Bool.noConfusion happlied⟩

/-- The plan of the start is back exactly if it was never switched away, or switched once and the early
return is not taken. -/
theorem Tracked.putsBack {n : ℕ} (hs : Tracked h n s) :
    PutsBack s.booster s.host h ↔
      (s.booster.originalLimitMw = none ∨ s.booster.originalLimitMw = some h.limitMw) ∧
        (h.powerScheme = highPerformanceGuid ∨ n = 0 ∨ n = 1 ∧ s.host.limitMw ≠ h.limitMw) := by
  -- where `restore` leaves the machine alone, its plan is the one after the switches
  have hstay : s.host.powerScheme = h.powerScheme ↔ h.powerScheme = highPerformanceGuid ∨ n = 0 := by
    rw [hs.plan_eq, planAfter_eq_iff]
  cases happlied : s.booster.applied with
  | false =>
    obtain ⟨horiginal, hlimit⟩ := hs.idle happlied
    unfold PutsBack
    rw [GpuPowerBooster.restore_of_not_applied happlied, hstay]
    simp [horiginal, hlimit]
  | true =>
    obtain ⟨hsome, hcurrent⟩ := hs.held happlied
    obtain ⟨original, horiginal⟩ := Option.isSome_iff_exists.mp hsome
    unfold PutsBack
    by_cases hsame : s.host.limitMw = original
    · -- the early return
      rw [hsame] at hcurrent
      rw [GpuPowerBooster.restore_of_eq horiginal hcurrent, hstay, horiginal, hsame]
      simp only [reduceCtorEq, false_or, Option.some.injEq]
      apply and_congr_right
      rintro rfl
      simp
    · -- the saved plan is set, which is the one the last switch found
      have hne : s.booster.currentLimitMw ≠ some original := by
        rw [hcurrent]
        simpa using hsame
      obtain ⟨hlimit, hplan⟩ := GpuPowerBooster.restore_of_ne horiginal happlied hne
      rw [hlimit, hplan, hs.saved_eq, horiginal]
      simp only [reduceCtorEq, false_or, Option.some.injEq]
      cases n with
      | zero => simp [savedAfter, planAfter, hs.plan_eq]
      | succ n =>
        rw [if_pos (hs.isWin32 (Nat.succ_ne_zero n))]
        show _ ∧ planAfter h.powerScheme n = h.powerScheme ↔ _
        rw [planAfter_eq_iff]
        apply and_congr_right
        intro hlimit
        have hmoved : s.host.limitMw ≠ h.limitMw := hlimit ▸ hsame
        simp [hmoved]

/-- **`restore`.**  When all calls succeed, `restore` puts back the limit and the power plan of the start
of a session exactly if no `apply` was made or the last one found the limit of the start, and the plan
was High performance all along, or never switched, or switched once with the limit moved since. -/
theorem putsBack_iff (config : PowerConfig) (h : Host) {calls : List PowerCall}
    (hcalls : ∀ call ∈ calls, call.Succeeds) :
    let s := Run.final step ⟨.create config, h⟩ calls
    let switches := Run.countMet step Switches ⟨.create config, h⟩ calls
    PutsBack s.booster s.host h ↔
      (s.booster.originalLimitMw = none ∨ s.booster.originalLimitMw = some h.limitMw) ∧
        (h.powerScheme = highPerformanceGuid ∨ switches = 0 ∨
          switches = 1 ∧ s.host.limitMw ≠ h.limitMw) := by
  have hrun : Tracked h (0 + Run.countMet step Switches ⟨.create config, h⟩ calls)
      (Run.final step ⟨.create config, h⟩ calls) :=
    (Run.Meets.of_mem hcalls).invariant_count (fun _ _ _ hs => hs.next) (tracked_create config h)
  rw [Nat.zero_add] at hrun
  exact hrun.putsBack

/-- A card boosted from 290 to 300 W, cooled down by two steps: `restore` takes both back. -/
theorem putsBack_iff_moved :
    let config := PowerConfig.create 100 75 82 true true 1100 2 100
    let h : Host := ⟨290000, 100000, 300000, "381b4222-f694-41f0-9685-ff5bb260df2e", true⟩
    let hot : GpuSnapshot := ⟨24576, 8192, 84, 80, 84, 0, "board"⟩
    let calls : List PowerCall :=
      [.setDifficulty 100, .apply true .nvml {}, .adjust (some hot) .nvml, .adjust (some hot) .nvml]
    let s := Run.final step ⟨.create config, h⟩ calls
    PutsBack s.booster s.host h := by
  intro config h hot calls s
  have hcalls : ∀ call ∈ calls, call.Succeeds := by
    simp [calls, PowerCall.Succeeds]
  apply (putsBack_iff config h hcalls).mpr
  decide +kernel

/-- One step down from the boost is the limit of the start: `restore` returns early and the plan stays
High performance. -/
theorem putsBack_fails :
    let config := PowerConfig.create 100 75 82 true true 1100 2 100
    let h : Host := ⟨290000, 100000, 300000, "381b4222-f694-41f0-9685-ff5bb260df2e", true⟩
    let hot : GpuSnapshot := ⟨24576, 8192, 84, 80, 84, 0, "board"⟩
    let calls : List PowerCall := [.setDifficulty 100, .apply true .nvml {}, .adjust (some hot) .nvml]
    let s := Run.final step ⟨.create config, h⟩ calls
    (∀ call ∈ calls, call.Succeeds) ∧ ¬PutsBack s.booster s.host h := by
  intro config h hot calls s
  constructor
  · simp [calls, PowerCall.Succeeds]
  · decide +kernel

end PowerSession

end XenMiner
