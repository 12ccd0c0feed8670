import XenMiner.Core.InstanceLock
import XenMiner.Lib.Run

/-!
# Who holds the instance lock

`acquire` looks at the lock file and changes it later.  What it saw may be outdated by then: two
processes that look before either writes both get the lock (`lock_fails`).  `Undisturbed` says that
the file an `acquire` unlinks or overwrites names no live process, which is what the look was to
ensure, and that no process gets the pid a stale file names.  In runs of such steps the file names
the holder (`Inv`), so there is one holder at a time, and only a live owner refuses an `acquire`
(`lock_run`).  An `acquire` that nothing interrupts is such a sequence of steps (`meets_acquire`).
-/

namespace XenMiner.InstanceLock

variable {ι : Type*} {sees : ι → ι → Bool} {s : InstanceLock ι} {p q : ι}

/-! ### Pids as texts -/

theorem parseInt_strip_toString (n : ℕ) : PyStr.parseInt (PyStr.strip (toString n)) = some (n : ℤ) := by
  rw [PyStr.strip_toString, PyStr.parseInt_toString]

/-! ### Steps on a file that is not outdated -/

/-- The file names a live process. -/
def NamesLive (s : InstanceLock ι) : Prop :=
  ∃ text q, s.file = some text ∧ (s.procs q).running = true ∧
    PyStr.parseInt (PyStr.strip text) = some ((s.procs q).pid : ℤ)

/-- The file still is what `acquire` took it for when it unlinks or overwrites it, and no process
starts with the pid it names. -/
def Undisturbed (s : InstanceLock ι) : Event ι → Prop
  | .spawn _ pid =>
    ∀ text, s.file = some text → PyStr.parseInt (PyStr.strip text) ≠ some (pid : ℤ)
  | .advance p =>
    (s.procs p).point = .removing ∨ (s.procs p).point = .writing → ¬ s.NamesLive
  | _ => True

/-! ### The invariant -/

/-- The file is the text of a pid; it names every live holder, and a live process it names holds the
lock or is releasing it. -/
structure Inv (s : InstanceLock ι) : Prop where
  distinct : ∀ p q, (s.procs p).running = true → (s.procs q).running = true →
    (s.procs p).pid = (s.procs q).pid → p = q
  positive : ∀ p, (s.procs p).running = true → 0 < (s.procs p).pid
  text : ∀ t, s.file = some t → ∃ n : ℕ, t = toString n
  holder : ∀ p, (s.procs p).running = true → (s.procs p).holds = true →
    s.file = some (toString (s.procs p).pid)
  remover : ∀ p, (s.procs p).running = true → (s.procs p).point = .releaseRemoving →
    s.file = some (toString (s.procs p).pid)
  released : ∀ p, (s.procs p).point.releasing = true → (s.procs p).holds = false
  owner : ∀ p, (s.procs p).running = true → s.file = some (toString (s.procs p).pid) →
    (s.procs p).holds = true ∨ (s.procs p).point.releasing = true

theorem Inv.empty : (empty : InstanceLock ι).Inv where
  distinct := nofun
  positive := nofun
  text := nofun
  holder := nofun
  remover := nofun
  released := nofun
  owner := nofun

theorem namesLive_of_file (hrun : (s.procs p).running = true)
    (hfile : s.file = some (toString (s.procs p).pid)) : s.NamesLive :=
  ⟨_, p, hfile, hrun, parseInt_strip_toString _⟩

/-- No live process owns a file that names none. -/
theorem file_ne_of_not_namesLive (hlive : ¬ s.NamesLive) (hrun : (s.procs p).running = true) :
    s.file ≠ some (toString (s.procs p).pid) :=
  fun hfile => hlive (namesLive_of_file hrun hfile)

/-- A dead pid in the file is no live process's, where processes see each other. -/
theorem not_namesLive_of_dead [Fintype ι] (h : s.Inv) (hsees : ∀ p q, sees p q = true)
    {text : String} {oldPid : ℤ} (hfile : s.file = some text)
    (hread : PyStr.parseInt (PyStr.strip text) = some oldPid)
    (hdead : s.pidAlive sees p oldPid = false) : ¬ s.NamesLive := by
  rintro ⟨text', q, hfile', hq, hread'⟩
  rw [hfile, Option.some.injEq] at hfile'
  rw [← hfile', hread, Option.some.injEq] at hread'
  have hpos : (0 : ℤ) < (s.procs q).pid := by exact_mod_cast h.positive q hq
  have halive : s.pidAlive sees p oldPid = true :=
    decide_eq_true ⟨by rw [hread']; exact hpos, q, hq, hread'.symm, hsees p q⟩
  rw [halive] at hdead
  cases hdead

/-- A text that is no number names nobody. -/
theorem not_namesLive_of_none {text : String} (hfile : s.file = some text)
    (hread : PyStr.parseInt (PyStr.strip text) = none) : ¬ s.NamesLive := by
  rintro ⟨text', q, hfile', -, hread'⟩
  rw [hfile, Option.some.injEq] at hfile'
  rw [← hfile', hread] at hread'
  cases hread'

section Steps

variable [DecidableEq ι]

theorem namesLive_goto {point : LockPoint} : (s.goto p point).NamesLive ↔ s.NamesLive := by
  simp only [NamesLive, goto_file, goto_procs]

/-- What a step of `p` has to respect: the invariant for `p` after it, and either the file stays as it
is or no other live process owns the old file or is named by the new one. -/
theorem Inv.change (h : s.Inv) {a : LockProcess} {file : Option String}
    (hpid : a.pid = (s.procs p).pid) (hrun : a.running = true → (s.procs p).running = true)
    (htext : ∀ t, file = some t → ∃ n : ℕ, t = toString n)
    (hholder : a.running = true → a.holds = true → file = some (toString a.pid))
    (hremover : a.running = true → a.point = .releaseRemoving → file = some (toString a.pid))
    (hreleased : a.point.releasing = true → a.holds = false)
    (howner : a.running = true → file = some (toString a.pid) →
      a.holds = true ∨ a.point.releasing = true)
    (hothers : file = s.file ∨ ∀ q, q ≠ p → (s.procs q).running = true →
      s.file ≠ some (toString (s.procs q).pid) ∧ file ≠ some (toString (s.procs q).pid)) :
    Inv { file := file, procs := Function.update s.procs p a } where
  distinct q r hq hr heq := by
    have hold : ∀ q, (Function.update s.procs p a q).running = true →
        (s.procs q).running = true ∧ (Function.update s.procs p a q).pid = (s.procs q).pid :=
      (Function.forall_update_iff s.procs fun q b => b.running = true →
        (s.procs q).running = true ∧ b.pid = (s.procs q).pid).mpr
        ⟨fun ha => ⟨hrun ha, hpid⟩, fun q _ hq => ⟨hq, rfl⟩⟩
    obtain ⟨hq', hqpid⟩ := hold q hq
    obtain ⟨hr', hrpid⟩ := hold r hr
    exact h.distinct q r hq' hr' (hqpid.symm.trans (heq.trans hrpid))
  positive := (Function.forall_update_iff s.procs fun _ b => b.running = true → 0 < b.pid).mpr
    ⟨fun ha => by rw [hpid]; exact h.positive p (hrun ha), fun q _ => h.positive q⟩
  text := htext
  holder := by
    refine (Function.forall_update_iff s.procs fun q b => b.running = true → b.holds = true →
      file = some (toString b.pid)).mpr ⟨hholder, fun q hqp hq hholds => ?_⟩
    have hfile := h.holder q hq hholds
    rcases hothers with rfl | hothers
    · exact hfile
    · exact absurd hfile (hothers q hqp hq).1
  remover := by
    refine (Function.forall_update_iff s.procs fun q b => b.running = true →
      b.point = .releaseRemoving → file = some (toString b.pid)).mpr
      ⟨hremover, fun q hqp hq hpoint => ?_⟩
    have hfile := h.remover q hq hpoint
    rcases hothers with rfl | hothers
    · exact hfile
    · exact absurd hfile (hothers q hqp hq).1
  released := (Function.forall_update_iff s.procs fun _ b => b.point.releasing = true →
    b.holds = false).mpr ⟨hreleased, fun q _ => h.released q⟩
  owner := by
    refine (Function.forall_update_iff s.procs fun q b => b.running = true →
      file = some (toString b.pid) → b.holds = true ∨ b.point.releasing = true).mpr
      ⟨howner, fun q hqp hq hfile => ?_⟩
    rcases hothers with rfl | hothers
    · exact h.owner q hq hfile
    · exact absurd hfile (hothers q hqp hq).2

/-- A step of `p` between file operations. -/
theorem Inv.goto (h : s.Inv) {point : LockPoint}
    (hremover : (s.procs p).running = true → point = .releaseRemoving →
      s.file = some (toString (s.procs p).pid))
    (hreleased : point.releasing = true → (s.procs p).holds = false)
    (howner : (s.procs p).running = true → s.file = some (toString (s.procs p).pid) →
      (s.procs p).holds = true ∨ point.releasing = true) :
    (s.goto p point).Inv :=
  h.change rfl id h.text (h.holder p) hremover hreleased howner (Or.inl rfl)

/-- A step of an `acquire` between file operations. -/
theorem Inv.goto_acquiring (h : s.Inv) {point : LockPoint} (hpoint : point.releasing = false)
    (hfrom : (s.procs p).point.releasing = false) : (s.goto p point).Inv := by
  refine h.goto (fun _ heq => ?_) (fun hrel => ?_) fun hrun hfile => ?_
  · rw [heq] at hpoint
    cases hpoint
  · rw [hpoint] at hrel
    cases hrel
  · rcases h.owner p hrun hfile with hholds | hrel
    · exact Or.inl hholds
    · rw [hfrom] at hrel
      cases hrel

/-- A step of a `release` on a file that does not name the process. -/
theorem Inv.goto_idle (h : s.Inv) (hfile : s.file ≠ some (toString (s.procs p).pid)) :
    (s.goto p .idle).Inv :=
  h.goto nofun nofun fun _ hown => absurd hown hfile

/-- The `unlink` of an `acquire`. -/
theorem Inv.unlink (h : s.Inv) (hlive : ¬ s.NamesLive) :
    Inv { s.goto p .writing with file := none } := by
  refine h.change rfl id nofun (fun hrun hholds => ?_) nofun nofun nofun
    (Or.inr fun q _ hq => ⟨file_ne_of_not_namesLive hlive hq, nofun⟩)
  exact absurd (h.holder p hrun hholds) (file_ne_of_not_namesLive hlive hrun)

/-- The `write_text` of an `acquire`. -/
theorem Inv.write (h : s.Inv) (hlive : ¬ s.NamesLive) (hrun : (s.procs p).running = true) :
    Inv { file := some (toString (s.procs p).pid), procs :=
      Function.update s.procs p { s.procs p with point := .idle, holds := true } } := by
  refine h.change rfl id ?_ (fun _ _ => rfl) nofun nofun (fun _ _ => Or.inl rfl)
    (Or.inr fun q hqp hq => ⟨file_ne_of_not_namesLive hlive hq, fun hsame => hqp ?_⟩)
  · rintro t ⟨⟩
    exact ⟨_, rfl⟩
  · exact (h.distinct p q hrun hq (PyStr.toString_nat_inj.mp (Option.some.inj hsame))).symm

/-- The `unlink` of a `release`: the file names its process and so no other. -/
theorem Inv.release_unlink (h : s.Inv) (hrun : (s.procs p).running = true)
    (hpoint : (s.procs p).point = .releaseRemoving) :
    Inv { s.goto p .idle with file := none } := by
  have hfile := h.remover p hrun hpoint
  have hholds : (s.procs p).holds = false := h.released p (by rw [hpoint]; rfl)
  refine h.change rfl id nofun (fun _ hnew => ?_) nofun nofun nofun
    (Or.inr fun q hqp hq => ⟨fun hsame => hqp ?_, nofun⟩)
  · rw [show (s.procs p).holds = true from hnew] at hholds
    cases hholds
  · rw [hfile, Option.some.injEq, PyStr.toString_nat_inj] at hsame
    exact (h.distinct p q hrun hq hsame).symm

variable [Fintype ι]

/-- The next step of a call, on a file that is not outdated. -/
theorem Inv.advance (h : s.Inv) (hrun : (s.procs p).running = true)
    (hok : s.Undisturbed (.advance p)) : (s.advance sees p).Inv := by
  unfold InstanceLock.advance
  cases hpoint : (s.procs p).point with
  | idle => exact h
  | looking =>
    cases s.file with
    | none => exact h.goto_acquiring rfl (by rw [hpoint]; rfl)
    | some text => exact h.goto_acquiring rfl (by rw [hpoint]; rfl)
  | reading =>
    have hnext : ∀ point : LockPoint, point.releasing = false → (s.goto p point).Inv :=
      fun point hrel => h.goto_acquiring hrel (by rw [hpoint]; rfl)
    cases s.file with
    | none => exact hnext _ rfl
    | some text =>
      dsimp only
      split
      · split_ifs
        · exact hnext _ rfl
        · exact hnext _ rfl
      · exact hnext _ rfl
  | removing => exact h.unlink (hok (Or.inl hpoint))
  | writing => exact h.write (hok (Or.inr hpoint)) hrun
  | releaseLooking =>
    cases hfile : s.file with
    | none => exact h.goto_idle (by rw [hfile]; exact nofun)
    | some text =>
      exact h.goto nofun (fun _ => h.released p (by rw [hpoint]; rfl)) fun _ _ => Or.inr rfl
  | releaseReading =>
    cases hfile : s.file with
    | none => exact h.goto_idle (by rw [hfile]; exact nofun)
    | some text =>
      obtain ⟨n, rfl⟩ := h.text text hfile
      dsimp only
      rw [PyStr.strip_toString]
      split_ifs with hown
      · refine h.goto (fun _ _ => ?_) (fun _ => h.released p (by rw [hpoint]; rfl))
          fun _ _ => Or.inr rfl
        rw [hfile, hown]
      · refine h.goto_idle fun hsame => hown ?_
        rw [hfile] at hsame
        exact Option.some.inj hsame
  | releaseRemoving => exact h.release_unlink hrun hpoint

/-- A process starts with a free pid that the file does not name. -/
theorem Inv.spawn (h : s.Inv) {pid : ℕ} (hpos : 0 < pid) (hfree : s.pidFree pid = true)
    (hnew : s.file ≠ some (toString pid)) :
    Inv { s with procs := Function.update s.procs p { pid := pid, running := true } } where
  distinct := by
    have hpid : ∀ q, (s.procs q).running = true → (s.procs q).pid ≠ pid := of_decide_eq_true hfree
    have hcase : ∀ q, (Function.update s.procs p { pid := pid, running := true } q).running = true →
        q = p ∧ (Function.update s.procs p { pid := pid, running := true } q).pid = pid ∨
        (s.procs q).running = true ∧
          Function.update s.procs p { pid := pid, running := true } q = s.procs q :=
      (Function.forall_update_iff s.procs fun q b => b.running = true → q = p ∧ b.pid = pid ∨
        (s.procs q).running = true ∧ b = s.procs q).mpr
        ⟨fun _ => Or.inl ⟨rfl, rfl⟩, fun q _ hq => Or.inr ⟨hq, rfl⟩⟩
    intro q r hq hr heq
    dsimp only at hq hr heq
    rcases hcase q hq with ⟨hqp, hqpid⟩ | ⟨hq', hqsame⟩
    · rcases hcase r hr with ⟨hrp, -⟩ | ⟨hr', hrsame⟩
      · rw [hqp, hrp]
      · rw [hqpid, hrsame] at heq
        exact absurd heq.symm (hpid r hr')
    · rcases hcase r hr with ⟨-, hrpid⟩ | ⟨hr', hrsame⟩
      · rw [hrpid, hqsame] at heq
        exact absurd heq (hpid q hq')
      · rw [hqsame, hrsame] at heq
        exact h.distinct q r hq' hr' heq
  positive := (Function.forall_update_iff s.procs fun _ b => b.running = true → 0 < b.pid).mpr
    ⟨fun _ => hpos, fun q _ => h.positive q⟩
  text := h.text
  holder := (Function.forall_update_iff s.procs fun _ b => b.running = true → b.holds = true →
    s.file = some (toString b.pid)).mpr ⟨nofun, fun q _ => h.holder q⟩
  remover := (Function.forall_update_iff s.procs fun _ b => b.running = true →
    b.point = .releaseRemoving → s.file = some (toString b.pid)).mpr
    ⟨nofun, fun q _ => h.remover q⟩
  released := (Function.forall_update_iff s.procs fun _ b => b.point.releasing = true →
    b.holds = false).mpr ⟨nofun, fun q _ => h.released q⟩
  owner := (Function.forall_update_iff s.procs fun _ b => b.running = true →
    s.file = some (toString b.pid) → b.holds = true ∨ b.point.releasing = true).mpr
    ⟨fun _ hfile => absurd hfile hnew, fun q _ => h.owner q⟩

/-- **Every undisturbed event keeps the invariant.** -/
theorem Inv.step (h : s.Inv) {e : Event ι} (hok : s.Undisturbed e) : (step sees s e).Inv := by
  cases e with
  | spawn p pid =>
    unfold InstanceLock.step
    dsimp only
    split_ifs with hcan
    · refine h.spawn hcan.2.1 hcan.2.2 fun hfile => ?_
      exact hok _ hfile (parseInt_strip_toString pid)
    · exact h
  | die p => exact h.change rfl nofun h.text nofun nofun (h.released p) nofun (Or.inl rfl)
  | acquire p =>
    unfold InstanceLock.step
    dsimp only
    split_ifs with hready
    · have hidle : (s.procs p).point = .idle := by
        simpa using (Bool.and_eq_true_iff.mp hready).2
      exact h.goto_acquiring rfl (by rw [hidle]; rfl)
    · exact h
  | release p =>
    unfold InstanceLock.step
    dsimp only
    split_ifs
    · exact h.change rfl id h.text nofun nofun (fun _ => rfl) (fun _ _ => Or.inr rfl) (Or.inl rfl)
    · exact h
  | advance p =>
    unfold InstanceLock.step
    dsimp only
    split_ifs with hrun
    · exact h.advance hrun hok
    · exact h

theorem step_advance (hrun : (s.procs p).running = true) :
    step sees s (.advance p) = s.advance sees p := if_pos hrun

/-- Between calls a process does nothing. -/
theorem meets_idle (hidle : (s.procs p).point = .idle) (n : ℕ) :
    Run.Meets (step sees) Undisturbed s (List.replicate n (.advance p)) := by
  induction n with
  | zero => trivial
  | succ n ih =>
    have hstay : step sees s (.advance p) = s := by
      unfold step advance
      dsimp only
      rw [hidle]
      split_ifs <;> rfl
    refine ⟨fun hpoint => ?_, ?_⟩
    · rw [hidle] at hpoint
      rcases hpoint with hpoint | hpoint <;> cases hpoint
    · rw [hstay]
      exact ih

/-- With no file in the way, the write is undisturbed. -/
theorem meets_writing (hrun : (s.procs p).running = true) (hpoint : (s.procs p).point = .writing)
    (hfile : s.file = none) (n : ℕ) :
    Run.Meets (step sees) Undisturbed s (List.replicate (n + 1) (.advance p)) := by
  refine ⟨fun _ hlive => ?_, ?_⟩
  · obtain ⟨text, -, hsome, -⟩ := hlive
    rw [hfile] at hsome
    cases hsome
  · rw [step_advance hrun]
    refine meets_idle ?_ n
    unfold advance
    rw [hpoint]
    simp

/-- A stale file is removed and written anew. -/
theorem meets_removing (hrun : (s.procs p).running = true) (hlive : ¬ s.NamesLive) :
    Run.Meets (step sees) Undisturbed (s.goto p .removing) (List.replicate 2 (.advance p)) := by
  have hgone : step sees (s.goto p .removing) (.advance p) =
      { s.goto p .writing with file := none } := by
    rw [step_advance (by simpa using hrun)]
    unfold advance
    simp
  refine ⟨fun _ => by rwa [namesLive_goto], ?_⟩
  rw [hgone]
  exact meets_writing (n := 0) (by simpa using hrun) (by simp) rfl

/-- **An `acquire` that runs to its end alone is undisturbed**, where processes see each other: what
it saw is still so when it acts on it. -/
theorem meets_acquire (h : s.Inv) (hsees : ∀ p q, sees p q = true) (hready : s.ready p = true) :
    Run.Meets (step sees) Undisturbed s (.acquire p :: List.replicate 4 (.advance p)) := by
  have hrun : (s.procs p).running = true := (Bool.and_eq_true_iff.mp hready).1
  have hnoAct : ∀ point, point ≠ .removing → point ≠ .writing →
      (s.goto p point).Undisturbed (.advance p) := by
    intro point hremoving hwriting hact
    rw [goto_procs_self] at hact
    rcases hact with hact | hact
    · exact absurd hact hremoving
    · exact absurd hact hwriting
  have hcall : step sees s (.acquire p) = s.goto p .looking := if_pos hready
  refine ⟨trivial, ?_⟩
  rw [hcall]
  refine ⟨hnoAct _ nofun nofun, ?_⟩
  rw [step_advance (by simpa using hrun)]
  cases hfile : s.file with
  | none =>
    have hnext : (s.goto p .looking).advance sees p = s.goto p .writing := by
      unfold advance
      simp [hfile]
    rw [hnext]
    exact meets_writing (s := s.goto p .writing) (by simpa using hrun) (by simp) hfile 2
  | some text =>
    have hnext : (s.goto p .looking).advance sees p = s.goto p .reading := by
      unfold advance
      simp [hfile]
    rw [hnext]
    refine ⟨hnoAct _ nofun nofun, ?_⟩
    rw [step_advance (by simpa using hrun)]
    unfold advance
    simp only [goto_procs_self, goto_file, hfile, goto_goto, pidAlive_goto]
    cases hread : PyStr.parseInt (PyStr.strip text) with
    | none => exact meets_removing hrun (not_namesLive_of_none hfile hread)
    | some oldPid =>
      dsimp only
      split_ifs with halive
      · exact meets_idle (by simp) 2
      · exact meets_removing hrun
          (not_namesLive_of_dead h hsees hfile hread (by simpa using halive))

end Steps

/-! ### Runs -/

/-- At most one live process holds the lock. -/
theorem Inv.exclusive (h : s.Inv) (hp : s.HoldsLock p) (hq : s.HoldsLock q) : p = q := by
  have hfile := h.holder p hp.1 hp.2
  rw [h.holder q hq.1 hq.2, Option.some.injEq, PyStr.toString_nat_inj] at hfile
  exact (h.distinct q p hq.1 hp.1 hfile).symm

/-- An `acquire` is refused by a live process that holds the lock or is releasing it. -/
theorem Inv.refuses [Fintype ι] (h : s.Inv) (hrefuse : s.Refuses sees p) : ∃ q, (s.procs q).running = true ∧
    s.file = some (toString (s.procs q).pid) ∧
    ((s.procs q).holds = true ∨ (s.procs q).point.releasing = true) := by
  obtain ⟨-, -, text, pid, hfile, hread, halive⟩ := hrefuse
  obtain ⟨-, q, hq, hpid, -⟩ := of_decide_eq_true halive
  obtain ⟨n, rfl⟩ := h.text text hfile
  rw [parseInt_strip_toString, Option.some.injEq] at hread
  have hn : n = (s.procs q).pid := by
    rw [← hpid] at hread
    exact_mod_cast hread
  rw [hn] at hfile
  exact ⟨q, hq, hfile, h.owner q hq hfile⟩

/-- **One holder, and no dead one in the way.**  In every run, of any number of processes, whose
steps find the file they took it for: at most one live process is between an `acquire` that returned
`True` and its `release`, and an `acquire` returns `False` only while a live process is there or in
its `release`. -/
theorem lock_run [Fintype ι] [DecidableEq ι] (sees : ι → ι → Bool) (events : List (Event ι))
    (hrun : Run.Meets (step sees) Undisturbed empty events) :
    let s := Run.final (step sees) empty events
    (∀ p q, s.HoldsLock p → s.HoldsLock q → p = q) ∧
      ∀ p, s.Refuses sees p → ∃ q, (s.procs q).running = true ∧
        s.file = some (toString (s.procs q).pid) ∧
        ((s.procs q).holds = true ∨ (s.procs q).point.releasing = true) := by
  have hinv : (Run.final (step sees) (empty : InstanceLock ι) events).Inv :=
    Run.Meets.invariant (I := Inv) (fun _ _ h hok => h.step hok) Inv.empty hrun
  exact ⟨fun p q hp hq => hinv.exclusive hp hq, fun p hp => hinv.refuses hp⟩

instance (s : InstanceLock ι) (p : ι) : Decidable (s.HoldsLock p) := instDecidableAnd

instance [Fintype ι] (s : InstanceLock ι) : Decidable s.NamesLive :=
  match h : s.file with
  | none => isFalse (by simp [NamesLive, h])
  | some text => decidable_of_iff (∃ q, (s.procs q).running = true ∧
      PyStr.parseInt (PyStr.strip text) = some ((s.procs q).pid : ℤ)) (by simp [NamesLive, h])

instance [Fintype ι] (s : InstanceLock ι) (e : Event ι) : Decidable (s.Undisturbed e) :=
  match e with
  | .spawn _ pid =>
    inferInstanceAs (Decidable (∀ text, s.file = some text →
      PyStr.parseInt (PyStr.strip text) ≠ some (pid : ℤ)))
  | .advance p => inferInstanceAs (Decidable
      ((s.procs p).point = .removing ∨ (s.procs p).point = .writing → ¬ s.NamesLive))
  | .die _ => isTrue trivial
  | .acquire _ => isTrue trivial
  | .release _ => isTrue trivial

/-- The lock is handed over: the first process gets it and releases it, then the second gets it. -/
theorem lock_run_handover :
    let s := Run.final (step fun _ _ => true) (empty : InstanceLock (Fin 2)) [.spawn 0 11,
      .acquire 0, .advance 0, .advance 0, .spawn 1 12, .release 0, .advance 0, .advance 0, .advance 0,
      .acquire 1, .advance 1, .advance 1]
    s.HoldsLock 1 ∧ ∀ p, s.HoldsLock p → p = 1 := by
  intro s
  have hholds : s.HoldsLock 1 := by decide +kernel
  have hrun := lock_run (fun _ _ => true) [.spawn (0 : Fin 2) 11,
    .acquire 0, .advance 0, .advance 0, .spawn 1 12, .release 0, .advance 0, .advance 0, .advance 0,
    .acquire 1, .advance 1, .advance 1] (by decide +kernel)
  exact ⟨hholds, fun p hp => hrun.1 p 1 hp hholds⟩

/-- Two processes look before either writes: both get the lock.  And a process that starts with the
pid of a dead holder, as a container's only process does, refuses itself the lock that nobody
holds. -/
theorem lock_fails :
    (let s := Run.final (step fun _ _ => true) (empty : InstanceLock (Fin 2)) [.spawn 0 11,
      .spawn 1 12, .acquire 0, .acquire 1, .advance 0, .advance 1, .advance 0, .advance 1]
    s.HoldsLock 0 ∧ s.HoldsLock 1) ∧
    let s := Run.final (step fun _ _ => true) (empty : InstanceLock (Fin 2)) [.spawn 0 7,
      .acquire 0, .advance 0, .advance 0, .die 0, .spawn 1 7, .acquire 1, .advance 1]
    s.Refuses (fun _ _ => true) 1 ∧ ∀ p, ¬ s.HoldsLock p := by
  refine ⟨by decide +kernel, ⟨by decide +kernel, by decide +kernel, "7", 7, ?_⟩, by decide +kernel⟩
  decide +kernel

end XenMiner.InstanceLock
