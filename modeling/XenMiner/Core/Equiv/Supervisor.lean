import XenMiner.BlockQueue.Equiv.Flush
import XenMiner.Core.Supervisor
import XenMiner.Mining.Equiv.CudaNative

/-!
# The supervisor: frames and rules

Flushes on recovery do not nest: `refreshNetwork_succ` shows that `refresh` is `refreshNetwork` at
every greater depth.  `Advances` is what every part of a step does to the cursors, the settings and
the known difficulty.  The queue changes by flushes only, apart from the hit that is handled: the
rules named `…_queue` carry an invariant of the queue over everything else.
-/

namespace XenMiner

open Argon2Common (Argon2)
open SubmitResult

namespace Supervisor

variable {w : World} {A : Argon2} {s s' s'' : Supervisor} {raw : ℤ}

/-- The model's `set_difficulty` is that of the CUDA backend, for every valid difficulty. -/
theorem setDifficulty_cuda (b : CudaNativeBackend) (env : EngineReply) {d : ℤ}
    (hd : 1 ≤ d) :
    (MinerBackend.cuda b.difficulty).setDifficulty d = .cuda (b.setDifficulty env d).difficulty := by
  rw [CudaNativeBackend.setDifficulty_difficulty hd]
  exact congrArg MinerBackend.cuda (max_eq_right hd)

/-! ### Known difficulties -/

/-- A difficulty is known, it is what an invalid one would be replaced by, and the backend has it. -/
def Known (s : Supervisor) : Prop :=
  ∃ d, s.networkDifficulty = some d ∧ PyNum.optOrInt (some d) s.settings.memoryCost = d ∧
    s.backend.setDifficulty d = s.backend

theorem setDifficulty_setDifficulty (backend : MinerBackend) (d : ℤ) :
    (backend.setDifficulty d).setDifficulty d = backend.setDifficulty d := by
  cases backend with
  | cuda => rfl
  | other => rfl

theorem acceptNetworkDifficulty_of_pos {fallback : ℤ} (h : 0 < raw) :
    acceptNetworkDifficulty raw fallback = raw := if_neg (not_le.mpr h)

theorem acceptNetworkDifficulty_of_nonpos {fallback : ℤ} (h : raw ≤ 0) :
    acceptNetworkDifficulty raw fallback = fallback := if_pos h

/-- The difficulty that comes out of a polled one can be fallen back on. -/
theorem optOrInt_acceptNetworkDifficulty (known : Option ℤ) (memoryCost raw : ℤ) :
    PyNum.optOrInt (some (acceptNetworkDifficulty raw (PyNum.optOrInt known memoryCost)))
        memoryCost =
      acceptNetworkDifficulty raw (PyNum.optOrInt known memoryCost) := by
  by_cases hraw : raw ≤ 0
  · rw [acceptNetworkDifficulty_of_nonpos hraw]
    unfold PyNum.optOrInt
    cases known with
    | none => exact ite_self memoryCost
    | some d =>
      by_cases hd : d = 0
      · simp [hd]
      · simp [hd]
  · rw [acceptNetworkDifficulty_of_pos (not_le.mp hraw)]
    exact if_neg (not_le.mp hraw).ne'

/-! ### Frames -/

/-- What every part of a step does. -/
structure Advances (s s' : Supervisor) : Prop where
  settings : s'.settings = s.settings
  clock : s.clock ≤ s'.clock
  polls : s.polls ≤ s'.polls
  known : s.Known → s'.Known

theorem Advances.refl (s : Supervisor) : s.Advances s := ⟨rfl, le_rfl, le_rfl, id⟩

theorem Advances.trans (h : s.Advances s') (h' : s'.Advances s'') : s.Advances s'' where
  settings := h'.settings.trans h.settings
  clock := h.clock.trans h'.clock
  polls := h.polls.trans h'.polls
  known := h'.known ∘ h.known

theorem advances_tick : s.Advances s.tick := ⟨rfl, Nat.le_succ _, le_rfl, id⟩

theorem advances_withQueue {q : QueueFlusher} : s.Advances (s.withQueue q) :=
  ⟨rfl, le_rfl, le_rfl, id⟩

/-- Queueing a hit changes the queue only. -/
theorem queueHit_eq {hit : BlockHit} {kind reason : String} :
    s.queueHit w hit kind reason = s.withQueue (s.queueHit w hit kind reason).queue := rfl

theorem advances_queueHit {hit : BlockHit} {kind reason : String} :
    s.Advances (s.queueHit w hit kind reason) := advances_withQueue

/-- A refusal changes the queue only. -/
theorem handleRefusal_eq {hit : BlockHit} {kind : String} {status : ℤ} {body : String} :
    s.handleRefusal w hit kind status body =
      s.withQueue (s.handleRefusal w hit kind status body).queue := by
  unfold handleRefusal
  dsimp only
  split_ifs <;> rfl

theorem handleRefusal_sent {hit : BlockHit} {kind : String} {status : ℤ} {body : String} :
    (s.handleRefusal w hit kind status body).queue.sent = s.queue.sent := by
  unfold handleRefusal
  dsimp only
  split_ifs <;> rfl

theorem handleRefusal_dropped {hit : BlockHit} {kind : String} {status : ℤ} {body : String} :
    (s.handleRefusal w hit kind status body).queue.dropped = s.queue.dropped := by
  unfold handleRefusal
  dsimp only
  split_ifs <;> rfl

theorem submitLive_sent {hit : BlockHit} {kind : String} :
    (s.submitLive w hit kind).queue.sent = (s.sendLive w hit).1.queue.sent := by
  unfold submitLive
  dsimp only
  split_ifs
  · rfl
  · exact handleRefusal_sent

theorem submitLive_dropped {hit : BlockHit} {kind : String} :
    (s.submitLive w hit kind).queue.dropped = s.queue.dropped := by
  unfold submitLive
  dsimp only
  split_ifs
  · rfl
  · exact handleRefusal_dropped

theorem submitLive_eq {hit : BlockHit} {kind : String} :
    s.submitLive w hit kind = (s.sendLive w hit).1.withQueue (s.submitLive w hit kind).queue := by
  unfold submitLive
  dsimp only
  split_ifs
  · rfl
  · exact handleRefusal_eq

/-- The store after a refusal. -/
theorem handleRefusal_store {hit : BlockHit} {kind : String} {status : ℤ} {body : String} :
    (s.handleRefusal w hit kind status body).queue.store =
      if status = 0 ∨ s.networkOk = false then
        (s.queue.store.recordDirectSubmit (s.stamp w) hit status body).enqueue (s.stamp w) hit
          "network_down"
      else if isDifficultyMismatch status body = true then
        s.queue.store.enqueue (s.stamp w) hit difficultyChangeReason
      else if isXuniWindowReject status body = true then
        s.queue.store.enqueue (s.stamp w) hit outsideXuniWindowReason
      else (s.queue.store.recordRejection (s.stamp w) hit status body "live" none none).1 := by
  unfold handleRefusal
  dsimp only
  split_ifs <;> rfl

theorem submitLive_store_of_refused {hit : BlockHit} {kind : String}
    (hrefused : submitAccepted (w.reply s.replies).status (w.reply s.replies).body = false) :
    (s.submitLive w hit kind).queue.store =
      ((s.sendLive w hit).1.handleRefusal w hit kind (w.reply s.replies).status
        (w.reply s.replies).body).queue.store := by
  have hsent : (s.sendLive w hit).2 = w.reply s.replies := rfl
  unfold submitLive
  dsimp only
  rw [hsent, if_neg (by rw [hrefused]; exact Bool.false_ne_true)]

theorem submitLive_store_of_accepted {hit : BlockHit} {kind : String}
    (haccepted : submitAccepted (w.reply s.replies).status (w.reply s.replies).body = true) :
    (s.submitLive w hit kind).queue.store =
      s.queue.store.recordDirectSubmit ((s.sendLive w hit).1.stamp w) hit
        (w.reply s.replies).status (w.reply s.replies).body := by
  have hsent : (s.sendLive w hit).2 = w.reply s.replies := rfl
  unfold submitLive
  dsimp only
  rw [hsent, if_pos haccepted]
  rfl

/-- The submission of a live hit. -/
def liveSent (w : World) (s : Supervisor) (hit : BlockHit) : Sent where
  time := w.now s.clock
  deferUntil := s.deferSubmitUntil
  source := .live s.networkOk
  key := hit.key
  status := (w.reply s.replies).status
  body := (w.reply s.replies).body

theorem advances_submitLive {hit : BlockHit} {kind : String} :
    s.Advances (s.submitLive w hit kind) := by
  have hsend : s.Advances (s.sendLive w hit).1 := ⟨rfl, Nat.le_succ _, le_rfl, id⟩
  rw [submitLive_eq]
  exact hsend.trans advances_withQueue

theorem advances_flush {onShutdown : Bool} : s.Advances (s.flush w A onShutdown).1 :=
  ⟨rfl, Nat.le_add_right _ _, le_rfl, id⟩

theorem advances_syncPending : s.Advances s.syncPending := ⟨rfl, le_rfl, le_rfl, id⟩

theorem applyNetworkDifficulty_fst (s : Supervisor) (raw : ℤ) :
    (s.applyNetworkDifficulty w raw).1 = s ∨
      (s.applyNetworkDifficulty w raw).1 = s.beginDifficultyTransition w := by
  unfold applyNetworkDifficulty
  dsimp only
  split_ifs
  · exact Or.inl rfl
  · split
    · split_ifs
      · exact Or.inr rfl
      · exact Or.inl rfl
    · exact Or.inl rfl

theorem applyNetworkDifficulty_snd (s : Supervisor) (raw : ℤ) :
    (s.applyNetworkDifficulty w raw).2 =
      acceptNetworkDifficulty raw (PyNum.optOrInt s.networkDifficulty s.settings.memoryCost) := by
  unfold applyNetworkDifficulty
  dsimp only
  split_ifs
  · rfl
  · split
    · split_ifs <;> rfl
    · rfl

theorem applyNetworkDifficulty_frame (s : Supervisor) (raw : ℤ) :
    (s.applyNetworkDifficulty w raw).1.queue = s.queue ∧
      (s.applyNetworkDifficulty w raw).1.settings = s.settings ∧
      (s.applyNetworkDifficulty w raw).1.polls = s.polls := by
  rcases applyNetworkDifficulty_fst (w := w) s raw with heq | heq
  · rw [heq]
    exact ⟨rfl, rfl, rfl⟩
  · rw [heq]
    exact ⟨rfl, rfl, rfl⟩

theorem advances_applyNetworkDifficulty :
    s.Advances ((s.applyNetworkDifficulty w raw).1.storeDifficulty
      (s.applyNetworkDifficulty w raw).2) := by
  have hknown := optOrInt_acceptNetworkDifficulty s.networkDifficulty s.settings.memoryCost raw
  rw [applyNetworkDifficulty_snd]
  rcases applyNetworkDifficulty_fst (w := w) s raw with heq | heq
  · rw [heq]
    exact ⟨rfl, le_rfl, le_rfl, fun _ => ⟨_, rfl, hknown, setDifficulty_setDifficulty _ _⟩⟩
  · rw [heq]
    exact ⟨rfl, Nat.le_succ _, le_rfl, fun _ => ⟨_, rfl, hknown, setDifficulty_setDifficulty _ _⟩⟩

/-! ### One status -/

/-- The state after a status of the poller, as far as the difficulty goes. -/
def notedDifficulty (w : World) (s : Supervisor) : Supervisor :=
  let s' := { s with polls := s.polls + 1 }
  match w.poll s.polls with
  | some raw =>
    if s.networkDifficulty ≠ some raw then
      (s'.applyNetworkDifficulty w raw).1.storeDifficulty (s'.applyNetworkDifficulty w raw).2
    else s'
  | none => s'

theorem noteStatus_eq (w : World) (s : Supervisor) :
    s.noteStatus w =
      ({ s.notedDifficulty w with
          networkOk := (w.poll s.polls).isSome
          lastNetworkLogOk := some (w.poll s.polls).isSome },
        (w.poll s.polls).isSome,
        (w.poll s.polls).isSome && decide (s.lastNetworkLogOk = some false)) := by
  unfold noteStatus notedDifficulty
  cases w.poll s.polls with
  | none => rfl
  | some raw =>
    dsimp only
    split_ifs with hnew
    · rcases applyNetworkDifficulty_fst (w := w) { s with polls := s.polls + 1 } raw with heq | heq
      · simp [heq, storeDifficulty]
      · simp [heq, storeDifficulty, beginDifficultyTransition, tick]
    · rfl

theorem notedDifficulty_queue : (s.notedDifficulty w).queue = s.queue := by
  unfold notedDifficulty
  cases w.poll s.polls with
  | none => rfl
  | some raw =>
    dsimp only
    split_ifs
    · exact (applyNetworkDifficulty_frame _ raw).1
    · rfl

theorem notedDifficulty_polls : (s.notedDifficulty w).polls = s.polls + 1 := by
  unfold notedDifficulty
  cases w.poll s.polls with
  | none => rfl
  | some raw =>
    dsimp only
    split_ifs
    · exact (applyNetworkDifficulty_frame _ raw).2.2
    · rfl

/-- The backend mines at a valid difficulty as it is. -/
theorem miningDifficulty_storeDifficulty (h : 0 < raw) :
    (s.storeDifficulty raw).miningDifficulty = raw := by
  unfold storeDifficulty miningDifficulty
  cases s.backend with
  | cuda => exact max_eq_right h
  | other => exact if_neg h.ne'

/-- A status changes nothing but the cursor, or it brings a new difficulty. -/
theorem notedDifficulty_cases (hknown : s.Known) :
    s.notedDifficulty w = { s with polls := s.polls + 1 } ∧
        (∀ raw ∈ w.poll s.polls, 0 < raw → s.networkDifficulty = some raw) ∨
      ∃ raw ∈ w.poll s.polls, 0 < raw ∧ s.networkDifficulty ≠ some raw ∧
        s.notedDifficulty w =
          ({ s with polls := s.polls + 1 }.beginDifficultyTransition w).storeDifficulty raw := by
  obtain ⟨d, hd, hfallback, hbackend⟩ := hknown
  unfold notedDifficulty
  cases hpoll : w.poll s.polls with
  | none => exact Or.inl ⟨rfl, by simp⟩
  | some raw =>
    dsimp only
    by_cases hnew : s.networkDifficulty ≠ some raw
    · rw [if_pos hnew]
      by_cases hraw : raw ≤ 0
      · -- An invalid difficulty is replaced by the known one.
        left
        have happlied : ({ s with polls := s.polls + 1 } : Supervisor).applyNetworkDifficulty w raw =
            ({ s with polls := s.polls + 1 }, d) := by
          unfold applyNetworkDifficulty
          dsimp only
          rw [if_pos hraw, acceptNetworkDifficulty_of_nonpos hraw, hd, hfallback]
        rw [happlied]
        unfold storeDifficulty
        dsimp only
        rw [hbackend, ← hd]
        refine ⟨rfl, fun _ heq hpos => ?_⟩
        rw [← Option.some.inj heq] at hpos
        exact absurd hpos (not_lt.mpr hraw)
      · right
        have hpos : 0 < raw := not_le.mp hraw
        refine ⟨raw, rfl, hpos, hnew, ?_⟩
        have hne : raw ≠ d := fun heq => hnew (heq ▸ hd)
        have happlied : ({ s with polls := s.polls + 1 } : Supervisor).applyNetworkDifficulty w raw =
            ({ s with polls := s.polls + 1 }.beginDifficultyTransition w, raw) := by
          unfold applyNetworkDifficulty
          dsimp only
          rw [if_neg hraw, acceptNetworkDifficulty_of_pos hpos, hd]
          exact if_pos hne
        rw [happlied]
    · rw [if_neg hnew]
      refine Or.inl ⟨rfl, fun _ heq _ => ?_⟩
      rw [← Option.some.inj heq]
      exact not_not.mp hnew

theorem advances_notedDifficulty : s.Advances (s.notedDifficulty w) := by
  have hpolled : s.Advances { s with polls := s.polls + 1 } := ⟨rfl, le_rfl, Nat.le_succ _, id⟩
  unfold notedDifficulty
  cases w.poll s.polls with
  | none => exact hpolled
  | some raw =>
    dsimp only
    split_ifs
    · exact hpolled.trans advances_applyNetworkDifficulty
    · exact hpolled

theorem advances_noteStatus : s.Advances (s.noteStatus w).1 := by
  rw [noteStatus_eq]
  exact advances_notedDifficulty.trans ⟨rfl, le_rfl, le_rfl, id⟩

@[simp]
theorem noteStatus_queue : (s.noteStatus w).1.queue = s.queue := by
  rw [noteStatus_eq]
  exact notedDifficulty_queue

@[simp]
theorem noteStatus_polls : (s.noteStatus w).1.polls = s.polls + 1 := by
  rw [noteStatus_eq]
  exact notedDifficulty_polls

theorem noteStatus_networkDifficulty :
    (s.noteStatus w).1.networkDifficulty = (s.notedDifficulty w).networkDifficulty := by
  rw [noteStatus_eq]

/-- A flush on recovery follows a status that finds the network down for the first time. -/
theorem noteStatus_of_up (h : s.lastNetworkLogOk = some true) : (s.noteStatus w).2.2 = false := by
  rw [noteStatus_eq]
  simp [h]

theorem lastNetworkLogOk_noteStatus (h : (s.noteStatus w).2.1 = true) :
    (s.noteStatus w).1.lastNetworkLogOk = some true := by
  rw [noteStatus_eq] at h ⊢
  exact congrArg some h

/-! ### Refreshes and flushes -/

/-- The refresh of a network that is known to be up is a status and no more. -/
theorem refreshNetwork_of_up (depth : ℕ) (h : s.lastNetworkLogOk = some true) :
    refreshNetwork w A depth s = ((s.noteStatus w).1, (s.noteStatus w).2.1) := by
  have hdown := noteStatus_of_up (w := w) h
  have hnone : ¬ ((s.noteStatus w).2.1 = true ∧ (s.noteStatus w).2.2 = true ∧
      0 < (s.noteStatus w).1.queue.store.pendingCount none) := by
    rw [hdown]
    simp
  rw [refreshNetwork.eq_def]
  dsimp only
  rw [if_neg hnone]

/-- Once the network is known to be up, the refresh inside of a flush does not depend on the depth
left. -/
theorem tryFlushWith_of_up (m n : ℕ) (h : s.lastNetworkLogOk = some true) :
    s.tryFlushWith w A (refreshNetwork w A m) = s.tryFlushWith w A (refreshNetwork w A n) := by
  have htick : s.tick.lastNetworkLogOk = some true := h
  unfold tryFlushWith
  rw [refreshNetwork_of_up m htick, refreshNetwork_of_up n htick]

/-- One flush on recovery is enough: a greater depth changes nothing. -/
theorem refreshNetwork_succ (n : ℕ) (s : Supervisor) :
    refreshNetwork w A (n + 1) s = s.refresh w A := by
  unfold refresh
  rw [refreshNetwork, refreshNetwork]
  cases hnote : s.noteStatus w with
  | mk t rest =>
    obtain ⟨up, wasDown⟩ := rest
    dsimp only
    split_ifs with hrecover
    · have hup : t.lastNetworkLogOk = some true := by
        have hknown := lastNetworkLogOk_noteStatus (w := w) (s := s)
        rw [hnote] at hknown
        exact hknown hrecover.1
      rw [tryFlushWith_of_up n 0 hup]
    · rfl

theorem advances_tryFlushWith {f : Supervisor → Supervisor × Bool}
    (hf : ∀ s : Supervisor, s.Advances (f s).1) (s : Supervisor) : s.Advances (s.tryFlushWith w A f).1 := by
  have htick : s.Advances (f s.tick).1 := advances_tick.trans (hf s.tick)
  unfold tryFlushWith
  split_ifs with hnone hdeferred
  · exact Advances.refl s
  · exact advances_tick
  · dsimp only
    split_ifs
    · exact htick
    · have hflush : (f s.tick).1.Advances ((f s.tick).1.flush w A false).1 := advances_flush
      exact (htick.trans hflush).trans advances_syncPending

theorem advances_refreshNetwork (depth : ℕ) (s : Supervisor) :
    s.Advances (refreshNetwork w A depth s).1 := by
  induction depth generalizing s with
  | zero =>
    rw [refreshNetwork]
    dsimp only
    split_ifs
    · exact advances_noteStatus
    · exact advances_noteStatus
  | succ depth ih =>
    rw [refreshNetwork]
    dsimp only
    split_ifs
    · exact advances_noteStatus.trans (advances_tryFlushWith ih _)
    · exact advances_noteStatus

theorem advances_refresh (s : Supervisor) : s.Advances (s.refresh w A).1 :=
  advances_refreshNetwork 1 s

theorem advances_tryFlushPendingQueue (s : Supervisor) :
    s.Advances (s.tryFlushPendingQueue w A).1 := advances_tryFlushWith advances_refresh s

theorem advances_noteWindow {inWindow : Bool} {pendingXuni : ℕ} {now queueFlush xuniFlush : ℚ} :
    s.Advances (s.noteWindow w A inWindow pendingXuni now queueFlush xuniFlush).1 := by
  have hflag : ∀ flag, s.Advances { s with wasInXuniWindow := flag } :=
    fun _ => ⟨rfl, le_rfl, le_rfl, id⟩
  unfold noteWindow
  split_ifs
  · exact (hflag true).trans (advances_tryFlushPendingQueue _)
  · exact hflag true
  · exact hflag false
  · exact Advances.refl s

theorem advances_servicePendingQueue {now queueFlush xuniFlush interval : ℚ} {aggressive : Bool} :
    s.Advances
      (s.servicePendingQueue w A now queueFlush xuniFlush interval aggressive).1 := by
  have hminute : s.Advances { s with minutes := s.minutes + 1 } := ⟨rfl, le_rfl, le_rfl, id⟩
  unfold servicePendingQueue
  dsimp only
  generalize hnoted : noteWindow w A { s with minutes := s.minutes + 1 } _ _ now queueFlush
    xuniFlush = noted
  have hwindow : s.Advances noted.1 := by
    rw [← hnoted]
    exact hminute.trans advances_noteWindow
  generalize (if aggressive = true then (5 : ℚ) else 30) = flushInterval
  split_ifs
  · exact hwindow.trans (advances_tryFlushPendingQueue _)
  · exact hwindow.trans (advances_tryFlushPendingQueue _)
  · exact hwindow

theorem advances_placeHit {hit : BlockHit} {kind : String} :
    s.Advances (s.placeHit w A hit kind) := by
  have hminute : s.Advances { s with minutes := s.minutes + 1 } := ⟨rfl, le_rfl, le_rfl, id⟩
  unfold placeHit
  dsimp only
  split_ifs
  · exact hminute.trans advances_queueHit
  · exact hminute.trans advances_queueHit
  · exact hminute.trans advances_queueHit
  · exact (hminute.trans (advances_refresh _)).trans advances_queueHit
  · exact (hminute.trans (advances_refresh _)).trans advances_submitLive

theorem advances_handleHit {hit : BlockHit} : s.Advances (s.handleHit w A hit) := by
  have hfound : ∀ kind, s.Advances (s.noteFound kind) := fun _ => ⟨rfl, Nat.le_succ _, le_rfl, id⟩
  unfold handleHit
  dsimp only
  split_ifs
  · exact (hfound _).trans advances_queueHit
  · split
    · exact hfound _
    · exact (hfound _).trans advances_placeHit

/-! ### The queue between hits -/

/-- What flushes keep. -/
structure KeptByFlush (A : Argon2) (settings : Settings) (P : QueueFlusher → Prop) : Prop where
  metrics : ∀ q m, P q → P { q with metrics := m }
  flush : ∀ q env onShutdown, P q → P (QueueFlusher.flush A settings q env onShutdown).1

section Queue

variable {P : QueueFlusher → Prop}

theorem tryFlushWith_queue {f : Supervisor → Supervisor × Bool} (hkept : KeptByFlush A s.settings P)
    (hf : (f s.tick).1.settings = s.settings ∧ P (f s.tick).1.queue) (h : P s.queue) :
    P (s.tryFlushWith w A f).1.queue := by
  unfold tryFlushWith
  split_ifs with hnone hdeferred
  · exact h
  · exact h
  · dsimp only
    split_ifs
    · exact hf.2
    · have hflush := hkept.flush _ ((f s.tick).1.flushEnv w) false hf.2
      rw [← hf.1] at hflush
      exact hkept.metrics _ _ hflush

theorem refreshNetwork_queue (depth : ℕ) (hkept : KeptByFlush A s.settings P) (h : P s.queue) :
    P (refreshNetwork w A depth s).1.queue := by
  induction depth generalizing s with
  | zero =>
    rw [refreshNetwork]
    dsimp only
    split_ifs
    · rwa [noteStatus_queue]
    · rwa [noteStatus_queue]
  | succ depth ih =>
    rw [refreshNetwork]
    dsimp only
    split_ifs
    · have hsettings := (advances_noteStatus (w := w) (s := s)).settings
      have hnoted : P (s.noteStatus w).1.queue := by rwa [noteStatus_queue]
      rw [← hsettings] at hkept
      exact tryFlushWith_queue hkept ⟨(advances_refreshNetwork depth _).settings,
        ih hkept hnoted⟩ hnoted
    · rwa [noteStatus_queue]

theorem refresh_queue (hkept : KeptByFlush A s.settings P) (h : P s.queue) :
    P (s.refresh w A).1.queue := refreshNetwork_queue 1 hkept h

theorem tryFlushPendingQueue_queue (hkept : KeptByFlush A s.settings P) (h : P s.queue) :
    P (s.tryFlushPendingQueue w A).1.queue :=
  tryFlushWith_queue hkept ⟨(advances_refresh s.tick).settings, refresh_queue hkept h⟩ h

theorem servicePendingQueue_queue {now queueFlush xuniFlush interval : ℚ} {aggressive : Bool}
    (hkept : KeptByFlush A s.settings P) (h : P s.queue) :
    P (s.servicePendingQueue w A now queueFlush xuniFlush interval aggressive).1.queue := by
  unfold servicePendingQueue
  dsimp only
  generalize hnoted : noteWindow w A { s with minutes := s.minutes + 1 } _ _ now queueFlush
    xuniFlush = noted
  have hwindow : noted.1.settings = s.settings ∧ P noted.1.queue := by
    rw [← hnoted]
    refine ⟨advances_noteWindow.settings, ?_⟩
    unfold noteWindow
    split_ifs
    · exact tryFlushPendingQueue_queue hkept h
    · exact h
    · exact h
    · exact h
  have hflush : P (noted.1.tryFlushPendingQueue w A).1.queue :=
    tryFlushPendingQueue_queue (hwindow.1 ▸ hkept) hwindow.2
  generalize (if aggressive = true then (5 : ℚ) else 30) = flushInterval
  split_ifs
  · exact hflush
  · exact hflush
  · exact hwindow.2

theorem placeHit_queue {hit : BlockHit} {kind : String} (hkept : KeptByFlush A s.settings P)
    (hqueue : ∀ (s' : Supervisor) reason, reason ≠ resubmissionReason → P s'.queue →
      P (s'.queueHit w hit kind reason).queue)
    (hsubmit : ∀ s' : Supervisor, P s'.queue → P (s'.submitLive w hit kind).queue)
    (h : P s.queue) : P (s.placeHit w A hit kind).queue := by
  have hrefresh : P ({ s with minutes := s.minutes + 1 }.refresh w A).1.queue :=
    refresh_queue hkept h
  unfold placeHit
  dsimp only
  split_ifs
  · exact hqueue _ _ (by decide) h
  · exact hqueue _ _ (by decide) h
  · exact hqueue _ _ (by decide) h
  · exact hqueue _ _ (by decide) hrefresh
  · exact hsubmit _ hrefresh

/-- What a hit does to the queue, apart from the flush on recovery: it is queued for another reason
than a rejection, or it is submitted. -/
theorem handleHit_queue {hit : BlockHit} (hkept : KeptByFlush A s.settings P)
    (hqueue : ∀ (s' : Supervisor) hit kind reason, reason ≠ resubmissionReason → P s'.queue →
      P (s'.queueHit w hit kind reason).queue)
    (hsubmit : ∀ (s' : Supervisor) hit kind, P s'.queue → P (s'.submitLive w hit kind).queue)
    (h : P s.queue) : P (s.handleHit w A hit).queue := by
  have hfound : ∀ kind, P (s.noteFound kind).queue := fun _ => hkept.metrics _ _ h
  unfold handleHit
  dsimp only
  split_ifs
  · exact hqueue _ _ _ _ (by decide) (hfound _)
  · split
    · exact hfound _
    · exact placeHit_queue hkept (fun s' => hqueue s' _ _) (fun s' => hsubmit s' _ _) (hfound _)

theorem resumeQueuedBlocks_queue (hkept : KeptByFlush A s.settings P) (h : P s.queue) :
    P (s.resumeQueuedBlocks w A).queue := by
  have hflush : ∀ minutes, P ((flush w A { s with minutes := minutes } false).1.syncPending).queue :=
    fun minutes => hkept.metrics _ _ (hkept.flush _ _ _ h)
  unfold resumeQueuedBlocks
  dsimp only
  generalize (if (s.queue.store.pendingByType none).xuni ≠ 0 ∧
    Policy.inXuniWindow (w.minute s.minutes) = false then _ else 0) = xuniWaiting
  split_ifs
  · exact h
  · exact h
  · exact hflush _
  · exact h

theorem connect_queue (s : Supervisor) : (s.connect w).queue = s.queue := by
  unfold connect
  cases w.poll s.polls with
  | none => rfl
  | some raw =>
    dsimp only
    exact (applyNetworkDifficulty_frame _ raw).1

theorem connect_settings (s : Supervisor) : (s.connect w).settings = s.settings := by
  unfold connect
  cases w.poll s.polls with
  | none => rfl
  | some raw =>
    dsimp only
    exact (applyNetworkDifficulty_frame _ raw).2.1

/-- A new process works on the restored store, with the records of what was sent. -/
theorem start_queue (hkept : KeptByFlush A s.settings P)
    (h : P { s.queue with store := s.queue.store.startSession }) : P (s.start w A).queue := by
  have hconnect : ∀ {s' c : Supervisor}, s'.connect w = c → P s'.queue →
      s'.settings = s.settings → P (c.resumeQueuedBlocks w A).syncPending.queue := by
    rintro s' _ rfl hs' hsettings
    have hsame : (s'.connect w).settings = s.settings := (connect_settings s').trans hsettings
    refine hkept.metrics _ _ (resumeQueuedBlocks_queue (hsame ▸ hkept) ?_)
    rw [connect_queue]
    exact hs'
  unfold start
  dsimp only
  generalize hc : connect w _ = c
  exact hconnect hc (hkept.metrics _ _ (hkept.metrics _ {} h)) rfl

theorem gracefulShutdown_queue (hkept : KeptByFlush A s.settings P)
    (hdefer : ∀ q minute, P q → P (QueueFlusher.deferToNextStart q minute).1) (h : P s.queue) :
    P (s.gracefulShutdown w A).queue := by
  unfold gracefulShutdown
  split_ifs with hdone
  · exact h
  dsimp only
  generalize (if (s.queue.store.pendingByType none).xuni ≠ 0 ∧
    Policy.inXuniWindow (w.minute s.minutes) = false then _ else 0) = xuniHeld
  generalize hr : (if s.networkOk = true then refresh w A _ else _) = r
  have hrefreshed : P r.1.queue ∧ r.1.settings = s.settings := by
    rw [← hr]
    split_ifs
    · exact ⟨refresh_queue hkept h, (advances_refresh _).settings⟩
    · exact ⟨h, rfl⟩
  split_ifs
  · exact h
  · have hflush := hkept.flush _ (r.1.flushEnv w) true hrefreshed.1
    rw [← hrefreshed.2] at hflush
    exact hkept.metrics _ _ hflush
  · exact hkept.metrics _ _ (hdefer _ _ hrefreshed.1)

end Queue

/-- A world whose clock goes on by a second at each reading, and whose pool answers all submissions
alike. -/
def sampleWorld (poll : ℕ → Option ℤ) (reply : SubmitResult.Reply) : World where
  now := fun n => n
  now_nonneg := fun n => Nat.cast_nonneg n
  now_mono := Nat.mono_cast
  poll := poll
  minute := fun _ => 0
  reply := fun _ => reply

end Supervisor

end XenMiner
