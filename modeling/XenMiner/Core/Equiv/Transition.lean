import XenMiner.Core.Equiv.Supervisor
import XenMiner.Lib.Run

/-!
# Nothing is sent while a difficulty settles

A transition is looked for before a hit is submitted and before the queue is flushed, and the network
is refreshed in between.  When that refresh finds a new difficulty, it begins a transition and the
submission goes on (`sent_in_transition`).  In a run in which no status that is read after the check
brings a new difficulty, every submission comes at or after the deadline (`sent_after_deadline`); for
a flush, a new difficulty that all pending blocks wait out does no harm.

`Leads` is what each part of a step does from the check on, whatever the harmless difficulties `W`
are: none while a hit is handled, those the pending blocks wait out in a flush.
-/

namespace XenMiner

open Argon2Common (Argon2 sampleArgon2 sampleBlock)

namespace Supervisor

variable {w : World} {A : Argon2} {s s' s'' : Supervisor} {d : Option ℤ} {W : ℤ → Prop}
  {a b : ℕ} {checked : Prop}

/-- Every submission came at or after the deadline in force. -/
def SentAfterDeadline (q : QueueFlusher) : Prop := ∀ x ∈ q.sent, x.deferUntil ≤ x.time

/-- The statuses from `a` to `b` bring no valid difficulty but `d`. -/
def QuietBetween (w : World) (d : Option ℤ) (a b : ℕ) : Prop :=
  ∀ n, a ≤ n → n < b → ∀ raw ∈ w.poll n, 0 < raw → d = some raw

theorem QuietBetween.mono {b' : ℕ} (h : QuietBetween w d a b) (hb : b' ≤ b) :
    QuietBetween w d a b' :=
  fun n hn hn' => h n hn (lt_of_lt_of_le hn' hb)

theorem quietBetween_self : QuietBetween w d a a :=
  fun _ hn hn' => absurd hn (not_le.mpr hn')

theorem quietBetween_succ (hab : a ≤ b) :
    QuietBetween w d a (b + 1) ↔
      QuietBetween w d a b ∧ ∀ raw ∈ w.poll b, 0 < raw → d = some raw := by
  constructor
  · intro h
    exact ⟨h.mono (Nat.le_succ b), h b hab (Nat.lt_succ_self b)⟩
  · rintro ⟨h, hlast⟩ n hn hn'
    rcases Nat.lt_succ_iff_lt_or_eq.mp hn' with hlt | rfl
    · exact h n hn hlt
    · exact hlast

/-- Of the statuses from `a` to `b`, the first that brings another valid difficulty than `d` and all
after it bring valid difficulties in `W` only. -/
def Harmless (w : World) (d : Option ℤ) (W : ℤ → Prop) (a b : ℕ) : Prop :=
  ∀ n, a ≤ n → n < b → ∀ raw ∈ w.poll n, 0 < raw → QuietBetween w d a (n + 1) ∨ W raw

theorem Harmless.mono {b' : ℕ} (h : Harmless w d W a b) (hb : b' ≤ b) : Harmless w d W a b' :=
  fun n hn hn' => h n hn (lt_of_lt_of_le hn' hb)

/-- No transition is under way. -/
def Past (w : World) (s : Supervisor) : Prop := s.deferSubmitUntil ≤ w.now s.clock

theorem past_of_not_inDifficultyTransition (h : s.inDifficultyTransition w ≠ true) : Past w s := by
  unfold inDifficultyTransition at h
  exact not_lt.mp fun hlt => h (decide_eq_true hlt)

/-! ### Steady states -/

/-- The state after some statuses, counted from `a`, when the difficulty was `d`: nothing changed,
and if it was `checked` no transition is under way; or the difficulty is harmless. -/
structure Steady (w : World) (d : Option ℤ) (W : ℤ → Prop) (a : ℕ) (checked : Prop)
    (s : Supervisor) : Prop where
  known : s.Known
  begun : a ≤ s.polls
  waits : ∀ c, W c → ∀ x ∈ s.queue.store.pending, x.2.WaitsAt c
  sent : SentAfterDeadline s.queue
  quiet : QuietBetween w d a s.polls → s.networkDifficulty = d ∧ (checked → Past w s)
  harmless : ¬ QuietBetween w d a s.polls → W s.miningDifficulty

/-- What every part of a step does to steady states. -/
structure Leads (w : World) (d : Option ℤ) (W : ℤ → Prop) (a : ℕ) (s s' : Supervisor) : Prop where
  advances : s.Advances s'
  steady : ∀ {checked}, Harmless w d W a s'.polls → Steady w d W a checked s →
    Steady w d W a checked s'

theorem Leads.refl (s : Supervisor) : Leads w d W a s s := ⟨Advances.refl s, fun _ h => h⟩

theorem Leads.trans (h : Leads w d W a s s') (h' : Leads w d W a s' s'') : Leads w d W a s s'' where
  advances := h.advances.trans h'.advances
  steady := fun hharmless hs =>
    h'.steady hharmless (h.steady (hharmless.mono h'.advances.polls) hs)

/-- Before the first status, everything is steady. -/
theorem steady_self (hknown : s.Known) (hsent : SentAfterDeadline s.queue)
    (hwaits : ∀ c, W c → ∀ x ∈ s.queue.store.pending, x.2.WaitsAt c) :
    Steady w s.networkDifficulty W s.polls False s where
  known := hknown
  begun := le_rfl
  waits := hwaits
  sent := hsent
  quiet := fun _ => ⟨rfl, False.elim⟩
  harmless := fun h => absurd quietBetween_self h

theorem Steady.check (h : Steady w d W a checked s) (hpast : Past w s) :
    Steady w d W a True s where
  known := h.known
  begun := h.begun
  waits := h.waits
  sent := h.sent
  quiet := fun hquiet => ⟨(h.quiet hquiet).1, fun _ => hpast⟩
  harmless := h.harmless

theorem Steady.uncheck (h : Steady w d W a True s) : Steady w d W a checked s where
  known := h.known
  begun := h.begun
  waits := h.waits
  sent := h.sent
  quiet := fun hquiet => ⟨(h.quiet hquiet).1, fun _ => (h.quiet hquiet).2 trivial⟩
  harmless := h.harmless

/-- What reads no status and changes neither the difficulty nor the deadline. -/
theorem leads_of_frame (hadvances : s.Advances s') (hpolls : s'.polls = s.polls)
    (hdefer : s'.deferSubmitUntil = s.deferSubmitUntil)
    (hdifficulty : s'.networkDifficulty = s.networkDifficulty)
    (hmining : s'.miningDifficulty = s.miningDifficulty) (hsent : s'.queue.sent = s.queue.sent)
    (hwaits : ∀ c, W c → (∀ x ∈ s.queue.store.pending, x.2.WaitsAt c) →
      ∀ x ∈ s'.queue.store.pending, x.2.WaitsAt c) : Leads w d W a s s' where
  advances := hadvances
  steady := by
    intro checked _ h
    refine ⟨hadvances.known h.known, hpolls ▸ h.begun, fun c hc => hwaits c hc (h.waits c hc), ?_,
      fun hquiet => ?_, fun hquiet => ?_⟩
    · unfold SentAfterDeadline
      rw [hsent]
      exact h.sent
    · rw [hpolls] at hquiet
      obtain ⟨hd, hpast⟩ := h.quiet hquiet
      refine ⟨hdifficulty.trans hd, fun hchecked => ?_⟩
      unfold Past at hpast ⊢
      rw [hdefer]
      exact (hpast hchecked).trans (w.now_mono hadvances.clock)
    · rw [hpolls] at hquiet
      rw [hmining]
      exact h.harmless hquiet

theorem leads_tick : Leads w d W a s s.tick :=
  leads_of_frame advances_tick rfl rfl rfl rfl rfl fun _ _ h => h

theorem leads_syncPending : Leads w d W a s s.syncPending :=
  leads_of_frame advances_syncPending rfl rfl rfl rfl rfl fun _ _ h => h

theorem leads_minute : Leads w d W a s { s with minutes := s.minutes + 1 } :=
  leads_of_frame ⟨rfl, le_rfl, le_rfl, id⟩ rfl rfl rfl rfl rfl fun _ _ h => h

/-! ### Statuses, flushes and refreshes -/

theorem leads_notedDifficulty : Leads w d W a s (s.notedDifficulty w) where
  advances := advances_notedDifficulty
  steady := by
    intro checked hharmless h
    have hknown := (advances_notedDifficulty (w := w)).known h.known
    rw [notedDifficulty_polls] at hharmless
    have hsucc := quietBetween_succ (w := w) (d := d) h.begun
    rcases notedDifficulty_cases (w := w) h.known with
      ⟨heq, hsame⟩ | ⟨raw, hpoll, hpos, hnew, heq⟩
    · rw [heq] at hknown ⊢
      refine ⟨hknown, h.begun.trans (Nat.le_succ _), h.waits, h.sent, fun hquiet => ?_,
        fun hquiet => ?_⟩
      · exact h.quiet (hsucc.mp hquiet).1
      · refine h.harmless fun hbefore => hquiet (hsucc.mpr ⟨hbefore, fun raw hraw hpos => ?_⟩)
        rw [← (h.quiet hbefore).1]
        exact hsame raw hraw hpos
    · -- A new difficulty ends the quiet, so it has to be harmless.
      have hloud : ¬ QuietBetween w d a (s.polls + 1) := by
        intro hquiet
        obtain ⟨hbefore, hlast⟩ := hsucc.mp hquiet
        exact hnew ((h.quiet hbefore).1.trans (hlast raw hpoll hpos))
      rw [heq] at hknown ⊢
      refine ⟨hknown, h.begun.trans (Nat.le_succ _), h.waits, h.sent,
        fun hquiet => absurd hquiet hloud, fun _ => ?_⟩
      rw [miningDifficulty_storeDifficulty hpos]
      exact (hharmless s.polls h.begun (Nat.lt_succ_self _) raw hpoll hpos).resolve_left hloud

theorem leads_noteStatus : Leads w d W a s (s.noteStatus w).1 := by
  rw [noteStatus_eq]
  exact leads_notedDifficulty.trans
    (leads_of_frame ⟨rfl, le_rfl, le_rfl, id⟩ rfl rfl rfl rfl rfl fun _ _ h => h)

/-- What a flush sends carries the time of its row and the deadline of the flush. -/
theorem sentAfterDeadline_flush {settings : Settings} {q : QueueFlusher} {env : FlushEnv}
    {onShutdown : Bool} (henv : ∀ rowId, env.deferUntil ≤ env.time rowId)
    (h : SentAfterDeadline q) :
    SentAfterDeadline (QueueFlusher.flush A settings q env onShutdown).1 := by
  refine QueueFlusher.flush_induction (P := fun _ sent _ => ∀ x ∈ sent, x.deferUntil ≤ x.time) q h ?_
  intro _ sent _ rowId row _ o _ _ hsent heffect x hx
  rcases List.mem_append.mp hx with hx | hx
  · exact hsent x hx
  · rcases heffect.sent with hnone | hsome
    · rw [hnone] at hx
      cases hx
    · rw [hsome, Option.toList_some, List.mem_singleton] at hx
      rw [hx]
      exact henv rowId

theorem steady_flush {onShutdown : Bool} (h : Steady w d W a True s) :
    Steady w d W a True (s.flush w A onShutdown).1 where
  known := advances_flush.known h.known
  begun := h.begun
  waits := by
    intro c hc x hx
    obtain ⟨y, hy, -, hblock⟩ := QueueFlusher.pending_flush hx
    unfold PendingRow.WaitsAt
    rw [hblock.blockMemoryCost]
    exact h.waits c hc y hy
  sent := by
    by_cases hquiet : QuietBetween w d a s.polls
    · have hpast := (h.quiet hquiet).2 trivial
      exact sentAfterDeadline_flush (fun _ => hpast.trans (w.now_mono (Nat.le_add_right _ _)))
        h.sent
    · -- All pending blocks wait, and nothing is sent.
      have hsame : (QueueFlusher.flush A s.settings s.queue (s.flushEnv w) onShutdown).1.sent =
          s.queue.sent := QueueFlusher.flush_sent_of_waitsAt (h.waits _ (h.harmless hquiet))
      intro x hx
      refine h.sent x ?_
      rw [← hsame]
      exact hx
  quiet := by
    intro hquiet
    obtain ⟨hd, hpast⟩ := h.quiet hquiet
    exact ⟨hd, fun _ => (hpast trivial).trans (w.now_mono (Nat.le_add_right _ _))⟩
  harmless := h.harmless

theorem leads_tryFlushWith {f : Supervisor → Supervisor × Bool}
    (hf : ∀ s : Supervisor, Leads w d W a s (f s).1) (s : Supervisor) :
    Leads w d W a s (s.tryFlushWith w A f).1 where
  advances := advances_tryFlushWith (fun s => (hf s).advances) s
  steady := by
    intro checked hharmless h
    unfold tryFlushWith at hharmless ⊢
    split_ifs at hharmless ⊢ with hnone hdeferred
    · exact h
    · exact leads_tick.steady hharmless h
    · have hchecked := h.check (past_of_not_inDifficultyTransition hdeferred)
      dsimp only at hharmless ⊢
      split_ifs at hharmless ⊢ with hdown
      · exact ((leads_tick.trans (hf s.tick)).steady hharmless hchecked).uncheck
      · have hrefreshed := (leads_tick.trans (hf s.tick)).steady hharmless hchecked
        exact (leads_syncPending.steady hharmless (steady_flush hrefreshed)).uncheck

theorem leads_refreshNetwork (depth : ℕ) (s : Supervisor) :
    Leads w d W a s (refreshNetwork w A depth s).1 := by
  induction depth generalizing s with
  | zero =>
    rw [refreshNetwork]
    dsimp only
    split_ifs
    · exact leads_noteStatus
    · exact leads_noteStatus
  | succ depth ih =>
    rw [refreshNetwork]
    dsimp only
    split_ifs
    · exact leads_noteStatus.trans (leads_tryFlushWith ih _)
    · exact leads_noteStatus

theorem leads_refresh (s : Supervisor) : Leads w d W a s (s.refresh w A).1 :=
  leads_refreshNetwork 1 s

theorem leads_tryFlushPendingQueue (s : Supervisor) :
    Leads w d W a s (s.tryFlushPendingQueue w A).1 := leads_tryFlushWith leads_refresh s

/-- A refresh of its own may find a new difficulty: the flush on recovery looks for the transition
afterwards. -/
theorem sentAfterDeadline_refresh (hknown : s.Known)
    (hharmless : Harmless w (s.notedDifficulty w).networkDifficulty
      (fun c => ∀ x ∈ s.queue.store.pending, x.2.WaitsAt c) (s.polls + 1) (s.refresh w A).1.polls)
    (h : SentAfterDeadline s.queue) : SentAfterDeadline (s.refresh w A).1.queue := by
  have hqueue : (s.noteStatus w).1.queue = s.queue := noteStatus_queue
  have hsteady := steady_self (w := w)
    (W := fun c => ∀ x ∈ s.queue.store.pending, x.2.WaitsAt c)
    ((advances_noteStatus (w := w)).known hknown) (hqueue.symm ▸ h) fun _ hc => by rwa [hqueue]
  rw [noteStatus_polls, noteStatus_networkDifficulty] at hsteady
  unfold refresh at hharmless ⊢
  rw [refreshNetwork] at hharmless ⊢
  dsimp only at hharmless ⊢
  split_ifs at hharmless ⊢
  · exact ((leads_tryFlushWith (leads_refreshNetwork 0) _).steady hharmless hsteady).sent
  · exact hsteady.sent

theorem leads_noteWindow {inWindow : Bool} {pendingXuni : ℕ} {now queueFlush xuniFlush : ℚ} :
    Leads w d W a s (s.noteWindow w A inWindow pendingXuni now queueFlush xuniFlush).1 := by
  have hflag : ∀ flag, Leads w d W a s { s with wasInXuniWindow := flag } := fun _ =>
    leads_of_frame ⟨rfl, le_rfl, le_rfl, id⟩ rfl rfl rfl rfl rfl fun _ _ h => h
  unfold noteWindow
  split_ifs
  · exact (hflag true).trans (leads_tryFlushPendingQueue _)
  · exact hflag true
  · exact hflag false
  · exact Leads.refl s

theorem leads_servicePendingQueue {now queueFlush xuniFlush interval : ℚ} {aggressive : Bool} :
    Leads w d W a s
      (s.servicePendingQueue w A now queueFlush xuniFlush interval aggressive).1 := by
  unfold servicePendingQueue
  dsimp only
  generalize hnoted : noteWindow w A { s with minutes := s.minutes + 1 } _ _ now queueFlush
    xuniFlush = noted
  have hwindow : Leads w d W a s noted.1 := by
    rw [← hnoted]
    exact leads_minute.trans leads_noteWindow
  generalize (if aggressive = true then (5 : ℚ) else 30) = flushInterval
  split_ifs
  · exact hwindow.trans (leads_tryFlushPendingQueue _)
  · exact hwindow.trans (leads_tryFlushPendingQueue _)
  · exact hwindow

/-! ### A hit -/

/-- No difficulty is harmless for a hit that is sent. -/
def NoCost (_ : ℤ) : Prop := False

theorem Steady.past (h : Steady w d NoCost a True s) : Past w s :=
  (h.quiet (not_not.mp h.harmless)).2 trivial

/-- Without harmless difficulties, the queue may change. -/
theorem leads_withQueue {queue : QueueFlusher} (hsent : queue.sent = s.queue.sent) :
    Leads w d NoCost a s (s.withQueue queue) :=
  leads_of_frame advances_withQueue rfl rfl rfl rfl hsent fun _ hc => hc.elim

theorem leads_queueHit {hit : BlockHit} {kind reason : String} :
    Leads w d NoCost a s (s.queueHit w hit kind reason) := by
  rw [queueHit_eq]
  exact leads_withQueue rfl

theorem steady_submitLive {hit : BlockHit} {kind : String} (h : Steady w d NoCost a True s) :
    Steady w d NoCost a True (s.submitLive w hit kind) := by
  have hsend : Steady w d NoCost a True (s.sendLive w hit).1 := by
    refine ⟨h.known, h.begun, fun _ hc => hc.elim, ?_, fun hquiet => ⟨(h.quiet hquiet).1, fun _ =>
      h.past.trans (w.now_mono (Nat.le_succ _))⟩, h.harmless⟩
    intro x hx
    rcases List.mem_append.mp hx with hx | hx
    · exact h.sent x hx
    · rw [List.mem_singleton.mp hx]
      exact h.past
  have hharmless : Harmless w d NoCost a (s.sendLive w hit).1.polls := by
    intro n hn hn' raw hraw hpos
    exact Or.inl ((not_not.mp hsend.harmless).mono hn')
  rw [submitLive_eq]
  exact (leads_withQueue submitLive_sent).steady hharmless hsend

theorem submitLive_polls {hit : BlockHit} {kind : String} :
    (s.submitLive w hit kind).polls = s.polls := by
  rw [submitLive_eq]
  rfl

theorem steady_placeHit {hit : BlockHit} {kind : String}
    (hharmless : Harmless w d NoCost a (s.placeHit w A hit kind).polls)
    (h : Steady w d NoCost a True s) : Steady w d NoCost a True (s.placeHit w A hit kind) := by
  unfold placeHit at hharmless ⊢
  dsimp only at hharmless ⊢
  split_ifs at hharmless ⊢
  · exact (leads_minute.trans leads_queueHit).steady hharmless h
  · exact (leads_minute.trans leads_queueHit).steady hharmless h
  · exact (leads_minute.trans leads_queueHit).steady hharmless h
  · exact ((leads_minute.trans (leads_refresh _)).trans leads_queueHit).steady hharmless h
  · -- The refresh was quiet, so the transition is still over when the hit is sent.
    rw [submitLive_polls] at hharmless
    exact steady_submitLive ((leads_minute.trans (leads_refresh _)).steady hharmless h)

theorem leads_noteFound {kind : String} : Leads w d NoCost a s (s.noteFound kind) :=
  leads_of_frame ⟨rfl, Nat.le_succ _, le_rfl, id⟩ rfl rfl rfl rfl rfl fun _ hc => hc.elim

theorem steady_handleHit {hit : BlockHit}
    (hharmless : Harmless w d NoCost a (s.handleHit w A hit).polls)
    (h : Steady w d NoCost a checked s) : Steady w d NoCost a checked (s.handleHit w A hit) := by
  unfold handleHit at hharmless ⊢
  dsimp only at hharmless ⊢
  split_ifs at hharmless ⊢ with hdeferred
  · exact (leads_noteFound.trans leads_queueHit).steady hharmless h
  have hchecked := h.check (past_of_not_inDifficultyTransition hdeferred)
  cases hprepared : (s.noteFound (hitKind (s.attachHitMemoryCost hit))).prepareLiveHit A
      (s.attachHitMemoryCost hit) with
  | none =>
    rw [hprepared] at hharmless
    exact leads_noteFound.steady hharmless h
  | some prepared =>
    rw [hprepared] at hharmless
    dsimp only at hharmless ⊢
    have hfound := leads_noteFound.steady
      (hharmless.mono (advances_placeHit (w := w) (A := A)).polls) hchecked
    exact (steady_placeHit hharmless hfound).uncheck

/-! ### A new process -/

/-- A new process knows a difficulty, and begins no transition. -/
theorem connect_spec (hnone : s.networkDifficulty = none) :
    (s.connect w).Known ∧ (s.connect w).deferSubmitUntil = s.deferSubmitUntil := by
  have hfallback : ∀ raw, PyNum.optOrInt
      (some (acceptNetworkDifficulty raw (PyNum.optOrInt none s.settings.memoryCost)))
        s.settings.memoryCost =
      acceptNetworkDifficulty raw (PyNum.optOrInt none s.settings.memoryCost) :=
    optOrInt_acceptNetworkDifficulty none s.settings.memoryCost
  unfold connect
  cases w.poll s.polls with
  | none =>
    exact ⟨⟨s.settings.memoryCost, rfl, ite_self _, setDifficulty_setDifficulty _ _⟩, rfl⟩
  | some raw =>
    have happlied : ({ s with polls := s.polls + 1 } : Supervisor).applyNetworkDifficulty w raw =
        ({ s with polls := s.polls + 1 },
          acceptNetworkDifficulty raw (PyNum.optOrInt none s.settings.memoryCost)) := by
      unfold applyNetworkDifficulty
      rw [hnone]
      exact ite_self _
    dsimp only
    rw [happlied]
    exact ⟨⟨_, rfl, hfallback raw, setDifficulty_setDifficulty _ _⟩, rfl⟩

theorem past_of_deferSubmitUntil_eq_zero (h : s.deferSubmitUntil = 0) : Past w s := by
  unfold Past
  rw [h]
  exact w.now_nonneg s.clock

theorem steady_resumeQueuedBlocks (h : Steady w d NoCost a True s) :
    Steady w d NoCost a True (s.resumeQueuedBlocks w A) := by
  have hharmless : Harmless w d NoCost a s.polls :=
    fun n _ hn _ _ _ => Or.inl ((not_not.mp h.harmless).mono hn)
  have hminute := leads_minute.steady hharmless h
  unfold resumeQueuedBlocks
  dsimp only
  generalize (if (s.queue.store.pendingByType none).xuni ≠ 0 ∧
    Policy.inXuniWindow (w.minute s.minutes) = false then _ else 0) = xuniWaiting
  split_ifs
  · exact hminute
  · exact hminute
  · exact leads_syncPending.steady hharmless (steady_flush hminute)
  · exact hminute

theorem start_spec (h : SentAfterDeadline s.queue) :
    (s.start w A).Known ∧ SentAfterDeadline (s.start w A).queue := by
  have hconnect : ∀ {s' c : Supervisor}, s'.connect w = c → s'.networkDifficulty = none →
      s'.deferSubmitUntil = 0 → s'.queue.sent = s.queue.sent →
      Steady w c.networkDifficulty NoCost c.polls True c := by
    rintro s' _ rfl hnone hzero hqueue
    obtain ⟨hknown, hdefer⟩ := connect_spec (w := w) hnone
    refine (steady_self hknown ?_ fun _ hc => hc.elim).check
      (past_of_deferSubmitUntil_eq_zero (hdefer.trans hzero))
    unfold SentAfterDeadline
    rw [connect_queue, hqueue]
    exact h
  unfold start
  dsimp only
  generalize hc : connect w _ = c
  have hresume := steady_resumeQueuedBlocks (A := A) (hconnect hc rfl rfl rfl)
  generalize resumeQueuedBlocks w A c = r at hresume
  exact ⟨hresume.known, hresume.sent⟩

/-! ### Runs -/

/-- The difficulty in force when a step looks for a transition. -/
def checkedDifficulty (w : World) (s : Supervisor) : Op → Option ℤ
  | .refresh => (s.notedDifficulty w).networkDifficulty
  | _ => s.networkDifficulty

/-- The first status that a step reads after it looked for a transition; a refresh looks for it
before the flush on recovery. -/
def firstUnchecked (s : Supervisor) : Op → ℕ
  | .refresh => s.polls + 1
  | _ => s.polls

/-- The difficulties at which a step would send nothing: those all pending blocks wait out, unless
there is a hit to send. -/
def waitedOut (s : Supervisor) : Op → ℤ → Prop
  | .hit _, _ => False
  | _, c => ∀ x ∈ s.queue.store.pending, x.2.WaitsAt c

/-- No status that a step reads after it looked for a transition brings a new difficulty, or none
at which something would be sent.  A start reads its status before there is a difficulty to
change. -/
def NoLateChange (w : World) (A : Argon2) (s : Supervisor) (op : Op) : Prop :=
  op = .start ∨
    Harmless w (s.checkedDifficulty w op) (s.waitedOut op) (s.firstUnchecked op)
      (s.step w A op).polls

/-- **Step lemma.** -/
theorem step_sentAfterDeadline {op : Op} (hop : op ≠ .shutdown) (hok : NoLateChange w A s op)
    (h : s.Known ∧ SentAfterDeadline s.queue) :
    (s.step w A op).Known ∧ SentAfterDeadline (s.step w A op).queue := by
  obtain ⟨hknown, hsent⟩ := h
  rcases hok with rfl | hharmless
  · exact start_spec hsent
  cases op with
  | start => exact start_spec hsent
  | hit hit =>
    have hsteady := steady_handleHit hharmless (steady_self hknown hsent fun _ hc => hc.elim)
    exact ⟨hsteady.known, hsteady.sent⟩
  | refresh =>
    exact ⟨(advances_refresh s).known hknown, sentAfterDeadline_refresh hknown hharmless hsent⟩
  | tryFlush =>
    have hsteady := (leads_tryFlushPendingQueue s).steady hharmless
      (steady_self hknown hsent fun _ hc => hc)
    exact ⟨hsteady.known, hsteady.sent⟩
  | service now queueFlush xuniFlush interval aggressive =>
    have hsteady := leads_servicePendingQueue.steady hharmless
      (steady_self hknown hsent fun _ hc => hc)
    exact ⟨hsteady.known, hsteady.sent⟩
  | shutdown => exact absurd rfl hop

/-- **Nothing is sent while a difficulty change settles**, in every run before the shutdown in which
no status that is read after the check brings a new difficulty. -/
theorem sent_after_deadline (w : World) (A : Argon2) (settings : Settings) (workers : ℤ)
    (isCudaNative : Bool) (store : BlockStore) (ops : List Op) (hops : ∀ op ∈ ops, op ≠ .shutdown)
    (hrun : Run.Meets (step w A) (NoLateChange w A)
      ((create settings workers isCudaNative store).start w A) ops) :
    SentAfterDeadline (Run.final (step w A)
      ((create settings workers isCudaNative store).start w A) ops).queue := by
  have hstart : SentAfterDeadline (create settings workers isCudaNative store).queue :=
    fun x hx => (List.not_mem_nil hx).elim
  exact (((Run.Meets.of_mem hops).and hrun).invariant
    (I := fun s => s.Known ∧ SentAfterDeadline s.queue)
    (fun s op h hok => step_sentAfterDeadline hok.1 hok.2 h) (start_spec hstart)).2

/-- The run in which a block mined at memory cost 100 is found. -/
def sampleRun (w : World) : Supervisor :=
  Run.final (step w sampleArgon2) ((create {} 1 true .empty).start w sampleArgon2) [.hit sampleBlock]

/-- A step that reads one difficulty only, the one it has when it looks for a transition. -/
theorem noLateChange_of_constant {op : Op} {raw : ℤ}
    (hpoll : ∀ n, s.firstUnchecked op ≤ n → w.poll n = some raw)
    (hchecked : s.checkedDifficulty w op = some raw) : NoLateChange w A s op := by
  refine Or.inr fun n _ _ _ _ _ => Or.inl fun k hk _ raw' hraw' _ => ?_
  rw [hpoll k hk] at hraw'
  exact hchecked.trans hraw'

/-- A refresh notices that the difficulty fell to 100, and the block that is found meanwhile is queued.
The flushes before the deadline send nothing; the next one sends the block. -/
theorem sent_after_deadline_settled :
    let w := sampleWorld (fun n => if n = 0 then some 200 else some 100) ⟨200, "ok"⟩
    let s := Run.final (step w sampleArgon2) ((create {} 1 true .empty).start w sampleArgon2)
      [.refresh, .hit sampleBlock, .tryFlush, .tryFlush, .tryFlush, .tryFlush]
    SentAfterDeadline s.queue ∧ s.deferSubmitUntil = 5 ∧ s.queue.sent.map Sent.time = [7] := by
  intro w s
  have hquiet : ∀ {s : Supervisor} {op : Op}, 1 ≤ s.firstUnchecked op →
      s.checkedDifficulty w op = some 100 → NoLateChange w sampleArgon2 s op := by
    intro s op hlater hchecked
    refine noLateChange_of_constant (fun n hn => ?_) hchecked
    exact if_neg (Nat.pos_iff_ne_zero.mp (hlater.trans hn))
  refine ⟨sent_after_deadline w sampleArgon2 {} 1 true .empty _ (by simp) ?_, by decide +kernel,
    by decide +kernel⟩
  refine ⟨hquiet ?_ ?_, hquiet ?_ ?_, hquiet ?_ ?_, hquiet ?_ ?_, hquiet ?_ ?_, hquiet ?_ ?_, trivial⟩ <;>
    decide +kernel

/-- When the status read while the block is handled brings difficulty 200, the block is sent in the
transition. -/
theorem sent_in_transition :
    ¬ SentAfterDeadline (sampleRun (sampleWorld (fun n => if n = 0 then some 100 else some 200)
      ⟨200, "ok"⟩)).queue := by
  unfold SentAfterDeadline
  decide +kernel

end Supervisor

end XenMiner
