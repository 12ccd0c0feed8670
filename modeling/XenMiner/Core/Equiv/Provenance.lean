import XenMiner.Core.Equiv.Supervisor
import XenMiner.Lib.Run
import XenMiner.Networking.Equiv.Poller

/-!
# Where the mining difficulty comes from

The supervisor reads the difficulty off the poller, and once, at its end, off a fetch of its own
(`World.polling`).  Whatever it does, it mines and checks hits with a difficulty that the server
answered, or with the configured memory cost (`miningDifficulty_run`).
-/

namespace XenMiner

open Argon2Common (Argon2)
open Difficulty (ScanLimit Web candidateUrls fetchDifficulty readDifficulty)
open NetworkPoller (Loop Turn)

namespace Supervisor

variable {w : World} {A : Argon2} {P : ℤ → Prop} {s s' : Supervisor}

/-! ### Difficulties with a source -/

/-- All difficulties the supervisor may work with satisfy `P`. -/
structure Sourced (P : ℤ → Prop) (s : Supervisor) : Prop where
  fallback : P s.settings.memoryCost
  known : ∀ d ∈ s.networkDifficulty, P d
  backend : ∀ d, s.backend = .cuda d → P d

/-- The statuses bring valid difficulties that satisfy `P`, and so are those a backend makes of such
ones. -/
structure Source (w : World) (P : ℤ → Prop) : Prop where
  polled : ∀ n, ∀ raw ∈ w.poll n, 0 < raw ∧ P raw
  raised : ∀ d, P d → P (max 1 d)

theorem Sourced.of_eq (h : Sourced P s) (hsettings : s'.settings = s.settings)
    (hknown : s'.networkDifficulty = s.networkDifficulty) (hbackend : s'.backend = s.backend) :
    Sourced P s' := by
  refine ⟨?_, ?_, ?_⟩
  · rw [hsettings]
    exact h.fallback
  · rw [hknown]
    exact h.known
  · rw [hbackend]
    exact h.backend

theorem Sourced.withQueue (h : Sourced P s) (queue : QueueFlusher) : Sourced P (s.withQueue queue) :=
  h.of_eq rfl rfl rfl

theorem Sourced.queueHit (h : Sourced P s) {hit : BlockHit} {kind reason : String} :
    Sourced P (s.queueHit w hit kind reason) := by
  rw [queueHit_eq]
  exact h.withQueue _

theorem Sourced.submitLive (h : Sourced P s) {hit : BlockHit} {kind : String} :
    Sourced P (s.submitLive w hit kind) := by
  have hsent : Sourced P (s.sendLive w hit).1 := h.of_eq rfl rfl rfl
  rw [submitLive_eq]
  exact hsent.withQueue _

theorem Sourced.flush (h : Sourced P s) {onShutdown : Bool} :
    Sourced P (s.flush w A onShutdown).1.syncPending := h.of_eq rfl rfl rfl

theorem Sourced.tryFlushWith {f : Supervisor → Supervisor × Bool}
    (h : Sourced P s) (hf : ∀ s : Supervisor, Sourced P s → Sourced P (f s).1) :
    Sourced P (s.tryFlushWith w A f).1 := by
  have htick : Sourced P s.tick := h.of_eq rfl rfl rfl
  unfold Supervisor.tryFlushWith
  split_ifs
  · exact h
  · exact htick
  · dsimp only
    split_ifs
    · exact hf _ htick
    · exact (hf _ htick).flush

theorem Sourced.miningDifficulty (h : Sourced P s) : P s.miningDifficulty := by
  unfold Supervisor.miningDifficulty
  cases hbackend : s.backend with
  | cuda d => exact h.backend d hbackend
  | other =>
    cases hknown : s.networkDifficulty with
    | none => exact h.fallback
    | some d =>
      show P (if d = 0 then s.settings.memoryCost else d)
      split_ifs
      · exact h.fallback
      · exact h.known d hknown

variable (hw : Source w P)

include hw

theorem Source.storeDifficulty (h : Sourced P s) {d : ℤ} (hd : P d) :
    Sourced P (s.storeDifficulty d) where
  fallback := h.fallback
  known := by
    intro d' hd'
    obtain rfl := Option.some.inj hd'
    exact hd
  backend := by
    intro d' hd'
    unfold Supervisor.storeDifficulty at hd'
    cases hbackend : s.backend with
    | cuda old =>
      rw [hbackend] at hd'
      obtain rfl := MinerBackend.cuda.inj hd'
      exact hw.raised d hd
    | other =>
      rw [hbackend] at hd'
      cases hd'

/-- A valid difficulty, as it is applied and stored. -/
theorem Source.applied (h : Sourced P s) {raw : ℤ} (hraw : 0 < raw) (hP : P raw) :
    Sourced P ((s.applyNetworkDifficulty w raw).1.storeDifficulty
      (s.applyNetworkDifficulty w raw).2) := by
  rw [applyNetworkDifficulty_snd, acceptNetworkDifficulty_of_pos hraw]
  rcases applyNetworkDifficulty_fst (w := w) s raw with heq | heq
  · rw [heq]
    exact hw.storeDifficulty h hP
  · have hbegun : Sourced P (s.beginDifficultyTransition w) := h.of_eq rfl rfl rfl
    rw [heq]
    exact hw.storeDifficulty hbegun hP

theorem Source.noteStatus (h : Sourced P s) : Sourced P (s.noteStatus w).1 := by
  have hnoted : Sourced P (s.notedDifficulty w) := by
    have hnext : Sourced P { s with polls := s.polls + 1 } := h.of_eq rfl rfl rfl
    unfold notedDifficulty
    cases hpoll : w.poll s.polls with
    | none => exact hnext
    | some raw =>
      dsimp only
      split_ifs
      · obtain ⟨hraw, hP⟩ := hw.polled _ raw hpoll
        exact hw.applied hnext hraw hP
      · exact hnext
  rw [noteStatus_eq]
  exact hnoted.of_eq rfl rfl rfl

/-! ### The steps -/

theorem Source.refreshNetwork (depth : ℕ) (h : Sourced P s) :
    Sourced P (refreshNetwork w A depth s).1 := by
  induction depth generalizing s with
  | zero =>
    rw [Supervisor.refreshNetwork]
    dsimp only
    split_ifs
    · exact hw.noteStatus h
    · exact hw.noteStatus h
  | succ depth ih =>
    rw [Supervisor.refreshNetwork]
    dsimp only
    split_ifs
    · exact (hw.noteStatus h).tryFlushWith fun _ => ih
    · exact hw.noteStatus h

theorem Source.refresh (h : Sourced P s) : Sourced P (s.refresh w A).1 := hw.refreshNetwork 1 h

theorem Source.tryFlushPendingQueue (h : Sourced P s) :
    Sourced P (s.tryFlushPendingQueue w A).1 := h.tryFlushWith fun _ => hw.refresh

theorem Source.servicePendingQueue {now queueFlush xuniFlush interval : ℚ} {aggressive : Bool}
    (h : Sourced P s) :
    Sourced P (s.servicePendingQueue w A now queueFlush xuniFlush interval aggressive).1 := by
  unfold Supervisor.servicePendingQueue
  dsimp only
  generalize hnoted : noteWindow w A { s with minutes := s.minutes + 1 } _ _ now queueFlush
    xuniFlush = noted
  have hwindow : Sourced P noted.1 := by
    rw [← hnoted]
    unfold noteWindow
    split_ifs
    · exact hw.tryFlushPendingQueue (h.of_eq rfl rfl rfl)
    · exact h.of_eq rfl rfl rfl
    · exact h.of_eq rfl rfl rfl
    · exact h.of_eq rfl rfl rfl
  generalize (if aggressive = true then (5 : ℚ) else 30) = flushInterval
  split_ifs
  · exact hw.tryFlushPendingQueue hwindow
  · exact hw.tryFlushPendingQueue hwindow
  · exact hwindow

theorem Source.placeHit {hit : BlockHit} {kind : String} (h : Sourced P s) :
    Sourced P (s.placeHit w A hit kind) := by
  have hminute : Sourced P { s with minutes := s.minutes + 1 } := h.of_eq rfl rfl rfl
  unfold Supervisor.placeHit
  dsimp only
  split_ifs
  · exact hminute.queueHit
  · exact hminute.queueHit
  · exact hminute.queueHit
  · exact (hw.refresh hminute).queueHit
  · exact (hw.refresh hminute).submitLive

theorem Source.handleHit {hit : BlockHit} (h : Sourced P s) : Sourced P (s.handleHit w A hit) := by
  have hfound : ∀ kind, Sourced P (s.noteFound kind) := fun _ => h.of_eq rfl rfl rfl
  unfold Supervisor.handleHit
  dsimp only
  split_ifs
  · exact (hfound _).queueHit
  · split
    · exact hfound _
    · exact hw.placeHit (hfound _)

/-- A new process starts from the configured memory cost. -/
theorem Source.start (h : Sourced P s) : Sourced P (s.start w A) := by
  have hconnect : ∀ {s' c : Supervisor}, s'.connect w = c → Sourced P s' → Sourced P c := by
    rintro s' _ rfl hs'
    have hnext : Sourced P { s' with polls := s'.polls + 1 } := hs'.of_eq rfl rfl rfl
    unfold connect
    cases hpoll : w.poll s'.polls with
    | none => exact (hw.storeDifficulty hnext hnext.fallback).of_eq rfl rfl rfl
    | some raw =>
      obtain ⟨hraw, hP⟩ := hw.polled _ raw hpoll
      exact (hw.applied hnext hraw hP).of_eq rfl rfl rfl
  have hrestart : Sourced P s.restart := by
    refine ⟨h.fallback, nofun, fun d hd => ?_⟩
    unfold restart create at hd
    dsimp only at hd
    split_ifs at hd
    obtain rfl := MinerBackend.cuda.inj hd
    exact h.fallback
  have hresume : ∀ {s' : Supervisor}, Sourced P s' → Sourced P (s'.resumeQueuedBlocks w A) := by
    intro s' hs'
    have hnext : Sourced P { s' with minutes := s'.minutes + 1 } := hs'.of_eq rfl rfl rfl
    unfold resumeQueuedBlocks
    dsimp only
    generalize (if (s'.queue.store.pendingByType none).xuni ≠ 0 ∧
      Policy.inXuniWindow (w.minute s'.minutes) = false then _ else 0) = xuniWaiting
    split_ifs
    · exact hnext
    · exact hnext
    · exact hnext.flush
    · exact hnext
  unfold Supervisor.start
  dsimp only
  generalize hc : connect w _ = c
  have hresumed := hresume (hconnect hc (hrestart.of_eq rfl rfl rfl))
  generalize resumeQueuedBlocks w A c = r at hresumed ⊢
  exact hresumed.of_eq rfl rfl rfl

theorem Source.gracefulShutdown (h : Sourced P s) : Sourced P (s.gracefulShutdown w A) := by
  have hminute : Sourced P { s with shuttingDown := true, minutes := s.minutes + 1 } :=
    h.of_eq rfl rfl rfl
  unfold Supervisor.gracefulShutdown
  split_ifs with hdone
  · exact h
  dsimp only
  generalize (if (s.queue.store.pendingByType none).xuni ≠ 0 ∧
    Policy.inXuniWindow (w.minute s.minutes) = false then _ else 0) = xuniHeld
  generalize hr : (if s.networkOk = true then Supervisor.refresh w A _ else _) = r
  have hrefreshed : Sourced P r.1 := by
    rw [← hr]
    split_ifs
    · exact hw.refresh hminute
    · exact hminute
  split_ifs
  · exact hminute
  · exact hrefreshed.flush
  · exact hrefreshed.of_eq rfl rfl rfl

theorem Source.step (h : Sourced P s) (op : Op) : Sourced P (s.step w A op) := by
  cases op with
  | start => exact hw.start h
  | hit hit => exact hw.handleHit h
  | refresh => exact hw.refresh h
  | tryFlush => exact hw.tryFlushPendingQueue h
  | service => exact hw.servicePendingQueue h
  | shutdown => exact hw.gracefulShutdown h

omit hw

/-! ### The poller as a source -/

variable (isAlnum : Char → Bool) (limit : List Char → Option ScanLimit) (texts : Difficulty.PyTexts)

/-- What a refresh reads: the poller's status between two turns of its loop, or a fetch of its own. -/
inductive Reading
  | status (turns : ℕ)
  | fetch (web : Web)

def Reading.difficulty (l : Loop) (turns : List Turn) : Reading → Option ℤ
  | .status n => (l.run isAlnum limit texts (turns.take n)).poller.status.difficulty
  | .fetch web => (fetchDifficulty isAlnum limit texts web l.poller.url).difficulty

end Supervisor

/-- The supervisor reads its difficulties off a poller. -/
def World.polling (w : World) (isAlnum : Char → Bool) (limit : List Char → Option ScanLimit)
    (texts : Difficulty.PyTexts) (l : Loop) (turns : List Turn) (reading : ℕ → Supervisor.Reading) :
    World :=
  { w with poll := fun n => (reading n).difficulty isAlnum limit texts l turns }

namespace Supervisor

/-- Some candidate for the URL answered the difficulty `d` in a turn or in a fetch. -/
def CandidateAnswered (isAlnum : Char → Bool) (limit : List Char → Option ScanLimit) (url : Text)
    (turns : List Turn) (reading : ℕ → Reading) (d : ℤ) : Prop :=
  ∃ web, ((∃ t ∈ turns, t.web = web) ∨ ∃ n, reading n = .fetch web) ∧
    ∃ c ∈ candidateUrls url, readDifficulty isAlnum limit (web.answer c) = some d

variable {isAlnum limit texts} {url : Text} {p : NetworkPoller} {now : ℚ} {turns : List Turn}

theorem exists_candidate {web : Web} {d : ℤ}
    (h : (fetchDifficulty isAlnum limit texts web url).difficulty = some d) :
    ∃ c ∈ candidateUrls url, readDifficulty isAlnum limit (web.answer c) = some d := by
  obtain ⟨before, c, after, hsplit, hread, -⟩ :=
    ((Difficulty.fetchDifficulty_spec isAlnum limit texts web url).1 d).mp h
  exact ⟨c, by simp [hsplit], hread⟩

/-- Every difficulty that is read was answered. -/
theorem answered_of_reading {reading : ℕ → Reading} (hstatus : p.status = NetworkPoller.starting)
    {n : ℕ} {d : ℤ}
    (h : (reading n).difficulty isAlnum limit texts { poller := p, now := now } turns = some d) :
    CandidateAnswered isAlnum limit p.url turns reading d := by
  cases hreading : reading n with
  | status k =>
    rw [hreading] at h
    unfold Reading.difficulty at h
    dsimp only at h
    rw [NetworkPoller.status_run] at h
    cases hlast : (turns.take k).getLast? with
    | none =>
      rw [hlast, hstatus] at h
      cases h
    | some t =>
      rw [hlast] at h
      have ht : t ∈ turns := List.mem_of_mem_take (List.mem_of_getLast? hlast)
      exact ⟨t.web, Or.inl ⟨t, ht, rfl⟩, exists_candidate h⟩
  | fetch web =>
    rw [hreading] at h
    exact ⟨web, Or.inr ⟨n, hreading⟩, exists_candidate h⟩

theorem pos_of_answered {reading : ℕ → Reading} {d : ℤ}
    (h : CandidateAnswered isAlnum limit url turns reading d) : 0 < d := by
  obtain ⟨_, -, _, -, hread⟩ := h
  exact Difficulty.pos_of_readDifficulty hread

/-- **The difficulties of a session.**  Whatever happens to a supervisor that reads its difficulties off a
poller, no status it reads brings an invalid one, and it mines and checks hits with one that some
candidate answered, or with the configured memory cost. -/
theorem miningDifficulty_run (w : World) (A : Argon2) (isAlnum : Char → Bool)
    (limit : List Char → Option ScanLimit) (texts : Difficulty.PyTexts) (url : Text)
    (pollIntervalS downPollIntervalS timeoutS : ℚ) (initialTimeoutS : Option ℚ) (now : ℚ)
    (turns : List Turn) (reading : ℕ → Reading) (settings : Settings) (workers : ℤ)
    (isCudaNative : Bool) (store : BlockStore) (ops : List Op) :
    let p := (NetworkPoller.create url pollIntervalS downPollIntervalS timeoutS).start initialTimeoutS
    let w' := w.polling isAlnum limit texts { poller := p, now := now } turns reading
    let s := Run.final (Supervisor.step w' A) (create settings workers isCudaNative store) ops
    let configured := fun d => d = settings.memoryCost ∨ d = max 1 settings.memoryCost
    (∀ n, ∀ raw ∈ w'.poll n, 0 < raw) ∧
      (∀ d ∈ s.networkDifficulty, configured d ∨ CandidateAnswered isAlnum limit url turns reading d) ∧
      (configured s.miningDifficulty ∨
        CandidateAnswered isAlnum limit url turns reading s.miningDifficulty) := by
  intro p w' s configured
  have hp : p.status = NetworkPoller.starting ∧ p.url = url := by
    cases initialTimeoutS with
    | none => exact ⟨rfl, rfl⟩
    | some initial => exact ⟨rfl, rfl⟩
  have hanswered : ∀ n, ∀ raw ∈ w'.poll n, CandidateAnswered isAlnum limit url turns reading raw := by
    intro n raw hraw
    rw [← hp.2]
    exact answered_of_reading hp.1 hraw
  have hw : Source w' fun d => configured d ∨ CandidateAnswered isAlnum limit url turns reading d := by
    refine ⟨fun n raw hraw => ⟨pos_of_answered (hanswered n raw hraw), Or.inr (hanswered n raw hraw)⟩, ?_⟩
    rintro d ((rfl | rfl) | hd)
    · exact Or.inl (Or.inr rfl)
    · exact Or.inl (Or.inr (by simp))
    · rw [max_eq_right (pos_of_answered hd)]
      exact Or.inr hd
  have hcreate : Sourced (fun d => configured d ∨ CandidateAnswered isAlnum limit url turns reading d)
      (create settings workers isCudaNative store) := by
    refine ⟨Or.inl (Or.inl rfl), nofun, fun d hd => ?_⟩
    unfold create at hd
    dsimp only at hd
    split_ifs at hd
    obtain rfl := MinerBackend.cuda.inj hd
    exact Or.inl (Or.inl rfl)
  have hrun : Sourced (fun d => configured d ∨ CandidateAnswered isAlnum limit url turns reading d) s :=
    Run.invariant (fun _ op h => hw.step h op) hcreate
  exact ⟨fun n raw hraw => pos_of_answered (hanswered n raw hraw), hrun.known, hrun.miningDifficulty⟩

end Supervisor

end XenMiner
