import XenMiner.BlockQueue.Equiv.Retained
import XenMiner.Core.Equiv.Supervisor
import XenMiner.Core.RaisingSubmit

/-!
# Hits with and without exceptions

`Ends` ties a function that may raise to the one that does not: they agree as long as none of the
submissions in a list raises, and otherwise the exception leaves a supervisor that has nothing of a new
block.  `ends_handleHit` says so of `handle_hit` and the submissions it makes.
-/

namespace XenMiner

open Argon2Common (Argon2)
open QueueFlusher (Fresh)

namespace Supervisor

variable {w : World} {A : Argon2} {raises : ℕ → Bool} {s : Supervisor} {key : String}

/-- Flushes deal with other blocks. -/
theorem keptByFlush_fresh (A : Argon2) (settings : Settings) (key : String) :
    KeptByFlush A settings (Fresh key) where
  metrics := fun _ _ h => h
  flush := fun _ _ _ h => QueueFlusher.fresh_flush h

namespace Raising

/-- `r` ends with `v`, unless one of the submissions in `calls` raises. -/
structure Ends {α : Type} (raises : ℕ → Bool) (key : String) (calls : List ℕ)
    (r : Except Supervisor α) (v : α) : Prop where
  returns : (∀ n ∈ calls, raises n = false) → r = .ok v
  raised : ¬ (∀ n ∈ calls, raises n = false) → ∃ s', r = .error s' ∧ Fresh key s'.queue

namespace Ends

variable {α β : Type} {calls calls' : List ℕ} {r : Except Supervisor α}
  {f : α → Except Supervisor β} {v : α} {v' : β}

theorem ok (v : α) : Ends raises key [] (.ok v) v :=
  ⟨fun _ => rfl, fun h => absurd (fun _ hn => nomatch hn) h⟩

/-- One after the other. -/
theorem bind (h : Ends raises key calls r v) (h' : Ends raises key calls' (f v) v') :
    Ends raises key (calls ++ calls') (r >>= f) v' := by
  constructor
  · intro hquiet
    obtain ⟨hfirst, hsecond⟩ := List.forall_mem_append.mp hquiet
    rw [h.returns hfirst]
    exact h'.returns hsecond
  · intro hraises
    rw [List.forall_mem_append, not_and_or] at hraises
    by_cases hfirst : ∀ n ∈ calls, raises n = false
    · rw [h.returns hfirst]
      exact h'.raised (hraises.resolve_left (not_not_intro hfirst))
    · obtain ⟨s', hr, hfresh⟩ := h.raised hfirst
      exact ⟨s', by rw [hr]; rfl, hfresh⟩

/-- A result that is looked at. -/
theorem map (h : Ends raises key calls r v) (g : α → β) :
    Ends raises key calls (r >>= fun a => .ok (g a)) (g v) := by
  have hbind := h.bind (f := fun a => .ok (g a)) (Ends.ok (g v))
  rwa [List.append_nil] at hbind

end Ends

/-! ### Flushes and refreshes -/

theorem ends_flush (hfresh : Fresh key s.queue) :
    Ends raises key (s.flushCalls w A) (flush w A raises s) (s.flush w A false) := by
  have hcalls : (∀ n ∈ s.flushCalls w A, raises n = false) ↔ ∀ x ∈ s.queue.store.pending,
      submits A s.settings (s.flushEnv w) x = true → raises (s.replies + x.1) = false := by
    unfold flushCalls
    rw [List.forall_mem_map]
    constructor
    · exact fun h x hx hsubmits => h x (List.mem_filter.mpr ⟨hx, hsubmits⟩)
    · exact fun h x hx => h x (List.mem_filter.mp hx).1 (List.mem_filter.mp hx).2
  constructor
  · intro hquiet
    unfold flush
    rw [QueueFlusher.flushOrRaise_eq (hcalls.mp hquiet)]
    rfl
  · intro hraises
    rw [hcalls] at hraises
    push Not at hraises
    obtain ⟨x, hx, hsubmits, hraise⟩ := hraises
    have hnone : (QueueFlusher.flushOrRaise A s.settings s.queue (s.flushEnv w)
        (fun rowId => raises (s.replies + rowId)) false).2 = none :=
      QueueFlusher.flushOrRaise_snd_eq_none ⟨x, hx, hsubmits, Bool.eq_true_of_not_eq_false hraise⟩
    have hnew : Fresh key (QueueFlusher.flushOrRaise A s.settings s.queue (s.flushEnv w)
        (fun rowId => raises (s.replies + rowId)) false).1 := QueueFlusher.fresh_flushOrRaise hfresh
    unfold flush
    generalize QueueFlusher.flushOrRaise A s.settings s.queue (s.flushEnv w)
      (fun rowId => raises (s.replies + rowId)) false = r at hnone hnew
    obtain ⟨queue, count⟩ := r
    obtain rfl : count = none := hnone
    exact ⟨s.flushed queue, rfl, hnew⟩

/-- Inside of a flush on recovery the refresh is a status and no more. -/
theorem refreshNetwork_zero : refreshNetwork w A raises 0 s =
    .ok ((s.noteStatus w).1, (s.noteStatus w).2.1) := by
  unfold refreshNetwork
  dsimp only
  split_ifs <;> rfl

theorem supervisor_refreshNetwork_zero : Supervisor.refreshNetwork w A 0 s =
    ((s.noteStatus w).1, (s.noteStatus w).2.1) := by
  unfold Supervisor.refreshNetwork
  dsimp only
  split_ifs <;> rfl

/-- The submissions of a flush on recovery. -/
theorem ends_tryFlushWith (hfresh : Fresh key s.queue)
    (hpending : s.queue.store.pendingCount none ≠ 0) (hsettled : s.inDifficultyTransition w = false) :
    Ends raises key
      (if (s.tick.noteStatus w).2.1 then (s.tick.noteStatus w).1.flushCalls w A else [])
      (tryFlushWith w A raises s (refreshNetwork w A raises 0))
      (s.tryFlushWith w A (Supervisor.refreshNetwork w A 0)) := by
  have hnew : Fresh key (s.tick.noteStatus w).1.queue := by
    rw [noteStatus_queue]
    exact hfresh
  have hsettled' : ¬ s.inDifficultyTransition w = true := Bool.eq_false_iff.mp hsettled
  unfold tryFlushWith Supervisor.tryFlushWith
  rw [if_neg hpending, if_neg hpending, if_neg hsettled', if_neg hsettled', refreshNetwork_zero,
    supervisor_refreshNetwork_zero]
  generalize s.tick.noteStatus w = r at hnew
  obtain ⟨t, up, wasDown⟩ := r
  cases up with
  | false => exact Ends.ok _
  | true => exact (ends_flush hnew).map fun x => (x.1.syncPending, x.2)

theorem ends_refresh (hfresh : Fresh key s.queue) :
    Ends raises key (s.refreshCalls w A) (refresh w A raises s) (s.refresh w A) := by
  have hnew : Fresh key (s.noteStatus w).1.queue := by
    rw [noteStatus_queue]
    exact hfresh
  unfold refresh refreshNetwork Supervisor.refresh Supervisor.refreshNetwork refreshCalls
  dsimp only
  generalize s.noteStatus w = r at hnew
  obtain ⟨t, up, wasDown⟩ := r
  dsimp only at hnew ⊢
  by_cases hrecover : up = true ∧ wasDown = true ∧ 0 < t.queue.store.pendingCount none
  · have hpending := hrecover.2.2
    rw [if_pos hrecover, if_pos hrecover]
    cases hsettled : t.inDifficultyTransition w with
    | false =>
      have hflush : up = true ∧ wasDown = true ∧ 0 < t.queue.store.pendingCount none ∧ false = false :=
        ⟨hrecover.1, hrecover.2.1, hpending, rfl⟩
      rw [if_pos hflush]
      exact (ends_tryFlushWith hnew hpending.ne' hsettled).map fun x => (x.1, up)
    | true =>
      -- in a transition there is no flush
      have hheld : tryFlushWith w A raises t (refreshNetwork w A raises 0) = .ok (t.tick, 0) := by
        unfold tryFlushWith
        rw [if_neg hpending.ne', if_pos hsettled]
      have hheld' : t.tryFlushWith w A (Supervisor.refreshNetwork w A 0) = (t.tick, 0) := by
        unfold Supervisor.tryFlushWith
        rw [if_neg hpending.ne', if_pos hsettled]
      rw [if_neg (by simp), hheld, hheld']
      exact Ends.ok _
  · rw [if_neg hrecover, if_neg hrecover, if_neg (fun h => hrecover ⟨h.1, h.2.1, h.2.2.1⟩)]
    exact Ends.ok _

/-! ### The hit -/

theorem ends_submitLive {hit : BlockHit} {kind : String} (hfresh : Fresh key s.queue) :
    Ends raises key [s.replies] (submitLive w raises s hit kind) (s.submitLive w hit kind) := by
  unfold submitLive
  constructor
  · intro hquiet
    rw [if_neg (by rw [hquiet s.replies List.mem_cons_self]; exact Bool.false_ne_true)]
  · intro hraises
    have hraise : raises s.replies = true := by
      by_contra hnot
      exact hraises fun n hn => List.mem_singleton.mp hn ▸ eq_false_of_ne_true hnot
    rw [if_pos hraise]
    exact ⟨_, rfl, hfresh⟩

theorem ends_placeHit {hit : BlockHit} {kind : String} (hfresh : Fresh key s.queue) :
    Ends raises key
      (if s.shuttingDown = true ∨
          kind = "XUNI" ∧ Policy.inXuniWindow (w.minute s.minutes) = false then []
        else refreshCalls w A { s with minutes := s.minutes + 1 } ++
          if (Supervisor.refresh w A { s with minutes := s.minutes + 1 }).2 then
            [(Supervisor.refresh w A { s with minutes := s.minutes + 1 }).1.replies] else [])
      (placeHit w A raises s hit kind) (s.placeHit w A hit kind) := by
  have hrefresh : Ends raises key (refreshCalls w A { s with minutes := s.minutes + 1 })
      (refresh w A raises { s with minutes := s.minutes + 1 })
      (Supervisor.refresh w A { s with minutes := s.minutes + 1 }) := ends_refresh hfresh
  have hnew : Fresh key (Supervisor.refresh w A { s with minutes := s.minutes + 1 }).1.queue :=
    refresh_queue (keptByFlush_fresh A s.settings key) hfresh
  unfold placeHit Supervisor.placeHit
  dsimp only
  by_cases hdown : s.shuttingDown = true
  · rw [if_pos hdown, if_pos hdown, if_pos (Or.inl hdown)]
    split_ifs <;> exact Ends.ok _
  rw [if_neg hdown, if_neg hdown]
  by_cases hheld : kind = "XUNI" ∧ Policy.inXuniWindow (w.minute s.minutes) = false
  · rw [if_pos hheld, if_pos hheld, if_pos (Or.inr hheld)]
    exact Ends.ok _
  rw [if_neg hheld, if_neg hheld, if_neg (not_or_intro hdown hheld)]
  refine hrefresh.bind ?_
  generalize Supervisor.refresh w A { s with minutes := s.minutes + 1 } = r at hnew
  obtain ⟨t, up⟩ := r
  cases up with
  | false => exact Ends.ok _
  | true => exact ends_submitLive hnew

/-- `handle_hit` ends as if nothing could raise, unless one of its submissions raises; then it leaves
nothing of a new block. -/
theorem ends_handleHit {hit : BlockHit} (hfresh : Fresh key s.queue) :
    Ends raises key (s.hitCalls w A hit) (handleHit w A raises s hit) (s.handleHit w A hit) := by
  unfold handleHit Supervisor.handleHit hitCalls
  dsimp only
  by_cases hdeferred : s.inDifficultyTransition w = true
  · rw [if_pos hdeferred, if_pos hdeferred, if_pos (Or.inl hdeferred)]
    exact Ends.ok _
  rw [if_neg hdeferred, if_neg hdeferred]
  cases hprepared : (s.noteFound (hitKind (s.attachHitMemoryCost hit))).prepareLiveHit A
      (s.attachHitMemoryCost hit) with
  | none =>
    rw [if_pos (Or.inr (Or.inl rfl))]
    exact Ends.ok _
  | some prepared =>
    simp only [hdeferred, reduceCtorEq, false_or]
    exact ends_placeHit (s := s.noteFound (hitKind (s.attachHitMemoryCost hit))) hfresh

end Raising

end Supervisor

end XenMiner
