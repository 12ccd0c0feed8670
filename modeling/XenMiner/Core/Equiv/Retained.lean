import XenMiner.BlockQueue.Equiv.Retained
import XenMiner.Core.Equiv.RaisingSubmit

/-!
# No genuine block is thrown away

A hit is checked at the difficulty the miner is set to, not at the memory cost it was mined with: the
CPU backend mines at the configured cost and reports none, so its blocks are filtered whenever the
network difficulty is another (`genuine_filtered`).  And `handle_hit` stores the hit behind its
submission only, so a hit is lost where `submit` raises, its own or that of a queued block before it.
`retained_iff` says exactly when a genuine block is retained: it verifies at the cost it is checked at,
or, in a transition, queued for, and the submissions return.
-/

namespace XenMiner

open Argon2Common
open BlockStore SubmitResult
open QueueFlusher (Keeping Retained Fresh)

/-- The hash of the hit occurs in the hash of its key at memory cost `m`, the one the backend mined
with. -/
structure Genuine (A : Argon2) (settings : Settings) (hit : BlockHit) (m : ℤ) : Prop where
  cost_pos : 0 < m
  hash : PyStr.contains hit.hashStr
    (argon2Hash A hit.key settings.saltHex m settings.timeCost 1 settings.hashLen) = true
  cost : hit.memoryCost = none ∨ hit.memoryCost = some m

/-- Neither the mined cost nor a difficulty is zero. -/
theorem Genuine.attached_ne_zero {A : Argon2} {settings : Settings} {hit : BlockHit}
    {m difficulty : ℤ} (h : Genuine A settings hit m) (hpos : 0 < difficulty) :
    hit.memoryCost.getD difficulty ≠ 0 := by
  rcases h.cost with hc | hc
  · rw [hc]
    exact hpos.ne'
  · rw [hc]
    exact h.cost_pos.ne'

namespace Supervisor

variable {w : World} {A : Argon2} {s : Supervisor} {hit prepared : BlockHit} {kind : String} {m : ℤ}

/-- The memory cost a hit gets when it has none is the one the miner is set to. -/
theorem attachHitMemoryCost_eq :
    s.attachHitMemoryCost hit =
      { hit with memoryCost := some (hit.memoryCost.getD s.miningDifficulty) } := by
  obtain ⟨key, hashStr, blockType, attempts, strategy, hps, foundAt, _ | c⟩ := hit
  · unfold attachHitMemoryCost miningDifficulty
    dsimp only
    cases s.backend with
    | cuda => rfl
    | other => rfl
  · rfl

/-- The memory cost at which a hit is checked first: at once, or by the flush it is queued for. -/
def checkedCost (w : World) (s : Supervisor) (hit : BlockHit) : ℤ :=
  if s.inDifficultyTransition w = true then hit.memoryCost.getD s.miningDifficulty
  else s.miningDifficulty

/-! ### Rows of a hit -/

/-- The row of a hit that is queued in a transition. -/
theorem wellHeld_attached_iff {now : ℤ} {reason : String}
    (hcost : hit.memoryCost.getD s.miningDifficulty ≠ 0) :
    WellHeld A s.settings (queueRow now (s.attachHitMemoryCost hit) reason) ↔
      VerifiesAt A hit.key hit.hashStr s.settings.saltHex
        (hit.memoryCost.getD s.miningDifficulty) s.settings.timeCost 1 s.settings.hashLen := by
  rw [attachHitMemoryCost_eq]
  exact wellHeld_iff (PyNum.optOr_of_ne_zero hcost _) hcost

/-- The row of a genuine hit that verified at the difficulty. -/
theorem wellHeld_prepared {now : ℤ} {reason : String} (hgenuine : Genuine A s.settings hit m)
    (hpos : 0 < s.miningDifficulty)
    (hprepared : prepareHitForSubmit A (s.attachHitMemoryCost hit) s.settings.saltHex
      s.miningDifficulty s.settings.timeCost 1 s.settings.hashLen = some prepared) :
    WellHeld A s.settings (queueRow now prepared reason) := by
  have hverified := (prepareHitForSubmit_isSome_iff (A := A)).mp
    (Option.isSome_iff_exists.mpr ⟨prepared, hprepared⟩)
  rw [attachHitMemoryCost_eq] at hverified
  obtain ⟨hkey, ⟨hencoded, hsame⟩ | ⟨-, hnone, hhash⟩⟩ := prepareHitForSubmit_eq_some hprepared
  · -- An encoded hash shows the mined cost or none; either way it verifies at the attached cost.
    have hcost := hgenuine.attached_ne_zero hpos
    rw [attachHitMemoryCost_eq] at hencoded
    rw [hsame, wellHeld_attached_iff hcost]
    rcases hgenuine.cost with hc | hc
    · rw [hc]
      exact hverified
    · rw [hc]
      exact verifiesAt_mined hgenuine.cost_pos.le hgenuine.hash
  · -- A raw hash was replaced by the encoded one, which shows the difficulty.
    have hshown : memoryCostFromHash prepared.hashStr = some s.miningDifficulty := by
      rw [hhash]
      exact memoryCostFromHash_argon2Hash A s.miningDifficulty hpos.le
    have hblock : (queueRow now prepared reason).blockMemoryCost = some s.miningDifficulty := by
      show PyNum.optOr prepared.memoryCost (memoryCostFromHash prepared.hashStr) = _
      rw [hnone, hshown]
      rfl
    refine (wellHeld_iff hblock hpos.ne').mpr ?_
    show VerifiesAt A prepared.key prepared.hashStr s.settings.saltHex s.miningDifficulty
      s.settings.timeCost 1 s.settings.hashLen
    have hwhole : isArgon2Encoded prepared.hashStr = true := by
      rw [hhash]
      exact isArgon2Encoded_argon2Hash A s.miningDifficulty
    unfold VerifiesAt
    rw [if_pos hwhole]
    exact Or.inr hshown

/-! ### The hit is handled -/

theorem keeping_queueHit {reason : String} (hfresh : Fresh hit.key s.queue)
    (hheld : ∀ now, WellHeld A s.settings (queueRow now hit reason)) :
    Keeping A s.settings hit.key (s.queueHit w hit kind reason).queue.store
      (s.queueHit w hit kind reason).queue.sent (s.queueHit w hit kind reason).queue.dropped :=
  QueueFlusher.keeping_enqueue hfresh.1 hfresh.2.1 rfl (hheld (s.stamp w))

/-- A new block is taken, or queued in a row that is held well. -/
theorem keeping_submitLive (hfresh : Fresh hit.key s.queue)
    (hheld : ∀ now reason, WellHeld A s.settings (queueRow now hit reason)) :
    Keeping A s.settings hit.key (s.submitLive w hit kind).queue.store
      (s.submitLive w hit kind).queue.sent (s.submitLive w hit kind).queue.dropped := by
  have hsent : (s.submitLive w hit kind).queue.sent = s.queue.sent ++ [s.liveSent w hit] :=
    submitLive_sent
  rw [hsent, submitLive_dropped]
  by_cases haccepted :
      submitAccepted (w.reply s.replies).status (w.reply s.replies).body = true
  · rw [submitLive_store_of_accepted haccepted]
    refine ⟨hfresh.1, fun x hx hkey => ?_, Or.inr ⟨s.liveSent w hit, by simp, rfl, haccepted⟩⟩
    exact absurd (mem_pendingKeys.mpr ⟨x, hx, hkey⟩) hfresh.2.1
  · rw [submitLive_store_of_refused (eq_false_of_ne_true haccepted), handleRefusal_store]
    split_ifs
    · exact QueueFlusher.keeping_enqueue hfresh.1 hfresh.2.1 rfl (hheld _ _)
    · exact QueueFlusher.keeping_enqueue hfresh.1 hfresh.2.1 rfl (hheld _ _)
    · exact QueueFlusher.keeping_enqueue hfresh.1 hfresh.2.1 rfl (hheld _ _)
    · exact QueueFlusher.keeping_recordRejection hfresh.1 hfresh.2.1 rfl (hheld _ _)

theorem keeping_placeHit (hfresh : Fresh hit.key s.queue)
    (hheld : ∀ now reason, WellHeld A s.settings (queueRow now hit reason)) :
    Keeping A s.settings hit.key (s.placeHit w A hit kind).queue.store
      (s.placeHit w A hit kind).queue.sent (s.placeHit w A hit kind).queue.dropped := by
  have hminute : ∀ reason, Keeping A s.settings hit.key
      (queueHit w { s with minutes := s.minutes + 1 } hit kind reason).queue.store
      (queueHit w { s with minutes := s.minutes + 1 } hit kind reason).queue.sent
      (queueHit w { s with minutes := s.minutes + 1 } hit kind reason).queue.dropped :=
    fun reason => keeping_queueHit hfresh fun now => hheld now reason
  have hrefresh : Fresh hit.key (refresh w A { s with minutes := s.minutes + 1 }).1.queue :=
    refresh_queue (keptByFlush_fresh A s.settings hit.key) hfresh
  have hsettings : (refresh w A { s with minutes := s.minutes + 1 }).1.settings = s.settings :=
    (advances_refresh _).settings
  unfold placeHit
  dsimp only
  generalize refresh w A { s with minutes := s.minutes + 1 } = r at hrefresh hsettings
  rw [← hsettings] at hheld
  split_ifs
  · exact hminute _
  · exact hminute _
  · exact hminute _
  · rw [← hsettings]
    exact keeping_queueHit hrefresh fun now => hheld now _
  · rw [← hsettings]
    exact keeping_submitLive hrefresh hheld

theorem prepareLiveHit_noteFound (hpar : s.settings.parallelism = 1) (hworkers : 1 ≤ s.workers) :
    (s.noteFound kind).prepareLiveHit A hit =
      prepareHitForSubmit A hit s.settings.saltHex s.miningDifficulty s.settings.timeCost 1
        s.settings.hashLen := by
  have hone : Policy.parallelismForSingle s.workers s.settings.parallelism = 1 := by
    rw [hpar]
    exact Policy.parallelismForSingle_one hworkers
  show prepareHitForSubmit A hit s.settings.saltHex s.miningDifficulty s.settings.timeCost
    (Policy.parallelismForSingle s.workers s.settings.parallelism) s.settings.hashLen = _
  rw [hone]

/-- A genuine hit that verifies at the cost it is checked at is kept. -/
theorem keeping_handleHit (hgenuine : Genuine A s.settings hit m)
    (hpar : s.settings.parallelism = 1) (hworkers : 1 ≤ s.workers) (hpos : 0 < s.miningDifficulty)
    (hfresh : Fresh hit.key s.queue)
    (hverifies : VerifiesAt A hit.key hit.hashStr s.settings.saltHex (s.checkedCost w hit)
      s.settings.timeCost 1 s.settings.hashLen) :
    Keeping A s.settings hit.key (s.handleHit w A hit).queue.store
      (s.handleHit w A hit).queue.sent (s.handleHit w A hit).queue.dropped := by
  have hfound : ∀ kind, Fresh hit.key (s.noteFound kind).queue := fun _ => hfresh
  have hattached : (s.attachHitMemoryCost hit).key = hit.key := by rw [attachHitMemoryCost_eq]
  unfold checkedCost at hverifies
  unfold handleHit
  dsimp only
  split_ifs at hverifies ⊢ with hdeferred
  · rw [← hattached]
    refine keeping_queueHit (s := s.noteFound _) (hattached ▸ hfound _) fun now => ?_
    exact (wellHeld_attached_iff (hgenuine.attached_ne_zero hpos)).mpr hverifies
  · rw [prepareLiveHit_noteFound hpar hworkers]
    cases hprepared : prepareHitForSubmit A (s.attachHitMemoryCost hit) s.settings.saltHex
        s.miningDifficulty s.settings.timeCost 1 s.settings.hashLen with
    | none =>
      have hfails := prepareHitForSubmit_eq_none_iff.mp hprepared
      rw [attachHitMemoryCost_eq] at hfails
      exact absurd hverifies hfails
    | some prepared =>
      have hkey : prepared.key = hit.key := (prepareHitForSubmit_eq_some hprepared).1.trans hattached
      dsimp only
      rw [← hkey]
      exact keeping_placeHit (s := s.noteFound _) (hkey ▸ hfound _) fun now reason =>
        wellHeld_prepared hgenuine hpos hprepared

/-- A flush at a given difficulty. -/
def flushAt (difficulty : ℤ) : FlushEnv where
  difficulty := difficulty
  deferUntil := 0
  time := fun _ => 0
  minute := fun _ => 0
  reply := fun _ => { status := 0, body := "" }

/-- A hit that does not verify is filtered, or dropped by the flush at the cost it waits for. -/
theorem not_retained_handleHit (hgenuine : Genuine A s.settings hit m)
    (hpar : s.settings.parallelism = 1) (hworkers : 1 ≤ s.workers) (hpos : 0 < s.miningDifficulty)
    (hfresh : Fresh hit.key s.queue)
    (hfails : ¬ VerifiesAt A hit.key hit.hashStr s.settings.saltHex (s.checkedCost w hit)
      s.settings.timeCost 1 s.settings.hashLen) :
    ∃ ops, ¬ Retained hit.key
      (Run.final (QueueFlusher.step A s.settings) (s.handleHit w A hit).queue ops) := by
  have hattached : (s.attachHitMemoryCost hit).key = hit.key := by rw [attachHitMemoryCost_eq]
  unfold checkedCost at hfails
  unfold handleHit
  dsimp only
  split_ifs at hfails ⊢ with hdeferred
  · -- The flush at the cost the row waits for.
    have hcost := hgenuine.attached_ne_zero hpos
    refine ⟨[.flush (flushAt (hit.memoryCost.getD s.miningDifficulty)) (fun _ => false) false],
      fun h => h.1 ?_⟩
    rw [← hattached, Run.final_cons, Run.final_nil, QueueFlusher.step_flush_eq]
    generalize hs' : s.noteFound _ = s'
    have hrow : (s.queue.store.pendingBlocks.nextId,
        queueRow (s'.stamp w) (s.attachHitMemoryCost hit) difficultyChangeReason) ∈
          (s'.queueHit w (s.attachHitMemoryCost hit) (hitKind (s.attachHitMemoryCost hit))
            difficultyChangeReason).queue.store.pending := by
      rw [← hs']
      exact mem_pending.mpr ⟨Table.mem_insert.mpr (Or.inr rfl), rfl⟩
    refine QueueFlusher.mem_dropped_flush hrow ?_
    · rw [disposition_eq_falsePositive_iff, attachHitMemoryCost_eq]
      have hblock : (queueRow (s'.stamp w)
          { hit with memoryCost := some (hit.memoryCost.getD s.miningDifficulty) }
          difficultyChangeReason).blockMemoryCost =
            some (hit.memoryCost.getD s.miningDifficulty) := PyNum.optOr_of_ne_zero hcost _
      unfold PendingRow.WaitsAt
      rw [hblock]
      refine ⟨fun hwaits => hwaits.2 rfl, ?_⟩
      rw [show (flushAt (hit.memoryCost.getD s.miningDifficulty)).difficulty =
        hit.memoryCost.getD s.miningDifficulty from rfl, PyNum.optOrInt_some_self]
      exact hfails
  · -- The filter takes the hit before anything is stored.
    have hnone : prepareHitForSubmit A (s.attachHitMemoryCost hit) s.settings.saltHex
        s.miningDifficulty s.settings.timeCost 1 s.settings.hashLen = none := by
      rw [prepareHitForSubmit_eq_none_iff, attachHitMemoryCost_eq]
      exact hfails
    refine ⟨[], ?_⟩
    rw [prepareLiveHit_noteFound hpar hworkers, hnone]
    exact QueueFlusher.Fresh.not_retained hfresh

/-- **Genuine blocks.**  A genuine block is retained through every sequence of flushes and ends of
sessions if and only if it verifies at the memory cost it is checked at, or, in a transition, queued
for, and no submission that `handle_hit` makes raises. -/
theorem retained_iff (w : World) (A : Argon2) (raises : ℕ → Bool) (s : Supervisor) (hit : BlockHit)
    (m : ℤ) (hgenuine : Genuine A s.settings hit m) (hpar : s.settings.parallelism = 1)
    (hworkers : 1 ≤ s.workers) (hpos : 0 < s.miningDifficulty) (hfresh : Fresh hit.key s.queue) :
    (∀ ops, Retained hit.key (Run.final (QueueFlusher.step A s.settings)
        (Raising.left (Raising.handleHit w A raises s hit)).queue ops)) ↔
      VerifiesAt A hit.key hit.hashStr s.settings.saltHex (s.checkedCost w hit)
        s.settings.timeCost 1 s.settings.hashLen ∧ ∀ n ∈ s.hitCalls w A hit, raises n = false := by
  have hends : Raising.Ends raises hit.key (s.hitCalls w A hit) (Raising.handleHit w A raises s hit)
      (s.handleHit w A hit) := Raising.ends_handleHit hfresh
  by_cases hquiet : ∀ n ∈ s.hitCalls w A hit, raises n = false
  · rw [hends.returns hquiet, and_iff_left hquiet]
    show (∀ ops, Retained hit.key
      (Run.final (QueueFlusher.step A s.settings) (s.handleHit w A hit).queue ops)) ↔ _
    constructor
    · intro h
      by_contra hfails
      obtain ⟨ops, hlost⟩ := not_retained_handleHit hgenuine hpar hworkers hpos hfresh hfails
      exact hlost (h ops)
    · intro hverifies ops
      exact QueueFlusher.keeping_run ops
        (keeping_handleHit hgenuine hpar hworkers hpos hfresh hverifies)
  · -- the exception leaves nothing of the hit
    obtain ⟨s', hraised, hnew⟩ := hends.raised hquiet
    rw [hraised]
    exact iff_of_false (fun h => hnew.not_retained (h [])) fun h => hquiet h.2

/-- A miner on the CUDA backend at difficulty 100. -/
def cudaMiner : Supervisor :=
  { create {} 1 true .empty with backend := .cuda 100, networkDifficulty := some 100 }

/-- The block that the CUDA backend mines and submits at difficulty 100 is retained, though every
submission after it raises. -/
theorem retained_iff_cuda :
    let w := sampleWorld (fun _ => some 100) ⟨0, "timed out"⟩
    let raises (n : ℕ) : Bool := decide (0 < n)
    let s := Raising.left (Raising.handleHit w sampleArgon2 raises cudaMiner sampleBlock)
    cudaMiner.hitCalls w sampleArgon2 sampleBlock = [0] ∧ s.queue.store.pendingKeys = ["a"] ∧
      ∀ ops, Retained "a"
        (Run.final (QueueFlusher.step sampleArgon2 cudaMiner.settings) s.queue ops) := by
  intro w raises s
  have hgenuine : Genuine sampleArgon2 cudaMiner.settings sampleBlock 100 :=
    ⟨by decide, by decide +kernel, Or.inr rfl⟩
  have hfresh : Fresh sampleBlock.key cudaMiner.queue := ⟨by decide, by decide +kernel, by decide⟩
  have hcalls : cudaMiner.hitCalls w sampleArgon2 sampleBlock = [0] := by decide +kernel
  refine ⟨hcalls, by decide +kernel, ?_⟩
  apply (retained_iff w sampleArgon2 raises cudaMiner sampleBlock 100 hgenuine rfl le_rfl (by decide)
    hfresh).mpr
  rw [hcalls]
  exact ⟨by decide +kernel, by decide⟩

/-- The same block is lost if its submission raises. -/
example :
    let w := sampleWorld (fun _ => some 100) ⟨0, "timed out"⟩
    let s := Raising.left (Raising.handleHit w sampleArgon2 (fun _ => true) cudaMiner sampleBlock)
    s.queue.store.pendingKeys = [] ∧ s.queue.sent = [] := by decide +kernel

/-- A miner on the CPU backend that is configured for memory cost 100. -/
def cpuMiner : Supervisor :=
  { create { memoryCost := 100 } 1 false .empty with networkDifficulty := some 200 }

/-- The block the CPU backend finds: the whole hash, without a memory cost. -/
def cpuBlock : BlockHit :=
  { sampleBlock with
    hashStr := argon2Hash sampleArgon2 "a" "" 100 1 1 64
    memoryCost := none }

/-- At a network difficulty of 200, the genuine block of the CPU backend is filtered, with every
submission returning. -/
theorem genuine_filtered :
    let w := sampleWorld (fun _ => some 200) ⟨200, "ok"⟩
    Genuine sampleArgon2 cpuMiner.settings cpuBlock 100 ∧ Fresh cpuBlock.key cpuMiner.queue ∧
      ¬ Retained cpuBlock.key
        (Raising.left (Raising.handleHit w sampleArgon2 (fun _ => false) cpuMiner cpuBlock)).queue := by
  intro w
  refine ⟨⟨by decide, by decide +kernel, Or.inl rfl⟩, ⟨by decide, by decide +kernel, by decide⟩, ?_⟩
  have hlost :
      let s := Raising.left (Raising.handleHit w sampleArgon2 (fun _ => false) cpuMiner cpuBlock)
      s.queue.store.pendingKeys = [] ∧ s.queue.sent = [] := by decide +kernel
  rintro ⟨-, hpending | ⟨x, hx, -⟩⟩
  · rw [hlost.1] at hpending
    cases hpending
  · rw [hlost.2] at hx
    cases hx

end Supervisor

end XenMiner
