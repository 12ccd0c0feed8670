import XenMiner.BlockQueue.Equiv.Flush
import XenMiner.BlockQueue.RaisingSubmit
import XenMiner.Lib.Run

/-!
# Blocks that the queue keeps

A row is held well if it verifies at the memory cost it waits for; then no flush drops it
(`WellHeld`).  `Keeping` is what the queue guarantees for such a block: whatever the flushes and the
end of the session bring, it is pending or the pool took it (`keeping_run`).  The flushes may raise: a
row whose submission raises stays as it is.
-/

namespace XenMiner

open Argon2Common
open BlockStore SubmitResult

variable {A : Argon2} {settings : Settings} {row row' : PendingRow} {key : String}

/-! ### Rows that verify -/

/-- No flush drops the row as a false positive. -/
def WellHeld (A : Argon2) (settings : Settings) (row : PendingRow) : Prop :=
  ∀ difficulty now, disposition A settings difficulty now row ≠ .falsePositive

theorem disposition_eq_falsePositive_iff {difficulty now : ℤ} :
    disposition A settings difficulty now row = .falsePositive ↔
      ¬ row.WaitsAt difficulty ∧
        ¬ VerifiesAt A row.key row.hashStr settings.saltHex
          (PyNum.optOrInt row.blockMemoryCost difficulty) settings.timeCost 1 settings.hashLen := by
  unfold disposition PendingRow.WaitsAt
  by_cases hwaits : row.blockMemoryCost ≠ none ∧ row.blockMemoryCost ≠ some difficulty
  · rw [if_pos hwaits]
    exact iff_of_false Disposition.noConfusion fun h => h.1 hwaits
  · rw [if_neg hwaits]
    dsimp only
    have hverify : prepareHitForSubmit A (row.toHit now) settings.saltHex
          (PyNum.optOrInt row.blockMemoryCost difficulty) settings.timeCost 1 settings.hashLen =
            none ↔
        ¬ VerifiesAt A row.key row.hashStr settings.saltHex
          (PyNum.optOrInt row.blockMemoryCost difficulty) settings.timeCost 1 settings.hashLen :=
      prepareHitForSubmit_eq_none_iff
    constructor
    · intro h
      split at h
      · next hnone => exact ⟨hwaits, hverify.mp hnone⟩
      · cases h
    · rintro ⟨-, hfails⟩
      rw [hverify.mpr hfails]

/-- Rows of the same block are held alike. -/
theorem WellHeld.sameBlock (h : WellHeld A settings row) (hblock : row.SameBlock row') :
    WellHeld A settings row' := by
  intro difficulty now hdrop
  refine h difficulty now ?_
  rw [disposition_eq_falsePositive_iff] at hdrop ⊢
  unfold PendingRow.WaitsAt at hdrop ⊢
  rwa [hblock.blockMemoryCost, hblock.key, hblock.hashStr] at hdrop

/-- A row that waits for a memory cost is held well if and only if it verifies there. -/
theorem wellHeld_iff {c : ℤ} (hcost : row.blockMemoryCost = some c) (hc : c ≠ 0) :
    WellHeld A settings row ↔
      VerifiesAt A row.key row.hashStr settings.saltHex c settings.timeCost 1 settings.hashLen := by
  have hat : PyNum.optOrInt (some c) c = c := PyNum.optOrInt_some_self c
  constructor
  · intro h
    have hnot := h c 0
    rw [ne_eq, disposition_eq_falsePositive_iff, hcost, hat] at hnot
    by_contra hfails
    exact hnot ⟨fun hwaits => hwaits.2 hcost, hfails⟩
  · intro h difficulty now hdrop
    obtain ⟨hready, hfails⟩ := disposition_eq_falsePositive_iff.mp hdrop
    refine hfails ?_
    rw [hcost]
    unfold PyNum.optOrInt
    dsimp only
    rwa [if_neg hc]

/-! ### The queue -/

namespace QueueFlusher

variable {q : QueueFlusher} {env : FlushEnv} {raises : ℕ → Bool} {onShutdown : Bool}
  {s : BlockStore} {sent : List Sent} {dropped : List String}

/-- **Induction rule for a flush that may raise.** -/
theorem flushOrRaise_induction {P : FlushInvariant} (q : QueueFlusher)
    (h : P q.store q.sent q.dropped)
    (hstep : ∀ s sent dropped rowId row op o, (rowId, row) ∈ q.store.pending →
      q.store.pendingBlocks.Keeps PendingRow.SameBlock s.pendingBlocks → P s sent dropped →
      RowEffect A settings env rowId row op o →
      P (s.applyOption op) (sent ++ o.sent.toList) (dropped ++ (droppedKey o).toList)) :
    P (flushOrRaise A settings q env raises onShutdown).1.store
      (flushOrRaise A settings q env raises onShutdown).1.sent
      (flushOrRaise A settings q env raises onShutdown).1.dropped := by
  have hrows : q.store.pending.filter (fun x => !rowRaises A settings env raises x) ⊆
      q.store.pending := List.filter_subset_self _
  unfold flushOrRaise
  dsimp only
  split_ifs
  · exact prepareRows_induction hrows (Table.Keeps.refl PendingRow.SameBlock.refl _) h hstep
  · exact prepareRows_induction hrows (Table.Keeps.refl PendingRow.SameBlock.refl _) h hstep

theorem rowRaises_eq_true_iff {x : ℕ × PendingRow} :
    rowRaises A settings env raises x = true ↔ submits A settings env x = true ∧ raises x.1 = true :=
  Bool.and_eq_true_iff

/-- A flush in which no submission raises. -/
theorem flushOrRaise_eq
    (h : ∀ x ∈ q.store.pending, submits A settings env x = true → raises x.1 = false) :
    flushOrRaise A settings q env raises onShutdown =
      ((flush A settings q env onShutdown).1, some (flush A settings q env onShutdown).2) := by
  have hnone : ∀ x ∈ q.store.pending, ¬ rowRaises A settings env raises x = true := by
    intro x hx hrow
    obtain ⟨hsubmits, hraises⟩ := rowRaises_eq_true_iff.mp hrow
    rw [h x hx hsubmits] at hraises
    cases hraises
  have hall : q.store.pending.filter (fun x => !rowRaises A settings env raises x) =
      q.store.pending := by
    rw [List.filter_eq_self]
    intro x hx
    rw [eq_false_of_ne_true (hnone x hx), Bool.not_false]
  have hany : ¬ q.store.pending.any (rowRaises A settings env raises) = true := by
    rw [List.any_eq_true]
    rintro ⟨x, hx, hrow⟩
    exact hnone x hx hrow
  unfold flushOrRaise
  dsimp only
  rw [hall, if_neg hany]
  rfl

/-- A flush in which a submission raises. -/
theorem flushOrRaise_snd_eq_none
    (h : ∃ x ∈ q.store.pending, submits A settings env x = true ∧ raises x.1 = true) :
    (flushOrRaise A settings q env raises onShutdown).2 = none := by
  obtain ⟨x, hx, hrow⟩ := h
  have hany : q.store.pending.any (rowRaises A settings env raises) = true :=
    List.any_eq_true.mpr ⟨x, hx, rowRaises_eq_true_iff.mpr hrow⟩
  unfold flushOrRaise
  dsimp only
  rw [if_pos hany]

/-- The block is pending or the pool took it, and no flush dropped it. -/
def Retained (key : String) (q : QueueFlusher) : Prop :=
  key ∉ q.dropped ∧ (key ∈ q.store.pendingKeys ∨ Taken q.sent key)

/-- A block that stays retained: all its rows are held well. -/
def Keeping (A : Argon2) (settings : Settings) (key : String) : FlushInvariant :=
  fun s sent dropped => key ∉ dropped ∧
    (∀ x ∈ s.pending, x.2.key = key → WellHeld A settings x.2) ∧
    (key ∈ s.pendingKeys ∨ Taken sent key)

/-- The turn of a row. -/
theorem Keeping.rowEffect {rowId : ℕ} {op : Option StoreOp} {o : FlushRowOutcome}
    (h : Keeping A settings key s sent dropped)
    (hrow : ∀ row', (rowId, row') ∈ s.pendingBlocks.rows → row'.key = row.key)
    (hheld : row.key = key → WellHeld A settings row)
    (heffect : RowEffect A settings env rowId row op o) :
    Keeping A settings key (s.applyOption op) (sent ++ o.sent.toList)
      (dropped ++ (droppedKey o).toList) := by
  obtain ⟨hout, hrows, hkept⟩ := h
  have hsub : sent ⊆ sent ++ o.sent.toList := List.subset_append_left _ _
  refine ⟨?_, ?_, ?_⟩
  · rw [List.mem_append, not_or]
    refine ⟨hout, fun hdropped => ?_⟩
    obtain ⟨hkey, hdisposition⟩ := heffect.of_dropped hdropped
    exact hheld hkey.symm _ _ hdisposition
  · intro x hx hkey
    obtain ⟨y, hy, -, hblock⟩ := heffect.pending hx
    exact (hrows y hy (hblock.key.symm.trans hkey)).sameBlock hblock
  · rcases hkept with hpending | htaken
    · cases heffect with
      | hold | keep => exact Or.inl hpending
      | mark => exact Or.inl (mem_pendingKeys_apply hpending _ nofun)
      | reject => exact Or.inl (mem_pendingKeys_apply hpending _ nofun)
      | drop hdisposition =>
        -- the row that goes does not verify, so it is not of this block
        refine Or.inl (mem_pendingKeys_apply hpending _ ?_)
        rintro now _ httpStatus body heq row' hrow' hkey
        cases heq
        exact hheld ((hrow row' hrow').symm.trans hkey) _ _ hdisposition
      | accept hsent haccepted =>
        -- either it is the block itself that was taken, or another row goes
        by_cases hkey : row.key = key
        · refine Or.inr ⟨env.sentFor rowId row.key, ?_, hkey, haccepted⟩
          rw [hsent]
          exact List.mem_append_right _ List.mem_cons_self
        · refine Or.inl (mem_pendingKeys_apply hpending _ ?_)
          rintro now _ httpStatus body heq row' hrow' hkey'
          cases heq
          exact hkey ((hrow row' hrow').symm.trans hkey')
    · exact Or.inr (htaken.mono hsub)

theorem keeping_flushOrRaise (h : Keeping A settings key q.store q.sent q.dropped) :
    Keeping A settings key (flushOrRaise A settings q env raises onShutdown).1.store
      (flushOrRaise A settings q env raises onShutdown).1.sent
      (flushOrRaise A settings q env raises onShutdown).1.dropped := by
  refine flushOrRaise_induction q h ?_
  intro s sent dropped rowId row op o hrow hkeeps hs heffect
  refine hs.rowEffect (fun row' hrow' => ?_) (fun hkey => h.2.1 (rowId, row) hrow hkey) heffect
  obtain ⟨r, hr, hblock⟩ := hkeeps rowId row (mem_pending.mp hrow).1
  rw [Table.row_unique hrow' hr, hblock.key]

theorem keeping_deferToNextStart {minute : ℕ → ℕ}
    (h : Keeping A settings key q.store q.sent q.dropped) :
    Keeping A settings key (deferToNextStart q minute).1.store
      (deferToNextStart q minute).1.sent (deferToNextStart q minute).1.dropped := by
  refine deferToNextStart_induction (P := fun s => Keeping A settings key s q.sent q.dropped) q
    minute h ?_
  rintro s rowId reason - ⟨hout, hrows, hkept⟩
  refine ⟨hout, fun x hx hkey => ?_, hkept.imp_left fun hpending => ?_⟩
  · obtain ⟨y, hy, -, hblock⟩ :=
      (pending_apply s (.markPendingReason rowId reason) hx).resolve_right id
    exact (hrows y hy (hblock.key.symm.trans hkey)).sameBlock hblock
  · exact mem_pendingKeys_apply hpending (.markPendingReason rowId reason) nofun

theorem Keeping.retained (h : Keeping A settings key q.store q.sent q.dropped) : Retained key q :=
  ⟨h.1, h.2.2⟩

/-! ### Runs of the queue -/

/-- What happens to a queue while no hit comes; the submissions of a flush may raise. -/
inductive Op
  | flush (env : FlushEnv) (raises : ℕ → Bool) (onShutdown : Bool)
  | deferToNextStart (minute : ℕ → ℕ)

def step (A : Argon2) (settings : Settings) (q : QueueFlusher) : Op → QueueFlusher
  | .flush env raises onShutdown =>
    (QueueFlusher.flushOrRaise A settings q env raises onShutdown).1
  | .deferToNextStart minute => (QueueFlusher.deferToNextStart q minute).1

/-- **Run rule.** -/
theorem keeping_run (ops : List Op) (h : Keeping A settings key q.store q.sent q.dropped) :
    Retained key (Run.final (step A settings) q ops) := by
  have hstep : ∀ (q : QueueFlusher) (op : Op), Keeping A settings key q.store q.sent q.dropped →
      Keeping A settings key (step A settings q op).store (step A settings q op).sent
        (step A settings q op).dropped := by
    intro q op hq
    cases op with
    | flush env raises onShutdown => exact keeping_flushOrRaise hq
    | deferToNextStart minute => exact keeping_deferToNextStart hq
  exact (Run.invariant hstep h).retained

/-- A flush whose submissions all return. -/
theorem step_flush_eq :
    step A settings q (.flush env (fun _ => false) onShutdown) =
      (flush A settings q env onShutdown).1 := by
  have hquiet : flushOrRaise A settings q env (fun _ => false) onShutdown =
      ((flush A settings q env onShutdown).1, some (flush A settings q env onShutdown).2) :=
    flushOrRaise_eq fun _ _ _ => rfl
  exact congrArg Prod.fst hquiet

/-- A flush at which a row does not verify drops its block. -/
theorem mem_dropped_flush {rowId : ℕ} (hrow : (rowId, row) ∈ q.store.pending)
    (hdrop : disposition A settings env.difficulty (env.stamp rowId) row = .falsePositive) :
    row.key ∈ (flush A settings q env onShutdown).1.dropped := by
  have hout : ∀ s, droppedKey (prepareRow A settings env onShutdown s rowId row).2 =
      some row.key := by
    intro s
    unfold prepareRow
    rw [hdrop]
    rfl
  have hturns : ∀ (rows : List (ℕ × PendingRow)) (s : BlockStore), (rowId, row) ∈ rows →
      row.key ∈ (prepareRows A settings env onShutdown s rows).2.filterMap droppedKey := by
    intro rows
    induction rows with
    | nil => exact fun _ hmem => nomatch hmem
    | cons x rows ih =>
      intro s hmem
      rw [prepareRows]
      dsimp only
      rcases List.mem_cons.mp hmem with rfl | hmem
      · rw [List.filterMap_cons_some (hout s)]
        exact List.mem_cons_self
      · exact List.mem_filterMap.mpr (by
          obtain ⟨o, ho, hkey⟩ := List.mem_filterMap.mp (ih _ hmem)
          exact ⟨o, List.mem_cons_of_mem _ ho, hkey⟩)
  exact List.mem_append_right _ (hturns q.store.pending q.store hrow)

/-! ### New keys -/

/-- The key was never queued, sent or dropped. -/
def Fresh (key : String) (q : QueueFlusher) : Prop :=
  key ∉ q.dropped ∧ key ∉ q.store.pendingKeys ∧ ∀ x ∈ q.sent, x.key ≠ key

theorem Fresh.not_retained (h : Fresh key q) : ¬ Retained key q := by
  rintro ⟨-, hpending | ⟨x, hx, hkey, -⟩⟩
  · exact h.2.1 hpending
  · exact h.2.2 x hx hkey

/-- The turn of a pending row leaves a new key new. -/
theorem fresh_rowEffect {s₀ : BlockStore} {rowId : ℕ} {op : Option StoreOp} {o : FlushRowOutcome}
    (hnew : key ∉ s₀.pendingKeys) (hrow : (rowId, row) ∈ s₀.pending)
    (h : key ∉ dropped ∧ key ∉ s.pendingKeys ∧ ∀ x ∈ sent, x.key ≠ key)
    (heffect : RowEffect A settings env rowId row op o) :
    key ∉ dropped ++ (droppedKey o).toList ∧ key ∉ (s.applyOption op).pendingKeys ∧
      ∀ x ∈ sent ++ o.sent.toList, x.key ≠ key := by
  obtain ⟨hout, hpending, hsent⟩ := h
  have hother : row.key ≠ key := fun hkey =>
    hnew (mem_pendingKeys.mpr ⟨(rowId, row), hrow, hkey⟩)
  refine ⟨?_, fun hmem => ?_, fun x hx => ?_⟩
  · rw [List.mem_append, not_or]
    exact ⟨hout, fun hdropped => hother (heffect.of_dropped hdropped).1.symm⟩
  · obtain ⟨x, hx, hkey⟩ := mem_pendingKeys.mp hmem
    obtain ⟨y, hy, -, hblock⟩ := heffect.pending hx
    exact hpending (mem_pendingKeys.mpr ⟨y, hy, hblock.key.symm.trans hkey⟩)
  · rcases List.mem_append.mp hx with hold | hnew
    · exact hsent x hold
    · rcases heffect.sent with hnone | hsome
      · rw [hnone] at hnew
        cases hnew
      · rw [hsome, Option.toList_some, List.mem_singleton] at hnew
        rw [hnew]
        exact hother

/-- A flush deals with what is pending only. -/
theorem fresh_flush (h : Fresh key q) : Fresh key (flush A settings q env onShutdown).1 :=
  flush_induction (P := fun s sent dropped => key ∉ dropped ∧ key ∉ s.pendingKeys ∧
    ∀ x ∈ sent, x.key ≠ key) q h fun _ _ _ _ _ _ _ hrow _ hs => fresh_rowEffect h.2.1 hrow hs

theorem fresh_flushOrRaise (h : Fresh key q) :
    Fresh key (flushOrRaise A settings q env raises onShutdown).1 :=
  flushOrRaise_induction (P := fun s sent dropped => key ∉ dropped ∧ key ∉ s.pendingKeys ∧
    ∀ x ∈ sent, x.key ≠ key) q h fun _ _ _ _ _ _ _ hrow _ hs => fresh_rowEffect h.2.1 hrow hs

/-- A new block that is queued in a row that is held well stays retained. -/
theorem keeping_enqueue (hout : key ∉ dropped) (hpending : key ∉ s.pendingKeys) {now : ℤ}
    {hit : BlockHit} {reason : String} (hkey : hit.key = key)
    (hheld : WellHeld A settings (queueRow now hit reason)) :
    Keeping A settings key (s.enqueue now hit reason) sent dropped := by
  refine ⟨hout, fun x hx hxkey => ?_, Or.inl ?_⟩
  · obtain ⟨hmem, hstatus⟩ := mem_pending.mp hx
    rcases Table.mem_insert.mp hmem with hold | rfl
    · exact absurd (mem_pendingKeys.mpr ⟨x, mem_pending.mpr ⟨hold, hstatus⟩, hxkey⟩) hpending
    · exact hheld
  · rw [← hkey]
    exact mem_pendingKeys_enqueue

/-- So does one that is rejected live. -/
theorem keeping_recordRejection (hout : key ∉ dropped) (hpending : key ∉ s.pendingKeys) {now : ℤ}
    {hit : BlockHit} {httpStatus : ℤ} {body source : String} {queueReason : Option String}
    (hkey : hit.key = key) (hheld : WellHeld A settings (queueRow now hit resubmissionReason)) :
    Keeping A settings key
      (s.recordRejection now hit httpStatus body source none queueReason).1 sent dropped := by
  rcases recordRejection_cases s now hit httpStatus body source none queueReason with
    ⟨⟨_, hnone⟩, -⟩ | ⟨rowId, row, p, reason, hmem, hstatus, -, hwhich, -⟩ | ⟨-, -, heq⟩
  · cases hnone
  · rcases hwhich with ⟨hnone, -⟩ | ⟨-, hrow, -⟩
    · cases hnone
    · exact absurd (mem_pendingKeys.mpr
        ⟨(rowId, row), mem_pending.mpr ⟨hmem, hstatus⟩, hrow.trans hkey⟩) hpending
  · rw [heq]
    exact keeping_enqueue hout hpending hkey hheld

end QueueFlusher

end XenMiner
