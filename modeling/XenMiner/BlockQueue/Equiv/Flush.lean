import XenMiner.BlockQueue.Equiv.Store
import XenMiner.BlockQueue.Flush
import XenMiner.Mining.Equiv.Argon2Common

/-!
# What a flush does

`prepareRow_effect` lists all that `_prepare_row` can do to the store for one row; the rules
`flush_induction` and `deferToNextStart_induction` carry what each of these preserves over a whole
flush.
-/

namespace XenMiner

open Argon2Common
open BlockStore SubmitResult

/-! ### One row -/

/-- The submission of a row. -/
def FlushEnv.sentFor (env : FlushEnv) (rowId : ℕ) (key : String) : Sent where
  time := env.time rowId
  deferUntil := env.deferUntil
  source := .flush
  key := key
  status := (env.reply rowId).status
  body := (env.reply rowId).body

/-- The pool took the key. -/
def Taken (sent : List Sent) (key : String) : Prop :=
  ∃ x ∈ sent, x.key = key ∧ submitAccepted x.status x.body = true

theorem Taken.mono {sent sent' : List Sent} {key : String} (h : Taken sent key)
    (hsub : sent ⊆ sent') : Taken sent' key := by
  obtain ⟨x, hx, htaken⟩ := h
  exact ⟨x, hsub hx, htaken⟩

/-- The store operation a row leads to, with its outcome. -/
inductive RowEffect (A : Argon2) (settings : Settings) (env : FlushEnv) (rowId : ℕ)
    (row : PendingRow) : Option StoreOp → FlushRowOutcome → Prop
  /-- Nothing is sent, nothing changes. -/
  | hold {o : FlushRowOutcome} (hsent : o.sent = none) (hdropped : o.dropped = false) :
    RowEffect A settings env rowId row none o
  /-- The row waits under another reason. -/
  | mark {o : FlushRowOutcome} {reason : String} (hreason : reason ≠ resubmissionReason)
    (hsent : o.sent = none ∨ o.sent = some (env.sentFor rowId row.key))
    (hdropped : o.dropped = false) :
    RowEffect A settings env rowId row (some (.markPendingReason rowId reason)) o
  /-- The row is dropped as a false positive. -/
  | drop {o : FlushRowOutcome}
    (hdisposition :
      disposition A settings env.difficulty (env.stamp rowId) row = .falsePositive)
    (hsent : o.sent = none) (hdropped : o.dropped = true) (hkey : o.key = row.key) :
    RowEffect A settings env rowId row
      (some (.markSubmitted (env.stamp rowId) rowId 0 "filtered:false_positive")) o
  /-- The pool took the block. -/
  | accept {o : FlushRowOutcome} (hsent : o.sent = some (env.sentFor rowId row.key))
    (haccepted : submitAccepted (env.reply rowId).status (env.reply rowId).body = true)
    (hdropped : o.dropped = false) :
    RowEffect A settings env rowId row
      (some (.markSubmitted (env.stamp rowId) rowId (env.reply rowId).status
        (env.reply rowId).body)) o
  /-- The pool refused the block. -/
  | reject {o : FlushRowOutcome} {hit : BlockHit} {reason : String} (hkey : hit.key = row.key)
    (hsent : o.sent = some (env.sentFor rowId row.key))
    (hcounts : countsAsReject (env.reply rowId).status (env.reply rowId).body = true)
    (hdropped : o.dropped = false) :
    RowEffect A settings env rowId row
      (some (.recordRejection (env.stamp rowId) hit (env.reply rowId).status
        (env.reply rowId).body "flush" (some rowId) (some reason))) o
  /-- The submission failed, and the row stays as it is. -/
  | keep {o : FlushRowOutcome} (hsent : o.sent = some (env.sentFor rowId row.key))
    (hdropped : o.dropped = false) : RowEffect A settings env rowId row none o

/-- The operation of a row, if there is one. -/
def BlockStore.applyOption (s : BlockStore) : Option StoreOp → BlockStore
  | none => s
  | some op => s.apply op

variable {A : Argon2} {settings : Settings} {env : FlushEnv} {onShutdown : Bool} {s : BlockStore}
  {rowId : ℕ} {row : PendingRow}

/-- A prepared row keeps its key. -/
theorem key_of_prepared {difficulty now memoryCost : ℤ} {hit : BlockHit}
    (h : disposition A settings difficulty now row = .prepared hit memoryCost) :
    hit.key = row.key := by
  unfold disposition at h
  split_ifs at h
  dsimp only at h
  split at h
  · cases h
  · next prepared hprepared =>
    obtain ⟨rfl, -⟩ := Disposition.prepared.inj h
    exact (prepareHitForSubmit_eq_some hprepared).1

theorem submitRow_effect {hit : BlockHit} {memoryCost : ℤ} (hkey : hit.key = row.key) :
    ∃ op, (submitRow env onShutdown s rowId hit memoryCost).1 = s.applyOption op ∧
      RowEffect A settings env rowId row op
        (submitRow env onShutdown s rowId hit memoryCost).2 := by
  have hsent : env.sentFor rowId hit.key = env.sentFor rowId row.key := by rw [hkey]
  unfold submitRow
  dsimp only
  by_cases haccepted : submitAccepted (env.reply rowId).status (env.reply rowId).body = true
  · rw [if_pos haccepted]
    exact ⟨some _, rfl, .accept (congrArg some hsent) haccepted rfl⟩
  rw [if_neg haccepted]
  by_cases hmismatch : isDifficultyMismatch (env.reply rowId).status (env.reply rowId).body = true
  · rw [if_pos hmismatch]
    exact ⟨some _, rfl, .mark (by decide) (Or.inr (congrArg some hsent)) rfl⟩
  rw [if_neg hmismatch]
  by_cases hwindow : isXuniWindowReject (env.reply rowId).status (env.reply rowId).body = true
  · rw [if_pos hwindow]
    exact ⟨some _, rfl, .mark (by decide) (Or.inr (congrArg some hsent)) rfl⟩
  rw [if_neg hwindow]
  by_cases hcounts : countsAsReject (env.reply rowId).status (env.reply rowId).body = true
  · rw [if_pos hcounts]
    exact ⟨some _, rfl, .reject hkey (congrArg some hsent) hcounts rfl⟩
  · rw [if_neg hcounts]
    by_cases hqueued : (onShutdown && decide (PyStr.upper hit.blockType ∈ ["XNM", "XBLK"])) = true
    · refine ⟨some (.markPendingReason rowId shutdownPendingReason), ?_,
        .mark (by decide) (Or.inr (congrArg some hsent)) rfl⟩
      rw [if_pos hqueued]
      rfl
    · refine ⟨none, ?_, .keep (congrArg some hsent) rfl⟩
      rw [if_neg hqueued]
      rfl

/-- All that `_prepare_row` can do. -/
theorem prepareRow_effect (A : Argon2) (settings : Settings) (env : FlushEnv) (onShutdown : Bool)
    (s : BlockStore) (rowId : ℕ) (row : PendingRow) :
    ∃ op, (prepareRow A settings env onShutdown s rowId row).1 = s.applyOption op ∧
      RowEffect A settings env rowId row op
        (prepareRow A settings env onShutdown s rowId row).2 := by
  unfold prepareRow
  cases hdisposition : disposition A settings env.difficulty (env.stamp rowId) row with
  | waiting blockMemoryCost => exact ⟨none, rfl, .hold rfl rfl⟩
  | falsePositive => exact ⟨some _, rfl, .drop hdisposition rfl rfl rfl⟩
  | prepared hit memoryCost =>
    dsimp only
    by_cases hready : (Policy.readyToFlush hit.blockType (env.minute rowId)).1 = false
    · rw [if_pos hready]
      cases onShutdown with
      | true => exact ⟨some _, rfl, .mark (by decide) (Or.inl rfl) rfl⟩
      | false => exact ⟨none, rfl, .hold rfl rfl⟩
    · rw [if_neg hready]
      exact submitRow_effect (key_of_prepared hdisposition)

/-! ### Waiting rows -/

/-- The row waits for another difficulty than `c`. -/
def PendingRow.WaitsAt (row : PendingRow) (c : ℤ) : Prop :=
  row.blockMemoryCost ≠ none ∧ row.blockMemoryCost ≠ some c

theorem PendingRow.SameBlock.blockMemoryCost {r r' : PendingRow} (h : r.SameBlock r') :
    r'.blockMemoryCost = r.blockMemoryCost := by
  unfold PendingRow.blockMemoryCost
  rw [h.memoryCost, h.hashStr]

/-- Nothing is sent for a row that waits. -/
theorem prepareRow_of_waitsAt (h : row.WaitsAt env.difficulty) :
    (prepareRow A settings env onShutdown s rowId row).1 = s ∧
      (prepareRow A settings env onShutdown s rowId row).2.sent = none := by
  have hwaiting : disposition A settings env.difficulty (env.stamp rowId) row =
      .waiting (row.blockMemoryCost.getD 0) := if_pos h
  unfold prepareRow
  rw [hwaiting]
  exact ⟨rfl, rfl⟩

/-! ### A flush -/

/-- A row is submitted once or not at all. -/
theorem RowEffect.sent {op : Option StoreOp} {o : FlushRowOutcome}
    (h : RowEffect A settings env rowId row op o) :
    o.sent = none ∨ o.sent = some (env.sentFor rowId row.key) := by
  cases h with
  | hold hnone => exact Or.inl hnone
  | mark _ hsent => exact hsent
  | drop _ hnone => exact Or.inl hnone
  | accept hsome => exact Or.inr hsome
  | reject _ hsome => exact Or.inr hsome
  | keep hsome => exact Or.inr hsome

/-- Only a false positive is dropped. -/
theorem RowEffect.of_dropped {op : Option StoreOp} {o : FlushRowOutcome} {key : String}
    (h : RowEffect A settings env rowId row op o)
    (hkey : key ∈ (QueueFlusher.droppedKey o).toList) :
    key = row.key ∧
      disposition A settings env.difficulty (env.stamp rowId) row = .falsePositive := by
  unfold QueueFlusher.droppedKey at hkey
  split_ifs at hkey with hdrop
  · cases h with
    | drop hdisposition _ _ hsame => exact ⟨(List.mem_singleton.mp hkey).trans hsame, hdisposition⟩
    | hold _ hfalse | mark _ _ hfalse | accept _ _ hfalse | reject _ _ _ hfalse | keep _ hfalse =>
      rw [hfalse] at hdrop
      cases hdrop
  · cases hkey

/-- The turn of a row adds no pending row. -/
theorem RowEffect.pending {op : Option StoreOp} {o : FlushRowOutcome}
    (h : RowEffect A settings env rowId row op o) {x : ℕ × PendingRow}
    (hx : x ∈ (s.applyOption op).pending) :
    ∃ y ∈ s.pending, y.1 = x.1 ∧ PendingRow.SameBlock y.2 x.2 := by
  cases h with
  | hold | keep => exact ⟨x, hx, rfl, PendingRow.SameBlock.refl _⟩
  | mark | drop | accept | reject => exact (pending_apply s _ hx).resolve_right id

theorem keeps_applyOption (s : BlockStore) (op : Option StoreOp) :
    s.pendingBlocks.Keeps PendingRow.SameBlock (s.applyOption op).pendingBlocks := by
  cases op with
  | none => exact Table.Keeps.refl PendingRow.SameBlock.refl _
  | some op => exact keeps_apply s op

namespace QueueFlusher

/-- What a flush looks at: the store, the submissions and the dropped keys. -/
abbrev FlushInvariant := BlockStore → List Sent → List String → Prop

/-- **Induction rule for the turns of the rows.**  `P` may rely on each row's block still being the
one the flush read. -/
theorem prepareRows_induction {P : FlushInvariant} {s₀ s : BlockStore} {sent : List Sent}
    {dropped : List String} {rows : List (ℕ × PendingRow)} (hrows : rows ⊆ s₀.pending)
    (hkeeps : s₀.pendingBlocks.Keeps PendingRow.SameBlock s.pendingBlocks) (h : P s sent dropped)
    (hstep : ∀ s sent dropped rowId row op o, (rowId, row) ∈ s₀.pending →
      s₀.pendingBlocks.Keeps PendingRow.SameBlock s.pendingBlocks → P s sent dropped →
      RowEffect A settings env rowId row op o →
      P (s.applyOption op) (sent ++ o.sent.toList) (dropped ++ (droppedKey o).toList)) :
    P (prepareRows A settings env onShutdown s rows).1
      (sent ++ (prepareRows A settings env onShutdown s rows).2.filterMap (·.sent))
      (dropped ++ (prepareRows A settings env onShutdown s rows).2.filterMap droppedKey) := by
  induction rows generalizing s sent dropped with
  | nil => simpa [prepareRows] using h
  | cons x rows ih =>
    obtain ⟨rowId, row⟩ := x
    obtain ⟨op, heq, heffect⟩ := prepareRow_effect A settings env onShutdown s rowId row
    obtain ⟨hx, hrows⟩ := List.cons_subset.mp hrows
    have hnext := ih hrows (hkeeps.trans (fun _ _ _ => PendingRow.SameBlock.trans)
      (keeps_applyOption s op)) (hstep s sent dropped rowId row op _ hx hkeeps h heffect)
    have hcons : ∀ {β : Type} (f : FlushRowOutcome → Option β) (o : FlushRowOutcome)
        (os : List FlushRowOutcome), (o :: os).filterMap f = (f o).toList ++ os.filterMap f := by
      intro β f o os
      cases ho : f o with
      | none => simp [ho]
      | some b => simp [ho]
    rw [prepareRows]
    dsimp only
    rw [hcons, hcons, ← List.append_assoc, ← List.append_assoc, heq]
    exact hnext

/-- **Induction rule for a flush.** -/
theorem flush_induction {P : FlushInvariant} (q : QueueFlusher)
    (h : P q.store q.sent q.dropped)
    (hstep : ∀ s sent dropped rowId row op o, (rowId, row) ∈ q.store.pending →
      q.store.pendingBlocks.Keeps PendingRow.SameBlock s.pendingBlocks → P s sent dropped →
      RowEffect A settings env rowId row op o →
      P (s.applyOption op) (sent ++ o.sent.toList) (dropped ++ (droppedKey o).toList)) :
    P (flush A settings q env onShutdown).1.store (flush A settings q env onShutdown).1.sent
      (flush A settings q env onShutdown).1.dropped :=
  prepareRows_induction (List.Subset.refl _)
    (Table.Keeps.refl PendingRow.SameBlock.refl _) h hstep

/-- A flush adds no pending row. -/
theorem pending_flush {q : QueueFlusher} {x : ℕ × PendingRow}
    (hx : x ∈ (flush A settings q env onShutdown).1.store.pending) :
    ∃ y ∈ q.store.pending, y.1 = x.1 ∧ PendingRow.SameBlock y.2 x.2 := by
  refine flush_induction (P := fun s _ _ => ∀ x ∈ s.pending,
    ∃ y ∈ q.store.pending, y.1 = x.1 ∧ PendingRow.SameBlock y.2 x.2) q ?_ ?_ x hx
  · intro y hy
    exact ⟨y, hy, rfl, PendingRow.SameBlock.refl _⟩
  · intro s _ _ rowId row op o _ _ h heffect z hz
    obtain ⟨y, hy, hid, hblock⟩ := heffect.pending hz
    obtain ⟨x, hx, hid', hblock'⟩ := h y hy
    exact ⟨x, hx, hid'.trans hid, hblock'.trans hblock⟩

/-- Nothing is sent while all pending blocks wait. -/
theorem flush_sent_of_waitsAt {q : QueueFlusher}
    (h : ∀ x ∈ q.store.pending, x.2.WaitsAt env.difficulty) :
    (flush A settings q env onShutdown).1.sent = q.sent := by
  have hrows : ∀ rows : List (ℕ × PendingRow), (∀ x ∈ rows, x.2.WaitsAt env.difficulty) →
      (prepareRows A settings env onShutdown q.store rows).2.filterMap (·.sent) = [] := by
    intro rows hwaits
    induction rows with
    | nil => rfl
    | cons x rows ih =>
      obtain ⟨hx, hrows⟩ := List.forall_mem_cons.mp hwaits
      have hturn : (prepareRow A settings env onShutdown q.store x.1 x.2).1 = q.store ∧
          (prepareRow A settings env onShutdown q.store x.1 x.2).2.sent = none :=
        prepareRow_of_waitsAt hx
      obtain ⟨hstore, hsent⟩ := hturn
      rw [prepareRows]
      dsimp only
      rw [List.filterMap_cons_none hsent, hstore, ih hrows]
  show q.sent ++ _ = q.sent
  rw [hrows _ h, List.append_nil]

/-- **Induction rule for `defer_to_next_start`.** -/
theorem deferToNextStart_induction {P : BlockStore → Prop} (q : QueueFlusher) (minute : ℕ → ℕ)
    (h : P q.store)
    (hstep : ∀ s rowId reason, reason ≠ resubmissionReason → P s →
      P (s.markPendingReason rowId reason)) :
    P (deferToNextStart q minute).1.store := by
  have hreason : ∀ x, deferReason minute x ≠ resubmissionReason := by
    intro x
    unfold deferReason
    dsimp only
    split_ifs
    · decide
    · decide
  have hfold : ∀ (rows : List (ℕ × PendingRow)) (s : BlockStore), P s →
      P (rows.foldl (fun s x => s.markPendingReason x.1 (deferReason minute x)) s) := by
    intro rows
    induction rows with
    | nil => exact fun s hs => hs
    | cons x rows ih => exact fun s hs => ih _ (hstep s x.1 _ (hreason x) hs)
  exact hfold _ _ h

end QueueFlusher

end XenMiner
