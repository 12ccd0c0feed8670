import XenMiner.BlockQueue.Equiv.Flush
import XenMiner.BlockQueue.ParallelFlush
import XenMiner.Lib.Interleave

/-!
# Workers of the submit pool

`rowCall` is what `_prepare_row` does to the store (`prepareRow_store`).  The worker that makes the call
touches nothing but its own row, and appends to tables and logs whose order does not matter: the pool is
a system of `Workers` with the rows as cells (`abs_step`), and `rowForecast` says what becomes of each
cell.
-/

namespace XenMiner

open Argon2Common (Argon2)
open BlockStore SubmitResult

variable {A : Argon2} {settings : Settings} {env : FlushEnv} {envs : ℕ → RowEnv} {onShutdown : Bool}
  {s : BlockStore} {rowId : ℕ} {row : PendingRow}

/-! ### The call of a row -/

theorem submitRow_store (env : FlushEnv) (onShutdown : Bool) (s : BlockStore) (rowId : ℕ)
    (hit : BlockHit) (memoryCost : ℤ) :
    (submitRow env onShutdown s rowId hit memoryCost).1 = s.applyOption
      ((submitCall env onShutdown rowId hit).map (RowCall.storeOp (env.stamp rowId) rowId)) := by
  unfold submitRow submitCall
  dsimp only
  by_cases haccepted : submitAccepted (env.reply rowId).status (env.reply rowId).body = true
  · rw [if_pos haccepted, if_pos haccepted]
    rfl
  rw [if_neg haccepted, if_neg haccepted]
  by_cases hmismatch : isDifficultyMismatch (env.reply rowId).status (env.reply rowId).body = true
  · rw [if_pos hmismatch, if_pos hmismatch]
    rfl
  rw [if_neg hmismatch, if_neg hmismatch]
  by_cases hwindow : isXuniWindowReject (env.reply rowId).status (env.reply rowId).body = true
  · rw [if_pos hwindow, if_pos hwindow]
    rfl
  rw [if_neg hwindow, if_neg hwindow]
  by_cases hcounts : countsAsReject (env.reply rowId).status (env.reply rowId).body = true
  · rw [if_pos hcounts, if_pos hcounts]
    rfl
  rw [if_neg hcounts, if_neg hcounts]
  split_ifs <;> rfl

/-- `_prepare_row` does to the store what its call does. -/
theorem prepareRow_store (A : Argon2) (settings : Settings) (env : FlushEnv) (onShutdown : Bool)
    (s : BlockStore) (rowId : ℕ) (row : PendingRow) :
    (prepareRow A settings env onShutdown s rowId row).1 = s.applyOption
      ((rowCall settings ⟨A, env⟩ onShutdown rowId row).map
        (RowCall.storeOp (env.stamp rowId) rowId)) := by
  unfold prepareRow rowCall
  dsimp only
  cases disposition A settings env.difficulty (env.stamp rowId) row with
  | waiting blockMemoryCost => rfl
  | falsePositive => rfl
  | prepared hit memoryCost =>
    dsimp only
    by_cases hready : (Policy.readyToFlush hit.blockType (env.minute rowId)).1 = false
    · rw [if_pos hready, if_pos hready]
      cases onShutdown <;> rfl
    · rw [if_neg hready, if_neg hready]
      exact submitRow_store env onShutdown s rowId hit memoryCost

/-- The outcome of a row does not depend on the store. -/
theorem prepareRow_outcome (A : Argon2) (settings : Settings) (env : FlushEnv) (onShutdown : Bool)
    (s s' : BlockStore) (rowId : ℕ) (row : PendingRow) :
    (prepareRow A settings env onShutdown s rowId row).2
      = (prepareRow A settings env onShutdown s' rowId row).2 := by
  unfold prepareRow
  cases disposition A settings env.difficulty (env.stamp rowId) row with
  | waiting blockMemoryCost => rfl
  | falsePositive => rfl
  | prepared hit memoryCost =>
    dsimp only
    split_ifs
    · rfl
    · rfl
    · unfold submitRow
      dsimp only
      split_ifs <;> rfl

/-- The block was sent, and the pool took it. -/
def rowAccepted (settings : Settings) (env : RowEnv) (rowId : ℕ) (row : PendingRow) : Bool :=
  match disposition env.argon2 settings env.flush.difficulty (env.flush.stamp rowId) row with
  | .prepared hit _ => (Policy.readyToFlush hit.blockType (env.flush.minute rowId)).1 &&
    submitAccepted (env.flush.reply rowId).status (env.flush.reply rowId).body
  | _ => false

/-- The block is filtered as a false positive. -/
def rowFiltered (settings : Settings) (env : RowEnv) (rowId : ℕ) (row : PendingRow) : Bool :=
  match disposition env.argon2 settings env.flush.difficulty (env.flush.stamp rowId) row with
  | .falsePositive => true
  | _ => false

/-- The call marks the row submitted. -/
def RowCall.settles : Option RowCall → Bool
  | some (.markSubmitted _ _) => true
  | _ => false

theorem settles_rowCall (settings : Settings) (env : RowEnv) (onShutdown : Bool) (rowId : ℕ)
    (row : PendingRow) : RowCall.settles (rowCall settings env onShutdown rowId row)
      = (rowAccepted settings env rowId row || rowFiltered settings env rowId row) := by
  unfold rowCall rowAccepted rowFiltered
  cases disposition env.argon2 settings env.flush.difficulty (env.flush.stamp rowId) row with
  | waiting blockMemoryCost => rfl
  | falsePositive => rfl
  | prepared hit memoryCost =>
    dsimp only
    cases hready : (Policy.readyToFlush hit.blockType (env.flush.minute rowId)).1 with
    | false => cases onShutdown <;> rfl
    | true =>
      rw [if_neg (by decide), Bool.true_and, Bool.or_false]
      unfold submitCall
      dsimp only
      split_ifs with haccepted
      · exact haccepted.symm
      all_goals
        rw [eq_false_of_ne_true haccepted]
        rfl

/-- `flush` counts the outcome as accepted. -/
def QueueFlusher.counted (outcome : FlushRowOutcome) : Bool :=
  outcome.flushed && !outcome.waitingDifficulty && !outcome.waitingXuni && !outcome.dropped

/-- The number that `flush` returns grows by the outcomes it counts. -/
theorem QueueFlusher.account_snd (acc : MetricsTracker × ℕ) (outcome : FlushRowOutcome) :
    (account acc outcome).2 = acc.2 + (counted outcome).toNat := by
  unfold account applyOutcome counted
  cases outcome.waitingDifficulty with
  | true => simp
  | false =>
    cases outcome.waitingXuni with
    | true => simp
    | false =>
      cases outcome.dropped with
      | true => simp
      | false =>
        cases outcome.flushed with
        | true => simp
        | false =>
          simp only [Bool.false_eq_true, if_false, Bool.false_and]
          split_ifs <;> rfl

/-- The counted outcomes are those of the blocks the pool took. -/
theorem counted_prepareRow (settings : Settings) (env : RowEnv) (onShutdown : Bool) (s : BlockStore)
    (rowId : ℕ) (row : PendingRow) :
    QueueFlusher.counted (prepareRow env.argon2 settings env.flush onShutdown s rowId row).2
      = rowAccepted settings env rowId row := by
  unfold prepareRow rowAccepted
  cases disposition env.argon2 settings env.flush.difficulty (env.flush.stamp rowId) row with
  | waiting blockMemoryCost => rfl
  | falsePositive => rfl
  | prepared hit memoryCost =>
    dsimp only
    by_cases hready : (Policy.readyToFlush hit.blockType (env.flush.minute rowId)).1 = false
    · rw [if_pos hready, hready]
      rfl
    · rw [if_neg hready, eq_true_of_ne_false hready, Bool.true_and]
      unfold submitRow
      dsimp only
      by_cases haccepted : submitAccepted (env.flush.reply rowId).status (env.flush.reply rowId).body
          = true
      · rw [if_pos haccepted, haccepted]
        rfl
      -- A block the pool did not take waits, or counts as rejected at most.
      rw [if_neg haccepted, eq_false_of_ne_true haccepted]
      split_ifs <;> rfl

/-- A row counts as flushed exactly when the pool took its block. -/
theorem counts_prepareRow (settings : Settings) (env : RowEnv) (onShutdown : Bool) (s : BlockStore)
    (rowId : ℕ) (row : PendingRow) (m : MetricsTracker) (n : ℕ) :
    (QueueFlusher.account (m, n)
      (prepareRow env.argon2 settings env.flush onShutdown s rowId row).2).2
      = n + (rowAccepted settings env rowId row).toNat := by
  rw [QueueFlusher.account_snd, counted_prepareRow]

/-! ### Workers and their rows -/

namespace SubmitPool

/-- A worker with the row of its id. -/
abbrev Cell := Worker × Option PendingRow

/-- Rows of `submitted_blocks`, lines of `rejected.jsonl`, and ids of rows that were marked submitted. -/
abbrev Log := Multiset SubmittedRow × Multiset RejectRecord × Multiset ℕ

/-- The row `mark_submitted` inserts. -/
def settledRow (now : ℤ) (row : PendingRow) (httpStatus : ℤ) (body : String) : SubmittedRow where
  key := row.key
  hashStr := row.hashStr
  blockType := row.blockType
  strategy := row.strategy
  attempts := row.attempts
  httpStatus := httpStatus
  responseBody := body
  submittedAt := now

/-- The row `record_direct_submit` inserts. -/
def directRow (now : ℤ) (hit : BlockHit) (httpStatus : ℤ) (body : String) : SubmittedRow where
  key := hit.key
  hashStr := hit.hashStr
  blockType := hit.blockType
  strategy := hit.strategy
  attempts := hit.attempts
  httpStatus := httpStatus
  responseBody := body
  submittedAt := now

/-- The line `log_rejection` appends. -/
def rejectLine (now : ℤ) (hit : BlockHit) (httpStatus : ℤ) (body : String) : RejectRecord where
  key := hit.key
  hashStr := hit.hashStr
  blockType := hit.blockType
  strategy := hit.strategy
  attempts := hit.attempts
  hps := hit.hps
  foundAt := hit.foundAt
  rejectedAt := now
  httpStatus := httpStatus
  responseBody := body
  source := "flush"
  category := resubmissionReason

/-- `UPDATE … WHERE … status = 'pending'` on one row. -/
def whilePending (f : PendingRow → PendingRow) (r : PendingRow) : PendingRow :=
  if r.isPending = true then f r else r

def setReason (reason : String) : PendingRow → PendingRow :=
  whilePending fun r => { r with queueReason := reason }

def count (reason : String) : PendingRow → PendingRow :=
  whilePending fun r =>
    { r with
      queueReason := PyStr.orElse reason resubmissionReason, rejectCount := r.rejectCount + 1 }

def settle (r : PendingRow) : PendingRow := { r with status := .submitted }

/-- A turn as its own row sees it. -/
def cellStep : Cell → Cell
  | (.calling _ (.markPendingReason reason), row) => (.done, row.map (setReason reason))
  | (.calling now (.markSubmitted httpStatus body), row) =>
    (match row with
      | none => .done
      | some r => .submitting now r httpStatus body, row)
  | (.calling now (.recordRejection hit httpStatus body reason), row) =>
    (match row.filter PendingRow.isPending with
      | none => .done
      | some r => .counting now (decide (r.rejectCount = 0)) hit httpStatus body reason, row)
  | (.submitting _ _ _ _, row) => (.done, row.map settle)
  | (.counting now first hit httpStatus body reason, row) =>
    (if first then .logging now hit httpStatus body else .done, row.map (count reason))
  | (.logging now hit httpStatus body, row) => (.recording now hit httpStatus body, row)
  | (.recording _ _ _ _, row) => (.done, row)
  | (.done, row) => (.done, row)

/-- What a turn adds. -/
def cellEmit (rowId : ℕ) : Cell → Log
  | (.submitting now r httpStatus body, _) => ({settledRow now r httpStatus body}, 0, {rowId})
  | (.logging now hit httpStatus body, _) => (0, {rejectLine now hit httpStatus body}, 0)
  | (.recording now hit httpStatus body, _) => ({directRow now hit httpStatus body}, 0, 0)
  | _ => 0

/-- What a first reject adds. -/
def noted (now : ℤ) (hit : BlockHit) (httpStatus : ℤ) (body : String) : Log :=
  ({directRow now hit httpStatus body}, {rejectLine now hit httpStatus body}, 0)

/-- The row in the end. -/
def cellFinal : Cell → Cell
  | (.calling _ (.markPendingReason reason), row) => (.done, row.map (setReason reason))
  | (.calling _ (.markSubmitted _ _), row) => (.done, row.map settle)
  | (.calling _ (.recordRejection _ _ _ reason), row) => (.done, row.map (count reason))
  | (.submitting _ _ _ _, row) => (.done, row.map settle)
  | (.counting _ _ _ _ _ reason, row) => (.done, row.map (count reason))
  | (_, row) => (.done, row)

/-- What is added until the end. -/
def cellRest (rowId : ℕ) : Cell → Log
  | (.calling now (.markSubmitted httpStatus body), some r) =>
    ({settledRow now r httpStatus body}, 0, {rowId})
  | (.calling now (.recordRejection hit httpStatus body _), some r) =>
    if r.isPending = true ∧ r.rejectCount = 0 then noted now hit httpStatus body else 0
  | (.submitting now r httpStatus body, _) => ({settledRow now r httpStatus body}, 0, {rowId})
  | (.counting now first hit httpStatus body _, _) =>
    if first = true then noted now hit httpStatus body else 0
  | (.logging now hit httpStatus body, _) => noted now hit httpStatus body
  | (.recording now hit httpStatus body, _) => ({directRow now hit httpStatus body}, 0, 0)
  | _ => 0

/-- The pool as workers with cells of their own. -/
def rowWorkers : Workers ℕ Cell Log where
  done a := a.1 = .done
  step _ := cellStep
  emit := cellEmit
  step_done := by
    rintro i ⟨w, row⟩ h
    obtain rfl : w = .done := h
    rfl
  emit_done := by
    rintro i ⟨w, row⟩ h
    obtain rfl : w = .done := h
    rfl

theorem map_count_of_filter {row : Option PendingRow} (h : row.filter PendingRow.isPending = none)
    (reason : String) : row.map (count reason) = row := by
  cases row with
  | none => rfl
  | some r =>
    rw [Option.filter_some] at h
    split_ifs at h with hpending
    exact congrArg some (if_neg hpending)

theorem cellFinal_step (a : Cell) : cellFinal (cellStep a) = cellFinal a := by
  obtain ⟨w, row⟩ := a
  cases w with
  | calling now call =>
    cases call with
    | markPendingReason reason => rfl
    | markSubmitted httpStatus body => cases row <;> rfl
    | recordRejection hit httpStatus body reason =>
      unfold cellStep
      dsimp only
      cases hfilter : row.filter PendingRow.isPending with
      | none => exact congrArg (Prod.mk Worker.done) (map_count_of_filter hfilter reason).symm
      | some r => rfl
  | submitting now r httpStatus body => rfl
  | counting now first hit httpStatus body reason => cases first <;> rfl
  | logging now hit httpStatus body => rfl
  | recording now hit httpStatus body => rfl
  | done => rfl

theorem cellRest_step (rowId : ℕ) (a : Cell) :
    cellEmit rowId a + cellRest rowId (cellStep a) = cellRest rowId a := by
  obtain ⟨w, row⟩ := a
  cases w with
  | calling now call =>
    show 0 + _ = _
    rw [zero_add]
    cases call with
    | markPendingReason reason => rfl
    | markSubmitted httpStatus body => cases row <;> rfl
    | recordRejection hit httpStatus body reason =>
      cases row with
      | none => rfl
      | some r =>
        have hstep : cellStep (.calling now (.recordRejection hit httpStatus body reason), some r)
            = (match (some r).filter PendingRow.isPending with
              | none => .done
              | some r => .counting now (decide (r.rejectCount = 0)) hit httpStatus body reason,
              some r) := rfl
        rw [hstep, Option.filter_some]
        by_cases hpending : r.isPending = true
        · rw [if_pos hpending]
          show (if decide (r.rejectCount = 0) = true then noted now hit httpStatus body else 0)
            = if r.isPending = true ∧ r.rejectCount = 0 then noted now hit httpStatus body else 0
          simp [hpending]
        · rw [if_neg hpending]
          exact (if_neg fun h => hpending h.1).symm
  | submitting now r httpStatus body => exact add_zero _
  | counting now first hit httpStatus body reason => cases first <;> exact zero_add _
  | logging now hit httpStatus body =>
    show ((0 : Multiset SubmittedRow) + _, _ + (0 : Multiset RejectRecord), (0 : Multiset ℕ) + 0) = _
    rw [zero_add, add_zero, zero_add]
    rfl
  | recording now hit httpStatus body => exact add_zero _
  | done => exact add_zero _

/-- Every worker gets to its end as if it were alone. -/
def rowForecast : rowWorkers.Forecast where
  final _ := cellFinal
  rest := cellRest
  final_step _ := cellFinal_step
  rest_step := cellRest_step
  final_done := by
    rintro i ⟨w, row⟩ h
    obtain rfl : w = .done := h
    rfl
  rest_done := by
    rintro i ⟨w, row⟩ h
    obtain rfl : w = .done := h
    rfl

/-! ### The pool as such workers -/

/-- Submitted rows and rejected lines without their order. -/
def logOf (s : BlockStore) (settled : List ℕ) : Log :=
  (Multiset.ofList (s.submittedBlocks.rows.map Prod.snd), Multiset.ofList s.rejectedJsonl,
    Multiset.ofList settled)

/-- The rows by id, and the log. -/
def abs (p : SubmitPool) : Workers.State ℕ Cell Log where
  cell rowId := (p.workers rowId, p.store.pendingBlocks.row? rowId)
  log := logOf p.store p.settled

theorem row?_mark {f : PendingRow → PendingRow} (t : Table PendingRow) (rowId j : ℕ) :
    (t.update (fun i r => decide (i = rowId) && r.isPending) f).row? j =
      if j = rowId then (t.row? rowId).map (whilePending f) else t.row? j := by
  rw [Table.row?_update]
  split_ifs with hj
  · subst hj
    refine congrArg (Option.map · (t.row? j)) (funext fun r => ?_)
    rw [decide_eq_true rfl, Bool.true_and]
    rfl
  · have hother : ∀ r : PendingRow,
        (if (decide (j = rowId) && r.isPending) = true then f r else r) = r := fun r => by
      rw [decide_eq_false hj, Bool.false_and]
      exact if_neg Bool.false_ne_true
    simp only [hother, Option.map_id']

theorem row?_settle (t : Table PendingRow) (rowId j : ℕ) :
    (t.update (fun i _ => decide (i = rowId)) settle).row? j =
      if j = rowId then (t.row? rowId).map settle else t.row? j := by
  rw [Table.row?_update]
  by_cases hj : j = rowId
  · subst hj
    rw [if_pos rfl]
    refine congrArg (Option.map · (t.row? j)) (funext fun r => ?_)
    exact if_pos (decide_eq_true rfl)
  · rw [if_neg hj]
    have hother : ∀ r : PendingRow, (if decide (j = rowId) = true then settle r else r) = r :=
      fun r => if_neg fun h => hj (of_decide_eq_true h)
    simp only [hother, Option.map_id']

/-- A step changes its own row only, as the cell does. -/
theorem row?_step (w : Worker) (rowId j : ℕ) (s : BlockStore) :
    (w.step rowId s).2.pendingBlocks.row? j =
      if j = rowId then (cellStep (w, s.pendingBlocks.row? rowId)).2
      else s.pendingBlocks.row? j := by
  have hsame : s.pendingBlocks.row? j =
      if j = rowId then s.pendingBlocks.row? rowId else s.pendingBlocks.row? j := by
    split_ifs with hj
    · rw [hj]
    · rfl
  cases w with
  | calling now call =>
    cases call with
    | markPendingReason reason => exact row?_mark s.pendingBlocks rowId j
    | markSubmitted httpStatus body =>
      unfold Worker.step
      dsimp only
      split
      · exact hsame
      · exact hsame
    | recordRejection hit httpStatus body reason =>
      unfold Worker.step
      dsimp only
      split
      · exact hsame
      · exact hsame
  | submitting now r httpStatus body => exact row?_settle s.pendingBlocks rowId j
  | counting now first hit httpStatus body reason => exact row?_mark s.pendingBlocks rowId j
  | logging now hit httpStatus body => exact hsame
  | recording now hit httpStatus body => exact hsame
  | done => exact hsame

/-- What a worker reads is its own row. -/
theorem worker_step (w : Worker) (rowId : ℕ) (s : BlockStore) :
    (w.step rowId s).1 = (cellStep (w, s.pendingBlocks.row? rowId)).1 := by
  cases w with
  | calling now call =>
    cases call with
    | markPendingReason reason => rfl
    | markSubmitted httpStatus body =>
      have hfetch := s.pendingBlocks.fetchOne_id_and rowId fun _ => true
      simp only [Bool.and_true] at hfetch
      unfold Worker.step cellStep
      dsimp only
      rw [hfetch]
      cases s.pendingBlocks.row? rowId <;> rfl
    | recordRejection hit httpStatus body reason =>
      unfold Worker.step cellStep
      dsimp only
      rw [s.pendingBlocks.fetchOne_id_and rowId PendingRow.isPending]
      cases (s.pendingBlocks.row? rowId).filter PendingRow.isPending <;> rfl
  | submitting now r httpStatus body => rfl
  | counting now first hit httpStatus body reason => rfl
  | logging now hit httpStatus body => rfl
  | recording now hit httpStatus body => rfl
  | done => rfl

/-- A step adds what the cell emits. -/
theorem log_step (p : SubmitPool) (rowId : ℕ) :
    (p.step rowId).abs.log = p.abs.log
      + cellEmit rowId (p.workers rowId, p.store.pendingBlocks.row? rowId) := by
  have hlog : (p.step rowId).abs.log = logOf ((p.workers rowId).step rowId p.store).2
      (p.settled ++ (p.workers rowId).settles rowId) := rfl
  rw [hlog, show p.abs.log = logOf p.store p.settled from rfl]
  generalize p.workers rowId = w
  have hquiet : ∀ {s : BlockStore}, s.submittedBlocks = p.store.submittedBlocks →
      s.rejectedJsonl = p.store.rejectedJsonl →
      logOf s (p.settled ++ []) = logOf p.store p.settled + 0 := by
    intro s hsubmitted hrejected
    unfold logOf
    rw [hsubmitted, hrejected, List.append_nil, add_zero]
  cases w with
  | calling now call =>
    cases call with
    | markPendingReason reason => exact hquiet rfl rfl
    | markSubmitted httpStatus body =>
      unfold Worker.step
      dsimp only
      split
      · exact hquiet rfl rfl
      · exact hquiet rfl rfl
    | recordRejection hit httpStatus body reason =>
      unfold Worker.step
      dsimp only
      split
      · exact hquiet rfl rfl
      · exact hquiet rfl rfl
  | submitting now r httpStatus body =>
    unfold Worker.step Worker.settles cellEmit logOf
    dsimp only
    rw [Table.rows_insert, List.map_append, Prod.mk_add_mk, Prod.mk_add_mk, add_zero,
      ← Multiset.coe_add, ← Multiset.coe_add]
    rfl
  | counting now first hit httpStatus body reason => exact hquiet rfl rfl
  | logging now hit httpStatus body =>
    unfold Worker.step Worker.settles cellEmit logOf BlockStore.logRejection
    dsimp only
    rw [List.append_nil, Prod.mk_add_mk, Prod.mk_add_mk, add_zero, add_zero, ← Multiset.coe_add]
    rfl
  | recording now hit httpStatus body =>
    unfold Worker.step Worker.settles cellEmit logOf BlockStore.recordDirectSubmit
    dsimp only
    rw [List.append_nil, Table.rows_insert, List.map_append, Prod.mk_add_mk, Prod.mk_add_mk, add_zero,
      add_zero, ← Multiset.coe_add]
    rfl
  | done => exact hquiet rfl rfl

/-- **The pool is a system of workers with cells of their own.** -/
theorem abs_step (p : SubmitPool) (rowId : ℕ) : (p.step rowId).abs = rowWorkers.turn p.abs rowId := by
  refine Workers.State.ext (funext fun j => ?_) (log_step p rowId)
  show (Function.update p.workers rowId ((p.workers rowId).step rowId p.store).1 j,
      ((p.workers rowId).step rowId p.store).2.pendingBlocks.row? j)
    = Function.update p.abs.cell rowId
      (cellStep (p.workers rowId, p.store.pendingBlocks.row? rowId)) j
  rw [row?_step, worker_step]
  by_cases hj : j = rowId
  · subst hj
    rw [Function.update_self, Function.update_self, if_pos rfl]
  · rw [Function.update_of_ne hj, Function.update_of_ne hj, if_neg hj]
    rfl

/-! ### One worker alone -/

theorem startWorker_of_pending (h : (rowId, row) ∈ s.pending) :
    startWorker settings envs onShutdown s rowId = .begin ((envs rowId).flush.stamp rowId)
      (rowCall settings (envs rowId) onShutdown rowId row) := by
  obtain ⟨hmem, hpending⟩ := mem_pending.mp h
  unfold startWorker
  rw [Table.fetchOne_id hmem (PendingRow.isPending_iff.mpr hpending)]

theorem startWorker_of_not_pending (h : ∀ x ∈ s.pending, x.1 ≠ rowId) :
    startWorker settings envs onShutdown s rowId = .done := by
  have hnone : s.pendingBlocks.fetchOne (fun i r => decide (i = rowId) && r.isPending) = none := by
    refine Table.fetchOne_eq_none.mpr fun x hx => ?_
    cases hpending : x.2.isPending with
    | false => exact Bool.and_false _
    | true =>
      have hmem : x ∈ s.pending := Table.mem_select.mpr ⟨hx, hpending⟩
      rw [decide_eq_false (h x hmem), Bool.false_and]
  unfold startWorker
  rw [hnone]

/-- Turns of one worker. -/
def alone (rowId : ℕ) (x : Worker × BlockStore) : Worker × BlockStore := x.1.step rowId x.2

theorem final_replicate (p : SubmitPool) (rowId n : ℕ) :
    (Run.final step p (List.replicate n rowId)).store
      = ((alone rowId)^[n] (p.workers rowId, p.store)).2 ∧
    (Run.final step p (List.replicate n rowId)).workers
      = Function.update p.workers rowId ((alone rowId)^[n] (p.workers rowId, p.store)).1 := by
  induction n generalizing p with
  | zero => exact ⟨rfl, (Function.update_eq_self rowId p.workers).symm⟩
  | succ n ih =>
    obtain ⟨hstore, hworkers⟩ := ih (p.step rowId)
    have hnext : ((p.step rowId).workers rowId, (p.step rowId).store)
        = alone rowId (p.workers rowId, p.store) := by
      show (Function.update p.workers rowId _ rowId, _) = _
      rw [Function.update_self]
      rfl
    rw [hnext] at hstore hworkers
    rw [List.replicate_succ, Run.final_cons, Function.iterate_succ_apply]
    refine ⟨hstore, hworkers.trans ?_⟩
    show Function.update (Function.update p.workers rowId _) rowId _ = _
    rw [Function.update_idem]

/-- Four turns are a whole call. -/
theorem alone_begin (rowId : ℕ) (now : ℤ) (call : Option RowCall) (s : BlockStore) :
    (alone rowId)^[4] (.begin now call, s)
      = (.done, s.applyOption (call.map (RowCall.storeOp now rowId))) := by
  cases call with
  | none => rfl
  | some call =>
    cases call with
    | markPendingReason reason => rfl
    | markSubmitted httpStatus body =>
      show (alone rowId)^[3] (Worker.step rowId s (.calling now (.markSubmitted httpStatus body)))
        = (.done, s.markSubmitted now rowId httpStatus body)
      unfold Worker.step BlockStore.markSubmitted
      dsimp only
      cases s.pendingBlocks.fetchOne fun i _ => decide (i = rowId) with
      | none => rfl
      | some x => rfl
    | recordRejection hit httpStatus body reason =>
      show (alone rowId)^[3]
          (Worker.step rowId s (.calling now (.recordRejection hit httpStatus body reason)))
        = (.done, (s.recordRejection now hit httpStatus body "flush" (some rowId) (some reason)).1)
      unfold Worker.step BlockStore.recordRejection
      dsimp only
      cases s.pendingBlocks.fetchOne
          fun i (r : PendingRow) => decide (i = rowId) && r.isPending with
      | none => rfl
      | some x =>
        dsimp only
        by_cases hfirst : x.2.rejectCount = 0
        · rw [if_pos hfirst, decide_eq_true hfirst]
          rfl
        · rw [if_neg hfirst, decide_eq_false hfirst]
          rfl

end SubmitPool

end XenMiner
