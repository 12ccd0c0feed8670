import XenMiner.BlockQueue.Equiv.ParallelFlush
import XenMiner.BlockQueue.RaisingFlush
import XenMiner.Monitoring.Equiv.Metrics

/-!
# Accepted blocks and raising workers

`flush` counts the accepted blocks behind the gather.  When no worker raises, each block that the pool
took and that was marked submitted is counted once.  When one raises, none is counted, though the other
workers may have marked theirs (`acceptsCounted_iff`).
-/

namespace XenMiner

open BlockStore SubmitPool
open Periods (miningDay)

variable {settings : Settings} {envs : ℕ → RowEnv} {raises : ℕ → Option ℕ} {clock : ℕ → ℤ}
  {onShutdown : Bool} {q : QueueFlusher} {t : LocalMiningStatsTracker} {order : List ℕ} {e : FlushEnd}

/-! ### A task and its row -/

namespace RaisingPool

/-- A turn as its own row sees it. -/
def taskStep (c : Task × Option PendingRow) : Task × Option PendingRow :=
  match c.1.future with
  | .running =>
    if c.1.left = some 0 then ({ c.1 with future := .raised }, c.2)
    else if c.1.worker = .done then
      ({ c.1 with future := if c.1.left = none then .returned else .raised }, c.2)
    else
      ({ c.1 with worker := (cellStep (c.1.worker, c.2)).1, left := c.1.left.map (· - 1) },
        (cellStep (c.1.worker, c.2)).2)
  | .returned | .raised => c

/-- The task and the row of an id. -/
def cell (p : RaisingPool) (rowId : ℕ) : Task × Option PendingRow :=
  (p.tasks rowId, p.store.pendingBlocks.row? rowId)

theorem task_step (t : Task) (rowId : ℕ) (s : BlockStore) :
    (t.step rowId s).1 = (taskStep (t, s.pendingBlocks.row? rowId)).1 := by
  unfold Task.step taskStep
  dsimp only
  cases t.future with
  | running =>
    dsimp only
    by_cases hzero : t.left = some 0
    · rw [if_pos hzero, if_pos hzero]
    rw [if_neg hzero, if_neg hzero]
    by_cases hdone : t.worker = .done
    · rw [if_pos hdone, if_pos hdone]
    rw [if_neg hdone, if_neg hdone, worker_step t.worker rowId s]
  | returned => rfl
  | raised => rfl

theorem task_row?_step (t : Task) (rowId j : ℕ) (s : BlockStore) :
    (t.step rowId s).2.pendingBlocks.row? j =
      if j = rowId then (taskStep (t, s.pendingBlocks.row? rowId)).2
      else s.pendingBlocks.row? j := by
  have hsame : s.pendingBlocks.row? j =
      if j = rowId then s.pendingBlocks.row? rowId else s.pendingBlocks.row? j := by
    split_ifs with hj
    · rw [hj]
    · rfl
  unfold Task.step taskStep
  dsimp only
  cases t.future with
  | running =>
    dsimp only
    by_cases hzero : t.left = some 0
    · rw [if_pos hzero, if_pos hzero]
      exact hsame
    rw [if_neg hzero, if_neg hzero]
    by_cases hdone : t.worker = .done
    · rw [if_pos hdone, if_pos hdone]
      exact hsame
    rw [if_neg hdone, if_neg hdone]
    exact row?_step t.worker rowId j s
  | returned => exact hsame
  | raised => exact hsame

/-- Turns of other workers leave a task and its row alone. -/
theorem cell_step (p : RaisingPool) (i j : ℕ) :
    (p.step i).cell j = if j = i then taskStep (p.cell i) else p.cell j := by
  show (Function.update p.tasks i ((p.tasks i).step i p.store).1 j,
    ((p.tasks i).step i p.store).2.pendingBlocks.row? j) = _
  rw [task_step, task_row?_step]
  by_cases hj : j = i
  · subst hj
    rw [Function.update_self, if_pos rfl, if_pos rfl]
    rfl
  · rw [Function.update_of_ne hj, if_neg hj, if_neg hj]
    rfl

theorem cell_run (p : RaisingPool) (order : List ℕ) (j : ℕ) :
    (Run.final step p order).cell j = taskStep^[order.count j] (p.cell j) :=
  Run.final_cell cell_step j

/-! ### Futures -/

/-- What a future says about the exception of its worker. -/
structure Known (raises : Option ℕ) (t : Task) : Prop where
  left : t.left = none ↔ raises = none
  returned : t.future = .returned → raises = none
  raised : t.future = .raised → raises ≠ none

theorem Known.step {c : Task × Option PendingRow} {raises : Option ℕ} (h : Known raises c.1) :
    Known raises (taskStep c).1 := by
  unfold taskStep
  cases hfuture : c.1.future with
  | running =>
    dsimp only
    split_ifs with hzero hdone hnone
    · refine ⟨h.left, fun heq => ?_, fun _ hraises => ?_⟩
      · cases heq
      · rw [h.left.mpr hraises] at hzero
        cases hzero
    · exact ⟨h.left, fun _ => h.left.mp hnone, fun heq => by cases heq⟩
    · exact ⟨h.left, fun heq => (by cases heq), fun _ hraises => hnone (h.left.mpr hraises)⟩
    · refine ⟨?_, fun heq => ?_, fun heq => ?_⟩
      · rw [Option.map_eq_none_iff]
        exact h.left
      · exact absurd (hfuture.symm.trans heq) (by decide)
      · exact absurd (hfuture.symm.trans heq) (by decide)
  | returned => exact h
  | raised => exact h

theorem Known.iterate {raises : Option ℕ} (n : ℕ) {c : Task × Option PendingRow}
    (h : Known raises c.1) : Known raises (taskStep^[n] c).1 := by
  induction n generalizing c with
  | zero => exact h
  | succ n ih => exact ih h.step

/-- All futures of the rows have returned, if the gather has. -/
theorem gather_returned {tasks : ℕ → Task} {ids : List ℕ} (h : gather tasks ids = .returned) :
    ∀ i ∈ ids, (tasks i).future = .returned := by
  induction ids with
  | nil => exact fun i hi => absurd hi List.not_mem_nil
  | cons i ids ih =>
    rw [gather] at h
    split at h
    · next hi => exact List.forall_mem_cons.mpr ⟨hi, ih h⟩
    · next hi => exact absurd h hi

/-- Some future has raised, if the gather has. -/
theorem gather_raised {tasks : ℕ → Task} {ids : List ℕ} (h : gather tasks ids = .raised) :
    ∃ i ∈ ids, (tasks i).future = .raised := by
  induction ids with
  | nil => cases h
  | cons i ids ih =>
    rw [gather] at h
    split at h
    · obtain ⟨j, hj, hraised⟩ := ih h
      exact ⟨j, List.mem_cons_of_mem _ hj, hraised⟩
    · exact ⟨i, List.mem_cons_self, h⟩

/-! ### The row of an accepted block -/

/-- The worker of an accepted block comes to its second statement, the one that settles. -/
def SettlesBy (raises : Option ℕ) (turns : ℕ) : Prop :=
  2 ≤ turns ∧ ∀ k, raises = some k → 2 ≤ k

instance (raises : Option ℕ) (turns : ℕ) : Decidable (SettlesBy raises turns) :=
  match raises with
  | none => decidable_of_iff (2 ≤ turns) (by simp [SettlesBy])
  | some k => decidable_of_iff (2 ≤ turns ∧ 2 ≤ k) (by simp [SettlesBy])

/-- A future that is known does not change, and its row neither. -/
theorem iterate_of_known {c : Task × Option PendingRow} (h : c.1.future ≠ .running) (n : ℕ) :
    taskStep^[n] c = c := by
  refine Function.iterate_fixed ?_ n
  unfold taskStep
  cases hfuture : c.1.future with
  | running => exact absurd hfuture h
  | returned => rfl
  | raised => rfl

/-- Behind its last statement a worker leaves its row alone. -/
theorem iterate_of_done {c : Task × Option PendingRow} (h : c.1.worker = .done) (n : ℕ) :
    (taskStep^[n] c).2 = c.2 := by
  induction n generalizing c with
  | zero => rfl
  | succ n ih =>
    have hstep : (taskStep c).1.worker = .done ∧ (taskStep c).2 = c.2 := by
      unfold taskStep
      split
      · split_ifs
        · exact ⟨h, rfl⟩
        · exact ⟨h, rfl⟩
        · exact ⟨h, rfl⟩
      · exact ⟨h, rfl⟩
      · exact ⟨h, rfl⟩
    rw [Function.iterate_succ_apply, ih hstep.1, hstep.2]

/-- The task of a row whose worker comes to `mark_submitted`. -/
def submitTask (raises : Option ℕ) (now httpStatus : ℤ) (body : String) : Task where
  worker := .calling now (.markSubmitted httpStatus body)
  left := raises

/-- **The turns of a worker that settles its row**: the first reads the row, the second writes it. -/
theorem submitTask_turns (raises : Option ℕ) (now httpStatus : ℤ) (body : String) (row : PendingRow)
    (n : ℕ) :
    (SettlesBy raises n ∧
      (taskStep^[n] (submitTask raises now httpStatus body, some row)).2 = some (settle row)) ∨
    (¬ SettlesBy raises n ∧
      (taskStep^[n] (submitTask raises now httpStatus body, some row)).2 = some row ∧
      (taskStep^[n] (submitTask raises now httpStatus body, some row)).1.future ≠ .returned) := by
  -- two turns decide: behind them the worker has raised or is done
  match n with
  | 0 => exact Or.inr ⟨fun h => absurd h.1 (by decide), rfl, by simp [submitTask]⟩
  | 1 =>
    refine Or.inr ⟨fun h => absurd h.1 (by decide), ?_⟩
    rw [Function.iterate_one]
    by_cases hzero : raises = some 0
    · simp [taskStep, submitTask, hzero]
    · simp [taskStep, submitTask, hzero, cellStep]
  | n + 2 =>
    rw [Function.iterate_succ_apply, Function.iterate_succ_apply]
    by_cases hzero : raises = some 0
    · -- The worker raises before it reads the row.
      right
      have hfirst : taskStep (submitTask raises now httpStatus body, some row)
          = ({ submitTask raises now httpStatus body with future := .raised }, some row) := by
        simp [taskStep, submitTask, hzero]
      refine ⟨fun h => absurd (h.2 0 hzero) (by decide), ?_⟩
      rw [hfirst, iterate_of_known (by simp [taskStep]) n]
      simp [taskStep]
    have hfirst : taskStep (submitTask raises now httpStatus body, some row)
        = (⟨.submitting now row httpStatus body, raises.map (· - 1), .running⟩, some row) := by
      simp [taskStep, submitTask, hzero, cellStep]
    rw [hfirst]
    by_cases hone : raises = some 1
    · -- It has read the row and raises before it writes.
      right
      refine ⟨fun h => absurd (h.2 1 hone) (by decide), ?_⟩
      rw [iterate_of_known (by simp [taskStep, hone]) n]
      simp [taskStep, hone]
    · -- It writes the row, whether it raises later or not.
      left
      have hleft : raises.map (· - 1) ≠ some 0 := by
        intro h
        obtain ⟨k, rfl, hk⟩ := Option.map_eq_some_iff.mp h
        have hk' : k = 0 ∨ k = 1 := by omega
        rcases hk' with rfl | rfl
        · exact hzero rfl
        · exact hone rfl
      have hlate : ∀ k, raises = some k → 2 ≤ k := by
        rintro k rfl
        have hk0 : k ≠ 0 := fun h => hzero (congrArg some h)
        have hk1 : k ≠ 1 := fun h => hone (congrArg some h)
        omega
      refine ⟨⟨Nat.le_add_left 2 n, hlate⟩, ?_⟩
      rw [iterate_of_done (by simp [taskStep, hleft, cellStep]) n]
      simp [taskStep, hleft, cellStep]

end RaisingPool

/-! ### The accounting -/

namespace QueueFlusher

open RaisingPool

theorem acceptedFlush_account (acc : MetricsTracker × ℕ) (outcome : FlushRowOutcome) :
    (account acc outcome).1.stats.acceptedFlush =
      if counted outcome = true then acc.1.stats.acceptedFlush.inc outcome.kind
      else acc.1.stats.acceptedFlush := by
  unfold account applyOutcome counted
  cases outcome.waitingDifficulty with
  | true => simp
  | false =>
    cases outcome.waitingXuni with
    | true => simp
    | false =>
      cases outcome.dropped with
      | true => simp [MetricsTracker.recordDroppedFlush]
      | false =>
        cases outcome.flushed with
        | true => simp [MetricsTracker.recordAcceptedFlush]
        | false =>
          -- a reject, or nothing that is counted
          simp only [Bool.false_eq_true, if_false, Bool.false_and]
          split_ifs
          · unfold MetricsTracker.recordRejectedFlush
            split_ifs <;> rfl
          · rfl

theorem recordOutcome_eq (clock : ℕ → ℤ) (t : LocalMiningStatsTracker) (outcome : FlushRowOutcome) :
    recordOutcome clock t outcome =
      if counted outcome = true then t.recordAccept outcome.kind (clock outcome.rowId) else t := by
  unfold recordOutcome counted
  cases outcome.waitingDifficulty with
  | true => simp
  | false =>
    cases outcome.waitingXuni with
    | true => simp
    | false =>
      cases outcome.dropped with
      | true => simp
      | false => cases outcome.flushed <;> simp

theorem rowId_prepareRow (A : Argon2Common.Argon2) (settings : Settings) (env : FlushEnv)
    (onShutdown : Bool) (s : BlockStore) (rowId : ℕ) (row : PendingRow) :
    (prepareRow A settings env onShutdown s rowId row).2.rowId = rowId := by
  unfold prepareRow
  cases disposition A settings env.difficulty (env.stamp rowId) row with
  | waiting blockMemoryCost => rfl
  | falsePositive => rfl
  | prepared hit memoryCost =>
    dsimp only
    split_ifs
    · rfl
    · rfl
    · unfold submitRow
      dsimp only
      split_ifs <;> rfl

/-- The rows whose block the pool took. -/
def acceptedRows (settings : Settings) (q : QueueFlusher) (envs : ℕ → RowEnv) :
    List (ℕ × PendingRow) :=
  q.store.pending.filter fun x => rowAccepted settings (envs x.1) x.1 x.2

/-- The row is marked submitted. -/
def isSettled (s : BlockStore) (rowId : ℕ) : Bool :=
  (s.pendingBlocks.row? rowId).any fun r => decide (r.status = .submitted)

/-- The rows whose block the pool took and that are marked submitted in the end. -/
def settledAccepts (settings : Settings) (q : QueueFlusher) (envs : ℕ → RowEnv) (s : BlockStore) :
    List (ℕ × PendingRow) :=
  (q.acceptedRows settings envs).filter fun x => isSettled s x.1

/-- The kinds under which rows are counted. -/
def kinds (settings : Settings) (q : QueueFlusher) (envs : ℕ → RowEnv) (onShutdown : Bool)
    (rows : List (ℕ × PendingRow)) : List String :=
  rows.map fun x => (q.rowOutcome settings envs onShutdown x).kind

/-- Each accepted block that was marked submitted is counted once, by its kind in the metrics and on
its day in the saved accepts, and nothing else is. -/
structure AcceptsCounted (settings : Settings) (q : QueueFlusher) (t : LocalMiningStatsTracker)
    (envs : ℕ → RowEnv) (clock : ℕ → ℤ) (onShutdown : Bool) (e : FlushEnd) : Prop where
  metrics : e.metrics.stats.acceptedFlush =
    (q.kinds settings envs onShutdown (q.settledAccepts settings envs e.store)).foldl KindCounts.inc
      q.metrics.stats.acceptedFlush
  localStats : ∀ day, e.localStats.dayCounts day =
    (q.kinds settings envs onShutdown ((q.settledAccepts settings envs e.store).filter
      fun x => decide (day = miningDay (clock x.1)))).foldl KindCounts.inc (t.dayCounts day)

theorem counted_rowOutcome (settings : Settings) (q : QueueFlusher) (envs : ℕ → RowEnv)
    (onShutdown : Bool) (x : ℕ × PendingRow) :
    counted (q.rowOutcome settings envs onShutdown x) = rowAccepted settings (envs x.1) x.1 x.2 :=
  counted_prepareRow settings (envs x.1) onShutdown q.store x.1 x.2

theorem rowId_rowOutcome (settings : Settings) (q : QueueFlusher) (envs : ℕ → RowEnv)
    (onShutdown : Bool) (x : ℕ × PendingRow) :
    (q.rowOutcome settings envs onShutdown x).rowId = x.1 :=
  rowId_prepareRow (envs x.1).argon2 settings (envs x.1).flush onShutdown q.store x.1 x.2

theorem kinds_cons (settings : Settings) (q : QueueFlusher) (envs : ℕ → RowEnv) (onShutdown : Bool)
    (x : ℕ × PendingRow) (rows : List (ℕ × PendingRow)) :
    q.kinds settings envs onShutdown (x :: rows) =
      (q.rowOutcome settings envs onShutdown x).kind :: q.kinds settings envs onShutdown rows :=
  List.map_cons

theorem foldl_acceptedFlush (settings : Settings) (q : QueueFlusher) (envs : ℕ → RowEnv)
    (onShutdown : Bool) (rows : List (ℕ × PendingRow)) (acc : MetricsTracker × ℕ) :
    ((rows.map (q.rowOutcome settings envs onShutdown)).foldl account acc).1.stats.acceptedFlush =
      (q.kinds settings envs onShutdown (rows.filter fun x =>
        rowAccepted settings (envs x.1) x.1 x.2)).foldl KindCounts.inc acc.1.stats.acceptedFlush := by
  induction rows generalizing acc with
  | nil => rfl
  | cons x rows ih =>
    rw [List.map_cons, List.foldl_cons, ih, acceptedFlush_account, List.filter_cons,
      counted_rowOutcome]
    by_cases haccepted : rowAccepted settings (envs x.1) x.1 x.2 = true
    · rw [if_pos haccepted, if_pos haccepted, kinds_cons, List.foldl_cons]
    · rw [if_neg haccepted, if_neg haccepted]

theorem foldl_dayCounts (settings : Settings) (q : QueueFlusher) (envs : ℕ → RowEnv)
    (clock : ℕ → ℤ) (onShutdown : Bool) (rows : List (ℕ × PendingRow)) (t : LocalMiningStatsTracker)
    (day : ℤ) :
    ((rows.map (q.rowOutcome settings envs onShutdown)).foldl (recordOutcome clock) t).dayCounts day =
      (q.kinds settings envs onShutdown ((rows.filter fun x =>
        rowAccepted settings (envs x.1) x.1 x.2).filter
          fun x => decide (day = miningDay (clock x.1)))).foldl KindCounts.inc (t.dayCounts day) := by
  induction rows generalizing t with
  | nil => rfl
  | cons x rows ih =>
    rw [List.map_cons, List.foldl_cons, ih, recordOutcome_eq, List.filter_cons,
      counted_rowOutcome, rowId_rowOutcome]
    by_cases haccepted : rowAccepted settings (envs x.1) x.1 x.2 = true
    · rw [if_pos haccepted, if_pos haccepted, List.filter_cons,
        LocalMiningStatsTracker.dayCounts_recordAccept]
      by_cases hday : day = miningDay (clock x.1)
      · rw [if_pos hday, if_pos (decide_eq_true hday), kinds_cons, List.foldl_cons]
      · rw [if_neg hday, if_neg (by simpa using hday)]
    · rw [if_neg haccepted, if_neg haccepted]

/-! ### Rows in a flush -/

theorem rowCall_of_accepted {env : RowEnv} {rowId : ℕ} {row : PendingRow}
    (h : rowAccepted settings env rowId row = true) :
    rowCall settings env onShutdown rowId row =
      some (.markSubmitted (env.flush.reply rowId).status (env.flush.reply rowId).body) := by
  unfold rowAccepted at h
  unfold rowCall
  cases hdisposition : disposition env.argon2 settings env.flush.difficulty
      (env.flush.stamp rowId) row with
  | waiting blockMemoryCost => simp [hdisposition] at h
  | falsePositive => simp [hdisposition] at h
  | prepared hit memoryCost =>
    simp only [hdisposition, Bool.and_eq_true] at h
    dsimp only
    rw [if_neg (by simp [h.1])]
    exact if_pos h.2

theorem start_task {x : ℕ × PendingRow} (hx : x ∈ q.store.pending) :
    (RaisingPool.start settings envs raises onShutdown q.store).cell x.1 =
      ({ worker := .begin ((envs x.1).flush.stamp x.1)
          (rowCall settings (envs x.1) onShutdown x.1 x.2)
         left := raises x.1 }, some x.2) := by
  have hrow : q.store.pendingBlocks.row? x.1 = some x.2 :=
    Table.row?_eq_some.mpr (mem_pending.mp hx).1
  show (({ worker := startWorker settings envs onShutdown q.store x.1, left := raises x.1 } : Task),
    q.store.pendingBlocks.row? x.1) = _
  rw [startWorker_of_pending hx, hrow]

theorem known_runTasks {x : ℕ × PendingRow} (hx : x ∈ q.store.pending) :
    Known (raises x.1) ((q.runTasks settings envs raises onShutdown order).tasks x.1) := by
  have hcell := cell_run (RaisingPool.start settings envs raises onShutdown q.store) order x.1
  have hstart : Known (raises x.1)
      ((RaisingPool.start settings envs raises onShutdown q.store).cell x.1).1 := by
    rw [start_task hx]
    exact ⟨Iff.rfl, fun h => (by cases h), fun h => (by cases h)⟩
  have hknown := hstart.iterate (order.count x.1)
  rw [← hcell] at hknown
  exact hknown

/-- An accepted block is marked submitted when its worker came to that, and not before its future
returns. -/
theorem isSettled_runTasks {x : ℕ × PendingRow} (hx : x ∈ q.store.pending)
    (haccepted : rowAccepted settings (envs x.1) x.1 x.2 = true) :
    (isSettled (q.runTasks settings envs raises onShutdown order).store x.1 = true ↔
        SettlesBy (raises x.1) (order.count x.1)) ∧
      (((q.runTasks settings envs raises onShutdown order).tasks x.1).future = .returned →
        SettlesBy (raises x.1) (order.count x.1)) := by
  have hcell := cell_run (RaisingPool.start settings envs raises onShutdown q.store) order x.1
  rw [start_task hx, rowCall_of_accepted haccepted] at hcell
  have htask : ((q.runTasks settings envs raises onShutdown order).tasks x.1) = _ :=
    congrArg Prod.fst hcell
  have hrow : (q.runTasks settings envs raises onShutdown order).store.pendingBlocks.row? x.1 = _ :=
    congrArg Prod.snd hcell
  unfold isSettled
  rw [htask, hrow]
  rcases submitTask_turns (raises x.1) ((envs x.1).flush.stamp x.1)
      ((envs x.1).flush.reply x.1).status ((envs x.1).flush.reply x.1).body x.2
      (order.count x.1) with ⟨hsettles, hend⟩ | ⟨hnot, hend, hfuture⟩
  · refine ⟨iff_of_true ?_ hsettles, fun _ => hsettles⟩
    refine (congrArg (Option.any _) hend).trans ?_
    simp [settle]
  · refine ⟨iff_of_false ?_ hnot, fun h => absurd h hfuture⟩
    intro hany
    have hstatus := (congrArg (Option.any _) hend).symm.trans hany
    simp [(mem_pending.mp hx).2] at hstatus

/-! ### The flush -/

/-- A flush that no worker left early has settled all accepted blocks, and counts them. -/
theorem acceptsCounted_of_returned
    (hgather : gather (q.runTasks settings envs raises onShutdown order).tasks
      (q.store.pending.map Prod.fst) = .returned)
    (hend : q.flushRaising settings t envs raises clock onShutdown order = some e) :
    AcceptsCounted settings q t envs clock onShutdown e := by
  unfold flushRaising at hend
  simp only [hgather, Option.some.injEq] at hend
  have hall : q.settledAccepts settings envs
      (q.runTasks settings envs raises onShutdown order).store = q.acceptedRows settings envs := by
    refine List.filter_eq_self.mpr fun x hx => ?_
    obtain ⟨hpending, haccepted⟩ := List.mem_filter.mp hx
    have hreturned := gather_returned hgather x.1 (List.mem_map_of_mem hpending)
    have hsettles := (isSettled_runTasks hpending haccepted).2 hreturned
    exact (isSettled_runTasks hpending haccepted).1.mpr hsettles
  subst hend
  constructor
  · dsimp only
    rw [hall]
    exact foldl_acceptedFlush settings q envs onShutdown q.store.pending (q.metrics, 0)
  · intro day
    dsimp only
    rw [hall]
    exact foldl_dayCounts settings q envs clock onShutdown q.store.pending t day

/-- A flush that raised counts nothing. -/
theorem acceptsCounted_iff_of_raised
    (hgather : gather (q.runTasks settings envs raises onShutdown order).tasks
      (q.store.pending.map Prod.fst) = .raised)
    (hend : q.flushRaising settings t envs raises clock onShutdown order = some e) :
    AcceptsCounted settings q t envs clock onShutdown e ↔
      q.settledAccepts settings envs (q.runTasks settings envs raises onShutdown order).store = [] := by
  unfold flushRaising at hend
  simp only [hgather, Option.some.injEq] at hend
  subst hend
  constructor
  · intro hcounted
    -- nothing was counted, so the counts agree only if there was nothing to count
    have htotal := congrArg KindCounts.total hcounted.metrics
    rw [total_foldl_inc] at htotal
    have hnone : (q.kinds settings envs onShutdown (q.settledAccepts settings envs
        (q.runTasks settings envs raises onShutdown order).store)).length = 0 := by
      dsimp only at htotal
      omega
    rw [kinds, List.length_map] at hnone
    exact List.length_eq_zero_iff.mp hnone
  · intro hnone
    constructor
    · rw [hnone]
      rfl
    · intro day
      rw [hnone]
      rfl

/-- **Accepted blocks are counted exactly when no worker raises, or none of them was settled.** -/
theorem acceptsCounted_iff (settings : Settings) (q : QueueFlusher) (t : LocalMiningStatsTracker)
    (envs : ℕ → RowEnv) (raises : ℕ → Option ℕ) (clock : ℕ → ℤ) (onShutdown : Bool) (order : List ℕ)
    (e : FlushEnd) (hend : q.flushRaising settings t envs raises clock onShutdown order = some e) :
    AcceptsCounted settings q t envs clock onShutdown e ↔
      (∀ x ∈ q.store.pending, raises x.1 = none) ∨
        ∀ x ∈ q.store.pending, rowAccepted settings (envs x.1) x.1 x.2 = true →
          ¬ SettlesBy (raises x.1) (order.count x.1) := by
  have hsettled : q.settledAccepts settings envs
      (q.runTasks settings envs raises onShutdown order).store = [] ↔
        ∀ x ∈ q.store.pending, rowAccepted settings (envs x.1) x.1 x.2 = true →
          ¬ SettlesBy (raises x.1) (order.count x.1) := by
    unfold settledAccepts acceptedRows
    rw [List.filter_filter, List.filter_eq_nil_iff]
    refine forall₂_congr fun x hx => ?_
    rw [Bool.and_eq_true]
    constructor
    · intro hnot haccepted hsettles
      exact hnot ⟨(isSettled_runTasks hx haccepted).1.mpr hsettles, haccepted⟩
    · rintro hnot ⟨hsettled, haccepted⟩
      exact hnot haccepted ((isSettled_runTasks hx haccepted).1.mp hsettled)
  cases hgather : gather (q.runTasks settings envs raises onShutdown order).tasks
      (q.store.pending.map Prod.fst) with
  | running =>
    unfold flushRaising at hend
    simp only [hgather] at hend
    cases hend
  | returned =>
    -- then no worker has raised
    refine iff_of_true (acceptsCounted_of_returned hgather hend) (Or.inl fun x hx => ?_)
    exact (known_runTasks hx).returned
      (gather_returned hgather x.1 (List.mem_map_of_mem hx))
  | raised =>
    -- nothing is counted any more, whichever worker it was
    rw [acceptsCounted_iff_of_raised hgather hend, hsettled]
    refine ⟨Or.inr, fun h => h.resolve_left fun hnone => ?_⟩
    obtain ⟨i, hi, hraised⟩ := gather_raised hgather
    obtain ⟨x, hx, rfl⟩ := List.mem_map.mp hi
    exact (known_runTasks hx).raised hraised (hnone x hx)

/-- The worker of the given row raises at once. -/
def raisesAt (rowId i : ℕ) : Option ℕ := if i = rowId then some 0 else none

/-- The turns of a flush of two rows. -/
def twiceTurns : List ℕ := [1, 2, 1, 2, 1, 2, 1, 1, 1]

/-- The worker of the block that the pool took raises before it settles its row: the flush counts
nothing, and both rows are still pending. -/
theorem acceptsCounted_iff_unsettled :
    ∃ e, twiceQueued.flushRaising {} ⟨fun _ => none⟩ oneTaken (raisesAt 2) (fun _ => 0) false
        twiceTurns = some e ∧
      e.metrics.stats.acceptedFlush = {} ∧ e.store.pending.map Prod.fst = [1, 2] ∧
      AcceptsCounted {} twiceQueued ⟨fun _ => none⟩ oneTaken (fun _ => 0) false e := by
  have hend : (twiceQueued.flushRaising {} ⟨fun _ => none⟩ oneTaken (raisesAt 2) (fun _ => 0) false
      twiceTurns).map (fun e => (e.metrics.stats.acceptedFlush, e.store.pending.map Prod.fst)) =
      some ({}, [1, 2]) := by decide +kernel
  obtain ⟨e, he, heq⟩ := Option.map_eq_some_iff.mp hend
  simp only [Prod.mk.injEq] at heq
  have hunsettled : ∀ x ∈ twiceQueued.store.pending, rowAccepted {} (oneTaken x.1) x.1 x.2 = true →
      ¬ SettlesBy (raisesAt 2 x.1) (twiceTurns.count x.1) := by decide +kernel
  exact ⟨e, he, heq.1, heq.2,
    (acceptsCounted_iff {} twiceQueued _ oneTaken _ _ false _ e he).mpr (Or.inr hunsettled)⟩

/-- The worker of the first row raises; the second row was taken and marked submitted, and is not
counted. -/
theorem acceptsCounted_loses :
    ∃ e, twiceQueued.flushRaising {} ⟨fun _ => none⟩ oneTaken (raisesAt 1) (fun _ => 0) false
        twiceTurns = some e ∧
      e.store.pendingCount none = 1 ∧
      ¬ AcceptsCounted {} twiceQueued ⟨fun _ => none⟩ oneTaken (fun _ => 0) false e := by
  have hend : (twiceQueued.flushRaising {} ⟨fun _ => none⟩ oneTaken (raisesAt 1) (fun _ => 0)
      false twiceTurns).map (fun e => (e.metrics.stats.acceptedFlush, e.store.pendingCount none,
        twiceQueued.kinds {} oneTaken false (twiceQueued.settledAccepts {} oneTaken e.store)))
      = some ({}, 1, ["XNM"]) := by decide +kernel
  obtain ⟨e, he, heq⟩ := Option.map_eq_some_iff.mp hend
  simp only [Prod.mk.injEq] at heq
  obtain ⟨hmetrics, hcount, hkinds⟩ := heq
  refine ⟨e, he, hcount, fun hcounted => ?_⟩
  have hcounts := hcounted.metrics
  rw [hmetrics, hkinds] at hcounts
  exact absurd hcounts (by decide)

end QueueFlusher

end XenMiner
