import XenMiner.BlockQueue.Equiv.SubmitPool

/-!
# A parallel flush is the sequential flush

Every order of the workers' turns leaves the same rows and the same additions, also where rows share a
key (`abs_runPool`), and handling the rows one by one is one of these orders (`final_each`).  The
outcomes do not depend on the store and are accounted for in the order of the rows.
-/

namespace XenMiner

open Argon2Common (Argon2)
open BlockStore SubmitResult

variable {A : Argon2} {settings : Settings} {env : FlushEnv} {envs : ℕ → RowEnv} {onShutdown : Bool}
  {s : BlockStore}

/-! ### The sequential flush -/

namespace QueueFlusher

open SubmitPool

/-- The sequential flush is the flush with one environment for all rows. -/
theorem flush_eq_flushEach (A : Argon2) (settings : Settings) (q : QueueFlusher) (env : FlushEnv)
    (onShutdown : Bool) :
    flush A settings q env onShutdown = q.flushEach settings (fun _ => ⟨A, env⟩) onShutdown := by
  have hrows : ∀ (rows : List (ℕ × PendingRow)) (s : BlockStore),
      prepareRows A settings env onShutdown s rows
        = prepareEach settings (fun _ => ⟨A, env⟩) onShutdown s rows := by
    intro rows
    induction rows with
    | nil => exact fun _ => rfl
    | cons x rows ih =>
      intro s
      unfold prepareRows prepareEach
      dsimp only
      rw [ih]
  unfold flush flushEach
  rw [hrows]
  rfl

/-- Outcomes are the same from any store. -/
theorem prepareEach_outcomes (settings : Settings) (envs : ℕ → RowEnv) (onShutdown : Bool)
    (s s' : BlockStore) (rows : List (ℕ × PendingRow)) :
    (prepareEach settings envs onShutdown s rows).2 = rows.map fun x =>
      (prepareRow (envs x.1).argon2 settings (envs x.1).flush onShutdown s' x.1 x.2).2 := by
  induction rows generalizing s with
  | nil => rfl
  | cons x rows ih =>
    rw [List.map_cons, ← ih, ← prepareRow_outcome _ _ _ _ s s']
    rfl

/-- The turns of the sequential flush: each worker to its end. -/
def eachInTurn (rows : List (ℕ × PendingRow)) : List ℕ := rows.flatMap fun x => List.replicate 4 x.1

/-- **Handling the rows one by one is an order of the workers' turns**, after which all of them have
ended. -/
theorem final_each (p : SubmitPool) (rows : List (ℕ × PendingRow))
    (hids : (rows.map Prod.fst).Nodup)
    (hworkers : ∀ x ∈ rows, p.workers x.1 = .begin ((envs x.1).flush.stamp x.1)
      (rowCall settings (envs x.1) onShutdown x.1 x.2)) :
    (Run.final SubmitPool.step p (eachInTurn rows)).store
      = (prepareEach settings envs onShutdown p.store rows).1 ∧
    (∀ i, (i ∈ rows.map Prod.fst ∨ p.workers i = .done) →
      (Run.final SubmitPool.step p (eachInTurn rows)).workers i = .done) := by
  induction rows generalizing p with
  | nil => exact ⟨rfl, fun i hi => hi.resolve_left List.not_mem_nil⟩
  | cons x rows ih =>
    obtain ⟨hx, hrows⟩ := List.forall_mem_cons.mp hworkers
    rw [List.map_cons, List.nodup_cons] at hids
    obtain ⟨hnew, hids⟩ := hids
    obtain ⟨hstore, hworkers'⟩ := final_replicate p x.1 4
    rw [hx, alone_begin] at hstore hworkers'
    set t := Run.final SubmitPool.step p (List.replicate 4 x.1) with ht
    have hturns : Run.final SubmitPool.step p (eachInTurn (x :: rows))
        = Run.final SubmitPool.step t (eachInTurn rows) := by
      rw [ht, ← Run.final_append]
      rfl
    have hother : ∀ i, i ≠ x.1 → t.workers i = p.workers i := fun i hi => by
      rw [hworkers', Function.update_of_ne hi]
    have hrest : ∀ y ∈ rows, t.workers y.1 = .begin ((envs y.1).flush.stamp y.1)
        (rowCall settings (envs y.1) onShutdown y.1 y.2) := fun y hy => by
      rw [hother y.1 fun heq => hnew (heq ▸ List.mem_map_of_mem hy)]
      exact hrows y hy
    obtain ⟨hfinal, hdone⟩ := ih t hids hrest
    rw [hturns]
    refine ⟨?_, fun i hi => hdone i ?_⟩
    · rw [hfinal, hstore, ← prepareRow_store]
      rfl
    · by_cases heq : i = x.1
      · right
        rw [hworkers', heq, Function.update_self]
      · rw [hother i heq]
        rw [List.map_cons, List.mem_cons] at hi
        exact hi.imp_left fun hmem => hmem.resolve_left heq

/-! ### All orders -/

variable {q : QueueFlusher} {order : List ℕ}

theorem pending_ids_nodup (s : BlockStore) : (s.pending.map Prod.fst).Nodup := by
  refine List.pairwise_map.mpr ((s.pendingBlocks.sorted.filter _).imp fun hlt => ?_)
  exact Nat.ne_of_lt hlt

theorem idle_start (settings : Settings) (envs : ℕ → RowEnv) (onShutdown : Bool) (s : BlockStore) :
    rowWorkers.IdleOutside (s.pending.map Prod.fst).toFinset
      (SubmitPool.start settings envs onShutdown s).abs := by
  intro i hi
  refine startWorker_of_not_pending fun x hx heq => hi ?_
  exact List.mem_toFinset.mpr (heq ▸ List.mem_map_of_mem hx)

/-- **All orders of the workers' turns lead to the same rows and the same additions.** -/
theorem abs_runPool (hdone : q.Finished settings envs onShutdown order) :
    (q.runPool settings envs onShutdown order).abs =
      ⟨fun i => cellFinal ((SubmitPool.start settings envs onShutdown q.store).abs.cell i),
        (SubmitPool.start settings envs onShutdown q.store).abs.log
          + rowForecast.owed (q.store.pending.map Prod.fst).toFinset
            (SubmitPool.start settings envs onShutdown q.store).abs⟩ := by
  have hrun : (q.runPool settings envs onShutdown order).abs
      = Run.final rowWorkers.turn (SubmitPool.start settings envs onShutdown q.store).abs order :=
    Run.final_hom abs_step
  rw [hrun]
  refine rowForecast.final_eq (idle_start settings envs onShutdown q.store) order fun i hi => ?_
  obtain ⟨x, hx, rfl⟩ := List.mem_map.mp (List.mem_toFinset.mp hi)
  rw [← hrun]
  exact hdone x hx

/-- Handling the rows one by one is one of the orders. -/
theorem runPool_eachInTurn (settings : Settings) (q : QueueFlusher) (envs : ℕ → RowEnv)
    (onShutdown : Bool) :
    q.Finished settings envs onShutdown (eachInTurn q.store.pending) ∧
      (q.runPool settings envs onShutdown (eachInTurn q.store.pending)).store
        = (prepareEach settings envs onShutdown q.store q.store.pending).1 := by
  obtain ⟨hstore, hdone⟩ := final_each (SubmitPool.start settings envs onShutdown q.store)
    q.store.pending (pending_ids_nodup q.store) fun x hx => startWorker_of_pending hx
  exact ⟨fun x hx => hdone x.1 (Or.inl (List.mem_map_of_mem hx)), hstore⟩

/-! ### What a flush adds -/

/-- The rows added to `submitted_blocks`, without their ids. -/
def newSubmitted (s s' : BlockStore) : List SubmittedRow :=
  (s'.submittedBlocks.rows.drop s.submittedBlocks.rows.length).map Prod.snd

/-- The lines added to `rejected.jsonl`. -/
def newRejected (s s' : BlockStore) : List RejectRecord :=
  s'.rejectedJsonl.drop s.rejectedJsonl.length

/-- Tables and logs only grow, and no id is given to a new row. -/
structure Grown (s s' : BlockStore) : Prop where
  submitted : s.submittedBlocks.rows <+: s'.submittedBlocks.rows
  rejected : s.rejectedJsonl <+: s'.rejectedJsonl
  nextId : s'.pendingBlocks.nextId = s.pendingBlocks.nextId

theorem grown_step (w : Worker) (rowId : ℕ) (s : BlockStore) : Grown s (w.step rowId s).2 := by
  have hself : Grown s s := ⟨List.prefix_rfl, List.prefix_rfl, rfl⟩
  cases w with
  | calling now call =>
    cases call with
    | markPendingReason reason => exact { hself with }
    | markSubmitted httpStatus body =>
      unfold Worker.step
      dsimp only
      split <;> exact hself
    | recordRejection hit httpStatus body reason =>
      unfold Worker.step
      dsimp only
      split <;> exact hself
  | submitting now r httpStatus body => exact { hself with submitted := List.prefix_append _ _ }
  | counting now first hit httpStatus body reason => exact { hself with }
  | logging now hit httpStatus body => exact { hself with rejected := List.prefix_append _ _ }
  | recording now hit httpStatus body => exact { hself with submitted := List.prefix_append _ _ }
  | done => exact hself

theorem grown_runPool (settings : Settings) (q : QueueFlusher) (envs : ℕ → RowEnv)
    (onShutdown : Bool) (order : List ℕ) :
    Grown q.store (q.runPool settings envs onShutdown order).store := by
  refine Run.invariant (I := fun p : SubmitPool => Grown q.store p.store) (fun p i h => ?_)
    ⟨List.prefix_rfl, List.prefix_rfl, rfl⟩
  have hstep := grown_step (p.workers i) i p.store
  exact ⟨h.submitted.trans hstep.submitted, h.rejected.trans hstep.rejected,
    hstep.nextId.trans h.nextId⟩

/-- Up to their order the additions are the difference of the logs. -/
theorem Grown.submitted_perm {s t t' : BlockStore} (h : Grown s t) (h' : Grown s t')
    (heq : Multiset.ofList (t.submittedBlocks.rows.map Prod.snd)
      = Multiset.ofList (t'.submittedBlocks.rows.map Prod.snd)) :
    (newSubmitted s t).Perm (newSubmitted s t') := by
  obtain ⟨new, hnew⟩ := h.submitted
  obtain ⟨new', hnew'⟩ := h'.submitted
  unfold newSubmitted
  rw [← hnew, ← hnew'] at heq ⊢
  rw [List.drop_left, List.drop_left]
  rw [List.map_append, List.map_append, Multiset.coe_eq_coe] at heq
  exact (List.perm_append_left_iff _).mp heq

theorem Grown.rejected_perm {s t t' : BlockStore} (h : Grown s t) (h' : Grown s t')
    (heq : Multiset.ofList t.rejectedJsonl = Multiset.ofList t'.rejectedJsonl) :
    (newRejected s t).Perm (newRejected s t') := by
  obtain ⟨new, hnew⟩ := h.rejected
  obtain ⟨new', hnew'⟩ := h'.rejected
  unfold newRejected
  rw [← hnew, ← hnew'] at heq ⊢
  rw [List.drop_left, List.drop_left]
  rw [Multiset.coe_eq_coe] at heq
  exact (List.perm_append_left_iff _).mp heq

/-- Two flushes of a queue with the same effect: additions to `submitted_blocks` and `rejected.jsonl`
count without their order. -/
structure SameFlush (q : QueueFlusher) (par seq : QueueFlusher × ℕ) : Prop where
  pendingBlocks : par.1.store.pendingBlocks = seq.1.store.pendingBlocks
  submitted : (newSubmitted q.store par.1.store).Perm (newSubmitted q.store seq.1.store)
  rejected : (newRejected q.store par.1.store).Perm (newRejected q.store seq.1.store)
  metrics : par.1.metrics = seq.1.metrics
  flushed : par.2 = seq.2

theorem sameFlush (hdone : q.Finished settings envs onShutdown order) :
    SameFlush q (q.flushParallel settings envs onShutdown order)
      (q.flushEach settings envs onShutdown) := by
  obtain ⟨hturns, hstore⟩ := runPool_eachInTurn settings q envs onShutdown
  have habs := (abs_runPool hdone).trans (abs_runPool hturns).symm
  have hgrown := grown_runPool settings q envs onShutdown order
  have hgrown' := grown_runPool settings q envs onShutdown (eachInTurn q.store.pending)
  have houtcomes := prepareEach_outcomes settings envs onShutdown q.store q.store q.store.pending
  have hlog : logOf (q.runPool settings envs onShutdown order).store
        (q.runPool settings envs onShutdown order).settled
      = logOf (q.runPool settings envs onShutdown (eachInTurn q.store.pending)).store
        (q.runPool settings envs onShutdown (eachInTurn q.store.pending)).settled :=
    congrArg Workers.State.log habs
  have hrow : ∀ i, (q.runPool settings envs onShutdown order).store.pendingBlocks.row? i
      = (q.runPool settings envs onShutdown
          (eachInTurn q.store.pending)).store.pendingBlocks.row? i :=
    fun i => congrArg (fun t : Workers.State ℕ Cell Log => (t.cell i).2) habs
  unfold flushParallel flushEach
  rw [← houtcomes]
  rw [hstore] at hlog hrow hgrown'
  exact
    { pendingBlocks := Table.ext_row? hrow (hgrown.nextId.trans hgrown'.nextId.symm)
      submitted := hgrown.submitted_perm hgrown' (congrArg Prod.fst hlog)
      rejected := hgrown.rejected_perm hgrown' (congrArg (fun l : Log => l.2.1) hlog)
      metrics := rfl
      flushed := rfl }

/-! ### What becomes of the rows -/

/-- A call leaves its row pending, unless it marks it submitted. -/
theorem cellFinal_begin (now : ℤ) (call : Option RowCall) (r : PendingRow) :
    ∃ r', (cellFinal (.begin now call, some r)).2 = some r' ∧
      r'.status = if RowCall.settles call = true then .submitted else r.status := by
  have hwhile : ∀ f : PendingRow → PendingRow, (∀ r, (f r).status = r.status) →
      (whilePending f r).status = r.status := fun f hf => by
    unfold whilePending
    split_ifs
    · exact hf r
    · rfl
  cases call with
  | none => exact ⟨r, rfl, rfl⟩
  | some call =>
    cases call with
    | markPendingReason reason => exact ⟨_, rfl, hwhile _ fun _ => rfl⟩
    | markSubmitted httpStatus body => exact ⟨_, rfl, rfl⟩
    | recordRejection hit httpStatus body reason => exact ⟨_, rfl, hwhile _ fun _ => rfl⟩

/-- A call settles its own row, and at most once. -/
theorem cellRest_begin (rowId : ℕ) (now : ℤ) (call : Option RowCall) (r : PendingRow) :
    (cellRest rowId (.begin now call, some r)).2.2
      = if RowCall.settles call = true then {rowId} else 0 := by
  cases call with
  | none => rfl
  | some call =>
    cases call with
    | markPendingReason reason => rfl
    | markSubmitted httpStatus body => rfl
    | recordRejection hit httpStatus body reason =>
      show (if r.isPending = true ∧ r.rejectCount = 0 then noted now hit httpStatus body else 0).2.2 = 0
      split_ifs <;> rfl

/-- The row is settled by the flush: taken by the pool, or filtered. -/
def settledRows (settings : Settings) (envs : ℕ → RowEnv) (s : BlockStore) : List (ℕ × PendingRow) :=
  s.pending.filter fun x =>
    rowAccepted settings (envs x.1) x.1 x.2 || rowFiltered settings (envs x.1) x.1 x.2

theorem start_cell {x : ℕ × PendingRow} (hx : x ∈ s.pending) :
    (SubmitPool.start settings envs onShutdown s).abs.cell x.1 =
      (.begin ((envs x.1).flush.stamp x.1)
        (rowCall settings (envs x.1) onShutdown x.1 x.2), some x.2) := by
  have hworker : startWorker settings envs onShutdown s x.1 = _ := startWorker_of_pending hx
  have hrow : s.pendingBlocks.row? x.1 = some x.2 := Table.row?_eq_some.mpr (mem_pending.mp hx).1
  show (startWorker settings envs onShutdown s x.1, s.pendingBlocks.row? x.1) = _
  rw [hworker, hrow]

theorem sum_ids {α : Type*} {p : ℕ × α → Bool} {f : ℕ × α → Multiset ℕ} {rows : List (ℕ × α)}
    (h : ∀ x ∈ rows, f x = if p x = true then {x.1} else 0) :
    (rows.map f).sum = Multiset.ofList ((rows.filter p).map Prod.fst) := by
  induction rows with
  | nil => rfl
  | cons x rows ih =>
    obtain ⟨hx, hrows⟩ := List.forall_mem_cons.mp h
    rw [List.map_cons, List.sum_cons, ih hrows, hx, List.filter_cons]
    split_ifs
    · rfl
    · exact zero_add _

/-- The rows marked submitted are those taken or filtered, each once. -/
theorem settled_perm (hdone : q.Finished settings envs onShutdown order) :
    (q.runPool settings envs onShutdown order).settled.Perm
      ((settledRows settings envs q.store).map Prod.fst) := by
  let ids : Log →+ Multiset ℕ := (AddMonoidHom.snd _ _).comp (AddMonoidHom.snd _ _)
  have hlog : Multiset.ofList (q.runPool settings envs onShutdown order).settled
      = 0 + ids (rowForecast.owed (q.store.pending.map Prod.fst).toFinset
          (SubmitPool.start settings envs onShutdown q.store).abs) :=
    congrArg (fun t : Workers.State ℕ Cell Log => t.log.2.2) (abs_runPool hdone)
  unfold Workers.Forecast.owed at hlog
  rw [zero_add, List.sum_toFinset _ (pending_ids_nodup q.store), map_list_sum, List.map_map,
    List.map_map, sum_ids (p := fun x => rowAccepted settings (envs x.1) x.1 x.2
      || rowFiltered settings (envs x.1) x.1 x.2)] at hlog
  · exact Multiset.coe_eq_coe.mp hlog
  · intro x hx
    show (cellRest x.1 ((SubmitPool.start settings envs onShutdown q.store).abs.cell x.1)).2.2 = _
    rw [start_cell hx, cellRest_begin, settles_rowCall]

/-- What becomes of the rows of a flush. -/
structure RowsHandled (settings : Settings) (envs : ℕ → RowEnv) (q : QueueFlusher)
    (par : QueueFlusher × ℕ) (settled : List ℕ) : Prop where
  /-- The number returned is that of the rows whose block the pool took. -/
  flushed : par.2 = q.store.pending.countP fun x => rowAccepted settings (envs x.1) x.1 x.2
  /-- These rows went from pending to submitted; but for them and the filtered ones all are pending. -/
  status : ∀ x ∈ q.store.pending, ∃ row, (x.1, row) ∈ par.1.store.pendingBlocks.rows ∧
    row.status = if (rowAccepted settings (envs x.1) x.1 x.2
      || rowFiltered settings (envs x.1) x.1 x.2) = true then .submitted else .pending
  /-- No row is marked submitted twice. -/
  once : settled.Nodup

theorem foldl_account (settings : Settings) (envs : ℕ → RowEnv) (onShutdown : Bool) (s : BlockStore)
    (rows : List (ℕ × PendingRow)) (acc : MetricsTracker × ℕ) :
    ((rows.map fun x =>
        (prepareRow (envs x.1).argon2 settings (envs x.1).flush onShutdown s x.1 x.2).2).foldl
      account acc).2 = acc.2 + rows.countP fun x => rowAccepted settings (envs x.1) x.1 x.2 := by
  induction rows generalizing acc with
  | nil => rfl
  | cons x rows ih =>
    rw [List.map_cons, List.foldl_cons, ih, counts_prepareRow settings (envs x.1), List.countP_cons,
      Nat.add_assoc, Nat.add_comm (List.countP _ rows)]
    cases rowAccepted settings (envs x.1) x.1 x.2 <;> rfl

theorem rowsHandled (hdone : q.Finished settings envs onShutdown order) :
    RowsHandled settings envs q (q.flushParallel settings envs onShutdown order)
      (q.runPool settings envs onShutdown order).settled where
  flushed := by
    have hcount := foldl_account settings envs onShutdown q.store q.store.pending (q.metrics, 0)
    rw [Nat.zero_add] at hcount
    exact hcount
  status := by
    intro x hx
    obtain ⟨row, hrow, hstatus⟩ := cellFinal_begin ((envs x.1).flush.stamp x.1)
      (rowCall settings (envs x.1) onShutdown x.1 x.2) x.2
    have hcell : (q.runPool settings envs onShutdown order).store.pendingBlocks.row? x.1
        = (cellFinal ((SubmitPool.start settings envs onShutdown q.store).abs.cell x.1)).2 :=
      congrArg (fun t : Workers.State ℕ Cell Log => (t.cell x.1).2) (abs_runPool hdone)
    rw [start_cell hx, hrow] at hcell
    refine ⟨row, Table.row?_eq_some.mp hcell, ?_⟩
    rw [hstatus, settles_rowCall, (mem_pending.mp hx).2]
  once := by
    refine (settled_perm hdone).nodup_iff.mpr ?_
    exact (pending_ids_nodup q.store).sublist (List.filter_sublist.map Prod.fst)

/-- **A parallel flush is the sequential flush**, in every order of the workers' turns: it leaves the
same pending blocks, the same additions to `submitted_blocks` and `rejected.jsonl`, the same counters
and the same number; that number is the rows whose block the pool took, and no row is settled twice. -/
theorem flushParallel_eq_flushEach (settings : Settings) (q : QueueFlusher) (envs : ℕ → RowEnv)
    (onShutdown : Bool) (order : List ℕ) (hdone : q.Finished settings envs onShutdown order) :
    SameFlush q (q.flushParallel settings envs onShutdown order)
        (q.flushEach settings envs onShutdown) ∧
      RowsHandled settings envs q (q.flushParallel settings envs onShutdown order)
        (q.runPool settings envs onShutdown order).settled :=
  ⟨sameFlush hdone, rowsHandled hdone⟩

/-- A queue in which one block waits twice. -/
def twiceQueued : QueueFlusher where
  store := (BlockStore.empty.enqueue 0 Argon2Common.sampleBlock "network_down").enqueue 0
    Argon2Common.sampleBlock "resubmission"

/-- The pool refuses the first submission and takes the second. -/
def oneTaken (_ : ℕ) : RowEnv where
  argon2 := Argon2Common.sampleArgon2
  flush :=
    { difficulty := 100
      deferUntil := 0
      time := fun _ => 0
      minute := fun _ => 30
      reply := fun rowId => if rowId = 1 then ⟨400, "bad"⟩ else ⟨200, "ok"⟩ }

/-- The rows share a key, and the workers take turns. -/
theorem flushParallel_eq_flushEach_twice :
    let par := twiceQueued.flushParallel {} oneTaken false [1, 2, 1, 2, 1, 1]
    SameFlush twiceQueued par (twiceQueued.flushEach {} oneTaken false) ∧ par.2 = 1 ∧
      (newRejected twiceQueued.store par.1.store).length = 1 := by
  intro par
  have hdone : twiceQueued.Finished {} oneTaken false [1, 2, 1, 2, 1, 1] := by decide +kernel
  exact ⟨(flushParallel_eq_flushEach {} twiceQueued oneTaken false _ hdone).1, by decide +kernel,
    by decide +kernel⟩

end QueueFlusher

end XenMiner
