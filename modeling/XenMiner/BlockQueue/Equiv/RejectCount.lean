import XenMiner.BlockQueue.Equiv.Settled

/-!
# How often a block was rejected

`record_rejection` takes a reject for the first one when the pending row has `reject_count = 0`.  A block
that is rejected live and is not queued is logged and then queued by `enqueue`, whose row starts at 0
again: the next reject is logged a second time, and the count stays one behind.  So a block is logged
once and counted right exactly when it was pending, in one row, before its first reject
(`rejectedOnce_iff`).
-/

namespace XenMiner

open SettledStore (sampleHit)
open SubmitResult (countsAsReject)

/-- A reject of a block: `handle_hit` records it without a row, `_prepare_row` with the row it
submitted. -/
structure Rejection where
  now : ℤ
  hit : BlockHit
  httpStatus : ℤ
  body : String
  /-- `row["id"]`, and the reason to queue the block again. -/
  queued : Option (ℕ × String)

namespace BlockStore

/-- The calls of `record_rejection` in `handle_hit` and `_prepare_row`. -/
def reject (s : BlockStore) (r : Rejection) : BlockStore :=
  match r.queued with
  | none => (s.recordRejection r.now r.hit r.httpStatus r.body "live" none none).1
  | some (rowId, reason) =>
    (s.recordRejection r.now r.hit r.httpStatus r.body "flush" (some rowId) (some reason)).1

/-- The pending rows of a block. -/
def pendingOf (key : String) (s : BlockStore) : List (ℕ × PendingRow) :=
  s.pending.filter fun x => decide (x.2.key = key)

/-- The lines of `rejected.jsonl` for a block. -/
def rejectLines (key : String) (s : BlockStore) : ℕ :=
  s.rejectedJsonl.countP fun line => decide (line.key = key)

/-- The failed submissions of a block. -/
def failedRows (key : String) (s : BlockStore) : ℕ :=
  s.submittedBlocks.rows.countP fun x => decide (x.2.key = key) && !x.2.isAccepted

/-- The pool rejects the block; from the queue it is submitted while its row is pending. -/
structure Genuine (key : String) (s : BlockStore) (r : Rejection) : Prop where
  key_eq : r.hit.key = key
  counts : countsAsReject r.httpStatus r.body = true
  pending : ∀ rowId reason, r.queued = some (rowId, reason) →
    ∃ row, (rowId, row) ∈ pendingOf key s

/-- The block got one line and one failed submission, and its one pending row counts the rejects. -/
structure RejectedOnce (key : String) (s s' : BlockStore) (rejects : ℕ) : Prop where
  lines : rejectLines key s' = rejectLines key s + 1
  failed : failedRows key s' = failedRows key s + 1
  count : ∃ x, pendingOf key s' = [x] ∧ x.2.rejectCount = rejects

variable {key : String} {s s' : BlockStore} {r : Rejection} {rs : List Rejection}

theorem mem_pendingOf {x : ℕ × PendingRow} :
    x ∈ pendingOf key s ↔ x ∈ s.pendingBlocks.rows ∧ x.2.status = .pending ∧ x.2.key = key := by
  unfold pendingOf
  rw [List.mem_filter, mem_pending, decide_eq_true_eq, and_assoc]

/-! ### One reject -/

/-- A pending row counts a reject. -/
def bumped (reason : String) (row : PendingRow) : PendingRow :=
  { row with queueReason := reason, rejectCount := row.rejectCount + 1 }

theorem pendingOf_countReject (key : String) (s : BlockStore) (p : ℕ → PendingRow → Bool)
    (reason : String) :
    pendingOf key (s.countReject p reason) =
      (pendingOf key s).map fun x => (x.1, if p x.1 x.2 then bumped reason x.2 else x.2) := by
  have hsame : ∀ x : ℕ × PendingRow, (if p x.1 x.2 then bumped reason x.2 else x.2).isPending
        = x.2.isPending ∧
      (if p x.1 x.2 then bumped reason x.2 else x.2).key = x.2.key := by
    intro x
    split_ifs
    · exact ⟨rfl, rfl⟩
    · exact ⟨rfl, rfl⟩
  show ((s.pendingBlocks.rows.map fun x => (x.1, if p x.1 x.2 then bumped reason x.2 else x.2)).filter
    fun x => x.2.isPending).filter _ = _
  rw [List.filter_filter, List.filter_map]
  unfold pendingOf pending Table.select
  rw [List.filter_filter]
  refine congrArg _ (List.filter_congr fun x _ => ?_)
  obtain ⟨hpending, hkey⟩ := hsame x
  simp only [Function.comp_apply, hpending, hkey]

theorem pendingOf_noteReject {now : ℤ} {hit : BlockHit} {httpStatus : ℤ} {body source : String} :
    pendingOf key (s.noteReject now hit httpStatus body source) = pendingOf key s := rfl

/-- A noted reject is one line and one failed submission more. -/
theorem counts_noteReject {now : ℤ} {hit : BlockHit} {httpStatus : ℤ} {body source : String}
    (hkey : hit.key = key) (hcounts : countsAsReject httpStatus body = true) :
    rejectLines key (s.noteReject now hit httpStatus body source) = rejectLines key s + 1 ∧
      failedRows key (s.noteReject now hit httpStatus body source) = failedRows key s + 1 := by
  have hfailed : ¬ (200 ≤ httpStatus ∧ httpStatus < 300) := by
    intro hok
    have hnot := SubmitResult.not_submitAccepted_of_countsAsReject hcounts
    unfold SubmitResult.submitAccepted at hnot
    simp [hok] at hnot
  constructor
  · unfold rejectLines noteReject recordDirectSubmit logRejection
    simp [List.countP_append, hkey]
  · unfold failedRows noteReject recordDirectSubmit logRejection
    rw [Table.rows_insert, List.countP_append]
    refine congrArg _ ?_
    rw [List.countP_singleton, if_pos]
    refine Bool.and_eq_true_iff.mpr ⟨decide_eq_true hkey, ?_⟩
    rw [Bool.not_eq_true', ← Bool.not_eq_true, SubmittedRow.isAccepted_iff]
    exact hfailed

/-- What a reject does to a block that is pending: one of its rows counts it, and it is noted if that
row has counted none yet. -/
theorem reject_of_pending (h : Genuine key s r) (hne : pendingOf key s ≠ []) :
    ∃ rowId row p reason source, (rowId, row) ∈ pendingOf key s ∧
      (p rowId row = true ∧ ∀ i r, p i r = true → i = rowId) ∧
      s.reject r = if row.rejectCount = 0 then
        (s.countReject p reason).noteReject r.now r.hit r.httpStatus r.body source
      else s.countReject p reason := by
  obtain ⟨x, hx⟩ := List.exists_mem_of_ne_nil _ hne
  -- a live reject finds the row by its key, a queued one by its id
  have hlive : r.hit.key ∈ s.pendingKeys := by
    obtain ⟨hmem, hstatus, hkey⟩ := mem_pendingOf.mp hx
    exact mem_pendingKeys.mpr ⟨x, mem_pending.mpr ⟨hmem, hstatus⟩, hkey.trans h.key_eq.symm⟩
  unfold reject
  cases hqueued : r.queued with
  | none =>
    dsimp only
    rcases recordRejection_cases s r.now r.hit r.httpStatus r.body "live" none none with
      ⟨⟨_, hsome⟩, -⟩ | ⟨rowId, row, p, reason, hmem, hstatus, hp, hwhich, heq⟩ | ⟨-, hkey, -⟩
    · cases hsome
    · rcases hwhich with ⟨hsome, -⟩ | ⟨-, hkey, -⟩
      · cases hsome
      · refine ⟨rowId, row, p, reason, "live", ?_, hp, congrArg Prod.fst heq⟩
        exact mem_pendingOf.mpr ⟨hmem, hstatus, hkey.trans h.key_eq⟩
    · exact absurd hlive hkey
  | some queued =>
    obtain ⟨rowId, reason⟩ := queued
    obtain ⟨row, hrow⟩ := h.pending rowId reason hqueued
    obtain ⟨hmem, hstatus, -⟩ := mem_pendingOf.mp hrow
    have hpending : row.isPending = true := PendingRow.isPending_iff.mpr hstatus
    refine ⟨rowId, row, fun i r => decide (i = rowId) && r.isPending,
      PyStr.orElse ((some reason).getD "") resubmissionReason, "flush", hrow,
      ⟨by simp [hpending], fun i r hi => ?_⟩, ?_⟩
    · exact of_decide_eq_true (Bool.and_eq_true_iff.mp hi).1
    · dsimp only
      unfold recordRejection
      dsimp only
      rw [Table.fetchOne_id hmem hpending]
      dsimp only
      split_ifs
      · rfl
      · rfl

/-- What a reject does to a block that is not pending: it is noted and queued. -/
theorem reject_of_not_pending (h : Genuine key s r) (hnone : pendingOf key s = []) :
    s.reject r = (s.noteReject r.now r.hit r.httpStatus r.body "live").enqueue r.now r.hit
      resubmissionReason := by
  unfold reject
  cases hqueued : r.queued with
  | none =>
    dsimp only
    rcases recordRejection_cases s r.now r.hit r.httpStatus r.body "live" none none with
      ⟨⟨_, hsome⟩, -⟩ | ⟨rowId, row, p, reason, hmem, hstatus, -, hwhich, -⟩ | ⟨-, -, heq⟩
    · cases hsome
    · rcases hwhich with ⟨hsome, -⟩ | ⟨-, hkey, -⟩
      · cases hsome
      · have hrow : (rowId, row) ∈ pendingOf key s :=
          mem_pendingOf.mpr ⟨hmem, hstatus, hkey.trans h.key_eq⟩
        rw [hnone] at hrow
        cases hrow
    · rw [heq]
  | some queued =>
    obtain ⟨row, hrow⟩ := h.pending queued.1 queued.2 hqueued
    rw [hnone] at hrow
    cases hrow

/-- The ids of the pending rows stay. -/
theorem ids_reject (h : Genuine key s r) (hne : pendingOf key s ≠ []) :
    (pendingOf key (s.reject r)).map Prod.fst = (pendingOf key s).map Prod.fst := by
  obtain ⟨rowId, row, p, reason, source, -, -, heq⟩ := reject_of_pending h hne
  -- to note a reject does not touch the queue
  have hcounted : pendingOf key (s.reject r) = pendingOf key (s.countReject p reason) := by
    rw [heq]
    split_ifs
    · exact pendingOf_noteReject
    · rfl
  rw [hcounted, pendingOf_countReject, List.map_map]
  rfl

/-- The one row of a block has counted `rejects`, and the first was noted. -/
structure Counting (key : String) (s s' : BlockStore) (start rejects : ℕ) : Prop where
  count : ∃ x, pendingOf key s' = [x] ∧ x.2.rejectCount = rejects
  lines : rejectLines key s' + min start 1 = rejectLines key s + min rejects 1
  failed : failedRows key s' + min start 1 = failedRows key s + min rejects 1

/-- **Step lemma**: a reject of a block with one pending row. -/
theorem Counting.reject {start rejects : ℕ} (hinv : Counting key s s' start rejects)
    (h : Genuine key s' r) : Counting key s (s'.reject r) start (rejects + 1) := by
  obtain ⟨x, hx, hcount⟩ := hinv.count
  have hlines := hinv.lines
  have hfailed := hinv.failed
  obtain ⟨rowId, row, p, reason, source, hrow, ⟨hp, -⟩, heq⟩ :=
    reject_of_pending h (by rw [hx]; exact List.cons_ne_nil _ _)
  rw [hx] at hrow
  obtain rfl := List.mem_singleton.mp hrow
  have hrows : pendingOf key (s'.countReject p reason) = [(rowId, bumped reason row)] := by
    rw [pendingOf_countReject, hx, List.map_singleton, if_pos hp]
  have hbumped : (bumped reason row).rejectCount = rejects + 1 := congrArg (· + 1) hcount
  obtain ⟨hline, hfail⟩ : rejectLines key ((s'.countReject p reason).noteReject r.now r.hit
        r.httpStatus r.body source) = rejectLines key (s'.countReject p reason) + 1 ∧
      failedRows key ((s'.countReject p reason).noteReject r.now r.hit r.httpStatus r.body
        source) = failedRows key (s'.countReject p reason) + 1 :=
    counts_noteReject h.key_eq h.counts
  have hquiet : rejectLines key (s'.countReject p reason) = rejectLines key s' ∧
      failedRows key (s'.countReject p reason) = failedRows key s' := ⟨rfl, rfl⟩
  rw [heq]
  dsimp only at hcount ⊢
  rw [hcount]
  split_ifs with hfirst
  · -- the first reject is noted, the others only counted
    refine ⟨⟨_, pendingOf_noteReject.trans hrows, hbumped⟩, ?_, ?_⟩
    · omega
    · omega
  · refine ⟨⟨_, hrows, hbumped⟩, ?_, ?_⟩
    · omega
    · omega

/-! ### All rejects -/

theorem counting_run (hrun : Run.Meets reject (Genuine key) s' rs) {start rejects : ℕ}
    (hinv : Counting key s s' start rejects) :
    Counting key s (Run.final reject s' rs) start (rejects + rs.length) := by
  induction rs generalizing s' rejects with
  | nil => exact hinv
  | cons r rs ih =>
    have hnext := ih hrun.2 (hinv.reject hrun.1)
    rw [Nat.add_assoc, Nat.add_comm 1] at hnext
    exact hnext

theorem ids_run (hrun : Run.Meets reject (Genuine key) s rs) (hne : pendingOf key s ≠ []) :
    (pendingOf key (Run.final reject s rs)).map Prod.fst = (pendingOf key s).map Prod.fst := by
  induction rs generalizing s with
  | nil => rfl
  | cons r rs ih =>
    have hids := ids_reject hrun.1 hne
    have hnext : pendingOf key (s.reject r) ≠ [] := by
      intro hnil
      rw [hnil, List.map_nil] at hids
      exact hne (List.map_eq_nil_iff.mp hids.symm)
    exact (ih hrun.2 hnext).trans hids

/-- A block that is queued by its first reject stays one behind. -/
theorem counting_of_not_pending (h : Genuine key s r) (hnone : pendingOf key s = []) :
    Counting key (s.reject r) (s.reject r) 0 0 := by
  rw [reject_of_not_pending h hnone]
  refine ⟨?_, rfl, rfl⟩
  have hnew : pendingOf key ((s.noteReject r.now r.hit r.httpStatus r.body "live").enqueue r.now r.hit
      resubmissionReason) = pendingOf key s ++
        [(s.pendingBlocks.nextId, queueRow r.now r.hit resubmissionReason)] := by
    unfold pendingOf pending Table.select
    rw [enqueue_pendingBlocks, noteReject_pendingBlocks, Table.rows_insert, List.filter_append,
      List.filter_append]
    refine congrArg _ ?_
    rw [List.filter_cons_of_pos rfl, List.filter_nil]
    exact List.filter_cons_of_pos (decide_eq_true h.key_eq)
  rw [hnew, hnone]
  exact ⟨_, rfl, rfl⟩

/-- **A block is logged once and counted right exactly when it was pending, in one row, before its first
reject**: in every run of genuine rejects, live and from the queue, of a block that no row has counted a
reject of. -/
theorem rejectedOnce_iff (key : String) (s : BlockStore) (rs : List Rejection)
    (hfirst : ∀ x ∈ pendingOf key s, x.2.rejectCount = 0)
    (hrun : Run.Meets reject (Genuine key) s rs) (hsome : rs ≠ []) :
    RejectedOnce key s (Run.final reject s rs) rs.length ↔ (pendingOf key s).length = 1 := by
  have hpos : 0 < rs.length := List.length_pos_iff.mpr hsome
  by_cases hnone : pendingOf key s = []
  · -- Only `enqueue` comes in between: its row has counted all rejects but the first.
    rw [hnone]
    refine iff_of_false (fun hright => ?_) (by decide)
    obtain ⟨r, rs, rfl⟩ := List.exists_cons_of_ne_nil hsome
    obtain ⟨x, hx, hcount⟩ := hright.count
    obtain ⟨y, hy, hbehind⟩ := (counting_run hrun.2 (counting_of_not_pending hrun.1 hnone)).count
    rw [Run.final_cons, hy] at hx
    obtain rfl := List.singleton_inj.mp hx
    rw [List.length_cons] at hcount
    omega
  · constructor
    · -- No reject adds or removes a row of the block, so one row at the end was one at the start.
      intro hright
      obtain ⟨x, hx, -⟩ := hright.count
      have hids := congrArg List.length (ids_run hrun hnone)
      rw [hx, List.length_map, List.length_map] at hids
      exact hids.symm
    · intro hone
      obtain ⟨x, hx⟩ := List.length_eq_one_iff.mp hone
      have hzero : x.2.rejectCount = 0 := hfirst x (by rw [hx]; exact List.mem_singleton_self x)
      have hbase : Counting key s s 0 0 := ⟨⟨x, hx, hzero⟩, rfl, rfl⟩
      have hend := counting_run hrun hbase
      have hlines := hend.lines
      have hfailed := hend.failed
      refine ⟨?_, ?_, ?_⟩
      · omega
      · omega
      · rw [Nat.zero_add] at hend
        exact hend.count

/-- The pool rejects the block when it is found, and again when its row 1 is flushed. -/
def liveThenQueued : List Rejection :=
  [{ now := 1, hit := sampleHit, httpStatus := 400, body := "bad", queued := none },
    { now := 2, hit := sampleHit, httpStatus := 400, body := "bad",
      queued := some (1, resubmissionReason) }]

theorem genuine_liveThenQueued {s : BlockStore} (hlive : ∃ row, (1, row) ∈ pendingOf "a"
    (s.reject { now := 1, hit := sampleHit, httpStatus := 400, body := "bad", queued := none })) :
    Run.Meets reject (Genuine "a") s liveThenQueued := by
  have hcounts : countsAsReject 400 "bad" = true := by decide
  refine ⟨⟨rfl, hcounts, fun _ _ h => by cases h⟩, ⟨rfl, hcounts, fun rowId reason h => ?_⟩, trivial⟩
  obtain ⟨rfl, -⟩ := Prod.mk.inj (Option.some.inj h)
  exact hlive

/-- The block was queued while the network was down, and is counted right. -/
theorem rejectedOnce_iff_queued :
    let s := BlockStore.empty.enqueue 0 sampleHit "network_down"
    RejectedOnce "a" s (Run.final reject s liveThenQueued) 2 := by
  intro s
  have hfirst : ∀ x ∈ pendingOf "a" s, x.2.rejectCount = 0 := by decide
  have hrun : Run.Meets reject (Genuine "a") s liveThenQueued :=
    genuine_liveThenQueued ⟨_, List.mem_cons_self⟩
  exact (rejectedOnce_iff "a" s liveThenQueued hfirst hrun (List.cons_ne_nil _ _)).mpr (by decide)

/-- The block was not queued: two rejects leave two lines, and a row that has counted one. -/
theorem rejectedOnce_fails :
    let s := Run.final reject BlockStore.empty liveThenQueued
    Run.Meets reject (Genuine "a") .empty liveThenQueued ∧ rejectLines "a" s = 2 ∧
      failedRows "a" s = 2 ∧ (pendingOf "a" s).map (fun x => x.2.rejectCount) = [1] ∧
      ¬ RejectedOnce "a" .empty s 2 := by
  intro s
  have hlines : rejectLines "a" s = 2 := by decide
  refine ⟨genuine_liveThenQueued ⟨_, List.mem_cons_self⟩, hlines, by decide, by decide,
    fun hright => ?_⟩
  have hone := hright.lines
  rw [hlines] at hone
  exact absurd hone (by decide)

end BlockStore

end XenMiner
