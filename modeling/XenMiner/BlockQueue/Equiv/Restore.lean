import XenMiner.BlockQueue.Equiv.Store
import XenMiner.BlockQueue.Flush
import XenMiner.Mining.Equiv.Argon2Common

/-!
# What `queue.jsonl` restores

`import_pending_from_jsonl` inserts every column of a line but `memory_cost`.  So an import into an
empty database restores the queue exactly when no queued hit carried a memory cost
(`restores_iff`).  A row that lost its memory cost is no longer held for the difficulty it was mined
at, and is dropped at another one (`restores_loses_cost`).
-/

namespace XenMiner

open Argon2Common (Argon2 sampleArgon2 sampleBlock)
open BlockStore

/-- A call of `enqueue`. -/
structure Queued where
  now : ℤ
  hit : BlockHit
  reason : String

namespace Queued

/-- The rows of a store without their ids. -/
def rowsOf (s : BlockStore) : List PendingRow := s.pendingBlocks.rows.map Prod.snd

/-- The store after the calls, from an empty one. -/
def enqueueAll (entries : List Queued) : BlockStore :=
  entries.foldl (fun s e => s.enqueue e.now e.hit e.reason) .empty

/-- A store with an empty database into which the log of the calls was imported. -/
def restored (entries : List Queued) : BlockStore :=
  ({ BlockStore.empty with
      queueJsonl := (enqueueAll entries).queueJsonl }.importPendingFromJsonl false).1

/-- The restored rows are the queued ones, and at every difficulty the flusher holds, prepares or
drops them alike. -/
def Restores (entries : List Queued) : Prop :=
  rowsOf (restored entries) = rowsOf (enqueueAll entries) ∧
    ∀ (A : Argon2) (settings : Settings) (difficulty now : ℤ),
      (rowsOf (restored entries)).map (disposition A settings difficulty now) =
        (rowsOf (enqueueAll entries)).map (disposition A settings difficulty now)

variable {entries : List Queued}

theorem foldl_enqueue_rows (s : BlockStore) :
    rowsOf (entries.foldl (fun s e => s.enqueue e.now e.hit e.reason) s) =
      rowsOf s ++ entries.map fun e => queueRow e.now e.hit e.reason := by
  induction entries generalizing s with
  | nil => simp
  | cons e entries ih =>
    rw [List.foldl_cons, ih]
    simp [rowsOf]

theorem foldl_enqueue_queueJsonl (s : BlockStore) :
    (entries.foldl (fun s e => s.enqueue e.now e.hit e.reason) s).queueJsonl =
      s.queueJsonl ++ entries.map fun e => queueRecord e.now e.hit e.reason := by
  induction entries generalizing s with
  | nil => simp
  | cons e entries ih =>
    rw [List.foldl_cons, ih]
    simp

theorem rowsOf_enqueueAll :
    rowsOf (enqueueAll entries) = entries.map fun e => queueRow e.now e.hit e.reason :=
  foldl_enqueue_rows .empty

theorem queueJsonl_enqueueAll :
    (enqueueAll entries).queueJsonl = entries.map fun e => queueRecord e.now e.hit e.reason :=
  foldl_enqueue_queueJsonl .empty

/-- A line comes back as its row without the memory cost. -/
theorem importedRow_queueRecord (now : ℤ) (hit : BlockHit) (reason : String) :
    importedRow (queueRecord now hit reason) =
      { queueRow now hit reason with memoryCost := none } := rfl

theorem rowsOf_restored (hdistinct : (entries.map fun e => e.hit.key).Nodup) :
    rowsOf (restored entries) =
      entries.map fun e => { queueRow e.now e.hit e.reason with memoryCost := none } := by
  obtain ⟨new, hrows, hnew⟩ := importPendingFromJsonl_rows
    { BlockStore.empty with queueJsonl := (enqueueAll entries).queueJsonl }
  have hlog : restorable [] (enqueueAll entries).queueJsonl = (enqueueAll entries).queueJsonl := by
    apply restorable_eq_self
    · simp
    · rw [queueJsonl_enqueueAll, List.map_map]
      exact hdistinct
  unfold rowsOf restored
  rw [hrows, List.map_append, hnew]
  show [] ++ (restorable [] (enqueueAll entries).queueJsonl).map importedRow = _
  rw [hlog, queueJsonl_enqueueAll, List.nil_append, List.map_map]
  exact List.map_congr_left fun e _ => importedRow_queueRecord e.now e.hit e.reason

/-- **The restored queue.**  For hits with different keys, the log restores the queue if and only if
none of them carries a memory cost. -/
theorem restores_iff (entries : List Queued)
    (hdistinct : (entries.map fun e => e.hit.key).Nodup) :
    Restores entries ↔ ∀ e ∈ entries, e.hit.memoryCost = none := by
  have hrows : rowsOf (restored entries) = rowsOf (enqueueAll entries) ↔
      ∀ e ∈ entries, e.hit.memoryCost = none := by
    rw [rowsOf_restored hdistinct, rowsOf_enqueueAll, List.map_inj_left]
    refine forall₂_congr fun e _ => ⟨fun heq => ?_, fun hnone => ?_⟩
    · exact (congrArg PendingRow.memoryCost heq).symm
    · unfold queueRow
      rw [hnone]
  unfold Restores
  rw [← hrows]
  constructor
  · intro h
    exact h.1
  · intro heq
    refine ⟨heq, fun A settings difficulty now => ?_⟩
    rw [heq]

/-- Blocks without a memory cost, as the CPU backend reports them, are restored. -/
theorem restores_iff_uncosted :
    Restores
      [⟨0, { sampleBlock with memoryCost := none }, "network_down"⟩,
        ⟨30, { sampleBlock with key := "b", blockType := "XUNI", memoryCost := none },
          "xuni_outside_window"⟩,
        ⟨60, { sampleBlock with key := "c", hps := 450, memoryCost := none },
          difficultyChangeReason⟩] :=
  (restores_iff _ (by decide)).mpr (by simp)

/-- A block mined at memory cost 100 is held at difficulty 200, and dropped once it was restored. -/
theorem restores_loses_cost :
    let entries : List Queued := [⟨0, sampleBlock, difficultyChangeReason⟩]
    (rowsOf (enqueueAll entries)).map (disposition sampleArgon2 {} 200 0) = [.waiting 100] ∧
      (rowsOf (restored entries)).map (disposition sampleArgon2 {} 200 0) = [.falsePositive] ∧
      ¬ Restores entries := by
  intro entries
  have hheld : (rowsOf (enqueueAll entries)).map (disposition sampleArgon2 {} 200 0) =
      [.waiting 100] := by decide +kernel
  have hdropped : (rowsOf (restored entries)).map (disposition sampleArgon2 {} 200 0) =
      [.falsePositive] := by decide +kernel
  refine ⟨hheld, hdropped, fun h => ?_⟩
  have hsame := h.2 sampleArgon2 {} 200 0
  rw [hheld, hdropped] at hsame
  cases hsame

end Queued

end XenMiner
