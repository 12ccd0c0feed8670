import XenMiner.BlockQueue.Equiv.Store
import XenMiner.Lib.Run
import XenMiner.Networking.SubmitResult

/-!
# A settled block stays settled

`mark_submitted` settles a block when the pool's reply was accepted or the block was filtered.  The
next start decides by the stored status: only a key with a 2xx submission is kept out of the import.
So a run in which blocks are settled with a 2xx status, or have one already, never imports a settled
block again (`settled_stays`).  An `already exists` with another status, or a filtered block, comes
back (`settled_returns`).
-/

namespace XenMiner

open SubmitResult (submitAccepted)

namespace BlockStore

/-- The statuses and bodies `mark_submitted` is called with: an accepted reply, or a filtered
block. -/
def settles (httpStatus : ℤ) (body : String) : Bool :=
  submitAccepted httpStatus body || decide (httpStatus = 0 ∧ body = "filtered:false_positive")

/-- The key of the pending row an operation settles. -/
def settledKey (s : BlockStore) : StoreOp → Option String
  | .markSubmitted _ rowId httpStatus body =>
    if settles httpStatus body then
      (s.pendingBlocks.fetchOne fun i r => decide (i = rowId) && r.isPending).map fun x => x.2.key
    else none
  | _ => none

end BlockStore

open BlockStore

/-- A store, and the keys settled in it so far. -/
structure SettledStore where
  store : BlockStore
  settled : List String

namespace SettledStore

def step (l : SettledStore) (op : StoreOp) : SettledStore where
  store := l.store.apply op
  settled := (l.store.settledKey op).toList ++ l.settled

/-- A block is settled with a 2xx status, unless its key has a 2xx submission already. -/
def SettlesOk (l : SettledStore) (op : StoreOp) : Prop :=
  ∀ key ∈ l.store.settledKey op, key ∈ l.store.acceptedKeys ∨
    ∃ now rowId httpStatus body, op = .markSubmitted now rowId httpStatus body ∧
      200 ≤ httpStatus ∧ httpStatus < 300

/-- An import adds no row for a settled key. -/
def StaysSettled (l : SettledStore) (op : StoreOp) : Prop :=
  op = .importPendingFromJsonl → ∀ x ∈ (l.step op).store.pending,
    x.2.key ∈ l.settled → x ∈ l.store.pending

/-- A block is queued when it is found: its key is neither pending nor settled. -/
def FoundOnce (l : SettledStore) : StoreOp → Prop
  | .enqueue _ hit _ => hit.key ∉ l.store.pendingKeys ∧ hit.key ∉ l.settled
  | .recordRejection _ hit _ _ _ none _ => hit.key ∉ l.settled
  | _ => True

variable {l : SettledStore} {op : StoreOp}

/-! ### Settled keys are accepted keys -/

theorem settledKey_eq_some {s : BlockStore} {key : String} (h : key ∈ s.settledKey op) :
    ∃ now rowId httpStatus body row, op = .markSubmitted now rowId httpStatus body ∧
      (rowId, row) ∈ s.pending ∧ row.key = key := by
  cases op with
  | markSubmitted now rowId httpStatus body =>
    rw [settledKey] at h
    split_ifs at h
    · obtain ⟨⟨i, row⟩, hrow, hkey⟩ := Option.map_eq_some_iff.mp h
      obtain ⟨hmem, hchosen⟩ := Table.mem_of_fetchOne hrow
      simp only [Bool.and_eq_true, decide_eq_true_eq] at hchosen
      obtain ⟨rfl, hpending⟩ := hchosen
      exact ⟨now, i, httpStatus, body, row, rfl,
        mem_pending.mpr ⟨hmem, PendingRow.isPending_iff.mp hpending⟩, hkey⟩
    · cases h
  | _ => cases h

/-- A submission with a 2xx status makes the row's key accepted. -/
theorem mem_acceptedKeys_markSubmitted {s : BlockStore} {now : ℤ} {rowId : ℕ} {row : PendingRow}
    {httpStatus : ℤ} {body : String} (hrow : (rowId, row) ∈ s.pendingBlocks.rows)
    (hok : 200 ≤ httpStatus ∧ httpStatus < 300) :
    row.key ∈ (s.markSubmitted now rowId httpStatus body).acceptedKeys := by
  rcases markSubmitted_cases s now rowId httpStatus body with ⟨hnone, -⟩ | ⟨row', hrow', heq⟩
  · exact absurd rfl (hnone _ hrow)
  · rw [heq, mem_acceptedKeys, Table.row_unique hrow hrow']
    exact ⟨_, Table.mem_insert.mpr (Or.inr rfl), SubmittedRow.isAccepted_iff.mpr hok, rfl⟩

theorem settled_subset_step (hinv : l.settled ⊆ l.store.acceptedKeys) (hok : l.SettlesOk op) :
    (l.step op).settled ⊆ (l.step op).store.acceptedKeys := by
  intro key hkey
  rcases List.mem_append.mp hkey with hnew | hold
  · have hsettled : key ∈ l.store.settledKey op := Option.mem_toList.mp hnew
    rcases hok key hsettled with haccepted | ⟨now, rowId, httpStatus, body, rfl, hstatus⟩
    · exact acceptedKeys_subset_apply l.store op haccepted
    · obtain ⟨_, _, _, _, row, heq, hrow, rfl⟩ := settledKey_eq_some hsettled
      cases heq
      exact mem_acceptedKeys_markSubmitted (mem_pending.mp hrow).1 hstatus
  · exact acceptedKeys_subset_apply l.store op (hinv hold)

/-- The import leaves out what is accepted. -/
theorem staysSettled_of_subset (hinv : l.settled ⊆ l.store.acceptedKeys) : l.StaysSettled op := by
  rintro rfl x hx hkey
  obtain ⟨new, hrows, hnew⟩ := importPendingFromJsonl_rows l.store
  obtain ⟨hmem, hstatus⟩ := mem_pending.mp hx
  unfold step apply at hmem
  rw [hrows] at hmem
  rcases List.mem_append.mp hmem with hold | hadded
  · exact mem_pending.mpr ⟨hold, hstatus⟩
  · have hrow : x.2 ∈ new.map Prod.snd := List.mem_map_of_mem hadded
    rw [hnew] at hrow
    obtain ⟨record, hrecord, heq⟩ := List.mem_map.mp hrow
    have hout := (mem_restorable hrecord).2
    rw [← heq] at hkey
    exact absurd (List.mem_append_right _ (hinv hkey)) hout

/-! ### Blocks that are found once -/

/-- What a run keeps in which every block is found once. -/
structure Tidy (l : SettledStore) : Prop where
  accepted : l.settled ⊆ l.store.acceptedKeys
  distinct : l.store.KeysDistinct
  apart : ∀ key ∈ l.settled, key ∉ l.store.pendingKeys

theorem not_settled_of_newKey (h : l.Tidy) (hfound : l.FoundOnce op) {key : String}
    (hkey : l.store.newKey key op) : key ∉ l.settled ∧ key ∉ l.store.pendingKeys := by
  unfold newKey at hkey
  split at hkey
  · rw [hkey]
    exact ⟨hfound.2, hfound.1⟩
  · obtain ⟨rfl, hpending⟩ := hkey
    exact ⟨hfound, hpending⟩
  · exact ⟨fun hmem => hkey.2 (h.accepted hmem), hkey.1⟩
  · exact absurd hkey id

/-- The settled row is not pending any more. -/
theorem not_pending_of_settledKey (h : l.store.KeysDistinct) {key : String}
    (hkey : key ∈ l.store.settledKey op) : key ∉ (l.store.apply op).pendingKeys := by
  obtain ⟨now, rowId, httpStatus, body, row, rfl, hrow, rfl⟩ := settledKey_eq_some hkey
  intro hmem
  obtain ⟨x, hx, hxkey⟩ := mem_pendingKeys.mp hmem
  have hmark := markSubmitted_cases l.store now rowId httpStatus body
  rcases pending_apply l.store _ hx with ⟨y, hy, hid, hblock⟩ | hnew
  · have hyrow : y = (rowId, row) := h y hy _ hrow (by rw [← hblock.key, hxkey])
    rcases hmark with ⟨hnone, -⟩ | ⟨row', -, heq⟩
    · exact hnone _ (mem_pending.mp hrow).1 rfl
    · obtain ⟨hxmem, hxstatus⟩ := mem_pending.mp hx
      rw [BlockStore.apply, heq] at hxmem
      obtain ⟨z, -, rfl⟩ := Table.mem_update.mp hxmem
      have hz : z.1 = rowId := by
        rw [hyrow] at hid
        exact hid.symm
      simp [hz] at hxstatus
  · exact hnew

theorem Tidy.step (h : l.Tidy) (hok : l.SettlesOk op) (hfound : l.FoundOnce op) :
    (l.step op).Tidy where
  accepted := settled_subset_step h.accepted hok
  distinct := h.distinct.apply op fun _ hkey => (not_settled_of_newKey h hfound hkey).2
  apart := by
    intro key hkey
    rcases List.mem_append.mp hkey with hnew | hold
    · exact not_pending_of_settledKey h.distinct (Option.mem_toList.mp hnew)
    · intro hmem
      obtain ⟨x, hx, rfl⟩ := mem_pendingKeys.mp hmem
      rcases pending_apply l.store op hx with ⟨y, hy, -, hblock⟩ | hnew
      · exact h.apart _ hold (mem_pendingKeys.mpr ⟨y, hy, hblock.key.symm⟩)
      · exact (not_settled_of_newKey h hfound hnew).1 hold

/-! ### Runs -/

/-- **Settled blocks.**  In a run whose blocks are settled with a 2xx status, or have one already,
no import queues a settled block again.  If moreover each block is queued once, no settled block is
ever pending, so none is submitted or settled a second time. -/
theorem settled_stays (s : BlockStore) (ops : List StoreOp)
    (hrun : Run.Meets step SettlesOk ⟨s, []⟩ ops) :
    Run.Meets step StaysSettled ⟨s, []⟩ ops ∧
      (s.KeysDistinct → Run.Meets step FoundOnce ⟨s, []⟩ ops →
        ∀ key ∈ (Run.final step ⟨s, []⟩ ops).settled,
          key ∉ (Run.final step ⟨s, []⟩ ops).store.pendingKeys) := by
  constructor
  · exact hrun.imp_of_invariant (I := fun l => l.settled ⊆ l.store.acceptedKeys)
      (fun _ _ => settled_subset_step) (fun _ _ hinv _ => staysSettled_of_subset hinv)
      (List.nil_subset _)
  · intro hdistinct hfound
    have htidy : Tidy (Run.final step ⟨s, []⟩ ops) := by
      refine (hrun.and hfound).invariant (fun l op h hstep => h.step hstep.1 hstep.2) ?_
      exact ⟨List.nil_subset _, hdistinct, by simp⟩
    exact htidy.apart

/-- A block as the CUDA backend reports it. -/
def sampleHit : BlockHit where
  key := "a"
  hashStr := "XEN11"
  blockType := "XNM"
  attempts := 1
  strategy := "random"
  foundAt := 0

/-- Found while the network was down, settled by the pool's reply, and the program started again. -/
def settledRun (httpStatus : ℤ) (body : String) : List StoreOp :=
  [.enqueue 0 sampleHit "network_down", .markSubmitted 1 1 httpStatus body,
    .importPendingFromJsonl]

/-- Settled with status 200, the block stays away. -/
theorem settled_stays_ok :
    let l : SettledStore := ⟨.empty, []⟩
    let ops := settledRun 200 "ok"
    (Run.final step l ops).settled = ["a"] ∧ Run.Meets step StaysSettled l ops ∧
      ∀ key ∈ (Run.final step l ops).settled, key ∉ (Run.final step l ops).store.pendingKeys := by
  intro l ops
  have hok : Run.Meets step SettlesOk l ops := by
    refine ⟨fun key hkey => (nomatch hkey), fun key _ => ?_, fun key hkey => (nomatch hkey), trivial⟩
    right
    exact ⟨1, 1, 200, "ok", rfl, by decide, by decide⟩
  have hdistinct : l.store.KeysDistinct := fun x hx => (nomatch hx)
  have hfound : Run.Meets step FoundOnce l ops :=
    ⟨⟨by decide, by decide⟩, trivial, trivial, trivial⟩
  obtain ⟨hstays, hnever⟩ := settled_stays .empty ops hok
  exact ⟨by decide +kernel, hstays, hnever hdistinct hfound⟩

/-- A block the pool reports to exist already, with status 400, is settled and comes back. -/
theorem settled_returns :
    let l := Run.final step ⟨.empty, []⟩ ((settledRun 400 "Block already exists").take 2)
    submitAccepted 400 "Block already exists" = true ∧ l.settled = ["a"] ∧
      l.store.pendingKeys = [] ∧ (l.step .importPendingFromJsonl).store.pendingKeys = ["a"] ∧
      ¬ l.StaysSettled .importPendingFromJsonl := by
  intro l
  have hsettled : l.settled = ["a"] := by decide +kernel
  have hbefore : l.store.pendingKeys = [] := by decide +kernel
  have hafter : (l.step .importPendingFromJsonl).store.pendingKeys = ["a"] := by decide +kernel
  refine ⟨by decide +kernel, hsettled, hbefore, hafter, fun hstays => ?_⟩
  have hmem : "a" ∈ (l.step .importPendingFromJsonl).store.pendingKeys := by
    rw [hafter]
    exact List.mem_singleton_self _
  obtain ⟨x, hx, hkey⟩ := mem_pendingKeys.mp hmem
  have hold : x ∈ l.store.pending := hstays rfl x hx (by rw [hsettled, hkey]; simp)
  have hnone : "a" ∈ l.store.pendingKeys := mem_pendingKeys.mpr ⟨x, hold, hkey⟩
  rw [hbefore] at hnone
  cases hnone

end SettledStore

end XenMiner
