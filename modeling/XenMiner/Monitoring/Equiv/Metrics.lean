import XenMiner.Lib.Run
import XenMiner.Monitoring.Metrics
import Mathlib.Data.Finset.Card

/-!
# What the reject counters count

A reject is counted under its path, its kind and its key.  `rejected_total` is the number of these marks
(`rejectedTotal_eq_card`), and so the number of blocks exactly when no block is rejected under two of
them: a block that is rejected live and again from the queue counts twice.
-/

namespace XenMiner

/-! ### Totals -/

theorem total_inc (c : KindCounts) (kind : String) : (c.inc kind).total = c.total + 1 := by
  unfold KindCounts.inc KindCounts.total
  split_ifs
  · dsimp only
    omega
  · dsimp only
    omega
  · dsimp only
    omega

theorem total_foldl_inc (c : KindCounts) (kinds : List String) :
    (kinds.foldl KindCounts.inc c).total = c.total + kinds.length := by
  induction kinds generalizing c with
  | nil => rfl
  | cons kind kinds ih =>
    rw [List.foldl_cons, ih, total_inc, List.length_cons]
    omega

/-! ### Rejects of a session -/

/-- The pool rejects a block, live or from the queue. -/
structure Reject where
  live : Bool
  kind : String
  key : String
  deriving DecidableEq

/-- What a reject is counted under. -/
def Reject.mark (r : Reject) : Bool × String × String := (r.live, normKind r.kind, r.key)

theorem Reject.mark_eq_iff {r r' : Reject} : r.mark = r'.mark ↔
    r.live = r'.live ∧ normKind r.kind = normKind r'.kind ∧ r.key = r'.key := by
  unfold Reject.mark
  rw [Prod.mk.injEq, Prod.mk.injEq]

namespace MetricsTracker

/-- The reject is recorded on its path. -/
def recordRejected (m : MetricsTracker) (r : Reject) : MetricsTracker :=
  if r.live then m.recordRejectedLive r.kind r.key else m.recordRejectedFlush r.kind r.key

/-- What is counted so far. -/
def marks (m : MetricsTracker) : List (Bool × String × String) :=
  m.rejectedLiveKeys.map (true, ·) ++ m.rejectedFlushKeys.map (false, ·)

theorem mem_marks {m : MetricsTracker} {r : Reject} :
    r.mark ∈ m.marks ↔
      if r.live = true then (normKind r.kind, r.key) ∈ m.rejectedLiveKeys
      else (normKind r.kind, r.key) ∈ m.rejectedFlushKeys := by
  unfold marks Reject.mark
  cases r.live <;> simp

/-- A new mark is counted, a known one changes nothing. -/
theorem recordRejected_cases (m : MetricsTracker) (r : Reject) :
    (r.mark ∈ m.marks ∧ m.recordRejected r = m) ∨
      (r.mark ∉ m.marks ∧ (m.recordRejected r).marks.Perm (r.mark :: m.marks) ∧
        (m.recordRejected r).stats.rejectedTotal = m.stats.rejectedTotal + 1) := by
  rw [mem_marks]
  unfold recordRejected
  cases hlive : r.live with
  | true =>
    rw [if_pos rfl, if_pos rfl]
    unfold recordRejectedLive
    by_cases hmem : (normKind r.kind, r.key) ∈ m.rejectedLiveKeys
    · left
      rw [if_pos hmem]
      exact ⟨hmem, rfl⟩
    · refine Or.inr ⟨hmem, ?_⟩
      rw [if_neg hmem]
      constructor
      · unfold marks Reject.mark
        dsimp only
        rw [hlive, List.map_cons, List.cons_append]
      · unfold MiningStats.rejectedTotal
        dsimp only
        rw [total_inc, Nat.add_right_comm]
  | false =>
    rw [if_neg Bool.false_ne_true, if_neg Bool.false_ne_true]
    unfold recordRejectedFlush
    by_cases hmem : (normKind r.kind, r.key) ∈ m.rejectedFlushKeys
    · left
      rw [if_pos hmem]
      exact ⟨hmem, rfl⟩
    · refine Or.inr ⟨hmem, ?_⟩
      rw [if_neg hmem]
      constructor
      · unfold marks Reject.mark
        dsimp only
        rw [hlive, List.map_cons]
        exact List.perm_middle
      · unfold MiningStats.rejectedTotal
        dsimp only
        rw [total_inc, Nat.add_assoc]

/-- What a run of rejects keeps: no mark is counted twice, and the total is their number. -/
structure Tallied (m : MetricsTracker) (seen : List Reject) : Prop where
  nodup : m.marks.Nodup
  total : m.stats.rejectedTotal = m.marks.length
  mem : ∀ mark, mark ∈ m.marks ↔ mark ∈ seen.map Reject.mark

theorem Tallied.step {m : MetricsTracker} {seen : List Reject} (h : m.Tallied seen) (r : Reject) :
    (m.recordRejected r).Tallied (r :: seen) := by
  rcases m.recordRejected_cases r with ⟨hold, heq⟩ | ⟨hnew, hperm, htotal⟩
  · rw [heq]
    refine ⟨h.nodup, h.total, fun mark => ?_⟩
    rw [List.map_cons, List.mem_cons, h.mem]
    refine ⟨Or.inr, fun hmark => hmark.elim (fun heq => ?_) id⟩
    rw [heq]
    exact (h.mem _).mp hold
  · refine ⟨hperm.nodup_iff.mpr (List.nodup_cons.mpr ⟨hnew, h.nodup⟩), ?_, fun mark => ?_⟩
    · rw [htotal, h.total, hperm.length_eq, List.length_cons]
    · rw [hperm.mem_iff, List.mem_cons, h.mem, List.map_cons, List.mem_cons]

/-- The counters after a session. -/
def session (rejects : List Reject) : MetricsTracker := Run.final recordRejected {} rejects

theorem tallied_session (rejects : List Reject) : (session rejects).Tallied rejects := by
  have hrun : ∀ (rejects seen : List Reject) (m : MetricsTracker), m.Tallied seen →
      (Run.final recordRejected m rejects).Tallied (rejects.reverse ++ seen) := by
    intro rejects
    induction rejects with
    | nil => exact fun _ _ h => h
    | cons r rejects ih =>
      intro seen m h
      rw [List.reverse_cons, List.append_assoc]
      exact ih (r :: seen) _ (h.step r)
  have hstart : Tallied {} [] := ⟨List.nodup_nil, rfl, fun _ => Iff.rfl⟩
  have hend := hrun rejects [] {} hstart
  refine ⟨hend.nodup, hend.total, fun mark => (hend.mem mark).trans ?_⟩
  rw [List.append_nil, List.map_reverse, List.mem_reverse]

/-- The total is the number of the marks. -/
theorem rejectedTotal_eq_card (rejects : List Reject) :
    (session rejects).stats.rejectedTotal = (rejects.map Reject.mark).toFinset.card := by
  have h := tallied_session rejects
  rw [h.total, ← List.toFinset_card_of_nodup h.nodup]
  refine congrArg Finset.card (Finset.ext fun mark => ?_)
  rw [List.mem_toFinset, List.mem_toFinset, h.mem]

/-- **The rejected total is the number of blocks exactly when each block is rejected on one path and
under one kind.** -/
theorem rejectedTotal_eq_blocks_iff (rejects : List Reject) :
    (session rejects).stats.rejectedTotal = (rejects.map Reject.key).toFinset.card ↔
      ∀ r ∈ rejects, ∀ r' ∈ rejects, r.key = r'.key →
        r.live = r'.live ∧ normKind r.kind = normKind r'.kind := by
  have hkeys : (rejects.map Reject.key).toFinset
      = (rejects.map Reject.mark).toFinset.image fun mark => mark.2.2 := by
    ext key
    simp [Reject.mark]
  rw [rejectedTotal_eq_card, hkeys, eq_comm, Finset.card_image_iff]
  constructor
  · intro hinj r hr r' hr' hkey
    have hmarks : r.mark = r'.mark := by
      refine hinj ?_ ?_ hkey
      · exact List.mem_toFinset.mpr (List.mem_map_of_mem hr)
      · exact List.mem_toFinset.mpr (List.mem_map_of_mem hr')
    obtain ⟨hlive, hkind, -⟩ := Reject.mark_eq_iff.mp hmarks
    exact ⟨hlive, hkind⟩
  · intro hsame mark hmark mark' hmark' hkey
    obtain ⟨r, hr, rfl⟩ := List.mem_map.mp (List.mem_toFinset.mp hmark)
    obtain ⟨r', hr', rfl⟩ := List.mem_map.mp (List.mem_toFinset.mp hmark')
    obtain ⟨hlive, hkind⟩ := hsame r hr r' hr' hkey
    exact Reject.mark_eq_iff.mpr ⟨hlive, hkind, hkey⟩

/-- The block is rejected live, queued, and rejected again from the queue: it counts twice. -/
theorem rejectedTotal_counts_twice :
    let rejects : List Reject := [⟨true, "XNM", "a"⟩, ⟨false, "XNM", "a"⟩]
    (session rejects).stats.rejectedTotal = 2 ∧ (rejects.map Reject.key).toFinset.card = 1 := by
  decide

end MetricsTracker

end XenMiner
