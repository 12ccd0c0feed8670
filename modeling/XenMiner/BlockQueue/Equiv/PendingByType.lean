import XenMiner.BlockQueue.Equiv.Store
import XenMiner.Monitoring.Equiv.DashboardStats
import Mathlib.Algebra.BigOperators.Group.List.Lemmas

/-!
# Counting the queue by type

The groups of the query are told apart by case, and `pending_by_type` folds them: the group of a known
label sets the count of its kind, the others add to `XBLK`.  A group that comes behind another one of its
kind and sets the count loses rows.  So the counts partition the queue exactly when there is none
(`countsPartition_iff`).
-/

namespace XenMiner

open BlockStore DashboardStats

/-- Three kinds are counted. -/
def blockKinds : List String := ["XUNI", "XNM", "XBLK"]

/-- `counts[kind]`. -/
def KindCounts.get (c : KindCounts) (kind : String) : ℕ :=
  if kind = "XUNI" then c.xuni else if kind = "XNM" then c.xnm else c.xblk

theorem normKind_mem (label : String) : normKind label ∈ blockKinds := by
  unfold normKind blockKinds
  dsimp only
  split_ifs with h
  · exact h
  · decide

theorem counts_ext_get {c d : KindCounts} : c = d ↔ ∀ kind ∈ blockKinds, c.get kind = d.get kind := by
  rw [counts_ext]
  unfold blockKinds KindCounts.get
  simp

theorem get_addCounts (c d : KindCounts) (kind : String) :
    (addCounts c d).get kind = c.get kind + d.get kind := by
  unfold KindCounts.get
  split_ifs <;> rfl

namespace BlockStore

/-! ### Groups of one kind -/

/-- `key in counts`: the group of the label sets its count. -/
def isKind (label : String) : Bool := decide (PyStr.upper label ∈ blockKinds)

/-- The counts of the groups, in the order the query returns them. -/
def countGroups (groups : List (String × ℕ)) : KindCounts := groups.foldl addGroup {}

/-- What a group does to the count of its own kind. -/
def setOrAdd (n : ℕ) (g : String × ℕ) : ℕ := if isKind g.1 = true then g.2 else n + g.2

theorem get_addGroup (c : KindCounts) (g : String × ℕ) {kind : String} (hkind : kind ∈ blockKinds) :
    (addGroup c g).get kind =
      if normKind g.1 = kind then setOrAdd (c.get kind) g else c.get kind := by
  have hcases : kind = "XUNI" ∨ kind = "XNM" ∨ kind = "XBLK" := by simpa [blockKinds] using hkind
  unfold addGroup normKind setOrAdd isKind blockKinds KindCounts.get
  dsimp only
  generalize PyStr.upper g.1 = upper
  by_cases hxuni : upper = "XUNI"
  · rcases hcases with rfl | rfl | rfl <;> simp [hxuni]
  by_cases hxnm : upper = "XNM"
  · rcases hcases with rfl | rfl | rfl <;> simp [hxnm]
  by_cases hxblk : upper = "XBLK"
  · rcases hcases with rfl | rfl | rfl <;> simp [hxblk]
  · rcases hcases with rfl | rfl | rfl <;> simp [hxuni, hxnm, hxblk]

/-- The groups of a kind. -/
def ofKind (kind : String) (groups : List (String × ℕ)) : List (String × ℕ) :=
  groups.filter fun g => decide (normKind g.1 = kind)

theorem get_foldl_addGroup {kind : String} (hkind : kind ∈ blockKinds) (groups : List (String × ℕ))
    (c : KindCounts) :
    (groups.foldl addGroup c).get kind = (ofKind kind groups).foldl setOrAdd (c.get kind) := by
  induction groups generalizing c with
  | nil => rfl
  | cons g groups ih =>
    rw [List.foldl_cons, ih, get_addGroup c g hkind]
    unfold ofKind
    rw [List.filter_cons]
    by_cases h : normKind g.1 = kind
    · rw [if_pos h, if_pos (decide_eq_true h), List.foldl_cons]
    · rw [if_neg h, if_neg (by simpa using h)]

/-- Rows in some groups. -/
def rowsIn (groups : List (String × ℕ)) : ℕ := (groups.map Prod.snd).sum

theorem rowsIn_cons (g : String × ℕ) (groups : List (String × ℕ)) :
    rowsIn (g :: groups) = g.2 + rowsIn groups := List.sum_cons

/-- The groups of one kind count at most their rows, and all of them when only the first one sets the
count, if it comes on an empty count. -/
theorem foldl_setOrAdd (groups : List (String × ℕ)) (hpos : ∀ g ∈ groups, 0 < g.2) (n : ℕ) :
    groups.foldl setOrAdd n ≤ n + rowsIn groups ∧
      (groups.foldl setOrAdd n = n + rowsIn groups ↔
        (n = 0 ∨ ∀ g ∈ groups, isKind g.1 = false) ∧
          groups.Pairwise fun _ g => isKind g.1 = false) := by
  induction groups generalizing n with
  | nil => simp [rowsIn]
  | cons g groups ih =>
    obtain ⟨hg, hgroups⟩ := List.forall_mem_cons.mp hpos
    obtain ⟨hle, hiff⟩ := ih hgroups (setOrAdd n g)
    rw [List.foldl_cons, rowsIn_cons, List.pairwise_cons, List.forall_mem_cons]
    by_cases hkind : isKind g.1 = true
    · -- The group sets the count, and what was counted is lost.
      have hset : setOrAdd n g = g.2 := if_pos hkind
      rw [hset] at hle hiff ⊢
      refine ⟨by omega, ?_⟩
      have hne : g.2 ≠ 0 := Nat.ne_of_gt hg
      constructor
      · intro heq
        have hn : n = 0 := by omega
        have hrest := hiff.mp (by omega)
        exact ⟨Or.inl hn, hrest.1.resolve_left hne, hrest.2⟩
      · rintro ⟨hn, hfirst, hrest⟩
        have hn : n = 0 := hn.resolve_right fun h => by
          rw [h.1] at hkind
          cases hkind
        have heq := hiff.mpr ⟨Or.inr hfirst, hrest⟩
        omega
    · -- The group is added, and nothing is lost here.
      have hadd : setOrAdd n g = n + g.2 := if_neg hkind
      have hkind := eq_false_of_ne_true hkind
      rw [hadd] at hle hiff ⊢
      refine ⟨by omega, ?_⟩
      have hne : n + g.2 ≠ 0 := by omega
      rw [← Nat.add_assoc, hiff]
      constructor
      · rintro ⟨hfirst, hrest⟩
        have hfirst := hfirst.resolve_left hne
        exact ⟨Or.inr ⟨hkind, hfirst⟩, hfirst, hrest⟩
      · rintro ⟨-, hfirst, hrest⟩
        exact ⟨Or.inr hfirst, hrest⟩

/-! ### All groups -/

/-- No group sets the count of a kind that an earlier group counted for. -/
def KeepsRows (groups : List (String × ℕ)) : Prop :=
  groups.Pairwise fun g g' => normKind g.1 = normKind g'.1 → isKind g'.1 = false

instance (groups : List (String × ℕ)) : Decidable (KeepsRows groups) :=
  inferInstanceAs (Decidable (List.Pairwise _ _))

/-- The rows of a kind. -/
def rowsOfKind (kind : String) (groups : List (String × ℕ)) : ℕ := rowsIn (ofKind kind groups)

theorem keepsRows_iff (groups : List (String × ℕ)) :
    KeepsRows groups ↔
      ∀ kind ∈ blockKinds, (ofKind kind groups).Pairwise fun _ g => isKind g.1 = false := by
  unfold ofKind
  constructor
  · intro hkeeps kind _
    rw [List.pairwise_filter]
    refine hkeeps.imp fun h hg hg' => h ?_
    exact (of_decide_eq_true hg).trans (of_decide_eq_true hg').symm
  · -- two groups of one kind are a pair among the groups of that kind
    intro hall
    refine List.pairwise_iff_getElem.mpr fun i j hi hj hij hsame => ?_
    have hkind := List.pairwise_filter.mp (hall _ (normKind_mem groups[i].1))
    exact List.pairwise_iff_getElem.mp hkind i j hi hj hij (decide_eq_true rfl)
      (decide_eq_true hsame.symm)

/-- **The groups of every kind count at most their rows, and all of them exactly if the order keeps the
rows.** -/
theorem get_countGroups {groups : List (String × ℕ)} (hpos : ∀ g ∈ groups, 0 < g.2) :
    (∀ kind ∈ blockKinds, (countGroups groups).get kind ≤ rowsOfKind kind groups) ∧
      ((∀ kind ∈ blockKinds, (countGroups groups).get kind = rowsOfKind kind groups) ↔
        KeepsRows groups) := by
  have hkind : ∀ kind ∈ blockKinds, (countGroups groups).get kind ≤ rowsOfKind kind groups ∧
      ((countGroups groups).get kind = rowsOfKind kind groups ↔
        (ofKind kind groups).Pairwise fun _ g => isKind g.1 = false) := by
    intro kind hkind
    have hempty : KindCounts.get {} kind = 0 := by
      unfold KindCounts.get
      split_ifs <;> rfl
    obtain ⟨hle, hiff⟩ := foldl_setOrAdd (ofKind kind groups)
      (fun g hg => hpos g (List.mem_filter.mp hg).1) 0
    unfold countGroups rowsOfKind
    rw [get_foldl_addGroup hkind, hempty]
    rw [Nat.zero_add] at hle hiff
    exact ⟨hle, hiff.trans (and_iff_right (Or.inl rfl))⟩
  refine ⟨fun kind h => (hkind kind h).1, ?_⟩
  rw [keepsRows_iff]
  exact forall₂_congr fun kind h => (hkind kind h).2

/-- Every group is of one kind. -/
theorem sum_rowsOfKind (groups : List (String × ℕ)) :
    rowsOfKind "XUNI" groups + rowsOfKind "XNM" groups + rowsOfKind "XBLK" groups
      = rowsIn groups := by
  unfold rowsOfKind ofKind
  induction groups with
  | nil => rfl
  | cons g groups ih =>
    have hcases : normKind g.1 = "XUNI" ∨ normKind g.1 = "XNM" ∨ normKind g.1 = "XBLK" := by
      simpa [blockKinds] using normKind_mem g.1
    rw [List.filter_cons, List.filter_cons, List.filter_cons, rowsIn_cons]
    rcases hcases with h | h | h
    · simp only [h, decide_true, if_true, decide_false, if_false, rowsIn_cons, Bool.false_eq_true,
        String.reduceEq]
      omega
    · simp only [h, decide_true, if_true, decide_false, if_false, rowsIn_cons, Bool.false_eq_true,
        String.reduceEq]
      omega
    · simp only [h, decide_true, if_true, decide_false, if_false, rowsIn_cons, Bool.false_eq_true,
        String.reduceEq]
      omega

theorem total_eq_get (c : KindCounts) : c.total = c.get "XUNI" + c.get "XNM" + c.get "XBLK" := rfl

/-- All rows are counted exactly if the order keeps them. -/
theorem total_countGroups_eq_iff {groups : List (String × ℕ)} (hpos : ∀ g ∈ groups, 0 < g.2) :
    (countGroups groups).total = rowsIn groups ↔ KeepsRows groups := by
  obtain ⟨hle, hiff⟩ := get_countGroups hpos
  rw [total_eq_get, ← sum_rowsOfKind, ← hiff]
  unfold blockKinds at hle ⊢
  rw [List.forall_mem_cons, List.forall_mem_cons, List.forall_mem_singleton] at hle ⊢
  omega

/-! ### The queue -/

/-- The rows a query of `pending_by_type` counts. -/
def queried (s : BlockStore) (resubmission : Option Bool) : List (ℕ × PendingRow) :=
  s.pending.filter fun x =>
    match resubmission with
    | none => true
    | some true => decide (x.2.queueReason = resubmissionReason)
    | some false => decide (x.2.queueReason ≠ resubmissionReason)

/-- The counts partition the queue, if the queries return their groups so. -/
structure CountsPartition (s : BlockStore) (all again fresh : List (String × ℕ)) : Prop where
  count : (countGroups all).total = s.pending.length
  split : addCounts (countGroups again) (countGroups fresh) = countGroups all

theorem groups_pos (rows : List (ℕ × PendingRow)) : ∀ g ∈ groups rows, 0 < g.2 := by
  intro g hg
  obtain ⟨label, hlabel, rfl⟩ := List.mem_map.mp hg
  exact List.count_pos_iff.mpr (List.mem_dedup.mp hlabel)

theorem rowsOfKind_groups (kind : String) (rows : List (ℕ × PendingRow)) :
    rowsOfKind kind (groups rows) = rows.countP fun x => decide (normKind x.2.blockType = kind) := by
  unfold rowsOfKind rowsIn ofKind groups
  dsimp only
  rw [List.filter_map, List.map_map]
  have hcount := List.sum_map_count_dedup_filter_eq_countP
    (fun label : String => decide (normKind label = kind)) (rows.map fun x => x.2.blockType)
  rw [List.countP_map] at hcount
  simp only [Function.comp_def] at hcount ⊢
  exact hcount

theorem rowsOfKind_perm (kind : String) {groups groups' : List (String × ℕ)}
    (h : groups.Perm groups') : rowsOfKind kind groups = rowsOfKind kind groups' :=
  ((h.filter _).map Prod.snd).sum_eq

/-- A row is queued for resubmission, or for another reason. -/
theorem rowsOfKind_split (s : BlockStore) (kind : String) :
    rowsOfKind kind (groups (s.queried (some true)))
      + rowsOfKind kind (groups (s.queried (some false)))
      = rowsOfKind kind (groups (s.queried none)) := by
  rw [rowsOfKind_groups, rowsOfKind_groups, rowsOfKind_groups]
  unfold queried
  rw [List.countP_filter, List.countP_filter, List.countP_filter]
  dsimp only
  induction s.pending with
  | nil => rfl
  | cons x rows ih =>
    rw [List.countP_cons, List.countP_cons, List.countP_cons]
    by_cases hreason : x.2.queueReason = resubmissionReason
    · simp only [hreason, ne_eq, not_true_eq_false, decide_true, decide_false, Bool.and_true,
        Bool.and_false, Bool.false_eq_true, if_false] at ih ⊢
      omega
    · simp only [hreason, ne_eq, not_false_eq_true, decide_true, decide_false, Bool.and_true,
        Bool.and_false, Bool.false_eq_true, if_false] at ih ⊢
      omega

theorem rowsIn_groups (s : BlockStore) : rowsIn (groups (s.queried none)) = s.pending.length := by
  have hall : s.queried none = s.pending := List.filter_true _
  rw [hall]
  unfold rowsIn groups
  dsimp only
  rw [List.map_map]
  exact (List.sum_map_count_dedup_eq_length _).trans (List.length_map _)

/-- **The counts partition the queue exactly when each query returns its groups in an order that keeps
the rows.** -/
theorem countsPartition_iff (s : BlockStore) (all again fresh : List (String × ℕ))
    (hall : all.Perm (groups (s.queried none)))
    (hagain : again.Perm (groups (s.queried (some true))))
    (hfresh : fresh.Perm (groups (s.queried (some false)))) :
    CountsPartition s all again fresh ↔ KeepsRows all ∧ KeepsRows again ∧ KeepsRows fresh := by
  have hpos : ∀ {gs : List (String × ℕ)} {rows : List (ℕ × PendingRow)},
      gs.Perm (groups rows) → ∀ g ∈ gs, 0 < g.2 :=
    fun hperm g hg => groups_pos _ g (hperm.mem_iff.mp hg)
  have hlength : rowsIn all = s.pending.length := by
    rw [← rowsIn_groups]
    exact (hall.map Prod.snd).sum_eq
  have hcount : (countGroups all).total = s.pending.length ↔ KeepsRows all := by
    rw [← hlength]
    exact total_countGroups_eq_iff (hpos hall)
  have hsplit : ∀ kind, rowsOfKind kind again + rowsOfKind kind fresh = rowsOfKind kind all := by
    intro kind
    rw [rowsOfKind_perm kind hall, rowsOfKind_perm kind hagain, rowsOfKind_perm kind hfresh]
    exact rowsOfKind_split s kind
  obtain ⟨-, halliff⟩ := get_countGroups (hpos hall)
  obtain ⟨hagainle, hagainiff⟩ := get_countGroups (hpos hagain)
  obtain ⟨hfreshle, hfreshiff⟩ := get_countGroups (hpos hfresh)
  constructor
  · intro h
    have hkeeps := hcount.mp h.count
    have hboth : ∀ kind ∈ blockKinds, (countGroups again).get kind = rowsOfKind kind again ∧
        (countGroups fresh).get kind = rowsOfKind kind fresh := by
      intro kind hkind
      -- neither query counts too much, so their sum is right only if both are
      have hget := counts_ext_get.mp h.split kind hkind
      rw [get_addCounts, halliff.mpr hkeeps kind hkind, ← hsplit] at hget
      have hagainle := hagainle kind hkind
      have hfreshle := hfreshle kind hkind
      omega
    exact ⟨hkeeps, hagainiff.mp fun kind h => (hboth kind h).1,
      hfreshiff.mp fun kind h => (hboth kind h).2⟩
  · rintro ⟨hkeeps, hkeepsagain, hkeepsfresh⟩
    refine ⟨hcount.mpr hkeeps, counts_ext_get.mpr fun kind hkind => ?_⟩
    rw [get_addCounts, hagainiff.mpr hkeepsagain kind hkind, hfreshiff.mpr hkeepsfresh kind hkind,
      hsplit, halliff.mpr hkeeps kind hkind]

/-- A block with the given label. -/
def labelled (label : String) : BlockHit where
  key := label
  hashStr := "XEN11"
  blockType := label
  attempts := 1
  strategy := "random"
  foundAt := 0

/-- A super block is rejected and two blocks of the watcher wait for the network. -/
def threeQueued : BlockStore :=
  ((BlockStore.empty.enqueue 0 (labelled "XBLK") resubmissionReason).enqueue 0 (labelled "NORMAL")
    "network_down").enqueue 0 (labelled "NORMAL") "network_down"

/-- The group of the super block comes first, and all three rows are counted. -/
theorem countsPartition_iff_three :
    CountsPartition threeQueued [("XBLK", 1), ("NORMAL", 2)] [("XBLK", 1)] [("NORMAL", 2)] := by
  refine (countsPartition_iff threeQueued _ _ _ ?_ ?_ ?_).mpr ⟨?_, ?_, ?_⟩
  · decide
  · decide
  · decide
  · decide
  · decide
  · decide

/-- SQLite returns the groups by label: the group of the super block comes last, and the two other rows
are lost. -/
theorem countsPartition_fails :
    [("NORMAL", 2), ("XBLK", 1)].Perm (groups (threeQueued.queried none)) ∧
      (countGroups [("NORMAL", 2), ("XBLK", 1)]).total = 1 ∧ threeQueued.pending.length = 3 ∧
      ∀ again fresh, ¬ CountsPartition threeQueued [("NORMAL", 2), ("XBLK", 1)] again fresh := by
  refine ⟨by decide, by decide, by decide, fun again fresh h => ?_⟩
  exact absurd h.count (by decide)

end BlockStore

end XenMiner
