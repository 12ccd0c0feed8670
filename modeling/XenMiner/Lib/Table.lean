import Mathlib.Data.List.Nodup

/-!
# Tables with an autoincrement key

A table holds its rows in the order of their ids; an insertion takes the next id, which no row has
ever had.  `update` and `fetchOne` are an `UPDATE … WHERE` and the first row of a `SELECT … WHERE`
in id order.

What the operations may do to a row is carried over them by `Keeps`.
-/

/-- The rows in id order, and the id the next insertion takes. -/
@[ext]
structure Table (ρ : Type*) where
  rows : List (ℕ × ρ)
  nextId : ℕ
  lt_next : ∀ x ∈ rows, x.1 < nextId
  sorted : rows.Pairwise fun x y => x.1 < y.1
  deriving DecidableEq

namespace Table

variable {ρ : Type*} {t t' t'' : Table ρ} {r r' : ρ} {i : ℕ} {x : ℕ × ρ}

/-- The table without rows; ids start at one. -/
def empty : Table ρ where
  rows := []
  nextId := 1
  lt_next := by simp
  sorted := List.Pairwise.nil

/-- `INSERT`. -/
def insert (t : Table ρ) (r : ρ) : Table ρ where
  rows := t.rows ++ [(t.nextId, r)]
  nextId := t.nextId + 1
  lt_next := by
    intro x hx
    rcases List.mem_append.mp hx with h | h
    · exact Nat.lt_succ_of_lt (t.lt_next x h)
    · rw [List.mem_singleton.mp h]
      exact Nat.lt_succ_self _
  sorted := by
    rw [List.pairwise_append]
    refine ⟨t.sorted, List.pairwise_singleton _ _, ?_⟩
    intro x hx y hy
    rw [List.mem_singleton.mp hy]
    exact t.lt_next x hx

/-- `UPDATE … SET … WHERE`. -/
def update (t : Table ρ) (p : ℕ → ρ → Bool) (f : ρ → ρ) : Table ρ where
  rows := t.rows.map fun x => (x.1, if p x.1 x.2 then f x.2 else x.2)
  nextId := t.nextId
  lt_next := by
    intro x hx
    obtain ⟨y, hy, rfl⟩ := List.mem_map.mp hx
    exact t.lt_next y hy
  sorted := List.pairwise_map.mpr t.sorted

/-- The rows that satisfy `p`, in id order. -/
def select (t : Table ρ) (p : ρ → Bool) : List (ℕ × ρ) := t.rows.filter fun x => p x.2

/-- The first row that satisfies `p`. -/
def fetchOne (t : Table ρ) (p : ℕ → ρ → Bool) : Option (ℕ × ρ) := t.rows.find? fun x => p x.1 x.2

/-! ### Membership -/

@[simp]
theorem rows_empty : (empty : Table ρ).rows = [] := rfl

@[simp]
theorem rows_insert : (t.insert r).rows = t.rows ++ [(t.nextId, r)] := rfl

@[simp]
theorem nextId_insert : (t.insert r).nextId = t.nextId + 1 := rfl

@[simp]
theorem nextId_update {p : ℕ → ρ → Bool} {f : ρ → ρ} : (t.update p f).nextId = t.nextId := rfl

theorem mem_insert : x ∈ (t.insert r).rows ↔ x ∈ t.rows ∨ x = (t.nextId, r) := by
  rw [rows_insert, List.mem_append, List.mem_singleton]

theorem mem_update {p : ℕ → ρ → Bool} {f : ρ → ρ} :
    x ∈ (t.update p f).rows ↔ ∃ y ∈ t.rows, (y.1, if p y.1 y.2 then f y.2 else y.2) = x :=
  List.mem_map

@[simp]
theorem mem_select {p : ρ → Bool} : x ∈ t.select p ↔ x ∈ t.rows ∧ p x.2 = true := List.mem_filter

/-- An id names at most one row. -/
theorem row_unique (h : (i, r) ∈ t.rows) (h' : (i, r') ∈ t.rows) : r = r' := by
  have hids : (t.rows.map Prod.fst).Nodup :=
    List.pairwise_map.mpr (t.sorted.imp fun hlt => Nat.ne_of_lt hlt)
  exact (Prod.mk.inj (List.inj_on_of_nodup_map hids h h' rfl)).2

theorem mem_of_fetchOne {p : ℕ → ρ → Bool} (h : t.fetchOne p = some x) :
    x ∈ t.rows ∧ p x.1 x.2 = true := by
  unfold fetchOne at h
  exact ⟨List.mem_of_find?_eq_some h, by simpa using List.find?_some h⟩

theorem fetchOne_eq_none {p : ℕ → ρ → Bool} :
    t.fetchOne p = none ↔ ∀ x ∈ t.rows, p x.1 x.2 = false := by
  unfold fetchOne
  rw [List.find?_eq_none]
  simp

/-- A row is found by its id, if it satisfies the rest of the condition. -/
theorem fetchOne_id {q : ρ → Bool} (h : (i, r) ∈ t.rows) (hq : q r = true) :
    t.fetchOne (fun j r => decide (j = i) && q r) = some (i, r) := by
  cases hf : t.fetchOne (fun j r => decide (j = i) && q r) with
  | none =>
    have hr := fetchOne_eq_none.mp hf (i, r) h
    simp [hq] at hr
  | some y =>
    obtain ⟨hy, hp⟩ := mem_of_fetchOne hf
    obtain ⟨j, r'⟩ := y
    obtain rfl : j = i := by
      simp only [Bool.and_eq_true, decide_eq_true_eq] at hp
      exact hp.1
    rw [row_unique h hy]

/-! ### Looking a row up -/

/-- The row under an id. -/
def row? (t : Table ρ) (i : ℕ) : Option ρ := (t.fetchOne fun j _ => decide (j = i)).map Prod.snd

theorem row?_eq_some : t.row? i = some r ↔ (i, r) ∈ t.rows := by
  constructor
  · intro h
    obtain ⟨x, hx, rfl⟩ := Option.map_eq_some_iff.mp h
    obtain ⟨hmem, hid⟩ := mem_of_fetchOne hx
    obtain rfl : x.1 = i := of_decide_eq_true hid
    exact hmem
  · intro h
    have hfetch := fetchOne_id (q := fun _ => true) h rfl
    simp only [Bool.and_true] at hfetch
    unfold row?
    rw [hfetch]
    rfl

theorem row?_eq_none : t.row? i = none ↔ ∀ x ∈ t.rows, x.1 ≠ i := by
  unfold row?
  rw [Option.map_eq_none_iff, fetchOne_eq_none]
  simp

/-- A query by id and a further condition reads the row under the id. -/
theorem fetchOne_id_and (t : Table ρ) (i : ℕ) (q : ρ → Bool) :
    t.fetchOne (fun j r => decide (j = i) && q r) = ((t.row? i).filter q).map fun r => (i, r) := by
  cases hrow : t.row? i with
  | none =>
    rw [row?_eq_none] at hrow
    refine fetchOne_eq_none.mpr fun x hx => ?_
    rw [decide_eq_false (hrow x hx), Bool.false_and]
  | some r =>
    have hmem := row?_eq_some.mp hrow
    cases hq : q r with
    | true =>
      rw [fetchOne_id hmem hq, Option.filter_some, if_pos hq]
      rfl
    | false =>
      rw [Option.filter_some, if_neg (by rw [hq]; exact Bool.false_ne_true)]
      refine fetchOne_eq_none.mpr fun x hx => ?_
      obtain ⟨j, r'⟩ := x
      by_cases hid : j = i
      · subst hid
        rw [row_unique hx hmem, hq, Bool.and_false]
      · rw [decide_eq_false hid, Bool.false_and]

theorem row?_update {p : ℕ → ρ → Bool} {f : ρ → ρ} :
    (t.update p f).row? i = (t.row? i).map fun r => if p i r then f r else r := by
  cases hrow : t.row? i with
  | none =>
    rw [row?_eq_none] at hrow
    refine row?_eq_none.mpr fun x hx => ?_
    obtain ⟨y, hy, rfl⟩ := mem_update.mp hx
    exact hrow y hy
  | some r =>
    exact row?_eq_some.mpr (mem_update.mpr ⟨(i, r), row?_eq_some.mp hrow, rfl⟩)

/-- A table is its rows by id, and the next id. -/
theorem ext_row? (hrow : ∀ i, t.row? i = t'.row? i) (hnext : t.nextId = t'.nextId) : t = t' := by
  have hmem : ∀ x, x ∈ t.rows ↔ x ∈ t'.rows := fun x => by
    rw [show x = (x.1, x.2) from rfl, ← row?_eq_some, ← row?_eq_some, hrow]
  have hnodup : ∀ t : Table ρ, t.rows.Nodup := fun t =>
    t.sorted.imp fun hlt heq => absurd (congrArg Prod.fst heq) (Nat.ne_of_lt hlt)
  have hperm : t.rows.Perm t'.rows :=
    (List.perm_ext_iff_of_nodup (hnodup t) (hnodup t')).mpr hmem
  refine Table.ext ?_ hnext
  exact hperm.eq_of_pairwise (fun x y _ _ hlt hgt => absurd hlt (Nat.lt_asymm hgt)) t.sorted t'.sorted

/-- An update is none where it changes no row. -/
theorem update_eq_self {p : ℕ → ρ → Bool} {f : ρ → ρ}
    (h : ∀ x ∈ t.rows, p x.1 x.2 = true → f x.2 = x.2) : t.update p f = t := by
  refine Table.ext ?_ rfl
  refine (List.map_congr_left fun x hx => ?_).trans t.rows.map_id
  split_ifs with hp
  · rw [h x hx hp]
    rfl
  · rfl

/-- What is read of the selected rows, where an update leaves alone what is read and what selects. -/
theorem map_select_update {β : Type*} {q : ρ → Bool} {g : ρ → β} {p : ℕ → ρ → Bool} {f : ρ → ρ}
    (hf : ∀ r, q (f r) = q r ∧ g (f r) = g r) :
    ((t.update p f).select q).map (fun x => g x.2) = (t.select q).map fun x => g x.2 := by
  unfold select update
  dsimp only
  induction t.rows with
  | nil => rfl
  | cons x rows ih =>
    have hx : q (if p x.1 x.2 then f x.2 else x.2) = q x.2 ∧
        g (if p x.1 x.2 then f x.2 else x.2) = g x.2 := by
      split_ifs
      · exact hf x.2
      · exact ⟨rfl, rfl⟩
    rw [List.map_cons, List.filter_cons, List.filter_cons]
    generalize (if p x.1 x.2 = true then f x.2 else x.2) = r at hx ⊢
    dsimp only
    rw [hx.1]
    by_cases hq : q x.2 = true
    · rw [if_pos hq, if_pos hq, List.map_cons, List.map_cons, ih]
      exact congrArg (· :: _) hx.2
    · rw [if_neg hq, if_neg hq, ih]

/-! ### What becomes of a single row -/

/-- Every row of `t` is a row of `t'` under the same id, changed at most as `R` allows. -/
def Keeps (R : ρ → ρ → Prop) (t t' : Table ρ) : Prop :=
  ∀ i r, (i, r) ∈ t.rows → ∃ r', (i, r') ∈ t'.rows ∧ R r r'

theorem Keeps.refl {R : ρ → ρ → Prop} (hR : ∀ r, R r r) (t : Table ρ) : t.Keeps R t :=
  fun _ r h => ⟨r, h, hR r⟩

theorem Keeps.trans {R : ρ → ρ → Prop} (hR : ∀ a b c, R a b → R b c → R a c)
    (h : t.Keeps R t') (h' : t'.Keeps R t'') : t.Keeps R t'' := by
  intro i r hr
  obtain ⟨r₁, hr₁, h₁⟩ := h i r hr
  obtain ⟨r₂, hr₂, h₂⟩ := h' i r₁ hr₁
  exact ⟨r₂, hr₂, hR _ _ _ h₁ h₂⟩

theorem Keeps.insert {R : ρ → ρ → Prop} (h : t.Keeps R t') : t.Keeps R (t'.insert r) := by
  intro i r hr
  obtain ⟨r', hr', hR⟩ := h i r hr
  exact ⟨r', mem_insert.mpr (Or.inl hr'), hR⟩

/-- An update keeps the rows as `R` allows if its assignment does where it applies. -/
theorem keeps_update {R : ρ → ρ → Prop} {p : ℕ → ρ → Bool} {f : ρ → ρ} (hR : ∀ r, R r r)
    (hf : ∀ i r, (i, r) ∈ t.rows → p i r = true → R r (f r)) : t.Keeps R (t.update p f) := by
  intro i r hr
  refine ⟨if p i r then f r else r, mem_update.mpr ⟨(i, r), hr, rfl⟩, ?_⟩
  by_cases hp : p i r = true
  · rw [if_pos hp]
    exact hf i r hr hp
  · rw [if_neg hp]
    exact hR r

end Table
