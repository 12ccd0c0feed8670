import Mathlib.Data.Option.Basic
import Mathlib.Order.Defs.LinearOrder
import Mathlib.Data.Nat.Basic

/-!
# A search that is cut off

`search n` looks for the first good state on the way from `z`, a state at a time, until the way ends or
`n` states have been looked at.  What it finds is the first good one of the first `n` states
(`search_eq_some_iff`).
-/

namespace BoundedSearch

variable {σ : Type*} (next : σ → Option σ) (good : σ → Prop)

/-- The state after `k` steps, if the way is that long. -/
def iter : ℕ → σ → Option σ
  | 0, z => some z
  | k + 1, z => (next z).bind (iter k)

def search [DecidablePred good] : ℕ → σ → Option σ
  | 0, _ => none
  | n + 1, z => if good z then some z else (next z).bind (search n)

/-- A way that is over after `n` steps has a last state. -/
theorem exists_last_of_iter_eq_none {next : σ → Option σ} {z : σ} {n : ℕ} (h : iter next n z = none) :
    ∃ k < n, ∃ y, iter next k z = some y ∧ next y = none := by
  induction n generalizing z with
  | zero => cases h
  | succ n ih =>
    cases hz : next z with
    | none => exact ⟨0, Nat.succ_pos n, z, rfl, hz⟩
    | some z' =>
      obtain ⟨k, hk, y, hy, hlast⟩ := ih (Option.bind_eq_none_iff.mp h z' hz)
      exact ⟨k + 1, Nat.succ_lt_succ hk, y, Option.bind_eq_some_iff.mpr ⟨z', hz, hy⟩, hlast⟩

/-- State number `k` is `y`, and the first good one. -/
structure IsFirst (z : σ) (k : ℕ) (y : σ) : Prop where
  iter_eq : iter next k z = some y
  meets : good y
  not_good : ∀ j < k, ∀ x, iter next j z = some x → ¬ good x

variable {next good} {z y y' : σ} {k k' n : ℕ}

theorem IsFirst.eq_of_isFirst (h : IsFirst next good z k y) (h' : IsFirst next good z k' y') :
    k = k' ∧ y = y' := by
  have hk : k = k' := by
    rcases lt_trichotomy k k' with hlt | heq | hgt
    · exact absurd h.meets (h'.not_good k hlt y h.iter_eq)
    · exact heq
    · exact absurd h'.meets (h.not_good k' hgt y' h'.iter_eq)
  subst hk
  exact ⟨rfl, Option.some.inj (h.iter_eq.symm.trans h'.iter_eq)⟩

theorem isFirst_zero_iff : IsFirst next good z 0 y ↔ z = y ∧ good y := by
  constructor
  · intro h
    exact ⟨Option.some.inj h.iter_eq, h.meets⟩
  · rintro ⟨rfl, hgood⟩
    exact ⟨rfl, hgood, fun j hj => absurd hj (Nat.not_lt_zero j)⟩

/-- A step further on. -/
theorem isFirst_succ_iff :
    IsFirst next good z (k + 1) y ↔ ¬ good z ∧ ∃ z' ∈ next z, IsFirst next good z' k y := by
  constructor
  · intro h
    obtain ⟨z', hz', hy⟩ := Option.bind_eq_some_iff.mp h.iter_eq
    refine ⟨h.not_good 0 (Nat.succ_pos k) z rfl, z', hz', hy, h.meets, fun j hj x hx => ?_⟩
    exact h.not_good (j + 1) (Nat.succ_lt_succ hj) x (Option.bind_eq_some_iff.mpr ⟨z', hz', hx⟩)
  · rintro ⟨hz, z', hz', h⟩
    refine ⟨Option.bind_eq_some_iff.mpr ⟨z', hz', h.iter_eq⟩, h.meets, fun j hj x hx => ?_⟩
    cases j with
    | zero => rwa [← Option.some.inj hx]
    | succ j =>
      obtain ⟨z'', hz'', hx'⟩ := Option.bind_eq_some_iff.mp hx
      obtain rfl := Option.some.inj (hz'.symm.trans hz'')
      exact h.not_good j (Nat.lt_of_succ_lt_succ hj) x hx'

variable [DecidablePred good]

/-- The search finds the first good state within its bound. -/
theorem search_eq_some_iff : search next good n z = some y ↔ ∃ k < n, IsFirst next good z k y := by
  induction n generalizing z with
  | zero => exact iff_of_false (fun h => by cases h) fun ⟨k, hk, _⟩ => Nat.not_lt_zero k hk
  | succ n ih =>
    rw [search]
    split_ifs with hgood
    · constructor
      · intro h
        exact ⟨0, Nat.succ_pos n, isFirst_zero_iff.mpr ⟨Option.some.inj h, Option.some.inj h ▸ hgood⟩⟩
      · rintro ⟨k, -, hk⟩
        rw [(hk.eq_of_isFirst (isFirst_zero_iff.mpr ⟨rfl, hgood⟩)).2]
    · rw [Option.bind_eq_some_iff]
      constructor
      · rintro ⟨z', hz', h⟩
        obtain ⟨k, hk, hfirst⟩ := ih.mp h
        exact ⟨k + 1, Nat.succ_lt_succ hk, isFirst_succ_iff.mpr ⟨hgood, z', hz', hfirst⟩⟩
      · rintro ⟨k, hk, hfirst⟩
        cases k with
        | zero =>
          obtain ⟨rfl, hy⟩ := isFirst_zero_iff.mp hfirst
          exact absurd hy hgood
        | succ k =>
          obtain ⟨-, z', hz', h⟩ := isFirst_succ_iff.mp hfirst
          exact ⟨z', hz', ih.mpr ⟨k, Nat.lt_of_succ_lt_succ hk, h⟩⟩

/-- It finds nothing if no state within its bound is good. -/
theorem search_eq_none_iff :
    search next good n z = none ↔ ∀ k < n, ∀ y, iter next k z = some y → ¬ good y := by
  induction n generalizing z with
  | zero => exact iff_of_true rfl fun k hk => absurd hk (Nat.not_lt_zero k)
  | succ n ih =>
    rw [search]
    split_ifs with hgood
    · exact iff_of_false (fun h => by cases h) fun h => h 0 (Nat.succ_pos n) z rfl hgood
    · rw [Option.bind_eq_none_iff]
      constructor
      · intro h k hk y hy
        cases k with
        | zero => rwa [← Option.some.inj hy]
        | succ k =>
          obtain ⟨z', hz', hy'⟩ := Option.bind_eq_some_iff.mp hy
          exact ih.mp (h z' hz') k (Nat.lt_of_succ_lt_succ hk) y hy'
      · intro h z' hz'
        refine ih.mpr fun k hk y hy => ?_
        exact h (k + 1) (Nat.succ_lt_succ hk) y (Option.bind_eq_some_iff.mpr ⟨z', hz', hy⟩)

end BoundedSearch
