import Mathlib.Data.Int.Cast.Lemmas
import Mathlib.Data.List.Basic
import Mathlib.Tactic.Ring

/-!
# Runs of a step function

A run feeds a list of inputs to a step function.  `Run.Meets ok s is` says that every step of the
run from `s` meets the condition `ok` on its input and the state before it; what such steps preserve
holds in every state of the run (`Run.Meets.invariant`).
-/

namespace Run

variable {σ ι : Type*}

/-- The state after all inputs. -/
def final (step : σ → ι → σ) (s : σ) (inputs : List ι) : σ := inputs.foldl step s

/-- Every step of the run meets `ok`. -/
def Meets (step : σ → ι → σ) (ok : σ → ι → Prop) : σ → List ι → Prop
  | _, [] => True
  | s, i :: inputs => ok s i ∧ Meets step ok (step s i) inputs

variable {step : σ → ι → σ} {ok : σ → ι → Prop} {s : σ} {i : ι} {is js : List ι}

@[simp]
theorem final_nil : final step s [] = s := rfl

@[simp]
theorem final_cons : final step s (i :: is) = final step (step s i) is := rfl

theorem final_append : final step s (is ++ js) = final step (final step s is) js :=
  List.foldl_append

/-- A run seen through a map that commutes with the steps. -/
theorem final_hom {τ : Type*} {step' : τ → ι → τ} {f : σ → τ}
    (h : ∀ s i, f (step s i) = step' (f s) i) : f (final step s is) = final step' (f s) is := by
  induction is generalizing s with
  | nil => rfl
  | cons i is ih => rw [final_cons, final_cons, ih, h]

/-- Parts of the state that only their own turns change. -/
theorem final_cell [DecidableEq ι] {κ : Type*} {cell : σ → ι → κ} {f : κ → κ}
    (h : ∀ s i j, cell (step s i) j = if j = i then f (cell s i) else cell s j) (j : ι) :
    cell (final step s is) j = f^[is.count j] (cell s j) := by
  induction is generalizing s with
  | nil => rfl
  | cons i is ih =>
    rw [final_cons, ih, h]
    by_cases hj : j = i
    · subst hj
      rw [if_pos rfl, List.count_cons_self, Function.iterate_succ_apply]
    · rw [if_neg hj, List.count_cons_of_ne (Ne.symm hj)]

@[simp]
theorem meets_nil : Meets step ok s [] := trivial

@[simp]
theorem meets_cons : Meets step ok s (i :: is) ↔ ok s i ∧ Meets step ok (step s i) is := Iff.rfl

instance decidableMeets [∀ s i, Decidable (ok s i)] :
    ∀ (s : σ) (is : List ι), Decidable (Meets step ok s is)
  | _, [] => isTrue trivial
  | s, i :: is => @instDecidableAnd (ok s i) _ _ (decidableMeets (step s i) is)

theorem meets_append :
    Meets step ok s (is ++ js) ↔ Meets step ok s is ∧ Meets step ok (final step s is) js := by
  induction is generalizing s with
  | nil => simp
  | cons i is ih => simp only [List.cons_append, meets_cons, final_cons, ih, and_assoc]

theorem meets_concat :
    Meets step ok s (is ++ [i]) ↔ Meets step ok s is ∧ ok (final step s is) i := by
  rw [meets_append]
  simp

/-- A run that is cut short. -/
theorem Meets.take (h : Meets step ok s is) (n : ℕ) : Meets step ok s (is.take n) := by
  rw [← List.take_append_drop n is] at h
  exact (meets_append.mp h).1

theorem Meets.imp {ok' : σ → ι → Prop} (h : ∀ s i, ok s i → ok' s i) (hrun : Meets step ok s is) :
    Meets step ok' s is := by
  induction is generalizing s with
  | nil => trivial
  | cons i is ih => exact ⟨h s i hrun.1, ih hrun.2⟩

/-- A condition on the inputs alone. -/
theorem Meets.of_mem {P : ι → Prop} (h : ∀ i ∈ is, P i) : Meets step (fun _ => P) s is := by
  induction is generalizing s with
  | nil => trivial
  | cons i is ih =>
    obtain ⟨hi, his⟩ := List.forall_mem_cons.mp h
    exact ⟨hi, ih his⟩

/-- **Invariant rule.**  What every step that meets `ok` preserves holds at the end of every run
whose steps all meet `ok`. -/
theorem Meets.invariant {I : σ → Prop} (hstep : ∀ s i, I s → ok s i → I (step s i))
    (h : I s) (hrun : Meets step ok s is) : I (final step s is) := by
  induction is generalizing s with
  | nil => exact h
  | cons i is ih => exact ih (hstep s i h hrun.1) hrun.2

/-- What the invariant gives at every step holds at every step of the run. -/
theorem Meets.imp_of_invariant {I : σ → Prop} {ok' : σ → ι → Prop}
    (hstep : ∀ s i, I s → ok s i → I (step s i)) (himp : ∀ s i, I s → ok s i → ok' s i)
    (h : I s) (hrun : Meets step ok s is) : Meets step ok' s is := by
  induction is generalizing s with
  | nil => trivial
  | cons i is ih => exact ⟨himp s i h hrun.1, ih (hstep s i h hrun.1) hrun.2⟩

/-- What every step preserves holds at the end of every run. -/
theorem invariant {I : σ → Prop} (hstep : ∀ s i, I s → I (step s i)) (h : I s) :
    I (final step s is) := by
  induction is generalizing s with
  | nil => exact h
  | cons i is ih => exact ih (hstep s i h)

theorem Meets.and {ok' : σ → ι → Prop} (h : Meets step ok s is) (h' : Meets step ok' s is) :
    Meets step (fun s i => ok s i ∧ ok' s i) s is := by
  induction is generalizing s with
  | nil => trivial
  | cons i is ih => exact ⟨⟨h.1, h'.1⟩, ih h.2 h'.2⟩

/-- Where a step keeps the invariant exactly when it meets `ok`, all states of a run satisfy the
invariant exactly when all its steps meet `ok`. -/
theorem meets_iff_forall_take {I : σ → Prop} (hstep : ∀ s i, I s → (I (step s i) ↔ ok s i))
    (h : I s) : Meets step ok s is ↔ ∀ n, I (final step s (is.take n)) := by
  induction is generalizing s with
  | nil => simp [h]
  | cons i is ih =>
    constructor
    · intro hrun n
      cases n with
      | zero => exact h
      | succ n => exact (ih ((hstep s i h).mpr hrun.1)).mp hrun.2 n
    · intro hall
      have hnext : I (step s i) := by simpa using hall 1
      exact ⟨(hstep s i h).mp hnext, (ih hnext).mpr fun n => by simpa using hall (n + 1)⟩

/-- The same, for a property that is exact on the states of a further invariant. -/
theorem meets_iff_forall_take_of {G J : σ → Prop}
    (hkeep : ∀ s i, G s → J s → G (step s i) → J (step s i))
    (hstep : ∀ s i, G s → J s → (G (step s i) ↔ ok s i)) (hG : G s) (hJ : J s) :
    Meets step ok s is ↔ ∀ n, G (final step s (is.take n)) := by
  induction is generalizing s with
  | nil => simp [hG]
  | cons i is ih =>
    constructor
    · intro hrun n
      have hone := (hstep s i hG hJ).mpr hrun.1
      cases n with
      | zero => exact hG
      | succ n => exact (ih hone (hkeep s i hG hJ hone)).mp hrun.2 n
    · intro hall
      have hone : G (step s i) := by simpa using hall 1
      exact ⟨(hstep s i hG hJ).mp hone,
        (ih hone (hkeep s i hG hJ hone)).mpr fun n => by simpa using hall (n + 1)⟩

/-! ### Counting steps -/

/-- The number of steps that take a state to one related by `P`. -/
def tally (step : σ → ι → σ) (P : σ → σ → Prop) [DecidableRel P] : σ → List ι → ℕ
  | _, [] => 0
  | s, i :: inputs => (if P s (step s i) then 1 else 0) + tally step P (step s i) inputs

/-- The number of steps that meet `ok`. -/
def countMet (step : σ → ι → σ) (ok : σ → ι → Prop) [∀ s i, Decidable (ok s i)] : σ → List ι → ℕ
  | _, [] => 0
  | s, i :: inputs => (if ok s i then 1 else 0) + countMet step ok (step s i) inputs

/-- **Invariant rule with a counter.**  The invariant may speak of the steps counted so far. -/
theorem Meets.invariant_count [∀ s i, Decidable (ok s i)] {P : σ → ι → Prop} {I : ℕ → σ → Prop}
    (hstep : ∀ n s i, I n s → P s i → I (n + if ok s i then 1 else 0) (step s i)) {n : ℕ}
    (h : I n s) (hrun : Meets step P s is) :
    I (n + countMet step ok s is) (final step s is) := by
  induction is generalizing s n with
  | nil => exact h
  | cons i is ih =>
    have hnext := ih (hstep n s i h hrun.1) hrun.2
    rw [Nat.add_assoc] at hnext
    exact hnext

/-- A counter that every step advances as it is counted. -/
theorem counter_eq_tally (count : σ → ℤ) {P : σ → σ → Prop} [DecidableRel P] {I : σ → Prop}
    (hstep : ∀ s i, I s → I (step s i) ∧
      count (step s i) = count s + if P s (step s i) then 1 else 0)
    (h : I s) : count (final step s is) = count s + tally step P s is := by
  induction is generalizing s with
  | nil => simp [tally]
  | cons i is ih =>
    obtain ⟨hnext, hcount⟩ := hstep s i h
    rw [final_cons, ih hnext, hcount, tally]
    push_cast
    ring

end Run
