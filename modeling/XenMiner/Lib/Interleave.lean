import XenMiner.Lib.Run
import Mathlib.Algebra.BigOperators.Group.Finset.Basic

/-!
# Workers with cells of their own

Every worker has a cell that no other worker touches, and all of them add to one log whose order does
not matter.  They take turns in any order.  A forecast says what a worker's cell will be in the end and
what the worker has still to add; a turn keeps both.  So all orders in which every worker ends lead to
the same state (`Forecast.final_eq`).
-/

/-- What the turns of workers do: to the worker's cell, and what they add to the log. -/
structure Workers (ι α M : Type*) [Zero M] where
  done : α → Prop
  step : ι → α → α
  emit : ι → α → M
  step_done : ∀ i a, done a → step i a = a
  emit_done : ∀ i a, done a → emit i a = 0

namespace Workers

variable {ι α M : Type*} [DecidableEq ι] [AddCommMonoid M] {W : Workers ι α M}

/-- The cells and the log. -/
@[ext]
structure State (ι α M : Type*) where
  cell : ι → α
  log : M

/-- The turn of one worker. -/
def turn (W : Workers ι α M) (s : State ι α M) (i : ι) : State ι α M where
  cell := Function.update s.cell i (W.step i (s.cell i))
  log := s.log + W.emit i (s.cell i)

/-- The end of a cell, and what is added until then. -/
structure Forecast (W : Workers ι α M) where
  final : ι → α → α
  rest : ι → α → M
  final_step : ∀ i a, final i (W.step i a) = final i a
  rest_step : ∀ i a, W.emit i a + rest i (W.step i a) = rest i a
  final_done : ∀ i a, W.done a → final i a = a
  rest_done : ∀ i a, W.done a → rest i a = 0

variable {s : State ι α M} {S : Finset ι}

/-- All workers outside `S` are done. -/
def IdleOutside (W : Workers ι α M) (S : Finset ι) (s : State ι α M) : Prop :=
  ∀ i ∉ S, W.done (s.cell i)

theorem turn_of_done {i : ι} (h : W.done (s.cell i)) : W.turn s i = s := by
  ext
  · show Function.update s.cell i (W.step i (s.cell i)) _ = _
    rw [W.step_done i _ h, Function.update_eq_self]
  · show s.log + W.emit i (s.cell i) = s.log
    rw [W.emit_done i _ h, add_zero]

theorem IdleOutside.turn (h : W.IdleOutside S s) (i : ι) : W.IdleOutside S (W.turn s i) := by
  intro j hj
  by_cases hij : j = i
  · subst hij
    rw [turn_of_done (h j hj)]
    exact h j hj
  · show W.done (Function.update s.cell i _ j)
    rw [Function.update_of_ne hij]
    exact h j hj

namespace Forecast

variable (F : Forecast W)

/-- What all workers have still to add. -/
def owed (S : Finset ι) (s : State ι α M) : M := ∑ i ∈ S, F.rest i (s.cell i)

theorem final_turn (i j : ι) : F.final j ((W.turn s i).cell j) = F.final j (s.cell j) := by
  show F.final j (Function.update s.cell i _ j) = _
  by_cases hij : j = i
  · subst hij
    rw [Function.update_self, F.final_step]
  · rw [Function.update_of_ne hij]

/-- What a turn adds is no longer owed. -/
theorem owed_turn (h : W.IdleOutside S s) (i : ι) :
    (W.turn s i).log + F.owed S (W.turn s i) = s.log + F.owed S s := by
  by_cases hi : i ∈ S
  · have hrest : F.rest i ((W.turn s i).cell i) = F.rest i (W.step i (s.cell i)) := by
      show F.rest i (Function.update s.cell i _ i) = _
      rw [Function.update_self]
    have hothers : ∑ j ∈ S.erase i, F.rest j ((W.turn s i).cell j)
        = ∑ j ∈ S.erase i, F.rest j (s.cell j) := by
      refine Finset.sum_congr rfl fun j hj => ?_
      show F.rest j (Function.update s.cell i _ j) = _
      rw [Function.update_of_ne (Finset.ne_of_mem_erase hj)]
    calc (W.turn s i).log + F.owed S (W.turn s i)
        = s.log + W.emit i (s.cell i) + (F.rest i (W.step i (s.cell i))
            + ∑ j ∈ S.erase i, F.rest j (s.cell j)) := by
          unfold owed
          rw [← Finset.add_sum_erase S _ hi, hrest, hothers]
          rfl
      _ = s.log + (W.emit i (s.cell i) + F.rest i (W.step i (s.cell i))
            + ∑ j ∈ S.erase i, F.rest j (s.cell j)) := by
          rw [add_assoc, add_assoc]
      _ = s.log + F.owed S s := by
          rw [F.rest_step, Finset.add_sum_erase S (fun j => F.rest j (s.cell j)) hi]
          rfl
  · rw [turn_of_done (h i hi)]

/-- **Every order leads to the forecast.**  When all workers have ended, each cell is as forecast and
the log has grown by what all of them owed. -/
theorem final_eq (h : W.IdleOutside S s) (order : List ι)
    (hdone : ∀ i ∈ S, W.done ((Run.final W.turn s order).cell i)) :
    Run.final W.turn s order = ⟨fun i => F.final i (s.cell i), s.log + F.owed S s⟩ := by
  have hkept : W.IdleOutside S (Run.final W.turn s order) ∧
      (∀ j, F.final j ((Run.final W.turn s order).cell j) = F.final j (s.cell j)) ∧
        (Run.final W.turn s order).log + F.owed S (Run.final W.turn s order)
          = s.log + F.owed S s := by
    refine Run.invariant (I := fun t => W.IdleOutside S t ∧
      (∀ j, F.final j (t.cell j) = F.final j (s.cell j)) ∧
        t.log + F.owed S t = s.log + F.owed S s) ?_ ⟨h, fun _ => rfl, rfl⟩
    rintro t i ⟨hidle, hfinal, howed⟩
    exact ⟨hidle.turn i, fun j => (F.final_turn i j).trans (hfinal j),
      (F.owed_turn hidle i).trans howed⟩
  obtain ⟨hidle, hfinal, howed⟩ := hkept
  have hpaid : F.owed S (Run.final W.turn s order) = 0 :=
    Finset.sum_eq_zero fun i hi => F.rest_done i _ (hdone i hi)
  ext j
  · show (Run.final W.turn s order).cell j = F.final j (s.cell j)
    have hend : W.done ((Run.final W.turn s order).cell j) := by
      by_cases hj : j ∈ S
      · exact hdone j hj
      · exact hidle j hj
    rw [← hfinal j, F.final_done j _ hend]
  · show (Run.final W.turn s order).log = s.log + F.owed S s
    rw [← howed, hpaid, add_zero]

end Forecast

end Workers
