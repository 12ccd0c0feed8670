import Mathlib.Data.List.Basic
import Mathlib.Data.List.Perm.Basic

/-!
# Items on their way through a queue

Producers put items in a queue; a consumer takes them from it, holds one, and hands it over.  A queue
that is dropped takes its items with it.  Every item is in one place (`Transit.Conserved`), so all items
come through exactly when no queue is dropped that holds some (`Transit.move_lost`).
-/

/-- Where the items are, and which were put. -/
structure Transit (α : Type*) where
  put : List α := []
  taken : List α := []
  held : List α := []
  queued : List α := []
  lost : List α := []

namespace Transit

variable {α : Type*} {t : Transit α}

inductive Move (α : Type*)
  | stay
  | put (x : α)
  | fetch
  | give
  | drop

def move (t : Transit α) : Move α → Transit α
  | .stay => t
  | .put x => { t with put := t.put ++ [x], queued := t.queued ++ [x] }
  | .fetch => { t with held := t.held ++ t.queued.take 1, queued := t.queued.drop 1 }
  | .give => { t with taken := t.taken ++ t.held, held := [] }
  | .drop => { t with queued := [], lost := t.lost ++ t.queued }

/-- Every item that was put is in exactly one place. -/
def Conserved (t : Transit α) : Prop := t.put.Perm (t.taken ++ t.held ++ t.queued ++ t.lost)

theorem Conserved.move (h : t.Conserved) (m : Move α) : (t.move m).Conserved := by
  unfold Conserved at h ⊢
  cases m with
  | stay => exact h
  | put x =>
    show (t.put ++ [x]).Perm (t.taken ++ t.held ++ (t.queued ++ [x]) ++ t.lost)
    have hend : (t.taken ++ t.held ++ t.queued ++ (t.lost ++ [x])).Perm
        (t.taken ++ t.held ++ t.queued ++ ([x] ++ t.lost)) :=
      List.perm_append_comm.append_left _
    have hput := h.append_right [x]
    simp only [List.append_assoc] at hput hend ⊢
    exact hput.trans hend
  | fetch =>
    show t.put.Perm (t.taken ++ (t.held ++ t.queued.take 1) ++ t.queued.drop 1 ++ t.lost)
    rw [← List.append_assoc t.taken, List.append_assoc (t.taken ++ t.held), List.take_append_drop]
    exact h
  | give =>
    show t.put.Perm (t.taken ++ t.held ++ [] ++ t.queued ++ t.lost)
    rw [List.append_nil]
    exact h
  | drop =>
    show t.put.Perm (t.taken ++ t.held ++ [] ++ (t.lost ++ t.queued))
    rw [List.append_nil]
    rw [List.append_assoc] at h
    exact h.trans (List.perm_append_comm.append_left _)

/-- Nothing is lost by a move that drops no item. -/
theorem move_lost (t : Transit α) (m : Move α) :
    (t.move m).lost = [] ↔ t.lost = [] ∧ (m = .drop → t.queued = []) := by
  cases m <;> simp [move]

/-- The items all come through when none is lost. -/
theorem Conserved.lost_eq_nil_iff (h : t.Conserved) :
    t.lost = [] ↔ t.put.Perm (t.taken ++ t.held ++ t.queued) := by
  constructor
  · intro hlost
    unfold Conserved at h
    rwa [hlost, List.append_nil] at h
  · intro hperm
    have hall := h.length_eq
    have hsome := hperm.length_eq
    rw [List.length_append] at hall
    exact List.eq_nil_of_length_eq_zero (by omega)

end Transit
