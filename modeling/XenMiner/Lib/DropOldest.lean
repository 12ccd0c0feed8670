import XenMiner.Lib.Run
import Mathlib.Algebra.Order.Group.Multiset
import Mathlib.Data.List.Perm.Basic
import Mathlib.Tactic.Abel

/-!
# A bounded queue that gives up its oldest item

Producers put items in a queue of `cap` places, and a consumer takes them from it.  A call that finds the
queue full throws the oldest item away and tries once more; a call that finds it full again gives its own
item up.  The three accesses of a call are turns of their own, so other calls and the consumer get in
between.

The queue is never over `cap`, what it gives out keeps the order of what came in, every item is in one
place, and no item is lost unless more than `cap` have come (`DropOldest.Inv`).  Calls that come one after
the other never give their own item up, and come in in order (`DropOldest.Alone`).
-/

/-- Where a call is with its item. -/
inductive PutCall (α : Type*)
  | first (x : α)
  | evict (x : α)
  | again (x : α)
  | done
  deriving DecidableEq, Repr

/-- The item of a call that has not ended. -/
def PutCall.item {α : Type*} : PutCall α → List α
  | .first x => [x]
  | .evict x => [x]
  | .again x => [x]
  | .done => []

def PutCall.isEvict {α : Type*} : PutCall α → Bool
  | .evict _ => true
  | _ => false

/-- The queue, the calls begun so far, and what became of the items. -/
structure DropOldest (α : Type*) where
  queue : List α := []
  calls : List (PutCall α) := []
  begun : List α := []
  entered : List α := []
  taken : List α := []
  evicted : List α := []
  refused : List α := []

namespace DropOldest

variable {α : Type*} {cap : ℕ} {s : DropOldest α} {x : α} {k : ℕ} {c c' : PutCall α}

/-- A turn: a call begins, the `k`-th call goes on, or the consumer takes an item. -/
inductive Turn (α : Type*)
  | begin (x : α)
  | call (k : ℕ)
  | take
  deriving Repr

/-- The item of the `k`-th call comes in, and the call ends. -/
def enter (s : DropOldest α) (k : ℕ) (x : α) : DropOldest α :=
  { s with
    calls := s.calls.set k .done
    queue := s.queue ++ [x]
    entered := s.entered ++ [x] }

/-- The `k`-th call finds the queue full for the first time. -/
def fail (s : DropOldest α) (k : ℕ) (x : α) : DropOldest α :=
  { s with calls := s.calls.set k (.evict x) }

/-- The `k`-th call throws the oldest item away, if there still is one. -/
def evict (s : DropOldest α) (k : ℕ) (x : α) : DropOldest α :=
  { s with
    calls := s.calls.set k (.again x)
    queue := s.queue.drop 1
    evicted := s.evicted ++ s.queue.take 1 }

/-- The `k`-th call gives its item up. -/
def refuse (s : DropOldest α) (k : ℕ) (x : α) : DropOldest α :=
  { s with
    calls := s.calls.set k .done
    refused := s.refused ++ [x] }

/-- The next access of a call. -/
def access (cap : ℕ) (s : DropOldest α) (k : ℕ) : PutCall α → DropOldest α
  | .first x => if s.queue.length < cap then s.enter k x else s.fail k x
  | .evict x => s.evict k x
  | .again x => if s.queue.length < cap then s.enter k x else s.refuse k x
  | .done => s

def step (cap : ℕ) (s : DropOldest α) : Turn α → DropOldest α
  | .begin x => { s with calls := s.calls ++ [.first x], begun := s.begun ++ [x] }
  | .call k =>
    match s.calls[k]? with
    | some c => s.access cap k c
    | none => s
  | .take => { s with queue := s.queue.drop 1, taken := s.taken ++ s.queue.take 1 }

/-! ### The calls -/

/-- The items of the calls that have not ended. -/
def waiting (s : DropOldest α) : List α := s.calls.flatMap PutCall.item

/-- The calls that are about to throw an item away. -/
def evicting (s : DropOldest α) : ℕ := s.calls.countP PutCall.isEvict

theorem waiting_begin (x : α) : (s.step cap (.begin x)).waiting = s.waiting ++ [x] := by
  unfold waiting step
  rw [List.flatMap_append]
  rfl

theorem perm_calls (hk : s.calls[k]? = some c) : s.calls.Perm (c :: s.calls.eraseIdx k) := by
  obtain ⟨hlt, rfl⟩ := List.getElem?_eq_some_iff.mp hk
  exact (List.getElem_cons_eraseIdx_perm hlt).symm

theorem perm_set (hk : s.calls[k]? = some c) (c' : PutCall α) :
    (s.calls.set k c').Perm (c' :: s.calls.eraseIdx k) := by
  obtain ⟨hlt, -⟩ := List.getElem?_eq_some_iff.mp hk
  exact List.set_perm_cons_eraseIdx hlt c'

/-- What is waiting besides the `k`-th call. -/
def others (s : DropOldest α) (k : ℕ) : List α := (s.calls.eraseIdx k).flatMap PutCall.item

theorem waiting_perm (hk : s.calls[k]? = some c) : s.waiting.Perm (c.item ++ s.others k) :=
  (perm_calls hk).flatMap_right _

theorem waiting_set_perm (hk : s.calls[k]? = some c) (c' : PutCall α) :
    ((s.calls.set k c').flatMap PutCall.item).Perm (c'.item ++ s.others k) :=
  (perm_set hk c').flatMap_right _

theorem evicting_eq (hk : s.calls[k]? = some c) :
    s.evicting = (s.calls.eraseIdx k).countP PutCall.isEvict + if c.isEvict then 1 else 0 :=
  ((perm_calls hk).countP_eq _).trans (List.countP_cons)

theorem evicting_set (hk : s.calls[k]? = some c) (c' : PutCall α) :
    (s.calls.set k c').countP PutCall.isEvict =
      (s.calls.eraseIdx k).countP PutCall.isEvict + if c'.isEvict then 1 else 0 :=
  ((perm_set hk c').countP_eq _).trans (List.countP_cons)

/-- A call about to throw an item away waits with an item of its own. -/
theorem countP_isEvict_le (calls : List (PutCall α)) :
    calls.countP PutCall.isEvict ≤ (calls.flatMap PutCall.item).length := by
  induction calls with
  | nil => exact le_rfl
  | cons c calls ih =>
    rw [List.countP_cons, List.flatMap_cons, List.length_append]
    cases c <;> simp only [PutCall.isEvict, PutCall.item, List.length_cons, List.length_nil] <;> grind

/-! ### All turns -/

/-- The items that are lost. -/
def losses (s : DropOldest α) : ℕ := s.evicted.length + s.refused.length

structure Inv (cap : ℕ) (s : DropOldest α) : Prop where
  bounded : s.queue.length ≤ cap
  fifo : (s.taken ++ s.queue).Sublist s.entered
  conserved : (s.begun : Multiset α) = s.taken + s.evicted + s.refused + s.queue + s.waiting
  lost : s.losses + s.evicting = 0 ∨ s.losses + s.evicting + cap ≤ s.begun.length

theorem Inv.length_begun (h : Inv cap s) :
    s.begun.length = s.taken.length + s.losses + s.queue.length + s.waiting.length := by
  have hcard := congrArg Multiset.card h.conserved
  simp only [Multiset.card_add, Multiset.coe_card] at hcard
  unfold losses
  omega

/-- What comes out was put in. -/
theorem Inv.mem_begun (h : Inv cap s) (hx : x ∈ s.taken ++ s.queue) : x ∈ s.begun := by
  rw [← Multiset.mem_coe, h.conserved]
  simp only [Multiset.mem_add, Multiset.mem_coe]
  rcases List.mem_append.mp hx with htaken | hqueue
  · simp [htaken]
  · simp [hqueue]

theorem inv_new (cap : ℕ) : Inv cap ({} : DropOldest α) where
  bounded := Nat.zero_le _
  fifo := List.Sublist.refl _
  conserved := rfl
  lost := Or.inl rfl

theorem Inv.begin (h : Inv cap s) (x : α) : Inv cap (s.step cap (.begin x)) where
  bounded := h.bounded
  fifo := h.fifo
  conserved := by
    rw [waiting_begin]
    unfold step
    simp only [← Multiset.coe_add, h.conserved]
    abel
  lost := by
    have hevicting : (s.step cap (.begin x)).evicting = s.evicting := by
      unfold evicting step
      rw [List.countP_append]
      rfl
    have hbegun : (s.step cap (.begin x)).begun.length = s.begun.length + 1 := List.length_append
    rw [hevicting, hbegun]
    rcases h.lost with hnone | hsome
    · exact Or.inl hnone
    · exact Or.inr (hsome.trans (Nat.le_succ _))

theorem Inv.take (h : Inv cap s) : Inv cap (s.step cap .take) where
  bounded := by
    unfold step
    rw [List.length_drop]
    exact (Nat.sub_le _ _).trans h.bounded
  fifo := by
    unfold step
    dsimp only
    rw [List.append_assoc, List.take_append_drop]
    exact h.fifo
  conserved := by
    have hqueue : (s.queue : Multiset α) = (s.queue.take 1 : Multiset α) + s.queue.drop 1 := by
      rw [Multiset.coe_add, List.take_append_drop]
    unfold step
    simp only [← Multiset.coe_add, h.conserved]
    rw [hqueue]
    show _ = _ + (s.waiting : Multiset α)
    abel
  lost := h.lost

section Access

variable (h : Inv cap s)
include h

/-- The waiting items around the `k`-th call. -/
theorem Inv.begun_eq (hk : s.calls[k]? = some c) :
    (s.begun : Multiset α) =
      s.taken + s.evicted + s.refused + s.queue + (c.item + s.others k : Multiset α) := by
  rw [h.conserved, Multiset.coe_add c.item, Multiset.coe_eq_coe.mpr (waiting_perm hk)]

theorem Inv.enter (hk : s.calls[k]? = some c) (hitem : c.item = [x]) (hevict : c.isEvict = false)
    (hroom : s.queue.length < cap) : Inv cap (s.enter k x) where
  bounded := by
    unfold DropOldest.enter
    rw [List.length_append]
    exact hroom
  fifo := by
    unfold DropOldest.enter
    dsimp only
    rw [← List.append_assoc]
    exact h.fifo.append (List.Sublist.refl _)
  conserved := by
    have hwaiting : ((s.enter k x).waiting : Multiset α) = s.others k :=
      Multiset.coe_eq_coe.mpr (waiting_set_perm hk .done)
    rw [hwaiting]
    show (s.begun : Multiset α) = s.taken + s.evicted + s.refused + (s.queue ++ [x] : List α) + s.others k
    rw [h.begun_eq hk, hitem, ← Multiset.coe_add]
    abel
  lost := by
    have hevicting : (s.enter k x).evicting = s.evicting := by
      rw [evicting_eq hk, hevict]
      exact evicting_set hk .done
    rw [hevicting]
    exact h.lost

theorem Inv.fail (hk : s.calls[k]? = some (.first x)) (hfull : ¬ s.queue.length < cap) :
    Inv cap (s.fail k x) where
  bounded := h.bounded
  fifo := h.fifo
  conserved := by
    have hwaiting : ((s.fail k x).waiting : Multiset α) = ([x] + s.others k : Multiset α) :=
      Multiset.coe_eq_coe.mpr (waiting_set_perm hk (.evict x))
    rw [hwaiting]
    exact h.begun_eq hk
  lost := by
    right
    have hevicting : (s.fail k x).evicting = s.evicting + 1 := by
      rw [evicting_eq hk]
      exact evicting_set hk (.evict x)
    have hlength := h.length_begun
    have hwaiting := (waiting_perm hk).length_eq
    have hothers := countP_isEvict_le (s.calls.eraseIdx k)
    have hsome := evicting_eq hk
    simp only [PutCall.item, PutCall.isEvict, List.length_append, List.length_singleton,
      Bool.false_eq_true, if_false, Nat.add_zero] at hwaiting hsome
    rw [hevicting, hsome]
    show s.losses + _ + cap ≤ s.begun.length
    unfold others at hwaiting
    omega

theorem Inv.evict (hk : s.calls[k]? = some (.evict x)) : Inv cap (s.evict k x) where
  bounded := by
    unfold DropOldest.evict
    rw [List.length_drop]
    exact (Nat.sub_le _ _).trans h.bounded
  fifo := ((List.drop_sublist 1 _).append_left _).trans h.fifo
  conserved := by
    have hwaiting : ((s.evict k x).waiting : Multiset α) = ([x] + s.others k : Multiset α) :=
      Multiset.coe_eq_coe.mpr (waiting_set_perm hk (.again x))
    have hqueue : (s.queue : Multiset α) = (s.queue.take 1 : Multiset α) + s.queue.drop 1 := by
      rw [Multiset.coe_add, List.take_append_drop]
    rw [hwaiting]
    show (s.begun : Multiset α) = s.taken + (s.evicted ++ s.queue.take 1 : List α) + s.refused +
      (s.queue.drop 1 : List α) + _
    rw [h.begun_eq hk, hqueue, ← Multiset.coe_add]
    show _ + ([x] + s.others k : Multiset α) = _
    abel
  lost := by
    have hevicting : (s.evict k x).evicting + 1 = s.evicting := by
      rw [evicting_eq hk]
      exact congrArg (· + 1) (evicting_set hk (.again x))
    have hlosses : (s.evict k x).losses ≤ s.losses + 1 := by
      unfold losses DropOldest.evict
      dsimp only
      rw [List.length_append, List.length_take]
      omega
    have hbegun : (s.evict k x).begun = s.begun := rfl
    rw [hbegun]
    have hlost := h.lost
    omega

theorem Inv.refuse (hk : s.calls[k]? = some (.again x)) (hfull : ¬ s.queue.length < cap) :
    Inv cap (s.refuse k x) where
  bounded := h.bounded
  fifo := h.fifo
  conserved := by
    have hwaiting : ((s.refuse k x).waiting : Multiset α) = s.others k :=
      Multiset.coe_eq_coe.mpr (waiting_set_perm hk .done)
    rw [hwaiting]
    show (s.begun : Multiset α) = s.taken + s.evicted + (s.refused ++ [x] : List α) + s.queue + s.others k
    rw [h.begun_eq hk, ← Multiset.coe_add]
    show _ + ([x] + s.others k : Multiset α) = _
    abel
  lost := by
    right
    have hevicting : (s.refuse k x).evicting = s.evicting := by
      rw [evicting_eq hk]
      exact evicting_set hk .done
    have hlosses : (s.refuse k x).losses = s.losses + 1 := by
      unfold losses DropOldest.refuse
      rw [List.length_append]
      exact (Nat.add_assoc _ _ _).symm
    have hlength := h.length_begun
    have hwaiting := (waiting_perm hk).length_eq
    have hothers := countP_isEvict_le (s.calls.eraseIdx k)
    have hsome := evicting_eq hk
    simp only [PutCall.item, PutCall.isEvict, List.length_append, List.length_singleton,
      Bool.false_eq_true, if_false, Nat.add_zero] at hwaiting hsome
    rw [hevicting, hlosses, hsome]
    show s.losses + 1 + _ + cap ≤ s.begun.length
    unfold others at hwaiting
    omega

/-- Every turn keeps the invariant. -/
theorem Inv.step (t : Turn α) : Inv cap (s.step cap t) := by
  cases t with
  | begin x => exact h.begin x
  | take => exact h.take
  | call k =>
    unfold DropOldest.step
    dsimp only
    cases hk : s.calls[k]? with
    | none => exact h
    | some c =>
      cases c with
      | first x =>
        unfold access
        split_ifs with hroom
        · exact h.enter hk rfl rfl hroom
        · exact h.fail hk hroom
      | evict x => exact h.evict hk
      | again x =>
        unfold access
        split_ifs with hroom
        · exact h.enter hk rfl rfl hroom
        · exact h.refuse hk hroom
      | done => exact h

end Access

/-! ### One call at a time -/

/-- A call begins only after the calls before it have ended. -/
def OneAtATime (s : DropOldest α) : Turn α → Prop
  | .begin _ => s.waiting = []
  | _ => True

/-- At most one call has not ended; it finds room after its eviction, and no call gives its item up. -/
structure Alone (cap : ℕ) (s : DropOldest α) : Prop where
  refused : s.refused = []
  single : s.waiting.length ≤ 1
  room : ∀ x, .again x ∈ s.calls → s.queue.length < cap
  ordered : s.begun = s.entered ++ s.waiting

theorem mem_waiting (hc : c ∈ s.calls) (hx : x ∈ c.item) : x ∈ s.waiting :=
  List.mem_flatMap.mpr ⟨c, hc, hx⟩

theorem not_mem_calls (h : s.waiting = []) : PutCall.again x ∉ s.calls := by
  intro hc
  have hx : x ∈ s.waiting := mem_waiting hc List.mem_cons_self
  rw [h] at hx
  cases hx

/-- The one call that has not ended is the one whose turn it is. -/
theorem Alone.eq_item (h : Alone cap s) (hk : s.calls[k]? = some c) (hitem : c.item = [x]) :
    s.waiting = [x] ∧ s.others k = [] := by
  have hperm := waiting_perm hk
  have hlength := hperm.length_eq
  have hsingle := h.single
  rw [hitem, List.length_append, List.length_singleton] at hlength
  have hothers : s.others k = [] := List.eq_nil_of_length_eq_zero (by omega)
  rw [hothers, hitem, List.append_nil] at hperm
  exact ⟨List.perm_singleton.mp hperm, hothers⟩

theorem waiting_set (hk : s.calls[k]? = some c) (hothers : s.others k = []) (hitem : c'.item.length ≤ 1) :
    (s.calls.set k c').flatMap PutCall.item = c'.item := by
  have hperm := waiting_set_perm hk c'
  rw [hothers, List.append_nil] at hperm
  cases c' with
  | done => exact hperm.eq_nil
  | first y => exact List.perm_singleton.mp hperm
  | evict y => exact List.perm_singleton.mp hperm
  | again y => exact List.perm_singleton.mp hperm

theorem alone_new (cap : ℕ) : Alone cap ({} : DropOldest α) where
  refused := rfl
  single := Nat.zero_le _
  room _ hx := by cases hx
  ordered := rfl

theorem Alone.begin (h : Alone cap s) (hnone : s.waiting = []) (x : α) :
    Alone cap (s.step cap (.begin x)) := by
  have hwaiting : (s.step cap (.begin x)).waiting = [x] := by
    rw [waiting_begin, hnone, List.nil_append]
  constructor
  · exact h.refused
  · rw [hwaiting]
    exact le_rfl
  · intro y hy
    rcases List.mem_append.mp hy with hold | hnew
    · exact absurd hold (not_mem_calls hnone)
    · cases List.mem_singleton.mp hnew
  · rw [hwaiting]
    show s.begun ++ [x] = s.entered ++ [x]
    rw [h.ordered, hnone, List.append_nil]

section Access

variable (h : Alone cap s)
include h

theorem Alone.enter (hk : s.calls[k]? = some c) (hitem : c.item = [x]) : Alone cap (s.enter k x) := by
  obtain ⟨hwaiting, hothers⟩ := h.eq_item hk hitem
  have hnone : (s.enter k x).waiting = [] := waiting_set hk hothers (Nat.zero_le 1)
  constructor
  · exact h.refused
  · rw [hnone]
    exact Nat.zero_le _
  · intro y hy
    exact absurd hy (not_mem_calls hnone)
  · rw [hnone, List.append_nil]
    show s.begun = s.entered ++ [x]
    rw [h.ordered, hwaiting]

theorem Alone.fail (hk : s.calls[k]? = some (.first x)) : Alone cap (s.fail k x) := by
  obtain ⟨hwaiting, hothers⟩ := h.eq_item hk rfl
  have hitem : (s.fail k x).waiting = [x] := waiting_set hk hothers (by exact le_rfl)
  constructor
  · exact h.refused
  · rw [hitem]
    exact le_rfl
  · intro y hy
    rcases List.mem_cons.mp ((perm_set hk (.evict x)).mem_iff.mp hy) with heq | hrest
    · cases heq
    · exact h.room y (List.mem_of_mem_eraseIdx hrest)
  · rw [hitem]
    show s.begun = s.entered ++ [x]
    rw [h.ordered, hwaiting]

theorem Alone.evict (hk : s.calls[k]? = some (.evict x)) (hbounded : s.queue.length ≤ cap)
    (hcap : 0 < cap) : Alone cap (s.evict k x) := by
  obtain ⟨hwaiting, hothers⟩ := h.eq_item hk rfl
  have hitem : (s.evict k x).waiting = [x] := waiting_set hk hothers (by exact le_rfl)
  constructor
  · exact h.refused
  · rw [hitem]
    exact le_rfl
  · intro y hy
    show (s.queue.drop 1).length < cap
    rw [List.length_drop]
    omega
  · rw [hitem]
    show s.begun = s.entered ++ [x]
    rw [h.ordered, hwaiting]

theorem Alone.take : Alone cap (s.step cap .take) where
  refused := h.refused
  single := h.single
  room y hy := by
    have hroom := h.room y hy
    show (s.queue.drop 1).length < cap
    rw [List.length_drop]
    omega
  ordered := h.ordered

theorem Alone.step {t : Turn α} (hinv : Inv cap s) (hcap : 0 < cap) (ht : s.OneAtATime t) :
    Alone cap (s.step cap t) := by
  cases t with
  | begin x => exact h.begin ht x
  | take => exact h.take
  | call k =>
    unfold DropOldest.step
    dsimp only
    cases hk : s.calls[k]? with
    | none => exact h
    | some c =>
      cases c with
      | first x =>
        unfold access
        split_ifs
        · exact h.enter hk rfl
        · exact h.fail hk
      | evict x => exact h.evict hk hinv.bounded hcap
      | again x =>
        -- the eviction has made room, and no other call has taken it
        have hroom := h.room x (List.mem_of_getElem? hk)
        show Alone cap (if s.queue.length < cap then s.enter k x else s.refuse k x)
        rw [if_pos hroom]
        exact h.enter hk rfl
      | done => exact h

end Access

end DropOldest
