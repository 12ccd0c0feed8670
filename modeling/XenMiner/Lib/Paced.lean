import Mathlib.Algebra.Order.Group.Defs
import Mathlib.Data.List.Chain
import Mathlib.Tactic.Abel
import Mathlib.Tactic.SplitIfs

/-!
# Paced events

Events are listed with the newest first.  They are paced when each comes after the one before it has
been waited out.  If every wait is at least `d`, then any window holds at most one event more than
the number of times `d` fits into it (`Paced.window`).
-/

variable {ε α : Type*} [AddCommGroup α] [LinearOrder α]

/-- The newest event has been waited out. -/
def Rested (time wait : ε → α) (events : List ε) (now : α) : Prop :=
  ∀ e ∈ events.head?, time e + wait e ≤ now

/-- Each event comes after the wait of the one before. -/
def Paced (time wait : ε → α) (events : List ε) : Prop :=
  events.IsChain fun newer older => time older + wait older ≤ time newer

section Pace

variable {time wait : ε → α} {e : ε} {events : List ε} {now now' d a b : α}

theorem rested_nil : Rested time wait [] now := by
  intro e he
  cases he

@[simp]
theorem rested_cons : Rested time wait (e :: events) now ↔ time e + wait e ≤ now := by
  simp [Rested]

theorem Rested.mono (h : Rested time wait events now) (hle : now ≤ now') :
    Rested time wait events now' := fun e he => (h e he).trans hle

theorem paced_nil : Paced time wait [] := List.isChain_nil

@[simp]
theorem paced_cons :
    Paced time wait (e :: events) ↔ Rested time wait events (time e) ∧ Paced time wait events :=
  List.isChain_cons

variable [IsOrderedAddMonoid α]

/-- All events before the newest have been waited out. -/
theorem Paced.le_of_mem (h : Paced time wait (e :: events)) (hwait : ∀ x ∈ e :: events, 0 ≤ wait x)
    {x : ε} (hx : x ∈ events) : time x + wait x ≤ time e := by
  induction events generalizing e with
  | nil => cases hx
  | cons y events ih =>
    obtain ⟨hrested, hpaced⟩ := paced_cons.mp h
    have hy : time y + wait y ≤ time e := rested_cons.mp hrested
    rcases List.mem_cons.mp hx with rfl | hx
    · exact hy
    · have hbefore := ih hpaced (fun z hz => hwait z (List.mem_cons_of_mem _ hz)) hx
      have hlater : time y ≤ time y + wait y :=
        le_add_of_nonneg_right (hwait y (List.mem_cons_of_mem _ List.mem_cons_self))
      exact hbefore.trans (hlater.trans hy)

/-- **A window of paced events.**  Waits of at least `d` leave room for no more than one event beyond
the number of times `d` fits into the window. -/
theorem Paced.window (h : Paced time wait events) (hd : 0 ≤ d) (hwait : ∀ e ∈ events, d ≤ wait e)
    (hab : a ≤ b) :
    (events.filter fun e => a ≤ time e ∧ time e ≤ b).length • d ≤ b - a + d := by
  induction events generalizing b with
  | nil =>
    rw [List.filter_nil, List.length_nil, zero_nsmul]
    exact add_nonneg (sub_nonneg.mpr hab) hd
  | cons e events ih =>
    obtain ⟨-, hpaced⟩ := paced_cons.mp h
    have hrest := fun x hx => hwait x (List.mem_cons_of_mem e hx)
    by_cases hin : a ≤ time e ∧ time e ≤ b
    · -- The older events of the window are at least `d` before `e`.
      rw [List.filter_cons_of_pos (by simpa using hin), List.length_cons, succ_nsmul]
      have hbefore : ∀ x ∈ events, time x ≤ time e - d := fun x hx =>
        le_sub_iff_add_le.mpr ((add_le_add_right (hrest x hx) _).trans
          (h.le_of_mem (fun y hy => hd.trans (hwait y hy)) hx))
      by_cases hroom : a ≤ time e - d
      · have hsame : (events.filter fun x => a ≤ time x ∧ time x ≤ b) =
            events.filter fun x => a ≤ time x ∧ time x ≤ time e - d := by
          refine List.filter_congr fun x hx => decide_eq_decide.mpr (and_congr_right fun _ => ?_)
          have hle : time x ≤ b := (hbefore x hx).trans ((sub_le_self _ hd).trans hin.2)
          exact iff_of_true hle (hbefore x hx)
        rw [hsame]
        have hcount := add_le_add_left (ih hpaced hrest hroom) d
        have hspan : time e - d - a + d + d = time e - a + d := by abel
        rw [hspan] at hcount
        exact hcount.trans (add_le_add_left (sub_le_sub_right hin.2 a) d)
      · have hnone : (events.filter fun x => a ≤ time x ∧ time x ≤ b) = [] := by
          refine List.filter_eq_nil_iff.mpr fun x hx => ?_
          have hlt : time x < a := (hbefore x hx).trans_lt (not_le.mp hroom)
          simp [hlt]
        rw [hnone, List.length_nil, zero_nsmul, zero_add]
        exact le_add_of_nonneg_left (sub_nonneg.mpr hab)
    · rw [List.filter_cons_of_neg (by simpa using hin)]
      exact ih hpaced hrest hab

end Pace
