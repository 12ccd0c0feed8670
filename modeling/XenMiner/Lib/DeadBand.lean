import Mathlib.Order.Basic

/-!
# Following a value through a dead band

A follower with a dead band takes a new target over only when it is not `near` the value it has
(`follow`); how nearness is measured is left open, since a program may measure it inexactly.  When the
target returns to `top`, the follower does too exactly if it rests there already or is not near it
(`follow_top_eq`): from the values near `top` it never comes back.  A step stays away from them if and
only if its target does or the band swallows it (`rests_follow_iff`).
-/

namespace DeadBand

variable {α : Type*} (near : α → α → Prop)

/-- `x` is `top` or not near it. -/
def Rests (top x : α) : Prop := x = top ∨ ¬ near x top

instance [DecidableEq α] [DecidableRel near] (top x : α) : Decidable (Rests near top x) :=
  inferInstanceAs (Decidable (_ ∨ _))

variable {near} {top x y : α}

theorem rests_top : Rests near top top := Or.inl rfl

variable [DecidableRel near]

variable (near) in
/-- The value after one step towards the target `y`. -/
def follow (x y : α) : α := if near x y then x else y

@[simp]
theorem follow_self (x : α) : follow near x x = x := ite_self x

theorem follow_top_eq : follow near x top = top ↔ Rests near top x := by
  unfold follow Rests
  constructor
  · intro h
    split_ifs at h with hnear
    · exact Or.inl h
    · exact Or.inr hnear
  · rintro (rfl | hfar)
    · exact ite_self _
    · exact if_neg hfar

theorem rests_follow_iff (hx : Rests near top x) :
    Rests near top (follow near x y) ↔ Rests near top y ∨ near x y := by
  unfold follow
  split_ifs with hnear
  · exact ⟨fun _ => Or.inr hnear, fun _ => hx⟩
  · exact ⟨Or.inl, fun h => h.resolve_right hnear⟩

end DeadBand
