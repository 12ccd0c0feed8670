import Mathlib.Data.List.Basic

/-!
# Dictionaries with texts as keys

A dictionary lists its items in the order of their insertion.  `set` keeps the place of a key that is
there, as Python does.
-/

namespace PyDict

variable {α : Type*}

/-- `d[key] = value`. -/
def set (key : String) (value : α) : List (String × α) → List (String × α)
  | [] => [(key, value)]
  | x :: d => if x.1 = key then (key, value) :: d else x :: set key value d

/-- `d.get(key)`. -/
def get (key : String) (d : List (String × α)) : Option α :=
  (d.find? fun x => x.1 = key).map Prod.snd

/-- The dictionary of a list of pairs: the last value of a key, in the place of the first. -/
def ofPairs (pairs : List (String × α)) : List (String × α) :=
  pairs.foldl (fun d x => set x.1 x.2 d) []

variable {key : String} {value : α} {d : List (String × α)} {x : String × α}

theorem mem_set (h : x ∈ set key value d) : x = (key, value) ∨ x ∈ d := by
  induction d with
  | nil => exact Or.inl (List.mem_singleton.mp h)
  | cons y d ih =>
    rw [set] at h
    split_ifs at h
    · rcases List.mem_cons.mp h with rfl | htail
      · exact Or.inl rfl
      · exact Or.inr (List.mem_cons_of_mem y htail)
    · rcases List.mem_cons.mp h with rfl | htail
      · exact Or.inr List.mem_cons_self
      · exact (ih htail).imp_right (List.mem_cons_of_mem y)

theorem get_map {β : Type*} (f : α → β) (key : String) (d : List (String × α)) :
    get key (d.map fun x => (x.1, f x.2)) = (get key d).map f := by
  unfold get
  induction d with
  | nil => rfl
  | cons x d ih =>
    rw [List.map_cons, List.find?_cons, List.find?_cons]
    by_cases hkey : x.1 = key
    · simp [hkey]
    · simpa [hkey] using ih

end PyDict
