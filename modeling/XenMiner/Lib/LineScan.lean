import Mathlib.Data.List.Basic
import Mathlib.Tactic.SplitIfs

/-!
# Scanning lines with one flag

A scanner goes through the lines of a file and keeps a flag: whether it is in the part it looks for.
Headers set the flag, and the lines it looks for count only while the flag is up.  `edit` replaces these
lines, `find?` returns the first one and `marks` tells which they are.  What an edit does to another
scanner's first line is `find?_edit_of_apart`: nothing, unless both look for a line in the same part.
-/

/-- A header tells whether it opens the part; `hits` are the lines that are looked for there. -/
structure LineScanner (α : Type*) where
  opens : α → Option Bool
  hits : α → Bool

namespace LineScanner

variable {α : Type*} (S : LineScanner α)

/-- The flag behind a line. -/
def next (b : Bool) (line : α) : Bool := (S.opens line).getD b

/-- The line counts. -/
def here (b : Bool) (line : α) : Bool := (S.opens line).isNone && (b && S.hits line)

/-- The lines that count are replaced. -/
def edit (new : α) : Bool → List α → List α
  | _, [] => []
  | b, line :: lines => (if S.here b line then new else line) :: edit new (S.next b line) lines

/-- The first line that counts. -/
def find? : Bool → List α → Option α
  | _, [] => none
  | b, line :: lines => if S.here b line then some line else find? (S.next b line) lines

/-- Which lines count. -/
def marks : Bool → List α → List Bool
  | _, [] => []
  | b, line :: lines => S.here b line :: marks (S.next b line) lines

/-- The flag behind all lines. -/
def endsIn (b : Bool) (lines : List α) : Bool := lines.foldl S.next b

variable {S} {T : LineScanner α} {new line : α} {b b' : Bool} {lines more : List α}

theorem next_of_opens_none (h : S.opens line = none) : S.next b line = b := by
  unfold next
  rw [h]
  rfl

theorem here_of_opens_none (h : S.opens line = none) : S.here b line = (b && S.hits line) := by
  unfold here
  rw [h]
  rfl

theorem here_of_opens_some {c : Bool} (h : S.opens line = some c) : S.here b line = false := by
  unfold here
  rw [h]
  rfl

theorem find?_append : S.find? b (lines ++ more) =
    (S.find? b lines).or (S.find? (S.endsIn b lines) more) := by
  induction lines generalizing b with
  | nil => rfl
  | cons line lines ih =>
    rw [List.cons_append, find?, find?]
    split_ifs
    · rfl
    · exact ih

theorem marks_append : S.marks b (lines ++ more) =
    S.marks b lines ++ S.marks (S.endsIn b lines) more := by
  induction lines generalizing b with
  | nil => rfl
  | cons line lines ih => exact congrArg (S.here b line :: ·) ih

theorem endsIn_append : S.endsIn b (lines ++ more) = S.endsIn (S.endsIn b lines) more :=
  List.foldl_append

/-- A line is marked exactly if one is found. -/
theorem true_mem_marks : true ∈ S.marks b lines ↔ (S.find? b lines).isSome = true := by
  induction lines generalizing b with
  | nil => exact iff_of_false List.not_mem_nil Bool.false_ne_true
  | cons line lines ih =>
    rw [marks, find?, List.mem_cons, ih]
    split_ifs with hhere
    · exact iff_of_true (Or.inl hhere.symm) rfl
    · exact or_iff_right fun h => hhere h.symm

theorem mem_of_find? (h : S.find? b lines = some line) : line ∈ lines := by
  induction lines generalizing b with
  | nil => cases h
  | cons first lines ih =>
    rw [find?] at h
    split_ifs at h
    · exact Option.some.inj h ▸ List.mem_cons_self
    · exact List.mem_cons_of_mem _ (ih h)

theorem mem_edit (h : line ∈ S.edit new b lines) : line = new ∨ line ∈ lines := by
  induction lines generalizing b with
  | nil => cases h
  | cons first lines ih =>
    rcases List.mem_cons.mp h with rfl | hrest
    · split_ifs
      · exact Or.inl rfl
      · exact Or.inr List.mem_cons_self
    · exact (ih hrest).imp_right (List.mem_cons_of_mem _)

theorem edit_ne_nil (h : lines ≠ []) : S.edit new b lines ≠ [] := by
  cases lines with
  | nil => exact absurd rfl h
  | cons line lines => exact List.cons_ne_nil _ _

/-- Without a line that counts nothing is replaced. -/
theorem edit_of_find?_eq_none (h : S.find? b lines = none) : S.edit new b lines = lines := by
  induction lines generalizing b with
  | nil => rfl
  | cons line lines ih =>
    rw [find?] at h
    split_ifs at h with hhere
    rw [edit, if_neg hhere, ih h]

/-- The new line is the first that counts, if it is no header and is looked for. -/
theorem find?_edit_self (hopens : S.opens new = none) (hhits : S.hits new = true)
    (h : S.find? b lines ≠ none) : S.find? b (S.edit new b lines) = some new := by
  induction lines generalizing b with
  | nil => exact absurd rfl h
  | cons line lines ih =>
    rw [find?] at h
    rw [edit, find?]
    by_cases hhere : S.here b line = true
    · have hb : b = true := by
        unfold here at hhere
        simp only [Bool.and_eq_true] at hhere
        exact hhere.2.1
      rw [if_pos hhere, if_pos]
      rw [here_of_opens_none hopens, hb, hhits]
      rfl
    · rw [if_neg hhere] at h ⊢
      rw [if_neg hhere]
      exact ih h

/-- A new line that is a header is not found, and no line behind it is. -/
theorem find?_edit_header {c : Bool} (hopens : S.opens new = some c) (hle : b' = true → b = true) :
    S.find? b' (S.edit new b lines) = none := by
  induction lines generalizing b b' with
  | nil => rfl
  | cons line lines ih =>
    rw [edit, find?]
    by_cases hhere : S.here b line = true
    · have hparts := hhere
      unfold here at hparts
      simp only [Bool.and_eq_true, Option.isNone_iff_eq_none] at hparts
      rw [if_pos hhere, if_neg (by rw [here_of_opens_some hopens]; exact Bool.false_ne_true)]
      refine ih fun _ => ?_
      rw [next_of_opens_none hparts.1]
      exact hparts.2.1
    · rw [if_neg hhere]
      have hnot : ¬ S.here b' line = true := by
        unfold here at hhere ⊢
        simp only [Bool.and_eq_true] at hhere ⊢
        exact fun h => hhere ⟨h.1, hle h.2.1, h.2.2⟩
      rw [if_neg hnot]
      refine ih ?_
      unfold next
      cases S.opens line with
      | none => exact hle
      | some d => exact id

/-- Two scanners take the same lines for headers. -/
def SameHeaders (S T : LineScanner α) : Prop := ∀ line, S.opens line = none ↔ T.opens line = none

/-- No line is looked for by both, and the new one is not looked for by the second. -/
def Apart (S T : LineScanner α) (new : α) : Prop :=
  T.hits new = false ∧ ∀ line, S.hits line = true → T.hits line = false

/-- **The frame rule.**  An edit leaves what another scanner finds, if the two are never in their parts
at once, or look for different lines. -/
theorem find?_edit_of_apart (hsame : SameHeaders S T) (hopens : S.opens new = none)
    (hboth : b = true → b' = true → Apart S T new)
    (hparts : ∀ line, S.opens line = some true → T.opens line = some true → Apart S T new) :
    T.find? b' (S.edit new b lines) = T.find? b' lines := by
  have hnew : T.opens new = none := (hsame new).mp hopens
  induction lines generalizing b b' with
  | nil => rfl
  | cons line lines ih =>
    rw [edit, find?, find?]
    by_cases hhere : S.here b line = true
    · -- the second scanner looks neither for the replaced line nor for the new one
      have hline := hhere
      unfold here at hline
      simp only [Bool.and_eq_true, Option.isNone_iff_eq_none] at hline
      obtain ⟨hnone, hb, hhits⟩ := hline
      have hnone' : T.opens line = none := (hsame line).mp hnone
      have hold : T.here b' line = false := by
        rw [here_of_opens_none hnone']
        cases hb' : b' with
        | false => rfl
        | true => exact (hboth hb hb').2 line hhits
      have hreplaced : T.here b' new = false := by
        rw [here_of_opens_none hnew]
        cases hb' : b' with
        | false => rfl
        | true => exact (hboth hb hb').1
      rw [if_pos hhere, if_neg (by rw [hreplaced]; decide), if_neg (by rw [hold]; decide),
        next_of_opens_none hnone, next_of_opens_none hnone', next_of_opens_none hnew]
      exact ih hboth
    · -- the line stays, and may begin a part of either scanner
      rw [if_neg hhere]
      have hnext : S.next b line = true → T.next b' line = true → Apart S T new := by
        unfold next
        cases hS : S.opens line with
        | none =>
          rw [(hsame line).mp hS]
          exact hboth
        | some c =>
          cases hT : T.opens line with
          | none => exact absurd ((hsame line).mpr hT) (by rw [hS]; exact Option.some_ne_none c)
          | some d =>
            intro hc hd
            exact hparts line (hS.trans (congrArg some hc)) (hT.trans (congrArg some hd))
      rw [ih hnext]

/-- A header goes on counting as one. -/
theorem next_edit (hsame : SameHeaders S T) (hopens : S.opens new = none) (b b' : Bool) (line : α) :
    T.next b' (if S.here b line then new else line) = T.next b' line := by
  split_ifs with hhere
  · unfold here at hhere
    simp only [Bool.and_eq_true, Option.isNone_iff_eq_none] at hhere
    rw [next_of_opens_none ((hsame new).mp hopens), next_of_opens_none ((hsame line).mp hhere.1)]
  · rfl

theorem endsIn_edit (hsame : SameHeaders S T) (hopens : S.opens new = none) :
    T.endsIn b' (S.edit new b lines) = T.endsIn b' lines := by
  induction lines generalizing b b' with
  | nil => rfl
  | cons line lines ih =>
    show T.endsIn (T.next b' (if S.here b line then new else line))
      (S.edit new (S.next b line) lines) = _
    rw [next_edit hsame hopens]
    exact ih

/-- An edit leaves the marks of a scanner that looks for different lines. -/
theorem marks_edit_of_apart (hsame : SameHeaders S T) (hopens : S.opens new = none)
    (hapart : Apart S T new) : T.marks b' (S.edit new b lines) = T.marks b' lines := by
  induction lines generalizing b b' with
  | nil => rfl
  | cons line lines ih =>
    have hmark : T.here b' (if S.here b line then new else line) = T.here b' line := by
      split_ifs with hhere
      · unfold here at hhere
        simp only [Bool.and_eq_true, Option.isNone_iff_eq_none] at hhere
        rw [here_of_opens_none ((hsame new).mp hopens), here_of_opens_none ((hsame line).mp hhere.1),
          hapart.1, hapart.2 line hhere.2.2]
      · rfl
    rw [edit, marks, marks, hmark, next_edit hsame hopens, ih]

/-- Two scanners that are in their parts at the end were opened by one header. -/
theorem endsIn_both (hsame : SameHeaders S T) (h : S.endsIn b lines = true)
    (h' : T.endsIn b' lines = true) :
    (b = true ∧ b' = true) ∨ ∃ line ∈ lines, S.opens line = some true ∧ T.opens line = some true := by
  induction lines generalizing b b' with
  | nil => exact Or.inl ⟨h, h'⟩
  | cons line lines ih =>
    rcases ih h h' with ⟨hb, hb'⟩ | ⟨other, hmem, hboth⟩
    · unfold next at hb hb'
      cases hS : S.opens line with
      | none =>
        rw [hS] at hb
        rw [(hsame line).mp hS] at hb'
        exact Or.inl ⟨hb, hb'⟩
      | some c =>
        cases hT : T.opens line with
        | none => exact absurd ((hsame line).mpr hT) (by rw [hS]; exact Option.some_ne_none c)
        | some d =>
          rw [hS] at hb
          rw [hT] at hb'
          refine Or.inr ⟨line, List.mem_cons_self, ?_, ?_⟩
          · exact hS.trans (congrArg some hb)
          · exact hT.trans (congrArg some hb')
    · exact Or.inr ⟨other, List.mem_cons_of_mem _ hmem, hboth⟩

end LineScanner
