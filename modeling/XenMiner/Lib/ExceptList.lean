import Mathlib.Data.List.Basic

/-!
# A list of computations that may fail

`List.mapM` in `Except` ends with the first failure: it succeeds if every element does
(`mapM_isOk_iff`), and fails with what the first element that fails gives (`mapM_error_iff`).
-/

namespace ExceptList

variable {ε α β γ : Type} {f : α → Except ε β} {l l' : List α} {e : ε} {x : α}

/-- A computation that succeeds. -/
def IsOk (r : Except ε β) : Prop := ∃ b, r = .ok b

@[simp]
theorem isOk_ok (b : β) : IsOk (.ok b : Except ε β) := ⟨b, rfl⟩

@[simp]
theorem not_isOk_error (e : ε) : ¬ IsOk (.error e : Except ε β) := by
  rintro ⟨b, h⟩
  cases h

theorem bind_ok_iff {r : Except ε β} {g : β → Except ε γ} {c : γ} :
    r >>= g = .ok c ↔ ∃ b, r = .ok b ∧ g b = .ok c := by
  cases r with
  | ok b => simp [bind, Except.bind]
  | error e => simp [bind, Except.bind]

theorem bind_error_iff {r : Except ε β} {g : β → Except ε γ} :
    r >>= g = .error e ↔ r = .error e ∨ ∃ b, r = .ok b ∧ g b = .error e := by
  cases r with
  | ok b => simp [bind, Except.bind]
  | error e' => simp [bind, Except.bind]

theorem isOk_bind_iff {r : Except ε β} {g : β → Except ε γ} :
    IsOk (r >>= g) ↔ ∃ b, r = .ok b ∧ IsOk (g b) := by
  unfold IsOk
  simp only [bind_ok_iff]
  constructor
  · rintro ⟨c, b, hb, hc⟩
    exact ⟨b, hb, c, hc⟩
  · rintro ⟨b, hb, c, hc⟩
    exact ⟨c, b, hb, hc⟩

theorem isOk_bind_of_isOk {r : Except ε β} {g : β → Except ε γ} (hg : ∀ b, IsOk (g b)) :
    IsOk (r >>= g) ↔ IsOk r := by
  rw [isOk_bind_iff]
  constructor
  · rintro ⟨b, hb, -⟩
    exact ⟨b, hb⟩
  · rintro ⟨b, hb⟩
    exact ⟨b, hb, hg b⟩

theorem isOk_map_iff {r : Except ε α} {g : α → β} : IsOk (r.map g) ↔ IsOk r := by
  cases r with
  | ok b => exact iff_of_true (isOk_ok _) (isOk_ok _)
  | error e => exact iff_of_false (not_isOk_error e) (not_isOk_error e)

/-! ### Exceptions that are caught -/

/-- A computation whose exception, if it has one, is caught. -/
def Guarded (caught : ε → Bool) (r : Except ε β) : Prop := ∀ e, r = .error e → caught e = true

variable {caught : ε → Bool}

theorem guarded_ok (b : β) : Guarded caught (.ok b) := fun _ h => by cases h

theorem guarded_of_isOk {r : Except ε β} (h : IsOk r) : Guarded caught r := by
  obtain ⟨b, rfl⟩ := h
  exact guarded_ok b

theorem guarded_error_iff : Guarded caught (.error e : Except ε β) ↔ caught e = true := by
  constructor
  · exact fun h => h e rfl
  · intro h e' he'
    rw [← Except.error.inj he']
    exact h

/-- A computation in two parts: the second runs only after the first. -/
theorem guarded_bind_iff {r : Except ε β} {g : β → Except ε γ} :
    Guarded caught (r >>= g) ↔ Guarded caught r ∧ ∀ b, r = .ok b → Guarded caught (g b) := by
  cases r with
  | ok b =>
    constructor
    · intro h
      refine ⟨guarded_ok b, fun b' hb' => ?_⟩
      rw [← Except.ok.inj hb']
      exact h
    · exact fun h => h.2 b rfl
  | error e =>
    have hbind : (.error e : Except ε β) >>= g = .error e := rfl
    rw [hbind, guarded_error_iff, guarded_error_iff]
    exact ⟨fun h => ⟨h, fun _ hb => by cases hb⟩, fun h => h.1⟩

/-- The second part cannot fail. -/
theorem guarded_bind_of_isOk {r : Except ε β} {g : β → Except ε γ} (hg : ∀ b, IsOk (g b)) :
    Guarded caught (r >>= g) ↔ Guarded caught r := by
  rw [guarded_bind_iff]
  exact and_iff_left fun b _ => guarded_of_isOk (hg b)

/-! ### Lists -/

/-- The first element that fails does so with `e`. -/
def FirstError (f : α → Except ε β) (l : List α) (e : ε) : Prop :=
  ∃ pre x post, l = pre ++ x :: post ∧ (∀ y ∈ pre, IsOk (f y)) ∧ f x = .error e

theorem not_firstError_nil : ¬ FirstError f [] e := by
  rintro ⟨pre, x, post, h, -⟩
  cases pre <;> cases h

theorem firstError_cons :
    FirstError f (x :: l) e ↔ f x = .error e ∨ IsOk (f x) ∧ FirstError f l e := by
  constructor
  · rintro ⟨pre, y, post, hl, hpre, hy⟩
    cases pre with
    | nil =>
      obtain ⟨rfl, -⟩ := List.cons.inj hl
      exact Or.inl hy
    | cons z pre =>
      obtain ⟨rfl, htail⟩ := List.cons.inj hl
      obtain ⟨hz, hpre'⟩ := List.forall_mem_cons.mp hpre
      exact Or.inr ⟨hz, pre, y, post, htail, hpre', hy⟩
  · rintro (hx | ⟨hx, pre, y, post, rfl, hpre, hy⟩)
    · exact ⟨[], x, l, rfl, fun _ h => (by cases h), hx⟩
    · exact ⟨x :: pre, y, post, rfl, List.forall_mem_cons.mpr ⟨hx, hpre⟩, hy⟩

theorem mapM_error_iff : l.mapM f = .error e ↔ FirstError f l e := by
  induction l with
  | nil =>
    rw [List.mapM_nil]
    exact iff_of_false (fun h => by cases h) not_firstError_nil
  | cons x l ih =>
    rw [List.mapM_cons, firstError_cons, bind_error_iff, ← ih]
    refine or_congr_right ⟨?_, ?_⟩
    · rintro ⟨b, hb, hrest⟩
      rcases bind_error_iff.mp hrest with hl | ⟨bs, -, hpure⟩
      · exact ⟨⟨b, hb⟩, hl⟩
      · cases hpure
    · rintro ⟨⟨b, hb⟩, hl⟩
      exact ⟨b, hb, bind_error_iff.mpr (Or.inl hl)⟩

theorem mapM_isOk_iff : IsOk (l.mapM f) ↔ ∀ x ∈ l, IsOk (f x) := by
  induction l with
  | nil =>
    rw [List.mapM_nil]
    exact iff_of_true (isOk_ok []) fun _ h => by cases h
  | cons x l ih =>
    rw [List.mapM_cons, isOk_bind_iff, List.forall_mem_cons, ← ih]
    constructor
    · rintro ⟨b, hb, hrest⟩
      obtain ⟨bs, hbs, -⟩ := isOk_bind_iff.mp hrest
      exact ⟨⟨b, hb⟩, bs, hbs⟩
    · rintro ⟨⟨b, hb⟩, bs, hbs⟩
      exact ⟨b, hb, isOk_bind_iff.mpr ⟨bs, hbs, isOk_ok _⟩⟩

theorem guarded_mapM_iff :
    Guarded caught (l.mapM f) ↔ ∀ e, FirstError f l e → caught e = true := by
  unfold Guarded
  simp only [mapM_error_iff]

theorem firstError_append :
    FirstError f (l ++ l') e ↔ FirstError f l e ∨ (∀ y ∈ l, IsOk (f y)) ∧ FirstError f l' e := by
  induction l with
  | nil => simp [not_firstError_nil]
  | cons x l ih =>
    rw [List.cons_append, firstError_cons, firstError_cons, ih, List.forall_mem_cons]
    tauto

/-- A list of lists, each read in turn. -/
theorem firstError_flatMap {δ : Type} {g : γ → List α} {ls : List γ}
    {h : γ → List β → Except ε δ}
    (hok : ∀ c bs, IsOk (h c bs)) :
    FirstError (fun c => (g c).mapM f >>= h c) ls e ↔ FirstError f (ls.flatMap g) e := by
  induction ls with
  | nil => exact iff_of_false not_firstError_nil not_firstError_nil
  | cons c ls ih =>
    have herror : (g c).mapM f >>= h c = .error e ↔ FirstError f (g c) e := by
      rw [bind_error_iff, mapM_error_iff]
      refine or_iff_left ?_
      rintro ⟨bs, -, hbs⟩
      obtain ⟨b, hb⟩ := hok c bs
      rw [hb] at hbs
      cases hbs
    have hisOk : IsOk ((g c).mapM f >>= h c) ↔ ∀ y ∈ g c, IsOk (f y) := by
      rw [isOk_bind_iff, ← mapM_isOk_iff]
      constructor
      · rintro ⟨bs, hbs, -⟩
        exact ⟨bs, hbs⟩
      · rintro ⟨bs, hbs⟩
        exact ⟨bs, hbs, hok c bs⟩
    rw [List.flatMap_cons, firstError_cons, firstError_append, ih, herror, hisOk]

end ExceptList
