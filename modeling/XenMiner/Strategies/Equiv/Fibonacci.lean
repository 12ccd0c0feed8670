import Mathlib.Data.List.Nodup
import XenMiner.Lib.PyInt
import XenMiner.Lib.Run
import XenMiner.Mining.Equiv.Argon2Common
import XenMiner.Strategies.Fibonacci

/-!
# Which attempts share a key

An attempt is told by the lane of its worker and the index: they fix the recurrence value
(`Cursor.keyFn`), and the key is the hash of value and index.  A worker passes over an unbroken range
of indices from a constant of its lane, so two workers of one lane repeat each other as soon as both have
made an attempt, and workers of different lanes only where one catches up with the constant of the other
and the recurrence values agree, too.
-/

namespace XenMiner

open FibonacciStrategy CpuMiner

/-! ### What a worker has passed -/

/-- The lane of a worker and its next index. -/
structure Cursor where
  lane : ℤ
  index : ℤ

def CpuWorker.cursor (w : CpuWorker) : Cursor where
  lane := w.lane
  index := w.localIndex

namespace Cursor

variable {c d : Cursor} {index lane : ℤ}

/-- Where the workers of a lane start. -/
def first (lane : ℤ) : ℤ := lane * 1000000

/-- An attempt has been made at the index. -/
def Passed (c : Cursor) (index : ℤ) : Prop := first c.lane ≤ index ∧ index < c.index

/-- The key function after all attempts so far. -/
def keyFn (c : Cursor) : KeyFn := KeyFn.next^[(c.index - first c.lane).toNat] (makeFibonacciKeyFn c.lane)

/-- The recurrence value of the next attempt. -/
def value (c : Cursor) : ℤ := c.keyFn.next.a

/-- What the next attempt hashes. -/
def text (c : Cursor) : String := c.keyFn.next.text c.index

def succ (c : Cursor) : Cursor := { c with index := c.index + 1 }

theorem keyFn_first (lane : ℤ) : keyFn ⟨lane, first lane⟩ = makeFibonacciKeyFn lane := by
  unfold keyFn
  simp

theorem keyFn_succ (h : first c.lane ≤ c.index) : c.succ.keyFn = c.keyFn.next := by
  have hcount : (c.index + 1 - first c.lane).toNat = (c.index - first c.lane).toNat + 1 := by omega
  show KeyFn.next^[(c.index + 1 - first c.lane).toNat] (makeFibonacciKeyFn c.lane) = _
  rw [hcount, Function.iterate_succ_apply']
  rfl

theorem passed_succ_iff (h : first c.lane ≤ c.index) :
    c.succ.Passed index ↔ c.Passed index ∨ index = c.index := by
  show first c.lane ≤ index ∧ index < c.index + 1 ↔ first c.lane ≤ index ∧ index < c.index ∨ _
  omega

/-- The text holds the value and the index. -/
theorem text_eq_iff : c.text = d.text ↔ c.value = d.value ∧ c.index = d.index := by
  constructor
  · intro h
    have hlist := congrArg String.toList h
    unfold text KeyFn.text at hlist
    simp only [String.toList_append, List.append_assoc, List.append_cancel_left_eq] at hlist
    obtain ⟨hvalue, hindex⟩ := Argon2Common.eq_of_append_sep
      (Argon2Common.not_mem_toString_int _ (by decide) (by decide))
      (Argon2Common.not_mem_toString_int _ (by decide) (by decide)) hlist
    exact ⟨PyStr.toString_int_inj.mp (String.toList_injective hvalue),
      PyStr.toString_int_inj.mp (String.toList_injective hindex)⟩
  · rintro ⟨hvalue, hindex⟩
    show "fib:" ++ toString c.value ++ ":" ++ toString c.index = _
    rw [hvalue, hindex]
    rfl

/-! ### Several workers -/

/-- Workers that have just been started. -/
def newCursors (lanes : List ℕ) : List Cursor :=
  lanes.map fun (lane : ℕ) => { lane := lane, index := first lane }

variable {cs : List Cursor} {texts : List String} {i : ℕ} {lanes : List ℕ}

/-- The texts are those of what has been passed. -/
def Covers (cs : List Cursor) (texts : List String) : Prop :=
  ∀ t, t ∈ texts ↔ ∃ (j : ℕ) (d : Cursor) (index : ℤ),
    cs[j]? = some d ∧ d.Passed index ∧ t = text ⟨d.lane, index⟩

/-- Only one worker of a lane has made attempts. -/
def Separate (cs : List Cursor) : Prop :=
  ∀ (j k : ℕ) (d e : Cursor), j ≠ k → cs[j]? = some d → cs[k]? = some e → d.lane = e.lane →
    d.index = first d.lane ∨ e.index = first e.lane

/-- No other worker of the lane has made attempts, and none of another lane passed the index with the
same recurrence value. -/
def Fresh (cs : List Cursor) (i : ℕ) (c : Cursor) : Prop :=
  ∀ (j : ℕ) (d : Cursor), j ≠ i → cs[j]? = some d →
    (d.lane = c.lane → d.index = first d.lane) ∧
      (d.lane ≠ c.lane → d.Passed c.index → value ⟨d.lane, c.index⟩ ≠ c.value)

theorem eq_of_set_self (h : (cs.set i c)[i]? = some d) : d = c := by
  have hlt : i < cs.length := by simpa using (List.getElem?_eq_some_iff.mp h).1
  exact (Option.some.inj ((List.getElem?_set_self hlt).symm.trans h)).symm

theorem first_of_newCursors {j : ℕ} (h : (newCursors lanes)[j]? = some d) : d.index = first d.lane := by
  unfold newCursors at h
  rw [List.getElem?_map] at h
  obtain ⟨lane, -, rfl⟩ := Option.map_eq_some_iff.mp h
  rfl

/-- The key functions of workers that have just been started. -/
theorem map_makeKeyFn (lanes : List ℕ) :
    (newCursors lanes).map (fun c => makeFibonacciKeyFn c.lane) = (newCursors lanes).map keyFn := by
  refine List.map_congr_left fun c hc => ?_
  obtain ⟨j, hj⟩ := List.mem_iff_getElem?.mp hc
  have hfirst := first_of_newCursors hj
  rw [← keyFn_first, ← hfirst]

theorem covers_append (h : Covers cs texts) : Covers (cs ++ newCursors lanes) texts := by
  intro t
  rw [h t]
  constructor
  · rintro ⟨j, d, index, hd, hpassed, rfl⟩
    have hlt : j < cs.length := (List.getElem?_eq_some_iff.mp hd).1
    exact ⟨j, d, index, (List.getElem?_append_left hlt).trans hd, hpassed, rfl⟩
  · rintro ⟨j, d, index, hd, hpassed, rfl⟩
    rw [List.getElem?_append] at hd
    split_ifs at hd
    · exact ⟨j, d, index, hd, hpassed, rfl⟩
    · have hfirst := first_of_newCursors hd
      exact absurd hpassed.2 (not_lt.mpr (hfirst ▸ hpassed.1))

theorem covers_set (h : Covers cs texts) (hc : cs[i]? = some c) (hfirst : first c.lane ≤ c.index) :
    Covers (cs.set i c.succ) (texts ++ [c.text]) := by
  have hlt : i < cs.length := (List.getElem?_eq_some_iff.mp hc).1
  intro t
  rw [List.mem_append, List.mem_singleton, h t]
  constructor
  · rintro (⟨j, d, index, hd, hpassed, rfl⟩ | rfl)
    · rcases eq_or_ne i j with rfl | hne
      · obtain rfl := Option.some.inj (hc.symm.trans hd)
        have hsucc : c.succ.Passed index := (passed_succ_iff hfirst).mpr (Or.inl hpassed)
        exact ⟨i, c.succ, index, List.getElem?_set_self hlt, hsucc, rfl⟩
      · exact ⟨j, d, index, (List.getElem?_set_ne hne).trans hd, hpassed, rfl⟩
    · have hsucc : c.succ.Passed c.index := (passed_succ_iff hfirst).mpr (Or.inr rfl)
      exact ⟨i, c.succ, c.index, List.getElem?_set_self hlt, hsucc, rfl⟩
  · rintro ⟨j, d, index, hd, hpassed, rfl⟩
    rcases eq_or_ne i j with rfl | hne
    · obtain rfl := eq_of_set_self hd
      rcases (passed_succ_iff hfirst).mp hpassed with hold | rfl
      · exact Or.inl ⟨i, c, index, hc, hold, rfl⟩
      · exact Or.inr rfl
    · exact Or.inl ⟨j, d, index, (List.getElem?_set_ne hne).symm.trans hd, hpassed, rfl⟩

theorem separate_append (h : Separate cs) : Separate (cs ++ newCursors lanes) := by
  intro j k d e hne hd he hlane
  rw [List.getElem?_append] at hd he
  split_ifs at hd he
  · exact h j k d e hne hd he hlane
  · exact Or.inr (first_of_newCursors he)
  · exact Or.inl (first_of_newCursors hd)
  · exact Or.inl (first_of_newCursors hd)

theorem separate_set (h : Separate cs) (hfresh : Fresh cs i c) : Separate (cs.set i c.succ) := by
  intro j k d e hne hd he hlane
  rcases eq_or_ne i j with rfl | hij
  · rw [List.getElem?_set_ne hne] at he
    obtain rfl := eq_of_set_self hd
    exact Or.inr ((hfresh k e hne.symm he).1 hlane.symm)
  · rw [List.getElem?_set_ne hij] at hd
    rcases eq_or_ne i k with rfl | hik
    · obtain rfl := eq_of_set_self he
      exact Or.inl ((hfresh j d hne hd).1 hlane)
    · rw [List.getElem?_set_ne hik] at he
      exact h j k d e hne hd he hlane

/-- The next text is new exactly if the attempt is fresh. -/
theorem not_mem_iff_fresh (h : Covers cs texts) (hsep : Separate cs)
    (hfirst : ∀ d ∈ cs, first d.lane ≤ d.index) (hc : cs[i]? = some c) :
    c.text ∉ texts ↔ Fresh cs i c := by
  constructor
  · intro hnew j d hne hd
    refine ⟨fun hlane => ?_, fun _ hpassed heq => ?_⟩
    · rcases hsep j i d c hne hd hc hlane with hfirstd | hfirstc
      · exact hfirstd
      · -- the first attempt of the lane, which the other worker made unless it has made none
        by_contra hstarted
        have hle := hfirst d (List.mem_of_getElem? hd)
        refine hnew ((h _).mpr ⟨j, d, c.index, hd, ⟨?_, ?_⟩, text_eq_iff.mpr ⟨?_, rfl⟩⟩)
        · rw [hfirstc, hlane]
        · rw [hfirstc, ← hlane]
          omega
        · rw [hlane]
    · exact hnew ((h _).mpr ⟨j, d, c.index, hd, hpassed, text_eq_iff.mpr ⟨heq.symm, rfl⟩⟩)
  · intro hfresh hmem
    obtain ⟨j, d, index, hd, hpassed, htext⟩ := (h _).mp hmem
    obtain ⟨hvalue, hindex⟩ := text_eq_iff.mp htext
    have hindex' : c.index = index := hindex
    subst hindex'
    rcases eq_or_ne j i with rfl | hne
    · obtain rfl := Option.some.inj (hc.symm.trans hd)
      exact absurd hpassed.2 (lt_irrefl _)
    · obtain ⟨hsame, hother⟩ := hfresh j d hne hd
      by_cases hlane : d.lane = c.lane
      · have hnone := hsame hlane
        exact absurd hpassed.2 (not_lt.mpr (hnone ▸ hpassed.1))
      · exact hother hlane hpassed hvalue.symm

end Cursor

/-! ### What a turn does to the workers -/

namespace CpuMiner

variable {s : CpuMiner} {keyFn : ℤ → ℤ → String} {argon2Hash : String → String}

def cursors (s : CpuMiner) : List Cursor := s.workers.map CpuWorker.cursor

/-- The turn of a worker that hashes. -/
def Hashes (s : CpuMiner) (a : CpuAction) (i : ℕ) (w : CpuWorker) : Prop :=
  a = .worker i ∧ s.workers[i]? = some w ∧ w.place = .hashing

theorem cursors_setWorker (i : ℕ) (w : CpuWorker) :
    (s.setWorker i w).cursors = s.cursors.set i w.cursor := List.map_set ..

theorem cursors_step_of_hashes {a : CpuAction} {i : ℕ} {w : CpuWorker} (h : s.Hashes a i w) :
    (s.step keyFn argon2Hash a).cursors = s.cursors.set i w.cursor.succ := by
  obtain ⟨rfl, hw, hplace⟩ := h
  show (s.workerStep keyFn argon2Hash i).cursors = _
  unfold workerStep
  rw [hw]
  dsimp only
  rw [hplace]
  dsimp only
  unfold hashOnce
  dsimp only
  split
  · exact cursors_setWorker i _
  · exact cursors_setWorker i _

theorem cursors_spawnWorkers :
    s.spawnWorkers.cursors = s.cursors ++ Cursor.newCursors (List.range s.backend.lanes.toNat) := by
  unfold cursors spawnWorkers Cursor.newCursors
  rw [List.map_append, List.map_map]
  rfl

theorem cursors_joinWorker (i : ℕ) : (s.joinWorker i).cursors = s.cursors := by
  refine List.ext_getElem? fun j => ?_
  unfold cursors joinWorker
  dsimp only
  rw [List.getElem?_map, List.getElem?_map, List.getElem?_modify]
  split_ifs
  · cases s.workers[j]? <;> rfl
  · cases s.workers[j]? <;> rfl

theorem cursors_setLanes (lanes : ℤ) : (s.setLanes lanes).cursors = s.cursors := by
  unfold setLanes
  dsimp only
  split_ifs <;> rfl

theorem cursors_tune (shouldReduce canAddLane : Bool) :
    (s.tune shouldReduce canAddLane).cursors = s.cursors := by
  unfold tune
  dsimp only
  split_ifs
  · exact cursors_setLanes _
  · rfl
  · exact cursors_setLanes _
  · rfl

theorem cursors_pollQueue (now : ℤ) : (s.pollQueue now).cursors = s.cursors := by
  unfold pollQueue
  split <;> rfl

theorem cursors_join (lanes : Option ℤ) :
    ∃ spawned, (s.join lanes).cursors = s.cursors ++ Cursor.newCursors spawned := by
  unfold join
  split
  next i rest _ =>
    refine ⟨[], ?_⟩
    rw [Cursor.newCursors, List.map_nil, List.append_nil]
    exact cursors_joinWorker i
  next hproc =>
    cases lanes with
    | some lanes => exact ⟨_, cursors_spawnWorkers⟩
    | none => exact ⟨[], (List.append_nil _).symm⟩

theorem cursors_workerStep {i : ℕ} (h : ∀ w, s.workers[i]? = some w → w.place ≠ .hashing) :
    (s.workerStep keyFn argon2Hash i).cursors = s.cursors := by
  unfold workerStep
  split
  · rfl
  next w hw =>
    split
    · have hget : s.cursors[i]? = some w.cursor := by
        unfold cursors
        rw [List.getElem?_map, hw, Option.map_some]
      obtain ⟨hlt, heq⟩ := List.getElem?_eq_some_iff.mp hget
      show (s.setWorker i _).cursors = _
      rw [cursors_setWorker]
      show s.cursors.set i w.cursor = _
      rw [← heq, List.set_getElem_self]
    next hplace => exact absurd hplace (h w hw)
    · rfl

/-- Without a hash, old workers stay where they are. -/
theorem cursors_step_of_not_hashes {a : CpuAction} (h : ∀ i w, ¬ s.Hashes a i w) :
    ∃ spawned, (s.step keyFn argon2Hash a).cursors = s.cursors ++ Cursor.newCursors spawned := by
  have hnone : ∀ {t : CpuMiner}, t.cursors = s.cursors →
      ∃ spawned, t.cursors = s.cursors ++ Cursor.newCursors spawned := fun heq =>
    ⟨[], heq.trans (List.append_nil _).symm⟩
  unfold step
  split
  next i => exact hnone (cursors_workerStep fun w hw hplace => h i w ⟨rfl, hw, hplace⟩)
  · exact ⟨_, cursors_spawnWorkers⟩
  · exact ⟨_, cursors_spawnWorkers⟩
  · exact hnone (cursors_tune _ _)
  · exact cursors_join _
  · exact hnone (cursors_pollQueue _)
  · exact hnone rfl
  · exact hnone rfl
  · exact hnone rfl
  · exact hnone rfl

end CpuMiner

/-! ### Sessions -/

namespace FibonacciMiner

open CpuMiner

variable {sha256Hex argon2Hash : String → String} {s : FibonacciMiner} {a : CpuAction} {i j : ℕ}
  {w v : CpuWorker} {f : KeyFn}

/-- The key functions and the texts are those of what the workers have passed. -/
structure Inv (s : FibonacciMiner) : Prop where
  keyFns : s.keyFns = s.miner.cursors.map Cursor.keyFn
  first : ∀ c ∈ s.miner.cursors, Cursor.first c.lane ≤ c.index
  texts : Cursor.Covers s.miner.cursors s.texts

/-- The turn makes no attempt, or one that is fresh. -/
def Fresh (s : FibonacciMiner) (a : CpuAction) : Prop :=
  ∀ i w f, s.attempt a = some (i, w, f) → Cursor.Fresh s.miner.cursors i w.cursor

theorem Inv.keyFn_eq (h : s.Inv) (hw : s.miner.workers[i]? = some w) :
    s.keyFns[i]? = some w.cursor.keyFn := by
  rw [h.keyFns]
  unfold cursors
  rw [List.getElem?_map, List.getElem?_map, hw]
  rfl

theorem Inv.attempt_of_hashes (h : s.Inv) (hhash : s.miner.Hashes a i w) :
    s.attempt a = some (i, w, w.cursor.keyFn) := by
  obtain ⟨rfl, hw, hplace⟩ := hhash
  unfold attempt
  dsimp only
  rw [hw, h.keyFn_eq hw]
  exact if_pos hplace

theorem attempt_of_not_hashes (h : ∀ i w, ¬ s.miner.Hashes a i w) : s.attempt a = none := by
  unfold attempt
  split
  next i =>
    split
    next w f hw hf => exact if_neg fun hplace => h i w ⟨rfl, hw, hplace⟩
    · rfl
  · rfl

/-- A turn makes the attempt of a worker that hashes, or none. -/
theorem Inv.attempt_cases (h : s.Inv) (a : CpuAction) :
    (∃ i w, s.miner.Hashes a i w ∧ s.attempt a = some (i, w, w.cursor.keyFn)) ∨
      (∀ i w, ¬ s.miner.Hashes a i w) ∧ s.attempt a = none := by
  by_cases hhash : ∃ i w, s.miner.Hashes a i w
  · obtain ⟨i, w, hhash⟩ := hhash
    exact Or.inl ⟨i, w, hhash, h.attempt_of_hashes hhash⟩
  · push Not at hhash
    exact Or.inr ⟨hhash, attempt_of_not_hashes hhash⟩

theorem step_of_attempt (h : s.attempt a = some (i, w, f)) : s.step sha256Hex argon2Hash a =
    { miner := s.miner.step (s.keyFn sha256Hex a) argon2Hash a
      keyFns := s.keyFns.set i f.next
      texts := s.texts ++ [f.next.text w.localIndex] } := by
  unfold step
  rw [h]
  rfl

theorem step_of_no_attempt (h : s.attempt a = none) : s.step sha256Hex argon2Hash a =
    { s with
      miner := s.miner.step (s.keyFn sha256Hex a) argon2Hash a
      keyFns := s.keyFns ++
        ((s.miner.step (s.keyFn sha256Hex a) argon2Hash a).workers.drop s.keyFns.length).map
          fun w => makeFibonacciKeyFn w.lane } := by
  unfold step
  rw [h]

/-- A new worker has the key function of its lane. -/
theorem map_makeKeyFn_drop {t : CpuMiner} {old : List Cursor} {spawned : List ℕ} {n : ℕ}
    (h : t.cursors = old ++ Cursor.newCursors spawned) (hn : n = old.length) :
    (t.workers.drop n).map (fun w => makeFibonacciKeyFn w.lane)
      = (Cursor.newCursors spawned).map Cursor.keyFn := by
  have hnew : (t.workers.drop n).map CpuWorker.cursor = Cursor.newCursors spawned := by
    rw [List.map_drop]
    show t.cursors.drop n = _
    rw [h, hn, List.drop_left]
  rw [← Cursor.map_makeKeyFn, ← hnew, List.map_map]
  exact List.map_congr_left fun w _ => rfl

theorem Inv.step (h : s.Inv) (a : CpuAction) : (s.step sha256Hex argon2Hash a).Inv := by
  rcases h.attempt_cases a with ⟨i, w, hhash, hattempt⟩ | ⟨hnone, hattempt⟩
  · have hcursors : (s.step sha256Hex argon2Hash a).miner.cursors
        = s.miner.cursors.set i w.cursor.succ := by
      rw [step_of_attempt hattempt]
      exact cursors_step_of_hashes hhash
    have hget : s.miner.cursors[i]? = some w.cursor := by
      unfold cursors
      rw [List.getElem?_map, hhash.2.1, Option.map_some]
    have hfirst : Cursor.first w.cursor.lane ≤ w.cursor.index := h.first _ (List.mem_of_getElem? hget)
    refine ⟨?_, ?_, ?_⟩
    · rw [hcursors, step_of_attempt hattempt, List.map_set, Cursor.keyFn_succ hfirst, ← h.keyFns]
    · rw [hcursors]
      intro c hc
      rcases List.mem_or_eq_of_mem_set hc with hold | rfl
      · exact h.first c hold
      · exact hfirst.trans (Int.le_add_one le_rfl)
    · rw [hcursors, step_of_attempt hattempt]
      exact Cursor.covers_set h.texts hget hfirst
  · have hcursors : ∃ spawned, (s.miner.step (s.keyFn sha256Hex a) argon2Hash a).cursors
        = s.miner.cursors ++ Cursor.newCursors spawned := cursors_step_of_not_hashes hnone
    obtain ⟨spawned, hcursors⟩ := hcursors
    have hminer : (s.step sha256Hex argon2Hash a).miner.cursors
        = s.miner.cursors ++ Cursor.newCursors spawned := by
      rw [step_of_no_attempt hattempt]
      exact hcursors
    refine ⟨?_, ?_, ?_⟩
    · have hlength : s.keyFns.length = s.miner.cursors.length := by rw [h.keyFns, List.length_map]
      rw [hminer, List.map_append, ← h.keyFns, step_of_no_attempt hattempt]
      exact congrArg (s.keyFns ++ ·) (map_makeKeyFn_drop hcursors hlength)
    · rw [hminer]
      intro c hc
      rcases List.mem_append.mp hc with hold | hnew
      · exact h.first c hold
      · obtain ⟨j, hj⟩ := List.mem_iff_getElem?.mp hnew
        exact (Cursor.first_of_newCursors hj).ge
    · rw [hminer, step_of_no_attempt hattempt]
      exact Cursor.covers_append h.texts

/-- What is preserved beside distinct texts. -/
structure Tracked (s : FibonacciMiner) : Prop where
  inv : s.Inv
  separate : Cursor.Separate s.miner.cursors

/-- A turn keeps the texts distinct exactly if it is fresh. -/
theorem nodup_step_iff (h : s.texts.Nodup) (htracked : s.Tracked) (a : CpuAction) :
    (s.step sha256Hex argon2Hash a).texts.Nodup ↔ s.Fresh a := by
  unfold Fresh
  rcases htracked.inv.attempt_cases a with ⟨i, w, hhash, hattempt⟩ | ⟨-, hattempt⟩
  · have hget : s.miner.cursors[i]? = some w.cursor := by
      unfold cursors
      rw [List.getElem?_map, hhash.2.1, Option.map_some]
    have hnew : (s.texts ++ [w.cursor.text]).Nodup ↔ w.cursor.text ∉ s.texts := by
      rw [(List.perm_append_singleton _ _).nodup_iff, List.nodup_cons]
      exact and_iff_left h
    rw [step_of_attempt hattempt, hattempt]
    refine (hnew.trans (Cursor.not_mem_iff_fresh htracked.inv.texts htracked.separate
      htracked.inv.first hget)).trans ⟨?_, fun hfresh => hfresh i w _ rfl⟩
    rintro hfresh j v f heq
    cases heq
    exact hfresh
  · rw [step_of_no_attempt hattempt, hattempt]
    exact iff_of_true h fun i w f heq => by cases heq

theorem Tracked.step (h : s.Tracked) (hfresh : s.Fresh a) : (s.step sha256Hex argon2Hash a).Tracked := by
  refine ⟨h.inv.step a, ?_⟩
  rcases h.inv.attempt_cases a with ⟨i, w, hhash, hattempt⟩ | ⟨hnone, hattempt⟩
  · have hcursors : (s.step sha256Hex argon2Hash a).miner.cursors
        = s.miner.cursors.set i w.cursor.succ := by
      rw [step_of_attempt hattempt]
      exact cursors_step_of_hashes hhash
    rw [hcursors]
    exact Cursor.separate_set h.separate (hfresh i w _ hattempt)
  · have hcursors : ∃ spawned, (s.miner.step (s.keyFn sha256Hex a) argon2Hash a).cursors
        = s.miner.cursors ++ Cursor.newCursors spawned := cursors_step_of_not_hashes hnone
    obtain ⟨spawned, hcursors⟩ := hcursors
    rw [step_of_no_attempt hattempt]
    dsimp only
    rw [hcursors]
    exact Cursor.separate_append h.separate

/-- A turn only adds texts. -/
theorem subset_texts_step (s : FibonacciMiner) (a : CpuAction) :
    s.texts ⊆ (s.step sha256Hex argon2Hash a).texts := by
  unfold FibonacciMiner.step
  dsimp only
  split
  · exact List.subset_append_left _ _
  · exact List.Subset.refl _

theorem subset_texts_final (s : FibonacciMiner) (actions : List CpuAction) :
    s.texts ⊆ (Run.final (FibonacciMiner.step sha256Hex argon2Hash) s actions).texts := by
  induction actions generalizing s with
  | nil => exact List.Subset.refl _
  | cons a actions ih => exact List.Subset.trans (subset_texts_step s a) (ih _)

/-- The hash tells the texts apart. -/
theorem nodup_keys_iff {texts : List String} (h : Set.InjOn sha256Hex {t | t ∈ texts})
    (hsub : s.texts ⊆ texts) : (s.keys sha256Hex).Nodup ↔ s.texts.Nodup := by
  unfold keys
  exact ⟨List.Nodup.of_map _, fun hnodup =>
    List.Nodup.map_on (fun t ht u hu heq => h (hsub ht) (hsub hu) heq) hnodup⟩

theorem tracked_of_no_workers {miner : CpuMiner} (h : miner.workers = []) :
    Tracked { miner := miner } := by
  have hcursors : miner.cursors = [] := by
    unfold cursors
    rw [h, List.map_nil]
  refine ⟨⟨?_, ?_, ?_⟩, ?_⟩
  · rw [hcursors]
    rfl
  · rw [hcursors]
    exact fun c hc => absurd hc List.not_mem_nil
  · rw [hcursors]
    intro t
    refine iff_of_false List.not_mem_nil ?_
    rintro ⟨j, d, index, hd, -⟩
    cases hd
  · rw [hcursors]
    intro j k d e _ hd
    cases hd

/-- **When no key is used twice**: in a session with any starts and lane changes, the keys of the attempts
are distinct at all times exactly if every attempt is the first one of its lane or by the one worker of
its lane that has made some, and finds no worker of another lane beyond its index with the same
recurrence value there. -/
theorem nodup_keys_run_iff (sha256Hex argon2Hash : String → String) (miner : CpuMiner)
    (hworkers : miner.workers = []) (actions : List CpuAction)
    (hsha : Set.InjOn sha256Hex {t | t ∈
      (Run.final (FibonacciMiner.step sha256Hex argon2Hash) { miner := miner } actions).texts}) :
    (∀ n, ((Run.final (FibonacciMiner.step sha256Hex argon2Hash) { miner := miner }
      (actions.take n)).keys sha256Hex).Nodup) ↔
      Run.Meets (FibonacciMiner.step sha256Hex argon2Hash) Fresh { miner := miner } actions := by
  have hruns : Run.Meets (FibonacciMiner.step sha256Hex argon2Hash) Fresh { miner := miner } actions ↔
      ∀ n, (Run.final (FibonacciMiner.step sha256Hex argon2Hash) { miner := miner }
        (actions.take n)).texts.Nodup :=
    Run.meets_iff_forall_take_of (G := fun s => s.texts.Nodup) (J := Tracked)
      (fun s a hnodup htracked hnext =>
        htracked.step ((nodup_step_iff hnodup htracked a).mp hnext))
      (fun s a hnodup htracked => nodup_step_iff hnodup htracked a)
      List.nodup_nil (tracked_of_no_workers hworkers)
  rw [hruns]
  refine forall_congr' fun n => nodup_keys_iff hsha ?_
  have hfinal : Run.final (FibonacciMiner.step sha256Hex argon2Hash) { miner := miner } actions =
      Run.final (FibonacciMiner.step sha256Hex argon2Hash)
        (Run.final (FibonacciMiner.step sha256Hex argon2Hash) { miner := miner } (actions.take n))
        (actions.drop n) := by
    rw [← Run.final_append, List.take_append_drop]
  rw [hfinal]
  exact subset_texts_final _ _

/-- `hashlib.sha256(text.encode()).hexdigest()` of the texts of `oneEach`. -/
def sha256Sample (text : String) : String :=
  if text = "fib:1:0" then "7fe2d60dc1cf13d0c579d93fb78b1ffd28d136cb57c8630dec30a15b209f1f14"
  else if text = "fib:2:1000000" then
    "58e5e672f855be7b7279b8012e171e3f15609996b103e12ed59853048643f166"
  else text

/-- One attempt of each of two lanes. -/
def oneEach : List CpuAction := [.join, .worker 0, .worker 0, .worker 1, .worker 1]

theorem nodup_keys_run_sample :
    Run.Meets (FibonacciMiner.step sha256Sample fun _ => "") Fresh
      { miner := CpuMiner.create "fibonacci" 2 1 } oneEach := by
  have htexts : (Run.final (FibonacciMiner.step sha256Sample fun _ => "")
      { miner := CpuMiner.create "fibonacci" 2 1 } oneEach).texts = ["fib:1:0", "fib:2:1000000"] := by
    decide +kernel
  have hshort : ∀ n < 6, ((Run.final (FibonacciMiner.step sha256Sample fun _ => "")
      { miner := CpuMiner.create "fibonacci" 2 1 } (oneEach.take n)).keys sha256Sample).Nodup := by
    decide +kernel
  refine (nodup_keys_run_iff sha256Sample (fun _ => "") (CpuMiner.create "fibonacci" 2 1) rfl oneEach
    ?_).mp fun n => ?_
  · rw [htexts]
    intro t ht u hu heq
    simp only [Set.mem_ofPred_eq, List.mem_cons, List.not_mem_nil, or_false] at ht hu
    rcases ht with rfl | rfl <;> rcases hu with rfl | rfl <;> first | rfl | exact absurd heq (by decide)
  · rcases Nat.lt_or_ge n 6 with hlt | hge
    · exact hshort n hlt
    · have hall : oneEach.take n = oneEach.take 5 := by
        rw [List.take_of_length_le (Nat.le_trans (by decide) hge)]
        rfl
      rw [hall]
      exact hshort 5 (by decide)

/-- Two attempts of each worker after a start. -/
def startTwice : List CpuAction :=
  [.join, .start, .worker 0, .worker 0, .worker 1, .worker 1]

/-- The first start finds a worker that the lane manager has started, and both hash the same key. -/
theorem nodup_keys_run_fails :
    ¬ ((Run.final (FibonacciMiner.step (fun t => t) fun _ => "")
      { miner := CpuMiner.create "fibonacci" 1 1 } startTwice).keys fun t => t).Nodup := by
  decide +kernel

end FibonacciMiner

end XenMiner
