import Mathlib.Data.List.Perm.Basic
import Mathlib.Data.List.TakeWhile
import XenMiner.Mining.Equiv.CudaNative
import XenMiner.Mining.MineBatch

/-!
# Which matches reach `handle_hit`

A match passes through the match array of its lane, the lane's hit, the merge over the lanes and the
run loop.  Each of them keeps at most one: a call hands on the first match of the first lane that has
one (`handledKeys_eq`), or nothing when the batch was aborted or a lane failed
(`handledHits_of_disturbed`).  So all matches get through exactly when there is at most one, and one
only in a batch that nothing disturbed (`handledKeys_perm_iff`).
-/

namespace XenMiner.CudaNativeBackend

open CudaEngine

variable {s : CudaNativeBackend} {env : BatchEnv} {t t' : BatchTotals} {lanes : List ℕ}

/-! ### What the lanes found -/

/-- Keys of the matches a lane found. -/
def laneKeys (env : BatchEnv) (lane : ℕ) : List String := (env.engine lane).found.map HashApiMatch.key

/-- The lanes that completed: in sequential mode those before the first abort or failure, in parallel
mode every lane that did not fail. -/
def completedLanes (s : CudaNativeBackend) (env : BatchEnv) : List ℕ :=
  if s.started = false ∨ env.abortCheck 0 = true then []
  else if s.parallel = false then
    (List.range s.lanes.toNat).takeWhile fun lane =>
      !env.abortCheck (lane + 1) && (env.engine lane).ok
  else (List.range s.lanes.toNat).filter fun lane => (env.engine lane).ok

/-- Keys of all matches found by the lanes that completed. -/
def foundKeys (s : CudaNativeBackend) (env : BatchEnv) : List String :=
  (s.completedLanes env).flatMap (laneKeys env)

/-- Keys passed to `handle_hit`. -/
def handledKeys (s : CudaNativeBackend) (env : BatchEnv) : List String :=
  (s.handledHits env).map BlockHit.key

/-- The abort check never fires: before the batch, and before each lane or after all of them. -/
def NoAbort (s : CudaNativeBackend) (env : BatchEnv) : Prop :=
  env.abortCheck 0 = false ∧
    if s.parallel = false then ∀ lane < s.lanes.toNat, env.abortCheck (lane + 1) = false
    else env.abortCheck 1 = false

/-- No lane fails. -/
def NoFailure (s : CudaNativeBackend) (env : BatchEnv) : Prop :=
  ∀ lane < s.lanes.toNat, (env.engine lane).ok = true

/-! ### One lane -/

theorem runLane_eq_ok {lane : ℕ} (h : (env.engine lane).ok = true) :
    env.runLane lane = .ok (fillResult (env.engine lane)) := if_pos h

theorem runLane_eq_error {lane : ℕ} (h : (env.engine lane).ok = false) :
    ∃ error, env.runLane lane = .error error := by
  refine ⟨_, if_neg ?_⟩
  show ¬ (env.engine lane).ok = true
  rw [h]
  exact nofun

/-- The hit of a lane. -/
def laneHit (s : CudaNativeBackend) (env : BatchEnv) (lane : ℕ) : Option BlockHit :=
  s.hitFromResult env (fillResult (env.engine lane))

/-- The match array and the hit keep the first key of a lane. -/
theorem laneHit_key (s : CudaNativeBackend) (env : BatchEnv) (lane : ℕ) :
    (s.laneHit env lane).map BlockHit.key = (laneKeys env lane).head? := by
  unfold laneHit laneKeys hitFromResult fillResult
  cases hfound : (env.engine lane).found with
  | nil => rfl
  | cons m rest =>
    show some (copyMatch m).key = some m.key
    rw [copyMatch_key]

/-- The merge keeps the first hit. -/
theorem add_hit (t : BatchTotals) (lane : ℕ) :
    (t.add s env (fillResult (env.engine lane))).hit = t.hit.or (s.laneHit env lane) := by
  unfold BatchTotals.add laneHit
  cases t.hit <;> rfl

/-- First keys of the lanes, in their order. -/
theorem findSome_laneHit_key (s : CudaNativeBackend) (env : BatchEnv) (lanes : List ℕ) :
    (lanes.findSome? (s.laneHit env)).map BlockHit.key = (lanes.flatMap (laneKeys env)).head? := by
  induction lanes with
  | nil => rfl
  | cons lane lanes ih =>
    have hkey := laneHit_key s env lane
    rw [List.findSome?_cons, List.flatMap_cons]
    cases hhit : s.laneHit env lane with
    | none =>
      rw [hhit] at hkey
      have hnil : laneKeys env lane = [] := List.head?_eq_none_iff.mp hkey.symm
      simpa [hnil] using ih
    | some hit =>
      rw [hhit] at hkey
      obtain ⟨rest, hrest⟩ := List.head?_eq_some_iff.mp hkey.symm
      simp [hrest]

/-! ### The merges -/

/-- Without a failure the parallel merge ends with the first hit in completion order. -/
theorem parallelLanes_eq_ok (h : ∀ lane ∈ lanes, (env.engine lane).ok = true) :
    ∃ t', s.parallelLanes env t lanes = .ok t' ∧ t'.hit = t.hit.or (lanes.findSome? (s.laneHit env)) := by
  induction lanes generalizing t with
  | nil => exact ⟨t, rfl, by simp⟩
  | cons lane lanes ih =>
    obtain ⟨t', heq, hhit⟩ := ih (t := t.add s env (fillResult (env.engine lane)))
      fun l hl => h l (List.mem_cons_of_mem lane hl)
    refine ⟨t', ?_, ?_⟩
    · rw [parallelLanes, runLane_eq_ok (h lane List.mem_cons_self)]
      exact heq
    · rw [hhit, add_hit, List.findSome?_cons]
      cases s.laneHit env lane <;> cases t.hit <;> rfl

theorem parallelLanes_eq_error (h : ∃ lane ∈ lanes, (env.engine lane).ok = false) :
    ∃ error, s.parallelLanes env t lanes = .error error := by
  induction lanes generalizing t with
  | nil =>
    obtain ⟨lane, hmem, -⟩ := h
    cases hmem
  | cons lane lanes ih =>
    by_cases hok : (env.engine lane).ok = true
    · rw [parallelLanes, runLane_eq_ok hok]
      apply ih
      obtain ⟨bad, hmem, hbad⟩ := h
      rcases List.mem_cons.mp hmem with rfl | hmem
      · rw [hok] at hbad
        cases hbad
      · exact ⟨bad, hmem, hbad⟩
    · obtain ⟨error, herror⟩ := runLane_eq_error (by simpa using hok)
      exact ⟨error, by rw [parallelLanes, herror]⟩

theorem sequentialLanes_eq_ok
    (h : ∀ lane ∈ lanes, env.abortCheck (lane + 1) = false ∧ (env.engine lane).ok = true) :
    ∃ t', s.sequentialLanes env t lanes = .ok (t', "") ∧
      t'.hit = t.hit.or (lanes.findSome? (s.laneHit env)) := by
  induction lanes generalizing t with
  | nil => exact ⟨t, rfl, by simp⟩
  | cons lane lanes ih =>
    obtain ⟨habort, hok⟩ := h lane List.mem_cons_self
    obtain ⟨t', heq, hhit⟩ := ih (t := t.add s env (fillResult (env.engine lane)))
      fun l hl => h l (List.mem_cons_of_mem lane hl)
    refine ⟨t', ?_, ?_⟩
    · rw [sequentialLanes, if_neg (by simp [habort]), runLane_eq_ok hok]
      exact heq
    · rw [hhit, add_hit, List.findSome?_cons]
      cases s.laneHit env lane <;> cases t.hit <;> rfl

theorem abortText_ne (rest : String) : s.abortText rest ≠ "" := by
  unfold abortText
  intro h
  have hlen := congrArg String.length h
  simp [String.length_append] at hlen

/-- A disturbed lane loop raises, or ends with a reason to abort. -/
theorem sequentialLanes_of_disturbed
    (h : ∃ lane ∈ lanes, env.abortCheck (lane + 1) = true ∨ (env.engine lane).ok = false) :
    (∃ error, s.sequentialLanes env t lanes = .error error) ∨
      ∃ t' reason, s.sequentialLanes env t lanes = .ok (t', reason) ∧ reason ≠ "" := by
  induction lanes generalizing t with
  | nil =>
    obtain ⟨lane, hmem, -⟩ := h
    cases hmem
  | cons lane lanes ih =>
    by_cases habort : env.abortCheck (lane + 1) = true
    · right
      exact ⟨t, _, by rw [sequentialLanes, if_pos habort], abortText_ne _⟩
    · by_cases hok : (env.engine lane).ok = true
      · rw [sequentialLanes, if_neg habort, runLane_eq_ok hok]
        apply ih
        obtain ⟨bad, hmem, hbad⟩ := h
        rcases List.mem_cons.mp hmem with rfl | hmem
        · rcases hbad with hbad | hbad
          · exact absurd hbad habort
          · rw [hok] at hbad
            cases hbad
        · exact ⟨bad, hmem, hbad⟩
      · obtain ⟨error, herror⟩ := runLane_eq_error (by simpa using hok)
        left
        exact ⟨error, by rw [sequentialLanes, if_neg habort, herror]⟩

/-! ### The call -/

/-- The order in which the lanes are merged. -/
def mergeOrder (s : CudaNativeBackend) (env : BatchEnv) : List ℕ :=
  if s.parallel = false then List.range s.lanes.toNat else env.completion

/-- An undisturbed call hands on the first hit in merge order. -/
theorem handledHits_of_undisturbed (hcomp : env.completion.Perm (List.range s.lanes.toNat))
    (hstarted : s.started = true) (habort : s.NoAbort env) (hfail : s.NoFailure env) :
    s.handledHits env = ((s.mergeOrder env).findSome? (s.laneHit env)).toList := by
  obtain ⟨hzero, hlater⟩ := habort
  unfold handledHits mineBatch mergeOrder
  rw [if_neg (by simp [hstarted]), if_neg (by simp [hzero])]
  by_cases hpar : s.parallel = false
  · rw [if_pos hpar] at hlater
    rw [if_pos hpar, if_pos hpar]
    have hlanes : ∀ lane ∈ List.range s.lanes.toNat,
        env.abortCheck (lane + 1) = false ∧ (env.engine lane).ok = true := fun lane hlane =>
      ⟨hlater lane (List.mem_range.mp hlane), hfail lane (List.mem_range.mp hlane)⟩
    obtain ⟨t', heq, hhit⟩ := sequentialLanes_eq_ok (s := s) (t := {}) hlanes
    rw [heq]
    simpa using congrArg Option.toList hhit
  · rw [if_neg hpar] at hlater
    rw [if_neg hpar, if_neg hpar]
    have hlanes : ∀ lane ∈ env.completion, (env.engine lane).ok = true := fun lane hlane =>
      hfail lane (List.mem_range.mp (hcomp.mem_iff.mp hlane))
    obtain ⟨t', heq, hhit⟩ := parallelLanes_eq_ok (s := s) (t := {}) hlanes
    rw [heq]
    simpa [hlater] using congrArg Option.toList hhit

/-- A disturbed call hands on nothing, whatever its lanes found. -/
theorem handledHits_of_disturbed (hcomp : env.completion.Perm (List.range s.lanes.toNat))
    (h : ¬ (s.NoAbort env ∧ s.NoFailure env)) : s.handledHits env = [] := by
  unfold handledHits mineBatch
  by_cases hstarted : s.started = false
  · rw [if_pos hstarted]
    rfl
  rw [if_neg hstarted]
  by_cases hzero : env.abortCheck 0 = true
  · rw [if_pos hzero]
    rfl
  rw [if_neg hzero]
  have hzero' : env.abortCheck 0 = false := by simpa using hzero
  by_cases hpar : s.parallel = false
  · have hbad : ∃ lane ∈ List.range s.lanes.toNat,
        env.abortCheck (lane + 1) = true ∨ (env.engine lane).ok = false := by
      by_contra hnone
      push Not at hnone
      refine h ⟨⟨hzero', ?_⟩, fun lane hlane => ?_⟩
      · rw [if_pos hpar]
        intro lane hlane
        simpa using (hnone lane (List.mem_range.mpr hlane)).1
      · simpa using (hnone lane (List.mem_range.mpr hlane)).2
    rw [if_pos hpar]
    rcases sequentialLanes_of_disturbed (s := s) (t := {}) hbad with
      ⟨error, heq⟩ | ⟨t', reason, heq, hreason⟩
    · rw [heq]
    · rw [heq]
      simp [hreason]
  · rw [if_neg hpar]
    by_cases hfail : ∀ lane ∈ env.completion, (env.engine lane).ok = true
    · have hone : env.abortCheck 1 = true := by
        by_contra hone
        refine h ⟨⟨hzero', ?_⟩, fun lane hlane => ?_⟩
        · rw [if_neg hpar]
          simpa using hone
        · exact hfail lane (hcomp.mem_iff.mpr (List.mem_range.mpr hlane))
      obtain ⟨t', heq, -⟩ := parallelLanes_eq_ok (s := s) (t := {}) hfail
      rw [heq]
      simp [hone, abortText_ne]
    · push Not at hfail
      obtain ⟨lane, hlane, hbad⟩ := hfail
      obtain ⟨error, heq⟩ := parallelLanes_eq_error (s := s) (t := {})
        ⟨lane, hlane, by simpa using hbad⟩
      rw [heq]

/-- In an undisturbed call every lane completes. -/
theorem completedLanes_of_undisturbed (hcomp : env.completion.Perm (List.range s.lanes.toNat))
    (hstarted : s.started = true) (habort : s.NoAbort env) (hfail : s.NoFailure env) :
    (s.completedLanes env).Perm (s.mergeOrder env) := by
  obtain ⟨hzero, hlater⟩ := habort
  unfold completedLanes mergeOrder
  rw [if_neg (by simp [hstarted, hzero])]
  by_cases hpar : s.parallel = false
  · rw [if_pos hpar] at hlater
    rw [if_pos hpar, if_pos hpar, List.takeWhile_eq_self_iff.mpr]
    intro lane hlane
    have hlt := List.mem_range.mp hlane
    simp [hlater lane hlt, hfail lane hlt]
  · rw [if_neg hpar, if_neg hpar, List.filter_eq_self.mpr]
    · exact hcomp.symm
    · intro lane hlane
      exact hfail lane (List.mem_range.mp hlane)

/-- Only the head of a list is a permutation of it exactly when there is no more. -/
theorem head_toList_perm_iff {α : Type*} (xs : List α) :
    xs.head?.toList.Perm xs ↔ xs.length ≤ 1 := by
  constructor
  · intro h
    rw [← h.length_eq]
    cases xs <;> simp
  · intro h
    match xs, h with
    | [], _ => exact .nil
    | [_], _ => exact .refl _

/-- **When every match reaches `handle_hit`.**  The keys passed on are the keys of all matches found
by the lanes that completed if and only if there is no such match, or exactly one, and the abort check
never fired and no lane failed. -/
theorem handledKeys_perm_iff (s : CudaNativeBackend) (env : BatchEnv)
    (hcomp : env.completion.Perm (List.range s.lanes.toNat)) :
    (s.handledKeys env).Perm (s.foundKeys env) ↔
      s.foundKeys env = [] ∨
        (s.foundKeys env).length = 1 ∧ s.NoAbort env ∧ s.NoFailure env := by
  by_cases hstarted : s.started = true
  · by_cases hcalm : s.NoAbort env ∧ s.NoFailure env
    · -- the first match alone is passed on
      have hfound : (s.foundKeys env).Perm ((s.mergeOrder env).flatMap (laneKeys env)) :=
        (completedLanes_of_undisturbed hcomp hstarted hcalm.1 hcalm.2).flatMap_right _
      have hhandled : s.handledKeys env
          = ((s.mergeOrder env).flatMap (laneKeys env)).head?.toList := by
        unfold handledKeys
        rw [handledHits_of_undisturbed hcomp hstarted hcalm.1 hcalm.2, ← findSome_laneHit_key]
        cases (s.mergeOrder env).findSome? (s.laneHit env) <;> rfl
      rw [hhandled, hfound.congr_right, head_toList_perm_iff, ← hfound.length_eq,
        ← List.length_eq_zero_iff]
      constructor
      · intro hle
        have hcases : (s.foundKeys env).length = 0 ∨ (s.foundKeys env).length = 1 := by omega
        exact hcases.imp id fun hone => ⟨hone, hcalm⟩
      · rintro (hzero | ⟨hone, -⟩)
        · omega
        · omega
    · -- an abort or a failure loses the whole batch
      have hnone : s.handledKeys env = [] := by
        unfold handledKeys
        rw [handledHits_of_disturbed hcomp hcalm]
        rfl
      rw [hnone, List.nil_perm]
      exact ⟨Or.inl, fun h => h.elim id fun h => absurd h.2 hcalm⟩
  · have hstop : s.started = false := by simpa using hstarted
    have hnone : s.handledKeys env = [] ∧ s.foundKeys env = [] := by
      unfold handledKeys handledHits mineBatch foundKeys completedLanes
      rw [if_pos hstop, if_pos (Or.inl hstop)]
      exact ⟨rfl, rfl⟩
    rw [hnone.1, hnone.2]
    simp

/-- A match whose key is 64 times the same digit. -/
def sampleMatch (digit : Char) : HashApiMatch where
  key := String.ofList (List.replicate 64 digit)
  hash := "cHJvb2YgWEVOMTE"
  matchedPattern := "XEN11"
  attemptIndex := 7
  key_length_le := by simp

/-- A calm call with one lane that found the given matches. -/
def sampleBatch (found : List HashApiMatch) : BatchEnv where
  abortCheck _ := false
  engine _ :=
    { ok := true
      error := ""
      attempts := 9000
      hashrate := 450
      elapsedMs := 20000
      batchSize := 9000
      found := found }
  completion := [0]
  now := 0

/-- The same call with parallel lanes, which complete in the given order. -/
def parallelBatch (found : ℕ → List HashApiMatch) (completion : List ℕ) : BatchEnv :=
  { sampleBatch [] with
    engine := fun lane => (sampleBatch (found lane)).engine lane
    completion := completion }

/-- Four parallel lanes that complete out of order, and one match, found by the last of them. -/
theorem handledKeys_perm_iff_parallel :
    let s := (create { memoryCost := 100 } true 4).step (steadyEngine, .start)
    let env := parallelBatch (fun lane => if lane = 2 then [sampleMatch 'a'] else []) [3, 1, 0, 2]
    s.parallel = true ∧ s.lanes = 4 ∧ s.handledKeys env = [(sampleMatch 'a').key] ∧
      (s.handledKeys env).Perm (s.foundKeys env) := by
  intro s env
  refine ⟨by decide +kernel, by decide +kernel, by decide +kernel, ?_⟩
  apply (handledKeys_perm_iff s env (by decide +kernel)).mpr
  right
  refine ⟨by decide +kernel, ⟨rfl, ?_⟩, fun _ _ => rfl⟩
  rw [if_neg (by decide +kernel)]
  rfl

/-- One lane, two matches in one batch: the second is lost. -/
theorem handledKeys_loses_second :
    let s := (create { memoryCost := 1500 } true 8).step (steadyEngine, .start)
    let env := sampleBatch [sampleMatch 'a', sampleMatch 'b']
    (s.foundKeys env).length = 2 ∧ (s.handledKeys env).length = 1 ∧
      ¬ (s.handledKeys env).Perm (s.foundKeys env) := by
  decide +kernel

end XenMiner.CudaNativeBackend
