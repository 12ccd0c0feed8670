import XenMiner.Core.Supervisor
import XenMiner.Mining.Equiv.Argon2Common

/-!
# Live submission and the queue verify a block

Both call `prepare_hit_for_submit`, the queue with one Argon2 lane and the live path with as many as are
configured and fit into the submit cores.  The lanes show in the encoded hash, so the two agree on a raw
hash that one of them finds only if the live path has one lane, too (`sameVerdict_iff`).
-/

namespace XenMiner

open Argon2Common

/-! ### Lanes show in the hash -/

namespace Argon2Common

theorem parallelism_of_argon2Hash {A : Argon2} {key saltHex : String} {m t n : ℤ} {p p' : ℕ}
    (h : argon2Hash A key saltHex m t p n = argon2Hash A key saltHex m t p' n) : p = p' := by
  have htext := congrArg String.toList h
  unfold argon2Hash at htext
  simp only [String.toList_append, List.append_assoc, List.append_cancel_left_eq] at htext
  -- what is left of both texts is the number of lanes, a `$`, and the digest
  have hdigits := (eq_of_append_sep (toString_int_free p) (toString_int_free p') htext).1
  rw [toList_toString_natCast, toList_toString_natCast] at hdigits
  have hvalue := congrArg (Nat.ofDigitChars 10 · 0) hdigits
  simpa using hvalue

end Argon2Common

/-! ### Verdicts -/

namespace Supervisor

/-- A block is filtered, or submitted with a hash and a label. -/
def verdict (prepared : Option BlockHit) : Option (String × String) :=
  prepared.map fun hit => (hit.hashStr, hit.blockType)

/-- The verdict of the queue, unless the row waits. -/
def queueVerdict : Disposition → Option (Option (String × String))
  | .waiting _ => none
  | .falsePositive => some (verdict none)
  | .prepared hit _ => some (verdict (some hit))

/-- The row of a hit that was mined at memory cost `m`. -/
def rowAt (m : ℤ) (hit : BlockHit) (queuedAt : ℤ) (reason : String) : PendingRow :=
  BlockStore.queueRow queuedAt { hit with memoryCost := some m } reason

/-- The live path and the queue decide alike on a hit at the mining difficulty. -/
def SameVerdict (A : Argon2) (s : Supervisor) (hit : BlockHit) (queuedAt now : ℤ)
    (reason : String) : Prop :=
  queueVerdict (disposition A s.settings s.miningDifficulty now
    (rowAt s.miningDifficulty hit queuedAt reason)) = some (verdict (s.prepareLiveHit A hit))

/-- The lanes of the live path. -/
def liveLanes (s : Supervisor) : ℤ :=
  Policy.parallelismForSingle s.workers s.settings.parallelism

/-- The raw hash of a hit occurs in the hash of its key with `p` lanes. -/
def FoundWith (A : Argon2) (s : Supervisor) (hit : BlockHit) (p : ℤ) : Prop :=
  PyStr.contains hit.hashStr (argon2Hash A hit.key s.settings.saltHex s.miningDifficulty
    s.settings.timeCost p s.settings.hashLen) = true

variable {A : Argon2} {s : Supervisor} {hit hit' : BlockHit} {saltHex : String} {m t p n : ℤ}

/-- Key, hash and label decide. -/
theorem verdict_congr (hkey : hit'.key = hit.key) (hhash : hit'.hashStr = hit.hashStr)
    (htype : hit'.blockType = hit.blockType) :
    verdict (prepareHitForSubmit A hit' saltHex m t p n)
      = verdict (prepareHitForSubmit A hit saltHex m t p n) := by
  unfold prepareHitForSubmit verdict
  rw [hkey, hhash, htype]
  split_ifs
  · -- an encoded hash
    cases memoryCostFromHash hit.hashStr with
    | none => simp [hhash, htype]
    | some blockM =>
      dsimp only
      split_ifs
      · rfl
      · simp [hhash, htype]
  · dsimp only
    split_ifs
    · rfl
    · rfl

/-- The queue prepares a row that does not wait as if it had one lane. -/
theorem queueVerdict_disposition (A : Argon2) (s : Supervisor) (hit : BlockHit) (queuedAt now : ℤ)
    (reason : String) :
    queueVerdict (disposition A s.settings s.miningDifficulty now
      (rowAt s.miningDifficulty hit queuedAt reason)) =
      if s.miningDifficulty = 0 ∧ ∃ c ∈ memoryCostFromHash hit.hashStr, c ≠ 0 then none
      else some (verdict (prepareHitForSubmit A hit s.settings.saltHex s.miningDifficulty
        s.settings.timeCost 1 s.settings.hashLen)) := by
  have hcost : (rowAt s.miningDifficulty hit queuedAt reason).blockMemoryCost
      = if s.miningDifficulty = 0 then memoryCostFromHash hit.hashStr
        else some s.miningDifficulty := rfl
  -- a stored cost is the mining difficulty, so only a cost from the hash can make the row wait
  have hwaits : ((rowAt s.miningDifficulty hit queuedAt reason).blockMemoryCost ≠ none ∧
      (rowAt s.miningDifficulty hit queuedAt reason).blockMemoryCost ≠ some s.miningDifficulty) ↔
        s.miningDifficulty = 0 ∧ ∃ c ∈ memoryCostFromHash hit.hashStr, c ≠ 0 := by
    rw [hcost]
    by_cases hzero : s.miningDifficulty = 0
    · rw [if_pos hzero, hzero]
      cases memoryCostFromHash hit.hashStr <;> simp
    · rw [if_neg hzero]
      simp [hzero]
  have hsame : verdict (prepareHitForSubmit A hit s.settings.saltHex s.miningDifficulty
        s.settings.timeCost 1 s.settings.hashLen) = verdict (prepareHitForSubmit A
      ((rowAt s.miningDifficulty hit queuedAt reason).toHit now) s.settings.saltHex
        s.miningDifficulty s.settings.timeCost 1 s.settings.hashLen) := by
    have hkey : ((rowAt s.miningDifficulty hit queuedAt reason).toHit now).key = hit.key := rfl
    exact (verdict_congr hkey rfl rfl).symm
  unfold disposition
  by_cases h : s.miningDifficulty = 0 ∧ ∃ c ∈ memoryCostFromHash hit.hashStr, c ≠ 0
  · rw [if_pos h, if_pos (hwaits.mpr h)]
    rfl
  · -- a row that does not wait is hashed at the mining difficulty
    have hused : PyNum.optOrInt (rowAt s.miningDifficulty hit queuedAt reason).blockMemoryCost
        s.miningDifficulty = s.miningDifficulty := by
      rcases not_and_or.mp (mt hwaits.mp h) with hnone | hsome
      · rw [not_not.mp hnone]
        rfl
      · rw [not_not.mp hsome]
        exact PyNum.optOrInt_some_self _
    rw [if_neg h, if_neg (mt hwaits.mp h), hsame]
    dsimp only
    rw [hused]
    cases prepareHitForSubmit A ((rowAt s.miningDifficulty hit queuedAt reason).toHit now)
      s.settings.saltHex s.miningDifficulty s.settings.timeCost 1 s.settings.hashLen with
    | none => rfl
    | some prepared => rfl

theorem one_le_liveLanes (s : Supervisor) : 1 ≤ s.liveLanes := le_max_left _ _

/-- An encoded hash is not hashed again. -/
theorem prepareHitForSubmit_of_encoded (h : isArgon2Encoded hit.hashStr = true) (p p' : ℤ) :
    prepareHitForSubmit A hit saltHex m t p n = prepareHitForSubmit A hit saltHex m t p' n := by
  unfold prepareHitForSubmit
  rw [if_pos h, if_pos h]

/-- A raw hash that is found is submitted encoded. -/
theorem verdict_of_raw (h : isArgon2Encoded hit.hashStr = false) :
    verdict (prepareHitForSubmit A hit saltHex m t p n) =
      if PyStr.contains hit.hashStr (argon2Hash A hit.key saltHex m t p n) = true then
        some (argon2Hash A hit.key saltHex m t p n,
          (BlockTypes.classifyBlock (argon2Hash A hit.key saltHex m t p n) hit.blockType).text)
      else none := by
  unfold prepareHitForSubmit verdict
  rw [if_neg (by rw [h]; exact Bool.false_ne_true)]
  dsimp only
  split_ifs
  · rw [Option.map_some]
  · rw [Option.map_none]

/-- **Live path and queue agree exactly on these hits**: on encoded hashes, but for a queue that waits
at difficulty 0; on raw hashes if the live path has one lane, or neither finds the hash. -/
theorem sameVerdict_iff (A : Argon2) (s : Supervisor) (hit : BlockHit) (queuedAt now : ℤ)
    (reason : String) :
    SameVerdict A s hit queuedAt now reason ↔
      if isArgon2Encoded hit.hashStr = true then
        s.miningDifficulty ≠ 0 ∨ ∀ c ∈ memoryCostFromHash hit.hashStr, c = 0
      else s.liveLanes = 1 ∨ ¬ s.FoundWith A hit s.liveLanes ∧ ¬ s.FoundWith A hit 1 := by
  have hlive : s.prepareLiveHit A hit = prepareHitForSubmit A hit s.settings.saltHex
    s.miningDifficulty s.settings.timeCost s.liveLanes s.settings.hashLen := rfl
  unfold SameVerdict
  rw [queueVerdict_disposition, hlive]
  by_cases hencoded : isArgon2Encoded hit.hashStr = true
  · -- the lanes are in the hash already, and the queue may only wait
    rw [if_pos hencoded, prepareHitForSubmit_of_encoded hencoded s.liveLanes 1]
    by_cases hwaits : s.miningDifficulty = 0 ∧ ∃ c ∈ memoryCostFromHash hit.hashStr, c ≠ 0
    · obtain ⟨hzero, c, hc, hne⟩ := hwaits
      rw [if_pos ⟨hzero, c, hc, hne⟩]
      refine iff_of_false (fun h => by cases h) ?_
      rintro (hpos | hall)
      · exact hpos hzero
      · exact hne (hall c hc)
    · rw [if_neg hwaits]
      refine iff_of_true rfl ?_
      by_cases hzero : s.miningDifficulty = 0
      · right
        intro c hc
        by_contra hne
        exact hwaits ⟨hzero, c, hc, hne⟩
      · exact Or.inl hzero
  · have hraw := eq_false_of_ne_true hencoded
    -- a raw hash names no cost, so the queue does not wait
    have hnone : memoryCostFromHash hit.hashStr = none := if_neg hencoded
    rw [if_neg hencoded, if_neg (by simp [hnone]), Option.some.injEq, verdict_of_raw hraw,
      verdict_of_raw hraw]
    unfold FoundWith
    constructor
    · intro h
      by_cases hone : PyStr.contains hit.hashStr (argon2Hash A hit.key s.settings.saltHex
          s.miningDifficulty s.settings.timeCost 1 s.settings.hashLen) = true
      · -- The hashes are the same, so the lanes are.
        left
        rw [if_pos hone] at h
        split_ifs at h with hfound
        · have hhash := (Prod.mk.inj (Option.some.inj h)).1
          obtain ⟨p, hp⟩ := Int.eq_ofNat_of_zero_le (Int.le_trans (by decide) s.one_le_liveLanes)
          rw [hp] at hhash ⊢
          exact congrArg Nat.cast (parallelism_of_argon2Hash (p := 1) hhash).symm
      · right
        rw [if_neg hone] at h
        refine ⟨fun hfound => ?_, hone⟩
        rw [if_pos hfound] at h
        cases h
    · rintro (hone | ⟨hlanes, hone⟩)
      · rw [hone]
      · rw [if_neg hlanes, if_neg hone]

/-- A supervisor with four submit cores and four configured lanes. -/
def fourLanes : Supervisor where
  settings := { parallelism := 4 }
  workers := 4
  backend := .cuda 100
  queue := { store := .empty }

/-- A block that was mined with one lane, as the pool checks it. -/
def minedHit (A : Argon2) : BlockHit where
  key := "a"
  hashStr := A.digest "a" fourLanes.settings.saltHex 100 fourLanes.settings.timeCost 1
    fourLanes.settings.hashLen
  blockType := "XNM"
  attempts := 1
  strategy := "random"
  foundAt := 0

/-- The queue submits the block and the live path does not, or with another hash: whatever the hash
function is. -/
theorem sameVerdict_fails :
    fourLanes.liveLanes = 4 ∧
      ∀ A : Argon2, ¬ SameVerdict A fourLanes (minedHit A) 0 0 "network_down" := by
  have hlanes : fourLanes.liveLanes = 4 := by decide
  refine ⟨hlanes, fun A h => ?_⟩
  have hbase64 := A.digest_base64 "a" fourLanes.settings.saltHex 100 fourLanes.settings.timeCost 1
    fourLanes.settings.hashLen
  have hraw : isArgon2Encoded (minedHit A).hashStr = false := by
    refine eq_false_of_ne_true fun hencoded => ?_
    have hhead := PyStr.startsWith_iff.mp hencoded
    exact not_mem_of_isBase64 hbase64 (c := '$') (by decide)
      (hhead.subset (by decide))
  have hfound : PyStr.contains (minedHit A).hashStr (argon2Hash A (minedHit A).key
      fourLanes.settings.saltHex fourLanes.miningDifficulty fourLanes.settings.timeCost 1
      fourLanes.settings.hashLen) = true := by
    refine PyStr.contains_iff.mpr ?_
    unfold argon2Hash
    rw [String.toList_append]
    exact (List.suffix_append _ _).isInfix
  have hnone : memoryCostFromHash (minedHit A).hashStr = none := if_neg (by rw [hraw]; decide)
  have hlive : fourLanes.prepareLiveHit A (minedHit A) = prepareHitForSubmit A (minedHit A)
    fourLanes.settings.saltHex fourLanes.miningDifficulty fourLanes.settings.timeCost
      fourLanes.liveLanes fourLanes.settings.hashLen := rfl
  unfold SameVerdict at h
  rw [queueVerdict_disposition, hlive, hlanes, if_neg (by simp [hnone]), Option.some.injEq,
    verdict_of_raw hraw, verdict_of_raw hraw, if_pos hfound] at h
  split_ifs at h
  have hhash := (Prod.mk.inj (Option.some.inj h)).1
  have hlane : 1 = 4 := parallelism_of_argon2Hash hhash
  exact absurd hlane (by decide)

end Supervisor

end XenMiner
