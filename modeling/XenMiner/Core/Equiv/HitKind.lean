import XenMiner.Core.Equiv.PrepareHit
import XenMiner.Mining.Equiv.BlockTypes
import XenMiner.Mining.MineBatch

/-!
# The kind of a hit on its way to the queue

A GPU match is classified on its digest, when the backend makes a hit of it and again in `handle_hit`,
and on the encoded hash once `prepare_hit_for_submit` has replaced the digest.  The labels agree exactly
if the salt is silent for the digest (`kindKept_iff`).
-/

namespace XenMiner.Supervisor

open Argon2Common BlockTypes

/-! ### Labels -/

/-- The type the queue checks against the window, once it has prepared a row. -/
def checkedType : Disposition → Option String
  | .prepared hit _ => some hit.blockType
  | _ => none

/-- Every label of a hit is the kind `handle_hit` derives: the one `prepare_hit_for_submit` stores, the
one the queue checks for the row of the prepared hit, and, for a hit with one lane, the one it checks
for the row of the hit as it was found. -/
structure KindKept (A : Argon2) (settings : Settings) (hit : BlockHit) (m p : ℤ) : Prop where
  prepared : ∃ prepared, prepareHitForSubmit A hit settings.saltHex m settings.timeCost p
      settings.hashLen = some prepared ∧ prepared.blockType = hitKind hit ∧
    ∀ queuedAt now reason difficulty, ∀ type ∈ checkedType (disposition A settings difficulty now
      (rowAt m prepared queuedAt reason)), type = hitKind hit
  found : p = 1 → ∀ queuedAt now reason,
    checkedType (disposition A settings m now (rowAt m hit queuedAt reason)) = some (hitKind hit)

theorem isNormalHint_text {kind : BlockKind} : IsNormalHint kind.text ↔ kind = .xnm ∨ kind = .xblk := by
  cases kind <;> decide

/-- A digest is classified the same with its kind as the hint. -/
theorem classifyBlock_text (hashStr pattern : String) :
    classifyBlock hashStr (classifyBlock hashStr pattern).text = classifyBlock hashStr pattern := by
  have hxuni : ∀ kind : BlockKind, hintOf kind.text = "XUNI" ↔ kind = .xuni := by
    intro kind
    cases kind <;> decide
  rw [classifyBlock_eq hashStr (classifyBlock hashStr pattern).text]
  simp only [hxuni, isNormalHint_text]
  rw [classifyBlock_eq]
  unfold kindOf
  by_cases hx : hintOf pattern = "XUNI" ∨ xuniMatch hashStr.toList = true
  · simp [hx]
  · rw [if_neg hx]
    rw [not_or] at hx
    by_cases hxen : PyStr.contains "XEN11" hashStr = true
    · by_cases hsuper : isSuperblock hashStr = true
      · simp [hx.2, hxen, hsuper]
      · simp [hx.2, hxen, hsuper]
    · by_cases hnormal : IsNormalHint pattern
      · simp [hx.2, hxen, hnormal]
      · simp [hx.2, hxen, hnormal]

/-- The hit of a GPU match carries the kind of its hash. -/
theorem blockType_of_hitFromResult {b : CudaNativeBackend} {env : BatchEnv} {result : CudaEngine.CudaBatchResult}
    {hit : BlockHit} (h : b.hitFromResult env result = some hit) :
    hit.blockType = (classifyBlock hit.hashStr hit.blockType).text := by
  unfold CudaNativeBackend.hitFromResult at h
  split at h
  next => cases h
  next m rest _ =>
    rw [← Option.some.inj h, classifyBlock_text]

/-- `handle_hit` keeps the label of such a hit. -/
theorem hitKind_of_blockType {hit : BlockHit}
    (h : hit.blockType = (classifyBlock hit.hashStr hit.blockType).text) : hitKind hit = hit.blockType := by
  unfold hitKind
  cases hkind : classifyBlock hit.hashStr hit.blockType with
  | other =>
    rw [hkind] at h
    rw [h]
    decide
  | xuni => rw [h, hkind]
  | xblk => rw [h, hkind]
  | xnm => rw [h, hkind]

/-! ### On the way to the queue -/

variable {A : Argon2} {settings : Settings} {hit : BlockHit} {m p : ℤ}

/-- A digest is no encoded hash. -/
theorem isArgon2Encoded_digest {key saltHex : String} {t n : ℤ} :
    isArgon2Encoded (A.digest key saltHex m t p n) = false := by
  refine eq_false_of_ne_true fun h => ?_
  have hhead := PyStr.startsWith_iff.mp h
  exact not_mem_of_isBase64 (A.digest_base64 key saltHex m t p n) (c := '$') (by decide)
    (hhead.subset (by decide))

theorem dollar_not_mem_digest {key saltHex : String} {t n : ℤ} :
    '$' ∉ (A.digest key saltHex m t p n).toList :=
  not_mem_of_isBase64 (A.digest_base64 key saltHex m t p n) (by decide)

/-- What is made of a digest. -/
theorem prepareHitForSubmit_digest {saltHex : String} {t n : ℤ}
    (hraw : hit.hashStr = A.digest hit.key saltHex m t p n) :
    ∃ prepared, prepareHitForSubmit A hit saltHex m t p n = some prepared ∧
      prepared.hashStr = argon2Hash A hit.key saltHex m t p n ∧
      prepared.blockType = (classifyBlock (encodedHash m t p (A.salt saltHex) hit.hashStr)
        hit.blockType).text := by
  have hcontains : PyStr.contains hit.hashStr (argon2Hash A hit.key saltHex m t p n) = true := by
    refine PyStr.contains_iff.mpr ?_
    rw [hraw]
    unfold argon2Hash
    rw [String.toList_append]
    exact (List.suffix_append _ _).isInfix
  have hencoded : ¬ isArgon2Encoded hit.hashStr = true := by
    rw [hraw, isArgon2Encoded_digest]
    exact Bool.false_ne_true
  unfold prepareHitForSubmit
  rw [if_neg hencoded]
  dsimp only
  rw [if_pos hcontains]
  refine ⟨_, rfl, rfl, ?_⟩
  dsimp only
  rw [argon2Hash_eq, hraw]

/-- An encoded row is checked with its label. -/
theorem checkedType_of_encoded {row : PendingRow} (hrow : isArgon2Encoded row.hashStr = true)
    {difficulty now : ℤ} {type : String}
    (h : type ∈ checkedType (disposition A settings difficulty now row)) : type = row.blockType := by
  unfold disposition at h
  split_ifs at h
  · cases h
  · dsimp only at h
    split at h
    next => cases h
    next hit' hprepared =>
      rcases (prepareHitForSubmit_eq_some hprepared).2 with ⟨-, hsame⟩ | ⟨hraw, -⟩
      · rw [hsame] at h
        exact (Option.some.inj h).symm
      · have htext : isArgon2Encoded row.hashStr = false := hraw
        rw [hrow] at htext
        cases htext

/-- The row of a raw hit does not wait at the difficulty it was mined with. -/
theorem disposition_rowAt (hraw : isArgon2Encoded hit.hashStr = false) (queuedAt now : ℤ)
    (reason : String) {prepared : BlockHit}
    (hprepared : prepareHitForSubmit A ((rowAt m hit queuedAt reason).toHit now) settings.saltHex m
      settings.timeCost 1 settings.hashLen = some prepared) :
    ∃ cost, disposition A settings m now (rowAt m hit queuedAt reason) = .prepared prepared cost := by
  have hnone : memoryCostFromHash hit.hashStr = none := if_neg (by rw [hraw]; exact Bool.false_ne_true)
  have hcost : (rowAt m hit queuedAt reason).blockMemoryCost = if m = 0 then none else some m := by
    rw [← hnone]
    rfl
  unfold disposition
  rw [hcost]
  by_cases hzero : m = 0
  · rw [if_pos hzero, if_neg (by simp)]
    dsimp only
    rw [PyNum.optOrInt_none, hprepared]
    exact ⟨_, rfl⟩
  · rw [if_neg hzero, if_neg (by simp)]
    dsimp only
    rw [PyNum.optOrInt_some_self, hprepared]
    exact ⟨_, rfl⟩

/-- The label of the hit is the kind of the encoded hash, too, exactly if the salt is silent. -/
theorem text_eq_hitKind_iff {saltHex : String} {t n : ℤ}
    (hlabel : hit.blockType = (classifyBlock hit.hashStr hit.blockType).text)
    (hraw : hit.hashStr = A.digest hit.key saltHex m t p n) :
    (classifyBlock (encodedHash m t p (A.salt saltHex) hit.hashStr) hit.blockType).text = hitKind hit ↔
      SaltSilent (A.salt saltHex) hit.hashStr hit.blockType := by
  have hdollar : '$' ∉ hit.hashStr.toList := by
    rw [hraw]
    exact dollar_not_mem_digest
  have hinjective : ∀ k k' : BlockKind, k.text = k'.text ↔ k = k' := by
    intro k k'
    cases k <;> cases k' <;> decide
  rw [hitKind_of_blockType hlabel]
  nth_rewrite 2 [hlabel]
  rw [hinjective]
  exact classifyBlock_encodedHash_eq_iff hdollar hit.blockType

/-- The labels of a GPU match agree exactly if the salt is silent. -/
theorem kindKept_iff {b : CudaNativeBackend} {env : BatchEnv} {result : CudaEngine.CudaBatchResult}
    (hhit : b.hitFromResult env result = some hit)
    (hraw : hit.hashStr
      = A.digest hit.key settings.saltHex m settings.timeCost p settings.hashLen) :
    KindKept A settings hit m p ↔ SaltSilent (A.salt settings.saltHex) hit.hashStr hit.blockType := by
  have hlabel := blockType_of_hitFromResult hhit
  have hiff := text_eq_hitKind_iff hlabel hraw
  obtain ⟨prepared, hprepared, hhash, htype⟩ := prepareHitForSubmit_digest hraw
  rw [← hiff]
  constructor
  · intro h
    obtain ⟨prepared', hprepared', htype', -⟩ := h.prepared
    rw [hprepared, Option.some.injEq] at hprepared'
    rw [← htype, hprepared', htype']
  · intro h
    have hkind : prepared.blockType = hitKind hit := htype.trans h
    refine ⟨⟨prepared, hprepared, hkind, ?_⟩, ?_⟩
    · intro queuedAt now reason difficulty type hchecked
      have hencoded : isArgon2Encoded (rowAt m prepared queuedAt reason).hashStr = true := by
        show isArgon2Encoded prepared.hashStr = true
        rw [hhash]
        exact isArgon2Encoded_argon2Hash A m
      rw [checkedType_of_encoded hencoded hchecked]
      exact hkind
    · intro hone queuedAt now reason
      subst hone
      -- the row is prepared like the hit it was made of
      obtain ⟨queued, hqueued, -, hqtype⟩ := prepareHitForSubmit_digest
        (show ((rowAt m hit queuedAt reason).toHit now).hashStr = _ from hraw)
      have hencoded : isArgon2Encoded hit.hashStr = false := by
        rw [hraw]
        exact isArgon2Encoded_digest
      obtain ⟨cost, hdisposition⟩ := disposition_rowAt hencoded queuedAt now reason hqueued
      rw [hdisposition]
      show some queued.blockType = some (hitKind hit)
      rw [hqtype]
      exact congrArg some h

/-- **The kind depends on the digest only for these salts**: an encoded hash has the kind of its digest,
whatever the costs, exactly if its salt is silent for the digest and the hint; and the labels of a GPU
match agree under the same condition. -/
theorem kind_of_digest_iff (m p : ℤ) :
    (∀ (t : ℤ) (salt digest blockType : String), '$' ∉ digest.toList →
      (classifyBlock (encodedHash m t p salt digest) blockType = classifyBlock digest blockType ↔
        SaltSilent salt digest blockType)) ∧
    ∀ (A : Argon2) (settings : Settings) (b : CudaNativeBackend) (env : BatchEnv)
      (result : CudaEngine.CudaBatchResult) (hit : BlockHit),
      b.hitFromResult env result = some hit →
      hit.hashStr = A.digest hit.key settings.saltHex m settings.timeCost p settings.hashLen →
      (KindKept A settings hit m p ↔
        SaltSilent (A.salt settings.saltHex) hit.hashStr hit.blockType) :=
  ⟨fun _ _ _ blockType h => classifyBlock_encodedHash_eq_iff h blockType,
    fun _ _ _ _ _ _ hhit hraw => kindKept_iff hhit hraw⟩

/-- A salt that shows `XEN11` makes a digest without markers a normal block. -/
theorem kind_of_digest_fails :
    classifyBlock "AAAAAAAA" "" = .other ∧
      classifyBlock (encodedHash 100 1 1 "XEN11AAAAAAAAAAAAAAAAAAAAAAA" "AAAAAAAA") "" = .xnm ∧
      ¬ SaltSilent "XEN11AAAAAAAAAAAAAAAAAAAAAAA" "AAAAAAAA" "" := by
  decide

/-- The GPU match of a key. -/
def sampleResult : CudaEngine.CudaBatchResult where
  ok := true
  error := ""
  attempts := 1
  hashrate := 0
  elapsedMs := 0
  batchSize := 1
  found := [{ key := "a", hashStr := "XEN11AAA", pattern := "XEN11", attemptIndex := 0 }]

def sampleEnv : BatchEnv where
  abortCheck := fun _ => false
  engine := fun _ =>
    { ok := true, error := "", attempts := 1, hashrate := 0, elapsedMs := 0, batchSize := 1, found := [] }
  completion := []
  now := 0

/-- Its hit keeps its label, for a salt without markers. -/
theorem kind_of_digest_sample :
    (∃ hit ∈ (CudaNativeBackend.create {} true 1).hitFromResult sampleEnv sampleResult,
      KindKept sampleArgon2 {} hit 100 1) ∧
      classifyBlock (encodedHash 100 1 1 "AAAA" "XEN11AAA") "" = classifyBlock "XEN11AAA" "" := by
  refine ⟨⟨_, rfl, ?_⟩, ?_⟩
  · exact ((kind_of_digest_iff 100 1).2 sampleArgon2 {} (CudaNativeBackend.create {} true 1)
      sampleEnv sampleResult _ rfl rfl).mpr (by decide)
  · exact ((kind_of_digest_iff 100 1).1 1 "AAAA" "XEN11AAA" "" (by decide)).mpr (by decide)

end XenMiner.Supervisor
