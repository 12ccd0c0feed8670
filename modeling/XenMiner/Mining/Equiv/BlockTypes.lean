import XenMiner.Mining.Equiv.Argon2Common

/-!
# What the salt of an encoded hash does to its kind

`classify_block` counts capitals in the digest, and searches its two markers in the whole text.  A
marker holds no dollar sign and an `X`, which nothing before the salt does, so it is found in an
encoded hash if it is in the salt or in the digest (`classifyBlock_encodedHash`).  The salt then
leaves the kind alone exactly if it is `SaltSilent`.
-/

namespace XenMiner.BlockTypes

open Argon2Common (Argon2 argon2Hash)

/-! ### Markers do not cross a separator -/

section Infix

variable {α : Type*} {c : α} {m a b : List α}

theorem prefix_append_sep (h : c ∉ m) : m <+: a ++ c :: b ↔ m <+: a := by
  refine ⟨fun hm => ?_, fun hm => hm.trans (List.prefix_append _ _)⟩
  rcases Nat.lt_or_ge a.length m.length with hlong | hshort
  · -- a longer text would reach the separator
    have hsep : a ++ [c] <+: m := by
      refine List.prefix_of_prefix_length_le ⟨b, by simp⟩ hm ?_
      rw [List.length_append, List.length_singleton]
      exact hlong
    exact absurd (hsep.subset (by simp)) h
  · exact List.prefix_of_prefix_length_le hm (List.prefix_append _ _) hshort

theorem infix_append_sep (h : c ∉ m) : m <:+: a ++ c :: b ↔ m <:+: a ∨ m <:+: b := by
  induction a with
  | nil =>
    rw [List.nil_append, List.infix_cons_iff, ← List.nil_append (c :: b), prefix_append_sep h,
      List.prefix_nil, List.infix_nil]
  | cons x a ih =>
    rw [List.cons_append, List.infix_cons_iff, ih, ← List.cons_append, prefix_append_sep h,
      List.infix_cons_iff, or_assoc]

end Infix

/-- `XUNI` and a digit. -/
def xuniMarker (d : Char) : List Char := ['X', 'U', 'N', 'I', d]

theorem xuniMatch_iff {text : List Char} :
    xuniMatch text = true ↔ ∃ d, d.isDigit = true ∧ xuniMarker d <:+: text := by
  induction text with
  | nil => simp [xuniMatch, xuniMarker]
  | cons c rest ih =>
    have hsplit : (∃ d, d.isDigit = true ∧ xuniMarker d <:+: c :: rest) ↔
        (∃ d, d.isDigit = true ∧ xuniMarker d <+: c :: rest) ∨
          ∃ d, d.isDigit = true ∧ xuniMarker d <:+: rest := by
      rw [← exists_or]
      refine exists_congr fun d => ?_
      rw [List.infix_cons_iff, and_or_left]
    rw [xuniMatch, Bool.or_eq_true, hsplit]
    refine or_congr ⟨fun h => ?_, ?_⟩ ih
    · split at h
      next d tail heq => exact ⟨d, h, tail, heq.symm⟩
      next => cases h
    · rintro ⟨d, hd, tail, heq⟩
      rw [← heq]
      exact hd

/-! ### The text of an encoded hash -/

/-- An encoded hash of any salt and digest. -/
def encodedHash (m t p : ℤ) (salt digest : String) : String :=
  "$argon2id$v=19$m=" ++ toString m ++ ",t=" ++ toString t ++ ",p=" ++ toString p ++ "$" ++ salt ++ "$"
    ++ digest

theorem argon2Hash_eq (A : Argon2) (key saltHex : String) (m t p n : ℤ) :
    argon2Hash A key saltHex m t p n
      = encodedHash m t p (A.salt saltHex) (A.digest key saltHex m t p n) := rfl

/-- What precedes the salt. -/
def hashHeader (m t p : ℤ) : List Char :=
  "$argon2id$v=19$m=".toList ++ (toString m).toList ++ ",t=".toList ++ (toString t).toList
    ++ ",p=".toList ++ (toString p).toList

variable {m t p : ℤ} {salt digest : String}

theorem toList_encodedHash : (encodedHash m t p salt digest).toList
    = hashHeader m t p ++ '$' :: (salt.toList ++ '$' :: digest.toList) := by
  unfold encodedHash hashHeader
  simp [String.toList_append]

theorem not_mem_hashHeader (m t p : ℤ) : 'X' ∉ hashHeader m t p := by
  unfold hashHeader
  simp only [List.mem_append, not_or]
  refine ⟨⟨⟨⟨⟨by decide, ?_⟩, by decide⟩, ?_⟩, by decide⟩, ?_⟩
  all_goals exact Argon2Common.not_mem_toString_int _ (by decide) (by decide)

theorem infix_encodedHash {marker : List Char} (hx : 'X' ∈ marker) (hfree : '$' ∉ marker) :
    marker <:+: (encodedHash m t p salt digest).toList ↔
      marker <:+: salt.toList ∨ marker <:+: digest.toList := by
  have hheader : ¬ marker <:+: hashHeader m t p := fun h =>
    not_mem_hashHeader m t p (h.subset hx)
  rw [toList_encodedHash, infix_append_sep hfree, infix_append_sep hfree]
  exact or_iff_right hheader

theorem xuniMatch_encodedHash : xuniMatch (encodedHash m t p salt digest).toList = true ↔
    xuniMatch salt.toList = true ∨ xuniMatch digest.toList = true := by
  rw [xuniMatch_iff, xuniMatch_iff, xuniMatch_iff, ← exists_or]
  refine exists_congr fun d => ?_
  rw [← and_or_left]
  refine and_congr_right fun hd => infix_encodedHash List.mem_cons_self ?_
  unfold xuniMarker
  rintro h
  -- only the digit is unknown, and a dollar sign is none
  have hdollar : '$' = d := by simpa using h
  rw [← hdollar] at hd
  cases hd

theorem contains_encodedHash : PyStr.contains "XEN11" (encodedHash m t p salt digest) = true ↔
    PyStr.contains "XEN11" salt = true ∨ PyStr.contains "XEN11" digest = true := by
  rw [PyStr.contains_iff, PyStr.contains_iff, PyStr.contains_iff]
  exact infix_encodedHash (by decide) (by decide)

theorem hashDigestForSuperblock_digest (h : '$' ∉ digest.toList) :
    hashDigestForSuperblock digest = digest := by
  unfold hashDigestForSuperblock
  rw [if_neg]
  rintro (hstart | hcount)
  · exact h ((PyStr.startsWith_iff.mp hstart).subset (by decide))
  · rw [List.count_eq_zero_of_not_mem h] at hcount
    omega

theorem hashDigestForSuperblock_encodedHash (h : '$' ∉ digest.toList) :
    hashDigestForSuperblock (encodedHash m t p salt digest) = digest := by
  have hstart : PyStr.startsWith "$" (encodedHash m t p salt digest) = true := by
    refine PyStr.startsWith_iff.mpr ?_
    rw [toList_encodedHash]
    unfold hashHeader
    simp
  have hlast : (encodedHash m t p salt digest).toList.reverse
      = digest.toList.reverse ++ '$' :: (hashHeader m t p ++ '$' :: salt.toList).reverse := by
    rw [toList_encodedHash]
    simp
  unfold hashDigestForSuperblock afterLastDollar
  rw [if_pos (Or.inl hstart), hlast, List.takeWhile_append_of_pos, List.takeWhile_cons_of_neg,
    List.append_nil, List.reverse_reverse, String.ofList_toList]
  · simp
  · intro c hc
    rw [List.mem_reverse] at hc
    simpa using fun heq : c = '$' => h (heq ▸ hc)

/-! ### The kind -/

/-- The type hint as `classify_block` compares it. -/
def hintOf (blockType : String) : String :=
  PyStr.strip (PyStr.remove '\x00' (PyStr.upper blockType))

/-- The hints that make a block normal. -/
def IsNormalHint (blockType : String) : Prop := hintOf blockType ∈ ["XEN11", "NORMAL", "XNM", "XBLK"]

/-- The kind by what the searches find. -/
def kindOf (xuni xen11 superblock normal : Prop) [Decidable xuni] [Decidable xen11]
    [Decidable superblock] [Decidable normal] : BlockKind :=
  if xuni then .xuni
  else if xen11 ∧ superblock then .xblk
  else if xen11 ∨ normal then .xnm
  else .other

instance (blockType : String) : Decidable (IsNormalHint blockType) :=
  inferInstanceAs (Decidable (hintOf blockType ∈ _))

theorem classifyBlock_eq (hashStr blockType : String) : classifyBlock hashStr blockType =
    kindOf (hintOf blockType = "XUNI" ∨ xuniMatch hashStr.toList = true)
      (PyStr.contains "XEN11" hashStr = true) (isSuperblock hashStr = true)
      (IsNormalHint blockType) := rfl

theorem isSuperblock_encodedHash (h : '$' ∉ digest.toList) :
    isSuperblock (encodedHash m t p salt digest) = isSuperblock digest := by
  unfold isSuperblock
  rw [hashDigestForSuperblock_encodedHash h, hashDigestForSuperblock_digest h]

/-- The kind of an encoded hash, from its salt and its digest. -/
theorem classifyBlock_encodedHash (h : '$' ∉ digest.toList) (blockType : String) :
    classifyBlock (encodedHash m t p salt digest) blockType =
      kindOf (hintOf blockType = "XUNI" ∨ xuniMatch salt.toList = true ∨ xuniMatch digest.toList = true)
        (PyStr.contains "XEN11" salt = true ∨ PyStr.contains "XEN11" digest = true)
        (isSuperblock digest = true) (IsNormalHint blockType) := by
  rw [classifyBlock_eq, isSuperblock_encodedHash h]
  unfold kindOf
  simp only [xuniMatch_encodedHash, contains_encodedHash]

/-- The markers in a salt do not change the kind of a digest with a hint. -/
def SaltSilent (salt digest blockType : String) : Prop :=
  hintOf blockType = "XUNI" ∨ xuniMatch digest.toList = true ∨
    xuniMatch salt.toList = false ∧ (PyStr.contains "XEN11" digest = true ∨
      PyStr.contains "XEN11" salt = false ∨ isSuperblock digest = false ∧ IsNormalHint blockType)

/-- What more matches, those of the salt, do to the kind. -/
theorem kindOf_or_eq_iff {hint saltXuni xuni saltXen11 xen11 superblock normal : Prop}
    [Decidable hint] [Decidable saltXuni] [Decidable xuni] [Decidable saltXen11] [Decidable xen11]
    [Decidable superblock] [Decidable normal] :
    kindOf (hint ∨ saltXuni ∨ xuni) (saltXen11 ∨ xen11) superblock normal
        = kindOf (hint ∨ xuni) xen11 superblock normal ↔
      hint ∨ xuni ∨ ¬ saltXuni ∧ (xen11 ∨ ¬ saltXen11 ∨ ¬ superblock ∧ normal) := by
  unfold kindOf
  by_cases hhint : hint
  · simp [hhint]
  by_cases hxuni : xuni
  · simp [hxuni]
  by_cases hsalt : saltXuni
  · -- only the salt shows `XUNI`
    simp only [hhint, hxuni, hsalt, or_true, true_or, false_or, ↓reduceIte, not_true_eq_false, false_and,
      iff_false]
    split_ifs <;> simp
  by_cases hxen : xen11
  · simp [hhint, hxuni, hsalt, hxen]
  by_cases hmark : saltXen11
  · -- only the salt shows `XEN11`
    simp only [hhint, hxuni, hsalt, hxen, hmark, true_or, false_or, true_and, false_and, ↓reduceIte,
      not_true_eq_false, not_false_eq_true]
    by_cases hsuper : superblock
    · by_cases hnormal : normal
      · simp [hsuper, hnormal]
      · simp [hsuper, hnormal]
    · by_cases hnormal : normal
      · simp [hsuper, hnormal]
      · simp [hsuper, hnormal]
  · simp [hhint, hxuni, hsalt, hxen, hmark]

instance (blockType : String) : Decidable (SaltSilent salt digest blockType) := by
  unfold SaltSilent
  infer_instance

theorem classifyBlock_encodedHash_eq_iff (h : '$' ∉ digest.toList) (blockType : String) :
    classifyBlock (encodedHash m t p salt digest) blockType = classifyBlock digest blockType ↔
      SaltSilent salt digest blockType := by
  rw [classifyBlock_encodedHash h, classifyBlock_eq digest, kindOf_or_eq_iff]
  unfold SaltSilent
  simp only [Bool.not_eq_true]

end XenMiner.BlockTypes
