import Mathlib.Data.List.TakeWhile
import XenMiner.Mining.Argon2Common

/-!
# What `memory_cost_from_hash` reads off a piece of an encoded hash

An encoded hash is five fields, a dollar sign before each, and only the third one starts with `m=`.
So a piece of it that still looks encoded either shows its memory cost or shows none
(`memoryCostFromHash_of_contains`), and the whole hash shows it (`memoryCostFromHash_argon2Hash`).
-/

namespace XenMiner.Argon2Common

/-! ### The search -/

/-- The text `$m=(digits),rest`. -/
def costText (digits rest : List Char) : List Char := '$' :: 'm' :: '=' :: (digits ++ ',' :: rest)

/-- A nonempty run of digits. -/
structure IsDigits (digits : List Char) : Prop where
  ne_nil : digits ≠ []
  isDigit : ∀ c ∈ digits, c.isDigit = true

theorem takeWhile_digits {digits rest : List Char} (h : ∀ c ∈ digits, c.isDigit = true) :
    (digits ++ ',' :: rest).takeWhile Char.isDigit = digits := by
  rw [List.takeWhile_append_of_pos h, List.takeWhile_cons_of_neg (by decide), List.append_nil]

theorem dropWhile_digits {digits rest : List Char} (h : ∀ c ∈ digits, c.isDigit = true) :
    (digits ++ ',' :: rest).dropWhile Char.isDigit = ',' :: rest := by
  rw [List.dropWhile_append_of_pos h, List.dropWhile_cons_of_neg (by decide)]

theorem costAt_costText {digits rest : List Char} (h : IsDigits digits) :
    costAt (costText digits rest) = some (Nat.ofDigitChars 10 digits 0 : ℤ) := by
  unfold costAt costText
  simp only [takeWhile_digits h.isDigit, dropWhile_digits h.isDigit]
  exact if_pos ⟨h.ne_nil, rfl⟩

theorem costAt_eq_some {text : List Char} {cost : ℤ} (h : costAt text = some cost) :
    ∃ digits rest, IsDigits digits ∧ text = costText digits rest ∧
      cost = (Nat.ofDigitChars 10 digits 0 : ℤ) := by
  unfold costAt at h
  split at h
  · next rest =>
    dsimp only at h
    split_ifs at h with hmatch
    obtain ⟨hne, hcomma⟩ := hmatch
    obtain ⟨rest', hrest⟩ := List.head?_eq_some_iff.mp hcomma
    refine ⟨rest.takeWhile Char.isDigit, rest', ⟨hne, ?_⟩, ?_, ?_⟩
    · intro c hc
      exact List.mem_takeWhile_imp hc
    · rw [costText, ← hrest, List.takeWhile_append_dropWhile]
    · exact (Option.some.inj h).symm
  · cases h

theorem searchMemoryCost_eq_some {text : List Char} {cost : ℤ}
    (h : searchMemoryCost text = some cost) :
    ∃ digits rest, IsDigits digits ∧ costText digits rest <:+ text ∧
      cost = (Nat.ofDigitChars 10 digits 0 : ℤ) := by
  induction text with
  | nil => cases h
  | cons c text ih =>
    rw [searchMemoryCost] at h
    rcases Option.or_eq_some_iff.mp h with hhead | ⟨-, htail⟩
    · obtain ⟨digits, rest, hdigits, htext, hcost⟩ := costAt_eq_some hhead
      exact ⟨digits, rest, hdigits, by rw [htext], hcost⟩
    · obtain ⟨digits, rest, hdigits, hsuffix, hcost⟩ := ih htail
      exact ⟨digits, rest, hdigits, hsuffix.trans (List.suffix_cons c text), hcost⟩

theorem searchMemoryCost_isSome {text digits rest : List Char} (hdigits : IsDigits digits)
    (h : costText digits rest <:+ text) : (searchMemoryCost text).isSome = true := by
  induction text with
  | nil =>
    have hnil := List.suffix_nil.mp h
    cases hnil
  | cons c text ih =>
    rw [searchMemoryCost, Option.isSome_or]
    rcases List.suffix_cons_iff.mp h with heq | hsuffix
    · rw [← heq, costAt_costText hdigits]
      rfl
    · rw [ih hsuffix, Bool.or_true]

/-! ### The fields of an encoded hash -/

/-- The fields, each after a dollar sign. -/
def joinFields (fields : List (List Char)) : List Char := fields.flatMap fun f => '$' :: f

theorem suffix_of_cons_suffix_append {α : Type*} {c : α} {t a b : List α} (hc : c ∉ a)
    (h : c :: t <:+ a ++ b) : c :: t <:+ b := by
  induction a with
  | nil => exact h
  | cons x a ih =>
    rw [List.mem_cons, not_or] at hc
    rcases List.suffix_cons_iff.mp h with heq | hsuffix
    · exact absurd (List.cons.inj heq).1 hc.1
    · exact ih hc.2 hsuffix

/-- What follows a dollar sign of a joined text starts with one of its fields. -/
theorem suffix_joinFields {fields : List (List Char)} (hfree : ∀ f ∈ fields, '$' ∉ f)
    {t : List Char} (h : '$' :: t <:+ joinFields fields) :
    ∃ f later, f :: later <:+ fields ∧ t = f ++ joinFields later := by
  induction fields with
  | nil =>
    have hnil := List.suffix_nil.mp h
    cases hnil
  | cons f fields ih =>
    have hjoin : joinFields (f :: fields) = '$' :: (f ++ joinFields fields) := rfl
    rw [hjoin] at h
    rcases List.suffix_cons_iff.mp h with heq | hsuffix
    · exact ⟨f, fields, List.suffix_refl _, (List.cons.inj heq).2⟩
    · have hlater := suffix_of_cons_suffix_append (hfree f List.mem_cons_self) hsuffix
      obtain ⟨g, later, hg, ht⟩ := ih (fun g hg => hfree g (List.mem_cons_of_mem f hg)) hlater
      exact ⟨g, later, hg.trans (List.suffix_cons f fields), ht⟩

theorem not_mem_of_isBase64 {text : List Char} (h : ∀ c ∈ text, isBase64 c = true) {c : Char}
    (hc : isBase64 c = false) : c ∉ text := fun hmem => by
  rw [h c hmem] at hc
  cases hc

/-- Two texts cut at the first separator. -/
theorem eq_of_append_sep {α : Type*} {c : α} {a b s t : List α} (ha : c ∉ a) (hb : c ∉ b)
    (h : a ++ c :: s = b ++ c :: t) : a = b ∧ s = t := by
  induction a generalizing b with
  | nil =>
    cases b with
    | nil => exact ⟨rfl, (List.cons.inj h).2⟩
    | cons d b => exact absurd (List.cons.inj h).1 fun heq => hb (heq ▸ List.mem_cons_self)
  | cons d a ih =>
    rw [List.mem_cons, not_or] at ha
    cases b with
    | nil => exact absurd (List.cons.inj h).1.symm ha.1
    | cons e b =>
      rw [List.mem_cons, not_or] at hb
      obtain ⟨rfl, htail⟩ := List.cons.inj h
      obtain ⟨rfl, hrest⟩ := ih ha.2 hb.2 htail
      exact ⟨rfl, hrest⟩

theorem toList_toString_natCast (n : ℕ) : (toString (n : ℤ)).toList = Nat.toDigits 10 n := by
  show (Nat.repr n).toList = _
  rw [Nat.repr_eq_ofList_toDigits, String.toList_ofList]

theorem isDigits_toDigits (n : ℕ) : IsDigits (Nat.toDigits 10 n) where
  ne_nil := Nat.toDigits_ne_nil
  isDigit := fun _ hc => Nat.isDigit_of_mem_toDigits (by decide) (by decide) hc

/-- An integer is written with digits and a minus sign. -/
theorem not_mem_toString_int (m : ℤ) {c : Char} (hdigit : c.isDigit = false) (hminus : c ≠ '-') :
    c ∉ (toString m).toList := by
  cases m with
  | ofNat n =>
    rw [Int.ofNat_eq_natCast, toList_toString_natCast]
    intro h
    rw [(isDigits_toDigits n).isDigit c h] at hdigit
    cases hdigit
  | negSucc n =>
    show c ∉ ("-" ++ toString (n + 1 : ℕ)).toList
    rw [String.toList_append, List.mem_append]
    rintro (h | h)
    · exact hminus (List.mem_singleton.mp h)
    · have hdigits := toList_toString_natCast (n + 1)
      rw [(isDigits_toDigits (n + 1)).isDigit c (hdigits ▸ h)] at hdigit
      cases hdigit

theorem toString_int_free (m : ℤ) : '$' ∉ (toString m).toList :=
  not_mem_toString_int m (by decide) (by decide)

variable (A : Argon2) (key saltHex : String) (m t p n : ℤ)

/-- The five fields of `argon2Hash`. -/
def hashFields : List (List Char) :=
  ["argon2id".toList, "v=19".toList,
    "m=".toList ++ (toString m).toList ++ ",t=".toList ++ (toString t).toList ++ ",p=".toList
      ++ (toString p).toList,
    (A.salt saltHex).toList, (A.digest key saltHex m t p n).toList]

theorem toList_argon2Hash :
    (argon2Hash A key saltHex m t p n).toList = joinFields (hashFields A key saltHex m t p n) := by
  unfold argon2Hash joinFields hashFields
  simp [String.toList_append]

theorem hashFields_free : ∀ f ∈ hashFields A key saltHex m t p n, '$' ∉ f := by
  unfold hashFields
  intro f hf
  simp only [List.mem_cons, List.not_mem_nil, or_false] at hf
  rcases hf with rfl | rfl | rfl | rfl | rfl
  · decide
  · decide
  · simp only [List.mem_append, not_or]
    refine ⟨⟨⟨⟨⟨by decide, ?_⟩, by decide⟩, ?_⟩, by decide⟩, ?_⟩
    all_goals exact toString_int_free _
  · exact not_mem_of_isBase64 (A.salt_base64 saltHex) (by decide)
  · exact not_mem_of_isBase64 (A.digest_base64 key saltHex m t p n) (by decide)

/-- Base64 never continues with `m=`. -/
theorem base64_ne_cost {text later rest : List Char} (h : ∀ c ∈ text, isBase64 c = true)
    (hlater : later = [] ∨ ∃ more, later = '$' :: more) :
    'm' :: '=' :: rest ≠ text ++ later := by
  intro heq
  have heqsign : '=' ∉ text := not_mem_of_isBase64 h (by decide)
  match text with
  | [] =>
    rcases hlater with rfl | ⟨more, rfl⟩
    · cases heq
    · exact absurd (List.cons.inj heq).1 (by decide)
  | [_] =>
    rcases hlater with rfl | ⟨more, rfl⟩
    · simp at heq
    · have hsecond := (List.cons.inj (List.cons.inj heq).2).1
      exact absurd hsecond (by decide)
  | _ :: _ :: _ =>
    have hsecond := (List.cons.inj (List.cons.inj heq).2).1
    exact heqsign (by simp [← hsecond])

/-- The one place of an encoded hash with `m=` in front. -/
theorem digits_of_suffix {m : ℕ} {digits rest : List Char} (hdigits : IsDigits digits)
    (h : costText digits rest <:+ (argon2Hash A key saltHex m t p n).toList) :
    digits = Nat.toDigits 10 m := by
  rw [toList_argon2Hash] at h
  obtain ⟨f, later, hsuffix, ht⟩ := suffix_joinFields (hashFields_free A key saltHex m t p n) h
  unfold hashFields at hsuffix
  simp only [List.suffix_cons_iff, List.suffix_nil, List.cons.injEq, reduceCtorEq, or_false]
    at hsuffix
  rcases hsuffix with ⟨rfl, rfl⟩ | ⟨rfl, rfl⟩ | ⟨rfl, rfl⟩ | ⟨rfl, rfl⟩ | ⟨rfl, rfl⟩
  · simp at ht
  · simp at ht
  · -- The third field: both runs of digits end at the first comma.
    rw [toList_toString_natCast] at ht
    have hcut : digits ++ ',' :: rest = Nat.toDigits 10 m ++ ',' ::
        ("t=".toList ++ (toString t).toList ++ ",p=".toList ++ (toString p).toList
          ++ joinFields [(A.salt saltHex).toList, (A.digest key saltHex m t p n).toList]) := by
      simpa using ht
    have hrun := congrArg (fun text => text.takeWhile Char.isDigit) hcut
    simpa only [takeWhile_digits hdigits.isDigit,
      takeWhile_digits (isDigits_toDigits m).isDigit] using hrun
  · exact absurd ht (base64_ne_cost (A.salt_base64 saltHex) (Or.inr ⟨_, rfl⟩))
  · exact absurd ht (base64_ne_cost (A.digest_base64 key saltHex m t p n) (Or.inl rfl))

/-! ### The cost -/

variable {key saltHex t p n}

/-- A piece of the hash that still looks encoded shows its memory cost or none. -/
theorem memoryCostFromHash_of_contains (hm : 0 ≤ m) {hashStr : String}
    (h : PyStr.contains hashStr (argon2Hash A key saltHex m t p n) = true) :
    memoryCostFromHash hashStr = none ∨ memoryCostFromHash hashStr = some m := by
  obtain ⟨k, rfl⟩ := Int.eq_ofNat_of_zero_le hm
  cases hcost : memoryCostFromHash hashStr with
  | none => exact Or.inl rfl
  | some cost =>
    right
    unfold memoryCostFromHash at hcost
    split_ifs at hcost
    obtain ⟨digits, rest, hdigits, hsuffix, rfl⟩ := searchMemoryCost_eq_some hcost
    obtain ⟨before, after, hwhole⟩ := PyStr.contains_iff.mp h
    obtain ⟨skipped, hskipped⟩ := hsuffix
    -- Up to the end of the hash, the match goes on after the piece.
    have hplace : costText digits (rest ++ after) <:+
        (argon2Hash A key saltHex k t p n).toList := by
      refine ⟨before ++ skipped, ?_⟩
      rw [← hwhole, ← hskipped]
      simp [costText]
    rw [digits_of_suffix A key saltHex t p n hdigits hplace, Nat.ofDigitChars_ten_toDigits]

theorem isArgon2Encoded_argon2Hash : isArgon2Encoded (argon2Hash A key saltHex m t p n) = true := by
  refine PyStr.startsWith_iff.mpr ?_
  unfold argon2Hash
  simp [String.toList_append]

/-- The whole hash shows its memory cost. -/
theorem memoryCostFromHash_argon2Hash (hm : 0 ≤ m) :
    memoryCostFromHash (argon2Hash A key saltHex m t p n) = some m := by
  refine (memoryCostFromHash_of_contains A m hm (PyStr.contains_self _)).resolve_left fun hnone => ?_
  unfold memoryCostFromHash at hnone
  rw [if_pos (isArgon2Encoded_argon2Hash A m)] at hnone
  obtain ⟨k, rfl⟩ := Int.eq_ofNat_of_zero_le hm
  have hsuffix : costText (Nat.toDigits 10 k)
      ("t=".toList ++ (toString t).toList ++ ",p=".toList ++ (toString p).toList
        ++ joinFields [(A.salt saltHex).toList, (A.digest key saltHex k t p n).toList]) <:+
      (argon2Hash A key saltHex k t p n).toList := by
    refine ⟨"$argon2id$v=19".toList, ?_⟩
    rw [← toList_toString_natCast k, toList_argon2Hash]
    simp [costText, joinFields, hashFields]
  have hfound := searchMemoryCost_isSome (isDigits_toDigits k) hsuffix
  rw [hnone] at hfound
  cases hfound

/-! ### Verification -/

variable {A m} {hit prepared : BlockHit} {c : ℤ}

/-- A hash verifies at a memory cost: an encoded one shows that cost or none, a raw one occurs in
the encoded hash of its key. -/
def VerifiesAt (A : Argon2) (key hashStr saltHex : String) (c t p n : ℤ) : Prop :=
  if isArgon2Encoded hashStr = true then
    memoryCostFromHash hashStr = none ∨ memoryCostFromHash hashStr = some c
  else PyStr.contains hashStr (argon2Hash A key saltHex c t p n) = true

instance : Decidable (VerifiesAt A key saltHex hashStr c t p n) := by
  unfold VerifiesAt
  infer_instance

theorem prepareHitForSubmit_isSome_iff :
    (prepareHitForSubmit A hit saltHex c t p n).isSome = true ↔
      VerifiesAt A hit.key hit.hashStr saltHex c t p n := by
  unfold prepareHitForSubmit VerifiesAt
  split_ifs with hencoded
  · cases hcost : memoryCostFromHash hit.hashStr with
    | none => simp
    | some blockM =>
      by_cases hne : blockM = c
      · simp [hne]
      · simp [hne]
  · dsimp only
    split_ifs with hcontains
    · simp [hcontains]
    · simp [hcontains]

theorem prepareHitForSubmit_eq_none_iff :
    prepareHitForSubmit A hit saltHex c t p n = none ↔
      ¬ VerifiesAt A hit.key hit.hashStr saltHex c t p n := by
  rw [← prepareHitForSubmit_isSome_iff, Bool.not_eq_true, Option.isSome_eq_false_iff,
    Option.isNone_iff_eq_none]

/-- An encoded hit is passed on as it is; a raw one comes back encoded, without a memory cost. -/
theorem prepareHitForSubmit_eq_some (h : prepareHitForSubmit A hit saltHex c t p n = some prepared) :
    prepared.key = hit.key ∧
      (isArgon2Encoded hit.hashStr = true ∧ prepared = hit ∨
        isArgon2Encoded hit.hashStr = false ∧ prepared.memoryCost = none ∧
          prepared.hashStr = argon2Hash A hit.key saltHex c t p n) := by
  unfold prepareHitForSubmit at h
  split_ifs at h with hencoded
  · have hsame : prepared = hit := by
      cases hcost : memoryCostFromHash hit.hashStr with
      | none =>
        rw [hcost] at h
        exact (Option.some.inj h).symm
      | some blockM =>
        rw [hcost] at h
        dsimp only at h
        split_ifs at h
        exact (Option.some.inj h).symm
    rw [hsame]
    exact ⟨rfl, Or.inl ⟨hencoded, rfl⟩⟩
  · dsimp only at h
    split_ifs at h
    rw [← Option.some.inj h]
    exact ⟨rfl, Or.inr ⟨by simpa using hencoded, rfl, rfl⟩⟩

/-- A genuine hash verifies at the cost it was mined with. -/
theorem verifiesAt_mined (hm : 0 ≤ m) {hashStr : String}
    (h : PyStr.contains hashStr (argon2Hash A key saltHex m t p n) = true) :
    VerifiesAt A key hashStr saltHex m t p n := by
  unfold VerifiesAt
  split_ifs with hencoded
  · exact memoryCostFromHash_of_contains A m hm h
  · exact h

/-! ### A sample hash -/

/-- A hash function whose digest shows `XEN11` at memory cost 100 and nothing elsewhere. -/
def sampleArgon2 : Argon2 where
  salt := fun _ => "AAAA"
  digest := fun _ _ m _ _ _ => if m = 100 then "XEN11AAA" else "AAAAAAAA"
  salt_base64 := fun _ => List.all_eq_true.mp (by decide)
  digest_base64 := by
    intro _ _ m _ _ _
    split_ifs
    · exact List.all_eq_true.mp (by decide)
    · exact List.all_eq_true.mp (by decide)

/-- The block found at memory cost 100, as the CUDA backend reports it. -/
def sampleBlock : BlockHit where
  key := "a"
  hashStr := "XEN11AAA"
  blockType := "XNM"
  attempts := 1
  strategy := "random"
  foundAt := 0
  memoryCost := some 100

end XenMiner.Argon2Common
