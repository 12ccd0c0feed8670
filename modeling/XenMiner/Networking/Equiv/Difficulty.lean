import XenMiner.Lib.ExceptList
import XenMiner.Networking.Difficulty

/-!
# When the difficulty parser returns

The loops over keys and nested objects are one scan of the leaves they meet (`ofJson_obj`).  A
leaf that `int` refuses is skipped unless it is an infinite float, so a scan raises if such a float stands
before the first positive number (`scan_isOk_iff`).  A bare integer and a word of a free text are digits,
and `int` reads them unless they are too long (`toInt_of_isBareInteger`).
-/

namespace PyStr

/-! ### Digits are read -/

theorem digitValue_of_isSpace {c : Char} (h : isSpace c = true) : digitValue c = none := by
  have hnat : c.toNat ∈ [0x09, 0x0a, 0x0b, 0x0c, 0x0d, 0x1c, 0x1d, 0x1e, 0x1f, 0x20, 0x85, 0xa0, 0x1680,
      0x2000, 0x2001, 0x2002, 0x2003, 0x2004, 0x2005, 0x2006, 0x2007, 0x2008, 0x2009, 0x200a, 0x2028,
      0x2029, 0x202f, 0x205f, 0x3000] := by
    unfold isSpace at h
    rw [decide_eq_true_iff] at h
    have hmap := List.mem_map_of_mem (f := UInt32.toNat) h
    exact hmap
  unfold digitValue
  rw [Option.map_eq_none_iff, List.find?_eq_none]
  generalize c.toNat = n at hnat
  revert n
  decide

theorem strip_of_not_isSpace {s : String} (h : ∀ c ∈ s.toList, isSpace c = false) : strip s = s := by
  have hkeep : ∀ cs : List Char, (∀ c ∈ cs, isSpace c = false) → cs.dropWhile isSpace = cs := by
    intro cs hcs
    cases cs with
    | nil => rfl
    | cons c cs => exact List.dropWhile_cons_of_neg (by rw [hcs c List.mem_cons_self]; exact Bool.false_ne_true)
  unfold strip
  rw [hkeep _ h, hkeep _ fun c hc => h c (List.mem_reverse.mp hc), List.reverse_reverse,
    String.ofList_toList]

theorem digitsFrom_of_digits {cs : List Char} (h : ∀ c ∈ cs, (digitValue c).isSome = true) (acc : ℕ) :
    ∃ n, digitsFrom acc cs = some n := by
  induction cs generalizing acc with
  | nil => exact ⟨acc, rfl⟩
  | cons c cs ih =>
    obtain ⟨hc, hcs⟩ := List.forall_mem_cons.mp h
    obtain ⟨d, hd⟩ := Option.isSome_iff_exists.mp hc
    have hunderscore : c ≠ '_' := by
      rintro rfl
      exact absurd hc (by decide)
    obtain ⟨n, hn⟩ := ih hcs (10 * acc + d)
    refine ⟨n, ?_⟩
    rw [digitsFrom.eq_3 acc c cs fun e ds he => absurd he hunderscore, hd, Option.bind_some, hn]

theorem parseNat_of_digits {cs : List Char} (hne : cs ≠ [])
    (h : ∀ c ∈ cs, (digitValue c).isSome = true) : ∃ n, parseNat cs = some n := by
  cases cs with
  | nil => exact absurd rfl hne
  | cons c cs =>
    obtain ⟨hc, hcs⟩ := List.forall_mem_cons.mp h
    obtain ⟨d, hd⟩ := Option.isSome_iff_exists.mp hc
    obtain ⟨n, hn⟩ := digitsFrom_of_digits hcs d
    refine ⟨n, ?_⟩
    rw [parseNat, hd, Option.bind_some, hn]

theorem isSpace_of_digit {c : Char} (h : (digitValue c).isSome = true) : isSpace c = false := by
  by_contra hspace
  rw [Bool.not_eq_false] at hspace
  rw [digitValue_of_isSpace hspace] at h
  cases h

/-- A text of digits is a number. -/
theorem parseInt_of_digits {s : String} (hne : s.toList ≠ [])
    (h : ∀ c ∈ s.toList, (digitValue c).isSome = true) : ∃ n, parseInt s = some n := by
  obtain ⟨n, hn⟩ := parseNat_of_digits hne h
  unfold parseInt
  rw [strip_of_not_isSpace fun c hc => isSpace_of_digit (h c hc)]
  split
  next cs heq => exact absurd (h '-' (heq ▸ List.mem_cons_self)) (by decide)
  next cs heq => exact absurd (h '+' (heq ▸ List.mem_cons_self)) (by decide)
  next => exact ⟨Int.ofNat n, by rw [hn]; rfl⟩

/-- And with a minus sign before it. -/
theorem parseInt_of_minus {s : String} {cs : List Char} (hs : s.toList = '-' :: cs) (hne : cs ≠ [])
    (h : ∀ c ∈ cs, (digitValue c).isSome = true) : ∃ n, parseInt s = some n := by
  obtain ⟨n, hn⟩ := parseNat_of_digits hne h
  have hspace : ∀ c ∈ s.toList, isSpace c = false := by
    rw [hs]
    exact List.forall_mem_cons.mpr ⟨by decide, fun c hc => isSpace_of_digit (h c hc)⟩
  unfold parseInt
  rw [strip_of_not_isSpace hspace, hs]
  exact ⟨-Int.ofNat n, congrArg (Option.map fun n => -Int.ofNat n) hn⟩

/-- `int` takes a number that is short enough. -/
theorem toInt_isOk_iff {s : String} (h : ∃ n, parseInt s = some n) :
    ExceptList.IsOk (toInt s) ↔ digitCount s ≤ maxStrDigits := by
  obtain ⟨n, hn⟩ := h
  unfold toInt
  rw [hn]
  dsimp only
  split_ifs with hshort
  · exact iff_of_true (ExceptList.isOk_ok n) hshort
  · exact iff_of_false (ExceptList.not_isOk_error _) hshort

end PyStr

namespace XenMiner.Difficulty

open ExceptList

/-! ### Texts -/

theorem isDigits_iff {text : List Char} :
    isDigits text = true ↔ text ≠ [] ∧ ∀ c ∈ text, (PyStr.digitValue c).isSome = true := by
  unfold isDigits isDigit
  simp

theorem parseInt_of_isBareInteger {s : String} (h : isBareInteger s.toList = true) :
    ∃ n, PyStr.parseInt s = some n := by
  unfold isBareInteger at h
  split at h
  next text heq =>
    obtain ⟨hne, hdigits⟩ := isDigits_iff.mp h
    exact PyStr.parseInt_of_minus heq hne hdigits
  next =>
    obtain ⟨hne, hdigits⟩ := isDigits_iff.mp h
    exact PyStr.parseInt_of_digits hne hdigits

/-- A word of a free text is never too long. -/
theorem ofText_isOk (isAlnum : Char → Bool) (text : List Char) : IsOk (ofText isAlnum text) := by
  unfold ofText
  split
  next word hword =>
    unfold searchDigits at hword
    obtain ⟨hfound, -, hlength⟩ : isDigits word = true ∧ 2 ≤ word.length ∧ word.length ≤ 6 := by
      simpa using List.find?_some hword
    obtain ⟨hne, hdigits⟩ := isDigits_iff.mp hfound
    have hlist : (String.ofList word).toList = word := String.toList_ofList
    rw [isOk_map_iff, PyStr.toInt_isOk_iff (PyStr.parseInt_of_digits (hlist.symm ▸ hne)
      (hlist.symm ▸ hdigits))]
    unfold PyStr.digitCount
    rw [hlist]
    exact List.countP_le_length.trans (hlength.trans (by decide))
  · exact isOk_ok _

/-! ### Scans -/

/-- The values of the keys that are there. -/
def leaves (data : Json) (keys : List String) : List Json := keys.filterMap data.get

/-- The leaves of a nested object. -/
def nestedLeaves : Option Json → List Json
  | some (.obj members) => leaves (.obj members) diffKeys
  | _ => []

/-- The leaves of an object in the order in which they are looked at. -/
def probed (data : Json) : List Json :=
  leaves data diffKeys ++ nestKeys.flatMap fun key => nestedLeaves (data.get key)

/-- The first positive number among leaves. -/
def scan : List Json → Except PyError (Option ℤ)
  | [] => .ok none
  | leaf :: rest =>
    match leaf.toInt with
    | .ok value => if 0 < value then .ok (some value) else scan rest
    | .error e => if e = .typeError ∨ e.isValueError then scan rest else .error e

theorem probeKeys_eq (data : Json) (keys : List String) : probeKeys data keys = scan (leaves data keys) := by
  induction keys with
  | nil => rfl
  | cons key keys ih =>
    unfold leaves
    rw [List.filterMap_cons, probeKeys]
    cases data.get key with
    | none => exact ih
    | some leaf =>
      dsimp only
      rw [scan]
      cases leaf.toInt with
      | ok value => exact congrArg (fun rest => if 0 < value then Except.ok (some value) else rest) ih
      | error e =>
        exact congrArg (fun rest => if e = .typeError ∨ e.isValueError then rest else Except.error e) ih

theorem scan_append (l l' : List Json) :
    scan (l ++ l') = scan l >>= fun found => found.elim (scan l') fun value => .ok (some value) := by
  induction l with
  | nil => rfl
  | cons leaf l ih =>
    rw [List.cons_append, scan, scan]
    cases leaf.toInt with
    | ok value =>
      dsimp only
      split_ifs
      · rfl
      · exact ih
    | error e =>
      dsimp only
      split_ifs
      · exact ih
      · rfl

theorem probeNested_eq (data : Json) (keys : List String) :
    probeNested data keys = scan (keys.flatMap fun key => nestedLeaves (data.get key)) := by
  induction keys with
  | nil => rfl
  | cons key keys ih =>
    rw [List.flatMap_cons, scan_append, ← ih, probeNested]
    split
    next members heq =>
      rw [heq]
      show _ = scan (leaves (.obj members) diffKeys) >>= _
      rw [← probeKeys_eq]
      cases probeKeys (.obj members) diffKeys with
      | ok found => cases found <;> rfl
      | error e => rfl
    next hother =>
      have hnone : nestedLeaves (data.get key) = [] := by
        unfold nestedLeaves
        split
        next members heq => exact absurd heq (hother members)
        · rfl
      rw [hnone]
      rfl

/-- An object is scanned leaf by leaf. -/
theorem ofJson_obj (members : List (String × Json)) :
    ofJson (.obj members) = scan (probed (.obj members)) := by
  unfold probed
  rw [scan_append, ← probeKeys_eq, ← probeNested_eq]
  unfold ofJson
  dsimp only
  cases probeKeys (.obj members) diffKeys with
  | ok found => cases found <;> rfl
  | error e => rfl

/-- A leaf with a positive number. -/
def Usable (leaf : Json) : Prop := ∃ value, leaf.toInt = .ok value ∧ 0 < value

/-- An infinite float before the first positive number. -/
def MeetsInfinity (leaves : List Json) : Prop :=
  ∃ pre leaf post, leaves = pre ++ leaf :: post ∧ (∀ x ∈ pre, ¬ Usable x) ∧ leaf.isInfinite = true

theorem meetsInfinity_cons {leaf : Json} {rest : List Json} :
    MeetsInfinity (leaf :: rest) ↔ leaf.isInfinite = true ∨ ¬ Usable leaf ∧ MeetsInfinity rest := by
  constructor
  · rintro ⟨pre, x, post, heq, hpre, hx⟩
    cases pre with
    | nil =>
      obtain ⟨rfl, -⟩ := List.cons.inj heq
      exact Or.inl hx
    | cons y pre =>
      obtain ⟨rfl, htail⟩ := List.cons.inj heq
      obtain ⟨hy, hpre'⟩ := List.forall_mem_cons.mp hpre
      exact Or.inr ⟨hy, pre, x, post, htail, hpre', hx⟩
  · rintro (hleaf | ⟨hleaf, pre, x, post, rfl, hpre, hx⟩)
    · exact ⟨[], leaf, rest, rfl, fun _ h => (by cases h), hleaf⟩
    · exact ⟨leaf :: pre, x, post, rfl, List.forall_mem_cons.mpr ⟨hleaf, hpre⟩, hx⟩

theorem scan_isOk_iff {l : List Json} : IsOk (scan l) ↔ ¬ MeetsInfinity l := by
  induction l with
  | nil =>
    refine iff_of_true (isOk_ok none) ?_
    rintro ⟨pre, leaf, post, heq, -⟩
    cases pre <;> cases heq
  | cons leaf l ih =>
    rw [meetsInfinity_cons, scan]
    cases hint : leaf.toInt with
    | ok value =>
      have hfinite : leaf.isInfinite ≠ true := by
        rw [Ne, ← Json.toInt_overflow_iff, hint]
        exact fun h => by cases h
      dsimp only
      split_ifs with hpos
      · exact iff_of_true (isOk_ok _) (not_or.mpr ⟨hfinite, fun h => h.1 ⟨value, hint, hpos⟩⟩)
      · have hunusable : ¬ Usable leaf := by
          rintro ⟨value', heq, hpos'⟩
          rw [hint] at heq
          exact hpos (Except.ok.inj heq ▸ hpos')
        rw [ih]
        exact not_congr ⟨fun h => Or.inr ⟨hunusable, h⟩, fun h => (h.resolve_left hfinite).2⟩
    | error e =>
      have hunusable : ¬ Usable leaf := by
        rintro ⟨value, heq, -⟩
        rw [hint] at heq
        cases heq
      by_cases hover : e = .overflowError
      · subst hover
        exact iff_of_false (not_isOk_error _) (not_not_intro (Or.inl (Json.toInt_overflow_iff.mp hint)))
      · have hfinite : leaf.isInfinite ≠ true := by
          rw [Ne, ← Json.toInt_overflow_iff, hint]
          exact fun h => hover (Except.error.inj h)
        have hcaught : e = .typeError ∨ e.isValueError = true := by
          rcases Json.toInt_error hint with rfl | rfl | hinf
          · exact Or.inr rfl
          · exact Or.inl rfl
          · exact absurd hinf hfinite
        dsimp only
        rw [if_pos hcaught, ih]
        exact not_congr ⟨fun h => Or.inr ⟨hunusable, h⟩, fun h => (h.resolve_left hfinite).2⟩

/-- What a scan finds is positive. -/
theorem pos_of_scan {l : List Json} {value : ℤ} (h : scan l = .ok (some value)) : 0 < value := by
  induction l with
  | nil => cases h
  | cons leaf l ih =>
    rw [scan] at h
    cases hint : leaf.toInt with
    | ok value' =>
      rw [hint] at h
      dsimp only at h
      split_ifs at h with hpos
      · rw [← Option.some.inj (Except.ok.inj h)]
        exact hpos
      · exact ih h
    | error e =>
      rw [hint] at h
      dsimp only at h
      split_ifs at h
      exact ih h

/-! ### The parser -/

/-- The values a difficulty is looked for in without an exception. -/
def ReadableJson : Json → Prop
  | .float literal => ∃ x, Json.floatOfLiteral literal = .finite x
  | .obj members => ¬ MeetsInfinity (probed (.obj members))
  | _ => True

/-- A bare integer is short enough, and any other text is scanned within the limits and holds no JSON
value but a readable one. -/
def Readable (limit : List Char → Option ScanLimit) (text : String) : Prop :=
  if isBareInteger text.toList then PyStr.digitCount text ≤ PyStr.maxStrDigits
  else limit text.toList = none ∧ ∀ data ∈ Json.loads text.toList, ReadableJson data

theorem pos_of_positive {n value : ℤ} (h : positive n = some value) : 0 < value := by
  unfold positive at h
  split_ifs at h with hpos
  rw [← Option.some.inj h]
  exact hpos

theorem pos_of_map_positive {r : Except PyError ℤ} {value : ℤ} (h : r.map positive = .ok (some value)) :
    0 < value := by
  cases r with
  | ok n => exact pos_of_positive (Except.ok.inj h)
  | error e => cases h

theorem isOk_toInt_iff {x : PyFloat} : IsOk x.toInt ↔ ∃ y, x = .finite y := by
  cases x with
  | finite y => exact iff_of_true ⟨_, rfl⟩ ⟨y, rfl⟩
  | nan => exact iff_of_false (not_isOk_error _) fun h => by obtain ⟨y, hy⟩ := h; cases hy
  | infinity negative => exact iff_of_false (not_isOk_error _) fun h => by obtain ⟨y, hy⟩ := h; cases hy

theorem ofJson_float (literal : List Char) :
    ofJson (.float literal) = (Json.floatOfLiteral literal).toInt.map positive := by
  unfold ofJson
  rfl

theorem readableJson_float (literal : List Char) :
    ReadableJson (.float literal) ↔ ∃ x, Json.floatOfLiteral literal = .finite x := by
  unfold ReadableJson
  rfl

theorem ofJson_isOk_iff {data : Json} : IsOk (ofJson data) ↔ ReadableJson data := by
  cases data with
  | float literal =>
    rw [ofJson_float, readableJson_float, isOk_map_iff, isOk_toInt_iff]
  | obj members =>
    rw [ofJson_obj, scan_isOk_iff]
    rfl
  | null => exact iff_of_true ⟨_, rfl⟩ trivial
  | bool b => exact iff_of_true ⟨_, rfl⟩ trivial
  | int n => exact iff_of_true ⟨_, rfl⟩ trivial
  | str s => exact iff_of_true ⟨_, rfl⟩ trivial
  | arr items => exact iff_of_true ⟨_, rfl⟩ trivial

theorem pos_of_ofJson {data : Json} {value : ℤ} (h : ofJson data = .ok (some value)) : 0 < value := by
  cases data with
  | float literal =>
    rw [ofJson_float] at h
    exact pos_of_map_positive h
  | obj members =>
    rw [ofJson_obj] at h
    exact pos_of_scan h
  | int n => exact pos_of_positive (Except.ok.inj h)
  | null => cases h
  | bool b => cases h
  | str s => cases h
  | arr items => cases h

theorem pos_of_ofText {isAlnum : Char → Bool} {text : List Char} {value : ℤ}
    (h : ofText isAlnum text = .ok (some value)) : 0 < value := by
  unfold ofText at h
  split at h
  · exact pos_of_map_positive h
  · cases h

variable {isAlnum : Char → Bool} {limit : List Char → Option ScanLimit} {body : String}

theorem pos_of_parse {value : ℤ} (h : parseDifficultyPayload isAlnum limit body = .ok (some value)) :
    0 < value := by
  unfold parseDifficultyPayload at h
  dsimp only at h
  split_ifs at h with hempty hbare
  · cases h
  · exact pos_of_map_positive h
  split at h
  · cases h
  split at h
  · exact pos_of_ofJson h
  · exact pos_of_ofText h

theorem parse_isOk_iff : IsOk (parseDifficultyPayload isAlnum limit body) ↔
    PyStr.strip body = "" ∨ Readable limit (PyStr.strip body) := by
  unfold parseDifficultyPayload Readable
  dsimp only
  generalize PyStr.strip body = text
  by_cases hempty : text = ""
  · rw [if_pos hempty]
    exact iff_of_true (isOk_ok none) (Or.inl hempty)
  rw [if_neg hempty, or_iff_right hempty]
  by_cases hbare : isBareInteger text.toList = true
  · rw [if_pos hbare, if_pos hbare, isOk_map_iff]
    exact PyStr.toInt_isOk_iff (parseInt_of_isBareInteger hbare)
  · rw [if_neg hbare, if_neg hbare]
    cases limit text.toList with
    | some hit => exact iff_of_false (not_isOk_error _) fun h => by cases h.1
    | none =>
      rw [and_iff_right rfl]
      cases Json.loads text.toList with
      | some data => exact ofJson_isOk_iff.trans (by simp)
      | none => exact iff_of_true (ofText_isOk isAlnum _) fun _ h => by cases h

end XenMiner.Difficulty
