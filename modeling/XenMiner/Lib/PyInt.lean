import XenMiner.Lib.PyStr

/-!
# `int` of a text

`parseInt` is `int(s)` of a text: spaces around it, a sign, decimal digits of any script, single
underscores between them; `none` stands for `ValueError`.  What `str` writes is read back
(`parseInt_toString`).
-/

namespace PyStr

/-- The code points of the digits zero outside ASCII. -/
def otherZeros : List ℕ :=
  [0x660, 0x6f0, 0x7c0, 0x966, 0x9e6, 0xa66, 0xae6, 0xb66, 0xbe6, 0xc66, 0xce6, 0xd66, 0xde6,
    0xe50, 0xed0, 0xf20, 0x1040, 0x1090, 0x17e0, 0x1810, 0x1946, 0x19d0, 0x1a80, 0x1a90, 0x1b50,
    0x1bb0, 0x1c40, 0x1c50, 0xa620, 0xa8d0, 0xa900, 0xa9d0, 0xa9f0, 0xaa50, 0xabf0, 0xff10, 0x104a0,
    0x10d30, 0x11066, 0x110f0, 0x11136, 0x111d0, 0x112f0, 0x11450, 0x114d0, 0x11650, 0x116c0,
    0x11730, 0x118e0, 0x11950, 0x11c50, 0x11d50, 0x11da0, 0x16a60, 0x16ac0, 0x16b50, 0x1d7ce,
    0x1d7d8, 0x1d7e2, 0x1d7ec, 0x1d7f6, 0x1e140, 0x1e2f0, 0x1e950, 0x1fbf0]

/-- The value of a decimal digit. -/
def digitValue (c : Char) : Option ℕ :=
  ((0x30 :: otherZeros).find? fun z => z ≤ c.toNat ∧ c.toNat < z + 10).map fun z => c.toNat - z

/-- The digits after the first, read behind `acc`. -/
def digitsFrom (acc : ℕ) : List Char → Option ℕ
  | [] => some acc
  | '_' :: c :: cs => (digitValue c).bind fun d => digitsFrom (10 * acc + d) cs
  | c :: cs => (digitValue c).bind fun d => digitsFrom (10 * acc + d) cs

/-- A text of digits. -/
def parseNat : List Char → Option ℕ
  | [] => none
  | c :: cs => (digitValue c).bind fun d => digitsFrom d cs

/-- `int(s)`. -/
def parseInt (s : String) : Option ℤ :=
  match (strip s).toList with
  | '-' :: cs => (parseNat cs).map fun n => -Int.ofNat n
  | '+' :: cs => (parseNat cs).map Int.ofNat
  | cs => (parseNat cs).map Int.ofNat

/-! ### What `str` writes -/

theorem digitValue_eq {c : Char} (h : c.isDigit = true) : digitValue c = some (c.toNat - 48) := by
  obtain ⟨hlow, hhigh⟩ := Char.isDigit_iff_toNat.mp h
  have hlow' : 48 ≤ c.toNat := hlow
  have hhigh' : c.toNat ≤ 57 := hhigh
  have hfirst : decide (0x30 ≤ c.toNat ∧ c.toNat < 0x30 + 10) = true := by
    rw [decide_eq_true_iff]
    omega
  unfold digitValue
  rw [List.find?_cons_of_pos (by exact hfirst)]
  rfl

theorem digitsFrom_eq {cs : List Char} (h : ∀ c ∈ cs, c.isDigit = true) (acc : ℕ) :
    digitsFrom acc cs = some (Nat.ofDigitChars 10 cs acc) := by
  induction cs generalizing acc with
  | nil => rw [digitsFrom, Nat.ofDigitChars_nil]
  | cons c cs ih =>
    obtain ⟨hc, hcs⟩ := List.forall_mem_cons.mp h
    have hunderscore : c ≠ '_' := by
      rintro rfl
      cases hc
    rw [digitsFrom.eq_3 acc c cs (fun d ds hd => absurd hd hunderscore), digitValue_eq hc,
      Option.bind_some, ih hcs, Nat.ofDigitChars_cons]
    rfl

theorem isDigit_toString {n : ℕ} {c : Char} (h : c ∈ (toString n).toList) : c.isDigit = true := by
  have hlist : (toString n).toList = Nat.toDigits 10 n := Nat.toList_repr
  rw [hlist] at h
  exact Nat.isDigit_of_mem_toDigits (by decide) (by decide) h

theorem isSpace_of_isDigit {c : Char} (h : c.isDigit = true) : isSpace c = false := by
  obtain ⟨hlow, hhigh⟩ := Char.isDigit_iff_toNat.mp h
  have hlow' : 48 ≤ c.toNat := hlow
  have hhigh' : c.toNat ≤ 57 := hhigh
  have hall : ∀ n < 58, 48 ≤ n → isSpace (Char.ofNat n) = false := by decide
  rw [← Char.ofNat_toNat c]
  exact hall c.toNat (by omega) hlow'

theorem strip_toString (n : ℕ) : strip (toString n) = toString n := by
  have hnone : ∀ cs : List Char, (∀ c ∈ cs, c.isDigit = true) → cs.dropWhile isSpace = cs := by
    intro cs hcs
    cases cs with
    | nil => rfl
    | cons c cs =>
      have hspace := isSpace_of_isDigit (hcs c List.mem_cons_self)
      rw [List.dropWhile_cons_of_neg (by rw [hspace]; exact Bool.false_ne_true)]
  unfold strip
  rw [hnone _ fun c hc => isDigit_toString hc,
    hnone _ fun c hc => isDigit_toString (List.mem_reverse.mp hc), List.reverse_reverse,
    String.ofList_toList]

/-- What `str` writes of a natural number, `int` reads back. -/
theorem parseInt_toString (n : ℕ) : parseInt (toString n) = some (n : ℤ) := by
  have hlist : (toString n).toList = Nat.toDigits 10 n := Nat.toList_repr
  have hdigit : ∀ c ∈ Nat.toDigits 10 n, c.isDigit = true := fun c hc =>
    Nat.isDigit_of_mem_toDigits (by decide) (by decide) hc
  have hvalue : Nat.ofDigitChars 10 (Nat.toDigits 10 n) 0 = n := Nat.ofDigitChars_ten_toDigits
  unfold parseInt
  rw [strip_toString, hlist]
  cases hcs : Nat.toDigits 10 n with
  | nil => exact absurd hcs Nat.toDigits_ne_nil
  | cons c cs =>
    rw [hcs] at hdigit hvalue
    obtain ⟨hc, htail⟩ := List.forall_mem_cons.mp hdigit
    have hread : parseNat (c :: cs) = some n := by
      rw [Nat.ofDigitChars_cons, Nat.mul_zero, Nat.zero_add] at hvalue
      rw [parseNat, digitValue_eq hc, Option.bind_some, digitsFrom_eq htail]
      exact congrArg some hvalue
    have hminus : c ≠ '-' := by
      rintro rfl
      cases hc
    have hplus : c ≠ '+' := by
      rintro rfl
      cases hc
    split
    next cs' heq => exact absurd (List.cons.inj heq).1 hminus
    next cs' heq => exact absurd (List.cons.inj heq).1 hplus
    next => exact congrArg (Option.map Int.ofNat) hread

/-- Different numbers are written differently. -/
theorem toString_nat_inj {n m : ℕ} : toString n = toString m ↔ n = m := by
  refine ⟨fun h => ?_, congrArg toString⟩
  have hread := parseInt_toString n
  rw [h, parseInt_toString, Option.some.injEq] at hread
  exact (Int.ofNat.inj hread).symm

theorem minus_append_ne_toString (s : String) (n : ℕ) : "-" ++ s ≠ toString n := by
  intro h
  have hmem : '-' ∈ (toString n).toList := by
    rw [← h, String.toList_append]
    exact List.mem_append_left _ List.mem_cons_self
  have hdigit := isDigit_toString hmem
  cases hdigit

theorem toString_int_inj {n m : ℤ} : toString n = toString m ↔ n = m := by
  refine ⟨fun h => ?_, congrArg toString⟩
  cases n with
  | ofNat n =>
    cases m with
    | ofNat m => exact congrArg Int.ofNat (toString_nat_inj.mp h)
    | negSucc m => exact absurd h.symm (minus_append_ne_toString _ n)
  | negSucc n =>
    cases m with
    | ofNat m => exact absurd h (minus_append_ne_toString _ m)
    | negSucc m =>
      have happend : "-" ++ toString (n + 1) = "-" ++ toString (m + 1) := h
      have hlist := congrArg String.toList happend
      rw [String.toList_append, String.toList_append] at hlist
      have hnat := toString_nat_inj.mp (String.toList_injective (List.append_cancel_left hlist))
      rw [Nat.succ.inj hnat]

end PyStr
