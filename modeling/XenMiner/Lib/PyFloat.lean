import Mathlib.Algebra.Order.Floor.Ring
import Mathlib.Data.Rat.Floor
import XenMiner.Lib.PyInt
import XenMiner.Lib.PyNum

/-!
# Floats with infinities, and `float` of a text

A finite float is read as an exact rational.  What a double cannot hold, from `2^1024 - 2^970` on
(which rounds up), is an infinity where Python makes one, and an `OverflowError` where Python raises
it.
-/

inductive PyFloat
  | nan
  | infinity (negative : Bool)
  | finite (x : ℚ)
  deriving DecidableEq, Repr

namespace PyFloat

/-- The least magnitude that is too large for a double. -/
def overflowBound : ℚ := 2 ^ 1024 - 2 ^ 970

/-- A magnitude a double can hold. -/
def Fits (x : ℚ) : Prop := |x| < overflowBound

instance (x : ℚ) : Decidable (Fits x) := inferInstanceAs (Decidable (|x| < overflowBound))

theorem one_lt_overflowBound : 1 < overflowBound := by
  have hpow : (2 : ℚ) ^ 1024 = 4 * 2 ^ 1022 := by
    rw [show (1024 : ℕ) = 2 + 1022 from rfl, pow_add]
    norm_num
  have hle : (2 : ℚ) ^ 970 ≤ 2 ^ 1022 := pow_le_pow_right₀ (by norm_num) (by norm_num)
  have hone : (1 : ℚ) ≤ 2 ^ 1022 := one_le_pow₀ (by norm_num)
  unfold overflowBound
  rw [hpow]
  generalize (2 : ℚ) ^ 970 = small at hle ⊢
  generalize (2 : ℚ) ^ 1022 = large at hle hone ⊢
  linarith

theorem fits_of_le_one {x : ℚ} (h : |x| ≤ 1) : Fits x := h.trans_lt one_lt_overflowBound

/-- The float a number rounds to. -/
def ofRat (x : ℚ) : PyFloat := if Fits x then .finite x else .infinity (decide (x < 0))

/-! ### `float` of a text -/

/-- The digits at the head of a text, single underscores between them, and what follows. -/
def digitRun : List Char → List ℕ × List Char
  | c :: '_' :: d :: cs =>
    match PyStr.digitValue c with
    | none => ([], c :: '_' :: d :: cs)
    | some n =>
      if (PyStr.digitValue d).isSome then (n :: (digitRun (d :: cs)).1, (digitRun (d :: cs)).2)
      else ([n], '_' :: d :: cs)
  | c :: cs =>
    match PyStr.digitValue c with
    | none => ([], c :: cs)
    | some n => (n :: (digitRun cs).1, (digitRun cs).2)
  | [] => ([], [])

/-- The value of digits, the first one the highest. -/
def digitsValue (digits : List ℕ) : ℕ := digits.foldl (fun n d => 10 * n + d) 0

/-- The sign at the head of a text: whether it is a minus, and what follows. -/
def sign : List Char → Bool × List Char
  | '-' :: cs => (true, cs)
  | '+' :: cs => (false, cs)
  | cs => (false, cs)

/-- The exponent a text is. -/
def exponent : List Char → Option ℤ
  | [] => some 0
  | c :: cs =>
    if c = 'e' ∨ c = 'E' then
      let (negative, cs) := sign cs
      let (digits, rest) := digitRun cs
      if digits = [] ∨ rest ≠ [] then none
      else some (if negative then -(digitsValue digits : ℤ) else digitsValue digits)
    else none

/-- `x · 10^k`. -/
def scale (x : ℚ) (k : ℤ) : ℚ := if 0 ≤ k then x * 10 ^ k.toNat else x / 10 ^ (-k).toNat

/-- The decimal number a text is: digits with a point, at least one, and an exponent. -/
def decimal (cs : List Char) : Option ℚ :=
  let (whole, rest) := digitRun cs
  let (fraction, rest) :=
    match rest with
    | '.' :: cs => digitRun cs
    | cs => ([], cs)
  if whole = [] ∧ fraction = [] then none
  else
    (exponent rest).map fun e => scale (digitsValue (whole ++ fraction)) (e - fraction.length)

/-- `float(s)`; `none` stands for `ValueError`. -/
def ofText (s : String) : Option PyFloat :=
  let (negative, cs) := sign (PyStr.strip s).toList
  let word := PyStr.lower (String.ofList cs)
  if word = "inf" ∨ word = "infinity" then some (.infinity negative)
  else if word = "nan" then some .nan
  else (decimal cs).map fun x => ofRat (if negative then -x else x)

end PyFloat
