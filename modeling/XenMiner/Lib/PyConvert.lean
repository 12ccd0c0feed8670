import XenMiner.Lib.Json
import XenMiner.Lib.PyFloat

/-!
# `int` and `float` of a JSON value

The conversions with their exceptions, and files that hold a JSON text.  A float of a JSON text is its
literal, which `float` reads.
-/

/-- The exceptions of conversions, of reading a file or a reply, and of JSON texts. -/
inductive PyError
  /-- `OSError` and what derives from it: `URLError`, `TimeoutError`. -/
  | osError
  | httpException
  | jsonDecodeError
  /-- A `ValueError` that is no `JSONDecodeError`. -/
  | valueError
  | typeError
  | attributeError
  | overflowError
  /-- A `RuntimeError` that is no `RecursionError`. -/
  | runtimeError
  | recursionError
  deriving DecidableEq, Repr

namespace PyError

/-- `except ValueError`. -/
def isValueError (e : PyError) : Bool := e = .valueError || e = .jsonDecodeError

/-- `except RuntimeError`. -/
def isRuntimeError (e : PyError) : Bool := e = .runtimeError || e = .recursionError

end PyError

namespace PyStr

/-- `sys.get_int_max_str_digits()`, its default. -/
def maxStrDigits : ℕ := 4300

/-- The digits of a text. -/
def digitCount (s : String) : ℕ := s.toList.countP fun c => (digitValue c).isSome

/-- `int(s)`, which refuses long texts. -/
def toInt (s : String) : Except PyError ℤ :=
  match parseInt s with
  | some n => if digitCount s ≤ maxStrDigits then .ok n else .error .valueError
  | none => .error .valueError

theorem toInt_error {s : String} {e : PyError} (h : toInt s = .error e) : e = .valueError := by
  unfold toInt at h
  split at h
  · split_ifs at h
    exact (Except.error.inj h).symm
  · exact (Except.error.inj h).symm

end PyStr

namespace PyFloat

/-- `int(x)`. -/
def toInt : PyFloat → Except PyError ℤ
  | .nan => .error .valueError
  | .infinity _ => .error .overflowError
  | .finite x => .ok (PyNum.pyInt x)

/-- `float(n)`. -/
def ofInt (n : ℤ) : Except PyError PyFloat :=
  if Fits n then .ok (.finite n) else .error .overflowError

/-- `a / b` of integers, for `b ≠ 0`. -/
def divInt (a b : ℤ) : Except PyError PyFloat :=
  if Fits (a / b) then .ok (.finite (a / b)) else .error .overflowError

def isInfinite : PyFloat → Bool
  | .infinity _ => true
  | _ => false

theorem toInt_overflow_iff {x : PyFloat} :
    x.toInt = .error .overflowError ↔ x.isInfinite = true := by
  cases x <;> simp [toInt, isInfinite]

theorem ofInt_of_fits {n : ℤ} (h : Fits n) : ofInt n = .ok (.finite n) := if_pos h

end PyFloat

namespace Json

/-- The float a literal is. -/
def floatOfLiteral (literal : List Char) : PyFloat :=
  (PyFloat.ofText (String.ofList literal)).getD .nan

/-- `isinstance(value, dict)`. -/
def isObj : Json → Bool
  | .obj _ => true
  | _ => false

theorem isObj_iff {value : Json} : value.isObj = true ↔ ∃ members, value = .obj members := by
  cases value with
  | obj members => exact iff_of_true rfl ⟨members, rfl⟩
  | null => exact iff_of_false Bool.false_ne_true (by simp)
  | bool b => exact iff_of_false Bool.false_ne_true (by simp)
  | int n => exact iff_of_false Bool.false_ne_true (by simp)
  | float literal => exact iff_of_false Bool.false_ne_true (by simp)
  | str s => exact iff_of_false Bool.false_ne_true (by simp)
  | arr items => exact iff_of_false Bool.false_ne_true (by simp)

/-- `value.get(key, default)` of an object. -/
def getD (key : String) (default value : Json) : Json := (value.get key).getD default

/-- `bool(value)`. -/
def truthy : Json → Bool
  | .null => false
  | .bool b => b
  | .int n => n ≠ 0
  | .float literal => floatOfLiteral literal ≠ .finite 0
  | .str s => s ≠ ""
  | .arr items => !items.isEmpty
  | .obj members => !members.isEmpty

/-- `int(value)`. -/
def toInt : Json → Except PyError ℤ
  | .int n => .ok n
  | .bool b => .ok (if b then 1 else 0)
  | .float literal => (floatOfLiteral literal).toInt
  | .str s => PyStr.toInt s
  | _ => .error .typeError

/-- `float(value)`. -/
def toFloat : Json → Except PyError PyFloat
  | .int n => PyFloat.ofInt n
  | .bool b => .ok (.finite (if b then 1 else 0))
  | .float literal => .ok (floatOfLiteral literal)
  | .str s =>
    match PyFloat.ofText s with
    | some x => .ok x
    | none => .error .valueError
  | _ => .error .typeError

/-- A float that is infinite. -/
def isInfinite : Json → Bool
  | .float literal => (floatOfLiteral literal).isInfinite
  | _ => false

@[simp]
theorem toInt_int (n : ℤ) : (Json.int n).toInt = .ok n := rfl

@[simp]
theorem toInt_float (literal : List Char) :
    (Json.float literal).toInt = (floatOfLiteral literal).toInt := rfl

theorem isInfinite_float (literal : List Char) :
    (Json.float literal).isInfinite = (floatOfLiteral literal).isInfinite := rfl

theorem toInt_str (s : String) : (Json.str s).toInt = PyStr.toInt s := rfl

/-- `int` raises an `OverflowError` on infinite floats only. -/
theorem toInt_overflow_iff {value : Json} :
    value.toInt = .error .overflowError ↔ value.isInfinite = true := by
  cases value with
  | float literal =>
    rw [toInt_float, isInfinite_float]
    exact PyFloat.toInt_overflow_iff
  | str s =>
    rw [toInt_str]
    exact iff_of_false (fun h => PyError.noConfusion (PyStr.toInt_error h)) Bool.false_ne_true
  | int n => exact iff_of_false (fun h => by cases h) Bool.false_ne_true
  | bool b => exact iff_of_false (fun h => by cases h) Bool.false_ne_true
  | null => exact iff_of_false (fun h => by cases h) Bool.false_ne_true
  | arr items => exact iff_of_false (fun h => by cases h) Bool.false_ne_true
  | obj members => exact iff_of_false (fun h => by cases h) Bool.false_ne_true

/-- The other exceptions of `int`. -/
theorem toInt_error {value : Json} {e : PyError} (h : value.toInt = .error e) :
    e = .valueError ∨ e = .typeError ∨ value.isInfinite = true := by
  by_cases hover : e = .overflowError
  · rw [hover, toInt_overflow_iff] at h
    exact Or.inr (Or.inr h)
  cases value with
  | int n => cases h
  | bool b => cases h
  | float literal =>
    rw [toInt_float] at h
    cases hx : floatOfLiteral literal with
    | nan =>
      rw [hx] at h
      exact Or.inl (Except.error.inj h).symm
    | infinity negative =>
      rw [hx] at h
      exact absurd (Except.error.inj h).symm hover
    | finite x =>
      rw [hx] at h
      cases h
  | str s =>
    rw [toInt_str] at h
    exact Or.inl (PyStr.toInt_error h)
  | null => exact Or.inr (Or.inl (Except.error.inj h).symm)
  | arr items => exact Or.inr (Or.inl (Except.error.inj h).symm)
  | obj members => exact Or.inr (Or.inl (Except.error.inj h).symm)

/-- The exceptions of `float`; an `OverflowError` comes from an integer. -/
theorem toFloat_error {value : Json} {e : PyError} (h : value.toFloat = .error e) :
    e = .valueError ∨ e = .typeError ∨
      e = .overflowError ∧ ∃ n : ℤ, value = .int n ∧ ¬ PyFloat.Fits n := by
  cases value with
  | int n =>
    have hofInt : PyFloat.ofInt n = .error e := h
    unfold PyFloat.ofInt at hofInt
    split_ifs at hofInt with hfits
    exact Or.inr (Or.inr ⟨(Except.error.inj hofInt).symm, n, rfl, hfits⟩)
  | bool b => cases h
  | float literal => cases h
  | str s =>
    unfold toFloat at h
    dsimp only at h
    split at h
    · cases h
    · exact Or.inl (Except.error.inj h).symm
  | null => exact Or.inr (Or.inl (Except.error.inj h).symm)
  | arr items => exact Or.inr (Or.inl (Except.error.inj h).symm)
  | obj members => exact Or.inr (Or.inl (Except.error.inj h).symm)

theorem toFloat_int_of_not_fits {n : ℤ} (h : ¬ PyFloat.Fits n) :
    (Json.int n).toFloat = .error .overflowError := if_neg h

end Json

/-! ### Files -/

/-- How reading a file and its JSON text fails. -/
inductive ReadError
  | osError
  | jsonDecodeError
  /-- The file is no UTF-8, or an integer has more digits than `int` takes. -/
  | valueError
  /-- The value is nested too deeply. -/
  | recursionError
  deriving DecidableEq, Repr

def ReadError.toPyError : ReadError → PyError
  | .osError => .osError
  | .jsonDecodeError => .jsonDecodeError
  | .valueError => .valueError
  | .recursionError => .recursionError

/-- A file that should hold a JSON text. -/
inductive JsonFile
  | absent
  | broken (error : ReadError)
  | json (value : Json)
