import Mathlib.Data.List.Infix
import Mathlib.Data.List.TakeWhile
import Mathlib.Tactic.Set
import Mathlib.Tactic.SplitIfs

/-!
# Python text operations

`str.strip`, `str.lower`, `str.upper`, `str.replace` of one character, `in` and `startswith` on
Lean strings, through their character lists.  `lower` and `upper` know the ASCII letters and every
other code point whose case mapping produces an ASCII letter; the remaining letters only ever map
to letters outside ASCII and are left alone, so a search for an ASCII marker in a mapped text
comes out as Python's does.
-/

namespace PyStr

/-- `str.isspace` of one character. -/
def isSpace (c : Char) : Bool :=
  c.val ∈ [0x09, 0x0a, 0x0b, 0x0c, 0x0d, 0x1c, 0x1d, 0x1e, 0x1f, 0x20, 0x85, 0xa0, 0x1680, 0x2000,
    0x2001, 0x2002, 0x2003, 0x2004, 0x2005, 0x2006, 0x2007, 0x2008, 0x2009, 0x200a, 0x2028, 0x2029,
    0x202f, 0x205f, 0x3000]

/-- `s.strip()`. -/
def strip (s : String) : String :=
  String.ofList ((s.toList.dropWhile isSpace).reverse.dropWhile isSpace).reverse

/-- Lower case of one character: `İ` becomes `i` with a combining dot, the Kelvin sign becomes
`k`. -/
def lowerChar (c : Char) : List Char :=
  if c.val = 0x130 then ['i', Char.ofNat 0x307]
  else if c.val = 0x212a then ['k']
  else [c.toLower]

/-- `s.lower()`. -/
def lower (s : String) : String := String.ofList (s.toList.flatMap lowerChar)

/-- The characters outside ASCII whose upper case contains an ASCII letter. -/
def specialUpper : List (UInt32 × List Nat) :=
  [(0xdf, [0x53, 0x53]), (0x131, [0x49]), (0x149, [0x2bc, 0x4e]), (0x17f, [0x53]),
    (0x1f0, [0x4a, 0x30c]), (0x1e96, [0x48, 0x331]), (0x1e97, [0x54, 0x308]),
    (0x1e98, [0x57, 0x30a]), (0x1e99, [0x59, 0x30a]), (0x1e9a, [0x41, 0x2be]),
    (0xfb00, [0x46, 0x46]), (0xfb01, [0x46, 0x49]), (0xfb02, [0x46, 0x4c]),
    (0xfb03, [0x46, 0x46, 0x49]), (0xfb04, [0x46, 0x46, 0x4c]), (0xfb05, [0x53, 0x54]),
    (0xfb06, [0x53, 0x54])]

/-- Upper case of one character. -/
def upperChar (c : Char) : List Char :=
  match specialUpper.lookup c.val with
  | some codes => codes.map Char.ofNat
  | none => [c.toUpper]

/-- `s.upper()`. -/
def upper (s : String) : String := String.ofList (s.toList.flatMap upperChar)

/-- `s.replace(c, "")` for a single character. -/
def remove (c : Char) (s : String) : String := String.ofList (s.toList.filter (· ≠ c))

/-- `s.replace(c, d)` for single characters. -/
def replaceChar (c d : Char) (s : String) : String :=
  String.ofList (s.toList.map fun a => if a = c then d else a)

/-- `s[:n]`. -/
def take (n : ℕ) (s : String) : String := String.ofList (s.toList.take n)

/-- `s[n:]`. -/
def drop (n : ℕ) (s : String) : String := String.ofList (s.toList.drop n)

/-- `s or default`: the empty text is false. -/
def orElse (s default : String) : String := if s = "" then default else s

/-! ### `strip` -/

theorem toList_strip (cs : List Char) : (strip (String.ofList cs)).toList =
    ((cs.dropWhile isSpace).reverse.dropWhile isSpace).reverse := by
  rw [strip, String.toList_ofList, String.toList_ofList]

/-- A text that starts with no space keeps its beginning. -/
theorem exists_strip (cs : List Char) {c : Char} (hc : isSpace c = false) :
    ∃ t ws, (strip (String.ofList (c :: cs))).toList = c :: t ∧ c :: cs = c :: t ++ ws := by
  have hc' : ¬ isSpace c = true := by
    rw [hc]
    exact Bool.false_ne_true
  rw [toList_strip, List.dropWhile_cons_of_neg hc', List.reverse_cons]
  set rev := cs.reverse with hrev
  have hsplit : rev.takeWhile isSpace ++ rev.dropWhile isSpace = rev :=
    List.takeWhile_append_dropWhile
  refine ⟨(rev.dropWhile isSpace).reverse, (rev.takeWhile isSpace).reverse, ?_, ?_⟩
  · rw [List.dropWhile_append]
    split_ifs with hnil
    · rw [List.isEmpty_iff.mp hnil, List.dropWhile_cons_of_neg hc']
      rfl
    · rw [List.reverse_append]
      rfl
  · rw [List.cons_append, ← List.reverse_append, hsplit, hrev, List.reverse_reverse]

/-- A text that starts and ends with no space is kept. -/
theorem strip_eq_self {c d : Char} {cs ds : List Char} (hc : isSpace c = false)
    (hd : isSpace d = false) (hcs : cs = c :: ds ++ [d]) :
    (strip (String.ofList cs)).toList = cs := by
  have hc' : ¬ isSpace c = true := by
    rw [hc]
    exact Bool.false_ne_true
  have hd' : ¬ isSpace d = true := by
    rw [hd]
    exact Bool.false_ne_true
  rw [toList_strip, hcs, List.cons_append, List.dropWhile_cons_of_neg hc', ← List.cons_append,
    List.reverse_append, List.reverse_singleton, List.singleton_append,
    List.dropWhile_cons_of_neg hd', List.reverse_cons, List.reverse_reverse]

/-! ### Substrings -/

/-- `sub in s`. -/
def contains (sub s : String) : Bool := decide (sub.toList <:+: s.toList)

/-- `s.startswith(pre)`. -/
def startsWith (pre s : String) : Bool := decide (pre.toList <+: s.toList)

@[simp]
theorem contains_iff {sub s : String} : contains sub s = true ↔ sub.toList <:+: s.toList :=
  decide_eq_true_iff

@[simp]
theorem startsWith_iff {pre s : String} : startsWith pre s = true ↔ pre.toList <+: s.toList :=
  decide_eq_true_iff

theorem contains_self (s : String) : contains s s = true := contains_iff.mpr (List.infix_refl _)

end PyStr
