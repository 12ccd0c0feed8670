import XenMiner.Lib.LineScan
import XenMiner.Lib.PyText

/-!
# `config/wallet_setup.py`: the line editor of `miner.ini`

The editor and the reader go through the lines of the file by themselves, with rules of their own for
sections and options.  They compare names without case: sections by `str.lower`, keys by
`re.IGNORECASE`.  `Casing` is what they take from Python's tables of letters, and `letters` is as much of
these as names in ASCII need.  A file is its text; every write succeeds.
-/

namespace XenMiner.IniEdit

open PyText

/-- `f"{key} = {value}"`. -/
def keyLine (key value : Text) : Text := key ++ [' ', '=', ' '] ++ value

/-- `stripped.split("=", 1)[1].strip()`. -/
def valueOf (stripped : Text) : Text := strip ((stripped.dropWhile (· ≠ '=')).drop 1)

/-- `str.lower`, and the letter a character stands for under `re.IGNORECASE`: spaces and the equals sign
stand for no other characters. -/
structure Casing where
  lower : Text → Text
  fold : Char → Char
  fold_space : ∀ c d, fold c = fold d → PyStr.isSpace c = PyStr.isSpace d
  fold_eq : ∀ c, fold c = fold '=' → c = '='

namespace Casing

variable (C : Casing)

/-- `re.match(rf"^{re.escape(key)}\s*=", stripped, re.IGNORECASE)`. -/
def keyMatches : (key stripped : Text) → Bool
  | [], stripped => (lstrip stripped).head? = some '='
  | k :: key, c :: stripped => decide (C.fold k = C.fold c) && keyMatches key stripped
  | _ :: _, [] => false

/-- The name a header shows: `stripped[1:-1].strip().lower()`. -/
def headerName (stripped : Text) : Option Text :=
  if stripped.head? = some '[' ∧ stripped.getLast? = some ']' then
    some (C.lower (strip (stripped.drop 1).dropLast))
  else none

/-- `in_section` and the lines of the key. -/
def scanner (sect key : Text) : LineScanner Text where
  opens line := (C.headerName (strip line)).map fun name => decide (name = C.lower sect)
  hits line := C.keyMatches key (strip line)

/-- `any(l.strip().lower() == f"[{section.lower()}]" for l in lines)`. -/
def hasHeader (sect : Text) (lines : List Text) : Bool :=
  lines.any fun line => decide (C.lower (strip line) = '[' :: C.lower sect ++ [']'])

/-- The header of a missing section, behind a blank line. -/
def appendHeader (sect : Text) (out : List Text) : List Text :=
  (if (out.getLast?.any fun line => strip line ≠ []) then out ++ [[]] else out) ++
    ['[' :: sect ++ [']']]

/-- The lines `_set_ini_value` writes. -/
def setLines (sect key value : Text) (lines : List Text) : List Text :=
  let scanner := C.scanner sect key
  let out := scanner.edit (keyLine key value) false lines
  if (scanner.find? false lines).isSome then out
  else (if C.hasHeader sect lines then out else appendHeader sect out) ++ [keyLine key value]

/-- `_set_ini_value`. -/
def setIniValue (file sect key value : Text) : Text :=
  joinLines (C.setLines sect key value (splitlines file))

/-- `_read_ini_value` of a file that exists. -/
def readIniValue (file sect key : Text) : Text :=
  (((C.scanner sect key).find? false (splitlines file)).map fun line => valueOf (strip line)).getD []

/-- Two names of one section. -/
def SameSection (s s' : Text) : Prop := C.lower s = C.lower s'

/-- Two names of one key. -/
def SameKey (k k' : Text) : Prop := k.map C.fold = k'.map C.fold

end Casing

/-! ### Python's letters -/

/-- The letter a character stands for; letters outside ASCII stand for themselves, unless they are
forms of `i`, `s` or `k`. -/
def foldChar (c : Char) : Char :=
  if c.val = 0x130 ∨ c.val = 0x131 then 'i'
  else if c.val = 0x17f then 's'
  else if c.val = 0x212a then 'k'
  else c.toLower

def keyLetters : Text := "abcdefghijklmnopqrstuvwxyz_".toList

theorem isSpace_keyLetters : ∀ c ∈ keyLetters, PyStr.isSpace c = false :=
  forall_mem_of_all (by decide)

/-- Only capital letters and the three forms stand for another character, and then for a letter. -/
theorem foldChar_cases (c : Char) :
    foldChar c = c ∨ (PyStr.isSpace c = false ∧ c ≠ '=' ∧ foldChar c ∈ keyLetters) := by
  have hforms : ∀ d ∈ [Char.ofNat 0x130, Char.ofNat 0x131, Char.ofNat 0x17f, Char.ofNat 0x212a],
      PyStr.isSpace d = false ∧ d ≠ '=' := forall_mem_of_all (by decide)
  have hform : ∀ d ∈ [Char.ofNat 0x130, Char.ofNat 0x131, Char.ofNat 0x17f, Char.ofNat 0x212a],
      c.val = d.val → PyStr.isSpace c = false ∧ c ≠ '=' := by
    intro d hd hval
    rw [Char.ext hval]
    exact hforms d hd
  have hcapitals : ∀ n : Fin 26, PyStr.isSpace (Char.ofNat (0x41 + n)) = false ∧
      Char.ofNat (0x41 + n) ≠ '=' ∧
        (Char.ofNat (0x41 + n)).toLower ∈ keyLetters := by decide
  unfold foldChar
  split_ifs with hi hs hk
  · rcases hi with hval | hval
    · obtain ⟨hspace, hne⟩ := hform (Char.ofNat 0x130) (by decide) hval
      exact Or.inr ⟨hspace, hne, by decide⟩
    · obtain ⟨hspace, hne⟩ := hform (Char.ofNat 0x131) (by decide) hval
      exact Or.inr ⟨hspace, hne, by decide⟩
  · obtain ⟨hspace, hne⟩ := hform (Char.ofNat 0x17f) (by decide) hs
    exact Or.inr ⟨hspace, hne, by decide⟩
  · obtain ⟨hspace, hne⟩ := hform (Char.ofNat 0x212a) (by decide) hk
    exact Or.inr ⟨hspace, hne, by decide⟩
  · by_cases hupper : 0x41 ≤ c.toNat ∧ c.toNat ≤ 0x5a
    · right
      obtain ⟨hlow, hhigh⟩ := hupper
      have hc := hcapitals ⟨c.toNat - 0x41, by omega⟩
      have hnat : 0x41 + (c.toNat - 0x41) = c.toNat := by omega
      dsimp only at hc
      rwa [hnat, Char.ofNat_toNat] at hc
    · left
      unfold Char.toLower
      rw [dif_neg]
      rintro ⟨hlow, hhigh⟩
      exact hupper ⟨UInt32.le_iff_toNat_le.mp hlow, UInt32.le_iff_toNat_le.mp hhigh⟩

theorem isSpace_foldChar (c : Char) : PyStr.isSpace (foldChar c) = PyStr.isSpace c := by
  rcases foldChar_cases c with heq | ⟨hspace, -, hletter⟩
  · rw [heq]
  · rw [hspace]
    exact isSpace_keyLetters _ hletter

/-- `str.lower`, and the letters of names in ASCII. -/
def letters : Casing where
  lower := PyText.lower
  fold := foldChar
  fold_space c d h := by
    rw [← isSpace_foldChar c, ← isSpace_foldChar d, h]
  fold_eq c h := by
    rcases foldChar_cases c with heq | ⟨-, -, hletter⟩
    · exact heq.symm.trans h
    · rw [h] at hletter
      exact absurd hletter (by decide)

end XenMiner.IniEdit
