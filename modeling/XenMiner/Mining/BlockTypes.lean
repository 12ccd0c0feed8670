import XenMiner.Lib.PyStr

/-!
# `mining/block_types.py`: the kind of a block

Hash texts are ASCII, so `isupper` is `Char.isUpper`.
-/

namespace XenMiner.BlockTypes

/-- The answers of `classify_block`. -/
inductive BlockKind
  | xuni
  | xblk
  | xnm
  | other
  deriving DecidableEq, Repr

def BlockKind.text : BlockKind → String
  | .xuni => "XUNI"
  | .xblk => "XBLK"
  | .xnm => "XNM"
  | .other => "OTHER"

def superUppercaseMin : ℕ := 50

/-- The characters `XUNI_RE` finds a match in: `XUNI` and a digit. -/
def xuniMatch : List Char → Bool
  | [] => false
  | c :: rest =>
    (match c :: rest with
      | 'X' :: 'U' :: 'N' :: 'I' :: d :: _ => d.isDigit
      | _ => false) || xuniMatch rest

/-- `s.rsplit("$", 1)[-1]`: what follows the last dollar sign. -/
def afterLastDollar (s : String) : String :=
  String.ofList (s.toList.reverse.takeWhile (· ≠ '$')).reverse

/-- `hash_digest_for_superblock`: the digest of an encoded hash, a bare digest as it is. -/
def hashDigestForSuperblock (hashStr : String) : String :=
  if PyStr.startsWith "$" hashStr ∨ 4 ≤ hashStr.toList.count '$' then afterLastDollar hashStr
  else hashStr

def uppercaseCount (text : String) : ℕ := text.toList.countP Char.isUpper

/-- `is_superblock` with the default threshold, as every caller passes it. -/
def isSuperblock (hashStr : String) : Bool :=
  superUppercaseMin ≤ uppercaseCount (hashDigestForSuperblock hashStr)

/-- `classify_block`. -/
def classifyBlock (hashStr blockType : String) : BlockKind :=
  let bt := PyStr.strip (PyStr.remove '\x00' (PyStr.upper blockType))
  if bt = "XUNI" ∨ xuniMatch hashStr.toList then .xuni
  else if PyStr.contains "XEN11" hashStr ∧ isSuperblock hashStr then .xblk
  else if PyStr.contains "XEN11" hashStr ∨ bt ∈ ["XEN11", "NORMAL", "XNM", "XBLK"] then .xnm
  else .other

end XenMiner.BlockTypes
