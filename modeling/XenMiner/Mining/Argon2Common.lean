import XenMiner.Core.Models
import XenMiner.Mining.BlockTypes

/-!
# `mining/argon2_common.py`: hashing a key, and what is submitted for a hit

The hash function itself comes from a library.  `Argon2` gives the two texts of its encoded output
that depend on more than the cost parameters, both in unpadded Base64.
-/

namespace XenMiner.Argon2Common

def isBase64 (c : Char) : Bool := c.isAlphanum || c = '+' || c = '/'

/-- `argon2.low_level`, type ID. -/
structure Argon2 where
  /-- The salt bytes, encoded. -/
  salt : String → String
  /-- The hash, encoded: of the key, the salt, memory cost, time cost, parallelism and length. -/
  digest : String → String → ℤ → ℤ → ℤ → ℤ → String
  salt_base64 : ∀ saltHex, ∀ c ∈ (salt saltHex).toList, isBase64 c = true
  digest_base64 : ∀ key saltHex m t p n, ∀ c ∈ (digest key saltHex m t p n).toList,
    isBase64 c = true

def isArgon2Encoded (hashStr : String) : Bool := PyStr.startsWith "$argon2" hashStr

/-- The match of `$m=(digits),` at the head of a text. -/
def costAt : List Char → Option ℤ
  | '$' :: 'm' :: '=' :: rest =>
    let digits := rest.takeWhile Char.isDigit
    if digits ≠ [] ∧ (rest.dropWhile Char.isDigit).head? = some ',' then
      some (Nat.ofDigitChars 10 digits 0)
    else none
  | _ => none

/-- The first match of `_ARGON2_MEMORY_COST_RE`. -/
def searchMemoryCost : List Char → Option ℤ
  | [] => none
  | c :: rest => (costAt (c :: rest)).or (searchMemoryCost rest)

/-- `memory_cost_from_hash`: the `m=` of an encoded hash. -/
def memoryCostFromHash (hashStr : String) : Option ℤ :=
  if isArgon2Encoded hashStr then searchMemoryCost hashStr.toList else none

/-- `argon2_hash`. -/
def argon2Hash (A : Argon2) (keyText saltHex : String)
    (memoryCost timeCost parallelism hashLen : ℤ) : String :=
  "$argon2id$v=19$m=" ++ toString memoryCost ++ ",t=" ++ toString timeCost ++ ",p="
    ++ toString parallelism ++ "$" ++ A.salt saltHex ++ "$"
    ++ A.digest keyText saltHex memoryCost timeCost parallelism hashLen

/-- `prepare_hit_for_submit`: an encoded hash must carry the memory cost, a raw one must occur in
the encoded hash of its key, which then replaces it. -/
def prepareHitForSubmit (A : Argon2) (hit : BlockHit) (saltHex : String)
    (memoryCost timeCost parallelism hashLen : ℤ) : Option BlockHit :=
  if isArgon2Encoded hit.hashStr then
    match memoryCostFromHash hit.hashStr with
    | some blockM => if blockM ≠ memoryCost then none else some hit
    | none => some hit
  else
    let encoded := argon2Hash A hit.key saltHex memoryCost timeCost parallelism hashLen
    if PyStr.contains hit.hashStr encoded then
      some
        { key := hit.key
          hashStr := encoded
          blockType := (BlockTypes.classifyBlock encoded hit.blockType).text
          attempts := hit.attempts
          strategy := hit.strategy
          hps := hit.hps
          foundAt := hit.foundAt }
    else none

end XenMiner.Argon2Common
