import XenMiner.Lib.PyConvert

/-!
# `networking/difficulty.py`: the difficulty in a reply

`parse_difficulty_payload` takes a bare number, a JSON number, an object with one of several keys, an
object within an object, or a number in a free text.

Two limits of the interpreter let `json.loads` raise something else than a `JSONDecodeError`: the digits
of an integer and the depth of nesting.  Which texts hit them is a parameter, as are the letters and
numbers of Unicode that are no decimal digits.
-/

namespace XenMiner.Difficulty

/-- `_DIFF_KEYS`. -/
def diffKeys : List String :=
  ["difficulty", "diff", "memory_cost", "memoryCost", "network_difficulty", "networkDifficulty", "m"]

/-- The keys of nested objects. -/
def nestKeys : List String := ["data", "result", "network", "status"]

/-- A limit of the interpreter that `json.loads` hits. -/
inductive ScanLimit
  | intDigits
  | recursion
  deriving DecidableEq, Repr

def ScanLimit.toPyError : ScanLimit → PyError
  | .intDigits => .valueError
  | .recursion => .recursionError

/-! ### Texts -/

/-- `\d`. -/
def isDigit (c : Char) : Bool := (PyStr.digitValue c).isSome

/-- `re.fullmatch(r"\d+", text)`. -/
def isDigits (text : List Char) : Bool := text ≠ [] && text.all isDigit

/-- `re.fullmatch(r"-?\d+", text)`. -/
def isBareInteger : List Char → Bool
  | '-' :: text => isDigits text
  | text => isDigits text

variable (isAlnum : Char → Bool)

/-- `\w`. -/
def isWord (c : Char) : Bool := isDigit c || isAlnum c || c = '_'

/-- The digits of `re.search(r"\b(\d{2,6})\b", text)`: as there are no word characters beside a match, it
is a whole word. -/
def searchDigits (text : List Char) : Option (List Char) :=
  (text.splitOnP fun c => !isWord isAlnum c).find? fun word =>
    isDigits word ∧ 2 ≤ word.length ∧ word.length ≤ 6

/-! ### Values -/

/-- `return value if value > 0 else None`. -/
def positive (value : ℤ) : Option ℤ := if 0 < value then some value else none

/-- The loop over the keys: the first positive number. -/
def probeKeys (data : Json) : List String → Except PyError (Option ℤ)
  | [] => .ok none
  | key :: keys =>
    match data.get key with
    | none => probeKeys data keys
    | some leaf =>
      match leaf.toInt with
      | .ok value => if 0 < value then .ok (some value) else probeKeys data keys
      | .error e => if e = .typeError ∨ e.isValueError then probeKeys data keys else .error e

/-- The loop over nested objects. -/
def probeNested (data : Json) : List String → Except PyError (Option ℤ)
  | [] => .ok none
  | nestKey :: nestKeys =>
    match data.get nestKey with
    | some (.obj members) =>
      match probeKeys (.obj members) diffKeys with
      | .ok (some value) => .ok (some value)
      | .ok none => probeNested data nestKeys
      | .error e => .error e
    | _ => probeNested data nestKeys

/-- The difficulty in a JSON value. -/
def ofJson : Json → Except PyError (Option ℤ)
  | .int n => .ok (positive n)
  | .float literal => (Json.floatOfLiteral literal).toInt.map positive
  | .obj members =>
    match probeKeys (.obj members) diffKeys with
    | .ok (some value) => .ok (some value)
    | .ok none => probeNested (.obj members) nestKeys
    | .error e => .error e
  | _ => .ok none

/-- The difficulty in a text that is no JSON. -/
def ofText (text : List Char) : Except PyError (Option ℤ) :=
  match searchDigits isAlnum text with
  | some digits => (PyStr.toInt (String.ofList digits)).map positive
  | none => .ok none

variable (limit : List Char → Option ScanLimit)

/-- `parse_difficulty_payload`; `error` when it raises. -/
def parseDifficultyPayload (body : String) : Except PyError (Option ℤ) :=
  let text := PyStr.strip body
  if text = "" then .ok none
  else if isBareInteger text.toList then (PyStr.toInt text).map positive
  else
    match limit text.toList with
    | some hit => .error hit.toPyError
    | none =>
      match Json.loads text.toList with
      | some data => ofJson data
      | none => ofText isAlnum text.toList

end XenMiner.Difficulty
