import Mathlib.Data.List.TakeWhile
import Mathlib.Data.Int.Order.Basic

/-!
# JSON texts, as Python's `json` writes and reads them

`dumps` is `json.dumps` with its defaults (ASCII only, `", "` and `": "`), `loads` is `json.loads`.
A float is its literal.  A text is a list of characters; the scanner's fuel is the length of the text,
which is enough (`Json.value_reads`).  A `\u` escape of a lone surrogate, which is no character here,
is refused.
-/

inductive Json
  | null
  | bool (b : Bool)
  | int (n : ℤ)
  | float (literal : List Char)
  | str (s : String)
  | arr (items : List Json)
  | obj (members : List (String × Json))

namespace Json

/-! ### Writing -/

/-- `\uXXXX`. -/
def escapeU (n : ℕ) : List Char :=
  ['\\', 'u', (n / 4096 % 16).digitChar, (n / 256 % 16).digitChar, (n / 16 % 16).digitChar,
    (n % 16).digitChar]

/-- One character of `encode_basestring_ascii`. -/
def escape (c : Char) : List Char :=
  if c = '"' then ['\\', '"']
  else if c = '\\' then ['\\', '\\']
  else if c = '\n' then ['\\', 'n']
  else if c = '\r' then ['\\', 'r']
  else if c = '\t' then ['\\', 't']
  else if c.toNat = 0x0c then ['\\', 'f']
  else if c.toNat = 0x08 then ['\\', 'b']
  else if 0x20 ≤ c.toNat ∧ c.toNat ≤ 0x7e then [c]
  else if c.toNat < 0x10000 then escapeU c.toNat
  else
    escapeU (0xd800 + (c.toNat - 0x10000) / 0x400) ++ escapeU (0xdc00 + (c.toNat - 0x10000) % 0x400)

/-- The characters of a string and its closing quote. -/
def stringBody (s : List Char) : List Char := s.flatMap escape ++ ['"']

def encodeString (s : String) : List Char := '"' :: stringBody s.toList

def nullText : List Char := ['n', 'u', 'l', 'l']

def trueText : List Char := ['t', 'r', 'u', 'e']

def falseText : List Char := ['f', 'a', 'l', 's', 'e']

mutual

/-- `json.dumps`. -/
def dumps : Json → List Char
  | .null => nullText
  | .bool b => if b then trueText else falseText
  | .int n => (toString n).toList
  | .float literal => literal
  | .str s => encodeString s
  | .arr [] => ['[', ']']
  | .arr (x :: xs) => '[' :: (dumps x ++ dumpsItems xs)
  | .obj [] => ['{', '}']
  | .obj ((k, v) :: ms) => '{' :: (encodeString k ++ ':' :: ' ' :: (dumps v ++ dumpsMembers ms))

/-- The items after the first. -/
def dumpsItems : List Json → List Char
  | [] => [']']
  | x :: xs => ',' :: ' ' :: (dumps x ++ dumpsItems xs)

/-- The members after the first. -/
def dumpsMembers : List (String × Json) → List Char
  | [] => ['}']
  | (k, v) :: ms => ',' :: ' ' :: (encodeString k ++ ':' :: ' ' :: (dumps v ++ dumpsMembers ms))

end

/-! ### Reading -/

def isWs (c : Char) : Bool := c = ' ' || c = '\t' || c = '\n' || c = '\r'

def skipWs (cs : List Char) : List Char := cs.dropWhile isWs

/-- The rest of a text that starts with `c`. -/
def eat (c : Char) : List Char → Option (List Char)
  | [] => none
  | d :: cs => if d = c then some cs else none

/-- The rest of a text that starts with `word`. -/
def eatAll (word cs : List Char) : Option (List Char) :=
  if word <+: cs then some (cs.drop word.length) else none

/-- The value of a hexadecimal digit. -/
def hexValue (c : Char) : Option ℕ :=
  if c.isDigit then some (c.toNat - 48)
  else if 'a' ≤ c ∧ c ≤ 'f' then some (c.toNat - 87)
  else if 'A' ≤ c ∧ c ≤ 'F' then some (c.toNat - 55)
  else none

/-- Four hexadecimal digits. -/
def hex4 : List Char → Option (ℕ × List Char)
  | a :: b :: c :: d :: cs => do
    let a ← hexValue a
    let b ← hexValue b
    let c ← hexValue c
    let d ← hexValue d
    some (a * 4096 + b * 256 + c * 16 + d, cs)
  | _ => none

/-- What follows `\u`: one escape, or two for a pair of surrogates. -/
def unicode (cs : List Char) : Option (Char × List Char) := do
  let (high, cs) ← hex4 cs
  if high < 0xd800 ∨ 0xdfff < high then some (Char.ofNat high, cs)
  else if 0xdbff < high then none
  else
    let cs ← eatAll ['\\', 'u'] cs
    let (low, cs) ← hex4 cs
    if low < 0xdc00 ∨ 0xdfff < low then none
    else some (Char.ofNat (0x10000 + (high - 0xd800) * 0x400 + (low - 0xdc00)), cs)

/-- The character of a simple escape. -/
def simpleEscape (c : Char) : Option Char :=
  if c = '"' ∨ c = '\\' ∨ c = '/' then some c
  else if c = 'b' then some (Char.ofNat 0x08)
  else if c = 'f' then some (Char.ofNat 0x0c)
  else if c = 'n' then some '\n'
  else if c = 'r' then some '\r'
  else if c = 't' then some '\t'
  else none

/-- One character of a string, which its closing quote is not. -/
def scanChar : List Char → Option (Char × List Char)
  | [] => none
  | c :: cs =>
    if c = '\\' then
      match cs with
      | [] => none
      | e :: cs => if e = 'u' then unicode cs else (simpleEscape e).map fun c => (c, cs)
    else if c.toNat < 0x20 then none
    else some (c, cs)

/-- The characters of a string, past its closing quote. -/
def scanString : ℕ → List Char → Option (List Char × List Char)
  | 0, _ => none
  | n + 1, cs =>
    match eat '"' cs with
    | some cs => some ([], cs)
    | none => do
      let (c, cs) ← scanChar cs
      let (s, cs) ← scanString n cs
      some (c :: s, cs)

def isNumberChar (c : Char) : Bool :=
  c.isDigit || c = '-' || c = '+' || c = '.' || c = 'e' || c = 'E'

/-- The match of `(\.\d+)?` at the head of a text, and the rest. -/
def fraction : List Char → List Char × List Char
  | '.' :: cs =>
    if cs.takeWhile Char.isDigit = [] then ([], '.' :: cs)
    else ('.' :: cs.takeWhile Char.isDigit, cs.dropWhile Char.isDigit)
  | cs => ([], cs)

/-- The rest of a text past a sign. -/
def unsigned : List Char → List Char
  | '+' :: cs => cs
  | '-' :: cs => cs
  | cs => cs

/-- `([eE][-+]?\d+)?` matches the whole text. -/
def isExponent : List Char → Bool
  | [] => true
  | c :: cs => (c = 'e' || c = 'E') && unsigned cs ≠ [] && (unsigned cs).all Char.isDigit

/-- The number a text is, if the whole text is one. -/
def readNumber (t : List Char) : Option Json :=
  let digits := (t.dropWhile (· = '-')).takeWhile Char.isDigit
  let rest := (t.dropWhile (· = '-')).dropWhile Char.isDigit
  if 1 < (t.takeWhile (· = '-')).length ∨ digits = [] ∨ 1 < digits.length ∧ digits.head? = some '0' then
    none
  else if rest = [] then
    let n : ℤ := Nat.ofDigitChars 10 digits 0
    some (.int (if t.head? = some '-' then -n else n))
  else if isExponent (fraction rest).2 then some (.float t)
  else none

/-- A number.  What its pattern would leave of the run of characters cannot follow a value. -/
def scanNumber (cs : List Char) : Option (Json × List Char) :=
  (readNumber (cs.takeWhile isNumberChar)).map fun x => (x, cs.dropWhile isNumberChar)

/-- The words that are values. -/
def words : List (List Char × Json) :=
  [(nullText, .null), (trueText, .bool true), (falseText, .bool false),
    (['N', 'a', 'N'], .float ['N', 'a', 'N']),
    (['I', 'n', 'f', 'i', 'n', 'i', 't', 'y'], .float ['I', 'n', 'f', 'i', 'n', 'i', 't', 'y']),
    (['-', 'I', 'n', 'f', 'i', 'n', 'i', 't', 'y'],
      .float ['-', 'I', 'n', 'f', 'i', 'n', 'i', 't', 'y'])]

def scanWord (cs : List Char) : Option (Json × List Char) :=
  words.findSome? fun w => (eatAll w.1 cs).map fun cs => (w.2, cs)

mutual

/-- `scan_once`. -/
def value : ℕ → List Char → Option (Json × List Char)
  | 0, _ => none
  | n + 1, cs =>
    match eat '"' cs with
    | some cs => (scanString n cs).map fun x => (.str (String.ofList x.1), x.2)
    | none =>
      match eat '{' cs with
      | some cs =>
        match eat '}' (skipWs cs) with
        | some cs => some (.obj [], cs)
        | none => (members n (skipWs cs)).map fun x => (.obj x.1, x.2)
      | none =>
        match eat '[' cs with
        | some cs =>
          match eat ']' (skipWs cs) with
          | some cs => some (.arr [], cs)
          | none => (items n (skipWs cs)).map fun x => (.arr x.1, x.2)
        | none => (scanWord cs).or (scanNumber cs)

/-- The items of an array, past its closing bracket. -/
def items : ℕ → List Char → Option (List Json × List Char)
  | 0, _ => none
  | n + 1, cs => do
    let (x, cs) ← value n cs
    match eat ']' (skipWs cs) with
    | some cs => some ([x], cs)
    | none => do
      let cs ← eat ',' (skipWs cs)
      let (xs, cs) ← items n (skipWs cs)
      some (x :: xs, cs)

/-- The members of an object, past its closing brace. -/
def members : ℕ → List Char → Option (List (String × Json) × List Char)
  | 0, _ => none
  | n + 1, cs => do
    let cs ← eat '"' cs
    let (k, cs) ← scanString n cs
    let cs ← eat ':' (skipWs cs)
    let (v, cs) ← value n (skipWs cs)
    match eat '}' (skipWs cs) with
    | some cs => some ([(String.ofList k, v)], cs)
    | none => do
      let cs ← eat ',' (skipWs cs)
      let (ms, cs) ← members n (skipWs cs)
      some ((String.ofList k, v) :: ms, cs)

end

/-- `json.loads`. -/
def loads (text : List Char) : Option Json := do
  let (x, rest) ← value text.length (skipWs text)
  if skipWs rest = [] then some x else none

/-- `record[key]`: the last member of that name. -/
def get (key : String) : Json → Option Json
  | .obj ms => ms.reverse.lookup key
  | _ => none

end Json
