import XenMiner.Lib.PyConvert
import XenMiner.Lib.PyDict
import XenMiner.Lib.PyStr

/-!
# `monitoring/wallet_balances.py`: token balances over JSON-RPC

A refresh asks an endpoint after another for three balances, falls back on the balances in use, and
records a snapshot of the mining day.  The network is a function (`Net`) that gives what is read of the
reply to each attempt; timeouts and pauses only act through it.

Refreshes run in threads of their own.  `Tracker.step` lets calls of `maybe_refresh` and the workers
take turns: what a worker does under the lock is one step, what it does without it is part of the next
one.  Clock readings and dates are parameters; the views of the dashboard are not modelled.
-/

namespace XenMiner.WalletBalances

def xuniContract : String := "0x999999cf1046e68e36e1aa2e0e07105eddd00002"

def xblkContract : String := "0x999999cf1046e68e36e1aa2e0e07105eddd00001"

/-- `WEI_PER_TOKEN`. -/
def weiPerToken : ℤ := 10 ^ 18

def defaultRpcUrls : List String := ["https://xenblocks.io:5556", "https://xenblocks.io:5555"]

structure TokenBalances where
  xnm : PyFloat
  xuni : PyFloat
  xblk : PyFloat
  deriving DecidableEq, Repr

/-- An exception with its text. -/
structure PyExc where
  kind : PyError
  text : String
  deriving DecidableEq, Repr

/-! ### One call -/

/-- `_normalize_rpc_urls`. -/
def normalizeRpcUrls (rpcUrl : String) (rpcUrls : List String) : List String :=
  let urls := (rpcUrls.map PyStr.strip).filter (· ≠ "")
  let urls := if PyStr.strip rpcUrl ≠ "" then PyStr.strip rpcUrl :: urls else urls
  let urls := if urls = [] then defaultRpcUrls else urls
  let out := urls.eraseDups
  out ++ defaultRpcUrls.filter (· ∉ out)

/-- What `json.loads` reads of the reply to an attempt, or the exception on the way there. -/
abbrev Net := (url method : String) → (params : List Json) → (attempt : ℕ) → Except PyExc Json

/-- The text `error`. -/
def isErrorText : Json → Bool
  | .str s => s = "error"
  | _ => false

variable (pyStr : Json → String)

/-- What `_rpc_call` does with a body: the lookups raise on a body that is no object. -/
def readBody (method : String) (body : Json) : Except PyExc Json :=
  match body with
  | .obj _ =>
    match body.get "error" with
    | some error => .error { kind := .runtimeError, text := pyStr error }
    | none =>
      match body.get "result" with
      | none => .error { kind := .runtimeError, text := "rpc returned no result for " ++ method }
      | some .null => .error { kind := .runtimeError, text := "rpc returned no result for " ++ method }
      | some result => .ok result
  | .str s =>
    if PyStr.contains "error" s then
      .error { kind := .typeError, text := "string indices must be integers, not 'str'" }
    else .error { kind := .attributeError, text := "'str' object has no attribute 'get'" }
  | .arr items =>
    if items.any isErrorText then
      .error { kind := .typeError, text := "list indices must be integers or slices, not str" }
    else .error { kind := .attributeError, text := "'list' object has no attribute 'get'" }
  | _ => .error { kind := .typeError, text := "argument is not iterable" }

/-- The exceptions `_rpc_call` catches. -/
def caughtByRpcCall (e : PyError) : Bool := e = .osError || e.isRuntimeError || e.isValueError

/-- The attempts of `_rpc_call` from one on, `n` of them after it. -/
def rpcAttempts (net : Net) (url method : String) (params : List Json) (attempt : ℕ) :
    ℕ → Except PyExc Json
  | 0 => (net url method params attempt).bind (readBody pyStr method)
  | n + 1 =>
    match (net url method params attempt).bind (readBody pyStr method) with
    | .ok result => .ok result
    | .error e =>
      if caughtByRpcCall e.kind then rpcAttempts net url method params (attempt + 1) n else .error e

/-- `_rpc_call`. -/
def rpcCall (net : Net) (url method : String) (params : List Json) (retries : ℤ := 2) :
    Except PyExc Json :=
  rpcAttempts pyStr net url method params 0 ((max 1 retries).toNat - 1)

/-- The loop of `_rpc_call_any`. -/
def rpcCallLoop (net : Net) (method : String) (params : List Json) (errors : List String) :
    List String → Except PyExc Json
  | [] => .error
    { kind := .runtimeError
      text := if errors ≠ [] then "; ".intercalate errors else "no rpc urls" }
  | url :: urls =>
    match rpcCall pyStr net url method params 1 with
    | .ok result => .ok result
    | .error e => rpcCallLoop net method params (errors ++ [url ++ ": " ++ e.text]) urls

/-- `_rpc_call_any`: whatever an endpoint raises, the next one is asked. -/
def rpcCallAny (net : Net) (rpcUrls : List String) (method : String) (params : List Json) :
    Except PyExc Json :=
  rpcCallLoop pyStr net method params [] rpcUrls

/-! ### A balance -/

/-- The value of a hexadecimal digit. -/
def hexValue (c : Char) : Option ℕ :=
  if 'a' ≤ c ∧ c ≤ 'f' then some (c.toNat - 'a'.toNat + 10)
  else if 'A' ≤ c ∧ c ≤ 'F' then some (c.toNat - 'A'.toNat + 10)
  else PyStr.digitValue c

/-- The digits after the first, read behind `acc`. -/
def hexFrom (acc : ℕ) : List Char → Option ℕ
  | [] => some acc
  | '_' :: c :: cs => (hexValue c).bind fun d => hexFrom (16 * acc + d) cs
  | c :: cs => (hexValue c).bind fun d => hexFrom (16 * acc + d) cs

/-- A text of hexadecimal digits. -/
def hexDigits : List Char → Option ℕ
  | [] => none
  | c :: cs => (hexValue c).bind fun d => hexFrom d cs

/-- The same, with or without `0x` before it. -/
def hexNat : List Char → Option ℕ
  | '0' :: 'x' :: '_' :: cs => hexDigits cs
  | '0' :: 'x' :: cs => hexDigits cs
  | '0' :: 'X' :: '_' :: cs => hexDigits cs
  | '0' :: 'X' :: cs => hexDigits cs
  | cs => hexDigits cs

/-- `int(s, 16)` of a text. -/
def parseHex (s : String) : Option ℤ :=
  match (PyStr.strip s).toList with
  | '-' :: cs => (hexNat cs).map fun n => -Int.ofNat n
  | '+' :: cs => (hexNat cs).map Int.ofNat
  | cs => (hexNat cs).map Int.ofNat

/-- `int(raw, 16) / WEI_PER_TOKEN`: a base goes with a text only. -/
def tokens (raw : Json) : Except PyExc PyFloat :=
  match raw with
  | .str s =>
    match parseHex s with
    | none => .error { kind := .valueError, text := "invalid literal for int() with base 16" }
    | some wei =>
      match PyFloat.divInt wei weiPerToken with
      | .ok x => .ok x
      | .error kind => .error { kind := kind, text := "integer division result too large for a float" }
  | _ => .error { kind := .typeError, text := "int() can't convert non-string with explicit base" }

/-- `s.rjust(n, "0")`. -/
def rjustZeros (n : ℕ) (s : String) : String :=
  String.ofList (List.replicate (n - s.toList.length) '0') ++ s

/-- The native balance, as `fetch_wallet_balances` asks for it. -/
def nativeBalance (net : Net) (rpcUrls : List String) (wallet : String) : Except PyExc PyFloat :=
  (rpcCallAny pyStr net rpcUrls "eth_getBalance" [.str wallet, .str "latest"]).bind tokens

/-- `_erc20_balance`. -/
def erc20Balance (net : Net) (rpcUrls : List String) (contract wallet : String) :
    Except PyExc PyFloat :=
  let data := "0x70a08231" ++ rjustZeros 64 (PyStr.lower (PyStr.drop 2 wallet))
  (rpcCallAny pyStr net rpcUrls "eth_call"
    [.obj [("to", .str contract), ("data", .str data)], .str "latest"]).bind tokens

/-! ### Three balances -/

/-- The exceptions `_fetch_token` and the worker catch. -/
def caughtByFetch (e : PyError) : Bool := e = .osError || e.isRuntimeError || e.isValueError

/-- `_fetch_token`: a value and a note. -/
def fetchToken (label : String) (fetched : Except PyExc PyFloat) (fallback : Option PyFloat)
    (allowZeroOnError : Bool := true) : Except PyExc (Option PyFloat × Option String) :=
  match fetched with
  | .ok value => .ok (some value, none)
  | .error e =>
    if caughtByFetch e.kind then
      match fallback with
      | some value => .ok (some value, some label)
      | none =>
        if allowZeroOnError then .ok (some (.finite 0), some (label ++ ": " ++ e.text))
        else .ok (none, some (label ++ ": " ++ e.text))
    else .error e

/-- `cached_tokens` and `failed_notes`. -/
structure Notes where
  cached : List String := []
  failed : List String := []

/-- The note of a token is filed. -/
def Notes.add (notes : Notes) (label : String) : Option String → Notes
  | none => notes
  | some err =>
    if err = label then { notes with cached := notes.cached ++ [label] }
    else if err ≠ "" then { notes with failed := notes.failed ++ [err] }
    else notes

/-- `note.split(":", 1)[0].strip()`. -/
def noteLabel (note : String) : String :=
  PyStr.strip (String.ofList (note.toList.takeWhile (· ≠ ':')))

/-- The marker of a soft failure. -/
def softMarker (cached : List String) (note : String) : List String :=
  if noteLabel note ≠ "" ∧ noteLabel note ∉ cached then cached ++ [noteLabel note ++ "?"] else cached

/-- The end of `fetch_wallet_balances`. -/
def collectBalances (xnm xuni xblk : Option PyFloat) (notes : Notes)
    (fallback : Option TokenBalances) : Except PyExc (TokenBalances × List String) :=
  match xnm, xuni, xblk with
  | some xnm, some xuni, some xblk =>
    if 3 ≤ notes.failed.length ∧ notes.cached = [] ∧ fallback.isNone then
      .error { kind := .runtimeError, text := "; ".intercalate notes.failed }
    else .ok ({ xnm := xnm, xuni := xuni, xblk := xblk }, notes.failed.foldl softMarker notes.cached)
  | _, _, _ =>
    let missing := [("XNM", xnm), ("XUNI", xuni), ("XBLK", xblk)].filter fun x => x.2.isNone
    .error
      { kind := .runtimeError
        text := "balance fetch failed for " ++ ", ".intercalate (missing.map Prod.fst)
          ++ if notes.failed ≠ [] then " (" ++ "; ".intercalate notes.failed ++ ")" else "" }

/-- `fetch_wallet_balances`: the balances, and the tokens that are not fresh. -/
def fetchWalletBalances (net : Net) (wallet rpcUrl : String) (rpcUrls : List String)
    (fallback : Option TokenBalances) : Except PyExc (TokenBalances × List String) := do
  let urls := normalizeRpcUrls rpcUrl rpcUrls
  let xnm ← fetchToken "XNM" (nativeBalance pyStr net urls wallet) (fallback.map TokenBalances.xnm)
  let xuni ← fetchToken "XUNI" (erc20Balance pyStr net urls xuniContract wallet)
    (fallback.map TokenBalances.xuni)
  let xblk ← fetchToken "XBLK" (erc20Balance pyStr net urls xblkContract wallet)
    (fallback.map TokenBalances.xblk)
  let notes := ((({} : Notes).add "XNM" xnm.2).add "XUNI" xuni.2).add "XBLK" xblk.2
  collectBalances xnm.1 xuni.1 xblk.1 notes fallback

/-- `t.rstrip("?")`. -/
def rstripMark (t : String) : String := String.ofList (t.toList.reverse.dropWhile (· = '?')).reverse

/-- The status after a fetch. -/
def statusOf (cachedTokens : List String) : String :=
  if cachedTokens = [] then "ok"
  else
    let soft := cachedTokens.filter fun t => t.toList.getLast? = some '?'
    let hard := cachedTokens.filter fun t => t.toList.getLast? ≠ some '?'
    let parts := (if hard ≠ [] then [", ".intercalate hard ++ " cached"] else [])
      ++ if soft ≠ [] then [", ".intercalate (soft.map rstripMark) ++ " rpc slow"] else []
    "partial (" ++ "; ".intercalate parts ++ ")"

/-! ### The history -/

/-- A day of the history: read from the file, or recorded since. -/
inductive Entry
  | loaded (value : Json)
  | snapshot (balances : TokenBalances) (capturedAt : String)

abbrev History := List (String × Entry)

/-- `_balances_from_dict`. -/
def balancesFromDict (raw : Json) : Except PyError TokenBalances := do
  let xnm ← (raw.get "xnm").elim (.ok (.finite 0)) Json.toFloat
  let xuni ← (raw.get "xuni").elim (.ok (.finite 0)) Json.toFloat
  let xblk ← (raw.get "xblk").elim (.ok (.finite 0)) Json.toFloat
  return { xnm := xnm, xuni := xuni, xblk := xblk }

/-- `_snapshot_for_day`. -/
def snapshotForDay (history : History) (day : String) : Except PyError (Option TokenBalances) :=
  match PyDict.get day history with
  | some (.loaded (.obj members)) => (balancesFromDict (.obj members)).map some
  | some (.snapshot balances _) => .ok (some balances)
  | _ => .ok none

/-- `_latest_snapshot`. -/
def latestSnapshot (history : History) : Except PyError (Option TokenBalances) :=
  match history with
  | [] => .ok none
  | x :: rest =>
    snapshotForDay history (rest.foldl (fun day y => if day < y.1 then y.1 else day) x.1)

/-- `_load_history`; `error` when it raises. -/
def loadHistory (file : JsonFile) : Except PyError History :=
  match file with
  | .absent => .ok []
  | .broken e => if e = .osError ∨ e = .jsonDecodeError then .ok [] else .error e.toPyError
  | .json (.obj members) =>
    match (Json.obj members).get "snapshots" with
    | some (.obj snapshots) => .ok ((PyDict.ofPairs snapshots).map fun x => (x.1, .loaded x.2))
    | _ => .ok []
  | .json _ => .error .attributeError

/-! ### The tracker -/

/-- Where the worker of a refresh is. -/
inductive RefreshPlace
  /-- Before it takes the balances in use. -/
  | started
  | fetching (fallback : Option TokenBalances)
  /-- Past its last turn with the lock, a snapshot to record. -/
  | saving (balances : TokenBalances)
  | ended
  deriving DecidableEq

structure Tracker where
  wallet : String
  rpcUrl : String
  rpcUrls : List String
  refreshIntervalS : ℚ
  refreshing : Bool := false
  current : Option TokenBalances := none
  updatedAt : Option ℚ := none
  lastAttemptAt : Option ℚ := none
  lastError : Option String := none
  status : String := "waiting"
  history : History := []
  /-- What the file holds, if it can be read. -/
  savedHistory : Option History := none
  /-- The workers in the order of their start. -/
  workers : List RefreshPlace := []

/-- How a save ends. -/
inductive SaveOutcome
  | written
  /-- It raises before the file is touched. -/
  | untouched
  /-- It raises halfway. -/
  | torn
  deriving DecidableEq

namespace Tracker

variable (s : Tracker)

/-- `_seed_from_history`. -/
def seedFromHistory (today : String) : Except PyError Tracker := do
  let snap ← snapshotForDay s.history today
  let snap ← match snap with
    | some balances => .ok (some balances)
    | none => latestSnapshot s.history
  match snap with
  | none => .ok s
  | some balances => .ok { s with current := some balances, status := "cached" }

/-- The end of `__init__`, for a tracker without a history. -/
def load (file : JsonFile) (today : String) : Except PyError Tracker := do
  let history ← loadHistory file
  seedFromHistory { s with history := history, savedHistory := some history } today

/-- A refresh is due. -/
def due (now : ℚ) (force : Bool) : Bool :=
  force
    || s.updatedAt.isNone && s.lastAttemptAt.all (s.refreshIntervalS ≤ now - ·)
    || s.updatedAt.any (s.refreshIntervalS ≤ now - ·)

/-- `maybe_refresh`. -/
def maybeRefresh (now : ℚ) (force : Bool) : Tracker :=
  if s.due now force = false ∨ s.refreshing then s
  else
    { s with
      refreshing := true
      lastAttemptAt := some now
      status :=
        if s.current.isNone ∧ s.status ∈ ["waiting", "rpc error"] then "fetching" else s.status
      workers := s.workers ++ [.started] }

def setPlace (i : ℕ) (place : RefreshPlace) : Tracker := { s with workers := s.workers.set i place }

/-- The worker's second turn with the lock, on what was fetched. -/
def finish (i : ℕ) (time : ℚ) : Except PyExc (TokenBalances × List String) → Tracker
  | .error e =>
    if caughtByFetch e.kind then
      setPlace
        { s with
          lastError := some (PyStr.take 160 e.text)
          status := if s.current.isNone then "rpc error" else "stale"
          refreshing := false }
        i .ended
    -- nothing catches it, and the thread ends
    else s.setPlace i .ended
  | .ok (balances, cachedTokens) =>
    setPlace
      { s with
        current := some balances
        updatedAt := some time
        status := statusOf cachedTokens
        lastError := none
        refreshing := false }
      i (if cachedTokens = [] then .saving balances else .ended)

/-- `_record_snapshot`. -/
def recordSnapshot (balances : TokenBalances) (day capturedAt : String) (outcome : SaveOutcome) :
    Tracker :=
  let history := PyDict.set day (.snapshot balances capturedAt) s.history
  { s with
    history := history
    savedHistory :=
      match outcome with
      | .written => some history
      | .untouched => s.savedHistory
      | .torn => none }

/-- Whose turn it is, with what it meets. -/
inductive Turn
  | refresh (now : ℚ) (force : Bool)
  | begin (i : ℕ)
  | fetch (i : ℕ) (net : Net) (time : ℚ)
  | record (i : ℕ) (day capturedAt : String) (outcome : SaveOutcome)

/-- One turn; a worker takes only the turn of the place where it is. -/
def step (s : Tracker) (turn : Turn) : Tracker :=
  match turn with
  | .refresh now force => s.maybeRefresh now force
  | .begin i =>
    match s.workers[i]? with
    | some .started => s.setPlace i (.fetching s.current)
    | _ => s
  | .fetch i net time =>
    match s.workers[i]? with
    | some (.fetching fallback) =>
      s.finish i time (fetchWalletBalances pyStr net s.wallet s.rpcUrl s.rpcUrls fallback)
    | _ => s
  | .record i day capturedAt outcome =>
    match s.workers[i]? with
    | some (.saving balances) =>
      (s.recordSnapshot balances day capturedAt outcome).setPlace i .ended
    | _ => s

end Tracker

end XenMiner.WalletBalances
