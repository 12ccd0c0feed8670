import XenMiner.BlockQueue.Store
import XenMiner.Lib.Equiv.Json

/-!
# The text of `queue.jsonl`

`Store` holds the log as the records of its lines.  Here it is the text: what `enqueue` appends to
it, and what `import_pending_from_jsonl` reads back, line by line.  `none` is an exception, after
which the transaction is rolled back.  No version writes a field of another type than the source's;
such a line raises here.
-/

namespace XenMiner

/-- The texts Python makes of floats and times, and what it reads them as. -/
structure PyTexts where
  /-- `float.__repr__`. -/
  reprFloat : ℚ → List Char
  /-- `float` of a literal. -/
  float : List Char → ℚ
  /-- `datetime.isoformat(timespec="seconds")`. -/
  isoformat : ℤ → String
  /-- The time a text stands for. -/
  time : String → ℤ
  isFloat_reprFloat : ∀ x, Json.IsFloat (reprFloat x)

namespace QueueLog

/-- A call of `enqueue` and its time. -/
structure Entry where
  now : ℤ
  hit : BlockHit
  reason : String

variable (T : PyTexts)

/-- The members of `record`. -/
def Entry.members (e : Entry) : List (String × Json) :=
  [("key", .str e.hit.key), ("hash_str", .str e.hit.hashStr), ("block_type", .str e.hit.blockType),
    ("strategy", .str e.hit.strategy), ("attempts", .int e.hit.attempts),
    ("hps", .float (T.reprFloat e.hit.hps)), ("found_at", .str (T.isoformat e.hit.foundAt)),
    ("queued_at", .str (T.isoformat e.now)), ("reason", .str e.reason),
    ("memory_cost", match e.hit.memoryCost with
      | some m => .int m
      | none => .null)]

/-- `json.dumps(record)`. -/
def Entry.text (e : Entry) : List Char := Json.dumps (.obj (e.members T))

/-- What `enqueue` appends. -/
def Entry.line (e : Entry) : List Char := e.text T ++ ['\n']

def logText (entries : List Entry) : List Char := entries.flatMap (Entry.line T)

/-! ### The import -/

/-- `for line in f`.  A line end of two characters leaves an empty line more, which is skipped. -/
def fileLines (text : List Char) : List (List Char) := text.splitOnP fun c => c = '\n' || c = '\r'

def asText : Json → Option String
  | .str s => some s
  | _ => none

def asInt : Json → Option ℤ
  | .int n => some n
  | _ => none

/-- `float(record.get("hps", 0.0))` of a member. -/
def asFloat : Json → Option ℚ
  | .float literal => some (T.float literal)
  | .int n => some n
  | _ => none

/-- A member that may be missing. -/
def optional {α : Type} (read : Json → Option α) (member : Option Json) : Option (Option α) :=
  match member with
  | none => some none
  | some x => (read x).map some

/-- The fields an import reads. -/
def readRecord (record : Json) : Option QueueRecord := do
  let key ← (record.get "key").bind asText
  let hashStr ← (record.get "hash_str").bind asText
  let blockType ← (record.get "block_type").bind asText
  let strategy ← (record.get "strategy").bind asText
  let attempts ← (record.get "attempts").bind asInt
  let hps ← optional (asFloat T) (record.get "hps")
  let foundAt ← optional asText (record.get "found_at")
  let queuedAt ← (record.get "queued_at").bind asText
  let reason ← optional asText (record.get "reason")
  some
    { key, hashStr, blockType, strategy, attempts, hps
      foundAt := foundAt.map T.time
      queuedAt := T.time queuedAt
      reason
      memoryCost := (record.get "memory_cost").bind asInt }

/-- One line. -/
def importLine (accepted : List String) (dryRun : Bool) (a : BlockStore.Import) (line : List Char) :
    Option BlockStore.Import :=
  let line := (PyStr.strip (String.ofList line)).toList
  if line = [] then some a
  else do
    let record ← Json.loads line
    let key ← (record.get "key").bind asText
    if key ∈ a.seen ∨ key ∈ a.pending ∨ key ∈ accepted then some a
    else if dryRun then some { a with seen := key :: a.seen, imported := a.imported + 1 }
    else (readRecord T record).map (BlockStore.Import.line accepted false a)

/-- `import_pending_from_jsonl`, of a log with this text. -/
def importPendingFromText (s : BlockStore) (text : List Char) (dryRun : Bool) :
    Option (BlockStore × ℕ) := do
  let start : BlockStore.Import :=
    { pendingBlocks := s.pendingBlocks, pending := s.pendingKeys, seen := [], imported := 0 }
  let done ← (fileLines text).foldlM (importLine T s.acceptedKeys dryRun) start
  some ({ s with pendingBlocks := done.pendingBlocks }, done.imported)

end QueueLog

end XenMiner
