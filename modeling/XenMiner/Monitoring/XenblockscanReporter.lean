import XenMiner.BlockQueue.Store
import XenMiner.Lib.DropOldest
import XenMiner.Lib.Equiv.Json
import XenMiner.Lib.PyText

/-!
# `monitoring/xenblockscan_reporter.py`: reports to the open index

A report is a URL and a payload.  The threads of the miner put reports in a queue of 256 places, each
`_enqueue` a call of `DropOldest`; one worker takes them out and posts them.  The accesses to the queue
and the posts are steps of their own (`Reporter.step`), in any order.

`ReporterTexts` is what Python makes of times and floats.
-/

namespace XenMiner

open PyText

namespace XenblockscanReporter

def pluginId : String := "tony-xnminer"

def pluginVersion : String := "0.3.0"

def hostProject : String := "badnob/xnminer"

/-- `queue.Queue(maxsize=256)`. -/
def maxsize : ℕ := 256

/-- The texts of times and floats. -/
structure ReporterTexts where
  /-- `isoformat` of a time that counts as UTC. -/
  isoformat : ℤ → String
  /-- `float.__repr__`. -/
  reprFloat : ℚ → List Char
  isFloat_reprFloat : ∀ x, Json.IsFloat (reprFloat x)

/-! ### Settings -/

/-- The module's settings. -/
structure Config where
  enabled : Bool := false
  endpoint : Text := "http://127.0.0.1:8787/api/v1/events".toList
  apiKey : String := ""
  reportRejects : Bool := false
  timeoutS : ℚ := 3 / 2

/-- `configure`. -/
def Config.configure (c : Config) (enabled : Bool) (endpoint : Text) (apiKey : String)
    (reportRejects : Bool) (timeoutS : ℚ) : Config where
  enabled := enabled
  endpoint := rstripChar '/' (if endpoint = [] then c.endpoint else endpoint)
  apiKey := apiKey
  reportRejects := reportRejects
  timeoutS := max (1 / 2) (min timeoutS 3)

/-! ### The endpoints -/

def events : Text := "/events".toList

def holdings : Text := "/holdings".toList

def apiV1 : Text := "/api/v1".toList

/-- `_events_url`. -/
def eventsUrl (ep : Text) : Text :=
  if endsWith holdings ep then dropEnd holdings ep ++ events
  else if endsWith events ep then ep
  else if endsWith apiV1 (rstripChar '/' ep) then rstripChar '/' ep ++ events
  else rstripChar '/' ep ++ (apiV1 ++ events)

/-- `_events_batch_url`. -/
def eventsBatchUrl (ep : Text) : Text :=
  let base := eventsUrl ep
  if endsWith events base then base ++ ":batch".toList
  else rstripChar '/' base ++ "/events:batch".toList

/-- `_holdings_url`. -/
def holdingsUrl (ep : Text) : Text :=
  if endsWith events ep then dropEnd events ep ++ holdings
  else if endsWith holdings ep then ep
  else if endsWith apiV1 (rstripChar '/' ep) then rstripChar '/' ep ++ holdings
  else rstripChar '/' ep ++ (apiV1 ++ holdings)

/-- `_trackers_url`. -/
def trackersUrl (ep : Text) : Text :=
  let base :=
    if endsWith events ep then dropEnd events ep
    else if endsWith holdings ep then dropEnd holdings ep
    else if endsWith apiV1 (rstripChar '/' ep) then rstripChar '/' ep
    else rstripChar '/' ep ++ apiV1
  rstripChar '/' base ++ "/trackers/heartbeat".toList

/-! ### Payloads -/

/-- What is queued. -/
structure Job where
  url : Text
  payload : Json

/-- `payload["source"]`. -/
def source : Json :=
  .obj [("plugin", .str pluginId), ("plugin_version", .str pluginVersion),
    ("host_project", .str hostProject)]

/-- The kinds the index knows. -/
def kinds : List String := ["XNM", "XUNI", "XBLK"]

/-- `kind_u` of `_report_event`. -/
def reportedKind (kind : String) : String :=
  let kind := PyStr.orElse (PyStr.upper kind) "XNM"
  if kind ∈ kinds then kind
  else if PyStr.contains "XUNI" kind then "XUNI"
  else if PyStr.contains "XBLK" kind ∨ PyStr.contains "SUPER" kind then "XBLK"
  else "XNM"

/-- `kind_u` of `_event_payload`. -/
def backfilledKind (kind : String) : String :=
  let kind := PyStr.upper (PyStr.orElse kind "XNM")
  if kind ∈ kinds then kind else "XNM"

/-- What an event says of a block. -/
structure BlockEvent where
  account : String
  kind : String
  key : String
  hashToVerify : String
  worker : String
  difficulty : Option ℤ
  occurredAt : Option ℤ

/-- A member that is there only with a value. -/
def member (name : String) (value : Option Json) : List (String × Json) :=
  value.toList.map fun v => (name, v)

/-- A text that is there unless it is empty. -/
def nonempty (s : String) : Option Json := if s = "" then none else some (.str s)

variable (T : ReporterTexts)

/-- The members that the payloads of events share. -/
def eventMembers (now : ℤ) (e : BlockEvent) (kind status : String) : List (String × Json) :=
  [("schema_version", .int 1), ("source", source), ("account", .str e.account),
    ("event", .obj [("type", .str "block_submit"), ("status", .str status), ("kind", .str kind),
      ("key", .str e.key), ("hash_to_verify", .str e.hashToVerify),
      ("occurred_at", .str (T.isoformat (e.occurredAt.getD now)))])] ++
    member "worker" (nonempty e.worker)

/-- The payload of `_report_event`. -/
def reportedPayload (now : ℤ) (e : BlockEvent) (status : String) : Json :=
  .obj (eventMembers T now e (reportedKind e.kind) status ++
    member "meta" (e.difficulty.map fun d => .obj [("difficulty", .int d)]))

/-- `_event_payload`. -/
def eventPayload (now : ℤ) (e : BlockEvent) : Json :=
  .obj (eventMembers T now e (backfilledKind e.kind) "accepted")

/-- The arguments of `report_holdings`. -/
structure Holdings where
  account : String
  worker : String := ""
  xnm : Option ℚ := none
  xuni : Option ℚ := none
  xblk : Option ℚ := none
  blocks : Option ℤ := none
  superBlocks : Option ℤ := none
  rank : Option ℤ := none
  solAddress : Option String := none
  hashrate : Option ℚ := none
  trackerId : String := ""

def floatMember (name : String) (value : Option ℚ) : List (String × Json) :=
  member name (value.map fun x => .float (T.reprFloat x))

def intMember (name : String) (value : Option ℤ) : List (String × Json) :=
  member name (value.map Json.int)

/-- The payload of `report_holdings`. -/
def holdingsPayload (h : Holdings) : Json :=
  .obj ([("schema_version", .int 1), ("source", source), ("account", .str h.account)] ++
    member "worker" (nonempty h.worker) ++ member "tracker_id" (nonempty h.trackerId) ++
    floatMember T "xnm" h.xnm ++ floatMember T "xuni" h.xuni ++ floatMember T "xblk" h.xblk ++
    intMember "blocks" h.blocks ++ intMember "super_blocks" h.superBlocks ++ intMember "rank" h.rank ++
    member "sol_address" (h.solAddress.map Json.str) ++ floatMember T "hashrate" h.hashrate)

/-- The arguments of `report_tracker`. -/
structure Tracker where
  trackerId : String
  account : String
  worker : String := ""
  hashrate : Option ℚ := none
  accepted : Option ℤ := none
  rejected : Option ℤ := none
  found : Option ℤ := none
  difficulty : Option ℤ := none
  networkOk : Option Bool := none

/-- The payload of `report_tracker`, for an id and an account that are not blank. -/
def trackerPayload (t : Tracker) : Json :=
  .obj ([("schema_version", .int 1), ("tracker_id", .str (PyStr.strip t.trackerId)),
      ("account", .str (PyStr.strip t.account)), ("source", source)] ++
    member "worker" (nonempty t.worker) ++
    [("accepted", .int (t.accepted.getD 0)), ("rejected", .int (t.rejected.getD 0)),
      ("found", .int (t.found.getD 0))] ++
    floatMember T "hashrate" (t.hashrate.filter fun x => decide (0 < x)) ++
    floatMember T "difficulty" (t.difficulty.map Int.cast) ++
    member "network_ok" (t.networkOk.map Json.bool))

/-! ### Reports -/

/-- A report of the miner; `now` is the time of an event without one. -/
inductive Report
  | accepted (now : ℤ) (e : BlockEvent)
  | rejected (now : ℤ) (e : BlockEvent)
  | backfilled (now : ℤ) (e : BlockEvent)
  | holdings (h : Holdings)
  | tracker (t : Tracker)

/-- What `report_accepted`, `report_rejected`, `report_holdings`, `report_tracker` and the backfill put in
the queue, if anything. -/
def Config.job (c : Config) (r : Report) : Option Job :=
  if c.enabled then
    match r with
    | .accepted now e => some ⟨eventsUrl c.endpoint, reportedPayload T now e "accepted"⟩
    | .rejected now e =>
      if c.reportRejects then some ⟨eventsUrl c.endpoint, reportedPayload T now e "rejected"⟩ else none
    | .backfilled now e => some ⟨eventsUrl c.endpoint, eventPayload T now e⟩
    | .holdings h => some ⟨holdingsUrl c.endpoint, holdingsPayload T h⟩
    | .tracker t =>
      if PyStr.strip t.trackerId = "" ∨ PyStr.strip t.account = "" then none
      else some ⟨trackersUrl c.endpoint, trackerPayload T t⟩
  else none

/-- What `_post` sends. -/
structure Request where
  url : Text
  data : List Char
  headers : List (String × String)

/-- The request of `_post`. -/
def Config.request (c : Config) (job : Job) : Request where
  url := job.url
  data := Json.dumps job.payload
  headers := [("Content-Type", "application/json"), ("Accept", "application/json"),
      ("User-Agent", "xenblockscan-plugin/" ++ pluginId ++ "/" ++ pluginVersion)] ++
    if c.apiKey = "" then [] else [("Authorization", "Bearer " ++ c.apiKey)]

/-! ### The queue and the worker -/

/-- The queue with its calls, what the worker holds, and what it has sent, with the answers. -/
structure Reporter where
  config : Config
  jobs : DropOldest Job := {}
  inHand : Option Job := none
  sent : List (Request × Bool) := []

inductive Step
  | report (r : Report)
  | access (k : ℕ)
  | get
  | post (ok : Bool)

namespace Reporter

/-- A call begins, an `_enqueue` accesses the queue, or the worker takes a job or posts it. -/
def step (s : Reporter) : Step → Reporter
  | .report r =>
    match s.config.job T r with
    | some job => { s with jobs := s.jobs.step maxsize (.begin job) }
    | none => s
  | .access k => { s with jobs := s.jobs.step maxsize (.call k) }
  | .get =>
    match s.inHand with
    | some _ => s
    | none => { s with jobs := s.jobs.step maxsize .take, inHand := s.jobs.queue.head? }
  | .post ok =>
    match s.inHand with
    | some job => { s with inHand := none, sent := s.sent ++ [(s.config.request job, ok)] }
    | none => s

/-- `_stats`. -/
structure Stats where
  posted : ℕ
  failed : ℕ
  dropped : ℕ

/-- `stats`. -/
def stats (s : Reporter) : Stats where
  posted := s.sent.countP (·.2)
  failed := s.sent.countP (!·.2)
  dropped := s.jobs.refused.length

end Reporter

/-! ### The backfill -/

/-- `rank.get(…, 9)`. -/
def rank (kind : String) : ℕ :=
  if kind = "XBLK" then 0 else if kind = "XUNI" then 1 else if kind = "XNM" then 2 else 9

/-- The label of a row, as the sort and the payload read it. -/
def rowKind (row : BlockStore.AcceptedSubmit) : String :=
  PyStr.upper (PyStr.orElse row.blockType "XNM")

/-- The event of a row. -/
def backfillEvent (account worker : String) (row : BlockStore.AcceptedSubmit) : BlockEvent where
  account := account
  kind := rowKind row
  key := row.key
  hashToVerify := row.hashStr
  worker := worker
  difficulty := none
  occurredAt := some row.submittedAt

/-- The events `_backfill_worker` queues, of the rows `list_accepted_submits` returns. -/
def backfillEvents (rows : List BlockStore.AcceptedSubmit) (account worker : String) (maxRows : ℕ) :
    List BlockEvent :=
  let ordered := (rows.mergeSort fun a b => rank (rowKind a) ≤ rank (rowKind b)).take maxRows
  (ordered.filter fun row => row.key ≠ "").map (backfillEvent account worker)

end XenblockscanReporter

end XenMiner
