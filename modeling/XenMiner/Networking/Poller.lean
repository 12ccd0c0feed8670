import XenMiner.Lib.PyNum
import XenMiner.Lib.PyText
import XenMiner.Networking.Difficulty

/-!
# `networking/difficulty.py` and `networking/poller.py`: asking for the difficulty

`fetch_difficulty` asks the configured URL and then its variants, and takes the first difficulty it can
read.  The poller does so again and again on a thread of its own; everyone else reads its last status
under a lock, so that a reading sees the state between two turns of its loop.

What a request for a URL leads to comes from outside, and so do the texts of exceptions and of `repr`.
-/

namespace XenMiner

/-- `core/models.py`: what a fetch found. -/
structure NetworkStatus where
  port80Up : Bool
  difficulty : Option ℤ
  latencyMs : Option ℚ
  error : Option Text := none
  deriving DecidableEq, Repr

namespace Difficulty

/-- What a request leads to. -/
inductive Answer
  | body (text : String)
  | httpError (code : ℤ)
  /-- No answer: the text of the exception. -/
  | failed (text : Text)
  deriving DecidableEq, Repr

/-- What the requests of one fetch lead to. -/
structure Web where
  answer : Text → Answer
  /-- The time from the start of the fetch to the end of the answer. -/
  elapsedMs : Text → ℚ

/-- Texts the interpreter makes. -/
structure PyTexts where
  repr : String → Text
  ofError : PyError → Text

/-! ### The candidates -/

def http : Text := "http://".toList

def https : Text := "https://".toList

/-- The end of a configured URL, and its alternate. -/
def difficultyPath : Text := "/difficulty".toList

def getdifficultyPath : Text := "/getdifficulty".toList

/-- `_candidate_urls` before the duplicates are left out. -/
def urlVariants (primary : Text) : List Text :=
  if http <+: primary then
    let host := primary.drop http.length
    primary :: (https ++ host) ::
      if PyText.endsWith difficultyPath host then
        let base := PyText.dropEnd difficultyPath host
        [http ++ base ++ getdifficultyPath, https ++ base ++ getdifficultyPath]
      else []
  else if https <+: primary then [primary, http ++ primary.drop https.length]
  else if primary ≠ [] then [primary]
  else []

/-- The loop that leaves out what was seen before. -/
def uniq (seen : List Text) : List Text → List Text
  | [] => []
  | item :: items => if item ∈ seen then uniq seen items else item :: uniq (item :: seen) items

/-- `_candidate_urls`: the configured URL first. -/
def candidateUrls (url : Text) : List Text := uniq [] (urlVariants (PyText.strip url))

/-! ### A fetch -/

section Fetch

variable (isAlnum : Char → Bool) (limit : List Char → Option ScanLimit) (texts : PyTexts) (web : Web)

/-- The loop over the candidates, with its `last_error` and `saw_http`. -/
def fetchFrom (lastError : Text) (sawHttp : Bool) : List Text → NetworkStatus
  | [] => { port80Up := sawHttp, difficulty := none, latencyMs := none, error := some lastError }
  | candidate :: rest =>
    match web.answer candidate with
    | .httpError code =>
      fetchFrom ("HTTP ".toList ++ (toString code).toList ++ ' ' :: candidate) true rest
    | .failed text => fetchFrom (candidate ++ ": ".toList ++ text) sawHttp rest
    | .body text =>
      match parseDifficultyPayload isAlnum limit text with
      | .error e => fetchFrom (candidate ++ ": ".toList ++ texts.ofError e) true rest
      | .ok none =>
        fetchFrom ("unparsed body from ".toList ++ candidate ++ ": ".toList
          ++ texts.repr (PyStr.take 80 text)) true rest
      | .ok (some diff) =>
        { port80Up := true, difficulty := some diff, latencyMs := some (web.elapsedMs candidate) }

/-- `fetch_difficulty`. -/
def fetchDifficulty (url : Text) : NetworkStatus :=
  fetchFrom isAlnum limit texts web "no url".toList false (candidateUrls url)

end Fetch

end Difficulty

open Difficulty

/-! ### The poller -/

structure NetworkPoller where
  url : Text
  pollIntervalS : ℚ
  downPollIntervalS : ℚ
  timeoutS : ℚ
  initialTimeoutS : ℚ
  status : NetworkStatus
  lastPollAt : ℚ

namespace NetworkPoller

/-- The status before the first fetch. -/
def starting : NetworkStatus where
  port80Up := false
  difficulty := none
  latencyMs := none
  error := some "starting".toList

/-- `__init__`. -/
def create (url : Text) (pollIntervalS downPollIntervalS timeoutS : ℚ) : NetworkPoller where
  url := url
  pollIntervalS := max 5 pollIntervalS
  downPollIntervalS := max (max 5 pollIntervalS) downPollIntervalS
  timeoutS := max 1 timeoutS
  initialTimeoutS := max 1 timeoutS
  status := starting
  lastPollAt := 0

variable (p : NetworkPoller)

/-- `start`, for a poller that is not running. -/
def start (initialTimeoutS : Option ℚ) : NetworkPoller :=
  match initialTimeoutS with
  | some timeoutS => { p with initialTimeoutS := max 1 timeoutS }
  | none => p

/-- The time the loop waits after a status. -/
def interval (status : NetworkStatus) : ℚ :=
  if status.difficulty.isSome then p.pollIntervalS else p.downPollIntervalS

/-! ### The loop -/

/-- One fetch of the loop. -/
structure Poll where
  start : ℚ
  timeoutS : ℤ
  status : NetworkStatus

/-- The outside of one turn: the fetch begins some time after the thread wakes up, and takes some
time. -/
structure Turn where
  web : Web
  late : ℚ
  took : ℚ
  late_nonneg : 0 ≤ late
  took_nonneg : 0 ≤ took

/-- The thread of the poller. -/
structure Loop where
  poller : NetworkPoller
  first : Bool := true
  now : ℚ
  /-- The fetches so far, the newest first. -/
  polls : List Poll := []

variable (isAlnum : Char → Bool) (limit : List Char → Option ScanLimit) (texts : Difficulty.PyTexts)

/-- `poll_once` on the thread of the poller. -/
def pollOnce (web : Web) (now : ℚ) : NetworkPoller :=
  { p with status := fetchDifficulty isAlnum limit texts web p.url, lastPollAt := now }

/-- One turn of `_loop`. -/
def Loop.turn (l : Loop) (t : Turn) : Loop :=
  let timeout := if l.first then l.poller.initialTimeoutS else l.poller.timeoutS
  let start := l.now + t.late
  let finished := start + t.took
  let poller := l.poller.pollOnce isAlnum limit texts t.web finished
  { poller := poller
    first := false
    now := finished + poller.interval poller.status
    polls := { start := start, timeoutS := PyNum.pyInt timeout, status := poller.status } :: l.polls }

/-- The thread after some turns. -/
def Loop.run (l : Loop) (turns : List Turn) : Loop :=
  turns.foldl (Loop.turn isAlnum limit texts) l

end NetworkPoller

end XenMiner
