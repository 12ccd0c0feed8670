import XenMiner.Efficiency.CudaLanePolicy
import XenMiner.Lib.PyDict

/-!
# What is read from the state files

`_load` of `monitoring/local_stats.py` and of `monitoring/server_uptime.py`, with what it raises.  The
lane policy is `CudaLanePolicy.loadLanePolicy`, here on a file and with its floats read; the fourth
file is that of `WalletBalances.Tracker`.
-/

namespace XenMiner

/-- The items of an object whose values are objects. -/
def objectItems (members : List (String × Json)) : List (String × Json) :=
  (PyDict.ofPairs members).filter fun x => x.2.isObj

/-! ### The lane policy -/

namespace CudaLanePolicy

/-- `int` of a float. -/
def intOfFloat : PyFloat → Except LoadError ℤ
  | .finite x => .ok (PyNum.pyInt x)
  | .nan => .error .valueError
  | .infinity _ => .error .overflowError

/-- `int` of a float in the file. -/
def intOfLiteral (literal : List Char) : Except LoadError ℤ :=
  intOfFloat (Json.floatOfLiteral literal)

/-- An exception of reading the file, as the load sees it. -/
def readError : ReadError → LoadError
  | .osError => .osError
  | .jsonDecodeError | .valueError => .valueError
  | .recursionError => .recursionError

def policyFile : JsonFile → PolicyFile
  | .absent => .absent
  | .broken e => .broken (readError e)
  | .json value => .json value

/-- `load_lane_policy` of a file. -/
def load (file : JsonFile) (configMaxLanes : ℤ) : Except LoadError CudaLanePolicyState :=
  loadLanePolicy intOfLiteral (policyFile file) configMaxLanes

end CudaLanePolicy

/-! ### Local statistics -/

namespace LocalStats

/-- `_BLOCK_KINDS`. -/
def blockKinds : List String := ["XUNI", "XNM", "XBLK"]

/-- What `int` is called on for a day. -/
def countLeaves (values : Json) : List Json := blockKinds.map fun kind => Json.getD kind (.int 0) values

/-- The counts of a day. -/
def readDay (x : String × Json) : Except PyError (String × List (String × ℤ)) :=
  (countLeaves x.2).mapM Json.toInt >>= fun counts => .ok (x.1, blockKinds.zip counts)

/-- The body of the `try`. -/
def readDays (file : JsonFile) : Except PyError (List (String × List (String × ℤ))) :=
  match file with
  | .absent => .ok []
  | .broken e => .error e.toPyError
  | .json (.obj members) =>
    match Json.getD "days" (.obj []) (.obj members) with
    | .obj days => (objectItems days).mapM readDay
    | _ => .ok []
  | .json _ => .error .attributeError

/-- The exceptions `LocalMiningStatsTracker._load` catches. -/
def caughtByLoad (e : PyError) : Bool := e = .osError || e = .typeError || e.isValueError

/-- `LocalMiningStatsTracker._load`: the counts of each day; `error` when it raises. -/
def load (file : JsonFile) : Except PyError (List (String × List (String × ℤ))) :=
  match readDays file with
  | .ok days => .ok days
  | .error e => if caughtByLoad e then .ok [] else .error e

end LocalStats

/-! ### Server uptime -/

namespace ServerUptime

/-- What `ServerUptimeTracker._load` reads. -/
structure SavedUptime where
  /-- Seconds up and down for each hour. -/
  hourly : List (String × PyFloat × PyFloat) := []
  outages : List Json := []
  lastOk : Option Bool := none
  lastProbeAt : Option PyFloat := none
  outageStart : Option PyFloat := none

/-- The bucket of an hour. -/
def readBucket (x : String × Json) : Except PyError (String × PyFloat × PyFloat) := do
  let onlineS ← (Json.getD "online_s" (.int 0) x.2).toFloat
  let offlineS ← (Json.getD "offline_s" (.int 0) x.2).toFloat
  return (x.1, onlineS, offlineS)

/-- `hourly`, if it is an object. -/
def readHourly : Json → Except PyError (List (String × PyFloat × PyFloat))
  | .obj hours => (objectItems hours).mapM readBucket
  | _ => .ok []

/-- A timestamp that may be missing or unusable. -/
def readTimestamp : Option Json → Except PyError (Option PyFloat)
  | none => .ok none
  | some .null => .ok none
  | some value =>
    match value.toFloat with
    | .ok ts => .ok (some ts)
    | .error e => if e = .typeError || e.isValueError then .ok none else .error e

/-- `last_ok`, unless it is missing or null. -/
def readLastOk : Option Json → Option Bool
  | none => none
  | some .null => none
  | some value => some value.truthy

/-- `ServerUptimeTracker._load`; `error` when it raises. -/
def load (file : JsonFile) : Except PyError SavedUptime :=
  match file with
  | .absent => .ok {}
  | .broken e => if e = .osError ∨ e = .jsonDecodeError then .ok {} else .error e.toPyError
  | .json (.obj members) => do
    let raw := Json.obj members
    let hourly ← readHourly (Json.getD "hourly" (.obj []) raw)
    let outages :=
      match Json.getD "outages" (.arr []) raw with
      | .arr items => items.filter Json.isObj
      | _ => []
    let lastProbeAt ← readTimestamp (raw.get "last_probe_at")
    let outageStart ← readTimestamp (raw.get "outage_start")
    return {
      hourly := hourly
      outages := outages
      lastOk := readLastOk (raw.get "last_ok")
      lastProbeAt := lastProbeAt
      outageStart := outageStart }
  | .json _ => .error .attributeError

end ServerUptime

end XenMiner
