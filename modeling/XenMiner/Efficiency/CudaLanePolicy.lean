import XenMiner.Lib.PyConvert
import XenMiner.Lib.PyInt

/-!
# `efficiency/cuda_lane_policy.py`: the saved lane cap

The lane cap a session ended with is kept in a file for the next one.  The file is the value
`json.loads` reads in it; the text log of lane events is not modelled.

A clock reading is a parameter.  `int` of a float in the file is left to `intOfFloat`, which gets the
literal; the policy itself only writes integers.
-/

namespace XenMiner.CudaLanePolicy

/-- The exceptions of a load. -/
inductive LoadError
  | osError
  | valueError
  | typeError
  | attributeError
  | overflowError
  | recursionError
  deriving DecidableEq, Repr

/-- The exceptions `load_lane_policy` catches. -/
def LoadError.caught : LoadError → Bool
  | .osError | .valueError | .typeError => true
  | .attributeError | .overflowError | .recursionError => false

/-- The policy file. -/
inductive PolicyFile
  | absent
  /-- Reading it fails, or it is no JSON. -/
  | broken (error : LoadError)
  | json (value : Json)

structure CudaLanePolicyState where
  configMaxLanes : ℤ
  effectiveMaxLanes : ℤ
  tempReductions : ℤ := 0
  events : List Json := []

/-- `events[-50:]`. -/
def lastEvents (events : List Json) : List Json := events.drop (events.length - 50)

variable (intOfFloat : List Char → Except LoadError ℤ)

/-- `int(value)`. -/
def toInt : Json → Except LoadError ℤ
  | .int n => .ok n
  | .bool b => .ok (if b then 1 else 0)
  | .float literal => intOfFloat literal
  | .str s =>
    match PyStr.toInt s with
    | .ok n => .ok n
    | .error _ => .error .valueError
  | _ => .error .typeError

/-- The policy without a file. -/
def freshPolicy (configMaxLanes : ℤ) : CudaLanePolicyState where
  configMaxLanes := configMaxLanes
  effectiveMaxLanes := configMaxLanes

/-- The body of the `try`. -/
def readPolicy (configMaxLanes : ℤ) : Json → Except LoadError CudaLanePolicyState
  | .obj members => do
    let raw := Json.obj members
    let effective ← toInt intOfFloat ((raw.get "effective_max_lanes").getD (.int configMaxLanes))
    let events :=
      match raw.get "events" with
      | some (.arr items) => items
      | _ => []
    let reductions ← toInt intOfFloat ((raw.get "temp_reductions").getD (.int 0))
    return {
      configMaxLanes := configMaxLanes
      effectiveMaxLanes := max 1 (min configMaxLanes effective)
      tempReductions := reductions
      events := lastEvents events }
  | _ => .error .attributeError

/-- `load_lane_policy`; `error` when it raises. -/
def loadLanePolicy (file : PolicyFile) (configMaxLanes : ℤ) :
    Except LoadError CudaLanePolicyState :=
  let configMaxLanes := max 1 configMaxLanes
  let attempt : Except LoadError CudaLanePolicyState :=
    match file with
    | .absent => .ok (freshPolicy configMaxLanes)
    | .broken error => .error error
    | .json value => readPolicy intOfFloat configMaxLanes value
  match attempt with
  | .ok policy => .ok policy
  | .error error => if error.caught then .ok (freshPolicy configMaxLanes) else .error error

/-- `save_lane_policy`: what the file then holds. -/
def saveLanePolicy (policy : CudaLanePolicyState) (updatedAt : String) : PolicyFile :=
  .json (.obj [
    ("config_max_lanes", .int policy.configMaxLanes),
    ("effective_max_lanes", .int policy.effectiveMaxLanes),
    ("temp_reductions", .int policy.tempReductions),
    ("events", .arr (lastEvents policy.events)),
    ("updated_at", .str updatedAt)])

/-! ### Events -/

/-- The event of a reduction. -/
def reductionEvent (time : String) (temperatureC difficulty lanesActive before after : ℤ)
    (reason : String) : Json :=
  .obj [
    ("at", .str time),
    ("temperature_c", .int temperatureC),
    ("difficulty", .int difficulty),
    ("lanes_active", .int lanesActive),
    ("lanes_cap_before", .int before),
    ("lanes_cap_after", .int after),
    ("reason", .str reason),
    ("note", .str ("Low difficulty adds parallel lanes for harvest; extra lanes increased " ++
      "heat. Lane cap reduced for next restart."))]

/-- The event of a restore. -/
def restoreEvent (time : String) (temperatureC difficulty before after : ℤ) : Json :=
  .obj [
    ("at", .str time),
    ("temperature_c", .int temperatureC),
    ("difficulty", .int difficulty),
    ("lanes_cap_before", .int before),
    ("lanes_cap_after", .int after),
    ("reason", .str "reference_difficulty_cool_restore"),
    ("note", .str ("GPU cooled at reference difficulty — lane cap restored for the " ++
      "next low-difficulty harvest push."))]

/-- `record_temp_lane_reduction`; the caller saves the result (`saveLanePolicy`). -/
def recordTempLaneReduction (policy : CudaLanePolicyState) (time : String)
    (temperatureC difficulty lanesActive lanesBefore lanesAfter : ℤ) (reason : String) :
    CudaLanePolicyState :=
  { policy with
    effectiveMaxLanes := lanesAfter
    tempReductions := policy.tempReductions + 1
    events := policy.events ++
      [reductionEvent time temperatureC difficulty lanesActive lanesBefore lanesAfter reason] }

/-- `restore_lane_cap_if_cool`: the new policy when the cap is restored, which is then saved. -/
def restoreLaneCapIfCool (policy : CudaLanePolicyState) (time : String)
    (temperatureC warnTempC difficulty referenceDifficulty : ℤ) : Option CudaLanePolicyState :=
  if difficulty < referenceDifficulty then none
  else if warnTempC - 5 ≤ temperatureC then none
  else if policy.configMaxLanes ≤ policy.effectiveMaxLanes then none
  else some
    { policy with
      effectiveMaxLanes := policy.configMaxLanes
      events := policy.events ++ [restoreEvent time temperatureC difficulty
        policy.effectiveMaxLanes policy.configMaxLanes] }

end XenMiner.CudaLanePolicy
