import XenMiner.Core.Models
import Mathlib.Tactic.Common

/-!
# `monitoring/nvidia.py`: reading the sensors

`_read_all_temps` reads the die and whatever discrete sensors the driver library knows, and makes the
hottest of them the control temperature of the snapshot.  The driver is an oracle (`DriverReply`);
name, index, power, utilisation and the memory temperature of a snapshot are for display.
-/

namespace XenMiner

/-- The discrete sensors `_discover_temp_field_ids` looks for. -/
inductive TempField
  | hotspot
  | memory
  | board
  deriving DecidableEq, Repr

/-- One attribute of the value union of a field, as `int(val)` takes it. -/
inductive UnionAttr
  /-- The attribute is missing, or no integer: the next one is tried. -/
  | skipped
  /-- Any other exception: the field is given up. -/
  | failed
  | int (value : ℤ)
  deriving DecidableEq, Repr

/-- What the driver answers while one snapshot is taken. -/
structure DriverReply where
  /-- `nvmlDeviceGetTemperature`; `none` when it raises. -/
  dieTemp : Option ℤ
  /-- `nvmlDeviceGetFieldValues` of a field: the attributes of its union, in the order they are tried,
  or `none` when the call raises, answers nothing, an error status or no value. -/
  fieldValues : ℤ → Option (List UnionAttr)
  /-- Total and used bytes of `nvmlDeviceGetMemoryInfo`; `none` when it raises. -/
  memory : Option (ℤ × ℤ)
  /-- No other call of `snapshot` raises. -/
  restAnswers : Bool

structure NvidiaMonitor where
  ready : Bool
  /-- `_temp_fields`. -/
  tempFields : TempField → Option ℤ

namespace NvidiaMonitor

/-- The loop of `_field_uint` over the attributes: the first plausible temperature. -/
def firstPlausible : List UnionAttr → Option ℤ
  | [] => none
  | .skipped :: attrs => firstPlausible attrs
  | .failed :: _ => none
  | .int value :: attrs => if 0 < value ∧ value < 150 then some value else firstPlausible attrs

/-- `_field_uint`. -/
def fieldUint (reply : DriverReply) (fieldId : ℤ) : Option ℤ :=
  (reply.fieldValues fieldId).bind firstPlausible

variable (m : NvidiaMonitor) (reply : DriverReply)

/-- `_field_uint(...) or 0` of a field the library knows, `0` of another. -/
def readField (field : TempField) : ℤ :=
  match m.tempFields field with
  | some fieldId => (fieldUint reply fieldId).getD 0
  | none => 0

/-- `max(candidates, key=...)`: the first of the hottest. -/
def hottest (first : String × ℤ) (candidates : List (String × ℤ)) : String × ℤ :=
  candidates.foldl (fun best c => if best.2 < c.2 then c else best) first

/-- The sensors beside the die that answered. -/
def candidates (board hotspot memory : ℤ) : List (String × ℤ) :=
  (if 0 < board then [("board", board)] else [])
    ++ (if 0 < hotspot then [("hotspot", hotspot)] else [])
    ++ (if 0 < memory then [("memory", memory)] else [])

/-- What `_read_all_temps` returns. -/
structure Temps where
  control : ℤ
  die : ℤ
  board : ℤ
  hotspot : ℤ
  memory : ℤ
  source : String
  deriving DecidableEq, Repr

/-- `_read_all_temps` after the readings. -/
def controlTemps (die board hotspot memory : ℤ) : Temps :=
  let best := hottest ("gpu", die) (candidates board hotspot memory)
  { control := best.2
    die := die
    board := board
    hotspot := hotspot
    memory := memory
    source := best.1 }

/-- `_read_all_temps`; `none` when the die reading raises. -/
def readAllTemps : Option Temps :=
  reply.dieTemp.map fun die =>
    controlTemps die (m.readField reply .board) (m.readField reply .hotspot) (m.readField reply .memory)

/-- `snapshot`. -/
def snapshot : Option GpuSnapshot :=
  if m.ready = false ∨ reply.restAnswers = false then none
  else
    match reply.memory, m.readAllTemps reply with
    | some (total, used), some temps => some
      { totalMib := total / (1024 * 1024)
        usedMib := used / (1024 * 1024)
        temperatureC := temps.control
        gpuTempC := temps.die
        boardTempC := temps.board
        hotspotTempC := temps.hotspot
        tempSource := temps.source }
    | _, _ => none

end NvidiaMonitor

end XenMiner
