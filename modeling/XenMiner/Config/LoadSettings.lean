import XenMiner.Config.WalletSetup
import XenMiner.Lib.ConfigParser
import XenMiner.Lib.PyInt

/-!
# `config/settings.py`: `load_settings`

`readings` lists the options `load_settings` reads next to those that name the rig, with the
conversions that can raise; the settings keep the texts of the options that are set.  A start is
`_ensure_worker_id` and then `load_settings`; it is `none` when it raises.
-/

namespace XenMiner.LoadSettings

open PyText ConfigParser WalletSetup

/-! ### Conversions -/

/-- What follows a digit: more digits, with single underscores between them. -/
def moreDigits : Text → Text
  | [] => []
  | '_' :: c :: cs => if (PyStr.digitValue c).isSome then moreDigits cs else '_' :: c :: cs
  | c :: cs => if (PyStr.digitValue c).isSome then moreDigits cs else c :: cs

/-- What follows the digits a text starts with. -/
def digitPart : Text → Option Text
  | [] => none
  | c :: cs => if (PyStr.digitValue c).isSome then some (moreDigits cs) else none

/-- A text without its sign. -/
def unsigned : Text → Text
  | '+' :: cs => cs
  | '-' :: cs => cs
  | cs => cs

/-- The digits of a float, and what follows. -/
def mantissa (s : Text) : Option Text :=
  match digitPart s with
  | some ('.' :: rest) => some ((digitPart rest).getD rest)
  | some rest => some rest
  | none =>
    match s with
    | '.' :: rest => digitPart rest
    | _ => none

/-- `float(s)` raises nothing. -/
def isFloat (s : Text) : Bool :=
  let s := unsigned (lower (strip s))
  if s ∈ ["nan".toList, "inf".toList, "infinity".toList] then true
  else
    match mantissa s with
    | some [] => true
    | some ('e' :: rest) => digitPart (unsigned rest) = some []
    | _ => false

/-- `BOOLEAN_STATES`. -/
def booleanStates : List Text :=
  ["1", "yes", "true", "on", "0", "no", "false", "off"].map String.toList

inductive Kind
  | text
  | int
  | float
  | boolean
  deriving DecidableEq, Repr

/-- The conversion raises nothing. -/
def Kind.accepts : Kind → Text → Bool
  | .text, _ => true
  | .int, s => (PyStr.parseInt (String.ofList s)).isSome
  | .float, s => isFloat s
  | .boolean, s => lower s ∈ booleanStates

/-! ### Readings -/

/-- An option and where it is looked for; the first place that has it counts. -/
structure Reading where
  kind : Kind
  places : List (Text × Text)

def reading (kind : Kind) (sect key : String) : Reading where
  kind := kind
  places := [(sect.toList, key.toList)]

/-- `cuda.get(key, section.get(fallbackKey, ...))`. -/
def cudaReading (kind : Kind) (key sect fallbackKey : String) : Reading where
  kind := kind
  places := [("cuda".toList, key.toList), (sect.toList, fallbackKey.toList)]

/-- The options `load_settings` reads. -/
def readings : List Reading :=
  [reading .text "gpu" "xenblocks_exe",
    reading .text "cuda" "dll_path",
    reading .text "account" "address",
    reading .text "server" "base_url",
    reading .int "server" "connection_timeout_s",
    reading .int "server" "network_poll_interval_s",
    reading .int "server" "network_poll_timeout_s",
    reading .int "server" "network_down_poll_interval_s",
    reading .text "mining" "backend",
    reading .text "mining" "strategy",
    reading .int "mining" "memory_cost",
    reading .int "mining" "time_cost",
    reading .int "mining" "parallelism",
    reading .int "mining" "hash_len",
    reading .float "efficiency" "target_vram_pct",
    reading .float "efficiency" "desktop_headroom_pct",
    reading .float "efficiency" "emergency_vram_pct",
    reading .float "efficiency" "min_headroom_pct",
    cudaReading .float "runtime_overhead_pct" "efficiency" "runtime_overhead_pct",
    reading .int "efficiency" "min_headroom_floor_mib",
    cudaReading .int "runtime_overhead_floor_mib" "efficiency" "runtime_overhead_floor_mib",
    reading .int "efficiency" "target_vram_mib",
    reading .int "efficiency" "headroom_mib",
    reading .int "efficiency" "emergency_vram_mib",
    reading .int "efficiency" "min_headroom_mib",
    reading .text "efficiency" "vram_account_desktop",
    reading .int "efficiency" "vram_safety_margin_mib",
    reading .text "efficiency" "vram_soft_derate_enabled",
    reading .float "efficiency" "vram_soft_min_scale",
    reading .text "efficiency" "vram_soft_lane_enabled",
    reading .int "efficiency" "max_gpu_temp_c",
    reading .int "efficiency" "warn_gpu_temp_c",
    reading .int "efficiency" "max_board_temp_c",
    reading .int "efficiency" "warn_board_temp_c",
    reading .int "efficiency" "gpu_cooldown_s",
    reading .boolean "efficiency" "gpu_power_boost_enabled",
    reading .int "efficiency" "gpu_power_target_pct",
    reading .int "efficiency" "gpu_power_min_pct",
    reading .boolean "efficiency" "gpu_difficulty_power_enabled",
    reading .float "efficiency" "gpu_difficulty_power_full_ratio",
    reading .text "efficiency" "clock_curve_enabled",
    reading .int "efficiency" "clock_low_difficulty",
    reading .float "efficiency" "clock_batch_fill_low",
    reading .float "efficiency" "clock_batch_fill_ref",
    reading .float "efficiency" "clock_batch_fill_high",
    reading .boolean "efficiency" "gpu_thermal_batch_enabled",
    reading .float "efficiency" "gpu_thermal_batch_min_scale",
    reading .boolean "efficiency" "gpu_thermal_lane_enabled",
    reading .int "efficiency" "gpu_thermal_lane_min",
    reading .boolean "efficiency" "gpu_difficulty_lane_bias",
    reading .float "efficiency" "gpu_difficulty_lane_full_pack_ratio",
    reading .boolean "efficiency" "gpu_high_diff_temp_enabled",
    reading .float "efficiency" "gpu_high_diff_temp_start_ratio",
    reading .float "efficiency" "gpu_high_diff_temp_full_ratio",
    reading .int "efficiency" "gpu_high_diff_temp_max_tighten_c",
    reading .boolean "efficiency" "gpu_windows_performance_mode",
    reading .text "monitoring" "temp_watch_path",
    reading .int "efficiency" "cpu_lanes",
    reading .int "efficiency" "lane_ramp_step",
    reading .int "efficiency" "sample_interval_s",
    reading .text "queue" "db_path",
    reading .text "queue" "jsonl_path",
    reading .text "queue" "rejected_jsonl_path",
    reading .text "monitoring" "log_path",
    reading .text "monitoring" "timelapse_path",
    reading .int "monitoring" "stats_interval_s",
    reading .int "monitoring" "timelapse_sample_s",
    reading .boolean "monitoring" "dashboard_enabled",
    reading .text "monitoring" "wallet_rpc_url",
    reading .boolean "monitoring" "woodyminer_enabled",
    reading .text "monitoring" "woodyminer_upload_url",
    reading .int "monitoring" "woodyminer_upload_period_s",
    reading .boolean "monitoring" "xenblockscan_enabled",
    reading .text "monitoring" "xenblockscan_endpoint",
    reading .text "monitoring" "xenblockscan_api_key",
    reading .boolean "monitoring" "xenblockscan_report_rejects",
    reading .int "monitoring" "xenblockscan_holdings_interval_s",
    reading .boolean "monitoring" "xenblockscan_backfill",
    reading .text "gpu" "xenblocks_db",
    reading .boolean "gpu" "enabled",
    reading .int "cuda" "batch_size",
    reading .int "cuda" "max_batch_size",
    cudaReading .int "runtime_overhead_mib" "efficiency" "cuda_runtime_overhead_mib",
    cudaReading .int "vram_reference_difficulty" "mining" "memory_cost",
    reading .int "cuda" "max_lanes",
    reading .int "cuda" "lane_reserve",
    cudaReading .text "lane_pack_mode" "efficiency" "lane_pack_mode",
    cudaReading .int "min_batch_per_lane" "efficiency" "min_batch_per_lane",
    reading .text "cuda" "allow_dll_lane_copies",
    reading .float "queue" "submit_cpu_fraction"]

/-- The sections `load_settings` asks for; `cuda` may be missing. -/
def requiredSections : List Text :=
  ["account", "server", "mining", "efficiency", "queue", "monitoring", "gpu"].map String.toList

/-- `section.get(key)`; a section that is missing is `{}`. -/
def lookup (c : Config) (place : Text × Text) : Option (Option Text) :=
  if c.hasSection place.1 then c.get place.1 place.2 else some none

/-- The text of an option that is set, converted without an exception. -/
def read (c : Config) (r : Reading) : Option (Option Text) := do
  let found ← r.places.mapM (lookup c)
  match found.reduceOption.head? with
  | none => some none
  | some value => if r.kind.accepts value then some (some value) else none

/-! ### The settings -/

def trackerId : Text := "tracker_id".toList

def xenblockscanTrackerId : Text := "xenblockscan_tracker_id".toList

/-- The settings: the names of the rig, and the texts of the other options. -/
structure Loaded where
  worker : Text
  woodyminerCustomName : Text
  trackerId : Text
  others : List (Option Text)
  deriving DecidableEq, Repr

/-- `a or b`. -/
def orElse (a b : Text) : Text := if a = [] then b else a

/-- The id `_ensure_tracker_id` finds; empty if there is none. -/
def existingTrackerId (c : Config) : Option Text := do
  let own ← c.get monitoring trackerId
  if own.getD [] ≠ [] then some (strip (own.getD []))
  else
    let other ← c.get monitoring xenblockscanTrackerId
    some (strip (other.getD []))

def newTrackerId (uuid : Uuid) : Text := "xbs-".toList ++ uuid.hex.take 16

/-- `_ensure_tracker_id`, with the file it leaves. -/
def ensureTrackerId (uuid : Uuid) (file : Text) (c : Config) : Option (Text × Text) := do
  let existing ← existingTrackerId c
  if existing ≠ [] then some (existing, file)
  else some (newTrackerId uuid, setIniValue file monitoring trackerId (newTrackerId uuid))

/-- What `load_settings` reads, but for the tracker id. -/
def readSettings (c : Config) : Option (Text × Text × List (Option Text)) := do
  if requiredSections.all c.hasSection then
    let others ← readings.mapM (read c)
    let workerName ← c.get account worker
    let custom ← c.get monitoring woodyminerCustomName
    let workerName := strip (workerName.getD [])
    some (workerName, orElse (strip (custom.getD [])) workerName, others)
  else none

/-- `load_settings`, with the file it leaves. -/
def loadSettings (uuid : Uuid) (file : Text) : Option (Loaded × Text) := do
  let c ← parse (fileLines file)
  let (workerName, custom, others) ← readSettings c
  let (id, file) ← ensureTrackerId uuid file c
  some ({ worker := workerName, woodyminerCustomName := custom, trackerId := id, others := others },
    file)

/-! ### Starts -/

/-- What a start draws. -/
structure Draws where
  name : Uuid
  tracker : Uuid

/-- What a start returns: the name of `_ensure_worker_id`, and the settings. -/
structure Started where
  name : Text
  settings : Loaded
  deriving DecidableEq, Repr

/-- One start, with the file it leaves. -/
def start (draws : Draws) (file : Text) : Option (Started × Text) := do
  let (file, name) := ensureWorkerId draws.name file
  let (settings, file) ← loadSettings draws.tracker file
  some ({ name := name, settings := settings }, file)

/-- Successive starts: what each returns, and the file it leaves. -/
def starts : Text → List Draws → Option (List (Started × Text))
  | _, [] => some []
  | file, draws :: rest => do
    let (started, file) ← start draws file
    let later ← starts file rest
    some ((started, file) :: later)

end XenMiner.LoadSettings
