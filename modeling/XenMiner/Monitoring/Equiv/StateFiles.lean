import XenMiner.Efficiency.Equiv.CudaLanePolicy
import XenMiner.Lib.ExceptList
import XenMiner.Monitoring.StateFiles
import XenMiner.Monitoring.WalletBalances

/-!
# Damaged state files

Each of the four loads guards its conversions with a list of exceptions of its own, and none guards the
first access to the value.  `stateFiles_isOk_iff` says for every content of a file which of them return.

An `int` of a count is guarded but for infinite floats, so whether a later infinite count is reached
depends on the counts before it (`ExceptList.FirstError`).  A `float` of a leaf is not guarded in the
hours and in the balances, where every leaf has to be one that `float` takes.
-/

namespace XenMiner

open ExceptList

/-! ### The lane policy -/

namespace CudaLanePolicy

/-- The lane cap in a file. -/
def effectiveLeaf (value : Json) : Json := Json.getD "effective_max_lanes" (.int 0) value

/-- The number of reductions in a file. -/
def reductionsLeaf (value : Json) : Json := Json.getD "temp_reductions" (.int 0) value

/-- The values `load_lane_policy` returns on. -/
structure ReadableValue (value : Json) : Prop where
  isObj : value.isObj = true
  effective : (effectiveLeaf value).isInfinite = false
  /-- A cap that `int` refuses ends the load before the reductions are read. -/
  reductions : IsOk (effectiveLeaf value).toInt → (reductionsLeaf value).isInfinite = false

/-- The files `load_lane_policy` returns on. -/
def Readable : JsonFile → Prop
  | .absent => True
  | .broken e => e ≠ .recursionError
  | .json value => ReadableValue value

theorem toInt_float (literal : List Char) :
    toInt intOfLiteral (.float literal) = intOfLiteral literal := rfl

theorem intOfLiteral_eq (literal : List Char) :
    intOfLiteral literal = intOfFloat (Json.floatOfLiteral literal) := rfl

theorem intOfFloat_of_ok {x : PyFloat} {n : ℤ} (h : x.toInt = .ok n) : intOfFloat x = .ok n := by
  cases x with
  | finite y => exact congrArg Except.ok (Except.ok.inj h)
  | nan => cases h
  | infinity negative => cases h

theorem intOfFloat_of_error {x : PyFloat} {e : PyError} (h : x.toInt = .error e) :
    ∃ e', intOfFloat x = .error e' ∧ (e'.caught = true ↔ x.isInfinite = false) := by
  cases x with
  | finite y => cases h
  | nan => exact ⟨_, rfl, iff_of_true rfl rfl⟩
  | infinity negative => exact ⟨_, rfl, iff_of_false Bool.false_ne_true Bool.noConfusion⟩

theorem toInt_of_ok {value : Json} {n : ℤ} (h : value.toInt = .ok n) :
    toInt intOfLiteral value = .ok n := by
  cases value with
  | int m => exact congrArg Except.ok (Except.ok.inj h)
  | bool b => exact congrArg Except.ok (Except.ok.inj h)
  | float literal =>
    rw [Json.toInt_float] at h
    rw [toInt_float, intOfLiteral_eq]
    exact intOfFloat_of_ok h
  | str s =>
    rw [Json.toInt_str] at h
    unfold toInt
    dsimp only
    rw [h]
  | null => cases h
  | arr items => cases h
  | obj members => cases h

/-- A conversion that fails, and whether its exception is caught. -/
theorem toInt_of_error {value : Json} {e : PyError} (h : value.toInt = .error e) :
    ∃ e', toInt intOfLiteral value = .error e' ∧ (e'.caught = true ↔ value.isInfinite = false) := by
  cases value with
  | int m => cases h
  | bool b => cases h
  | float literal =>
    rw [Json.toInt_float] at h
    rw [toInt_float, intOfLiteral_eq, Json.isInfinite_float]
    exact intOfFloat_of_error h
  | str s =>
    rw [Json.toInt_str] at h
    unfold toInt
    dsimp only
    rw [h]
    exact ⟨_, rfl, iff_of_true rfl rfl⟩
  | null => exact ⟨_, rfl, iff_of_true rfl rfl⟩
  | arr items => exact ⟨_, rfl, iff_of_true rfl rfl⟩
  | obj members => exact ⟨_, rfl, iff_of_true rfl rfl⟩

theorem guarded_toInt_iff {value : Json} :
    Guarded LoadError.caught (toInt intOfLiteral value) ↔ value.isInfinite = false := by
  cases h : value.toInt with
  | ok n =>
    have hfinite : value.isInfinite = false := by
      rw [← Bool.not_eq_true, ← Json.toInt_overflow_iff, h]
      exact fun h' => by cases h'
    rw [toInt_of_ok h]
    exact iff_of_true (guarded_ok n) hfinite
  | error e =>
    obtain ⟨e', he', hcaught⟩ := toInt_of_error h
    rw [he', guarded_error_iff]
    exact hcaught

theorem isOk_toInt_iff {value : Json} : IsOk (toInt intOfLiteral value) ↔ IsOk value.toInt := by
  cases h : value.toInt with
  | ok n =>
    rw [toInt_of_ok h]
    exact iff_of_true (isOk_ok n) (isOk_ok n)
  | error e =>
    obtain ⟨e', he', -⟩ := toInt_of_error h
    rw [he']
    exact iff_of_false (not_isOk_error e') (not_isOk_error e)

/-- The default of a key does not matter, as long as it is an integer. -/
theorem getD_int (key : String) (m n : ℤ) (value : Json) :
    Json.getD key (.int m) value = Json.getD key (.int n) value ∨
      Json.getD key (.int m) value = .int m ∧ Json.getD key (.int n) value = .int n := by
  unfold Json.getD
  cases value.get key with
  | none => exact Or.inr ⟨rfl, rfl⟩
  | some x => exact Or.inl rfl

theorem readPolicy_of_not_isObj {value : Json} (h : value.isObj ≠ true) (config : ℤ) :
    readPolicy intOfLiteral config value = .error .attributeError := by
  cases value with
  | obj members => exact absurd rfl h
  | null => rfl
  | bool b => rfl
  | int n => rfl
  | float literal => rfl
  | str s => rfl
  | arr items => rfl

theorem guarded_readPolicy_iff {config : ℤ} {value : Json} :
    Guarded LoadError.caught (readPolicy intOfLiteral config value) ↔ ReadableValue value := by
  by_cases hobj : value.isObj = true
  · obtain ⟨members, rfl⟩ := Json.isObj_iff.mp hobj
    have hread : ∃ build : ℤ → ℤ → CudaLanePolicyState, readPolicy intOfLiteral config (.obj members) =
        toInt intOfLiteral (Json.getD "effective_max_lanes" (.int config) (.obj members)) >>=
          fun effective => toInt intOfLiteral (reductionsLeaf (.obj members)) >>=
            fun reductions => .ok (build effective reductions) := ⟨_, rfl⟩
    obtain ⟨build, hread⟩ := hread
    have hreductions : ∀ effective, Guarded LoadError.caught
        (toInt intOfLiteral (reductionsLeaf (.obj members)) >>=
          fun reductions => .ok (build effective reductions)) ↔
        (reductionsLeaf (.obj members)).isInfinite = false := by
      intro effective
      rw [guarded_bind_of_isOk fun _ => isOk_ok _, guarded_toInt_iff]
    -- the cap has another default here
    have hdefault : (Json.getD "effective_max_lanes" (.int config) (.obj members)).isInfinite =
          (effectiveLeaf (.obj members)).isInfinite ∧
        (IsOk (Json.getD "effective_max_lanes" (.int config) (.obj members)).toInt ↔
          IsOk (effectiveLeaf (.obj members)).toInt) := by
      unfold effectiveLeaf
      rcases getD_int "effective_max_lanes" config 0 (.obj members) with heq | ⟨hconfig, hzero⟩
      · rw [heq]
        exact ⟨rfl, Iff.rfl⟩
      · rw [hconfig, hzero]
        exact ⟨rfl, iff_of_true ⟨_, rfl⟩ ⟨_, rfl⟩⟩
    rw [hread, guarded_bind_iff, guarded_toInt_iff, hdefault.1]
    simp only [hreductions]
    constructor
    · rintro ⟨heffective, himp⟩
      refine ⟨rfl, heffective, fun hok => ?_⟩
      obtain ⟨n, hn⟩ := isOk_toInt_iff.mpr (hdefault.2.mpr hok)
      exact himp n hn
    · rintro ⟨-, heffective, himp⟩
      exact ⟨heffective, fun n hn => himp (hdefault.2.mp (isOk_toInt_iff.mp ⟨n, hn⟩))⟩
  · rw [readPolicy_of_not_isObj hobj, guarded_error_iff]
    exact iff_of_false Bool.false_ne_true fun h => hobj h.isObj

theorem load_json_isOk_iff {value : Json} {configMaxLanes : ℤ} :
    IsOk (load (.json value) configMaxLanes) ↔ ReadableValue value := by
  have hguarded : Guarded LoadError.caught (readPolicy intOfLiteral (max 1 configMaxLanes) value) ↔
    ReadableValue value := guarded_readPolicy_iff
  rw [← hguarded]
  unfold load policyFile loadLanePolicy
  dsimp only
  cases readPolicy intOfLiteral (max 1 configMaxLanes) value with
  | ok policy => exact iff_of_true (isOk_ok policy) (guarded_ok policy)
  | error e =>
    rw [guarded_error_iff]
    dsimp only
    split_ifs with hcaught
    · exact iff_of_true (isOk_ok _) hcaught
    · exact iff_of_false (not_isOk_error e) hcaught

/-- `load_lane_policy` returns exactly on the files of `Readable`. -/
theorem load_isOk_iff {file : JsonFile} {configMaxLanes : ℤ} :
    IsOk (load file configMaxLanes) ↔ Readable file := by
  cases file with
  | absent => exact iff_of_true ⟨_, rfl⟩ trivial
  | broken e =>
    cases e with
    | recursionError => exact iff_of_false (not_isOk_error _) fun h => h rfl
    | osError => exact iff_of_true ⟨_, rfl⟩ (by simp [Readable])
    | jsonDecodeError => exact iff_of_true ⟨_, rfl⟩ (by simp [Readable])
    | valueError => exact iff_of_true ⟨_, rfl⟩ (by simp [Readable])
  | json value => exact load_json_isOk_iff

end CudaLanePolicy

/-! ### Local statistics -/

namespace LocalStats

/-- The days in a file. -/
def daysOf (value : Json) : List (String × Json) :=
  match Json.getD "days" (.obj []) value with
  | .obj days => objectItems days
  | _ => []

/-- The counts of all days. -/
def leaves (value : Json) : List Json := (daysOf value).flatMap fun x => countLeaves x.2

/-- The values `LocalMiningStatsTracker._load` returns on: no count is infinite, unless one before it
is refused. -/
structure ReadableValue (value : Json) : Prop where
  isObj : value.isObj = true
  counts : ¬ FirstError Json.toInt (leaves value) .overflowError

/-- The files `LocalMiningStatsTracker._load` returns on. -/
def Readable : JsonFile → Prop
  | .absent => True
  | .broken e => e ≠ .recursionError
  | .json value => ReadableValue value

theorem readDays_obj (members : List (String × Json)) :
    readDays (.json (.obj members)) = (daysOf (.obj members)).mapM readDay := by
  unfold readDays daysOf
  dsimp only
  cases Json.getD "days" (.obj []) (.obj members) <;> rfl

theorem readDays_of_not_isObj {value : Json} (h : value.isObj ≠ true) :
    readDays (.json value) = .error .attributeError := by
  cases value with
  | obj members => exact absurd rfl h
  | null => rfl
  | bool b => rfl
  | int n => rfl
  | float literal => rfl
  | str s => rfl
  | arr items => rfl

/-- The exceptions of `int` are caught but for one. -/
theorem caughtByLoad_of_toInt {leaf : Json} {e : PyError} (h : leaf.toInt = .error e) :
    caughtByLoad e = true ↔ e ≠ .overflowError := by
  rcases Json.toInt_error h with rfl | rfl | hinf
  · decide
  · decide
  · rw [Json.toInt_overflow_iff.mpr hinf] at h
    rw [← Except.error.inj h]
    decide

theorem guarded_readDays_iff {value : Json} :
    Guarded caughtByLoad (readDays (.json value)) ↔ ReadableValue value := by
  by_cases hobj : value.isObj = true
  · obtain ⟨members, rfl⟩ := Json.isObj_iff.mp hobj
    have hfirst : ∀ e, FirstError readDay (daysOf (.obj members)) e ↔
        FirstError Json.toInt (leaves (.obj members)) e := fun e =>
      firstError_flatMap
        (h := fun (x : String × Json) (counts : List ℤ) => .ok (x.1, blockKinds.zip counts))
        fun _ _ => isOk_ok _
    rw [readDays_obj, guarded_mapM_iff]
    simp only [hfirst]
    constructor
    · exact fun h => ⟨rfl, fun hover => (by cases h _ hover)⟩
    · intro h e he
      obtain ⟨-, leaf, -, -, -, hleaf⟩ := id he
      refine (caughtByLoad_of_toInt hleaf).mpr ?_
      rintro rfl
      exact h.counts he
  · rw [readDays_of_not_isObj hobj, guarded_error_iff]
    exact iff_of_false (by decide) fun h => hobj h.isObj

theorem load_isOk_iff_guarded {file : JsonFile} :
    IsOk (load file) ↔ Guarded caughtByLoad (readDays file) := by
  unfold load
  cases readDays file with
  | ok days => exact iff_of_true (isOk_ok days) (guarded_ok days)
  | error e =>
    rw [guarded_error_iff]
    dsimp only
    split_ifs with hcaught
    · exact iff_of_true (isOk_ok _) hcaught
    · exact iff_of_false (not_isOk_error e) hcaught

theorem load_isOk_iff {file : JsonFile} : IsOk (load file) ↔ Readable file := by
  rw [load_isOk_iff_guarded]
  cases file with
  | absent => exact iff_of_true (guarded_ok _) trivial
  | broken e =>
    show Guarded caughtByLoad (.error e.toPyError) ↔ e ≠ .recursionError
    rw [guarded_error_iff]
    cases e <;> decide
  | json value => exact guarded_readDays_iff

end LocalStats

/-! ### Server uptime -/

namespace ServerUptime

/-- The hours in a file. -/
def hoursOf (value : Json) : List (String × Json) :=
  match Json.getD "hourly" (.obj []) value with
  | .obj hours => objectItems hours
  | _ => []

/-- What `float` is called on for an hour. -/
def bucketLeaves (bucket : Json) : List Json :=
  [Json.getD "online_s" (.int 0) bucket, Json.getD "offline_s" (.int 0) bucket]

/-- An integer too large for a float. -/
def TooLarge (leaf : Option Json) : Prop := ∃ n : ℤ, leaf = some (.int n) ∧ ¬ PyFloat.Fits n

/-- The values `ServerUptimeTracker._load` returns on. -/
structure ReadableValue (value : Json) : Prop where
  isObj : value.isObj = true
  buckets : ∀ x ∈ hoursOf value, ∀ leaf ∈ bucketLeaves x.2, IsOk leaf.toFloat
  lastProbeAt : ¬ TooLarge (value.get "last_probe_at")
  outageStart : ¬ TooLarge (value.get "outage_start")

/-- The files `ServerUptimeTracker._load` returns on. -/
def Readable : JsonFile → Prop
  | .absent => True
  | .broken e => e = .osError ∨ e = .jsonDecodeError
  | .json value => ReadableValue value

theorem readBucket_isOk_iff {x : String × Json} :
    IsOk (readBucket x) ↔ ∀ leaf ∈ bucketLeaves x.2, IsOk leaf.toFloat := by
  unfold readBucket bucketLeaves
  rw [List.forall_mem_cons, List.forall_mem_singleton, isOk_bind_iff]
  constructor
  · rintro ⟨online, honline, hrest⟩
    exact ⟨⟨online, honline⟩, (isOk_bind_of_isOk fun _ => isOk_ok _).mp hrest⟩
  · rintro ⟨⟨online, honline⟩, hoffline⟩
    exact ⟨online, honline, (isOk_bind_of_isOk fun _ => isOk_ok _).mpr hoffline⟩

theorem readHourly_isOk_iff {value : Json} :
    IsOk (readHourly (Json.getD "hourly" (.obj []) value)) ↔
      ∀ x ∈ hoursOf value, ∀ leaf ∈ bucketLeaves x.2, IsOk leaf.toFloat := by
  have hread : readHourly (Json.getD "hourly" (.obj []) value) = (hoursOf value).mapM readBucket := by
    unfold hoursOf
    cases Json.getD "hourly" (.obj []) value <;> rfl
  rw [hread, mapM_isOk_iff]
  exact forall₂_congr fun x _ => readBucket_isOk_iff

theorem readTimestamp_isOk_iff {leaf : Option Json} : IsOk (readTimestamp leaf) ↔ ¬ TooLarge leaf := by
  unfold readTimestamp
  split
  · exact iff_of_true (isOk_ok _) fun h => by obtain ⟨n, hn, -⟩ := h; cases hn
  · exact iff_of_true (isOk_ok _) fun h => by obtain ⟨n, hn, -⟩ := h; cases hn
  next value _ =>
    cases hfloat : value.toFloat with
    | ok ts =>
      refine iff_of_true (isOk_ok _) ?_
      rintro ⟨n, hn, hlarge⟩
      rw [Option.some.inj hn, Json.toFloat_int_of_not_fits hlarge] at hfloat
      cases hfloat
    | error e =>
      dsimp only
      split_ifs with hcaught
      · refine iff_of_true (isOk_ok _) ?_
        rintro ⟨n, hn, hlarge⟩
        rw [Option.some.inj hn, Json.toFloat_int_of_not_fits hlarge] at hfloat
        rw [← Except.error.inj hfloat] at hcaught
        exact absurd hcaught (by decide)
      · refine iff_of_false (not_isOk_error e) (not_not_intro ?_)
        rcases Json.toFloat_error hfloat with rfl | rfl | ⟨-, n, rfl, hlarge⟩
        · exact absurd (by decide) hcaught
        · exact absurd (by decide) hcaught
        · exact ⟨n, rfl, hlarge⟩

theorem load_json_isOk_iff {value : Json} : IsOk (load (.json value)) ↔ ReadableValue value := by
  by_cases hobj : value.isObj = true
  · obtain ⟨members, rfl⟩ := Json.isObj_iff.mp hobj
    have hload : ∃ build : List (String × PyFloat × PyFloat) → Option PyFloat → Option PyFloat →
        SavedUptime, load (.json (.obj members)) =
          readHourly (Json.getD "hourly" (.obj []) (.obj members)) >>= fun hourly =>
            readTimestamp ((Json.obj members).get "last_probe_at") >>= fun lastProbeAt =>
              readTimestamp ((Json.obj members).get "outage_start") >>= fun outageStart =>
                .ok (build hourly lastProbeAt outageStart) := ⟨_, rfl⟩
    obtain ⟨build, hload⟩ := hload
    rw [hload]
    constructor
    · intro h
      obtain ⟨hourly, hhourly, hrest⟩ := isOk_bind_iff.mp h
      obtain ⟨probe, hprobe, hlast⟩ := isOk_bind_iff.mp hrest
      exact ⟨rfl, readHourly_isOk_iff.mp ⟨hourly, hhourly⟩, readTimestamp_isOk_iff.mp ⟨probe, hprobe⟩,
        readTimestamp_isOk_iff.mp ((isOk_bind_of_isOk fun _ => isOk_ok _).mp hlast)⟩
    · intro h
      obtain ⟨hourly, hhourly⟩ := readHourly_isOk_iff.mpr h.buckets
      obtain ⟨probe, hprobe⟩ := readTimestamp_isOk_iff.mpr h.lastProbeAt
      obtain ⟨start, hstart⟩ := readTimestamp_isOk_iff.mpr h.outageStart
      rw [hhourly, hprobe, hstart]
      exact isOk_ok _
  · have hload : load (.json value) = .error .attributeError := by
      cases value with
      | obj members => exact absurd rfl hobj
      | null => rfl
      | bool b => rfl
      | int n => rfl
      | float literal => rfl
      | str s => rfl
      | arr items => rfl
    rw [hload]
    exact iff_of_false (not_isOk_error _) fun h => hobj h.isObj

theorem load_isOk_iff {file : JsonFile} : IsOk (load file) ↔ Readable file := by
  cases file with
  | absent => exact iff_of_true ⟨_, rfl⟩ trivial
  | broken e =>
    unfold load
    dsimp only
    split_ifs with hcaught
    · exact iff_of_true (isOk_ok _) hcaught
    · exact iff_of_false (not_isOk_error _) hcaught
  | json value => exact load_json_isOk_iff

end ServerUptime

/-! ### Wallet balances -/

namespace WalletBalances

/-- The snapshots in a file. -/
def snapshotsOf (value : Json) : List (String × Json) :=
  match value.get "snapshots" with
  | some (.obj days) => PyDict.ofPairs days
  | _ => []

/-- The entry of a day, if it is an object. -/
def dayEntry (days : List (String × Json)) (day : String) : Option Json :=
  (PyDict.get day days).filter Json.isObj

/-- The entry of the last day. -/
def lastEntry : List (String × Json) → Option Json
  | [] => none
  | x :: rest => dayEntry (x :: rest) (rest.foldl (fun day y => if day < y.1 then y.1 else day) x.1)

/-- The entry that is shown: today's, else that of the last day. -/
def seedEntry (today : String) (days : List (String × Json)) : Option Json :=
  (dayEntry days today).or (lastEntry days)

/-- What `float` is called on for a snapshot. -/
def balanceLeaves (entry : Json) : List Json :=
  ["xnm", "xuni", "xblk"].map fun key => Json.getD key (.int 0) entry

/-- The values `_load_history` and `_seed_from_history` return on. -/
structure ReadableValue (today : String) (value : Json) : Prop where
  isObj : value.isObj = true
  balances : ∀ entry ∈ seedEntry today (snapshotsOf value), ∀ leaf ∈ balanceLeaves entry,
    IsOk leaf.toFloat

/-- The files `_load_history` and `_seed_from_history` return on. -/
def Readable (today : String) : JsonFile → Prop
  | .absent => True
  | .broken e => e = .osError ∨ e = .jsonDecodeError
  | .json value => ReadableValue today value

/-- The history of what a file holds. -/
def historyOf (days : List (String × Json)) : History := days.map fun x => (x.1, .loaded x.2)

/-- The balances of an entry, if there is one. -/
def readEntry (entry : Option Json) : Except PyError (Option TokenBalances) :=
  entry.elim (.ok none) fun raw => (balancesFromDict raw).map some

theorem elim_toFloat_isOk_iff (entry : Json) (key : String) :
    IsOk ((entry.get key).elim (.ok (.finite 0)) Json.toFloat) ↔
      IsOk (Json.getD key (.int 0) entry).toFloat := by
  unfold Json.getD
  cases entry.get key with
  | none =>
    have hzero : (Json.int 0).toFloat = .ok (.finite (0 : ℤ)) :=
      PyFloat.ofInt_of_fits (PyFloat.fits_of_le_one (by norm_num))
    exact iff_of_true (isOk_ok _) ⟨_, hzero⟩
  | some leaf => exact Iff.rfl

theorem balancesFromDict_isOk_iff {entry : Json} :
    IsOk (balancesFromDict entry) ↔ ∀ leaf ∈ balanceLeaves entry, IsOk leaf.toFloat := by
  unfold balancesFromDict balanceLeaves
  rw [List.map_cons, List.map_cons, List.map_cons, List.map_nil, List.forall_mem_cons,
    List.forall_mem_cons, List.forall_mem_singleton, ← elim_toFloat_isOk_iff, ← elim_toFloat_isOk_iff,
    ← elim_toFloat_isOk_iff]
  constructor
  · intro h
    obtain ⟨xnm, hxnm, hrest⟩ := isOk_bind_iff.mp h
    obtain ⟨xuni, hxuni, hlast⟩ := isOk_bind_iff.mp hrest
    exact ⟨⟨xnm, hxnm⟩, ⟨xuni, hxuni⟩, (isOk_bind_of_isOk fun _ => isOk_ok _).mp hlast⟩
  · rintro ⟨⟨xnm, hxnm⟩, ⟨xuni, hxuni⟩, ⟨xblk, hxblk⟩⟩
    rw [hxnm, hxuni, hxblk]
    exact isOk_ok _

theorem readEntry_isOk_iff {entry : Option Json} :
    IsOk (readEntry entry) ↔ ∀ raw ∈ entry, ∀ leaf ∈ balanceLeaves raw, IsOk leaf.toFloat := by
  cases entry with
  | none => exact iff_of_true (isOk_ok _) fun _ h => by cases h
  | some raw =>
    show IsOk ((balancesFromDict raw).map some) ↔ _
    rw [isOk_map_iff, balancesFromDict_isOk_iff]
    simp

theorem snapshotForDay_historyOf (days : List (String × Json)) (day : String) :
    snapshotForDay (historyOf days) day = readEntry (dayEntry days day) := by
  have hget : PyDict.get day (historyOf days) = (PyDict.get day days).map Entry.loaded :=
    PyDict.get_map _ day days
  unfold snapshotForDay dayEntry
  rw [hget]
  cases PyDict.get day days with
  | none => rfl
  | some raw => cases raw <;> rfl

theorem latestSnapshot_historyOf (days : List (String × Json)) :
    latestSnapshot (historyOf days) = readEntry (lastEntry days) := by
  cases days with
  | nil => rfl
  | cons x rest =>
    have hlast : latestSnapshot (historyOf (x :: rest)) = snapshotForDay (historyOf (x :: rest))
        ((rest.map fun y => (y.1, Entry.loaded y.2)).foldl
          (fun day y => if day < y.1 then y.1 else day) x.1) := rfl
    rw [hlast, List.foldl_map, snapshotForDay_historyOf]
    rfl

/-- The seed is read from `seedEntry`. -/
theorem seedFromHistory_isOk_iff {days : List (String × Json)} {today : String} (s : Tracker)
    (hhistory : s.history = historyOf days) :
    IsOk (s.seedFromHistory today) ↔ IsOk (readEntry (seedEntry today days)) := by
  unfold Tracker.seedFromHistory seedEntry
  rw [hhistory, snapshotForDay_historyOf, latestSnapshot_historyOf]
  cases dayEntry days today with
  | none =>
    rw [Option.none_or]
    show IsOk (readEntry (lastEntry days) >>= _) ↔ _
    refine isOk_bind_of_isOk fun snap => ?_
    cases snap <;> exact isOk_ok _
  | some raw =>
    show IsOk ((balancesFromDict raw).map some >>= _) ↔ IsOk ((balancesFromDict raw).map some)
    cases balancesFromDict raw with
    | ok balances => exact iff_of_true (isOk_ok _) (isOk_ok _)
    | error e => exact iff_of_false (not_isOk_error e) (not_isOk_error e)

theorem loadHistory_obj (members : List (String × Json)) :
    loadHistory (.json (.obj members)) = .ok (historyOf (snapshotsOf (.obj members))) := by
  unfold loadHistory snapshotsOf
  dsimp only
  cases (Json.obj members).get "snapshots" with
  | none => rfl
  | some value => cases value <;> rfl

/-- Without a history there is nothing to show. -/
theorem seedFromHistory_nil (s : Tracker) (today : String) :
    IsOk (({ s with history := [], savedHistory := some [] } : Tracker).seedFromHistory today) :=
  ⟨_, rfl⟩

theorem load_json_isOk_iff {value : Json} {today : String} (s : Tracker) :
    IsOk (s.load (.json value) today) ↔ ReadableValue today value := by
  by_cases hobj : value.isObj = true
  · obtain ⟨members, rfl⟩ := Json.isObj_iff.mp hobj
    unfold Tracker.load
    rw [loadHistory_obj]
    show IsOk (Tracker.seedFromHistory _ today) ↔ _
    rw [seedFromHistory_isOk_iff _ rfl, readEntry_isOk_iff]
    exact ⟨fun h => ⟨rfl, h⟩, fun h => h.balances⟩
  · have hload : s.load (.json value) today = .error .attributeError := by
      cases value with
      | obj members => exact absurd rfl hobj
      | null => rfl
      | bool b => rfl
      | int n => rfl
      | float literal => rfl
      | str s => rfl
      | arr items => rfl
    rw [hload]
    exact iff_of_false (not_isOk_error _) fun h => hobj h.isObj

theorem load_isOk_iff {file : JsonFile} {today : String} (s : Tracker) :
    IsOk (s.load file today) ↔ Readable today file := by
  cases file with
  | absent => exact iff_of_true (seedFromHistory_nil s today) trivial
  | broken e =>
    unfold Tracker.load loadHistory
    dsimp only
    split_ifs with hcaught
    · exact iff_of_true (seedFromHistory_nil s today) hcaught
    · exact iff_of_false (not_isOk_error _) hcaught
  | json value => exact load_json_isOk_iff s

end WalletBalances

/-! ### All four -/

/-- **Which state files stop the start**, and the lane cap of those that do not. -/
theorem stateFiles_isOk_iff (file : JsonFile) (configMaxLanes : ℤ) (tracker : WalletBalances.Tracker)
    (today : String) :
    ((IsOk (CudaLanePolicy.load file configMaxLanes) ↔ CudaLanePolicy.Readable file) ∧
      ∀ policy, CudaLanePolicy.load file configMaxLanes = .ok policy →
        1 ≤ policy.effectiveMaxLanes ∧ policy.effectiveMaxLanes ≤ max 1 configMaxLanes) ∧
      (IsOk (LocalStats.load file) ↔ LocalStats.Readable file) ∧
      (IsOk (ServerUptime.load file) ↔ ServerUptime.Readable file) ∧
      (IsOk (tracker.load file today) ↔ WalletBalances.Readable today file) := by
  refine ⟨⟨CudaLanePolicy.load_isOk_iff, fun policy h => ?_⟩, LocalStats.load_isOk_iff,
    ServerUptime.load_isOk_iff, WalletBalances.load_isOk_iff tracker⟩
  obtain ⟨hloadable, -⟩ := CudaLanePolicy.loadLanePolicy_eq_ok CudaLanePolicy.intOfLiteral h
  exact ⟨hloadable.pos, hloadable.config ▸ hloadable.le⟩

/-- A list in the file stops all four loads. -/
theorem stateFiles_fail :
    CudaLanePolicy.load (.json (.arr [])) 4 = .error .attributeError ∧
      LocalStats.load (.json (.arr [])) = .error .attributeError ∧
      ServerUptime.load (.json (.arr [])) = .error .attributeError ∧
      ∀ tracker : WalletBalances.Tracker,
        tracker.load (.json (.arr [])) "2026-01-01" = .error .attributeError :=
  ⟨rfl, rfl, rfl, fun _ => rfl⟩

end XenMiner
