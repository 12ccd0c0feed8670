import XenMiner.Config.LoadSettings
import XenMiner.Config.Equiv.WalletSetup

/-!
# The rig keeps its identity

A file is `Ready` when every option the first start writes can be written where both readers look for
it.  That start then gives the rig its names and its tracker id for good: it leaves a file that is
`Named` and has an id, every later start reads them and writes nothing, and so all starts return the
same (`stable_of_ready`).

What a write changes for the parser is `Updates`; the options `load_settings` reads besides are in
`readings`, and none of them is one that is written.
-/

namespace XenMiner.LoadSettings

open PyText ConfigParser WalletSetup
open IniEdit (keyLetters)

variable {file name : Text} {c d : Config} {w custom : Option Text} {id : Text}
  {others : List (Option Text)}

/-! ### The keys and the values that are written -/

theorem iniKey_of_all {key : Text} (hne : key ≠ []) (h : key.all (· ∈ keyLetters) = true) :
    IniKey key :=
  ⟨hne, forall_mem_of_all h⟩

theorem iniKey_worker : IniKey worker := iniKey_of_all (by decide) (by decide)

theorem iniKey_woodyminerCustomName : IniKey woodyminerCustomName :=
  iniKey_of_all (by decide) (by decide)

theorem iniKey_trackerId : IniKey trackerId := iniKey_of_all (by decide) (by decide)

theorem worker_ne_custom : worker ≠ woodyminerCustomName := by decide

theorem worker_ne_trackerId : worker ≠ trackerId := by decide

theorem custom_ne_trackerId : woodyminerCustomName ≠ trackerId := by decide

theorem custom_ne_xenblockscanTrackerId : woodyminerCustomName ≠ xenblockscanTrackerId := by
  decide

theorem account_ne_monitoring : account ≠ monitoring := by decide

theorem account_ne_defaultSection : account ≠ defaultSection := by decide

theorem monitoring_ne_defaultSection : monitoring ≠ defaultSection := by decide

/-- A character of a name the program makes up. -/
def isPlain (c : Char) : Bool := !PyStr.isSpace c && !isLineBreak c && c ≠ '%'

theorem iniValue_of_plain {value : Text} (hne : value ≠ []) (h : ∀ c ∈ value, isPlain c = true) :
    IniValue value := by
  have hplain : ∀ c ∈ value, PyStr.isSpace c = false ∧ isLineBreak c = false ∧ c ≠ '%' := by
    intro c hc
    simpa [isPlain, and_assoc] using h c hc
  have hpercent : '%' ∉ value := fun hmem => (hplain _ hmem).2.2 rfl
  refine ⟨⟨hne, ?_, ?_⟩, fun c hc => (hplain c hc).2.1, ?_⟩
  · exact fun c hc => (hplain c (List.mem_of_mem_head? hc)).1
  · exact fun c hc => (hplain c (List.mem_of_getLast? hc)).1
  · rw [literal_of_not_mem hpercent]
    rfl

/-- A plain text with drawn digits behind it. -/
theorem iniValue_append_hex {pre : Text} (hne : pre ≠ []) (hpre : pre.all isPlain = true)
    (uuid : Uuid) (n : ℕ) : IniValue (pre ++ uuid.hex.take n) := by
  have hhex : hexDigits.all isPlain = true := by decide
  refine iniValue_of_plain (List.append_ne_nil_of_left_ne_nil hne _) fun c hc => ?_
  rcases List.mem_append.mp hc with hc | hc
  · exact List.all_eq_true.mp hpre c hc
  · exact List.all_eq_true.mp hhex c (uuid.isHex c (List.mem_of_mem_take hc))

theorem iniValue_generateRandomMinerName (uuid : Uuid) : IniValue (generateRandomMinerName uuid) :=
  iniValue_append_hex (by decide) (by decide) uuid 8

theorem iniValue_newTrackerId (uuid : Uuid) : IniValue (newTrackerId uuid) :=
  iniValue_append_hex (by decide) (by decide) uuid 16

theorem literal_newTrackerId (uuid : Uuid) :
    literal (newTrackerId uuid) = some (newTrackerId uuid) := by
  have hhex : hexDigits.all (· ≠ '%') = true := by decide
  refine literal_of_not_mem fun hmem => ?_
  rcases List.mem_append.mp hmem with hmem | hmem
  · exact absurd hmem (by decide)
  · exact of_decide_eq_true
      (List.all_eq_true.mp hhex _ (uuid.isHex _ (List.mem_of_mem_take hmem))) rfl

/-! ### Placeholders -/

theorem length_le_lower (s : Text) : s.length ≤ (lower s).length := by
  unfold lower
  induction s with
  | nil => exact le_rfl
  | cons c s ih =>
    have hone : 1 ≤ (PyStr.lowerChar c).length := by
      unfold PyStr.lowerChar
      split_ifs <;> simp
    rw [List.flatMap_cons, List.length_append, List.length_cons]
    omega

/-- The name that is made up is longer than every placeholder. -/
theorem isPlaceholderMinerName_generate (uuid : Uuid) :
    isPlaceholderMinerName (generateRandomMinerName uuid) = false := by
  have hshort : namePlaceholders.all (fun p => p.length ≤ 12) = true := by decide
  have hlen : (generateRandomMinerName uuid).length = 16 := by
    have hpre : "xnminer-".toList.length = 8 := by decide
    unfold generateRandomMinerName
    rw [List.length_append, List.length_take, uuid.length_eq, hpre]
    omega
  have hstrip := (iniValue_generateRandomMinerName uuid).solid.strip_eq
  refine decide_eq_false fun hmem => ?_
  have hle : (lower (strip (generateRandomMinerName uuid))).length ≤ 12 :=
    of_decide_eq_true (List.all_eq_true.mp hshort _ hmem)
  have hge := length_le_lower (strip (generateRandomMinerName uuid))
  rw [hstrip] at hle hge
  omega

theorem isPlaceholderMinerName_strip (s : Text) :
    isPlaceholderMinerName (strip s) = isPlaceholderMinerName s := by
  unfold isPlaceholderMinerName
  rw [strip_strip]

theorem strip_ne_nil_of_not_placeholder {s : Text} (h : isPlaceholderMinerName s = false) :
    strip s ≠ [] := by
  intro hnil
  have hmem : lower (strip s) ∈ namePlaceholders := by
    rw [hnil]
    decide
  exact of_decide_eq_false h hmem

/-! ### What a write changes for the parser -/

/-- The option has this text, and the others are read as before. -/
structure Updates (sect key text : Text) (c d : Config) : Prop where
  hasSection : ∀ s, d.hasSection s = c.hasSection s
  get_self : d.get sect key = some (some text)
  get_of_ne : ∀ s k, ¬(s = sect ∧ k = key) → d.get s k = c.get s k

theorem exists_updates {sect key value : Text} (hw : Writable sect key file)
    (hsect : sect ≠ defaultSection) (hkey : IniKey key) (hvalue : IniValue value)
    (hparse : parse (fileLines file) = some c) :
    ∃ d text, parse (fileLines (setIniValue file sect key value)) = some d ∧
      literal value = some text ∧ Updates sect key text c d := by
  obtain ⟨d, hparse', hsets⟩ := hw.parse_setIniValue hkey hvalue hparse
  obtain ⟨text, htext⟩ := Option.isSome_iff_exists.mp hvalue.literal
  have hrefs : ∀ e ∈ c.options, e.sect = sect ∨ e.sect = defaultSection →
      refers key e.value = false := by
    rw [(parse_eq_some hparse).2]
    exact hw.editable.refs
  exact ⟨d, text, hparse', htext, hsets.hasSection, hsets.get_self htext,
    fun s k hne => hsets.get_of_ne hsect hrefs hne⟩

section Updates

variable {sect key text : Text}

theorem Updates.lookup (h : Updates sect key text c d) {place : Text × Text}
    (hne : place ≠ (sect, key)) : lookup d place = lookup c place := by
  unfold LoadSettings.lookup
  rw [h.hasSection, h.get_of_ne place.1 place.2 fun hboth => hne (Prod.ext hboth.1 hboth.2)]

theorem Updates.read (h : Updates sect key text c d) {r : Reading} (hr : (sect, key) ∉ r.places) :
    read d r = read c r := by
  have hplaces : r.places.mapM (LoadSettings.lookup d) = r.places.mapM (LoadSettings.lookup c) :=
    mapM_congr fun place hplace => h.lookup fun heq => hr (heq ▸ hplace)
  unfold LoadSettings.read
  rw [hplaces]

end Updates

/-! ### What `load_settings` reads -/

/-- What the parser has for `load_settings`. -/
structure Reads (c : Config) (w custom : Option Text) (id : Text) (others : List (Option Text)) :
    Prop where
  sections : requiredSections.all c.hasSection = true
  others_eq : readings.mapM (read c) = some others
  worker_eq : c.get account worker = some w
  custom_eq : c.get monitoring woodyminerCustomName = some custom
  id_eq : existingTrackerId c = some id

/-- The settings it gives. -/
def settingsOf (w custom : Option Text) (id : Text) (others : List (Option Text)) : Loaded where
  worker := strip (w.getD [])
  woodyminerCustomName := orElse (strip (custom.getD [])) (strip (w.getD []))
  trackerId := id
  others := others

namespace Reads

theorem readSettings (h : Reads c w custom id others) : readSettings c =
    some (strip (w.getD []), orElse (strip (custom.getD [])) (strip (w.getD [])), others) := by
  unfold LoadSettings.readSettings
  rw [if_pos h.sections, h.others_eq, h.worker_eq, h.custom_eq]
  rfl

/-- A file with a tracker id is left alone. -/
theorem loadSettings (h : Reads c w custom id others) (hparse : parse (fileLines file) = some c)
    (hid : id ≠ []) (uuid : Uuid) :
    loadSettings uuid file = some (settingsOf w custom id others, file) := by
  have hensure : ensureTrackerId uuid file c = some (id, file) := by
    unfold ensureTrackerId
    rw [h.id_eq]
    exact if_pos hid
  unfold LoadSettings.loadSettings
  rw [hparse, Option.bind_eq_bind, Option.bind_some, h.readSettings, Option.bind_eq_bind,
    Option.bind_some]
  dsimp only
  rw [hensure]
  rfl

/-- A file without one is given one. -/
theorem loadSettings_new (h : Reads c w custom [] others) (hparse : parse (fileLines file) = some c)
    (uuid : Uuid) : LoadSettings.loadSettings uuid file =
      some (settingsOf w custom (newTrackerId uuid) others,
        setIniValue file monitoring trackerId (newTrackerId uuid)) := by
  have hensure : ensureTrackerId uuid file c =
      some (newTrackerId uuid, setIniValue file monitoring trackerId (newTrackerId uuid)) := by
    unfold ensureTrackerId
    rw [h.id_eq]
    rfl
  unfold LoadSettings.loadSettings
  rw [hparse, Option.bind_eq_bind, Option.bind_some, h.readSettings, Option.bind_eq_bind,
    Option.bind_some]
  dsimp only
  rw [hensure]
  rfl

end Reads

theorem exists_reads {uuid : Uuid} (h : (loadSettings uuid file).isSome = true) :
    ∃ c w custom id others, parse (fileLines file) = some c ∧ Reads c w custom id others := by
  obtain ⟨loaded, hload⟩ := Option.isSome_iff_exists.mp h
  unfold loadSettings at hload
  obtain ⟨c, hparse, hload⟩ := Option.bind_eq_some_iff.mp hload
  obtain ⟨settings, hsettings, hload⟩ := Option.bind_eq_some_iff.mp hload
  obtain ⟨ensured, hensured, -⟩ := Option.bind_eq_some_iff.mp hload
  unfold ensureTrackerId at hensured
  obtain ⟨id, hid, -⟩ := Option.bind_eq_some_iff.mp hensured
  unfold readSettings at hsettings
  split_ifs at hsettings with hsections
  obtain ⟨others, hothers, hsettings⟩ := Option.bind_eq_some_iff.mp hsettings
  obtain ⟨w, hw, hsettings⟩ := Option.bind_eq_some_iff.mp hsettings
  obtain ⟨custom, hcustom, -⟩ := Option.bind_eq_some_iff.mp hsettings
  exact ⟨c, w, custom, id, others, hparse, hsections, hothers, hw, hcustom, hid⟩

/-! ### Reading after a write -/

theorem existingTrackerId_congr
    (hown : d.get monitoring trackerId = c.get monitoring trackerId)
    (hother : d.get monitoring xenblockscanTrackerId = c.get monitoring xenblockscanTrackerId) :
    existingTrackerId d = existingTrackerId c := by
  unfold existingTrackerId
  rw [hown, hother]

section Written

variable {sect key text : Text}

theorem Updates.sections (h : Updates sect key text c d) :
    requiredSections.all d.hasSection = requiredSections.all c.hasSection :=
  congrArg _ (funext h.hasSection)

theorem Updates.readings (h : Updates sect key text c d)
    (hfree : ∀ r ∈ readings, (sect, key) ∉ r.places) :
    readings.mapM (LoadSettings.read d) = readings.mapM (LoadSettings.read c) :=
  mapM_congr fun r hr => h.read (hfree r hr)

/-- None of the options that are written is read besides. -/
theorem readings_free : ∀ r ∈ LoadSettings.readings, (account, worker) ∉ r.places ∧
    (monitoring, woodyminerCustomName) ∉ r.places ∧ (monitoring, trackerId) ∉ r.places := by
  decide +kernel

theorem Reads.of_worker (h : Reads c w custom id others) (hu : Updates account worker text c d) :
    Reads d (some text) custom id others where
  sections := hu.sections ▸ h.sections
  others_eq := (hu.readings fun r hr => (readings_free r hr).1).trans h.others_eq
  worker_eq := hu.get_self
  custom_eq := (hu.get_of_ne _ _ fun h => account_ne_monitoring h.1.symm).trans h.custom_eq
  id_eq := (existingTrackerId_congr (hu.get_of_ne _ _ fun h => account_ne_monitoring h.1.symm)
    (hu.get_of_ne _ _ fun h => account_ne_monitoring h.1.symm)).trans h.id_eq

theorem Reads.of_custom (h : Reads c w custom id others)
    (hu : Updates monitoring woodyminerCustomName text c d) :
    Reads d w (some text) id others where
  sections := hu.sections ▸ h.sections
  others_eq := (hu.readings fun r hr => (readings_free r hr).2.1).trans h.others_eq
  worker_eq := (hu.get_of_ne _ _ fun h => account_ne_monitoring h.1).trans h.worker_eq
  custom_eq := hu.get_self
  id_eq := (existingTrackerId_congr (hu.get_of_ne _ _ fun h => custom_ne_trackerId h.2.symm)
    (hu.get_of_ne _ _ fun h => custom_ne_xenblockscanTrackerId h.2.symm)).trans h.id_eq

theorem Reads.of_trackerId (h : Reads c w custom id others)
    (hu : Updates monitoring trackerId text c d) (hsolid : Solid text) :
    Reads d w custom text others where
  sections := hu.sections ▸ h.sections
  others_eq := (hu.readings fun r hr => (readings_free r hr).2.2).trans h.others_eq
  worker_eq := (hu.get_of_ne _ _ fun h => account_ne_monitoring h.1).trans h.worker_eq
  custom_eq := (hu.get_of_ne _ _ fun h => custom_ne_trackerId h.2).trans h.custom_eq
  id_eq := by
    unfold existingTrackerId
    rw [hu.get_self, Option.bind_eq_bind, Option.bind_some, Option.getD_some,
      if_pos hsolid.ne_nil, hsolid.strip_eq]

end Written

/-! ### The names are settled -/

/-- Both names are there, and `_ensure_worker_id` returns this one. -/
structure Named (file name : Text) : Prop where
  worker_named : isPlaceholderMinerName (readIniValue file account worker) = false
  custom_named : isPlaceholderMinerName (readIniValue file monitoring woodyminerCustomName) = false
  name_eq : strip (readIniValue file monitoring woodyminerCustomName) = name

theorem Named.ensureWorkerId (h : Named file name) (uuid : Uuid) :
    ensureWorkerId uuid file = (file, name) := by
  have hstrip := strip_ne_nil_of_not_placeholder h.custom_named
  have hne : readIniValue file monitoring woodyminerCustomName ≠ [] := by
    intro hnil
    rw [hnil] at hstrip
    exact hstrip rfl
  unfold WalletSetup.ensureWorkerId
  dsimp only
  rw [h.worker_named, h.custom_named, if_pos ⟨rfl, rfl⟩, if_neg fun hboth => hstrip hboth.1, if_neg hne,
    h.name_eq]

theorem ensureWorkerId_copy_worker
    (hw : isPlaceholderMinerName (readIniValue file account worker) = false)
    (hc : isPlaceholderMinerName (readIniValue file monitoring woodyminerCustomName) = true)
    (uuid : Uuid) : ensureWorkerId uuid file =
      (setIniValue file monitoring woodyminerCustomName (strip (readIniValue file account worker)),
        strip (readIniValue file account worker)) := by
  simp [ensureWorkerId, hw, hc]

theorem ensureWorkerId_copy_custom
    (hw : isPlaceholderMinerName (readIniValue file account worker) = true)
    (hc : isPlaceholderMinerName (readIniValue file monitoring woodyminerCustomName) = false)
    (uuid : Uuid) : ensureWorkerId uuid file =
      (setIniValue file account worker (strip (readIniValue file monitoring woodyminerCustomName)),
        strip (readIniValue file monitoring woodyminerCustomName)) := by
  simp [ensureWorkerId, hw, hc, strip_ne_nil_of_not_placeholder hc]

theorem ensureWorkerId_generate
    (hw : isPlaceholderMinerName (readIniValue file account worker) = true)
    (hc : isPlaceholderMinerName (readIniValue file monitoring woodyminerCustomName) = true)
    (uuid : Uuid) : ensureWorkerId uuid file =
      (setIniValue (setIniValue file account worker (generateRandomMinerName uuid)) monitoring
        woodyminerCustomName (generateRandomMinerName uuid), generateRandomMinerName uuid) := by
  simp [ensureWorkerId, hw, hc]

/-- What the options must be like that a start writes. -/
structure Ready (file : Text) : Prop where
  worker_writable : isPlaceholderMinerName (readIniValue file account worker) = true →
    Writable account worker file
  custom_writable : isPlaceholderMinerName (readIniValue file monitoring woodyminerCustomName) = true →
    Writable monitoring woodyminerCustomName file
  tracker_writable : (parse (fileLines file)).bind existingTrackerId = some [] →
    Writable monitoring trackerId file
  /-- A name that is copied refers to no option. -/
  worker_literal : isPlaceholderMinerName (readIniValue file account worker) = false →
    isPlaceholderMinerName (readIniValue file monitoring woodyminerCustomName) = true →
    (literal (strip (readIniValue file account worker))).isSome = true
  custom_literal : isPlaceholderMinerName (readIniValue file account worker) = true →
    isPlaceholderMinerName (readIniValue file monitoring woodyminerCustomName) = false →
    (literal (strip (readIniValue file monitoring woodyminerCustomName))).isSome = true

instance : Decidable (Ready file) :=
  decidable_of_iff
    ((isPlaceholderMinerName (readIniValue file account worker) = true →
        Writable account worker file) ∧
      (isPlaceholderMinerName (readIniValue file monitoring woodyminerCustomName) = true →
        Writable monitoring woodyminerCustomName file) ∧
      ((parse (fileLines file)).bind existingTrackerId = some [] →
        Writable monitoring trackerId file) ∧
      (isPlaceholderMinerName (readIniValue file account worker) = false →
        isPlaceholderMinerName (readIniValue file monitoring woodyminerCustomName) = true →
        (literal (strip (readIniValue file account worker))).isSome = true) ∧
      (isPlaceholderMinerName (readIniValue file account worker) = true →
        isPlaceholderMinerName (readIniValue file monitoring woodyminerCustomName) = false →
        (literal (strip (readIniValue file monitoring woodyminerCustomName))).isSome = true))
    ⟨fun ⟨hworker, hcustom, htracker, hlit, hlit'⟩ => ⟨hworker, hcustom, htracker, hlit, hlit'⟩,
      fun h => ⟨h.worker_writable, h.custom_writable, h.tracker_writable, h.worker_literal,
        h.custom_literal⟩⟩

/-- What `_ensure_worker_id` leaves for `load_settings`. -/
def Prepared (file name id : Text) (others : List (Option Text)) : Prop :=
  Named file name ∧ (id = [] → Writable monitoring trackerId file) ∧
    ∃ c w custom, parse (fileLines file) = some c ∧ Reads c w custom id others

section Prepare

variable {value : Text}

/-- The name of the worker is written. -/
theorem prepared_of_worker (hparse : parse (fileLines file) = some c)
    (hreads : Reads c w custom id others) (hw : Writable account worker file)
    (htracker : id = [] → Writable monitoring trackerId file) (hvalue : IniValue value)
    (hname : isPlaceholderMinerName value = false)
    (hcustom : isPlaceholderMinerName (readIniValue file monitoring woodyminerCustomName) = false) :
    Prepared (setIniValue file account worker value)
      (strip (readIniValue file monitoring woodyminerCustomName)) id others := by
  obtain ⟨d, text, hparse', -, hupdates⟩ :=
    exists_updates hw account_ne_defaultSection iniKey_worker hvalue hparse
  have hsame := hw.readIniValue_setIniValue_of_ne (s := monitoring) iniKey_worker hvalue
    iniKey_woodyminerCustomName worker_ne_custom
  refine ⟨⟨?_, ?_, ?_⟩, fun hid => ?_, d, some text, custom, hparse', hreads.of_worker hupdates⟩
  · rw [hw.readIniValue_setIniValue iniKey_worker hvalue]
    exact hname
  · rw [hsame]
    exact hcustom
  · rw [hsame]
  · exact hw.setIniValue_of_ne iniKey_worker hvalue hparse (htracker hid) iniKey_trackerId
      worker_ne_trackerId

/-- The custom name is written. -/
theorem prepared_of_custom (hparse : parse (fileLines file) = some c)
    (hreads : Reads c w custom id others) (hw : Writable monitoring woodyminerCustomName file)
    (htracker : id = [] → Writable monitoring trackerId file) (hvalue : IniValue value)
    (hname : isPlaceholderMinerName value = false)
    (hworker : isPlaceholderMinerName (readIniValue file account worker) = false) :
    Prepared (setIniValue file monitoring woodyminerCustomName value) value id others := by
  obtain ⟨d, text, hparse', -, hupdates⟩ :=
    exists_updates hw monitoring_ne_defaultSection iniKey_woodyminerCustomName hvalue hparse
  have hself := hw.readIniValue_setIniValue iniKey_woodyminerCustomName hvalue
  refine ⟨⟨?_, ?_, ?_⟩, fun hid => ?_, d, w, some text, hparse', hreads.of_custom hupdates⟩
  · rw [hw.readIniValue_setIniValue_of_ne iniKey_woodyminerCustomName hvalue iniKey_worker
      worker_ne_custom.symm]
    exact hworker
  · rw [hself]
    exact hname
  · rw [hself]
    exact hvalue.solid.strip_eq
  · exact hw.setIniValue_of_ne iniKey_woodyminerCustomName hvalue hparse (htracker hid)
      iniKey_trackerId custom_ne_trackerId

end Prepare

/-- **`_ensure_worker_id` settles the names of a file that is ready.** -/
theorem Ready.ensureWorkerId (h : Ready file) (hparse : parse (fileLines file) = some c)
    (hreads : Reads c w custom id others) (uuid : Uuid) :
    ∃ left name, ensureWorkerId uuid file = (left, name) ∧ Prepared left name id others := by
  have htracker : id = [] → Writable monitoring trackerId file := by
    rintro rfl
    refine h.tracker_writable ?_
    rw [hparse]
    exact hreads.id_eq
  cases hw : isPlaceholderMinerName (readIniValue file account worker) with
  | false =>
    cases hc : isPlaceholderMinerName (readIniValue file monitoring woodyminerCustomName) with
    -- nothing is written
    | false =>
      have hnamed : Named file (strip (readIniValue file monitoring woodyminerCustomName)) :=
        ⟨hw, hc, rfl⟩
      exact ⟨file, _, hnamed.ensureWorkerId uuid, hnamed, htracker, c, w, custom, hparse, hreads⟩
    -- the name of the worker is copied
    | true =>
      have hvalue : IniValue (strip (readIniValue file account worker)) :=
        iniValue_readIniValue (strip_ne_nil_of_not_placeholder hw) (h.worker_literal hw hc)
      have hname : isPlaceholderMinerName (strip (readIniValue file account worker)) = false := by
        rw [isPlaceholderMinerName_strip]
        exact hw
      exact ⟨_, _, ensureWorkerId_copy_worker hw hc uuid,
        prepared_of_custom hparse hreads (h.custom_writable hc) htracker hvalue hname hw⟩
  | true =>
    cases hc : isPlaceholderMinerName (readIniValue file monitoring woodyminerCustomName) with
    -- the custom name is copied
    | false =>
      have hne := strip_ne_nil_of_not_placeholder hc
      have hvalue : IniValue (strip (readIniValue file monitoring woodyminerCustomName)) :=
        iniValue_readIniValue hne (h.custom_literal hw hc)
      have hname : isPlaceholderMinerName
          (strip (readIniValue file monitoring woodyminerCustomName)) = false := by
        rw [isPlaceholderMinerName_strip]
        exact hc
      exact ⟨_, _, ensureWorkerId_copy_custom hw hc uuid,
        prepared_of_worker hparse hreads (h.worker_writable hw) htracker hvalue hname hc⟩
    -- both names are made up, and the second is written to the file the first was written to
    | true =>
      have hvalue := iniValue_generateRandomMinerName uuid
      have hname := isPlaceholderMinerName_generate uuid
      have hworker := h.worker_writable hw
      obtain ⟨d, text, hparse', -, hupdates⟩ :=
        exists_updates hworker account_ne_defaultSection iniKey_worker hvalue hparse
      have hcustom := hworker.setIniValue_of_ne iniKey_worker hvalue hparse (h.custom_writable hc)
        iniKey_woodyminerCustomName worker_ne_custom
      refine ⟨_, _, ensureWorkerId_generate hw hc uuid, prepared_of_custom hparse'
        (hreads.of_worker hupdates) hcustom (fun hid => ?_) hvalue hname ?_⟩
      · exact hworker.setIniValue_of_ne iniKey_worker hvalue hparse (htracker hid) iniKey_trackerId
          worker_ne_trackerId
      · rw [hworker.readIniValue_setIniValue iniKey_worker hvalue]
        exact hname

/-! ### Starts -/

/-- Every start returns the same and leaves the file as it is. -/
def Steady (started : Started) (file : Text) : Prop :=
  ∀ draws, start draws file = some (started, file)

theorem Steady.starts {started : Started} (h : Steady started file) (draws : List Draws) :
    starts file draws = some (List.replicate draws.length (started, file)) := by
  induction draws with
  | nil => rfl
  | cons first rest ih =>
    unfold LoadSettings.starts
    rw [h first, Option.bind_eq_bind, Option.bind_some]
    dsimp only
    rw [ih]
    rfl

/-- A file with names and a tracker id is steady. -/
theorem steady_of_named (hnamed : Named file name) (hparse : parse (fileLines file) = some c)
    (hreads : Reads c w custom id others) (hid : id ≠ []) :
    Steady { name := name, settings := settingsOf w custom id others } file := by
  intro draws
  unfold start
  rw [hnamed.ensureWorkerId]
  dsimp only
  rw [hreads.loadSettings hparse hid]
  rfl

/-- **The first start returns what all later ones do.** -/
theorem Ready.start (h : Ready file) (hparse : parse (fileLines file) = some c)
    (hreads : Reads c w custom id others) (draws : Draws) :
    ∃ started left, start draws file = some (started, left) ∧ Steady started left := by
  obtain ⟨prepared, name, hensure, hnamed, htracker, c', w', custom', hparse', hreads'⟩ :=
    h.ensureWorkerId hparse hreads draws.name
  unfold LoadSettings.start
  rw [hensure]
  dsimp only
  by_cases hid : id = []
  · subst hid
    have hvalue := iniValue_newTrackerId draws.tracker
    have hw := htracker rfl
    obtain ⟨d, text, hparse'', htext, hupdates⟩ :=
      exists_updates hw monitoring_ne_defaultSection iniKey_trackerId hvalue hparse'
    have hsolid := hvalue.solid
    have hplain : literal (newTrackerId draws.tracker) = some (newTrackerId draws.tracker) :=
      literal_newTrackerId draws.tracker
    obtain rfl := Option.some.inj (hplain.symm.trans htext)
    have hkeep : ∀ s k, IniKey k → trackerId ≠ k →
        readIniValue (setIniValue prepared monitoring trackerId (newTrackerId draws.tracker)) s k =
          readIniValue prepared s k := fun s k hk hne =>
      hw.readIniValue_setIniValue_of_ne iniKey_trackerId hvalue hk hne
    have hnamed' : Named
        (setIniValue prepared monitoring trackerId (newTrackerId draws.tracker)) name := by
      refine ⟨?_, ?_, ?_⟩
      · rw [hkeep _ _ iniKey_worker worker_ne_trackerId.symm]
        exact hnamed.worker_named
      · rw [hkeep _ _ iniKey_woodyminerCustomName custom_ne_trackerId.symm]
        exact hnamed.custom_named
      · rw [hkeep _ _ iniKey_woodyminerCustomName custom_ne_trackerId.symm]
        exact hnamed.name_eq
    refine ⟨_, _, ?_, steady_of_named hnamed' hparse'' (hreads'.of_trackerId hupdates hsolid)
      hsolid.ne_nil⟩
    rw [hreads'.loadSettings_new hparse']
    rfl
  · refine ⟨_, _, ?_, steady_of_named hnamed hparse' hreads' hid⟩
    rw [hreads'.loadSettings hparse' hid]
    rfl

/-- What names the rig: the name a start returns, and the names and the tracker id of its
settings. -/
def Started.identity (s : Started) : Text × Text × Text × Text :=
  (s.name, s.settings.worker, s.settings.woodyminerCustomName, s.settings.trackerId)

/-- All starts succeed with one identity, and the file stays as the first one leaves it. -/
def Stable (file : Text) : Prop :=
  ∀ first rest, ∃ results identity left, starts file (first :: rest) = some results ∧
    ∀ result ∈ results, result.1.identity = identity ∧ result.2 = left

/-- **A file that is loaded and ready keeps its identity over all starts.** -/
theorem stable_of_ready (file : Text) (uuid : Uuid)
    (hload : (loadSettings uuid file).isSome = true) (hready : Ready file) : Stable file := by
  intro first rest
  obtain ⟨c, w, custom, id, others, hparse, hreads⟩ := exists_reads hload
  obtain ⟨started, left, hstart, hsteady⟩ := hready.start hparse hreads first
  have hall : starts file (first :: rest) =
      some (List.replicate (rest.length + 1) (started, left)) := by
    unfold starts
    rw [hstart, Option.bind_eq_bind, Option.bind_some]
    dsimp only
    rw [hsteady.starts]
    rfl
  refine ⟨_, started.identity, left, hall, fun result hresult => ?_⟩
  rw [(List.mem_replicate.mp hresult).2]
  exact ⟨rfl, rfl⟩

/-! ### Two files -/

/-- What a start can draw. -/
def sampleUuid : Uuid where
  hex := "0123456789abcdef0123456789abcdef".toList
  length_eq := by decide +kernel
  isHex := by
    have hall : "0123456789abcdef0123456789abcdef".toList.all (· ∈ hexDigits) = true := by
      decide +kernel
    exact forall_mem_of_all hall

/-- A file with `[monitoring]` last, and no names. -/
def monitoringLast : Text :=
  ("[account]\nworker =\n[server]\n[mining]\n[efficiency]\n[queue]\n[gpu]\n[monitoring]\n" ++
    "woodyminer_custom_name =\n").toList

theorem stable_monitoringLast :
    (loadSettings sampleUuid monitoringLast).isSome = true ∧ Ready monitoringLast ∧
      Stable monitoringLast := by
  obtain ⟨hload, hready⟩ : (loadSettings sampleUuid monitoringLast).isSome = true ∧
      Ready monitoringLast := by decide +kernel
  exact ⟨hload, hready, stable_of_ready _ sampleUuid hload hready⟩

/-- A file with both names and no tracker id, and `[gpu]` behind `[monitoring]`. -/
def monitoringFirst : Text :=
  ("[account]\nworker = rig\n[server]\n[mining]\n[efficiency]\n[queue]\n[monitoring]\n" ++
    "woodyminer_custom_name = rig\n[gpu]\n").toList

/-- The tracker id lands in `[gpu]`: the second start does not find it and writes another line, and
the third raises for the duplicate. -/
theorem not_stable_monitoringFirst :
    (loadSettings sampleUuid monitoringFirst).isSome = true ∧ ¬Stable monitoringFirst := by
  obtain ⟨hload, hnone⟩ : (loadSettings sampleUuid monitoringFirst).isSome = true ∧
      starts monitoringFirst [⟨sampleUuid, sampleUuid⟩, ⟨sampleUuid, sampleUuid⟩,
        ⟨sampleUuid, sampleUuid⟩] = none := by decide +kernel
  refine ⟨hload, fun h => ?_⟩
  obtain ⟨results, identity, left, hstarts, -⟩ :=
    h ⟨sampleUuid, sampleUuid⟩ [⟨sampleUuid, sampleUuid⟩, ⟨sampleUuid, sampleUuid⟩]
  rw [hnone] at hstarts
  cases hstarts

end XenMiner.LoadSettings
