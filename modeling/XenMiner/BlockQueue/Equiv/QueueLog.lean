import XenMiner.BlockQueue.Equiv.Store
import XenMiner.BlockQueue.QueueLog

/-!
# A crash while the log is written

Complete lines are read back as the records they were written from (`importPendingFromText_logText`).
A line that was cut short raises, and so does a line that was cut before its end of line only, once
the next record is appended to it: `crashSafe_iff` says exactly when a crash does no harm.
-/

namespace XenMiner.QueueLog

open BlockStore (Import queueRecord)

variable {T : PyTexts} {s : BlockStore} {accepted : List String} {dryRun : Bool} {a : Import}
  {e : Entry} {entries later : List Entry}

/-! ### Lines -/

theorem wellFormed_members (T : PyTexts) (e : Entry) : Json.WellFormed (.obj (e.members T)) := by
  refine ⟨trivial, trivial, trivial, trivial, trivial, T.isFloat_reprFloat _, trivial, trivial, trivial,
    ?_, trivial⟩
  cases e.hit.memoryCost <;> trivial

theorem isLineEnd_text : ∀ c ∈ e.text T, (decide (c = '\n') || decide (c = '\r')) = false := by
  intro c hc
  obtain ⟨hlow, -⟩ := Json.isPrintable_dumps _ (wellFormed_members T e) c hc
  have hn : c ≠ '\n' := by
    rintro rfl
    exact absurd hlow (by decide)
  have hr : c ≠ '\r' := by
    rintro rfl
    exact absurd hlow (by decide)
  simp [hn, hr]

/-- A line ends at its end of line. -/
theorem fileLines_append {line : List Char}
    (hline : ∀ c ∈ line, (decide (c = '\n') || decide (c = '\r')) = false) (rest : List Char) :
    fileLines (line ++ '\n' :: rest) = line :: fileLines rest :=
  List.splitOnP_append_cons_of_forall_mem hline '\n' rfl rest

theorem logText_cons : logText T (e :: entries) = e.text T ++ '\n' :: logText T entries := by
  rw [logText, List.flatMap_cons, Entry.line, List.append_assoc]
  rfl

theorem fileLines_logText (entries : List Entry) (rest : List Char) :
    fileLines (logText T entries ++ rest) = entries.map (Entry.text T) ++ fileLines rest := by
  induction entries with
  | nil => rfl
  | cons e entries ih =>
    rw [logText_cons, List.append_assoc, List.cons_append, fileLines_append isLineEnd_text, ih]
    rfl

theorem strip_text : (PyStr.strip (String.ofList (e.text T))).toList = e.text T := by
  obtain ⟨t, ht⟩ := Json.exists_dumps_obj (e.members T)
  obtain ⟨t', ht'⟩ := Json.exists_dumps_obj_end (e.members T)
  cases t' with
  | nil =>
    rw [ht] at ht'
    cases ht'
  | cons d t' =>
    have hd : d = '{' := by
      rw [ht] at ht'
      exact (List.cons.inj ht').1.symm
    subst hd
    exact PyStr.strip_eq_self (by decide) (by decide) ht'

theorem text_ne_nil : e.text T ≠ [] := by
  obtain ⟨t, ht⟩ := Json.exists_dumps_obj (e.members T)
  rw [Entry.text, ht]
  exact List.cons_ne_nil _ _

/-! ### Reading a line -/

/-- What a line is read as. -/
def Entry.reread (T : PyTexts) (e : Entry) : QueueRecord :=
  { queueRecord e.now e.hit e.reason with
    hps := some (T.float (T.reprFloat e.hit.hps))
    foundAt := some (T.time (T.isoformat e.hit.foundAt))
    queuedAt := T.time (T.isoformat e.now) }

theorem readRecord_members (T : PyTexts) (e : Entry) :
    readRecord T (.obj (e.members T)) = some (e.reread T) := by
  obtain ⟨now, ⟨key, hashStr, blockType, attempts, strategy, hps, foundAt, memoryCost⟩, reason⟩ := e
  cases memoryCost <;>
    simp [readRecord, Entry.members, Entry.reread, queueRecord, Json.get, List.lookup_cons, asText, asInt,
      asFloat, optional]

/-- A complete line counts as its record. -/
theorem importLine_text :
    importLine T accepted dryRun a (e.text T) = some (Import.line accepted dryRun a (e.reread T)) := by
  have hkey : ((Json.obj (e.members T)).get "key").bind asText = some e.hit.key := by
    simp [Entry.members, Json.get, List.lookup_cons, asText]
  have hreread : (e.reread T).key = e.hit.key := rfl
  rw [importLine, strip_text, if_neg text_ne_nil, Entry.text, Json.loads_dumps (wellFormed_members T e)]
  simp only [Option.bind_eq_bind, Option.bind_some, hkey, readRecord_members, Option.map_some]
  split_ifs with hskip hdry
  · rw [Import.line, hreread, if_pos hskip]
  · rw [Import.line, hreread, if_neg hskip, if_pos hdry]
  · rw [Bool.eq_false_iff.mpr hdry]

theorem foldlM_text (entries : List Entry) (a : Import) :
    (entries.map (Entry.text T)).foldlM (importLine T accepted dryRun) a =
      some ((entries.map (Entry.reread T)).foldl (Import.line accepted dryRun) a) := by
  induction entries generalizing a with
  | nil => rfl
  | cons e entries ih =>
    rw [List.map_cons, List.foldlM_cons, importLine_text]
    exact ih _

/-! ### Reading the log -/

theorem importPendingFromText_eq (s : BlockStore) (text : List Char) (dryRun : Bool) :
    importPendingFromText T s text dryRun =
      ((fileLines text).foldlM (importLine T s.acceptedKeys dryRun)
        { pendingBlocks := s.pendingBlocks, pending := s.pendingKeys, seen := [], imported := 0 }).map
        fun done => ({ s with pendingBlocks := done.pendingBlocks }, done.imported) := by
  rw [importPendingFromText]
  cases (fileLines text).foldlM (importLine T s.acceptedKeys dryRun)
    { pendingBlocks := s.pendingBlocks, pending := s.pendingKeys, seen := [], imported := 0 } <;> rfl

/-- The store with a log of these records. -/
def withLog (T : PyTexts) (s : BlockStore) (entries : List Entry) : BlockStore :=
  { s with queueJsonl := entries.map (Entry.reread T) }

/-- Lines are imported as their records. -/
theorem importPendingFromText_of_fileLines {text : List Char} {tail : List (List Char)}
    (hlines : fileLines text = entries.map (Entry.text T) ++ tail)
    (htail : tail = [] ∨ tail = [[]]) :
    importPendingFromText T s text dryRun =
      some ({ ((withLog T s entries).importPendingFromJsonl dryRun).1 with queueJsonl := s.queueJsonl },
        ((withLog T s entries).importPendingFromJsonl dryRun).2) := by
  have hempty : ∀ a : Import, importLine T s.acceptedKeys dryRun a [] = some a := fun _ => rfl
  rw [importPendingFromText_eq, hlines, List.foldlM_append, foldlM_text]
  rcases htail with rfl | rfl
  · rfl
  · simp only [List.foldlM_cons, List.foldlM_nil, Option.bind_eq_bind, Option.bind_some, hempty]
    rfl

/-- A line that raises lets the whole import raise. -/
theorem importPendingFromText_eq_none {text line : List Char} {after : List (List Char)}
    (hlines : fileLines text = entries.map (Entry.text T) ++ line :: after)
    (hline : ∀ a, importLine T s.acceptedKeys dryRun a line = none) :
    importPendingFromText T s text dryRun = none := by
  rw [importPendingFromText_eq, hlines, List.foldlM_append, foldlM_text]
  simp [hline]

theorem importLine_eq_none {line : List Char} (hne : (PyStr.strip (String.ofList line)).toList ≠ [])
    (hline : Json.loads (PyStr.strip (String.ofList line)).toList = none) :
    importLine T accepted dryRun a line = none := by
  rw [importLine, if_neg hne, hline]
  rfl

/-! ### A torn line -/

/-- A line that was cut short, but not only of its end of line. -/
theorem importLine_torn {t u : List Char} (hsplit : t ++ u = e.text T) (ht : t ≠ []) (hu : u ≠ []) :
    importLine T accepted dryRun a t = none := by
  obtain ⟨body, hbody⟩ := Json.exists_dumps_obj (e.members T)
  cases t with
  | nil => exact absurd rfl ht
  | cons d t =>
    obtain rfl : d = '{' := (List.cons.inj (hsplit.trans hbody)).1
    obtain ⟨t', ws, hstrip, hws⟩ := PyStr.exists_strip t (show PyStr.isSpace '{' = false by decide)
    have hne : (PyStr.strip (String.ofList ('{' :: t))).toList ≠ [] := by
      rw [hstrip]
      exact List.cons_ne_nil _ _
    refine importLine_eq_none hne ?_
    rw [hstrip]
    refine Json.loads_part_eq_none (u := ws ++ u) (wellFormed_members T e) ?_ (List.cons_ne_nil _ _) ?_
    · rw [← List.append_assoc, ← hws]
      exact hsplit
    · intro hnil
      exact hu (List.append_eq_nil_iff.mp hnil).2

/-- Two records on one line. -/
theorem importLine_merged {e' : Entry} :
    importLine T accepted dryRun a (e.text T ++ e'.text T) = none := by
  obtain ⟨t, ht⟩ := Json.exists_dumps_obj (e.members T)
  obtain ⟨t', ht'⟩ := Json.exists_dumps_obj_end (e'.members T)
  obtain ⟨body, hbody⟩ := Json.exists_dumps_obj (e'.members T)
  have hline : e.text T ++ e'.text T = '{' :: (t ++ t') ++ ['}'] := by
    rw [Entry.text, Entry.text, ht', ht]
    simp
  have hstrip := PyStr.strip_eq_self (show PyStr.isSpace '{' = false by decide)
    (show PyStr.isSpace '}' = false by decide) hline
  refine importLine_eq_none ?_ ?_
  · rw [hstrip, hline]
    simp
  · rw [hstrip]
    refine Json.loads_append_eq_none (wellFormed_members T e) ?_
    rw [Entry.text, hbody, Json.skipWs_cons rfl]
    exact List.cons_ne_nil _ _

/-! ### Starting after a crash -/

/-- The import does not raise, and queues every block of `entries` that is not pending or accepted. -/
def Recovers (T : PyTexts) (s : BlockStore) (text : List Char) (entries : List Entry) : Prop :=
  ∃ r, importPendingFromText T s text false = some r ∧
    ∀ e ∈ entries, e.hit.key ∉ s.pendingKeys → e.hit.key ∉ s.acceptedKeys →
      e.hit.key ∈ r.1.pendingKeys

/-- A crash left `torn` behind the complete lines of `entries`.  The next start recovers them, and
a later one, from an empty database, also what was appended since. -/
structure CrashSafe (T : PyTexts) (s : BlockStore) (entries : List Entry) (torn : List Char)
    (later : List Entry) : Prop where
  starts : Recovers T s (logText T entries ++ torn) entries
  recovers : Recovers T .empty (logText T entries ++ torn ++ logText T later) (entries ++ later)

/-- Complete lines are recovered, the last one also without its end of line. -/
theorem recovers_of_fileLines {text : List Char} {tail : List (List Char)} {required : List Entry}
    (hlines : fileLines text = entries.map (Entry.text T) ++ tail) (htail : tail = [] ∨ tail = [[]])
    (hsubset : required ⊆ entries) : Recovers T s text required := by
  refine ⟨_, importPendingFromText_of_fileLines hlines htail, fun e he hpending haccepted => ?_⟩
  have hlog : e.reread T ∈ (withLog T s entries).queueJsonl := List.mem_map_of_mem (hsubset he)
  exact BlockStore.mem_pendingKeys_import hlog hpending haccepted

theorem not_recovers {text : List Char} {required : List Entry}
    (hnone : importPendingFromText T s text false = none) : ¬ Recovers T s text required := by
  rintro ⟨r, hr, -⟩
  rw [hnone] at hr
  cases hr

theorem fileLines_logText_nil : fileLines (logText T entries) = entries.map (Entry.text T) ++ [[]] := by
  have hlines := fileLines_logText (T := T) entries []
  rwa [List.append_nil] at hlines

/-- Nothing was torn. -/
theorem crashSafe_nil : CrashSafe T s entries [] later := by
  constructor
  · rw [List.append_nil]
    exact recovers_of_fileLines fileLines_logText_nil (Or.inr rfl) (List.Subset.refl _)
  · rw [List.append_nil]
    have hlines : fileLines (logText T entries ++ logText T later) =
        (entries ++ later).map (Entry.text T) ++ [[]] := by
      rw [fileLines_logText, fileLines_logText_nil, List.map_append, List.append_assoc]
    exact recovers_of_fileLines hlines (Or.inr rfl) (List.Subset.refl _)

/-- Only the end of line was torn, and nothing follows. -/
theorem crashSafe_text : CrashSafe T s entries (e.text T) [] := by
  have hlines : fileLines (logText T entries ++ e.text T) =
      (entries ++ [e]).map (Entry.text T) ++ [] := by
    rw [fileLines_logText, fileLines, List.splitOnP_eq_singleton isLineEnd_text]
    simp
  have hsubset : entries ⊆ entries ++ [e] := List.subset_append_left _ _
  constructor
  · exact recovers_of_fileLines hlines (Or.inl rfl) hsubset
  · have hnil : logText T [] = [] := rfl
    rw [hnil, List.append_nil, List.append_nil]
    exact recovers_of_fileLines hlines (Or.inl rfl) hsubset

/-- A torn line raises at the next start. -/
theorem not_crashSafe_torn {t u : List Char} (hsplit : t ++ u = e.text T) (ht : t ≠ [])
    (hu : u ≠ []) : ¬ CrashSafe T s entries t later := by
  intro h
  have hend : ∀ c ∈ t, (decide (c = '\n') || decide (c = '\r')) = false := by
    intro c hc
    refine isLineEnd_text (T := T) (e := e) c ?_
    rw [← hsplit]
    exact List.mem_append_left _ hc
  have hlines : fileLines (logText T entries ++ t) = entries.map (Entry.text T) ++ [t] := by
    rw [fileLines_logText]
    congr 1
    exact List.splitOnP_eq_singleton hend
  exact not_recovers (importPendingFromText_eq_none hlines fun a => importLine_torn hsplit ht hu) h.starts

/-- The next record on the same line raises at every start from then on. -/
theorem not_crashSafe_merged {e' : Entry} : ¬ CrashSafe T s entries (e.text T) (e' :: later) := by
  intro h
  have hend : ∀ c ∈ e.text T ++ e'.text T, (decide (c = '\n') || decide (c = '\r')) = false := by
    intro c hc
    rcases List.mem_append.mp hc with hc | hc
    · exact isLineEnd_text c hc
    · exact isLineEnd_text c hc
  have hlines : fileLines (logText T entries ++ e.text T ++ logText T (e' :: later)) =
      entries.map (Entry.text T) ++ (e.text T ++ e'.text T) :: fileLines (logText T later) := by
    rw [List.append_assoc, fileLines_logText, logText_cons, ← List.append_assoc, fileLines_append hend]
  exact not_recovers (importPendingFromText_eq_none hlines fun a => importLine_merged) h.recovers

theorem length_line (T : PyTexts) (e : Entry) : (e.line T).length = (e.text T).length + 1 := by
  rw [Entry.line, List.length_append, List.length_singleton]

theorem take_line {n : ℕ} (hn : n < (e.line T).length) : (e.line T).take n = (e.text T).take n := by
  rw [length_line] at hn
  rw [Entry.line, List.take_append_of_le_length (by omega)]

theorem not_crashSafe_take {n : ℕ} (hpos : 0 < n) (hn : n < (e.text T).length) :
    ¬ CrashSafe T s entries ((e.line T).take n) later := by
  have hline : n < (e.line T).length := by
    rw [length_line]
    omega
  have ht : (e.text T).take n ≠ [] := by
    intro hnil
    have hlength := congrArg List.length hnil
    rw [List.length_take, List.length_nil] at hlength
    omega
  have hu : (e.text T).drop n ≠ [] := by
    intro hnil
    have hlength := congrArg List.length hnil
    rw [List.length_drop, List.length_nil] at hlength
    omega
  rw [take_line hline]
  exact not_crashSafe_torn (List.take_append_drop n _) ht hu

/-- A process that dies after `n` characters of a line does no harm exactly if it wrote none of them,
or all but the end of line and no record is appended since. -/
theorem crashSafe_iff (T : PyTexts) (s : BlockStore) (entries : List Entry) (e : Entry) (n : ℕ)
    (later : List Entry) (hn : n < (e.line T).length) :
    CrashSafe T s entries ((e.line T).take n) later ↔
      n = 0 ∨ n + 1 = (e.line T).length ∧ later = [] := by
  have hlen := length_line T e
  rcases Nat.eq_zero_or_pos n with rfl | hpos
  · exact iff_of_true crashSafe_nil (Or.inl rfl)
  · by_cases hfull : n = (e.text T).length
    · rw [take_line hn, hfull, List.take_length, hlen]
      cases later with
      | nil => exact iff_of_true crashSafe_text (Or.inr ⟨rfl, rfl⟩)
      | cons e' later =>
        refine iff_of_false not_crashSafe_merged ?_
        rintro (hzero | ⟨-, hnil⟩)
        · omega
        · cases hnil
    · refine iff_of_false (not_crashSafe_take hpos (by omega)) ?_
      rintro (hzero | ⟨heq, -⟩)
      · omega
      · omega

/-- One hit and the texts Python makes of it. -/
def sampleTexts : PyTexts where
  reprFloat := fun _ => ['0', '.', '0']
  float := fun _ => 0
  isoformat := fun _ => "1970-01-01T00:00:00"
  time := fun _ => 0
  isFloat_reprFloat := fun _ => ⟨rfl, List.all_eq_true.mp (by decide)⟩

def sampleEntry (key : String) : Entry where
  now := 0
  hit := { key := key, hashStr := "XEN11", blockType := "XNM", attempts := 1, strategy := "random"
           foundAt := 0 }
  reason := "server_down"

/-- The process died after the first brace of a second record, or before the end of line of one. -/
theorem crashSafe_fails :
    ¬ CrashSafe sampleTexts .empty [sampleEntry "a1"] (((sampleEntry "b2").line sampleTexts).take 1) [] ∧
      ¬ CrashSafe sampleTexts .empty [] ((sampleEntry "a1").text sampleTexts) [sampleEntry "b2"] := by
  refine ⟨not_crashSafe_take Nat.one_pos ?_, not_crashSafe_merged⟩
  simp [Entry.text, Entry.members, Json.dumps, Json.encodeString]

/-- The process died before the end of line of the second record, the last one. -/
theorem crashSafe_iff_whole :
    CrashSafe sampleTexts .empty [sampleEntry "a1"]
      (((sampleEntry "b2").line sampleTexts).take ((sampleEntry "b2").text sampleTexts).length) [] := by
  have hline := length_line sampleTexts (sampleEntry "b2")
  exact (crashSafe_iff sampleTexts .empty [sampleEntry "a1"] (sampleEntry "b2") _ []
    (by omega)).mpr (Or.inr ⟨hline.symm, rfl⟩)

end XenMiner.QueueLog
