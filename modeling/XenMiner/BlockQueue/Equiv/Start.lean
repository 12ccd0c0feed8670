import XenMiner.BlockQueue.Equiv.Store
import XenMiner.Mining.Equiv.BlockTypes

/-!
# The start of a session

A start takes up what the log has and the queue lacks, marks the rows with a failed submission, and
relabels the rows by their hashes.  An import adds one row for each key that is logged, not pending and
not accepted, and a dry run only counts these (`import_spec`).  What a start has done it finds done, so
a second one changes nothing (`startSession_startSession`).
-/

namespace XenMiner

open BlockTypes

namespace BlockStore

variable {s s' : BlockStore} {key : String} {r : PendingRow}

/-! ### The import -/

/-- A dry run counts the lines that an import takes up. -/
theorem foldl_line_imported {accepted known : List String} (a : Import) (records : List QueueRecord)
    (dryRun : Bool) (hknown : ∀ key, key ∈ known ↔ key ∈ a.seen ∨ key ∈ a.pending ∨ key ∈ accepted) :
    (records.foldl (Import.line accepted dryRun) a).imported =
      a.imported + (restorable known records).length := by
  induction records generalizing a known with
  | nil => rfl
  | cons r records ih =>
    rw [List.foldl_cons, restorable, Import.line]
    by_cases hskip : r.key ∈ known
    · rw [if_pos hskip, if_pos ((hknown _).mp hskip)]
      exact ih a hknown
    · rw [if_neg hskip, if_neg (fun h => hskip ((hknown _).mpr h)), List.length_cons]
      have hcount : ∀ {b : Import}, b.imported = a.imported + 1 →
          (∀ key, key ∈ r.key :: known ↔ key ∈ b.seen ∨ key ∈ b.pending ∨ key ∈ accepted) →
          (records.foldl (Import.line accepted dryRun) b).imported =
            a.imported + ((restorable (r.key :: known) records).length + 1) := by
        intro b himported hnext
        rw [ih b hnext, himported]
        omega
      split_ifs
      · refine hcount rfl fun key => ?_
        simp only [List.mem_cons, hknown, or_assoc]
      · refine hcount rfl fun key => ?_
        simp only [List.mem_cons, hknown]
        tauto

/-- The lines an import takes up. -/
def newRecords (s : BlockStore) : List QueueRecord :=
  restorable (s.pendingKeys ++ s.acceptedKeys) s.queueJsonl

theorem importPendingFromJsonl_snd (s : BlockStore) (dryRun : Bool) :
    (s.importPendingFromJsonl dryRun).2 = s.newRecords.length := by
  have hknown : ∀ key, key ∈ s.pendingKeys ++ s.acceptedKeys ↔
      key ∈ [] ∨ key ∈ s.pendingKeys ∨ key ∈ s.acceptedKeys := fun key => by simp
  have hcount := foldl_line_imported ⟨s.pendingBlocks, s.pendingKeys, [], 0⟩ s.queueJsonl dryRun hknown
  exact hcount.trans (Nat.zero_add _)

theorem foldl_line_dryRun (accepted : List String) (a : Import) (records : List QueueRecord) :
    (records.foldl (Import.line accepted true) a).pendingBlocks = a.pendingBlocks := by
  induction records generalizing a with
  | nil => rfl
  | cons r records ih =>
    rw [List.foldl_cons, ih, Import.line]
    split_ifs with hskip hdry
    · rfl
    · rfl
    · exact absurd rfl hdry

theorem importPendingFromJsonl_dryRun (s : BlockStore) : (s.importPendingFromJsonl true).1 = s := by
  unfold importPendingFromJsonl
  dsimp only
  rw [foldl_line_dryRun]

/-- The rows an import adds are pending. -/
theorem pending_import (s : BlockStore) :
    ∃ new, (s.importPendingFromJsonl false).1.pending = s.pending ++ new ∧
      new.map Prod.snd = s.newRecords.map importedRow := by
  obtain ⟨new, hrows, hnew⟩ := importPendingFromJsonl_rows s
  refine ⟨new, ?_, hnew⟩
  unfold pending Table.select
  rw [hrows, List.filter_append]
  congr 1
  apply List.filter_eq_self.mpr
  intro x hx
  have hrow : x.2 ∈ s.newRecords.map importedRow := hnew ▸ List.mem_map_of_mem hx
  obtain ⟨record, -, heq⟩ := List.mem_map.mp hrow
  rw [← heq]
  rfl

theorem pendingKeys_import (s : BlockStore) :
    (s.importPendingFromJsonl false).1.pendingKeys =
      s.pendingKeys ++ s.newRecords.map QueueRecord.key := by
  obtain ⟨new, hpending, hnew⟩ := pending_import s
  have hkeys := congrArg (List.map PendingRow.key) hnew
  rw [List.map_map, List.map_map] at hkeys
  unfold pendingKeys
  rw [show (s.importPendingFromJsonl false).1.pendingBlocks.select PendingRow.isPending =
    s.pending ++ new from hpending, List.map_append]
  exact congrArg (s.pending.map (fun x => x.2.key) ++ ·) hkeys

theorem mem_newRecords_key :
    key ∈ s.newRecords.map QueueRecord.key ↔
      key ∈ s.queueJsonl.map QueueRecord.key ∧ key ∉ s.pendingKeys ∧ key ∉ s.acceptedKeys := by
  rw [← not_or, ← List.mem_append]
  constructor
  · intro h
    obtain ⟨record, hrecord, rfl⟩ := List.mem_map.mp h
    obtain ⟨hlog, hnew⟩ := mem_restorable hrecord
    exact ⟨List.mem_map_of_mem hlog, hnew⟩
  · rintro ⟨hlog, hnew⟩
    obtain ⟨record, hrecord, rfl⟩ := List.mem_map.mp hlog
    obtain ⟨record', hrecord', hkey⟩ := exists_restorable hrecord hnew
    exact hkey ▸ List.mem_map_of_mem hrecord'

/-- **What an import takes up.**  The keys it adds to the queue are those that are logged, not pending
and not accepted, each once; it reports their number.  A dry run reports the same and leaves the store as
it is. -/
theorem import_spec (s : BlockStore) :
    ∃ new : List String,
      (s.importPendingFromJsonl false).1.pendingKeys = s.pendingKeys ++ new ∧ new.Nodup ∧
      (∀ key, key ∈ new ↔
        key ∈ s.queueJsonl.map QueueRecord.key ∧ key ∉ s.pendingKeys ∧ key ∉ s.acceptedKeys) ∧
      (s.importPendingFromJsonl false).2 = new.length ∧
      s.importPendingFromJsonl true = (s, new.length) := by
  refine ⟨s.newRecords.map QueueRecord.key, pendingKeys_import s, nodup_restorable _ _,
    fun key => mem_newRecords_key, ?_, Prod.ext (importPendingFromJsonl_dryRun s) ?_⟩
  · rw [importPendingFromJsonl_snd, List.length_map]
  · rw [importPendingFromJsonl_snd, List.length_map]

/-- The log holds no key that a start would have to take up. -/
def LogTakenUp (s : BlockStore) : Prop :=
  ∀ record ∈ s.queueJsonl, record.key ∈ s.pendingKeys ∨ record.key ∈ s.acceptedKeys

theorem foldl_line_of_takenUp {accepted : List String} (a : Import) {records : List QueueRecord}
    (h : ∀ record ∈ records, record.key ∈ a.pending ∨ record.key ∈ accepted) :
    records.foldl (Import.line accepted false) a = a := by
  induction records with
  | nil => rfl
  | cons r records ih =>
    obtain ⟨hr, hrecords⟩ := List.forall_mem_cons.mp h
    rw [List.foldl_cons, Import.line, if_pos (Or.inr hr)]
    exact ih hrecords

theorem importPendingFromJsonl_of_takenUp (h : s.LogTakenUp) :
    s.importPendingFromJsonl false = (s, 0) := by
  have hlines : s.queueJsonl.foldl (Import.line s.acceptedKeys false)
      ⟨s.pendingBlocks, s.pendingKeys, [], 0⟩ = ⟨s.pendingBlocks, s.pendingKeys, [], 0⟩ :=
    foldl_line_of_takenUp _ h
  unfold importPendingFromJsonl
  dsimp only
  rw [hlines]

theorem logTakenUp_import (s : BlockStore) : (s.importPendingFromJsonl false).1.LogTakenUp := by
  intro record hrecord
  by_cases haccepted : record.key ∈ s.acceptedKeys
  · exact Or.inr haccepted
  · left
    rw [pendingKeys_import, List.mem_append]
    by_cases hpending : record.key ∈ s.pendingKeys
    · exact Or.inl hpending
    · exact Or.inr (mem_newRecords_key.mpr ⟨List.mem_map_of_mem hrecord, hpending, haccepted⟩)

/-! ### The marks and the labels -/

theorem migrateRejectedPending_submittedBlocks :
    s.migrateRejectedPending.1.submittedBlocks = s.submittedBlocks := by
  unfold migrateRejectedPending
  dsimp only

theorem migrateRejectedPending_queueJsonl :
    s.migrateRejectedPending.1.queueJsonl = s.queueJsonl := by
  unfold migrateRejectedPending
  dsimp only

theorem reclassifyPending_submittedBlocks :
    s.reclassifyPending.1.submittedBlocks = s.submittedBlocks := by
  unfold reclassifyPending
  dsimp only

theorem reclassifyPending_queueJsonl : s.reclassifyPending.1.queueJsonl = s.queueJsonl := by
  unfold reclassifyPending
  dsimp only

theorem LogTakenUp.congr (h : s.LogTakenUp) (hpending : s'.pendingKeys = s.pendingKeys)
    (hsubmitted : s'.submittedBlocks = s.submittedBlocks) (hlog : s'.queueJsonl = s.queueJsonl) :
    s'.LogTakenUp := by
  intro record hrecord
  have haccepted : s'.acceptedKeys = s.acceptedKeys := by
    unfold acceptedKeys
    rw [hsubmitted]
  rw [hpending, haccepted]
  exact h record (hlog ▸ hrecord)

theorem pendingKeys_migrate : s.migrateRejectedPending.1.pendingKeys = s.pendingKeys := by
  unfold pendingKeys
  rw [migrateRejectedPending_pendingBlocks]
  refine Table.map_select_update fun r => ?_
  unfold PendingRow.isPending
  exact ⟨rfl, rfl⟩

theorem pendingKeys_reclassify : s.reclassifyPending.1.pendingKeys = s.pendingKeys := by
  unfold pendingKeys
  rw [reclassifyPending_pendingBlocks]
  refine Table.map_select_update fun r => ?_
  unfold PendingRow.isPending
  exact ⟨rfl, rfl⟩

/-- The kind of a hash is its kind again with the label of the first. -/
theorem classifyBlock_text_self (hashStr blockType : String)
    (h : classifyBlock hashStr blockType ≠ .other) :
    classifyBlock hashStr (classifyBlock hashStr blockType).text = classifyBlock hashStr blockType := by
  have hhints : hintOf "XUNI" = "XUNI" ∧ hintOf "XBLK" = "XBLK" ∧ hintOf "XNM" = "XNM" := by
    decide +kernel
  obtain ⟨hxuni, hxblk, hxnm⟩ := hhints
  by_cases hfirst : hintOf blockType = "XUNI" ∨ xuniMatch hashStr.toList = true
  · have hkind : classifyBlock hashStr blockType = .xuni := by
      rw [classifyBlock_eq, kindOf, if_pos hfirst]
    have hhint : hintOf BlockKind.xuni.text = "XUNI" := hxuni
    rw [hkind, classifyBlock_eq, kindOf, if_pos (Or.inl hhint)]
  -- the labels of the other kinds do not name `XUNI`
  have hother : ∀ {label : String}, hintOf label ≠ "XUNI" →
      ¬ (hintOf label = "XUNI" ∨ xuniMatch hashStr.toList = true) := by
    rintro label hlabel (hhint | hmatch)
    · exact hlabel hhint
    · exact hfirst (Or.inr hmatch)
  by_cases hsuper : PyStr.contains "XEN11" hashStr = true ∧ isSuperblock hashStr = true
  · have hkind : classifyBlock hashStr blockType = .xblk := by
      rw [classifyBlock_eq, kindOf, if_neg hfirst, if_pos hsuper]
    have hlabel : hintOf BlockKind.xblk.text ≠ "XUNI" := hxblk ▸ by decide
    rw [hkind, classifyBlock_eq, kindOf, if_neg (hother hlabel), if_pos hsuper]
  by_cases hnormal : PyStr.contains "XEN11" hashStr = true ∨ IsNormalHint blockType
  · have hkind : classifyBlock hashStr blockType = .xnm := by
      rw [classifyBlock_eq, kindOf, if_neg hfirst, if_neg hsuper, if_pos hnormal]
    have hlabel : hintOf BlockKind.xnm.text ≠ "XUNI" := hxnm ▸ by decide
    have hhint : IsNormalHint BlockKind.xnm.text := by
      unfold IsNormalHint
      rw [show hintOf BlockKind.xnm.text = "XNM" from hxnm]
      decide
    rw [hkind, classifyBlock_eq, kindOf, if_neg (hother hlabel), if_neg hsuper, if_pos (Or.inr hhint)]
  · rw [classifyBlock_eq, kindOf, if_neg hfirst, if_neg hsuper, if_neg hnormal] at h
    exact absurd rfl h

theorem isMislabelled_iff :
    isMislabelled r = true ↔ r.isPending = true ∧ newType r ≠ "OTHER" ∧ newType r ≠ r.blockType := by
  unfold isMislabelled
  rw [Bool.and_eq_true, Bool.and_eq_true, decide_eq_true_iff, decide_eq_true_iff, and_assoc]

theorem newType_relabel (r : PendingRow) (label : String) :
    newType { r with blockType := label } = (classifyBlock r.hashStr label).text := rfl

/-- A row is relabelled once. -/
theorem not_isMislabelled_relabelled (h : isMislabelled r = true) :
    ¬ isMislabelled { r with blockType := newType r } = true := by
  obtain ⟨-, hother, -⟩ := isMislabelled_iff.mp h
  rw [isMislabelled_iff]
  rintro ⟨-, -, hdiffer⟩
  apply hdiffer
  have hkind : classifyBlock r.hashStr r.blockType ≠ .other := fun heq =>
    hother (congrArg BlockKind.text heq)
  rw [newType_relabel]
  unfold newType
  rw [classifyBlock_text_self _ _ hkind]

theorem isRejectedPending_congr (hsubmitted : s'.submittedBlocks = s.submittedBlocks) :
    s'.isRejectedPending r = s.isRejectedPending r := by
  unfold isRejectedPending
  rw [hsubmitted]

theorem isRejectedPending_relabel (r : PendingRow) (label : String) :
    s.isRejectedPending { r with blockType := label } = s.isRejectedPending r := rfl

/-- No row of the queue is to be marked. -/
def Marked (s : BlockStore) : Prop := ∀ x ∈ s.pendingBlocks.rows, ¬ s.isRejectedPending x.2 = true

/-- No row of the queue is to be relabelled. -/
def Labelled (s : BlockStore) : Prop := ∀ x ∈ s.pendingBlocks.rows, ¬ isMislabelled x.2 = true

theorem marked_migrate (s : BlockStore) : s.migrateRejectedPending.1.Marked := by
  intro x hx hmark
  rw [migrateRejectedPending_pendingBlocks, Table.mem_update] at hx
  obtain ⟨y, -, rfl⟩ := hx
  dsimp only at hmark
  split_ifs at hmark with hold
  · unfold isRejectedPending at hmark
    simp at hmark
  · exact hold ((isRejectedPending_congr migrateRejectedPending_submittedBlocks).symm.trans hmark)

theorem Marked.reclassify (h : s.Marked) : s.reclassifyPending.1.Marked := by
  intro x hx
  rw [reclassifyPending_pendingBlocks, Table.mem_update] at hx
  obtain ⟨y, hy, rfl⟩ := hx
  rw [isRejectedPending_congr reclassifyPending_submittedBlocks]
  dsimp only
  split_ifs
  · rw [isRejectedPending_relabel]
    exact h y hy
  · exact h y hy

theorem labelled_reclassify (s : BlockStore) : s.reclassifyPending.1.Labelled := by
  intro x hx
  rw [reclassifyPending_pendingBlocks, Table.mem_update] at hx
  obtain ⟨y, -, rfl⟩ := hx
  dsimp only
  split_ifs with hlabel
  · exact not_isMislabelled_relabelled hlabel
  · exact hlabel

theorem migrateRejectedPending_of_marked (h : s.Marked) : s.migrateRejectedPending = (s, 0) := by
  have hnone : s.pendingBlocks.select s.isRejectedPending = [] := List.filter_eq_nil_iff.mpr h
  have hrows : s.pendingBlocks.update (fun _ r => s.isRejectedPending r)
      (fun r => { r with queueReason := resubmissionReason }) = s.pendingBlocks :=
    Table.update_eq_self fun x hx hmark => absurd hmark (h x hx)
  unfold migrateRejectedPending
  rw [hnone, hrows, List.length_nil]

theorem reclassifyPending_of_labelled (h : s.Labelled) : s.reclassifyPending = (s, 0) := by
  have hnone : s.pendingBlocks.select isMislabelled = [] := List.filter_eq_nil_iff.mpr h
  have hrows : s.pendingBlocks.update (fun _ r => isMislabelled r)
      (fun r => { r with blockType := newType r }) = s.pendingBlocks :=
    Table.update_eq_self fun x hx hlabel => absurd hlabel (h x hx)
  unfold reclassifyPending
  rw [hnone, hrows, List.length_nil]

/-! ### Both starts -/

/-- What a start leaves behind. -/
structure Started (s : BlockStore) : Prop where
  takenUp : s.LogTakenUp
  marked : s.Marked
  labelled : s.Labelled

theorem started_startSession (s : BlockStore) : s.startSession.Started where
  takenUp := by
    have hmigrated := (logTakenUp_import s).congr pendingKeys_migrate
      migrateRejectedPending_submittedBlocks migrateRejectedPending_queueJsonl
    exact hmigrated.congr pendingKeys_reclassify reclassifyPending_submittedBlocks
      reclassifyPending_queueJsonl
  marked := (marked_migrate _).reclassify
  labelled := labelled_reclassify _

/-- **A second start has nothing to do:** it imports, marks and relabels no row, and leaves the store as
the first one left it. -/
theorem startSession_startSession (s : BlockStore) :
    s.startSession.importPendingFromJsonl false = (s.startSession, 0) ∧
    s.startSession.migrateRejectedPending = (s.startSession, 0) ∧
    s.startSession.reclassifyPending = (s.startSession, 0) ∧
    s.startSession.startSession = s.startSession := by
  have h := started_startSession s
  have himport := importPendingFromJsonl_of_takenUp h.takenUp
  have hmigrate := migrateRejectedPending_of_marked h.marked
  have hreclassify := reclassifyPending_of_labelled h.labelled
  refine ⟨himport, hmigrate, hreclassify, ?_⟩
  rw [startSession, himport]
  dsimp only
  rw [hmigrate]
  dsimp only
  rw [hreclassify]

end BlockStore

end XenMiner
