import XenMiner.Config.IniEdit

/-!
# Setting one value of an ini file

A missing key of a section that exists is appended behind the last line, wherever that is.  So
`_set_ini_value` sets its value and nothing else exactly when the key is there, or the section is
missing or stands last, or nothing is to be set (`setsOnly_iff`).  Names and values are texts on one line
without surrounding blanks (`Inline`), and no key contains the equals sign.
-/

namespace XenMiner.IniEdit

open PyText

/-- A text on one line, without surrounding blanks. -/
structure Inline (s : Text) : Prop where
  strip_eq : strip s = s
  line : ∀ c ∈ s, isLineBreak c = false

/-- The name of a key. -/
structure KeyName (key : Text) : Prop extends Inline key where
  ne_nil : key ≠ []
  plain : '=' ∉ key

instance {s : Text} : Decidable (Inline s) :=
  decidable_of_iff (strip s = s ∧ s.all (fun c => isLineBreak c = false) = true)
    ⟨fun h => ⟨h.1, forall_mem_of_all h.2⟩, fun h => ⟨h.strip_eq, by simpa using h.line⟩⟩

instance {key : Text} : Decidable (KeyName key) :=
  decidable_of_iff (Inline key ∧ key ≠ [] ∧ '=' ∉ key)
    ⟨fun h => ⟨h.1, h.2.1, h.2.2⟩, fun h => ⟨h.toInline, h.ne_nil, h.plain⟩⟩

variable {C : Casing} {key k sect s value text : Text} {lines : List Text}

theorem Inline.solid (h : Inline s) (hne : s ≠ []) : Solid s := by
  have hstrip := h.strip_eq
  rw [← hstrip]
  exact solid_strip (by rw [hstrip]; exact hne)

theorem KeyName.solid (h : KeyName key) : Solid key := h.toInline.solid h.ne_nil

/-! ### Keys of a line -/

namespace Casing

theorem keyMatches_iff : C.keyMatches key text = true ↔
    ∃ written rest, text = written ++ rest ∧ C.SameKey written key ∧
      (lstrip rest).head? = some '=' := by
  induction key generalizing text with
  | nil =>
    constructor
    · intro h
      exact ⟨[], text, rfl, rfl, of_decide_eq_true h⟩
    · rintro ⟨written, rest, rfl, hsame, hrest⟩
      obtain rfl := List.map_eq_nil_iff.mp hsame
      exact decide_eq_true hrest
  | cons a key ih =>
    cases text with
    | nil =>
      refine iff_of_false Bool.false_ne_true ?_
      rintro ⟨written, rest, htext, hsame, -⟩
      obtain ⟨rfl, -⟩ := List.append_eq_nil_iff.mp htext.symm
      cases hsame
    | cons c text =>
      rw [keyMatches, Bool.and_eq_true, decide_eq_true_eq, ih]
      constructor
      · rintro ⟨hfold, written, rest, rfl, hsame, hrest⟩
        exact ⟨c :: written, rest, rfl, List.cons_eq_cons.mpr ⟨hfold.symm, hsame⟩, hrest⟩
      · rintro ⟨written, rest, htext, hsame, hrest⟩
        cases written with
        | nil => cases hsame
        | cons d written =>
          obtain ⟨rfl, rfl⟩ := List.cons_eq_cons.mp htext
          obtain ⟨hfold, hsame⟩ := List.cons_eq_cons.mp hsame
          exact ⟨hfold.symm, written, rest, rfl, hsame, hrest⟩

/-- The key that is written in front of an equals sign. -/
def writtenKey (text : Text) : Text := rstrip (text.takeWhile (· ≠ '='))

/-- A line is matched by one key only. -/
theorem sameKey_writtenKey (hkey : KeyName key) (h : C.keyMatches key text = true) :
    C.SameKey (writtenKey text) key := by
  obtain ⟨written, rest, rfl, hsame, hrest⟩ := keyMatches_iff.mp h
  have hplain : ∀ c ∈ written, decide (c ≠ '=') = true := by
    intro c hc
    refine decide_eq_true ?_
    rintro rfl
    have hfold : C.fold '=' ∈ key.map C.fold := hsame ▸ List.mem_map_of_mem hc
    obtain ⟨d, hd, heq⟩ := List.mem_map.mp hfold
    exact hkey.plain (C.fold_eq d heq ▸ hd)
  have hlast : ∀ c ∈ written.getLast?, PyStr.isSpace c = false := by
    intro c hc
    have hmap : (key.map C.fold).getLast? = some (C.fold c) := by
      rw [← hsame, List.getLast?_map, Option.mem_def.mp hc]
      rfl
    rw [List.getLast?_map] at hmap
    obtain ⟨d, hd, heq⟩ := Option.map_eq_some_iff.mp hmap
    rw [← C.fold_space d c heq]
    exact hkey.solid.last d hd
  -- Between the key and the equals sign there are spaces only.
  have hspaces : ∀ (rest : Text), (lstrip rest).head? = some '=' →
      ∀ c ∈ rest.takeWhile (· ≠ '='), PyStr.isSpace c = true := by
    intro rest
    induction rest with
    | nil => exact fun _ c hc => absurd hc List.not_mem_nil
    | cons d rest ih =>
      intro hhead c hc
      by_cases hd : PyStr.isSpace d = true
      · unfold lstrip at hhead
        rw [List.dropWhile_cons_of_pos hd] at hhead
        rw [List.takeWhile_cons] at hc
        split_ifs at hc with hne
        · rcases List.mem_cons.mp hc with rfl | hc
          · exact hd
          · exact ih hhead c hc
        · cases hc
      · unfold lstrip at hhead
        rw [List.dropWhile_cons_of_neg hd] at hhead
        obtain rfl : d = '=' := Option.some.inj hhead
        rw [List.takeWhile_cons_of_neg (by decide)] at hc
        cases hc
  unfold writtenKey
  rw [List.takeWhile_append_of_pos hplain, rstrip_append_spaces written (hspaces rest hrest),
    rstrip_of_last hlast]
  exact hsame

theorem sameKey_of_keyMatches (hkey : KeyName key) (hk : KeyName k)
    (h : C.keyMatches key text = true) (h' : C.keyMatches k text = true) : C.SameKey key k :=
  (sameKey_writtenKey hkey h).symm.trans (sameKey_writtenKey hk h')

end Casing

/-! ### The line that is written -/

/-- What is left of the new line when it is read. -/
theorem strip_keyLine (hkey : KeyName key) (hvalue : Inline value) :
    ∃ tail, strip (keyLine key value) = key ++ ' ' :: '=' :: tail ∧ strip tail = value ∧
      tail.getLast? = value.getLast? := by
  by_cases hne : value = []
  · subst hne
    refine ⟨[], ?_, rfl, rfl⟩
    have hsolid : Solid (key ++ [' '] ++ ['=']) := by
      refine hkey.solid.append ⟨List.cons_ne_nil _ _, ?_, ?_⟩ [' ']
      · intro c hc
        rw [← Option.some.inj hc]
        decide
      · intro c hc
        rw [← Option.some.inj hc]
        decide
    have hline : keyLine key [] = (key ++ [' '] ++ ['=']) ++ [' '] := by simp [keyLine]
    have hfront : lstrip (keyLine key []) = keyLine key [] := by
      refine lstrip_of_head fun c hc => hkey.solid.head c ?_
      obtain ⟨d, rest, hd⟩ := List.exists_cons_of_ne_nil hkey.ne_nil
      rw [hd] at hc ⊢
      exact hc
    unfold strip
    rw [hfront, hline, rstrip_append_spaces _ (forall_mem_of_all (by decide)),
      rstrip_of_last hsolid.last]
    simp
  · have hsolid := hvalue.solid hne
    refine ⟨' ' :: value, ?_, hsolid.strip_cons (by decide), ?_⟩
    · have hline := (hkey.solid.append hsolid [' ', '=', ' ']).strip_eq
      show strip (key ++ [' ', '=', ' '] ++ value) = _
      rw [hline]
      simp
    · exact List.getLast?_cons_of_ne_nil hne

theorem valueOf_keyLine (hkey : KeyName key) (hvalue : Inline value) :
    valueOf (strip (keyLine key value)) = value := by
  obtain ⟨tail, hline, hstrip, -⟩ := strip_keyLine hkey hvalue
  have hplain : ∀ c ∈ key ++ [' '], decide (c ≠ '=') = true := by
    intro c hc
    refine decide_eq_true ?_
    rintro rfl
    rcases List.mem_append.mp hc with hc | hc
    · exact hkey.plain hc
    · exact absurd (List.mem_singleton.mp hc) (by decide)
  have hsplit : key ++ ' ' :: '=' :: tail = (key ++ [' ']) ++ '=' :: tail := by simp
  unfold valueOf
  rw [hline, hsplit, List.dropWhile_append_of_pos hplain, List.dropWhile_cons_of_neg (by decide)]
  exact hstrip

namespace Casing

theorem keyMatches_keyLine (hkey : KeyName key) (hvalue : Inline value) :
    C.keyMatches key (strip (keyLine key value)) = true := by
  obtain ⟨tail, hline, -, -⟩ := strip_keyLine hkey hvalue
  rw [hline]
  exact keyMatches_iff.mpr ⟨key, _, rfl, rfl, rfl⟩

/-- The new line opens a section. -/
def OpensSection (key value : Text) : Prop := key.head? = some '[' ∧ value.getLast? = some ']'

instance : Decidable (OpensSection key value) := inferInstanceAs (Decidable (_ ∧ _))

theorem headerName_keyLine (hkey : KeyName key) (hvalue : Inline value) :
    C.headerName (strip (keyLine key value)) = none ↔ ¬ OpensSection key value := by
  obtain ⟨tail, hline, -, hlast⟩ := strip_keyLine hkey hvalue
  have hhead : (strip (keyLine key value)).head? = key.head? := by
    obtain ⟨d, rest, hd⟩ := List.exists_cons_of_ne_nil hkey.ne_nil
    rw [hline, hd]
    rfl
  have hend : (strip (keyLine key value)).getLast? = some ']' ↔ value.getLast? = some ']' := by
    rw [hline, ← hlast, List.getLast?_append_of_ne_nil _ (List.cons_ne_nil _ _)]
    cases tail with
    | nil => decide
    | cons c tail => rfl
  unfold headerName OpensSection
  rw [← hend, ← hhead]
  by_cases h : (strip (keyLine key value)).head? = some '[' ∧
      (strip (keyLine key value)).getLast? = some ']'
  · rw [if_pos h]
    exact iff_of_false (Option.some_ne_none _) (not_not.mpr h)
  · rw [if_neg h]
    exact iff_of_true rfl h

/-! ### Scanners of the editor -/

theorem sameHeaders (C : Casing) (sect key s k : Text) :
    LineScanner.SameHeaders (C.scanner sect key) (C.scanner s k) := fun line => by
  show Option.map _ _ = none ↔ Option.map _ _ = none
  rw [Option.map_eq_none_iff, Option.map_eq_none_iff]

theorem opens_eq_true (h : (C.scanner sect key).opens text = some true) :
    C.headerName (strip text) = some (C.lower sect) := by
  obtain ⟨name, hname, heq⟩ := Option.map_eq_some_iff.mp h
  rw [hname, of_decide_eq_true heq]

theorem opens_keyLine (hkey : KeyName key) (hvalue : Inline value) :
    (C.scanner s k).opens (keyLine key value) = none ↔ ¬ OpensSection key value :=
  Option.map_eq_none_iff.trans (headerName_keyLine hkey hvalue)

/-- Other keys are on other lines. -/
theorem apart (hkey : KeyName key) (hk : KeyName k) (hvalue : Inline value)
    (hne : ¬ C.SameKey k key) :
    LineScanner.Apart (C.scanner sect key) (C.scanner s k) (keyLine key value) := by
  have hline : ∀ line, C.keyMatches key (strip line) = true → C.keyMatches k (strip line) = false := by
    intro line hmatch
    refine eq_false_of_ne_true fun hother => ?_
    exact hne (sameKey_of_keyMatches hk hkey hother hmatch)
  exact ⟨hline _ (keyMatches_keyLine hkey hvalue), hline⟩

/-- A pair that names something else looks for other lines, or in another section. -/
theorem apart_of_opens (hkey : KeyName key) (hk : KeyName k) (hvalue : Inline value)
    (hother : ¬(C.SameSection s sect ∧ C.SameKey k key))
    (hopens : (C.scanner sect key).opens text = some true)
    (hopens' : (C.scanner s k).opens text = some true) :
    LineScanner.Apart (C.scanner sect key) (C.scanner s k) (keyLine key value) := by
  refine apart hkey hk hvalue fun hsame => hother ⟨?_, hsame⟩
  exact Option.some.inj ((opens_eq_true hopens').symm.trans (opens_eq_true hopens))

/-! ### The lines that are appended -/

/-- The new header. -/
def header (sect : Text) : Text := '[' :: sect ++ [']']

/-- The blank line in front of it, if there is one. -/
def blank (out : List Text) : List Text :=
  if (out.getLast?.any fun line => strip line ≠ []) then [[]] else []

theorem appendHeader_eq (sect : Text) (out : List Text) :
    appendHeader sect out = out ++ (blank out ++ [header sect]) := by
  unfold appendHeader blank header
  split_ifs
  · rw [List.append_assoc]
  · rfl

theorem opens_header (hsect : Inline sect) (s k : Text) :
    (C.scanner s k).opens (header sect) = some (decide (C.lower sect = C.lower s)) := by
  have hstrip : strip (header sect) = header sect := by
    have hsolid : Solid ((['['] : Text) ++ sect ++ [']']) := by
      refine Solid.append ⟨List.cons_ne_nil _ _, ?_, ?_⟩ ⟨List.cons_ne_nil _ _, ?_, ?_⟩ sect
      all_goals
        intro c hc
        rw [← Option.some.inj hc]
        decide
    exact hsolid.strip_eq
  have hlast : (header sect).getLast? = some ']' := by
    unfold header
    rw [List.getLast?_append]
    rfl
  have hname : C.headerName (strip (header sect)) = some (C.lower sect) := by
    unfold headerName
    rw [hstrip, if_pos ⟨rfl, hlast⟩]
    unfold header
    rw [List.cons_append, List.drop_one, List.tail_cons, List.dropLast_concat, hsect.strip_eq]
  show (C.headerName (strip (header sect))).map _ = _
  rw [hname]
  rfl

/-- The new header and the new line, as another scanner reads them. -/
theorem find?_header (hsect : Inline sect) (hk : KeyName k) (out : List Text) (b : Bool)
    (new : Text) :
    (C.scanner s k).find? b (blank out ++ [header sect] ++ [new]) =
      (C.scanner s k).find? (decide (C.lower sect = C.lower s)) [new] := by
  obtain ⟨a, rest, rfl⟩ := List.exists_cons_of_ne_nil hk.ne_nil
  have hheader : ∀ b, (C.scanner s (a :: rest)).find? b ([header sect] ++ [new]) =
      (C.scanner s (a :: rest)).find? (decide (C.lower sect = C.lower s)) [new] := by
    intro b
    have hopens := opens_header (C := C) hsect s (a :: rest)
    rw [List.singleton_append, LineScanner.find?, LineScanner.here_of_opens_some hopens,
      if_neg Bool.false_ne_true]
    unfold LineScanner.next
    rw [hopens]
    rfl
  unfold blank
  split_ifs
  · -- A blank line is no header, and no key is on it.
    rw [List.append_assoc, List.singleton_append, LineScanner.find?]
    have hhere : (C.scanner s (a :: rest)).here b [] = false := Bool.and_false b
    rw [hhere, if_neg Bool.false_ne_true]
    exact hheader _
  · exact hheader b

/-! ### The file that is written -/

/-- The value is set, and every other value is read as before. -/
structure SetsOnly (C : Casing) (file sect key value : Text) : Prop where
  own : C.readIniValue (C.setIniValue file sect key value) sect key = value
  others : ∀ s k, KeyName k → ¬(C.SameSection s sect ∧ C.SameKey k key) →
    C.readIniValue (C.setIniValue file sect key value) s k = C.readIniValue file s k

/-- The key has a line in the section. -/
def KeyThere (C : Casing) (sect key : Text) (lines : List Text) : Prop :=
  ((C.scanner sect key).find? false lines).isSome = true

/-- The file ends in the section. -/
def SectionLast (C : Casing) (sect key : Text) (lines : List Text) : Prop :=
  (C.scanner sect key).endsIn false lines = true

/-- What a pair reads from the lines. -/
def readLines (C : Casing) (s k : Text) (lines : List Text) : Text :=
  (((C.scanner s k).find? false lines).map fun line => valueOf (strip line)).getD []

theorem setLines_of_keyThere (h : C.KeyThere sect key lines) :
    C.setLines sect key value lines =
      (C.scanner sect key).edit (keyLine key value) false lines := if_pos h

theorem find?_of_not_keyThere (h : ¬ C.KeyThere sect key lines) :
    (C.scanner sect key).find? false lines = none := by
  unfold KeyThere at h
  rwa [Option.isSome_iff_ne_none, not_not] at h

/-- Without the key the new line comes last, if need be behind a new header. -/
theorem setLines_of_not_keyThere (h : ¬ C.KeyThere sect key lines) :
    C.setLines sect key value lines =
      if C.hasHeader sect lines = true then lines ++ [keyLine key value]
      else lines ++ (blank lines ++ [header sect] ++ [keyLine key value]) := by
  have hnone := find?_of_not_keyThere h
  have hsame : (C.scanner sect key).edit (keyLine key value) false lines = lines :=
    LineScanner.edit_of_find?_eq_none hnone
  have hnot : ¬ ((C.scanner sect key).find? false lines).isSome = true := h
  have hset : C.setLines sect key value lines =
      if ((C.scanner sect key).find? false lines).isSome = true then
        (C.scanner sect key).edit (keyLine key value) false lines
      else (if C.hasHeader sect lines = true then
          (C.scanner sect key).edit (keyLine key value) false lines
        else appendHeader sect ((C.scanner sect key).edit (keyLine key value) false lines)) ++
          [keyLine key value] := rfl
  rw [hset, if_neg hnot, hsame]
  split_ifs
  · rfl
  · rw [appendHeader_eq, List.append_assoc]

/-- The lines that are written are read back. -/
theorem splitlines_setIniValue (hsect : Inline sect) (hkey : KeyName key) (hvalue : Inline value)
    (file : Text) : splitlines (C.setIniValue file sect key value) =
      C.setLines sect key value (splitlines file) := by
  have hnew : ∀ c ∈ keyLine key value, isLineBreak c = false := by
    have hmid : ∀ c ∈ ([' ', '=', ' '] : Text), isLineBreak c = false :=
      forall_mem_of_all (by decide)
    exact List.forall_mem_append.mpr ⟨List.forall_mem_append.mpr ⟨hkey.line, hmid⟩, hvalue.line⟩
  have hheader : ∀ c ∈ header sect, isLineBreak c = false := by
    have hopen : ∀ c ∈ (['['] : Text), isLineBreak c = false := forall_mem_of_all (by decide)
    have hclose : ∀ c ∈ ([']'] : Text), isLineBreak c = false := forall_mem_of_all (by decide)
    exact List.forall_mem_append.mpr ⟨List.forall_mem_append.mpr ⟨hopen, hsect.line⟩, hclose⟩
  have hold : ∀ line ∈ splitlines file, ∀ c ∈ line, isLineBreak c = false := not_mem_splitLines
  refine splitLines_joinLines rfl ?_ ?_
  · by_cases hthere : C.KeyThere sect key (splitlines file)
    · rw [setLines_of_keyThere hthere]
      refine LineScanner.edit_ne_nil fun hnil => ?_
      rw [hnil] at hthere
      cases hthere
    · rw [setLines_of_not_keyThere hthere]
      split_ifs <;> simp
  · by_cases hthere : C.KeyThere sect key (splitlines file)
    · rw [setLines_of_keyThere hthere]
      intro line hline
      rcases LineScanner.mem_edit hline with rfl | hline
      · exact hnew
      · exact hold line hline
    · rw [setLines_of_not_keyThere hthere]
      split_ifs
      · exact List.forall_mem_append.mpr ⟨hold, List.forall_mem_singleton.mpr hnew⟩
      · refine List.forall_mem_append.mpr ⟨hold, List.forall_mem_append.mpr
          ⟨List.forall_mem_append.mpr ⟨?_, List.forall_mem_singleton.mpr hheader⟩,
            List.forall_mem_singleton.mpr hnew⟩⟩
        unfold blank
        split_ifs
        · exact List.forall_mem_singleton.mpr fun c hc => absurd hc List.not_mem_nil
        · exact fun line hline => absurd hline List.not_mem_nil

theorem setsOnly_lines (hsect : Inline sect) (hkey : KeyName key) (hvalue : Inline value)
    (file : Text) : SetsOnly C file sect key value ↔
      readLines C sect key (C.setLines sect key value (splitlines file)) = value ∧
        ∀ s k, KeyName k → ¬(C.SameSection s sect ∧ C.SameKey k key) →
          readLines C s k (C.setLines sect key value (splitlines file)) =
            readLines C s k (splitlines file) := by
  have hread : ∀ s k, C.readIniValue (C.setIniValue file sect key value) s k =
      readLines C s k (C.setLines sect key value (splitlines file)) := fun s k => by
    unfold readIniValue readLines
    rw [splitlines_setIniValue hsect hkey hvalue]
  constructor
  · intro h
    refine ⟨(hread sect key).symm.trans h.own, fun s k hk hother => ?_⟩
    exact (hread s k).symm.trans (h.others s k hk hother)
  · rintro ⟨hself, hothers⟩
    refine ⟨(hread sect key).trans hself, fun s k hk hother => ?_⟩
    exact (hread s k).trans (hothers s k hk hother)

/-! ### Reading the lines that are written -/

theorem readLines_eq (s k : Text) (lines more : List Text) :
    readLines C s k (lines ++ more) =
      (((C.scanner s k).find? false lines).or
        ((C.scanner s k).find? ((C.scanner s k).endsIn false lines) more)).elim []
        fun line => valueOf (strip line) := by
  unfold readLines
  rw [LineScanner.find?_append]
  cases ((C.scanner s k).find? false lines).or
    ((C.scanner s k).find? ((C.scanner s k).endsIn false lines) more) <;> rfl

theorem readLines_self (s k : Text) (lines : List Text) :
    readLines C s k lines =
      ((C.scanner s k).find? false lines).elim [] fun line => valueOf (strip line) := by
  unfold readLines
  cases (C.scanner s k).find? false lines <;> rfl

/-- The new line alone, read with the flag up or down. -/
theorem find?_keyLine (hopens : (C.scanner s k).opens (keyLine key value) = none) (b : Bool) :
    (C.scanner s k).find? b [keyLine key value] =
      if (b && C.keyMatches k (strip (keyLine key value))) = true then some (keyLine key value)
      else none := by
  rw [LineScanner.find?, LineScanner.here_of_opens_none hopens]
  rfl

/-- A new line that opens a section is not read. -/
theorem find?_setLines_of_opens (hsect : Inline sect) (hkey : KeyName key) (hvalue : Inline value)
    (hopens : OpensSection key value) (lines : List Text) :
    (C.scanner sect key).find? false (C.setLines sect key value lines) = none := by
  have hnot := (not_congr (opens_keyLine (C := C) (s := sect) (k := key) hkey hvalue)).mpr
    (not_not.mpr hopens)
  obtain ⟨c, hc⟩ := Option.ne_none_iff_exists'.mp hnot
  have halone : ∀ b, (C.scanner sect key).find? b [keyLine key value] = none := by
    intro b
    rw [LineScanner.find?, LineScanner.here_of_opens_some hc]
    rfl
  by_cases hthere : C.KeyThere sect key lines
  · rw [setLines_of_keyThere hthere]
    exact LineScanner.find?_edit_header hc id
  · have hnone := find?_of_not_keyThere hthere
    rw [setLines_of_not_keyThere hthere]
    split_ifs
    · rw [LineScanner.find?_append, hnone, halone]
      rfl
    · rw [LineScanner.find?_append, hnone, find?_header hsect hkey, halone]
      rfl

/-- Where a pair is read whose line is not the new one, nothing changes. -/
theorem readLines_setLines_of_ne (hsect : Inline sect) (hkey : KeyName key) (hk : KeyName k)
    (hvalue : Inline value) (hopens : ¬ OpensSection key value)
    (hother : ¬(C.SameSection s sect ∧ C.SameKey k key))
    (hlast : C.KeyThere sect key lines ∨ C.hasHeader sect lines = false ∨
      C.SectionLast sect key lines) :
    readLines C s k (C.setLines sect key value lines) = readLines C s k lines := by
  have hnew : (C.scanner s k).opens (keyLine key value) = none :=
    (opens_keyLine hkey hvalue).mpr hopens
  have hparts : ∀ line, (C.scanner sect key).opens line = some true →
      (C.scanner s k).opens line = some true →
      LineScanner.Apart (C.scanner sect key) (C.scanner s k) (keyLine key value) :=
    fun line => apart_of_opens hkey hk hvalue hother
  by_cases hthere : C.KeyThere sect key lines
  · -- a line is replaced, and the two scanners never meet on it
    rw [setLines_of_keyThere hthere]
    unfold readLines
    rw [LineScanner.find?_edit_of_apart (sameHeaders C sect key s k)
      ((opens_keyLine hkey hvalue).mpr hopens) (fun h => absurd h Bool.false_ne_true) hparts]
  · rw [setLines_of_not_keyThere hthere]
    split_ifs with hheader
    · -- The new line stands in the section of the key, and the pair is not read there.
      have hends : C.SectionLast sect key lines := by
        rcases hlast with h | h | h
        · exact absurd h hthere
        · rw [h] at hheader
          cases hheader
        · exact h
      have hquiet : ((C.scanner s k).endsIn false lines
          && C.keyMatches k (strip (keyLine key value))) = false := by
        cases hflag : (C.scanner s k).endsIn false lines with
        | false => rfl
        | true =>
          rcases LineScanner.endsIn_both (sameHeaders C sect key s k) hends hflag with
            ⟨hb, -⟩ | ⟨line, -, hboth⟩
          · cases hb
          · exact (hparts line hboth.1 hboth.2).1
      rw [readLines_eq, find?_keyLine hnew, if_neg (by rw [hquiet]; decide), Option.or_none,
        readLines_self]
    · -- the section is new, and the new line the only one in it
      have hquiet : (decide (C.lower sect = C.lower s)
          && C.keyMatches k (strip (keyLine key value))) = false := by
        by_cases hsame : C.lower sect = C.lower s
        · have hne : ¬ C.SameKey k key := fun hkeys => hother ⟨hsame.symm, hkeys⟩
          have happart : LineScanner.Apart (C.scanner sect key) (C.scanner s k)
              (keyLine key value) := apart hkey hk hvalue hne
          exact Bool.and_eq_false_iff.mpr (Or.inr happart.1)
        · rw [decide_eq_false hsame, Bool.false_and]
      rw [readLines_eq, find?_header hsect hk, find?_keyLine hnew, if_neg (by rw [hquiet]; decide),
        Option.or_none, readLines_self]

/-- The key reads the new value if its line is there, or comes into its section. -/
theorem readLines_setLines (hsect : Inline sect) (hkey : KeyName key) (hvalue : Inline value)
    (hopens : ¬ OpensSection key value)
    (hlast : C.KeyThere sect key lines ∨ C.hasHeader sect lines = false ∨
      C.SectionLast sect key lines) :
    readLines C sect key (C.setLines sect key value lines) = value := by
  have hnew : (C.scanner sect key).opens (keyLine key value) = none :=
    (opens_keyLine hkey hvalue).mpr hopens
  have hmatch := keyMatches_keyLine (C := C) hkey hvalue
  have hvalueOf := valueOf_keyLine hkey hvalue
  by_cases hthere : C.KeyThere sect key lines
  · rw [setLines_of_keyThere hthere, readLines_self,
      LineScanner.find?_edit_self hnew hmatch (Option.isSome_iff_ne_none.mp hthere)]
    exact hvalueOf
  · have hnone := find?_of_not_keyThere hthere
    rw [setLines_of_not_keyThere hthere]
    split_ifs with hheader
    · have hends : (C.scanner sect key).endsIn false lines = true := by
        rcases hlast with h | h | h
        · exact absurd h hthere
        · rw [h] at hheader
          cases hheader
        · exact h
      rw [readLines_eq, hnone, find?_keyLine hnew, hends, hmatch]
      exact hvalueOf
    · rw [readLines_eq, hnone, find?_header hsect hkey, find?_keyLine hnew, decide_eq_true rfl, hmatch]
      exact hvalueOf

/-- A line that is appended in another section is not read, and its pair there reads nothing new unless
there is a value. -/
theorem readLines_setLines_of_not_last (hkey : KeyName key) (hvalue : Inline value)
    (hopens : ¬ OpensSection key value) (hthere : ¬ C.KeyThere sect key lines)
    (hheader : C.hasHeader sect lines = true) (hlast : ¬ C.SectionLast sect key lines) :
    readLines C sect key (C.setLines sect key value lines) = [] ∧
      (value = [] → ∀ s k, readLines C s k (C.setLines sect key value lines)
        = readLines C s k lines) := by
  have hnew : ∀ s k, (C.scanner s k).opens (keyLine key value) = none :=
    fun s k => (opens_keyLine hkey hvalue).mpr hopens
  have hvalueOf := valueOf_keyLine hkey hvalue
  rw [setLines_of_not_keyThere hthere, if_pos hheader]
  constructor
  · have hnone := find?_of_not_keyThere hthere
    have hends : (C.scanner sect key).endsIn false lines = false := eq_false_of_ne_true hlast
    rw [readLines_eq, hnone, find?_keyLine (hnew sect key), hends]
    rfl
  · intro hempty s k
    rw [readLines_eq, readLines_self, find?_keyLine (hnew s k)]
    cases (C.scanner s k).find? false lines with
    | some line => rfl
    | none =>
      split_ifs
      · exact hvalueOf.trans hempty
      · rfl

/-- **Setting a value sets that value and nothing else exactly in these files**: the key is in the
section, or the section has no header yet, or it stands last; or the value is empty.  And the new line
must not read as a header. -/
theorem setsOnly_iff (C : Casing) (file sect key value : Text) (hsect : Inline sect)
    (hkey : KeyName key) (hvalue : Inline value) :
    SetsOnly C file sect key value ↔
      ¬ OpensSection key value ∧
        (C.KeyThere sect key (splitlines file) ∨ C.hasHeader sect (splitlines file) = false ∨
          C.SectionLast sect key (splitlines file) ∨ value = []) := by
  rw [setsOnly_lines hsect hkey hvalue]
  by_cases hopens : OpensSection key value
  · -- a line that opens a section is not read as the key's, so nothing is read
    refine iff_of_false (fun h => ?_) fun h => h.1 hopens
    have hself := h.1
    rw [readLines_self, find?_setLines_of_opens hsect hkey hvalue hopens] at hself
    have hlast := hopens.2
    rw [← hself] at hlast
    cases hlast
  by_cases hlast : C.KeyThere sect key (splitlines file) ∨ C.hasHeader sect (splitlines file) = false ∨
      C.SectionLast sect key (splitlines file)
  · refine iff_of_true ⟨readLines_setLines hsect hkey hvalue hopens hlast, ?_⟩ ⟨hopens, ?_⟩
    · exact fun s k hk hother =>
        readLines_setLines_of_ne hsect hkey hk hvalue hopens hother hlast
    · exact hlast.imp_right (Or.imp_right Or.inl)
  · -- the new line lands in another section and is not read there
    obtain ⟨hthere, hheader, hends⟩ : ¬ C.KeyThere sect key (splitlines file) ∧
        ¬ C.hasHeader sect (splitlines file) = false ∧ ¬ C.SectionLast sect key (splitlines file) :=
      ⟨fun h => hlast (Or.inl h), fun h => hlast (Or.inr (Or.inl h)),
        fun h => hlast (Or.inr (Or.inr h))⟩
    obtain ⟨hself, hothers⟩ := readLines_setLines_of_not_last hkey hvalue hopens hthere
      (eq_true_of_ne_false hheader) hends
    constructor
    · intro h
      exact ⟨hopens, Or.inr (Or.inr (Or.inr (h.1.symm.trans hself)))⟩
    · rintro ⟨-, h | h | h | hempty⟩
      · exact absurd h hthere
      · exact absurd h hheader
      · exact absurd h hends
      · exact ⟨hself.trans hempty.symm, fun s k _ _ => hothers hempty s k⟩

end Casing

/-- Two sections, the first without the key. -/
def twoSections : Text := "[account]\n[monitoring]\n".toList

/-- A value is set in the last section. -/
theorem setsOnly_iff_last :
    Casing.SetsOnly letters twoSections "monitoring".toList "port".toList "80".toList := by
  have hlast : (letters.scanner "monitoring".toList "port".toList).endsIn false
      (splitlines twoSections) = true := by decide
  refine (Casing.setsOnly_iff letters twoSections _ _ _ ?_ ?_ ?_).mpr
    ⟨?_, Or.inr (Or.inr (Or.inl hlast))⟩
  · decide
  · decide
  · decide
  · decide

/-- The worker of the account is written behind the last section: it is not read back, and the section
`monitoring` reads a worker. -/
theorem setsOnly_fails :
    ¬ Casing.SetsOnly letters twoSections "account".toList "worker".toList "Rig-A".toList ∧
      letters.readIniValue (letters.setIniValue twoSections "account".toList "worker".toList
        "Rig-A".toList) "account".toList "worker".toList = [] ∧
      letters.readIniValue (letters.setIniValue twoSections "account".toList "worker".toList
        "Rig-A".toList) "monitoring".toList "worker".toList = "Rig-A".toList := by
  have hlost : letters.readIniValue (letters.setIniValue twoSections "account".toList
      "worker".toList "Rig-A".toList) "account".toList "worker".toList = [] := by decide
  refine ⟨fun h => ?_, hlost, by decide⟩
  have hown := h.own
  rw [hlost] at hown
  cases hown

end XenMiner.IniEdit
