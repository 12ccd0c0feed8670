import XenMiner.Config.Equiv.IniEdit
import XenMiner.Config.WalletSetup
import XenMiner.Lib.Equiv.ConfigParser

/-!
# What the line editor of `miner.ini` leaves

Lines are `Editable` for an option when the editor and `configparser` agree on its line, nothing
indented follows that line, and lines without it end in the section of the option.  Setting the option
in a file with such lines sets it for both readers (`Writable.parse_setIniValue`,
`Writable.readIniValue_setIniValue`); the editor reads other options as before
(`Writable.readIniValue_setIniValue_of_ne`), and the file can be written to for them
(`Writable.setIniValue_of_ne`).
-/

namespace XenMiner.WalletSetup

open PyText ConfigParser
open IniEdit (letters keyLine valueOf keyLetters foldChar Inline KeyName)
open IniEdit.Casing (KeyThere SectionLast)

variable {sect key k s value new line : Text} {lines : List Text} {b b' : Bool}

/-! ### The lines of an option -/

/-- The lines that the editor takes for those of an option. -/
def marks (sect key : Text) (lines : List Text) : List Bool :=
  (letters.scanner sect key).marks false lines

theorem true_mem_marks : true ∈ marks sect key lines ↔ KeyThere letters sect key lines :=
  LineScanner.true_mem_marks

theorem edit_eq_replaceMarked (S : LineScanner Text) (new : Text) (b : Bool) (lines : List Text) :
    S.edit new b lines = replaceMarked new (S.marks b lines) lines := by
  induction lines generalizing b with
  | nil => rfl
  | cons line lines ih => exact congrArg _ (ih _)

/-! ### Keys -/

/-- A name of an option in small letters. -/
structure IniKey (key : Text) : Prop where
  ne_nil : key ≠ []
  small : ∀ c ∈ key, c ∈ keyLetters

theorem letters_spec : ∀ c ∈ keyLetters, PyStr.isSpace c = false ∧ isDelimiter c = false ∧
    isLineBreak c = false ∧ PyStr.lowerChar c = [c] ∧ foldChar c = c ∧ c ≠ '#' ∧ c ≠ ';' ∧
    c ≠ '[' := by
  have hall : keyLetters.all (fun c => PyStr.isSpace c = false ∧ isDelimiter c = false ∧
      isLineBreak c = false ∧ PyStr.lowerChar c = [c] ∧ foldChar c = c ∧ c ≠ '#' ∧ c ≠ ';' ∧
      c ≠ '[') = true := by decide +kernel
  exact forall_mem_of_all hall

theorem IniKey.solid (h : IniKey key) : Solid key where
  ne_nil := h.ne_nil
  head c hc := (letters_spec c (h.small c (List.mem_of_mem_head? hc))).1
  last c hc := (letters_spec c (h.small c (List.mem_of_getLast? hc))).1

theorem IniKey.plainKey (h : IniKey key) : PlainKey key where
  solid := h.solid
  lower := by
    have hlower : ∀ c ∈ key, PyStr.lowerChar c = [c] := fun c hc =>
      (letters_spec c (h.small c hc)).2.2.2.1
    unfold lower
    rw [List.flatMap_congr hlower, List.flatMap_singleton']
  delimiter c hc := (letters_spec c (h.small c hc)).2.1
  start c hc := (letters_spec c (h.small c (List.mem_of_mem_head? hc))).2.2.2.2.2

theorem IniKey.keyName (h : IniKey key) : KeyName key where
  strip_eq := h.solid.strip_eq
  line c hc := (letters_spec c (h.small c hc)).2.2.1
  ne_nil := h.ne_nil
  plain hc := absurd (letters_spec '=' (h.small '=' hc)).2.1 (by decide)

/-- Small letters stand for themselves, so that one key has one name. -/
theorem IniKey.eq_of_sameKey (hkey : IniKey key) (hk : IniKey k) (h : letters.SameKey k key) :
    k = key := by
  have hself : ∀ name, IniKey name → name.map foldChar = name := fun name hname =>
    (List.map_congr_left fun c hc => (letters_spec c (hname.small c hc)).2.2.2.2.1).trans
      (List.map_id' name)
  exact (hself k hk).symm.trans (h.trans (hself key hkey))

/-! ### The line that is written -/

/-- A value on one line that refers to no option. -/
structure IniValue (value : Text) : Prop where
  solid : Solid value
  line : ∀ c ∈ value, isLineBreak c = false
  literal : (literal value).isSome = true

theorem IniValue.inline (h : IniValue value) : Inline value := ⟨h.solid.strip_eq, h.line⟩

theorem keyLine_eq_optionLine (key value : Text) : keyLine key value = optionLine key value := rfl

/-- The new line of a key is no header. -/
theorem IniKey.not_opensSection (h : IniKey key) (value : Text) :
    ¬ IniEdit.Casing.OpensSection key value := fun hopens =>
  (letters_spec '[' (h.small '[' (List.mem_of_mem_head? hopens.1))).2.2.2.2.2.2.2 rfl

theorem opens_keyLine (hkey : IniKey key) (hvalue : IniValue value) :
    (letters.scanner s k).opens (keyLine key value) = none :=
  (IniEdit.Casing.opens_keyLine hkey.keyName hvalue.inline).mpr (hkey.not_opensSection value)

theorem apart_of_ne (hkey : IniKey key) (hk : IniKey k) (hvalue : IniValue value) (hne : key ≠ k) :
    LineScanner.Apart (letters.scanner sect key) (letters.scanner s k) (keyLine key value) :=
  IniEdit.Casing.apart hkey.keyName hk.keyName hvalue.inline fun hsame =>
    hne (hkey.eq_of_sameKey hk hsame).symm

/-! ### Files the editor can write to -/

/-- The editor and the parser agree on the option in these lines. -/
structure Editable (sect key : Text) (lines : List Text) : Prop where
  /-- They find it on the same lines. -/
  agree : marks sect key lines = (items {} lines).map (Item.isOption sect key)
  /-- Nothing indented follows its line. -/
  settled : Settled (marks sect key lines) lines
  /-- Without a line of its own it belongs at the end. -/
  last : true ∉ marks sect key lines →
    (placeAfter {} lines).sect = some sect ∧ SectionLast letters sect key lines ∧
      letters.hasHeader sect lines = true
  /-- No value of the section, and no default, refers to it. -/
  refs : ∀ e ∈ entries (items {} lines), e.sect = sect ∨ e.sect = defaultSection →
    refers key e.value = false

/-- The file can be written to; both ways of reading give the same lines. -/
structure Writable (sect key file : Text) : Prop where
  lines_eq : splitlines file = fileLines file
  editable : Editable sect key (fileLines file)

instance : Decidable (Editable sect key lines) :=
  decidable_of_iff
    (marks sect key lines = (items {} lines).map (Item.isOption sect key) ∧
      Settled (marks sect key lines) lines ∧
      (true ∉ marks sect key lines →
        (placeAfter {} lines).sect = some sect ∧
          (letters.scanner sect key).endsIn false lines = true ∧
            letters.hasHeader sect lines = true) ∧
      ∀ e ∈ entries (items {} lines), e.sect = sect ∨ e.sect = defaultSection →
        refers key e.value = false)
    ⟨fun ⟨hagree, hsettled, hlast, hrefs⟩ => ⟨hagree, hsettled, hlast, hrefs⟩,
      fun h => ⟨h.agree, h.settled, h.last, h.refs⟩⟩

instance {file : Text} : Decidable (Writable sect key file) :=
  decidable_of_iff (splitlines file = fileLines file ∧ Editable sect key (fileLines file))
    ⟨fun ⟨hlines, hedit⟩ => ⟨hlines, hedit⟩, fun h => ⟨h.lines_eq, h.editable⟩⟩

theorem setLines_of_mem (h : true ∈ marks sect key lines) (value : Text) :
    letters.setLines sect key value lines =
      (letters.scanner sect key).edit (keyLine key value) false lines :=
  IniEdit.Casing.setLines_of_keyThere (true_mem_marks.mp h)

theorem Editable.setLines_of_not_mem (he : Editable sect key lines) (h : true ∉ marks sect key lines)
    (value : Text) : letters.setLines sect key value lines = lines ++ [keyLine key value] := by
  rw [IniEdit.Casing.setLines_of_not_keyThere (mt true_mem_marks.mpr h), if_pos (he.last h).2.2]

/-- **Setting an option in lines sets it for the parser.** -/
theorem Editable.parse_setLines (he : Editable sect key lines) (hkey : IniKey key)
    (hvalue : IniValue value) {c : Config} (hparse : parse lines = some c) :
    ∃ d, parse (letters.setLines sect key value lines) = some d ∧ Sets sect key value c d := by
  by_cases h : true ∈ marks sect key lines
  · rw [setLines_of_mem h, edit_eq_replaceMarked]
    exact parse_replaceMarked hkey.plainKey hvalue.solid hparse he.settled he.agree h
  · rw [he.setLines_of_not_mem h]
    refine parse_concat hkey.plainKey hvalue.solid hparse (he.last h).1 fun item hitem => ?_
    have hnot : true ∉ (items {} lines).map (Item.isOption sect key) := he.agree ▸ h
    exact Bool.eq_false_iff.mpr fun hopt => hnot (List.mem_map.mpr ⟨item, hitem, hopt⟩)

/-- The first line the editor finds is the new one. -/
theorem Editable.find?_setLines (he : Editable sect key lines) (hkey : IniKey key)
    (hvalue : IniValue value) :
    (letters.scanner sect key).find? false (letters.setLines sect key value lines) =
      some (keyLine key value) := by
  have hopens := opens_keyLine (s := sect) (k := key) hkey hvalue
  have hmatch : letters.keyMatches key (strip (keyLine key value)) = true :=
    IniEdit.Casing.keyMatches_keyLine hkey.keyName hvalue.inline
  by_cases h : true ∈ marks sect key lines
  · rw [setLines_of_mem h]
    exact LineScanner.find?_edit_self hopens hmatch
      (Option.isSome_iff_ne_none.mp (true_mem_marks.mp h))
  · have hends : (letters.scanner sect key).endsIn false lines = true := (he.last h).2.1
    rw [he.setLines_of_not_mem h, LineScanner.find?_append,
      IniEdit.Casing.find?_of_not_keyThere (mt true_mem_marks.mpr h), Option.none_or,
      IniEdit.Casing.find?_keyLine hopens, hends, hmatch]
    rfl

section Others

/-- The marks of another option: the new line has none. -/
theorem Editable.marks_setLines_of_ne (he : Editable sect key lines) (hkey : IniKey key)
    (hvalue : IniValue value) (hk : IniKey k) (hne : key ≠ k) :
    marks s k (letters.setLines sect key value lines) =
      if true ∈ marks sect key lines then marks s k lines else marks s k lines ++ [false] := by
  have hopens := opens_keyLine (s := s) (k := k) hkey hvalue
  have hapart : LineScanner.Apart (letters.scanner sect key) (letters.scanner s k)
      (keyLine key value) := apart_of_ne hkey hk hvalue hne
  unfold marks
  split_ifs with h
  · rw [setLines_of_mem h]
    exact LineScanner.marks_edit_of_apart (IniEdit.Casing.sameHeaders _ _ _ _ _)
      (opens_keyLine hkey hvalue) hapart
  · rw [he.setLines_of_not_mem h, LineScanner.marks_append, LineScanner.marks,
      LineScanner.here_of_opens_none hopens, hapart.1, Bool.and_false]
    rfl

/-- Another option is found on the same line. -/
theorem Editable.find?_setLines_of_ne (he : Editable sect key lines) (hkey : IniKey key)
    (hvalue : IniValue value) (hk : IniKey k) (hne : key ≠ k) :
    (letters.scanner s k).find? false (letters.setLines sect key value lines) =
      (letters.scanner s k).find? false lines := by
  have hapart : LineScanner.Apart (letters.scanner sect key) (letters.scanner s k)
      (keyLine key value) := apart_of_ne hkey hk hvalue hne
  by_cases h : true ∈ marks sect key lines
  · rw [setLines_of_mem h]
    exact LineScanner.find?_edit_of_apart (IniEdit.Casing.sameHeaders _ _ _ _ _)
      (opens_keyLine hkey hvalue) (fun _ _ => hapart) fun _ _ _ => hapart
  · have hquiet : letters.keyMatches k (strip (keyLine key value)) = false := hapart.1
    rw [he.setLines_of_not_mem h, LineScanner.find?_append,
      IniEdit.Casing.find?_keyLine (opens_keyLine hkey hvalue), hquiet, Bool.and_false]
    exact Option.or_none

/-! ### The file stays editable -/

theorem eq_bracket_of_lowerChar {c : Char} {rest : Text} (h : PyStr.lowerChar c = '[' :: rest) :
    c = '[' := by
  unfold PyStr.lowerChar at h
  split_ifs at h
  · exact absurd (List.cons.inj h).1 (by decide)
  · exact absurd (List.cons.inj h).1 (by decide)
  · have hlow : c.toLower = '[' := (List.cons.inj h).1
    unfold Char.toLower at hlow
    split_ifs at hlow with hupper
    · have hval : (c.toNat + 0x20) % 2 ^ 32 = 0x5b := congrArg Char.toNat hlow
      have hle : c.toNat ≤ 0x5a := UInt32.le_iff_toNat_le.mp hupper.2
      have hge : 0x41 ≤ c.toNat := UInt32.le_iff_toNat_le.mp hupper.1
      omega
    · exact hlow

/-- A line that sets a key is no header. -/
theorem not_header_of_keyMatches (hkey : IniKey key) {text : Text}
    (h : letters.keyMatches key text = true) : lower text ≠ '[' :: s ++ [']'] := by
  obtain ⟨a, keyRest, rfl⟩ := List.exists_cons_of_ne_nil hkey.ne_nil
  cases text with
  | nil => cases h
  | cons c text =>
    intro hlow
    have hfirst : ∃ rest, PyStr.lowerChar c = '[' :: rest := by
      unfold lower at hlow
      rw [List.flatMap_cons] at hlow
      unfold PyStr.lowerChar at hlow ⊢
      split_ifs at hlow ⊢ <;> exact ⟨_, congrArg (· :: _) (List.cons.inj hlow).1⟩
    obtain ⟨rest, hfirst⟩ := hfirst
    obtain rfl := eq_bracket_of_lowerChar hfirst
    have hsame : foldChar a = foldChar '[' := of_decide_eq_true (Bool.and_eq_true_iff.mp h).1
    have ha := letters_spec a (hkey.small a List.mem_cons_self)
    rw [ha.2.2.2.2.1] at hsame
    exact ha.2.2.2.2.2.2.2 hsame

theorem hasHeader_edit (hkey : IniKey key) (h : letters.hasHeader s lines = true) :
    letters.hasHeader s ((letters.scanner sect key).edit new b lines) = true := by
  induction lines generalizing b with
  | nil => cases h
  | cons line lines ih =>
    rcases Bool.or_eq_true_iff.mp h with hline | hlines
    · have hhere : ¬ (letters.scanner sect key).here b line = true := fun hhere =>
        not_header_of_keyMatches hkey (Bool.and_eq_true_iff.mp (Bool.and_eq_true_iff.mp hhere).2).2
          (of_decide_eq_true hline)
      rw [LineScanner.edit, if_neg hhere]
      exact Bool.or_eq_true_iff.mpr (Or.inl hline)
    · exact Bool.or_eq_true_iff.mpr (Or.inr (ih hlines))

/-- **Setting one option leaves the lines editable for the others.** -/
theorem Editable.setLines_of_ne (he : Editable sect key lines) (hkey : IniKey key)
    (hvalue : IniValue value) {c : Config} (hparse : parse lines = some c)
    (ho : Editable s k lines) (hk : IniKey k) (hne : key ≠ k) :
    Editable s k (letters.setLines sect key value lines) := by
  have hmarks := he.marks_setLines_of_ne (s := s) hkey hvalue hk hne
  have hplain := hkey.plainKey
  have hsolid := hvalue.solid
  obtain ⟨d, hparse', hsets⟩ := he.parse_setLines hkey hvalue hparse
  have hrefs : ∀ e ∈ entries (items {} (letters.setLines sect key value lines)),
      e.sect = s ∨ e.sect = defaultSection → refers k e.value = false := by
    intro e hmem hsect
    rw [(parse_eq_some hparse').2, (parse_eq_some hparse).2] at hsets
    rcases hsets.values e hmem with hold | hnew
    · exact ho.refs e hold hsect
    · obtain ⟨text, htext⟩ := Option.isSome_iff_exists.mp hvalue.literal
      rw [hnew]
      exact refers_of_literal htext k
  by_cases h : true ∈ marks sect key lines
  · -- the line of the option is replaced
    rw [if_pos h] at hmarks
    have hset := setLines_of_mem h value
    rw [edit_eq_replaceMarked, keyLine_eq_optionLine] at hset
    obtain ⟨hitems, hplace⟩ := read_replaceMarked hplain hsolid (Or.inl rfl) he.settled he.agree
    rw [marks] at hitems hplace
    rw [← hset] at hitems hplace
    refine ⟨?_, ?_, ?_, hrefs⟩
    · have hsame : Item.isOption s k ∘ Item.set sect key value = Item.isOption s k := by
        funext item
        exact Item.isOption_set sect key value s k item
      rw [hmarks, hitems, List.map_map, hsame]
      exact ho.agree
    · rw [hmarks, hset]
      exact ho.settled.replaceMarked hplain hsolid _
    · rw [hmarks]
      intro hnot
      obtain ⟨hsect, hends, hheader⟩ := ho.last hnot
      refine ⟨hplace.trans hsect, ?_, ?_⟩
      · rw [setLines_of_mem h]
        exact (LineScanner.endsIn_edit (IniEdit.Casing.sameHeaders _ _ _ _ _)
          (opens_keyLine hkey hvalue)).trans hends
      · rw [setLines_of_mem h]
        exact hasHeader_edit hkey hheader
  · -- the line comes to the end of the file, into the last section
    rw [if_neg h] at hmarks
    have hset := he.setLines_of_not_mem h value
    obtain ⟨hlast, -, -⟩ := he.last h
    have hread := readLine_optionLine hplain hsolid hlast
    refine ⟨?_, ?_, ?_, hrefs⟩
    · rw [hmarks, hset, items_append, List.map_append, ho.agree]
      refine congrArg (List.map (Item.isOption s k) (items {} lines) ++ ·) ?_
      rw [items, keyLine_eq_optionLine, hread]
      exact congrArg (· :: []) (decide_eq_false fun hboth => hne hboth.2).symm
    · rw [hmarks, hset]
      exact ho.settled.concat hplain hsolid
    · rw [hmarks]
      intro hnot
      obtain ⟨hsect, hends, hheader⟩ := ho.last fun hmem =>
        hnot (List.mem_append.mpr (Or.inl hmem))
      rw [hset]
      refine ⟨?_, ?_, ?_⟩
      · rw [placeAfter_append, placeAfter, keyLine_eq_optionLine, hread]
        exact hlast.symm.trans hsect
      · refine LineScanner.endsIn_append.trans ?_
        exact (LineScanner.next_of_opens_none (opens_keyLine hkey hvalue)).trans hends
      · unfold IniEdit.Casing.hasHeader at hheader ⊢
        rw [List.any_append, hheader]
        rfl

end Others

/-! ### Files -/

theorem mem_strip {s : Text} {c : Char} (h : c ∈ strip s) : c ∈ s := by
  unfold strip rstrip lstrip at h
  have hdrop := List.mem_reverse.mp ((List.dropWhile_suffix _).subset (List.mem_reverse.mp h))
  exact (List.dropWhile_suffix _).subset hdrop

theorem readIniValue_eq (file sect key : Text) : readIniValue file sect key =
    (((letters.scanner sect key).find? false (splitlines file)).map fun line =>
      valueOf (strip line)).getD [] := rfl

/-- A name read by the editor, without spaces around it, can be written by it. -/
theorem iniValue_readIniValue {file : Text} (hne : strip (readIniValue file sect key) ≠ [])
    (hlit : (literal (strip (readIniValue file sect key))).isSome = true) :
    IniValue (strip (readIniValue file sect key)) := by
  refine ⟨solid_strip hne, fun c hc => ?_, hlit⟩
  have hvalue := mem_strip hc
  rw [readIniValue_eq] at hvalue
  cases hfirst : (letters.scanner sect key).find? false (splitlines file) with
  | none =>
    rw [hfirst] at hvalue
    cases hvalue
  | some line =>
    rw [hfirst] at hvalue
    have hline : c ∈ line := mem_strip ((List.dropWhile_suffix _).subset
      (List.mem_of_mem_drop (mem_strip hvalue)))
    exact not_mem_splitLines line (LineScanner.mem_of_find? hfirst) c hline

theorem lineBreak_keyLine (hkey : IniKey key) (hvalue : IniValue value) :
    ∀ c ∈ keyLine key value, isLineBreak c = false := by
  have hmid : ∀ c ∈ ([' ', '=', ' '] : Text), isLineBreak c = false := forall_mem_of_all (by decide)
  exact List.forall_mem_append.mpr ⟨List.forall_mem_append.mpr ⟨hkey.keyName.line, hmid⟩, hvalue.line⟩

namespace Writable

variable {file : Text}

/-- The lines that are written are read back. -/
theorem lines_setIniValue (h : Writable sect key file) (hkey : IniKey key) (hvalue : IniValue value) :
    fileLines (setIniValue file sect key value) = letters.setLines sect key value (fileLines file) ∧
      splitlines (setIniValue file sect key value) =
        letters.setLines sect key value (fileLines file) := by
  have hfound := h.editable.find?_setLines hkey hvalue
  have hne : letters.setLines sect key value (fileLines file) ≠ [] := fun hnil =>
    List.not_mem_nil (hnil ▸ LineScanner.mem_of_find? hfound)
  have hplain : ∀ line ∈ letters.setLines sect key value (fileLines file), ∀ c ∈ line,
      isLineBreak c = false := by
    intro line hline
    have hcase : line = keyLine key value ∨ line ∈ fileLines file := by
      by_cases hmark : true ∈ marks sect key (fileLines file)
      · rw [setLines_of_mem hmark] at hline
        exact LineScanner.mem_edit hline
      · rw [h.editable.setLines_of_not_mem hmark] at hline
        exact (List.mem_append.mp hline).symm.imp_left List.mem_singleton.mp
    rcases hcase with rfl | hold
    · exact lineBreak_keyLine hkey hvalue
    · rw [← h.lines_eq] at hold
      exact not_mem_splitLines line hold
  unfold setIniValue IniEdit.Casing.setIniValue
  rw [h.lines_eq]
  refine ⟨splitLines_joinLines rfl hne fun line hline c hc => decide_eq_false ?_,
    splitLines_joinLines rfl hne hplain⟩
  rintro rfl
  exact absurd (hplain line hline _ hc) (by decide)

theorem parse_setIniValue (h : Writable sect key file) (hkey : IniKey key) (hvalue : IniValue value)
    {c : Config} (hparse : parse (fileLines file) = some c) :
    ∃ d, parse (fileLines (setIniValue file sect key value)) = some d ∧ Sets sect key value c d := by
  rw [(h.lines_setIniValue hkey hvalue).1]
  exact h.editable.parse_setLines hkey hvalue hparse

theorem readIniValue_setIniValue (h : Writable sect key file) (hkey : IniKey key)
    (hvalue : IniValue value) : readIniValue (setIniValue file sect key value) sect key = value := by
  rw [readIniValue_eq, (h.lines_setIniValue hkey hvalue).2, h.editable.find?_setLines hkey hvalue,
    Option.map_some, IniEdit.valueOf_keyLine hkey.keyName hvalue.inline]
  rfl

theorem readIniValue_setIniValue_of_ne (h : Writable sect key file) (hkey : IniKey key)
    (hvalue : IniValue value) (hk : IniKey k) (hne : key ≠ k) :
    readIniValue (setIniValue file sect key value) s k = readIniValue file s k := by
  rw [readIniValue_eq, readIniValue_eq, (h.lines_setIniValue hkey hvalue).2, h.lines_eq,
    h.editable.find?_setLines_of_ne hkey hvalue hk hne]

theorem setIniValue_of_ne (h : Writable sect key file) (hkey : IniKey key)
    (hvalue : IniValue value) {c : Config} (hparse : parse (fileLines file) = some c)
    (ho : Writable s k file) (hk : IniKey k) (hne : key ≠ k) :
    Writable s k (setIniValue file sect key value) := by
  obtain ⟨hfile, hsplit⟩ := h.lines_setIniValue hkey hvalue
  refine ⟨hsplit.trans hfile.symm, ?_⟩
  rw [hfile]
  exact h.editable.setLines_of_ne hkey hvalue hparse ho.editable hk hne

end Writable

end XenMiner.WalletSetup
