import XenMiner.Lib.ConfigParser

/-!
# Setting an option in the lines of a file

An option is set by putting the line `key = value` in the place of its line, or behind the last line
when the parser ends in the section.  Either way the parser then reads the same options with this one
set (`parse_replace`, `parse_append`), provided nothing indented follows a line that is replaced: what
was indented more than the old line, or as much, would now belong to the value.

Values that do not refer to the option are looked up as before (`Sets.get_of_ne`).
-/

namespace ConfigParser

open PyText

/-! ### The line of an option -/

/-- `f"{key} = {value}"`. -/
def optionLine (key value : Text) : Text := key ++ [' ', '=', ' '] ++ value

/-- A name of an option as the parser gives it back, which starts no comment and no header. -/
structure PlainKey (key : Text) : Prop where
  solid : Solid key
  lower : lower key = key
  delimiter : ∀ c ∈ key, isDelimiter c = false
  start : ∀ c ∈ key.head?, c ≠ '#' ∧ c ≠ ';' ∧ c ≠ '['

variable {key value : Text} {p q : Place} {lines : List Text}

theorem solid_optionLine (hkey : PlainKey key) (hvalue : Solid value) :
    Solid (optionLine key value) := hkey.solid.append hvalue _

theorem matchOption_optionLine (hkey : PlainKey key) (hvalue : Solid value) :
    matchOption (optionLine key value) = some (key, value) := by
  have hsplit : optionLine key value = (key ++ [' ']) ++ '=' :: ' ' :: value := by
    simp [optionLine]
  have hplain : ∀ c ∈ key ++ [' '], (! isDelimiter c) = true := by
    intro c hc
    rcases List.mem_append.mp hc with hc | hc
    · rw [hkey.delimiter c hc]
      rfl
    · rw [List.mem_singleton.mp hc]
      rfl
  have hdrop : (optionLine key value).dropWhile (! isDelimiter ·) = '=' :: ' ' :: value := by
    rw [hsplit, List.dropWhile_append_of_pos hplain]
    rfl
  have htake : (optionLine key value).takeWhile (! isDelimiter ·) = key ++ [' '] := by
    rw [hsplit, List.takeWhile_append_of_pos hplain]
    simp [isDelimiter]
  have hname : rstrip (key ++ [' ']) = key := by
    have hspace : ∀ c ∈ [' '], PyStr.isSpace c = true := by
      intro c hc
      rw [List.mem_singleton.mp hc]
      rfl
    rw [rstrip_append_spaces key hspace, rstrip_of_last hkey.solid.last]
  unfold matchOption
  rw [hdrop, htake, hname, hkey.lower]
  dsimp only
  rw [hvalue.strip_cons (by decide)]

theorem head_optionLine (hkey : PlainKey key) (value : Text) :
    ∃ c rest, optionLine key value = c :: rest ∧ PyStr.isSpace c = false ∧ c ≠ '#' ∧ c ≠ ';' ∧
      c ≠ '[' := by
  obtain ⟨c, rest, hkeyc⟩ := List.exists_cons_of_ne_nil hkey.solid.ne_nil
  have hmem : c ∈ key.head? := by
    rw [hkeyc]
    rfl
  refine ⟨c, rest ++ [' ', '=', ' '] ++ value, ?_, hkey.solid.head c hmem, hkey.start c hmem⟩
  rw [optionLine, hkeyc]
  rfl

theorem indent_of_head {line : Text} {c : Char} {rest : Text} (h : line = c :: rest)
    (hc : PyStr.isSpace c = false) : indent line = 0 := by
  unfold indent
  rw [h, List.takeWhile_cons_of_neg (by rw [hc]; exact Bool.false_ne_true)]
  rfl

theorem indent_optionLine (hkey : PlainKey key) (value : Text) :
    indent (optionLine key value) = 0 := by
  obtain ⟨c, rest, hline, hspace, -⟩ := head_optionLine hkey value
  exact indent_of_head hline hspace

theorem isComment_optionLine (hkey : PlainKey key) (hvalue : Solid value) :
    isComment (optionLine key value) = false := by
  obtain ⟨c, rest, hline, -, hhash, hsemi, -⟩ := head_optionLine hkey value
  unfold isComment
  rw [(solid_optionLine hkey hvalue).strip_eq, hline]
  simp [hhash, hsemi]

/-- The parser reads the line as that option, wherever it is in a section. -/
theorem readLine_optionLine (hkey : PlainKey key) (hvalue : Solid value) {sect : Text}
    (hp : p.sect = some sect) : readLine p (optionLine key value) =
      (.option sect key value, { sect := some sect, inOption := true, indentLevel := 0 }) := by
  obtain ⟨c, rest, hline, -, -, -, hbracket⟩ := head_optionLine hkey value
  have hstrip : strip (optionLine key value) = optionLine key value :=
    (solid_optionLine hkey hvalue).strip_eq
  have hindent : indent (optionLine key value) = 0 := indent_optionLine hkey value
  have hheader : matchHeader (optionLine key value) = none := by
    rw [hline]
    unfold matchHeader
    split
    next heq => exact absurd (List.cons.inj heq).1 hbracket
    next => rfl
  have hne : optionLine key value ≠ [] := (solid_optionLine hkey hvalue).ne_nil
  have hcont : p.continues (optionLine key value) = false := by
    simp [Place.continues, hindent]
  unfold readLine
  rw [if_neg (by rw [isComment_optionLine hkey hvalue]; exact Bool.false_ne_true), hstrip,
    if_neg hne, if_neg (by rw [hcont]; exact Bool.false_ne_true)]
  unfold readEntry
  dsimp only
  rw [hstrip, hheader, hp, matchOption_optionLine hkey hvalue, hindent]
  exact if_neg hkey.solid.ne_nil

/-! ### Replacing a line -/

/-- The item is the option. -/
def Item.isOption (sect key : Text) : Item → Bool
  | .option s k _ => s = sect ∧ k = key
  | _ => false

/-- The item with the option set. -/
def Item.set (sect key value : Text) (item : Item) : Item :=
  if item.isOption sect key then .option sect key value else item

/-- The lines with `new` where they are marked. -/
def replaceMarked (new : Text) : List Bool → List Text → List Text
  | mark :: marks, line :: lines => (if mark then new else line) :: replaceMarked new marks lines
  | _, _ => []

/-- The next line with text in it that is no comment is not indented. -/
def unindentedNext : List Text → Bool
  | [] => true
  | line :: lines =>
    if isComment line ∨ strip line = [] then unindentedNext lines else indent line = 0

/-- Nothing indented follows a marked line. -/
def Settled : List Bool → List Text → Prop
  | mark :: marks, _ :: lines => (mark = true → unindentedNext lines = true) ∧ Settled marks lines
  | _, _ => True

instance decidableSettled : ∀ (marks : List Bool) (lines : List Text), Decidable (Settled marks lines)
  | [], _ => isTrue trivial
  | _ :: _, [] => isTrue trivial
  | mark :: marks, _ :: lines =>
    @instDecidableAnd (mark = true → unindentedNext lines = true) _ _ (decidableSettled marks lines)

/-- The places a line is read from with and without the replacement before it: only the indentation
differs, and nothing indented comes next. -/
def Close (p q : Place) (lines : List Text) : Prop :=
  p = q ∨ p.sect = q.sect ∧ p.inOption = true ∧ q.inOption = true ∧ unindentedNext lines = true

/-- An unindented line continues nothing, so it is read the same way. -/
theorem readLine_unindented (hsect : p.sect = q.sect) (hopt : p.inOption = q.inOption) {line : Text}
    (hline : indent line = 0) (htext : ¬(isComment line = true ∨ strip line = [])) :
    readLine p line = readLine q line := by
  obtain ⟨hcomment, hblank⟩ := not_or.mp htext
  have hp : p.continues line = false := by simp [Place.continues, hline]
  have hq : q.continues line = false := by simp [Place.continues, hline]
  unfold readLine
  rw [if_neg hcomment, if_neg hblank, if_neg hcomment, if_neg hblank, hp, hq,
    if_neg Bool.false_ne_true, if_neg Bool.false_ne_true]
  unfold readEntry
  dsimp only
  rw [hsect, hopt]

theorem Close.readLine {line : Text} (h : Close p q (line :: lines)) :
    (readLine p line).1 = (readLine q line).1 ∧
      Close (readLine p line).2 (readLine q line).2 lines := by
  rcases h with rfl | ⟨hsect, hp, hq, hnext⟩
  · exact ⟨rfl, Or.inl rfl⟩
  unfold unindentedNext at hnext
  split_ifs at hnext with htext
  -- a comment or a blank line changes no place
  · rcases htext with hcomment | hblank
    · simp only [ConfigParser.readLine, if_pos hcomment]
      exact ⟨trivial, Or.inr ⟨hsect, hp, hq, hnext⟩⟩
    · by_cases hcomment : isComment line = true
      · simp only [ConfigParser.readLine, if_pos hcomment]
        exact ⟨trivial, Or.inr ⟨hsect, hp, hq, hnext⟩⟩
      · simp only [ConfigParser.readLine, if_neg hcomment, if_pos hblank]
        exact ⟨trivial, Or.inr ⟨hsect, hp, hq, hnext⟩⟩
  · have hsame : ConfigParser.readLine p line = ConfigParser.readLine q line :=
      readLine_unindented hsect (hp.trans hq.symm) (by simpa using hnext) htext
    rw [hsame]
    exact ⟨rfl, Or.inl rfl⟩

/-- What reading an option line says about the places around it. -/
theorem readLine_option {line sect old : Text} (h : (readLine p line).1 = .option sect key old) :
    p.sect = some sect ∧ (readLine p line).2.sect = some sect ∧
      (readLine p line).2.inOption = true := by
  unfold readLine at h ⊢
  split_ifs at h ⊢
  unfold readEntry at h ⊢
  dsimp only at h ⊢
  split at h
  · cases h
  · split at h
    next hsect _ =>
      split_ifs at h ⊢
      cases h
      exact ⟨hsect, rfl, rfl⟩
    · cases h

/-- The lines are read as before, with the option set, and the parser ends in the same section. -/
theorem read_replaceMarked (hkey : PlainKey key) (hvalue : Solid value) {sect : Text}
    {marks : List Bool} (hclose : Close p q lines) (hsettled : Settled marks lines)
    (hmarks : marks = (items p lines).map (Item.isOption sect key)) :
    items q (replaceMarked (optionLine key value) marks lines) =
        (items p lines).map (Item.set sect key value) ∧
      (placeAfter q (replaceMarked (optionLine key value) marks lines)).sect =
        (placeAfter p lines).sect := by
  induction lines generalizing p q marks with
  | nil =>
    rw [hmarks]
    rcases hclose with rfl | ⟨hsect, -⟩
    · exact ⟨rfl, rfl⟩
    · exact ⟨rfl, hsect.symm⟩
  | cons line lines ih =>
    rw [items, List.map_cons] at hmarks
    obtain ⟨mark, marks, rfl, hmark, hrest⟩ : ∃ mark rest, marks = mark :: rest ∧
        mark = (readLine p line).1.isOption sect key ∧
        rest = (items (readLine p line).2 lines).map (Item.isOption sect key) :=
      ⟨_, _, hmarks, rfl, rfl⟩
    obtain ⟨hnext, hsettled⟩ := hsettled
    obtain ⟨hitem, hplace⟩ := hclose.readLine
    rw [items, List.map_cons, replaceMarked, items, placeAfter, placeAfter]
    cases mark with
    | false =>
      obtain ⟨hitems, hafter⟩ := ih hplace hsettled hrest
      rw [if_neg Bool.false_ne_true, Item.set, ← hmark, if_neg Bool.false_ne_true, hitem]
      exact ⟨congrArg _ hitems, hafter⟩
    | true =>
      -- the old line is the option, so the new one is read from the same section
      obtain ⟨old, hold⟩ : ∃ old, (readLine p line).1 = .option sect key old := by
        unfold Item.isOption at hmark
        split at hmark
        next s k old heq =>
          obtain ⟨rfl, rfl⟩ := of_decide_eq_true hmark.symm
          exact ⟨old, heq⟩
        next => cases hmark
      obtain ⟨hp, hpsect, hpopt⟩ := readLine_option hold
      have hq : q.sect = some sect := by
        rw [hitem] at hold
        exact (readLine_option hold).1
      have hafterward : Close (readLine p line).2
          { sect := some sect, inOption := true, indentLevel := 0 } lines :=
        Or.inr ⟨hpsect, hpopt, rfl, hnext rfl⟩
      obtain ⟨hitems, hafter⟩ := ih hafterward hsettled hrest
      rw [if_pos rfl, readLine_optionLine hkey hvalue hq, Item.set, ← hmark, if_pos rfl]
      exact ⟨congrArg _ hitems, hafter⟩

theorem unindentedNext_optionLine (hkey : PlainKey key) (hvalue : Solid value)
    (rest : List Text) : unindentedNext (optionLine key value :: rest) = true := by
  have hsolid := solid_optionLine hkey hvalue
  have htext : ¬(isComment (optionLine key value) = true ∨ strip (optionLine key value) = []) := by
    rw [isComment_optionLine hkey hvalue, hsolid.strip_eq]
    simpa using hsolid.ne_nil
  unfold unindentedNext
  rw [if_neg htext]
  exact decide_eq_true (indent_optionLine hkey value)

theorem unindentedNext_replaceMarked (hkey : PlainKey key) (hvalue : Solid value)
    (marks : List Bool) (h : unindentedNext lines = true) :
    unindentedNext (replaceMarked (optionLine key value) marks lines) = true := by
  induction lines generalizing marks with
  | nil => cases marks <;> rfl
  | cons line lines ih =>
    cases marks with
    | nil => rfl
    | cons mark marks =>
      cases mark with
      | true => exact unindentedNext_optionLine hkey hvalue _
      | false =>
        rw [replaceMarked, if_neg Bool.false_ne_true]
        unfold unindentedNext at h ⊢
        split_ifs at h ⊢
        · exact ih marks h
        · exact h

theorem unindentedNext_concat (hkey : PlainKey key) (hvalue : Solid value)
    (h : unindentedNext lines = true) :
    unindentedNext (lines ++ [optionLine key value]) = true := by
  induction lines with
  | nil => exact unindentedNext_optionLine hkey hvalue []
  | cons line lines ih =>
    rw [List.cons_append]
    unfold unindentedNext at h ⊢
    split_ifs at h ⊢
    · exact ih h
    · exact h

/-- What follows other lines stays unindented. -/
theorem Settled.replaceMarked (hkey : PlainKey key) (hvalue : Solid value) (marks : List Bool)
    {others : List Bool} (h : Settled others lines) :
    Settled others (replaceMarked (optionLine key value) marks lines) := by
  induction lines generalizing marks others with
  | nil =>
    cases marks <;> cases others <;> trivial
  | cons line lines ih =>
    cases marks with
    | nil => cases others <;> trivial
    | cons mark marks =>
      cases others with
      | nil => trivial
      | cons other others =>
        exact ⟨fun hother => unindentedNext_replaceMarked hkey hvalue marks (h.1 hother),
          ih marks h.2⟩

theorem Settled.concat (hkey : PlainKey key) (hvalue : Solid value) {marks : List Bool}
    (h : Settled marks lines) : Settled (marks ++ [false]) (lines ++ [optionLine key value]) := by
  induction lines generalizing marks with
  | nil =>
    cases marks with
    | nil => exact ⟨fun hfalse => absurd hfalse Bool.false_ne_true, trivial⟩
    | cons mark marks =>
      refine ⟨fun _ => rfl, ?_⟩
      cases marks <;> trivial
  | cons line lines ih =>
    cases marks with
    | nil => exact ⟨fun hfalse => absurd hfalse Bool.false_ne_true, by cases lines <;> trivial⟩
    | cons mark marks =>
      exact ⟨fun hmark => unindentedNext_concat hkey hvalue (h.1 hmark), ih h.2⟩

/-- Setting an option changes no names. -/
theorem Item.isOption_set (sect key value s k : Text) (item : Item) :
    (item.set sect key value).isOption s k = item.isOption s k := by
  unfold Item.set
  split_ifs with hopt
  · unfold Item.isOption at hopt
    split at hopt
    next s' k' v =>
      obtain ⟨rfl, rfl⟩ := of_decide_eq_true hopt
      rfl
    next => cases hopt
  · rfl

/-! ### What the options become -/

theorem moreLines_map_set (sect key value : Text) (its : List Item) :
    moreLines (its.map (Item.set sect key value)) = moreLines its := by
  induction its with
  | nil => rfl
  | cons item its ih =>
    cases item with
    | comment => exact ih
    | blank => exact congrArg ([] :: ·) ih
    | continuation v => exact congrArg (v :: ·) ih
    | option s k v =>
      rw [List.map_cons, Item.set]
      split_ifs <;> rfl
    | header name => rfl
    | bad => rfl

theorem headers_map_set (sect key value : Text) (its : List Item) :
    headers (its.map (Item.set sect key value)) = headers its := by
  induction its with
  | nil => rfl
  | cons item its ih =>
    cases item with
    | header name => exact congrArg (name :: ·) ih
    | option s k v =>
      rw [List.map_cons, Item.set]
      split_ifs <;> exact ih
    | comment => exact ih
    | blank => exact ih
    | continuation v => exact ih
    | bad => exact ih

theorem bad_mem_map_set (sect key value : Text) (its : List Item) :
    .bad ∈ its.map (Item.set sect key value) ↔ .bad ∈ its := by
  induction its with
  | nil => rfl
  | cons item its ih =>
    rw [List.map_cons, List.mem_cons, List.mem_cons, ih]
    refine or_congr_left ?_
    unfold Item.set
    split_ifs with hopt
    · unfold Item.isOption at hopt
      split at hopt
      · simp
      · cases hopt
    · rfl

/-- Only blank lines follow the option. -/
def OneLine (sect key : Text) : List Item → Prop
  | [] => True
  | item :: its =>
    (item.isOption sect key = true → ∀ line ∈ moreLines its, line = []) ∧ OneLine sect key its

/-- An unindented line ends a value. -/
theorem moreLines_of_unindentedNext (h : unindentedNext lines = true) :
    ∀ line ∈ moreLines (items p lines), line = [] := by
  induction lines generalizing p with
  | nil =>
    intro line hline
    cases hline
  | cons line lines ih =>
    unfold unindentedNext at h
    rw [items]
    split_ifs at h with htext
    · unfold readLine
      split_ifs with hcomment hblank
      · exact ih h
      · exact List.forall_mem_cons.mpr ⟨rfl, ih h⟩
      all_goals exact absurd htext (not_or.mpr ⟨hcomment, hblank⟩)
    · obtain ⟨hcomment, hblank⟩ := not_or.mp htext
      have hzero : indent line = 0 := by simpa using h
      have hcont : p.continues line = false := by simp [Place.continues, hzero]
      have hnone : ∀ its, moreLines ((readLine p line).1 :: its) = [] := by
        intro its
        unfold readLine
        rw [if_neg hcomment, if_neg hblank, hcont, if_neg Bool.false_ne_true]
        unfold readEntry
        dsimp only
        split
        · rfl
        · split
          · split_ifs <;> rfl
          · rfl
      rw [hnone]
      intro line hline
      cases hline

theorem oneLine_items {sect : Text} {marks : List Bool} (hsettled : Settled marks lines)
    (hmarks : marks = (items p lines).map (Item.isOption sect key)) :
    OneLine sect key (items p lines) := by
  induction lines generalizing p marks with
  | nil => trivial
  | cons line lines ih =>
    rw [items, List.map_cons] at hmarks
    subst hmarks
    exact ⟨fun hmark => moreLines_of_unindentedNext (hsettled.1 hmark), ih hsettled.2 rfl⟩

theorem intercalate_blank (value : Text) (n : ℕ) :
    List.intercalate ['\n'] (value :: List.replicate n []) = value ++ List.replicate n '\n' := by
  induction n generalizing value with
  | zero => simp
  | succ n ih =>
    rw [List.replicate_succ, List.intercalate_cons_cons, ih, List.append_assoc]
    rfl

/-- A value behind which only blank lines follow. -/
theorem rstrip_intercalate_blank (hvalue : Solid value) {more : List Text}
    (h : ∀ line ∈ more, line = []) : rstrip (List.intercalate ['\n'] (value :: more)) = value := by
  have hspaces : ∀ c ∈ List.replicate more.length '\n', PyStr.isSpace c = true := by
    intro c hc
    rw [(List.mem_replicate.mp hc).2]
    rfl
  rw [List.eq_replicate_of_mem h, intercalate_blank, rstrip_append_spaces value hspaces,
    rstrip_of_last hvalue.last]

/-- The options with this one set. -/
def setEntry (sect key value : Text) (e : Entry) : Entry :=
  if e.sect = sect ∧ e.key = key then { e with value := value } else e

theorem entries_map_set (hvalue : Solid value) {sect : Text} {its : List Item}
    (h : OneLine sect key its) :
    entries (its.map (Item.set sect key value)) = (entries its).map (setEntry sect key value) := by
  induction its with
  | nil => rfl
  | cons item its ih =>
    obtain ⟨hone, hrest⟩ := h
    cases item with
    | option s k v =>
      rw [List.map_cons, entries, List.map_cons]
      by_cases hopt : s = sect ∧ k = key
      · have hmark : (Item.option s k v).isOption sect key = true := decide_eq_true hopt
        rw [Item.set, if_pos hmark, setEntry, if_pos hopt, entries, ih hrest, moreLines_map_set,
          rstrip_intercalate_blank hvalue (hone hmark)]
        obtain ⟨rfl, rfl⟩ := hopt
        rfl
      · have hmark : ¬(Item.option s k v).isOption sect key = true :=
          fun h => hopt (of_decide_eq_true h)
        rw [Item.set, if_neg hmark, setEntry, if_neg hopt, entries, ih hrest, moreLines_map_set]
    | comment => exact ih hrest
    | blank => exact ih hrest
    | continuation v => exact ih hrest
    | header name => exact ih hrest
    | bad => exact ih hrest

/-! ### A line at the end -/

theorem items_append (p : Place) (lines more : List Text) :
    items p (lines ++ more) = items p lines ++ items (placeAfter p lines) more := by
  induction lines generalizing p with
  | nil => rfl
  | cons line lines ih => exact congrArg ((readLine p line).1 :: ·) (ih _)

theorem placeAfter_append (p : Place) (lines more : List Text) :
    placeAfter p (lines ++ more) = placeAfter (placeAfter p lines) more := by
  induction lines generalizing p with
  | nil => rfl
  | cons line lines ih => exact ih _

/-- An option ends the value before it. -/
theorem moreLines_concat_option (its : List Item) (sect key value : Text) :
    moreLines (its ++ [.option sect key value]) = moreLines its := by
  induction its with
  | nil => rfl
  | cons item its ih =>
    cases item with
    | comment => exact ih
    | blank => exact congrArg ([] :: ·) ih
    | continuation v => exact congrArg (v :: ·) ih
    | option s k v => rfl
    | header name => rfl
    | bad => rfl

theorem entries_concat_option (hvalue : Solid value) (its : List Item) (sect key : Text) :
    entries (its ++ [.option sect key value]) =
      entries its ++ [{ sect := sect, key := key, value := value }] := by
  induction its with
  | nil =>
    show [({ sect := sect, key := key, value := rstrip (List.intercalate ['\n'] [value]) } : Entry)] =
      _
    rw [List.intercalate_singleton, rstrip_of_last hvalue.last]
    rfl
  | cons item its ih =>
    cases item with
    | option s k v =>
      rw [List.cons_append, entries, entries, moreLines_concat_option, ih]
      rfl
    | comment => exact ih
    | blank => exact ih
    | continuation v => exact ih
    | header name => exact ih
    | bad => exact ih

theorem headers_concat_option (its : List Item) (sect key value : Text) :
    headers (its ++ [.option sect key value]) = headers its := by
  induction its with
  | nil => rfl
  | cons item its ih =>
    cases item with
    | header name => exact congrArg (name :: ·) ih
    | option s k v => exact ih
    | comment => exact ih
    | blank => exact ih
    | continuation v => exact ih
    | bad => exact ih

theorem not_mem_entries {sect : Text} {its : List Item}
    (h : ∀ item ∈ its, item.isOption sect key = false) :
    ∀ e ∈ entries its, ¬(e.sect = sect ∧ e.key = key) := by
  induction its with
  | nil =>
    intro e he
    cases he
  | cons item its ih =>
    obtain ⟨hitem, hits⟩ := List.forall_mem_cons.mp h
    cases item with
    | option s k v =>
      refine List.forall_mem_cons.mpr ⟨fun hopt => ?_, ih hits⟩
      have hmark : (Item.option s k v).isOption sect key = true := decide_eq_true hopt
      rw [hitem] at hmark
      cases hmark
    | comment => exact ih hits
    | blank => exact ih hits
    | continuation v => exact ih hits
    | header name => exact ih hits
    | bad => exact ih hits

theorem exists_mem_entries {sect : Text} {its : List Item} {item : Item} (hitem : item ∈ its)
    (hopt : item.isOption sect key = true) : ∃ e ∈ entries its, e.sect = sect ∧ e.key = key := by
  induction its with
  | nil => cases hitem
  | cons head its ih =>
    rcases List.mem_cons.mp hitem with rfl | hitem
    · unfold Item.isOption at hopt
      split at hopt
      · exact ⟨_, List.mem_cons_self, of_decide_eq_true hopt⟩
      · cases hopt
    · obtain ⟨e, he, hname⟩ := ih hitem
      cases head with
      | option s k v => exact ⟨e, List.mem_cons_of_mem _ he, hname⟩
      | comment => exact ⟨e, he, hname⟩
      | blank => exact ⟨e, he, hname⟩
      | continuation v => exact ⟨e, he, hname⟩
      | header name => exact ⟨e, he, hname⟩
      | bad => exact ⟨e, he, hname⟩

/-! ### The option is set -/

/-- The value of an option of one section. -/
def Config.find (c : Config) (sect key : Text) : Option Text :=
  (c.options.find? fun e => e.sect = sect ∧ e.key = key).map Entry.value

theorem Config.raw_eq (c : Config) (sect key : Text) :
    c.raw sect key = (c.find sect key).or (c.find defaultSection key) := by
  unfold Config.raw Config.find
  rw [Option.map_or]

/-- `d` is `c` with one option set. -/
structure Sets (sect key value : Text) (c d : Config) : Prop where
  sections : d.sections = c.sections
  find_self : d.find sect key = some value
  find_of_ne : ∀ s k, ¬(s = sect ∧ k = key) → d.find s k = c.find s k
  /-- The other values are still there, and no others. -/
  values : ∀ e ∈ d.options, e ∈ c.options ∨ e.value = value

theorem find?_map_setEntry {sect s k : Text} (es : List Entry) (hne : ¬(s = sect ∧ k = key)) :
    ((es.map (setEntry sect key value)).find? fun e => e.sect = s ∧ e.key = k) =
      es.find? fun e => e.sect = s ∧ e.key = k := by
  induction es with
  | nil => rfl
  | cons e es ih =>
    rw [List.map_cons, List.find?_cons, List.find?_cons, ih]
    unfold setEntry
    split_ifs with hset
    · have hother : ¬(e.sect = s ∧ e.key = k) := by
        rintro ⟨rfl, rfl⟩
        exact hne hset
      simp [hother]
    · rfl

theorem sets_map_setEntry {sect : Text} {c : Config}
    (hmem : ∃ e ∈ c.options, e.sect = sect ∧ e.key = key) :
    Sets sect key value c { c with options := c.options.map (setEntry sect key value) } where
  sections := rfl
  find_self := by
    obtain ⟨e, he, hopt⟩ := hmem
    show Option.map Entry.value ((c.options.map (setEntry sect key value)).find? _) = _
    cases hfind : (c.options.map (setEntry sect key value)).find?
        fun e => decide (e.sect = sect ∧ e.key = key) with
    | none =>
      have hnone := List.find?_eq_none.mp hfind (setEntry sect key value e)
        (List.mem_map.mpr ⟨e, he, rfl⟩)
      rw [setEntry, if_pos hopt] at hnone
      exact absurd (decide_eq_true hopt) hnone
    | some e' =>
      have hprop := List.find?_some hfind
      obtain ⟨e'', -, rfl⟩ := List.mem_map.mp (List.mem_of_find?_eq_some hfind)
      unfold setEntry at hprop ⊢
      split_ifs at hprop ⊢ with hset
      · rfl
      · exact absurd (of_decide_eq_true hprop) hset
  find_of_ne s k hne := by
    show Option.map Entry.value ((c.options.map (setEntry sect key value)).find? _) = _
    rw [find?_map_setEntry c.options hne]
    rfl
  values e he := by
    obtain ⟨e', he', rfl⟩ := List.mem_map.mp he
    unfold setEntry
    split_ifs
    · exact Or.inr rfl
    · exact Or.inl he'

theorem sets_concat {sect : Text} {c : Config}
    (hnot : ∀ e ∈ c.options, ¬(e.sect = sect ∧ e.key = key)) :
    Sets sect key value c
      { c with options := c.options ++ [{ sect := sect, key := key, value := value }] } where
  sections := rfl
  find_self := by
    have hnone : c.options.find? (fun e => decide (e.sect = sect ∧ e.key = key)) = none :=
      List.find?_eq_none.mpr fun e he => by simpa using hnot e he
    show Option.map Entry.value ((c.options ++ [_]).find? _) = _
    rw [List.find?_append, hnone]
    simp
  find_of_ne s k hne := by
    have hother : ¬(sect = s ∧ key = k) := fun h => hne ⟨h.1.symm, h.2.symm⟩
    show Option.map Entry.value ((c.options ++ [_]).find? _) = _
    rw [List.find?_append]
    simp [hother, Config.find]
  values e he := by
    rcases List.mem_append.mp he with he | he
    · exact Or.inl he
    · rw [List.mem_singleton.mp he]
      exact Or.inr rfl

/-- What `parse` answers. -/
theorem parse_eq_some {c : Config} (h : parse lines = some c) :
    Valid (items {} lines) ∧
      c = { sections := headers (items {} lines), options := entries (items {} lines) } := by
  unfold parse at h
  dsimp only at h
  split_ifs at h with hvalid
  exact ⟨hvalid, (Option.some.inj h).symm⟩

theorem parse_of_valid (h : Valid (items {} lines)) : parse lines =
    some { sections := headers (items {} lines), options := entries (items {} lines) } := if_pos h

/-- **Putting the line of an option in the place of its line sets the option.** -/
theorem parse_replaceMarked (hkey : PlainKey key) (hvalue : Solid value) {sect : Text}
    {marks : List Bool} {c : Config} (hparse : parse lines = some c)
    (hsettled : Settled marks lines)
    (hmarks : marks = (items {} lines).map (Item.isOption sect key)) (hfound : true ∈ marks) :
    ∃ d, parse (replaceMarked (optionLine key value) marks lines) = some d ∧
      Sets sect key value c d := by
  obtain ⟨⟨hbad, hheaders, hentries⟩, rfl⟩ := parse_eq_some hparse
  obtain ⟨hitems, -⟩ := read_replaceMarked hkey hvalue (Or.inl rfl) hsettled hmarks
  have hoptions := entries_map_set hvalue (oneLine_items hsettled hmarks)
  have hkeys : (fun e : Entry => (e.sect, e.key)) ∘ setEntry sect key value =
      fun e => (e.sect, e.key) := by
    funext e
    simp only [Function.comp, setEntry]
    split_ifs <;> rfl
  have hvalid : Valid (items {} (replaceMarked (optionLine key value) marks lines)) := by
    rw [hitems]
    refine ⟨?_, ?_, ?_⟩
    · rwa [bad_mem_map_set]
    · rwa [headers_map_set]
    · rwa [hoptions, List.map_map, hkeys]
  refine ⟨_, parse_of_valid hvalid, ?_⟩
  rw [hitems, headers_map_set, hoptions]
  rw [hmarks] at hfound
  obtain ⟨item, hitem, hmark⟩ := List.mem_map.mp hfound
  exact sets_map_setEntry (c := { sections := _, options := _ }) (exists_mem_entries hitem hmark)

/-- **A line at the end sets an option of the last section.** -/
theorem parse_concat (hkey : PlainKey key) (hvalue : Solid value) {sect : Text} {c : Config}
    (hparse : parse lines = some c) (hlast : (placeAfter {} lines).sect = some sect)
    (hnot : ∀ item ∈ items {} lines, item.isOption sect key = false) :
    ∃ d, parse (lines ++ [optionLine key value]) = some d ∧ Sets sect key value c d := by
  obtain ⟨⟨hbad, hheaders, hentries⟩, rfl⟩ := parse_eq_some hparse
  have hitems : items {} (lines ++ [optionLine key value]) =
      items {} lines ++ [.option sect key value] := by
    rw [items_append, items, items, readLine_optionLine hkey hvalue hlast]
  have hfresh := not_mem_entries hnot
  have hvalid : Valid (items {} (lines ++ [optionLine key value])) := by
    rw [hitems]
    refine ⟨by simp [hbad], ?_, ?_⟩
    · rwa [headers_concat_option]
    · rw [entries_concat_option hvalue, List.map_append, List.nodup_append]
      refine ⟨hentries, by simp, ?_⟩
      intro a ha b hb heq
      obtain ⟨e, he, rfl⟩ := List.mem_map.mp ha
      rw [List.map_singleton, List.mem_singleton] at hb
      rw [hb, Prod.mk.injEq] at heq
      exact hfresh e he heq
  refine ⟨_, parse_of_valid hvalid, ?_⟩
  rw [hitems, headers_concat_option, entries_concat_option hvalue]
  exact sets_concat (c := { sections := _, options := _ }) hfresh

/-! ### Looking options up -/

/-- The value refers to an option of this name. -/
def refers (key value : Text) : Bool :=
  match tokens .text value with
  | some toks => decide (.ref key ∈ toks)
  | none => false

/-- The character of a piece that is no reference. -/
def Token.char : Token → Option Char
  | .lit c => some c
  | .ref _ => none

/-- The text a value without references stands for. -/
def literal (value : Text) : Option Text := (tokens .text value).bind fun toks => toks.mapM Token.char

theorem mapM_congr {α β : Type} {f g : α → Option β} {xs : List α} (h : ∀ x ∈ xs, f x = g x) :
    xs.mapM f = xs.mapM g := by
  induction xs with
  | nil => rfl
  | cons x xs ih =>
    obtain ⟨hx, hxs⟩ := List.forall_mem_cons.mp h
    rw [List.mapM_cons, List.mapM_cons, hx, ih hxs]

/-- A value is expanded from the values it refers to. -/
theorem interpolate_congr {look look' : Text → Option Text}
    (hlook : ∀ name, name ≠ key → look' name = look name)
    (hvalues : ∀ name v, look name = some v → refers key v = false) :
    ∀ (depth : ℕ) (v : Text), refers key v = false →
      interpolate look' depth v = interpolate look depth v := by
  intro depth
  induction depth with
  | zero =>
    intro v _
    rfl
  | succ depth ih =>
    intro v hv
    unfold interpolate
    unfold refers at hv
    cases htoks : tokens .text v with
    | none => rfl
    | some toks =>
      rw [htoks] at hv
      have hnot : Token.ref key ∉ toks := of_decide_eq_false hv
      rw [Option.bind_some, Option.bind_some]
      congr 1
      refine mapM_congr fun tok htok => ?_
      cases tok with
      | lit c => rfl
      | ref name =>
        have hname : name ≠ key := by
          rintro rfl
          exact hnot htok
        unfold Token.expand
        dsimp only
        rw [hlook name hname]
        cases hfound : look name with
        | none => rfl
        | some w => rw [Option.bind_some, Option.bind_some, ih w (hvalues name w hfound)]

/-- Pieces without references are their characters. -/
theorem mapM_expand {look deeper : Text → Option Text} {toks : List Token} {text : Text}
    (h : toks.mapM Token.char = some text) :
    (toks.mapM (Token.expand look deeper)).map List.flatten = some text := by
  induction toks generalizing text with
  | nil =>
    cases h
    rfl
  | cons tok toks ih =>
    rw [List.mapM_cons] at h ⊢
    cases tok with
    | ref name => cases h
    | lit c =>
      cases hrest : toks.mapM Token.char with
      | none =>
        rw [hrest] at h
        cases h
      | some rest =>
        rw [hrest] at h
        cases h
        obtain ⟨parts, hparts, hflat⟩ := Option.map_eq_some_iff.mp (ih hrest)
        rw [hparts, ← hflat]
        rfl

theorem interpolate_literal (look : Text → Option Text) {text : Text}
    (h : literal value = some text) (depth : ℕ) : interpolate look (depth + 1) value = some text := by
  unfold literal at h
  unfold interpolate
  cases htoks : tokens .text value with
  | none =>
    rw [htoks] at h
    cases h
  | some toks =>
    rw [htoks, Option.bind_some] at h
    rw [Option.bind_some]
    exact mapM_expand h

theorem refers_of_literal {text : Text} (h : literal value = some text) (key : Text) :
    refers key value = false := by
  unfold literal at h
  unfold refers
  cases htoks : tokens .text value with
  | none => rfl
  | some toks =>
    rw [htoks, Option.bind_some] at h
    refine decide_eq_false fun hmem => ?_
    have hnone : toks.mapM Token.char = none := by
      clear h htoks
      induction toks with
      | nil => cases hmem
      | cons tok toks ih =>
        rw [List.mapM_cons]
        rcases List.mem_cons.mp hmem with rfl | hmem
        · rfl
        · rw [ih hmem]
          cases tok.char <;> rfl
    rw [hnone] at h
    cases h

/-- A value without percent signs stands for itself. -/
theorem literal_of_not_mem (h : '%' ∉ value) : literal value = some value := by
  have htokens : tokens .text value = some (value.map .lit) := by
    induction value with
    | nil => rfl
    | cons c value ih =>
      obtain ⟨hc, hrest⟩ := not_or.mp (mt List.mem_cons.mpr h)
      rw [tokens, if_neg (Ne.symm hc), ih hrest]
      rfl
  unfold literal
  rw [htokens, Option.bind_some]
  clear h htokens
  induction value with
  | nil => rfl
  | cons c value ih =>
    rw [List.map_cons, List.mapM_cons, ih]
    rfl

namespace Sets

variable {sect text : Text} {c d : Config}

theorem raw_of_ne (h : Sets sect key value c d) (hsect : sect ≠ defaultSection) {s k : Text}
    (hne : ¬(s = sect ∧ k = key)) : d.raw s k = c.raw s k := by
  rw [Config.raw_eq, Config.raw_eq, h.find_of_ne s k hne,
    h.find_of_ne defaultSection k fun hdefault => hsect hdefault.1.symm]

theorem raw_self (h : Sets sect key value c d) : d.raw sect key = some value := by
  rw [Config.raw_eq, h.find_self]
  rfl

/-- No value of the section, and no default, refers to the option. -/
theorem get_of_ne (h : Sets sect key value c d) (hsect : sect ≠ defaultSection)
    (hrefs : ∀ e ∈ c.options, e.sect = sect ∨ e.sect = defaultSection → refers key e.value = false)
    {s k : Text} (hne : ¬(s = sect ∧ k = key)) : d.get s k = c.get s k := by
  unfold Config.get
  rw [h.raw_of_ne hsect hne]
  cases hraw : c.raw s k with
  | none => rfl
  | some v =>
    dsimp only
    rcases eq_or_ne s sect with rfl | hs
    · have hvalues : ∀ name v, c.raw s name = some v → refers key v = false := by
        intro name v hraw
        obtain ⟨e, he, rfl⟩ := Option.map_eq_some_iff.mp hraw
        rcases Option.or_eq_some_iff.mp he with hfind | ⟨-, hfind⟩
        · have hplace := List.find?_some hfind
          exact hrefs e (List.mem_of_find?_eq_some hfind) (Or.inl (of_decide_eq_true hplace).1)
        · have hplace := List.find?_some hfind
          exact hrefs e (List.mem_of_find?_eq_some hfind) (Or.inr (of_decide_eq_true hplace).1)
      have hlook : ∀ name, name ≠ key → d.raw s name = c.raw s name := fun name hname =>
        h.raw_of_ne hsect fun hboth => hname hboth.2
      rw [interpolate_congr hlook hvalues _ v (hvalues k v hraw)]
    -- another section finds the same values
    · have hlook : d.raw s = c.raw s := by
        funext name
        exact h.raw_of_ne hsect fun hboth => hs hboth.1
      rw [hlook]

theorem get_self (h : Sets sect key value c d) (hlit : literal value = some text) :
    d.get sect key = some (some text) := by
  unfold Config.get
  rw [h.raw_self]
  dsimp only
  rw [show maxInterpolationDepth = 9 + 1 from rfl, interpolate_literal _ hlit]
  rfl

theorem hasSection (h : Sets sect key value c d) (s : Text) : d.hasSection s = c.hasSection s := by
  unfold Config.hasSection
  rw [h.sections]

end Sets

end ConfigParser
