import XenMiner.Lib.PyStr
import Mathlib.Data.List.DropRight

/-!
# Texts and lines

A text is a list of characters, as a file gives it in text mode: a line ends with a newline.  Reading
a file line by line (`fileLines`) splits at newlines only, `str.splitlines` also at the other
characters Python takes for line boundaries.  What is joined from lines without such characters is
split into the same lines by both (`splitLines_joinLines`).
-/

abbrev Text := List Char

instance : LawfulBEq Text := inferInstanceAs (LawfulBEq (List Char))

namespace PyText

/-- Of all instances that decide this, only the one of `List.all` looks at the listed characters
alone. -/
theorem forall_mem_of_all {s : Text} {p : Char → Prop} [DecidablePred p]
    (h : s.all (fun c => p c) = true) : ∀ c ∈ s, p c :=
  fun c hc => of_decide_eq_true (List.all_eq_true.mp h c hc)

/-- `s.lstrip()`. -/
def lstrip (s : Text) : Text := s.dropWhile PyStr.isSpace

/-- `s.rstrip()`. -/
def rstrip (s : Text) : Text := (s.reverse.dropWhile PyStr.isSpace).reverse

/-- `s.strip()`. -/
def strip (s : Text) : Text := rstrip (lstrip s)

/-- `s.rstrip(c)` for one character. -/
def rstripChar (c : Char) (s : Text) : Text := s.rdropWhile (· = c)

/-- `s.endswith(suf)`. -/
def endsWith (suf s : Text) : Bool := decide (suf <:+ s)

/-- `s[:-len(suf)]`. -/
def dropEnd (suf s : Text) : Text := s.take (s.length - suf.length)

/-- `s.lower()`. -/
def lower (s : Text) : Text := s.flatMap PyStr.lowerChar

/-! ### Lines -/

/-- The pieces between the characters `brk` holds of; nothing follows the last one. -/
def splitLines (brk : Char → Bool) : Text → List Text
  | [] => []
  | c :: cs =>
    if brk c then [] :: splitLines brk cs
    else
      match splitLines brk cs with
      | [] => [[c]]
      | line :: lines => (c :: line) :: lines

/-- The line boundaries of `str.splitlines`. -/
def isLineBreak (c : Char) : Bool :=
  c.val ∈ [0x0a, 0x0b, 0x0c, 0x0d, 0x1c, 0x1d, 0x1e, 0x85, 0x2028, 0x2029]

def splitlines (s : Text) : List Text := splitLines isLineBreak s

/-- The lines of an open file, without their newlines. -/
def fileLines (s : Text) : List Text := splitLines (· = '\n') s

/-- `"\n".join(lines) + "\n"`. -/
def joinLines (lines : List Text) : Text := List.intercalate ['\n'] lines ++ ['\n']

theorem joinLines_cons (line : Text) {lines : List Text} (h : lines ≠ []) :
    joinLines (line :: lines) = line ++ '\n' :: joinLines lines := by
  obtain ⟨next, rest, rfl⟩ := List.exists_cons_of_ne_nil h
  simp [joinLines, List.intercalate]

theorem splitLines_append_break {brk : Char → Bool} {line : Text} (h : ∀ c ∈ line, brk c = false)
    {d : Char} (hd : brk d = true) (rest : Text) :
    splitLines brk (line ++ d :: rest) = line :: splitLines brk rest := by
  induction line with
  | nil => rw [List.nil_append, splitLines, if_pos hd]
  | cons c line ih =>
    obtain ⟨hc, hline⟩ := List.forall_mem_cons.mp h
    rw [List.cons_append, splitLines, ih hline, hc]
    rfl

/-- **Lines that were joined are split again.** -/
theorem splitLines_joinLines {brk : Char → Bool} (hnewline : brk '\n' = true) {lines : List Text}
    (hne : lines ≠ []) (h : ∀ line ∈ lines, ∀ c ∈ line, brk c = false) :
    splitLines brk (joinLines lines) = lines := by
  induction lines with
  | nil => exact absurd rfl hne
  | cons line lines ih =>
    obtain ⟨hline, hlines⟩ := List.forall_mem_cons.mp h
    rcases eq_or_ne lines [] with rfl | hrest
    · have hone : joinLines [line] = line ++ '\n' :: [] := by simp [joinLines, List.intercalate]
      rw [hone, splitLines_append_break hline hnewline]
      rfl
    · rw [joinLines_cons line hrest, splitLines_append_break hline hnewline, ih hrest hlines]

/-- No line contains a line boundary. -/
theorem not_mem_splitLines {brk : Char → Bool} {s : Text} :
    ∀ line ∈ splitLines brk s, ∀ c ∈ line, brk c = false := by
  induction s with
  | nil =>
    intro line hline
    cases hline
  | cons d s ih =>
    unfold splitLines
    split_ifs with hd
    · intro line hline
      rcases List.mem_cons.mp hline with rfl | hline
      · intro c hc
        cases hc
      · exact ih line hline
    · have hd' : brk d = false := by simpa using hd
      split
      next =>
        intro line hline c hc
        rw [List.mem_singleton] at hline
        subst hline
        rw [List.mem_singleton] at hc
        rw [hc, hd']
      next first rest hsplit =>
        rw [hsplit] at ih
        obtain ⟨hfirst, hrest⟩ := List.forall_mem_cons.mp ih
        refine List.forall_mem_cons.mpr ⟨List.forall_mem_cons.mpr ⟨hd', hfirst⟩, hrest⟩

/-! ### `strip` -/

/-- A text with a first and a last character that are no spaces. -/
structure Solid (s : Text) : Prop where
  ne_nil : s ≠ []
  head : ∀ c ∈ s.head?, PyStr.isSpace c = false
  last : ∀ c ∈ s.getLast?, PyStr.isSpace c = false

theorem lstrip_of_head {s : Text} (h : ∀ c ∈ s.head?, PyStr.isSpace c = false) : lstrip s = s := by
  cases s with
  | nil => rfl
  | cons c s =>
    have hc : PyStr.isSpace c = false := h c rfl
    unfold lstrip
    rw [List.dropWhile_cons_of_neg (by rw [hc]; exact Bool.false_ne_true)]

theorem rstrip_of_last {s : Text} (h : ∀ c ∈ s.getLast?, PyStr.isSpace c = false) :
    rstrip s = s := by
  have hrev : ∀ c ∈ s.reverse.head?, PyStr.isSpace c = false := by
    rw [List.head?_reverse]
    exact h
  have hkeep : s.reverse.dropWhile PyStr.isSpace = s.reverse := lstrip_of_head hrev
  unfold rstrip
  rw [hkeep, List.reverse_reverse]

theorem Solid.strip_eq {s : Text} (h : Solid s) : strip s = s := by
  unfold strip
  rw [lstrip_of_head h.head, rstrip_of_last h.last]

theorem head_lstrip (s : Text) : ∀ c ∈ (lstrip s).head?, PyStr.isSpace c = false := by
  intro c hc
  have hnot := List.head?_dropWhile_not PyStr.isSpace s
  rw [show s.dropWhile PyStr.isSpace = lstrip s from rfl, Option.mem_def.mp hc] at hnot
  simpa using hnot

/-- What `strip` leaves is empty or solid. -/
theorem solid_strip {s : Text} (h : strip s ≠ []) : Solid (strip s) := by
  refine ⟨h, ?_, ?_⟩
  -- the front of what is left is the front of the text without leading spaces
  · intro c hc
    have hprefix : strip s <+: lstrip s := by
      unfold strip rstrip
      rw [← List.reverse_suffix, List.reverse_reverse]
      exact List.dropWhile_suffix _
    obtain ⟨rest, hrest⟩ := hprefix
    refine head_lstrip s c ?_
    rw [← hrest, List.head?_append, Option.mem_def.mp hc]
    rfl
  · intro c hc
    have hrev : ∀ c ∈ (lstrip (lstrip s).reverse).head?, PyStr.isSpace c = false := head_lstrip _
    refine hrev c ?_
    rw [show lstrip (lstrip s).reverse = (strip s).reverse from (List.reverse_reverse _).symm,
      List.head?_reverse]
    exact hc

theorem strip_strip (s : Text) : strip (strip s) = strip s := by
  by_cases h : strip s = []
  · rw [h]
    rfl
  · exact (solid_strip h).strip_eq

theorem Solid.append {s t : Text} (hs : Solid s) (ht : Solid t) (mid : Text) :
    Solid (s ++ mid ++ t) where
  ne_nil := by simp [hs.ne_nil]
  head := by
    intro c hc
    obtain ⟨d, rest, hd⟩ := List.exists_cons_of_ne_nil hs.ne_nil
    refine hs.head c ?_
    rw [hd] at hc ⊢
    exact hc
  last := by
    intro c hc
    refine ht.last c ?_
    rwa [List.getLast?_append_of_ne_nil _ ht.ne_nil] at hc

/-- Spaces in front are dropped. -/
theorem Solid.strip_cons {s : Text} (h : Solid s) {c : Char} (hc : PyStr.isSpace c = true) :
    strip (c :: s) = s := by
  have hdrop : lstrip (c :: s) = lstrip s := List.dropWhile_cons_of_pos hc
  unfold strip
  rw [hdrop]
  exact h.strip_eq

/-- Spaces behind are dropped. -/
theorem rstrip_append_spaces (s : Text) {ws : Text} (h : ∀ c ∈ ws, PyStr.isSpace c = true) :
    rstrip (s ++ ws) = rstrip s := by
  unfold rstrip
  rw [List.reverse_append, List.dropWhile_append_of_pos]
  intro c hc
  exact h c (List.mem_reverse.mp hc)

/-! ### The ends of a text -/

section Ends

variable {suf s t : Text} {c : Char}

theorem endsWith_iff : endsWith suf s = true ↔ suf <:+ s := decide_eq_true_iff

theorem endsWith_append (s suf : Text) : endsWith suf (s ++ suf) = true :=
  endsWith_iff.mpr (List.suffix_append s suf)

theorem dropEnd_append (s suf : Text) : dropEnd suf (s ++ suf) = s := by
  unfold dropEnd
  rw [List.length_append, Nat.add_sub_cancel, List.take_left']
  rfl

theorem dropEnd_append_self (h : endsWith suf s = true) : dropEnd suf s ++ suf = s := by
  obtain ⟨t, rfl⟩ := endsWith_iff.mp h
  rw [dropEnd_append]

/-- The longer of two ends has the other as its end. -/
theorem not_endsWith (hlen : suf.length ≤ t.length) (h : ¬ suf <:+ t) : ¬ endsWith suf (s ++ t) = true := by
  intro hend
  exact h (List.suffix_of_suffix_length_le (endsWith_iff.mp hend) (List.suffix_append s t) hlen)

/-- The same, for the shorter end. -/
theorem not_endsWith_of_shorter (hlen : t.length ≤ suf.length) (h : ¬ t <:+ suf) :
    ¬ endsWith suf (s ++ t) = true := by
  intro hend
  exact h (List.suffix_of_suffix_length_le (List.suffix_append s t) (endsWith_iff.mp hend) hlen)

/-- The text ends with another character than `c`. -/
def EndsApart (c : Char) (s : Text) : Prop := ∀ d ∈ s.getLast?, d ≠ c

theorem endsApart_iff : EndsApart c s ↔ s.getLast? ≠ some c := by
  constructor
  · intro h heq
    exact h c heq rfl
  · rintro h d hd rfl
    exact h hd

theorem rstripChar_of_endsApart (h : EndsApart c s) : rstripChar c s = s := by
  apply List.rdropWhile_eq_self_iff.mpr
  intro hne
  have hlast := h (s.getLast hne) (List.getLast?_eq_some_getLast hne)
  simpa using hlast

theorem rstripChar_append_replicate (h : EndsApart c s) (n : ℕ) :
    rstripChar c (s ++ List.replicate n c) = s := by
  induction n with
  | zero =>
    rw [List.replicate_zero, List.append_nil]
    exact rstripChar_of_endsApart h
  | succ n ih =>
    rw [List.replicate_succ', ← List.append_assoc]
    exact (List.rdropWhile_concat_pos _ _ _ (by simp)).trans ih

theorem endsApart_append (ht : t ≠ []) (h : EndsApart c t) : EndsApart c (s ++ t) := by
  intro d hd
  rw [List.getLast?_append_of_ne_nil s ht] at hd
  exact h d hd

end Ends

end PyText
