import XenMiner.Lib.Run
import XenMiner.Monitoring.LocalStatsView
import Mathlib.Algebra.BigOperators.Group.List.Basic
import Mathlib.Data.List.Nodup

/-!
# The week in tokens

The view of any history of accepts adds up, for the day and the week so far and for the ones before, what
each accept paid on its own mining day (`view_run`).  The bounds are those of the clock: a day begins at
1:00, a week on Monday at 1:00.
-/

namespace XenMiner

open Periods Rewards

/-! ### Sums of amounts -/

namespace KindAmounts

theorem ext_iff' {a b : KindAmounts} :
    a = b ↔ a.xuni = b.xuni ∧ a.xnm = b.xnm ∧ a.xblk = b.xblk := by
  cases a
  cases b
  simp

instance : Zero KindAmounts := ⟨{ xuni := 0, xnm := 0, xblk := 0 }⟩

instance : Add KindAmounts :=
  ⟨fun a b => { xuni := a.xuni + b.xuni, xnm := a.xnm + b.xnm, xblk := a.xblk + b.xblk }⟩

theorem add_def (a b : KindAmounts) :
    a + b = { xuni := a.xuni + b.xuni, xnm := a.xnm + b.xnm, xblk := a.xblk + b.xblk } := rfl

instance : AddCommMonoid KindAmounts where
  add_assoc _ _ _ := ext_iff'.mpr ⟨add_assoc _ _ _, add_assoc _ _ _, add_assoc _ _ _⟩
  zero_add _ := ext_iff'.mpr ⟨zero_add _, zero_add _, zero_add _⟩
  add_zero _ := ext_iff'.mpr ⟨add_zero _, add_zero _, add_zero _⟩
  add_comm _ _ := ext_iff'.mpr ⟨add_comm _ _, add_comm _ _, add_comm _ _⟩
  nsmul := nsmulRec

end KindAmounts

/-! ### The history -/

namespace LocalMiningStatsTracker

/-- An accept: its moment and its kind. -/
abbrev Accepted := ℤ × String

/-- What an accept pays: one block, at the reward of its mining day. -/
def paid (a : Accepted) : KindAmounts := blocksToTokens (({} : KindCounts).inc a.2) (miningDay a.1)

/-- What some accepts pay. -/
def total (accepts : List Accepted) : KindAmounts := (accepts.map paid).sum

/-- How many blocks of each kind some accepts are. -/
def blocks : List Accepted → KindCounts
  | [] => {}
  | a :: accepts => (blocks accepts).inc a.2

/-- One more block pays what it pays on its own. -/
theorem blocksToTokens_inc (c : KindCounts) (kind : String) (on : ℤ) :
    blocksToTokens (c.inc kind) on =
      blocksToTokens (({} : KindCounts).inc kind) on + blocksToTokens c on := by
  rw [KindAmounts.add_def]
  unfold KindCounts.inc
  split_ifs <;> simp [blocksToTokens, add_mul, add_comm]

theorem total_cons (a : Accepted) (accepts : List Accepted) :
    total (a :: accepts) = paid a + total accepts := rfl

/-- Accepts of one day pay at that day's reward. -/
theorem total_of_day {day : ℤ} {accepts : List Accepted} (h : ∀ a ∈ accepts, miningDay a.1 = day) :
    total accepts = blocksToTokens (blocks accepts) day := by
  induction accepts with
  | nil =>
    show (0 : KindAmounts) = { xuni := ((0 : ℕ) : ℚ), xnm := (0 : ℕ) * _, xblk := ((0 : ℕ) : ℚ) }
    rw [Nat.cast_zero, zero_mul]
    rfl
  | cons a accepts ih =>
    obtain ⟨ha, hrest⟩ := List.forall_mem_cons.mp h
    rw [total_cons, ih hrest, blocks, blocksToTokens_inc, paid, ha]

/-- The history before the first accept. -/
def empty : LocalMiningStatsTracker := ⟨fun _ => none⟩

/-- The history of some accepts, in the order of the list. -/
def recordAll (t : LocalMiningStatsTracker) (accepts : List Accepted) : LocalMiningStatsTracker :=
  accepts.foldl (fun t a => t.recordAccept a.2 a.1) t

variable (t : LocalMiningStatsTracker) (accepts : List Accepted) (day : ℤ)

theorem dayCounts_recordAll :
    (empty.recordAll accepts).dayCounts day =
      blocks (accepts.filter fun a => miningDay a.1 = day).reverse := by
  induction accepts using List.reverseRecOn with
  | nil => rfl
  | append_singleton accepts a ih =>
    have hlast : empty.recordAll (accepts ++ [a]) =
        (empty.recordAll accepts).recordAccept a.2 a.1 := List.foldl_concat ..
    rw [hlast, dayCounts_recordAccept, ih, List.filter_append]
    by_cases hday : day = miningDay a.1
    · rw [if_pos hday, List.filter_cons_of_pos (by simp [hday]), List.filter_nil,
        List.reverse_append]
      rfl
    · rw [if_neg hday, List.filter_cons_of_neg (by simpa using fun h => hday h.symm),
        List.filter_nil, List.append_nil]

theorem dayTokens_recordAll :
    (empty.recordAll accepts).dayTokens day = total (accepts.filter fun a => miningDay a.1 = day) := by
  have hday : ∀ a ∈ (accepts.filter fun a => miningDay a.1 = day).reverse, miningDay a.1 = day := by
    intro a ha
    simpa using (List.mem_filter.mp (List.mem_reverse.mp ha)).2
  rw [dayTokens, dayCounts_recordAll, ← total_of_day hday]
  exact (List.reverse_perm _).map paid |>.sum_eq

theorem hasDay_recordAll :
    (empty.recordAll accepts).hasDay day = accepts.any fun a => miningDay a.1 = day := by
  induction accepts using List.reverseRecOn with
  | nil => rfl
  | append_singleton accepts a ih =>
    have hlast : empty.recordAll (accepts ++ [a]) =
        (empty.recordAll accepts).recordAccept a.2 a.1 := List.foldl_concat ..
    rw [hlast, List.any_append, ← ih]
    unfold hasDay recordAccept
    dsimp only
    by_cases hday : day = miningDay a.1
    · rw [hday, Function.update_self]
      simp
    · rw [Function.update_of_ne hday]
      simp [Ne.symm hday]

theorem hasAnyDay_recordAll (days : List ℤ) :
    (empty.recordAll accepts).hasAnyDay days = accepts.any fun a => miningDay a.1 ∈ days := by
  unfold hasAnyDay
  rw [funext (hasDay_recordAll accepts)]
  refine Bool.eq_iff_iff.mpr ?_
  simp only [List.any_eq_true, decide_eq_true_eq]
  constructor
  · rintro ⟨day, hday, a, ha, rfl⟩
    exact ⟨a, ha, hday⟩
  · rintro ⟨a, ha, hday⟩
    exact ⟨_, hday, a, ha, rfl⟩

/-- The loop over the days is a sum. -/
theorem sumTokens_eq (days : List ℤ) : t.sumTokens days = (days.map t.dayTokens).sum := by
  have hloop : ∀ (days : List ℤ) (totals : KindAmounts),
      days.foldl (fun totals day => totals + t.dayTokens day) totals =
        totals + (days.map t.dayTokens).sum := by
    intro days
    induction days with
    | nil => exact fun totals => (add_zero totals).symm
    | cons day days ih =>
      intro totals
      rw [List.foldl_cons, ih, List.map_cons, List.sum_cons, add_assoc]
  exact (hloop days 0).trans (zero_add _)

/-- What the days of a list without repetitions earned. -/
theorem sumTokens_recordAll {days : List ℤ} (hnodup : days.Nodup) :
    (empty.recordAll accepts).sumTokens days =
      total (accepts.filter fun a => miningDay a.1 ∈ days) := by
  rw [sumTokens_eq, funext (dayTokens_recordAll accepts)]
  induction days with
  | nil =>
    rw [List.map_nil, List.sum_nil, List.filter_eq_nil_iff.mpr fun _ _ => by simp]
    rfl
  | cons day days ih =>
    obtain ⟨hday, hdays⟩ := List.nodup_cons.mp hnodup
    rw [List.map_cons, List.sum_cons, ih hdays]
    clear ih
    simp only [List.mem_cons]
    induction accepts with
    | nil => exact add_zero _
    | cons a accepts ih =>
      simp only [List.filter_cons, decide_eq_true_eq]
      by_cases hfirst : miningDay a.1 = day
      · -- an accept of the first day belongs to none of the others
        rw [if_pos hfirst, if_neg (hfirst ▸ hday), if_pos (Or.inl hfirst), total_cons, total_cons,
          add_assoc]
        exact congrArg (paid a + ·) ih
      · by_cases hrest : miningDay a.1 ∈ days
        · rw [if_neg hfirst, if_pos hrest, if_pos (Or.inr hrest), total_cons, total_cons,
            add_left_comm]
          exact congrArg (paid a + ·) ih
        · rw [if_neg hfirst, if_neg hrest, if_neg (not_or_intro hfirst hrest)]
          exact ih

end LocalMiningStatsTracker

/-! ### Days and weeks on the clock -/

namespace Periods

/-- The moment a mining day begins. -/
def dayStart (day : ℤ) : ℤ := day * 86400 + 3600

theorem le_miningDay_iff {d n : ℤ} : d ≤ miningDay n ↔ dayStart d ≤ n := by
  rw [miningDay_eq]
  unfold date dayStart
  omega

theorem mem_daysFrom {stop d : ℤ} {fuel : ℕ} {cursor : ℤ} :
    d ∈ daysFrom stop fuel cursor ↔ cursor ≤ d ∧ d ≤ stop ∧ d < cursor + fuel := by
  induction fuel generalizing cursor with
  | zero =>
    simp only [daysFrom, List.not_mem_nil, false_iff]
    omega
  | succ fuel ih =>
    rw [daysFrom]
    split_ifs with hle
    · rw [List.mem_cons, ih]
      push_cast
      omega
    · simp only [List.not_mem_nil, false_iff]
      omega

theorem nodup_daysFrom {stop : ℤ} {fuel : ℕ} {cursor : ℤ} : (daysFrom stop fuel cursor).Nodup := by
  induction fuel generalizing cursor with
  | zero => exact List.nodup_nil
  | succ fuel ih =>
    rw [daysFrom]
    split_ifs with hle
    · refine List.nodup_cons.mpr ⟨fun hmem => ?_, ih⟩
      have hlater := (mem_daysFrom.mp hmem).1
      omega
    · exact List.nodup_nil

theorem mem_miningWeekDays {d now : ℤ} :
    d ∈ miningWeekDays now ↔ miningWeekStart now ≤ d ∧ d ≤ miningDay now := by
  unfold miningWeekDays
  rw [mem_daysFrom]
  unfold miningWeekStart weekday
  omega

theorem nodup_miningWeekDays (now : ℤ) : (miningWeekDays now).Nodup := nodup_daysFrom

theorem mem_previousMiningWeekDays {d now : ℤ} :
    d ∈ previousMiningWeekDays now ↔ miningWeekStart now - 7 ≤ d ∧ d < miningWeekStart now := by
  unfold previousMiningWeekDays previousMiningWeekStart
  rw [List.mem_map]
  constructor
  · rintro ⟨offset, hoffset, rfl⟩
    have hlt := List.mem_range.mp hoffset
    omega
  · rintro ⟨hlo, hhi⟩
    exact ⟨(d - (miningWeekStart now - 7)).toNat, List.mem_range.mpr (by omega), by omega⟩

theorem nodup_previousMiningWeekDays (now : ℤ) : (previousMiningWeekDays now).Nodup := by
  refine List.Nodup.map (fun a b h => ?_) List.nodup_range
  have heq : previousMiningWeekStart now + (a : ℤ) = previousMiningWeekStart now + b := h
  omega

end Periods

/-! ### The view -/

namespace LocalMiningStatsTracker

/-- Two periods compared; there is no change from one without accepts. -/
def compared (current previous : List Accepted) : KindChanges :=
  kindChanges (total current) (if previous = [] then none else some (total previous))

theorem ite_any {accepts : List Accepted} {p : Accepted → Bool} {x : KindAmounts} :
    (if accepts.any p = true then some x else none) =
      if accepts.filter p = [] then none else some x := by
  by_cases hany : accepts.any p = true
  · obtain ⟨a, ha, hp⟩ := List.any_eq_true.mp hany
    rw [if_pos hany, if_neg (List.ne_nil_of_mem (List.mem_filter.mpr ⟨ha, hp⟩))]
  · have hnone : accepts.filter p = [] := List.filter_eq_nil_iff.mpr fun a ha hp =>
      hany (List.any_eq_true.mpr ⟨a, ha, hp⟩)
    rw [if_neg hany, if_pos hnone]

/-- **The view in terms of the accepts.**  Of accepts made so far, in any order, the view sums up those
since the day and since the week began, each at the reward of its own mining day, and compares them with
those of the day and of the week before; a period without any accept leaves the change open. -/
theorem view_run (accepts : List Accepted) (now : ℤ) (h : ∀ a ∈ accepts, a.1 ≤ now) :
    let v := (empty.recordAll accepts).view now
    let dayBegin := dayStart (miningDay now)
    let weekBegin := dayStart (miningWeekStart now)
    let during := fun start stop => accepts.filter fun a => start ≤ a.1 ∧ a.1 < stop
    (dayBegin ≤ now ∧ now < dayBegin + 86400 ∧ weekBegin ≤ dayBegin ∧ now < weekBegin + 604800 ∧
        weekday (miningWeekStart now) = 0) ∧
      v.todayTokens = total (during dayBegin (now + 1)) ∧
      v.todayBlocks = blocks (during dayBegin (now + 1)).reverse ∧
      v.day = compared (during dayBegin (now + 1)) (during (dayBegin - 86400) dayBegin) ∧
      v.week = compared (during weekBegin (now + 1)) (during (weekBegin - 604800) weekBegin) := by
  intro v dayBegin weekBegin during
  have hsince : ∀ {p : Accepted → Bool} {start stop : ℤ}, (∀ a ∈ accepts, a.1 ≤ now →
      (p a = true ↔ start ≤ a.1 ∧ a.1 < stop)) → accepts.filter p = during start stop :=
    fun hp => List.filter_congr fun a ha => Bool.eq_iff_iff.mpr ((hp a ha (h a ha)).trans (by simp))
  have hbegin : ∀ {d : ℤ} {a : Accepted}, d ≤ miningDay a.1 ↔ dayStart d ≤ a.1 := le_miningDay_iff
  have htoday : (accepts.filter fun a => miningDay a.1 = miningDay now) =
      during dayBegin (now + 1) := by
    refine hsince fun a _ hle => ?_
    have hmono := miningDay_mono hle
    have hstart := hbegin (d := miningDay now) (a := a)
    rw [decide_eq_true_eq]
    omega
  have hyesterday : (accepts.filter fun a => miningDay a.1 = previousMiningDay now) =
      during (dayBegin - 86400) dayBegin := by
    refine hsince fun a _ _ => ?_
    have hstart := hbegin (d := miningDay now - 1) (a := a)
    have hend := hbegin (d := miningDay now) (a := a)
    have hshift : dayStart (miningDay now - 1) = dayBegin - 86400 := by
      show (_ - 1) * 86400 + 3600 = _ * 86400 + 3600 - 86400
      ring
    rw [decide_eq_true_eq, previousMiningDay]
    omega
  have hweek : (accepts.filter fun a => miningDay a.1 ∈ miningWeekDays now) =
      during weekBegin (now + 1) := by
    refine hsince fun a _ hle => ?_
    have hmono := miningDay_mono hle
    have hstart := hbegin (d := miningWeekStart now) (a := a)
    rw [decide_eq_true_eq, mem_miningWeekDays]
    omega
  have hprior : (accepts.filter fun a => miningDay a.1 ∈ previousMiningWeekDays now) =
      during (weekBegin - 604800) weekBegin := by
    refine hsince fun a _ _ => ?_
    have hstart := hbegin (d := miningWeekStart now - 7) (a := a)
    have hend := hbegin (d := miningWeekStart now) (a := a)
    have hshift : dayStart (miningWeekStart now - 7) = weekBegin - 604800 := by
      show (_ - 7) * 86400 + 3600 = _ * 86400 + 3600 - 604800
      ring
    rw [decide_eq_true_eq, mem_previousMiningWeekDays]
    omega
  refine ⟨?_, ?_, ?_, ?_, ?_⟩
  · have hday : miningDay now * 86400 + 3600 ≤ now := le_miningDay_iff.mp le_rfl
    have hnext : now < (miningDay now + 1) * 86400 + 3600 :=
      not_le.mp fun hle => absurd (le_miningDay_iff.mpr hle) (by omega)
    have hmonday : miningWeekStart now = miningDay now - (miningDay now + 6) % 7 := rfl
    refine ⟨hday, ?_, ?_, ?_, ?_⟩
    · show now < miningDay now * 86400 + 3600 + 86400
      omega
    · show miningWeekStart now * 86400 + 3600 ≤ miningDay now * 86400 + 3600
      omega
    · show now < miningWeekStart now * 86400 + 3600 + 604800
      omega
    · show (miningWeekStart now + 6) % 7 = 0
      omega
  · show (empty.recordAll accepts).dayTokens (miningDay now) = _
    rw [dayTokens_recordAll, htoday]
  · show (empty.recordAll accepts).dayCounts (miningDay now) = _
    rw [dayCounts_recordAll, htoday]
  · show kindChanges ((empty.recordAll accepts).dayTokens (miningDay now))
      (if (empty.recordAll accepts).hasDay (previousMiningDay now) = true then
        some ((empty.recordAll accepts).dayTokens (previousMiningDay now)) else none) = _
    rw [dayTokens_recordAll, dayTokens_recordAll, hasDay_recordAll, ite_any, htoday, hyesterday]
    rfl
  · show kindChanges ((empty.recordAll accepts).sumTokens (miningWeekDays now))
      (if (empty.recordAll accepts).hasAnyDay (previousMiningWeekDays now) = true then
        some ((empty.recordAll accepts).sumTokens (previousMiningWeekDays now)) else none) = _
    rw [sumTokens_recordAll accepts (nodup_miningWeekDays now),
      sumTokens_recordAll accepts (nodup_previousMiningWeekDays now), hasAnyDay_recordAll, ite_any,
      hweek, hprior]
    rfl

/-- Sunday noon, Monday half past midnight and Monday at two o'clock, in September 2025. -/
def weekendAccepts : List Accepted :=
  [(63893534400, "XNM"), (63893579400, "XUNI"), (63893584800, "XNM")]

/-- On Monday noon, the accept of half past midnight still belongs to the week before. -/
theorem view_run_weekend :
    ((empty.recordAll weekendAccepts).view 63893620800).week =
      compared [(63893584800, "XNM")] [(63893534400, "XNM"), (63893579400, "XUNI")] :=
  (view_run weekendAccepts 63893620800 (by decide)).2.2.2.2.trans
    (congrArg₂ compared (by decide) (by decide))

end LocalMiningStatsTracker

end XenMiner
