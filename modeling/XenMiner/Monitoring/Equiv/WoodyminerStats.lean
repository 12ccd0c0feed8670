import XenMiner.Lib.Paced
import XenMiner.Lib.Run
import XenMiner.Monitoring.WoodyminerStats
import Mathlib.Tactic.Linarith
import Mathlib.Tactic.NormNum

/-!
# The wait between uploads

The wait after an upload depends on nothing but the number of failures in a row (`period_run`,
`waits_run`), and it is never shorter than 15 seconds.  Each row of failures is logged once, and so is
the first success.
-/

namespace XenMiner.WoodyminerStatsUploader

variable {l : Loop} {p : ℤ}

def Reply.failed (reply : Reply) : Bool := decide (reply.status ≠ 201)

/-- The failures in a row at the head of a list of uploads, the newest first. -/
def streak (uploads : List Upload) : ℕ := (uploads.takeWhile fun u => u.reply.failed).length

/-- The wait after `n` failures in a row, for the period `p`. -/
def backoff (p : ℤ) (n : ℕ) : ℤ := if n < 10 then p else min (p * 2 ^ (n - 9)) 600

/-- The rows of failures: the failed uploads that no failed one comes right before. -/
def streaks : List Upload → ℕ
  | [] => 0
  | u :: uploads => streaks uploads + if u.reply.failed && streak uploads = 0 then 1 else 0

theorem streak_success {u : Upload} {uploads : List Upload} (h : u.reply.failed = false) :
    streak (u :: uploads) = 0 := by
  unfold streak
  rw [List.takeWhile_cons_of_neg (by simp [h])]
  rfl

theorem streak_failure {u : Upload} {uploads : List Upload} (h : u.reply.failed = true) :
    streak (u :: uploads) = streak uploads + 1 := by
  unfold streak
  rw [List.takeWhile_cons, if_pos h]
  rfl

/-! ### The closed form of the wait -/

theorem backoff_zero : backoff p 0 = p := rfl

/-- One more failure, as the loop reckons it. -/
theorem backoff_succ (hp : 0 ≤ p) (n : ℕ) :
    backoff p (n + 1) = if 10 ≤ n + 1 then min (backoff p n * 2) 600 else backoff p n := by
  unfold backoff
  by_cases hlow : n + 1 < 10
  · rw [if_pos hlow, if_neg (by omega), if_pos (by omega)]
  · rw [if_neg hlow, if_pos (by omega)]
    by_cases hfirst : n < 10
    · -- the tenth failure is the first to double
      obtain rfl : n = 9 := by omega
      rw [if_pos hfirst, show 9 + 1 - 9 = 1 from rfl, pow_one]
    · rw [if_neg hfirst]
      have hexp : n + 1 - 9 = n - 9 + 1 := by omega
      have hpow : 0 ≤ p * 2 ^ (n - 9) := mul_nonneg hp (by positivity)
      rw [hexp, pow_succ, ← mul_assoc]
      omega

theorem le_backoff (hp : 15 ≤ p) (n : ℕ) : 15 ≤ backoff p n := by
  unfold backoff
  split_ifs
  · exact hp
  · have hone : (1 : ℤ) ≤ 2 ^ (n - 9) := one_le_pow₀ (by norm_num)
    have hgrow : p ≤ p * 2 ^ (n - 9) := le_mul_of_one_le_right (by omega) hone
    omega

theorem backoff_le (n : ℕ) : backoff p n ≤ max p 600 := by
  unfold backoff
  split_ifs
  · exact le_max_left _ _
  · exact (min_le_right _ _).trans (le_max_right _ _)

/-! ### Runs -/

/-- What the turns of a loop with the period `p` keep. -/
structure Backing (p : ℤ) (l : Loop) : Prop where
  original : l.originalPeriodS = p
  failures : l.failureCount = streak l.uploads
  period : l.periodS = backoff p (streak l.uploads)
  loggedFailure : l.loggedFailure = decide (0 < streak l.uploads)
  loggedSuccess : l.loggedSuccess = l.uploads.any fun u => !u.reply.failed
  warnings : l.log.countP LogLine.isWarn = streaks l.uploads
  lines : l.log.length = streaks l.uploads + if l.loggedSuccess then 1 else 0
  waits : ∀ newer u older, l.uploads = newer ++ u :: older → u.waitS = backoff p (streak (u :: older))
  rested : Rested Upload.start (fun u => (u.waitS : ℚ)) l.uploads l.now
  paced : Paced Upload.start (fun u => (u.waitS : ℚ)) l.uploads

theorem backing_create (uploadPeriodS : ℤ) (now : ℚ) :
    Backing (max 15 uploadPeriodS) (Loop.create uploadPeriodS now) where
  original := rfl
  failures := rfl
  period := rfl
  loggedFailure := rfl
  loggedSuccess := rfl
  warnings := rfl
  lines := rfl
  waits := by
    intro newer u older h
    simp [Loop.create] at h
  rested := rested_nil
  paced := paced_nil

/-- The waits of a list that has grown by one upload. -/
theorem Backing.waits_cons (h : Backing p l) {u : Upload}
    (hu : u.waitS = backoff p (streak (u :: l.uploads))) {newer : List Upload} {v : Upload}
    {older : List Upload} (hsplit : u :: l.uploads = newer ++ v :: older) :
    v.waitS = backoff p (streak (v :: older)) := by
  cases newer with
  | nil =>
    obtain ⟨rfl, rfl⟩ := List.cons.inj hsplit
    exact hu
  | cons w newer => exact h.waits newer v older (List.cons.inj hsplit).2

/-- The time goes on past the wait. -/
theorem rested_turn {start took : ℚ} {reply : Reply} {waitS : ℤ} {uploads : List Upload}
    (htook : 0 ≤ took) :
    Rested Upload.start (fun u => (u.waitS : ℚ))
      ({ start := start, reply := reply, waitS := waitS } :: uploads) (start + took + waitS) := by
  rw [rested_cons]
  show start + waitS ≤ start + took + waitS
  linarith

theorem Backing.turn_success (h : Backing p l) {t : Turn} (ht : t.reply.status = 201) :
    Backing p (l.turn t) := by
  have hok : t.reply.failed = false := by simp [Reply.failed, ht]
  have hnext : l.turn t =
      { l.noteSuccess with
        now := l.now + t.late + t.took + l.originalPeriodS
        uploads := { start := l.now + t.late, reply := t.reply, waitS := l.originalPeriodS }
          :: l.uploads } := by
    unfold Loop.turn
    dsimp only
    rw [if_pos ht]
    rfl
  rw [hnext]
  have hzero : ∀ u : Upload, u.reply = t.reply → streak (u :: l.uploads) = 0 :=
    fun u hu => streak_success (hu ▸ hok)
  have hsame : streaks ({ start := l.now + t.late, reply := t.reply, waitS := l.originalPeriodS }
      :: l.uploads) = streaks l.uploads := by simp [streaks, hok]
  refine ⟨h.original, ?_, ?_, ?_, ?_, ?_, ?_, fun newer u older hsplit => ?_, rested_turn t.took_nonneg, ?_⟩
  · exact (hzero _ rfl).symm
  · show l.originalPeriodS = _
    rw [hzero _ rfl, h.original, backoff_zero]
  · rw [hzero _ rfl]
    rfl
  · simp [Loop.noteSuccess, hok]
  · show (if l.loggedSuccess then l.log else successLine :: l.log).countP LogLine.isWarn = _
    rw [hsame, ← h.warnings]
    split_ifs
    · rfl
    · exact List.countP_cons_of_neg (by decide)
  · show (if l.loggedSuccess then l.log else successLine :: l.log).length = _ + 1
    have hlines := h.lines
    rw [hsame]
    split_ifs with hlogged
    · rw [hlines, if_pos hlogged]
    · rw [List.length_cons, hlines, if_neg hlogged]
  · refine h.waits_cons ?_ hsplit
    rw [hzero _ rfl, backoff_zero]
    exact h.original
  · exact paced_cons.mpr ⟨h.rested.mono (le_add_of_nonneg_right t.late_nonneg), h.paced⟩

theorem Backing.turn_failure (hp : 15 ≤ p) (h : Backing p l) {t : Turn} (ht : t.reply.status ≠ 201) :
    Backing p (l.turn t) := by
  have hfail : t.reply.failed = true := by simp [Reply.failed, ht]
  set waitS := backoff p (streak l.uploads + 1) with hwaitS
  have hperiod : (if 10 ≤ l.failureCount + 1 then min (l.periodS * 2) 600 else l.periodS) = waitS := by
    rw [hwaitS, backoff_succ (by omega), h.failures, h.period]
  have hnext : l.turn t =
      { l.noteFailure t.reply with
        now := l.now + t.late + t.took + waitS
        uploads := { start := l.now + t.late, reply := t.reply, waitS := waitS } :: l.uploads } := by
    unfold Loop.turn
    dsimp only
    rw [if_neg ht, ← hperiod]
    rfl
  rw [hnext]
  have hgrow : ∀ u : Upload, u.reply = t.reply → streak (u :: l.uploads) = streak l.uploads + 1 :=
    fun u hu => streak_failure (hu ▸ hfail)
  have hstreaks : streaks ({ start := l.now + t.late, reply := t.reply, waitS := waitS } :: l.uploads) =
      streaks l.uploads + if l.loggedFailure then 0 else 1 := by
    -- A row of failures begins where none has been logged yet.
    rw [streaks, hfail, h.loggedFailure]
    by_cases hrow : streak l.uploads = 0
    · simp [hrow]
    · simp [hrow, Nat.pos_of_ne_zero hrow]
  refine ⟨h.original, ?_, ?_, ?_, ?_, ?_, ?_, fun newer u older hsplit => ?_, rested_turn t.took_nonneg, ?_⟩
  · show l.failureCount + 1 = _
    rw [hgrow _ rfl, h.failures]
  · show (if 10 ≤ l.failureCount + 1 then min (l.periodS * 2) 600 else l.periodS) = _
    rw [hgrow _ rfl, hperiod]
  · rw [hgrow _ rfl]
    simp [Loop.noteFailure]
  · show l.loggedSuccess = _
    rw [h.loggedSuccess]
    simp [hfail]
  · show (if l.loggedFailure then l.log else failureLine t.reply :: l.log).countP LogLine.isWarn = _
    rw [hstreaks, ← h.warnings]
    split_ifs
    · rfl
    · exact List.countP_cons_of_pos rfl
  · show (if l.loggedFailure then l.log else failureLine t.reply :: l.log).length =
      _ + if l.loggedSuccess then 1 else 0
    have hlines := h.lines
    rw [hstreaks]
    cases l.loggedFailure with
    | true => exact hlines
    | false =>
      show l.log.length + 1 = streaks l.uploads + 1 + _
      rw [hlines, Nat.add_right_comm]
  · refine h.waits_cons ?_ hsplit
    rw [hgrow _ rfl]
  · exact paced_cons.mpr ⟨h.rested.mono (le_add_of_nonneg_right t.late_nonneg), h.paced⟩

theorem backing_run (uploadPeriodS : ℤ) (now : ℚ) (turns : List Turn) :
    Backing (max 15 uploadPeriodS) ((Loop.create uploadPeriodS now).run turns) := by
  refine Run.invariant (fun l t h => ?_) (backing_create uploadPeriodS now)
  by_cases ht : t.reply.status = 201
  · exact h.turn_success ht
  · exact h.turn_failure (le_max_left _ _) ht

theorem Loop.replies_run (l : Loop) (turns : List Turn) :
    (l.run turns).uploads.map Upload.reply =
      (turns.map Turn.reply).reverse ++ l.uploads.map Upload.reply := by
  induction turns generalizing l with
  | nil => rfl
  | cons t turns ih =>
    have huploads : (l.turn t).uploads.map Upload.reply = t.reply :: l.uploads.map Upload.reply := by
      unfold Loop.turn
      dsimp only
      split_ifs <;> rfl
    show ((l.turn t).run turns).uploads.map Upload.reply = _
    rw [ih, huploads, List.map_cons, List.reverse_cons, List.append_assoc]
    rfl

/-- **The wait is a function of the row of failures.**  Every wait of every run is the configured period
until the tenth failure in a row, which doubles it, as does each one after it, up to ten minutes: a
longer period drops to that.  The uploads come after one another's waits, so that no window holds more
than one for every 15 seconds and one more. -/
theorem waits_run (uploadPeriodS : ℤ) (now : ℚ) (turns : List Turn) :
    let uploads := ((Loop.create uploadPeriodS now).run turns).uploads
    (∀ newer u older, uploads = newer ++ u :: older →
        u.waitS = backoff (max 15 uploadPeriodS) (streak (u :: older)) ∧
          15 ≤ u.waitS ∧ u.waitS ≤ max uploadPeriodS 600) ∧
      Paced Upload.start (fun u => (u.waitS : ℚ)) uploads ∧
      ∀ a b, a ≤ b → (uploads.filter fun u => a ≤ u.start ∧ u.start ≤ b).length * 15 ≤ b - a + 15 := by
  intro uploads
  have h := backing_run uploadPeriodS now turns
  have hbounds : ∀ n, 15 ≤ backoff (max 15 uploadPeriodS) n ∧
      backoff (max 15 uploadPeriodS) n ≤ max uploadPeriodS 600 := by
    intro n
    have hle := backoff_le (p := max 15 uploadPeriodS) n
    exact ⟨le_backoff (le_max_left _ _) n, by omega⟩
  refine ⟨fun newer u older hsplit => ?_, h.paced, fun a b hab => ?_⟩
  · rw [h.waits newer u older hsplit]
    exact ⟨rfl, hbounds _⟩
  · have hwait : ∀ u ∈ uploads, (15 : ℚ) ≤ u.waitS := by
      intro u hu
      obtain ⟨newer, older, hsplit⟩ := List.append_of_mem hu
      rw [h.waits newer u older hsplit]
      exact_mod_cast (hbounds _).1
    have hwindow := h.paced.window (by norm_num) hwait hab
    rwa [nsmul_eq_mul] at hwindow

/-- A turn in which the site answers with the given status. -/
def answeredTurn (status : ℤ) : Turn where
  reply := ⟨status, []⟩
  late := 1 / 2
  took := 3
  late_nonneg := by norm_num
  took_nonneg := by norm_num

/-- The tenth failure doubles the wait and the eleventh once more; the next success takes it back. -/
example :
    let turns := List.replicate 11 (answeredTurn 500) ++ [answeredTurn 201]
    ((Loop.create 60 0).run turns).uploads.map Upload.waitS = [60, 240, 120] ++ List.replicate 9 60 := by
  decide +kernel

end XenMiner.WoodyminerStatsUploader
