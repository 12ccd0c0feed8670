import XenMiner.Lib.Paced
import XenMiner.Lib.Run
import XenMiner.Networking.Equiv.Difficulty
import XenMiner.Networking.Poller

/-!
# Fetching the difficulty: what is found, and how often it is asked for

A fetch finds what the first readable candidate answers, and the network counts as up exactly if some
candidate answers at all (`fetchDifficulty_spec`).  The poller's fetches are paced by its intervals
(`polls_run`).
-/

namespace XenMiner

open PyText

namespace Difficulty

variable {isAlnum : Char → Bool} {limit : List Char → Option ScanLimit} {texts : PyTexts} {web : Web}

/-! ### The candidates -/

theorem uniq_eq_self {seen items : List Text} (hnodup : items.Nodup)
    (hfresh : ∀ item ∈ items, item ∉ seen) : uniq seen items = items := by
  induction items generalizing seen with
  | nil => rfl
  | cons item items ih =>
    obtain ⟨hitem, hitems⟩ := List.nodup_cons.mp hnodup
    rw [uniq, if_neg (hfresh item List.mem_cons_self), ih hitems]
    intro other hother hseen
    rcases List.mem_cons.mp hseen with rfl | hseen
    · exact hitem hother
    · exact hfresh other (List.mem_cons_of_mem _ hother) hseen

/-- The schemes tell URLs apart. -/
theorem http_append_ne_https_append (s t : Text) : http ++ s ≠ https ++ t := by
  intro h
  have hfifth : (http ++ s)[4]? = (https ++ t)[4]? := congrArg (·[4]?) h
  exact absurd (Option.some.inj hfifth) (by decide)

theorem nodup_urlVariants (primary : Text) : (urlVariants primary).Nodup := by
  have hpair : ∀ s t : Text, [http ++ s, https ++ t].Nodup := fun s t => by
    simp [http_append_ne_https_append s t]
  unfold urlVariants
  dsimp only
  split_ifs with hhttp hend hhttps hne
  · -- The alternates end in another path.
    obtain ⟨host, rfl⟩ := hhttp
    rw [List.drop_left] at hend ⊢
    obtain ⟨base, rfl⟩ := endsWith_iff.mp hend
    have hbase : dropEnd difficultyPath (base ++ difficultyPath) = base := by
      rw [dropEnd, List.length_append, Nat.add_sub_cancel, List.take_left]
    have hpath : difficultyPath ≠ getdifficultyPath := by decide
    have hne := fun s t => http_append_ne_https_append s t
    have hne' := fun s t => (http_append_ne_https_append s t).symm
    rw [hbase]
    simp only [List.append_assoc]
    refine List.nodup_cons.mpr ⟨?_, List.nodup_cons.mpr ⟨?_, hpair _ _⟩⟩
    · simp [hne, hpath]
    · simp [hne', hpath]
  · obtain ⟨host, rfl⟩ := hhttp
    rw [List.drop_left]
    exact hpair _ _
  · obtain ⟨host, rfl⟩ := hhttps
    simp [(http_append_ne_https_append _ _).symm]
  · exact List.pairwise_singleton _ _
  · exact List.nodup_nil

/-- Nothing is ever left out as a duplicate. -/
theorem candidateUrls_eq (url : Text) : candidateUrls url = urlVariants (strip url) :=
  uniq_eq_self (nodup_urlVariants _) fun _ _ => List.not_mem_nil

/-! ### A fetch -/

/-- The difficulty of an answer, if one can be read. -/
def readDifficulty (isAlnum : Char → Bool) (limit : List Char → Option ScanLimit) :
    Answer → Option ℤ
  | .body text => (parseDifficultyPayload isAlnum limit text).toOption.join
  | _ => none

/-- The server answered, whatever it said. -/
def Answer.isHttp : Answer → Bool
  | .failed _ => false
  | _ => true

theorem pos_of_readDifficulty {answer : Answer} {d : ℤ}
    (h : readDifficulty isAlnum limit answer = some d) : 0 < d := by
  cases answer with
  | body text =>
    cases hparse : parseDifficultyPayload isAlnum limit text with
    | error e =>
      rw [readDifficulty, hparse] at h
      cases h
    | ok value =>
      rw [readDifficulty, hparse] at h
      have hvalue : value = some d := h
      exact pos_of_parse (hvalue ▸ hparse)
  | httpError code => cases h
  | failed text => cases h

/-- The text of an error names the last candidate and has a space. -/
def Names (candidate : Option Text) (error : Text) : Prop :=
  (∀ c ∈ candidate, c <:+: error) ∧ ' ' ∈ error

/-- What the loop over the candidates makes of them. -/
structure Fetched (isAlnum : Char → Bool) (limit : List Char → Option ScanLimit) (web : Web)
    (sawHttp : Bool) (candidates : List Text) (status : NetworkStatus) : Prop where
  difficulty : status.difficulty =
    candidates.findSome? fun c => readDifficulty isAlnum limit (web.answer c)
  port80Up : status.port80Up = (sawHttp || candidates.any fun c => (web.answer c).isHttp)
  latencyMs : status.latencyMs.isSome = status.difficulty.isSome
  error : status.difficulty = none → ∃ e ∈ status.error, Names candidates.getLast? e
  no_error : status.difficulty ≠ none → status.error = none

/-- One candidate that brings no difficulty. -/
theorem Fetched.cons {sawHttp : Bool} {candidate : Text} {rest : List Text} {status : NetworkStatus}
    {lastError : Text} (hread : readDifficulty isAlnum limit (web.answer candidate) = none)
    (hlast : Names (some candidate) lastError)
    (hnil : rest = [] → status.error = some lastError)
    (h : Fetched isAlnum limit web (sawHttp || (web.answer candidate).isHttp) rest status) :
    Fetched isAlnum limit web sawHttp (candidate :: rest) status where
  difficulty := by rw [h.difficulty, List.findSome?_cons, hread]
  port80Up := by rw [h.port80Up, List.any_cons, Bool.or_assoc]
  latencyMs := h.latencyMs
  error := by
    intro hnone
    obtain ⟨e, he, hnames⟩ := h.error hnone
    cases rest with
    | nil => exact ⟨lastError, hnil rfl, hlast⟩
    | cons next rest => exact ⟨e, he, by rwa [List.getLast?_cons_cons]⟩
  no_error := h.no_error

theorem fetched_fetchFrom {lastError : Text} (hspace : ' ' ∈ lastError) (sawHttp : Bool)
    (candidates : List Text) : Fetched isAlnum limit web sawHttp candidates
      (fetchFrom isAlnum limit texts web lastError sawHttp candidates) := by
  induction candidates generalizing lastError sawHttp with
  | nil =>
    exact ⟨rfl, (Bool.or_false _).symm, rfl, fun _ => ⟨lastError, rfl, nofun, hspace⟩,
      fun h => absurd rfl h⟩
  | cons candidate rest ih =>
    rw [fetchFrom]
    have hstep : ∀ (text : Text) (httpAnswer : Bool),
        readDifficulty isAlnum limit (web.answer candidate) = none →
        (web.answer candidate).isHttp = httpAnswer → Names (some candidate) text →
        Fetched isAlnum limit web sawHttp (candidate :: rest)
          (fetchFrom isAlnum limit texts web text (sawHttp || httpAnswer) rest) := by
      intro text httpAnswer hread hhttp hnames
      refine Fetched.cons hread hnames (fun hrest => hrest ▸ rfl) ?_
      rw [hhttp]
      exact ih hnames.2 _
    have hcolon : ∀ text : Text, Names (some candidate) (candidate ++ ": ".toList ++ text) := by
      intro text
      refine ⟨fun c hc => ?_, by simp⟩
      obtain rfl := Option.some.inj hc
      exact ⟨[], ": ".toList ++ text, by simp⟩
    cases hanswer : web.answer candidate with
    | httpError code =>
      dsimp only
      rw [← Bool.or_true sawHttp]
      refine hstep _ true (by rw [hanswer]; rfl) (by rw [hanswer]; rfl) ⟨fun c hc => ?_, by simp⟩
      obtain rfl := Option.some.inj hc
      exact ⟨"HTTP ".toList ++ (toString code).toList ++ [' '], [], by simp⟩
    | failed text =>
      dsimp only
      have hfailed := hstep (candidate ++ ": ".toList ++ text) false
        (by rw [hanswer]; rfl) (by rw [hanswer]; rfl) (hcolon text)
      rwa [Bool.or_false] at hfailed
    | body text =>
      dsimp only
      cases hparse : parseDifficultyPayload isAlnum limit text with
      | error e =>
        dsimp only
        rw [← Bool.or_true sawHttp]
        exact hstep _ true (by rw [hanswer, readDifficulty, hparse]; rfl) (by rw [hanswer]; rfl)
          (hcolon _)
      | ok value =>
        cases value with
        | none =>
          dsimp only
          rw [← Bool.or_true sawHttp]
          refine hstep _ true (by rw [hanswer, readDifficulty, hparse]; rfl) (by rw [hanswer]; rfl)
            ⟨fun c hc => ?_, by simp⟩
          obtain rfl := Option.some.inj hc
          exact ⟨"unparsed body from ".toList, ": ".toList ++ texts.repr (PyStr.take 80 text), by simp⟩
        | some diff =>
          have hread : readDifficulty isAlnum limit (web.answer candidate) = some diff := by
            rw [hanswer, readDifficulty, hparse]
            rfl
          refine ⟨?_, ?_, rfl, nofun, fun _ => rfl⟩
          · rw [List.findSome?_cons, hread]
          · rw [List.any_cons, hanswer]
            exact (Bool.or_true _).symm

/-- **What a fetch finds.**  The difficulty is that of the first candidate with a readable one, no
candidate is asked twice, and the network is up exactly if some candidate answered.  An error is left
exactly if no difficulty was found; it names the last candidate. -/
theorem fetchDifficulty_spec (isAlnum : Char → Bool) (limit : List Char → Option ScanLimit)
    (texts : PyTexts) (web : Web) (url : Text) :
    let candidates := candidateUrls url
    let status := fetchDifficulty isAlnum limit texts web url
    (∀ d, status.difficulty = some d ↔ ∃ before c after, candidates = before ++ c :: after ∧
        readDifficulty isAlnum limit (web.answer c) = some d ∧
        ∀ b ∈ before, readDifficulty isAlnum limit (web.answer b) = none) ∧
      candidates.Nodup ∧
      (status.port80Up = true ↔ ∃ c ∈ candidates, (web.answer c).isHttp = true) ∧
      (status.error = none ↔ status.difficulty ≠ none) ∧
      (∀ e ∈ status.error, e ≠ "starting".toList ∧ ∀ c ∈ candidates.getLast?, c <:+: e) := by
  intro candidates status
  have h : Fetched isAlnum limit web false candidates status := fetched_fetchFrom (by decide) _ _
  have herror : ∀ e ∈ status.error, Names candidates.getLast? e := by
    intro e he
    have hnone : status.difficulty = none := by
      by_contra hsome
      rw [h.no_error hsome] at he
      cases he
    obtain ⟨e', he', hnames⟩ := h.error hnone
    rwa [Option.some.inj (he.symm.trans he')]
  refine ⟨fun d => ?_, ?_, ?_, ⟨fun hnone hno => ?_, h.no_error⟩, fun e he => ⟨?_, (herror e he).1⟩⟩
  · rw [h.difficulty, List.findSome?_eq_some_iff]
  · show (candidateUrls url).Nodup
    rw [candidateUrls_eq]
    exact nodup_urlVariants _
  · rw [h.port80Up, Bool.false_or, List.any_eq_true]
  · obtain ⟨e, he, -⟩ := h.error hno
    rw [hnone] at he
    cases he
  · rintro rfl
    exact absurd (herror _ he).2 (by decide)

end Difficulty

open Difficulty

/-! ### The fetches of the poller -/

namespace NetworkPoller

variable {isAlnum : Char → Bool} {limit : List Char → Option ScanLimit} {texts : Difficulty.PyTexts}
  {p : NetworkPoller} {l : Loop}

/-- What the turns of the loop of poller `p` keep. -/
structure Polls (p : NetworkPoller) (l : Loop) : Prop where
  poller : l.poller = { p with status := l.poller.status, lastPollAt := l.poller.lastPollAt }
  first : l.first = l.polls.isEmpty
  status : l.poller.status = (l.polls.head?.map Poll.status).getD p.status
  rested : Rested Poll.start (fun e => p.interval e.status) l.polls l.now
  paced : Paced Poll.start (fun e => p.interval e.status) l.polls
  oldest : ∀ e ∈ l.polls.getLast?, e.timeoutS = PyNum.pyInt p.initialTimeoutS
  others : ∀ e ∈ l.polls.dropLast, e.timeoutS = PyNum.pyInt p.timeoutS

theorem Polls.interval (h : Polls p l) (status : NetworkStatus) :
    l.poller.interval status = p.interval status := by
  rw [h.poller]
  rfl

theorem polls_new (p : NetworkPoller) (now : ℚ) : Polls p { poller := p, now := now } where
  poller := rfl
  first := rfl
  status := rfl
  rested := rested_nil
  paced := paced_nil
  oldest := nofun
  others := nofun

theorem Polls.turn (h : Polls p l) (t : Turn) : Polls p (l.turn isAlnum limit texts t) where
  poller := congrArg (fun q : NetworkPoller =>
    { q with
      status := fetchDifficulty isAlnum limit texts t.web l.poller.url
      lastPollAt := l.now + t.late + t.took }) h.poller
  first := rfl
  status := rfl
  rested := by
    let status := fetchDifficulty isAlnum limit texts t.web l.poller.url
    refine rested_cons.mpr ?_
    show l.now + t.late + p.interval status ≤ l.now + t.late + t.took + l.poller.interval status
    rw [h.interval]
    exact add_le_add_left (le_add_of_nonneg_right t.took_nonneg) _
  paced := paced_cons.mpr ⟨h.rested.mono (le_add_of_nonneg_right t.late_nonneg), h.paced⟩
  oldest := by
    intro e he
    have hinit := congrArg NetworkPoller.initialTimeoutS h.poller
    cases hpolls : l.polls with
    | nil =>
      -- this fetch is the first one
      have hfirst : l.first = true := by rw [h.first, hpolls]; rfl
      unfold Loop.turn at he
      dsimp only at he
      rw [hpolls, List.getLast?_singleton, hfirst] at he
      obtain rfl := Option.some.inj he
      exact congrArg PyNum.pyInt hinit
    | cons last polls =>
      refine h.oldest e ?_
      unfold Loop.turn at he
      dsimp only at he
      rw [hpolls, List.getLast?_cons_cons] at he
      rwa [hpolls]
  others := by
    intro e he
    have hlater := congrArg NetworkPoller.timeoutS h.poller
    unfold Loop.turn at he
    dsimp only at he
    cases hpolls : l.polls with
    | nil =>
      rw [hpolls] at he
      cases he
    | cons last polls =>
      have hfirst : l.first = false := by rw [h.first, hpolls]; rfl
      rw [hpolls, List.dropLast_cons_cons, hfirst] at he
      rcases List.mem_cons.mp he with rfl | he
      · exact congrArg PyNum.pyInt hlater
      · refine h.others e ?_
        rwa [hpolls]

theorem polls_final (isAlnum : Char → Bool) (limit : List Char → Option ScanLimit)
    (texts : Difficulty.PyTexts) (p : NetworkPoller) (now : ℚ) (turns : List Turn) :
    Polls p (Loop.run isAlnum limit texts { poller := p, now := now } turns) :=
  Run.invariant (fun _ t h => h.turn t) (polls_new p now)

/-- The statuses of the fetches are those of the turns. -/
theorem statuses_run (l : Loop) (turns : List Turn) :
    (l.run isAlnum limit texts turns).polls.map Poll.status =
      (turns.map fun t => fetchDifficulty isAlnum limit texts t.web l.poller.url).reverse
        ++ l.polls.map Poll.status := by
  induction turns generalizing l with
  | nil => rfl
  | cons t turns ih =>
    show ((l.turn isAlnum limit texts t).run isAlnum limit texts turns).polls.map Poll.status = _
    rw [ih, List.map_cons, List.reverse_cons, List.append_assoc]
    rfl

/-- What everyone reads is the status of the last turn. -/
theorem status_run (isAlnum : Char → Bool) (limit : List Char → Option ScanLimit)
    (texts : Difficulty.PyTexts) (p : NetworkPoller) (now : ℚ) (turns : List Turn) :
    (Loop.run isAlnum limit texts { poller := p, now := now } turns).poller.status =
      (turns.getLast?.map fun t => fetchDifficulty isAlnum limit texts t.web p.url).getD p.status := by
  rw [(polls_final isAlnum limit texts p now turns).status, ← List.head?_map, statuses_run,
    List.map_nil, List.append_nil, List.head?_reverse, List.getLast?_map]

/-- **The fetches of a poller that was started once.**  Everyone reads the status of the last one; each
comes after the interval for the one before, and no window holds more fetches than one for every five
seconds and one more.  The first has the initial timeout, which is at least a second like the other. -/
theorem polls_run (isAlnum : Char → Bool) (limit : List Char → Option ScanLimit)
    (texts : Difficulty.PyTexts) (url : Text) (pollIntervalS downPollIntervalS timeoutS : ℚ)
    (initialTimeoutS : Option ℚ) (now : ℚ) (turns : List Turn) :
    let p := (create url pollIntervalS downPollIntervalS timeoutS).start initialTimeoutS
    let l := Loop.run isAlnum limit texts { poller := p, now := now } turns
    (l.polls.map Poll.status =
        (turns.map fun t => fetchDifficulty isAlnum limit texts t.web url).reverse ∧
      l.poller.status = (l.polls.head?.map Poll.status).getD starting) ∧
    (Paced Poll.start (fun e => p.interval e.status) l.polls ∧
      ∀ a b, a ≤ b → (l.polls.filter fun e => a ≤ e.start ∧ e.start ≤ b).length * 5 ≤ b - a + 5) ∧
    (∀ e ∈ l.polls.getLast?, e.timeoutS = PyNum.pyInt (max 1 (initialTimeoutS.getD timeoutS))) ∧
    ∀ e ∈ l.polls.dropLast, e.timeoutS = PyNum.pyInt (max 1 timeoutS) := by
  intro p l
  have h : Polls p l := polls_final isAlnum limit texts p now turns
  have hcreated : p.url = url ∧ p.status = starting ∧ 5 ≤ p.pollIntervalS ∧
      5 ≤ p.downPollIntervalS ∧ p.timeoutS = max 1 timeoutS ∧
      p.initialTimeoutS = max 1 (initialTimeoutS.getD timeoutS) := by
    cases initialTimeoutS with
    | none =>
      exact ⟨rfl, rfl, le_max_left _ _, (le_max_left _ _).trans (le_max_left _ _), rfl, rfl⟩
    | some initial =>
      exact ⟨rfl, rfl, le_max_left _ _, (le_max_left _ _).trans (le_max_left _ _), rfl, rfl⟩
  obtain ⟨hurl, hstatus, hup, hdown, htimeout, hinitial⟩ := hcreated
  have hwait : ∀ e ∈ l.polls, 5 ≤ p.interval e.status := by
    intro e _
    unfold interval
    split_ifs
    · exact hup
    · exact hdown
  refine ⟨⟨?_, hstatus ▸ h.status⟩, ⟨h.paced, fun a b hab => ?_⟩, ?_, ?_⟩
  · rw [← hurl, ← List.append_nil (List.reverse _)]
    exact statuses_run { poller := p, now := now } turns
  · have hwindow := h.paced.window (by norm_num) hwait hab
    rwa [nsmul_eq_mul] at hwindow
  · rw [← hinitial]
    exact h.oldest
  · rw [← htimeout]
    exact h.others

/-- A turn in which every request leads to the same answer. -/
def answeredTurn (answer : Answer) : Turn where
  web := { answer := fun _ => answer, elapsedMs := fun _ => 40 }
  late := 1 / 4
  took := 2
  late_nonneg := by norm_num
  took_nonneg := by norm_num

/-- A poller with intervals of 30 and 60 seconds; its second fetch finds nothing. -/
example :
    let p := (create "x".toList 30 60 10).start (some 3)
    let l := Loop.run Char.isAlphanum (fun _ => none) ⟨fun _ => [], fun _ => []⟩
      { poller := p, now := 0 }
      [answeredTurn (.body "200"), answeredTurn (.httpError 503), answeredTurn (.body "300")]
    l.polls.map (fun e => (e.start, e.timeoutS, e.status.difficulty)) =
      [(379 / 4, 10, some 300), (65 / 2, 10, none), (1 / 4, 3, some 200)] := by
  decide +kernel

end NetworkPoller

end XenMiner
