import XenMiner.Monitoring.XenblockscanReporter
import XenMiner.BlockQueue.Equiv.Store

/-!
# What reaches the open index

However the endpoint is written, its URLs lie below one base (`urls_eq`, `urls_configure`).  The threads
and the worker take turns in any order: no job is lost before 256 have been reported, and the worker
sends what came into the queue in its order (`reporter_run`); if the reports come one after the other,
the index sees them in their order and `dropped` stays at zero (`reporter_alone`).  What is sent is what
was reported, and it reads back as its payload (`sent_reported`).  The backfill of accepted blocks reads
a kind by its name only (`reportedPayload_eq_eventPayload_iff`).
-/

namespace XenMiner

open PyText

namespace XenblockscanReporter

/-! ### The endpoints -/

/-- The root of the API, as `_trackers_url` finds it. -/
def base (ep : Text) : Text :=
  if endsWith events ep then dropEnd events ep
  else if endsWith holdings ep then dropEnd holdings ep
  else if endsWith apiV1 (rstripChar '/' ep) then rstripChar '/' ep
  else rstripChar '/' ep ++ apiV1

def eventsBatch : Text := "/events:batch".toList

def heartbeat : Text := "/trackers/heartbeat".toList

/-- The URLs of an endpoint. -/
def urls (ep : Text) : List Text := [eventsUrl ep, eventsBatchUrl ep, holdingsUrl ep, trackersUrl ep]

/-- The URLs below a root. -/
def urlsBelow (root : Text) : List Text :=
  [root ++ events, root ++ eventsBatch, root ++ holdings, rstripChar '/' root ++ heartbeat]

variable {ep root : Text}

theorem base_events (root : Text) : base (root ++ events) = root := by
  rw [base, if_pos (endsWith_append root events), dropEnd_append]

theorem not_endsWith_events (root : Text) : ¬ endsWith events (root ++ holdings) = true :=
  not_endsWith (by decide) (by decide)

theorem base_holdings (root : Text) : base (root ++ holdings) = root := by
  rw [base, if_neg (not_endsWith_events root), if_pos (endsWith_append root holdings), dropEnd_append]

theorem eventsUrl_eq (ep : Text) : eventsUrl ep = base ep ++ events := by
  unfold eventsUrl base
  by_cases hholdings : endsWith holdings ep = true
  · have hevents : ¬ endsWith events ep = true := by
      rw [← dropEnd_append_self hholdings]
      exact not_endsWith_events _
    rw [if_pos hholdings, if_neg hevents, if_pos hholdings]
  · rw [if_neg hholdings, if_neg hholdings]
    split_ifs with hevents
    · exact (dropEnd_append_self hevents).symm
    · rfl
    · rw [List.append_assoc]

theorem holdingsUrl_eq (ep : Text) : holdingsUrl ep = base ep ++ holdings := by
  unfold holdingsUrl base
  split_ifs with hevents hholdings
  · rfl
  · exact (dropEnd_append_self hholdings).symm
  · rfl
  · rw [List.append_assoc]

theorem eventsBatchUrl_eq (ep : Text) : eventsBatchUrl ep = base ep ++ eventsBatch := by
  unfold eventsBatchUrl
  dsimp only
  rw [eventsUrl_eq, if_pos (endsWith_append _ _), List.append_assoc]
  rfl

/-- **The URLs of an endpoint lie below one base,** and setting the endpoint to one of them that names a
collection leaves them all as they are. -/
theorem urls_eq (ep : Text) : urls ep = urlsBelow (base ep) ∧
    urls (eventsUrl ep) = urls ep ∧ urls (holdingsUrl ep) = urls ep := by
  have hbelow : ∀ ep, urls ep = urlsBelow (base ep) := by
    intro ep
    unfold urls urlsBelow
    rw [eventsUrl_eq, eventsBatchUrl_eq, holdingsUrl_eq]
    rfl
  refine ⟨hbelow ep, ?_, ?_⟩
  · rw [hbelow, hbelow, eventsUrl_eq, base_events]
  · rw [hbelow, hbelow, holdingsUrl_eq, base_holdings]

/-- The address of a host, without an API path behind it. -/
structure IsHost (host : Text) : Prop where
  endsApart : EndsApart '/' host
  not_nil : host ≠ []
  not_events : ¬ endsWith events host = true
  not_holdings : ¬ endsWith holdings host = true
  not_apiV1 : ¬ endsWith apiV1 host = true

/-- The ways of writing its endpoint. -/
def endpointForms (host : Text) : List Text :=
  [host, host ++ apiV1, (host ++ apiV1) ++ events, (host ++ apiV1) ++ holdings]

theorem endsApart_form {host form : Text} (h : IsHost host) (hform : form ∈ endpointForms host) :
    EndsApart '/' form := by
  have hends : ∀ t ∈ [apiV1, events, holdings], t ≠ [] ∧ EndsApart '/' t := by
    simp only [endsApart_iff]
    decide
  obtain ⟨hapi, hevents, hholdings⟩ : (apiV1 ≠ [] ∧ EndsApart '/' apiV1) ∧
      (events ≠ [] ∧ EndsApart '/' events) ∧ (holdings ≠ [] ∧ EndsApart '/' holdings) :=
    ⟨hends _ (by simp), hends _ (by simp), hends _ (by simp)⟩
  unfold endpointForms at hform
  simp only [List.mem_cons, List.not_mem_nil, or_false] at hform
  rcases hform with rfl | rfl | rfl | rfl
  · exact h.endsApart
  · exact endsApart_append hapi.1 hapi.2
  · exact endsApart_append hevents.1 hevents.2
  · exact endsApart_append hholdings.1 hholdings.2

theorem base_form {host form : Text} (h : IsHost host) (hform : form ∈ endpointForms host) :
    base form = host ++ apiV1 := by
  have hstrip := rstripChar_of_endsApart (endsApart_form h hform)
  unfold endpointForms at hform
  simp only [List.mem_cons, List.not_mem_nil, or_false] at hform
  rcases hform with rfl | rfl | rfl | rfl
  · rw [base, if_neg h.not_events, if_neg h.not_holdings, hstrip, if_neg h.not_apiV1]
  · have hevents : ¬ endsWith events (host ++ apiV1) = true := not_endsWith (by decide) (by decide)
    have hholdings : ¬ endsWith holdings (host ++ apiV1) = true :=
      not_endsWith_of_shorter (by decide) (by decide)
    rw [base, if_neg hevents, if_neg hholdings, hstrip, if_pos (endsWith_append _ _)]
  · exact base_events _
  · exact base_holdings _

/-- **The same host, the same URLs:** its bare address, its API root and both collections, with any
number of slashes behind them, configure the same four URLs. -/
theorem urls_configure (c : Config) (enabled : Bool) (apiKey : String) (reportRejects : Bool)
    (timeoutS : ℚ) {host form : Text} (h : IsHost host) (hform : form ∈ endpointForms host) (n : ℕ) :
    urls (c.configure enabled (form ++ List.replicate n '/') apiKey reportRejects timeoutS).endpoint =
      [host ++ "/api/v1/events".toList, host ++ "/api/v1/events:batch".toList,
        host ++ "/api/v1/holdings".toList, host ++ "/api/v1/trackers/heartbeat".toList] := by
  have hne : form ++ List.replicate n '/' ≠ [] := by
    unfold endpointForms at hform
    simp only [List.mem_cons, List.not_mem_nil, or_false] at hform
    rcases hform with rfl | rfl | rfl | rfl <;> simp [h.not_nil]
  have hendpoint : (c.configure enabled (form ++ List.replicate n '/') apiKey reportRejects
      timeoutS).endpoint = form := by
    unfold Config.configure
    dsimp only
    rw [if_neg hne]
    exact rstripChar_append_replicate (endsApart_form h hform) n
  have hroot : EndsApart '/' (host ++ apiV1) := endsApart_form h (by simp [endpointForms])
  rw [hendpoint, (urls_eq form).1, base_form h hform]
  unfold urlsBelow
  rw [rstripChar_of_endsApart hroot, List.append_assoc, List.append_assoc, List.append_assoc,
    List.append_assoc]
  rfl

/-- A local index, given with a slash behind its API root. -/
theorem urls_configure_local :
    urls (({} : Config).configure true ("http://127.0.0.1:8787/api/v1".toList ++ List.replicate 1 '/')
        "" false (3 / 2)).endpoint =
      ["http://127.0.0.1:8787".toList ++ "/api/v1/events".toList,
        "http://127.0.0.1:8787".toList ++ "/api/v1/events:batch".toList,
        "http://127.0.0.1:8787".toList ++ "/api/v1/holdings".toList,
        "http://127.0.0.1:8787".toList ++ "/api/v1/trackers/heartbeat".toList] :=
  urls_configure _ _ _ _ _
    ⟨endsApart_iff.mpr (by decide), by decide, by decide, by decide, by decide⟩ (by decide) 1

/-! ### The kinds -/

/-- The backfill knows the kinds by their names only, the live reports also by a part of the label. -/
theorem reportedKind_eq_iff {kind : String} (h : PyStr.upper kind ≠ "") :
    reportedKind kind = backfilledKind kind ↔ PyStr.upper kind ∈ kinds ∨
      (¬ PyStr.contains "XUNI" (PyStr.upper kind) = true ∧
        ¬ (PyStr.contains "XBLK" (PyStr.upper kind) = true ∨
          PyStr.contains "SUPER" (PyStr.upper kind) = true)) := by
  have hne : kind ≠ "" := by
    rintro rfl
    exact h rfl
  have hreported : PyStr.orElse (PyStr.upper kind) "XNM" = PyStr.upper kind := if_neg h
  have hbackfilled : PyStr.orElse kind "XNM" = kind := if_neg hne
  unfold reportedKind backfilledKind
  dsimp only
  rw [hreported, hbackfilled]
  by_cases hmem : PyStr.upper kind ∈ kinds
  · simp [hmem]
  · rw [if_neg hmem, if_neg hmem]
    split_ifs with hxuni hxblk
    · exact iff_of_false (by decide) fun h => h.elim hmem fun h => h.1 hxuni
    · exact iff_of_false (by decide) fun h => h.elim hmem fun h => h.2 hxblk
    · exact iff_of_true rfl (Or.inr ⟨hxuni, hxblk⟩)

theorem eventMembers_inj {T : ReporterTexts} {now : ℤ} {e : BlockEvent} {kind kind' status : String} :
    eventMembers T now e kind status = eventMembers T now e kind' status ↔ kind = kind' := by
  simp [eventMembers]

/-- **An accepted block reads the same live and in the backfill** exactly if the live report has no
difficulty to add and the backfill knows the kind, or the live report does not either. -/
theorem reportedPayload_eq_eventPayload_iff {T : ReporterTexts} {now : ℤ} {e : BlockEvent}
    (h : PyStr.upper e.kind ≠ "") :
    reportedPayload T now e "accepted" = eventPayload T now e ↔
      e.difficulty = none ∧ (PyStr.upper e.kind ∈ kinds ∨
        (¬ PyStr.contains "XUNI" (PyStr.upper e.kind) = true ∧
          ¬ (PyStr.contains "XBLK" (PyStr.upper e.kind) = true ∨
            PyStr.contains "SUPER" (PyStr.upper e.kind) = true))) := by
  have hlength : (eventMembers T now e (reportedKind e.kind) "accepted").length =
      (eventMembers T now e (backfilledKind e.kind) "accepted").length := by
    simp [eventMembers]
  unfold reportedPayload eventPayload
  rw [Json.obj.injEq, ← reportedKind_eq_iff h]
  constructor
  · intro heq
    obtain ⟨hmembers, hmeta⟩ := List.append_inj (heq.trans (List.append_nil _).symm) hlength
    refine ⟨?_, eventMembers_inj.mp hmembers⟩
    cases hd : e.difficulty with
    | none => rfl
    | some d =>
      rw [hd] at hmeta
      cases hmeta
  · rintro ⟨hd, hkind⟩
    rw [hd, hkind]
    exact List.append_nil _

/-! ### Reports -/

variable {T : ReporterTexts} {c : Config} {r : Report} {job : Job} {s : Reporter}

/-- The collections jobs are posted to. -/
def targets (c : Config) : List Text :=
  [eventsUrl c.endpoint, holdingsUrl c.endpoint, trackersUrl c.endpoint]

theorem wellFormed_append {ms ms' : List (String × Json)} (h : Json.WellFormedMembers ms)
    (h' : Json.WellFormedMembers ms') : Json.WellFormedMembers (ms ++ ms') := by
  induction ms with
  | nil => exact h'
  | cons m ms ih => exact ⟨h.1, ih h.2⟩

theorem wellFormed_member {name : String} {value : Option Json} (h : ∀ v ∈ value, Json.WellFormed v) :
    Json.WellFormedMembers (member name value) := by
  cases value with
  | none => trivial
  | some v => exact ⟨h v rfl, trivial⟩

theorem wellFormed_nonempty (name s : String) :
    Json.WellFormedMembers (member name (nonempty s)) := by
  unfold nonempty
  split_ifs <;> exact wellFormed_member (by simp [Json.WellFormed])

theorem wellFormed_floatMember (name : String) (value : Option ℚ) :
    Json.WellFormedMembers (floatMember T name value) := by
  refine wellFormed_member fun v hv => ?_
  obtain ⟨x, -, rfl⟩ := Option.map_eq_some_iff.mp hv
  exact T.isFloat_reprFloat x

theorem wellFormed_intMember (name : String) (value : Option ℤ) :
    Json.WellFormedMembers (intMember name value) := by
  refine wellFormed_member fun v hv => ?_
  obtain ⟨x, -, rfl⟩ := Option.map_eq_some_iff.mp hv
  trivial

theorem wellFormed_source : Json.WellFormed source := ⟨trivial, trivial, trivial, trivial⟩

theorem wellFormed_eventMembers (now : ℤ) (e : BlockEvent) (kind status : String) :
    Json.WellFormedMembers (eventMembers T now e kind status) := by
  refine wellFormed_append ?_ (wellFormed_nonempty _ _)
  exact ⟨trivial, wellFormed_source, trivial,
    ⟨trivial, trivial, trivial, trivial, trivial, trivial, trivial⟩, trivial⟩

theorem wellFormed_reportedPayload (now : ℤ) (e : BlockEvent) (status : String) :
    Json.WellFormed (reportedPayload T now e status) := by
  refine wellFormed_append (wellFormed_eventMembers _ _ _ _) (wellFormed_member fun v hv => ?_)
  obtain ⟨d, -, rfl⟩ := Option.map_eq_some_iff.mp hv
  exact ⟨trivial, trivial⟩

theorem wellFormed_holdingsPayload (h : Holdings) : Json.WellFormed (holdingsPayload T h) := by
  have hsol : Json.WellFormedMembers (member "sol_address" (h.solAddress.map Json.str)) := by
    refine wellFormed_member fun v hv => ?_
    obtain ⟨x, -, rfl⟩ := Option.map_eq_some_iff.mp hv
    trivial
  unfold holdingsPayload
  refine wellFormed_append (wellFormed_append (wellFormed_append ?_ (wellFormed_intMember _ _)) hsol)
    (wellFormed_floatMember _ _)
  refine wellFormed_append (wellFormed_append ?_ (wellFormed_intMember _ _)) (wellFormed_intMember _ _)
  refine wellFormed_append (wellFormed_append (wellFormed_append ?_ (wellFormed_floatMember _ _))
    (wellFormed_floatMember _ _)) (wellFormed_floatMember _ _)
  refine wellFormed_append (wellFormed_append ?_ (wellFormed_nonempty _ _)) (wellFormed_nonempty _ _)
  exact ⟨trivial, wellFormed_source, trivial, trivial⟩

theorem wellFormed_trackerPayload (t : Tracker) : Json.WellFormed (trackerPayload T t) := by
  have hok : Json.WellFormedMembers (member "network_ok" (t.networkOk.map Json.bool)) := by
    refine wellFormed_member fun v hv => ?_
    obtain ⟨x, -, rfl⟩ := Option.map_eq_some_iff.mp hv
    trivial
  unfold trackerPayload
  refine wellFormed_append (wellFormed_append (wellFormed_append ?_ (wellFormed_floatMember _ _))
    (wellFormed_floatMember _ _)) hok
  refine wellFormed_append (wellFormed_append ?_ (wellFormed_nonempty _ _)) ?_
  · exact ⟨trivial, trivial, trivial, wellFormed_source, trivial⟩
  · exact ⟨trivial, trivial, trivial, trivial⟩

/-- What a report puts in the queue, while reports are on. -/
structure Queues (T : ReporterTexts) (c : Config) (r : Report) (job : Job) : Prop where
  enabled : c.enabled = true
  target : job.url ∈ targets c
  payload : Json.WellFormed job.payload
  rejects : ∀ now e, r = .rejected now e → c.reportRejects = true

theorem queues_job (h : c.job T r = some job) : Queues T c r job := by
  unfold Config.job at h
  by_cases hon : c.enabled = true
  swap
  · rw [if_neg hon] at h
    cases h
  rw [if_pos hon] at h
  cases r with
  | accepted now e =>
    cases h
    exact ⟨hon, by simp [targets], wellFormed_reportedPayload _ _ _, nofun⟩
  | rejected now e =>
    dsimp only at h
    split_ifs at h with hrejects
    cases h
    exact ⟨hon, by simp [targets], wellFormed_reportedPayload _ _ _, fun _ _ _ => hrejects⟩
  | backfilled now e =>
    cases h
    exact ⟨hon, by simp [targets], wellFormed_eventMembers _ _ _ _, nofun⟩
  | holdings held =>
    cases h
    exact ⟨hon, by simp [targets], wellFormed_holdingsPayload _, nofun⟩
  | tracker t =>
    dsimp only at h
    split_ifs at h
    cases h
    exact ⟨hon, by simp [targets], wellFormed_trackerPayload _, nofun⟩

/-! ### Runs -/

/-- The job a step reports. -/
def Step.reports (T : ReporterTexts) (c : Config) : Step → Option Job
  | .report r => c.job T r
  | _ => none

/-- The jobs reported by some steps, in their order. -/
def reported (T : ReporterTexts) (c : Config) (steps : List Step) : List Job :=
  steps.filterMap (Step.reports T c)

/-- The reporter after some reports. -/
structure Inv (c : Config) (jobs : List Job) (s : Reporter) : Prop where
  config : s.config = c
  queue : DropOldest.Inv maxsize s.jobs
  begun : s.jobs.begun = jobs
  sent : s.jobs.taken.map c.request = s.sent.map Prod.fst ++ s.inHand.toList.map c.request

theorem begun_access (q : DropOldest Job) (k : ℕ) : (q.step maxsize (.call k)).begun = q.begun ∧
    (q.step maxsize (.call k)).taken = q.taken := by
  unfold DropOldest.step
  dsimp only
  cases q.calls[k]? with
  | none => exact ⟨rfl, rfl⟩
  | some call =>
    cases call <;> dsimp only [DropOldest.access] <;> (try split_ifs) <;> exact ⟨rfl, rfl⟩

theorem Inv.step {jobs : List Job} (h : Inv c jobs s) (action : Step) :
    Inv c (jobs ++ (action.reports T c).toList) (s.step T action) := by
  obtain ⟨rfl, hqueue, rfl, hsent⟩ := h
  cases action with
  | report r =>
    unfold Reporter.step Step.reports
    dsimp only
    cases s.config.job T r with
    | none => exact ⟨rfl, hqueue, (List.append_nil _).symm, hsent⟩
    | some job => exact ⟨rfl, hqueue.step (.begin job), rfl, hsent⟩
  | access k =>
    obtain ⟨hbegun, htaken⟩ := begun_access s.jobs k
    refine ⟨rfl, hqueue.step (.call k), ?_, ?_⟩
    · exact hbegun.trans (List.append_nil _).symm
    · exact (congrArg (List.map s.config.request) htaken).trans hsent
  | get =>
    unfold Reporter.step Step.reports
    dsimp only
    rw [Option.toList_none, List.append_nil]
    cases hhand : s.inHand with
    | some job => exact ⟨rfl, hqueue, rfl, hsent⟩
    | none =>
      refine ⟨rfl, hqueue.step .take, rfl, ?_⟩
      rw [hhand, Option.toList_none, List.map_nil, List.append_nil] at hsent
      show (s.jobs.taken ++ s.jobs.queue.take 1).map s.config.request = _
      rw [List.map_append, hsent]
      cases s.jobs.queue <;> rfl
  | post ok =>
    unfold Reporter.step Step.reports
    dsimp only
    rw [Option.toList_none, List.append_nil]
    cases hhand : s.inHand with
    | none => exact ⟨rfl, hqueue, rfl, hsent⟩
    | some job =>
      refine ⟨rfl, hqueue, rfl, ?_⟩
      rw [hhand] at hsent
      dsimp only
      rw [hsent, List.map_append, Option.toList_none, List.map_nil, List.append_nil]
      rfl

theorem reported_concat (c : Config) (steps : List Step) (action : Step) :
    reported T c (steps ++ [action]) = reported T c steps ++ (action.reports T c).toList := by
  unfold reported
  rw [List.filterMap_append]
  cases haction : action.reports T c with
  | none => rw [List.filterMap_cons_none haction]; rfl
  | some job => rw [List.filterMap_cons_some haction]; rfl

theorem inv_run (T : ReporterTexts) (c : Config) (steps : List Step) :
    Inv c (reported T c steps) (Run.final (Reporter.step T) { config := c } steps) := by
  induction steps using List.reverseRecOn with
  | nil => exact ⟨rfl, DropOldest.inv_new maxsize, rfl, rfl⟩
  | append_singleton steps action ih =>
    rw [Run.final_append, reported_concat]
    exact ih.step action

/-- What the worker has sent, holds and will take. -/
def Reporter.outgoing (s : Reporter) : List Request :=
  s.sent.map Prod.fst ++ (s.inHand.toList ++ s.jobs.queue).map s.config.request

/-- The jobs that the index will not see. -/
def Reporter.losses (s : Reporter) : ℕ := s.jobs.evicted.length + s.stats.dropped

theorem Inv.outgoing_eq {jobs : List Job} (h : Inv c jobs s) :
    s.outgoing = (s.jobs.taken ++ s.jobs.queue).map c.request := by
  unfold Reporter.outgoing
  rw [h.config, List.map_append, List.map_append, h.sent, List.append_assoc]

theorem Inv.outgoing_sublist {jobs : List Job} (h : Inv c jobs s) :
    s.outgoing.Sublist (s.jobs.entered.map c.request) := by
  rw [h.outgoing_eq]
  exact h.queue.fifo.map c.request

theorem countP_add_countP_not (sent : List (Request × Bool)) :
    sent.countP (·.2) + sent.countP (!·.2) = sent.length := by
  rw [List.length_eq_countP_add_countP (·.2)]
  simp

/-- **Every order of the threads' and the worker's turns:** the queue stays within its places, what
comes in goes out in the same order, every job reported is posted, failed, held, queued, on its way in or
lost, and the first 256 jobs are never lost. -/
theorem reporter_run (T : ReporterTexts) (c : Config) (steps : List Step) :
    let s := Run.final (Reporter.step T) { config := c } steps
    s.jobs.queue.length ≤ maxsize ∧
    s.outgoing.Sublist (s.jobs.entered.map c.request) ∧
    (reported T c steps).length = s.stats.posted + s.stats.failed + s.inHand.toList.length +
      s.jobs.queue.length + s.jobs.waiting.length + s.losses ∧
    (s.losses = 0 ∨ s.losses + maxsize ≤ (reported T c steps).length) := by
  have h := inv_run T c steps
  generalize Run.final (Reporter.step T) { config := c } steps = s at h
  have hcount := h.queue.length_begun
  have htaken := congrArg List.length h.sent
  have hposts := countP_add_countP_not s.sent
  have hlost := h.queue.lost
  rw [h.begun] at hcount hlost
  rw [List.length_append, List.length_map, List.length_map, List.length_map] at htaken
  have hlosses : s.losses = s.jobs.losses := rfl
  refine ⟨h.queue.bounded, h.outgoing_sublist, ?_, ?_⟩
  · show _ = s.sent.countP (·.2) + s.sent.countP (!·.2) + _ + _ + _ + _
    omega
  · omega

/-! ### Reports one after the other -/

/-- A report comes only after the calls before it have ended. -/
def OneAtATime (T : ReporterTexts) (s : Reporter) (action : Step) : Prop :=
  (action.reports T s.config).isSome → s.jobs.waiting = []

theorem alone_step {jobs : List Job} (hinv : Inv c jobs s) (h : DropOldest.Alone maxsize s.jobs)
    {action : Step} (hone : OneAtATime T s action) :
    DropOldest.Alone maxsize (s.step T action).jobs := by
  have hcap : 0 < maxsize := by decide
  cases action with
  | report r =>
    unfold OneAtATime Step.reports at hone
    unfold Reporter.step
    dsimp only at hone ⊢
    cases hjob : s.config.job T r with
    | none => exact h
    | some job =>
      rw [hjob] at hone
      exact h.begin (hone rfl) job
  | access k =>
    have hcall : s.jobs.OneAtATime (.call k) := trivial
    exact h.step hinv.queue hcap hcall
  | get =>
    unfold Reporter.step
    dsimp only
    cases s.inHand with
    | some job => exact h
    | none => exact h.take
  | post ok =>
    unfold Reporter.step
    dsimp only
    cases s.inHand with
    | some job => exact h
    | none => exact h

/-- **Reports that come one after the other** are sent in the order they were made, and `dropped` stays at
zero: only the oldest jobs of a full queue are lost, and these it does not count. -/
theorem reporter_alone (T : ReporterTexts) (c : Config) (steps : List Step)
    (hsteps : Run.Meets (Reporter.step T) (OneAtATime T) { config := c } steps) :
    let s := Run.final (Reporter.step T) { config := c } steps
    s.stats.dropped = 0 ∧ s.outgoing.Sublist ((reported T c steps).map c.request) := by
  have hinv := inv_run T c steps
  have halone : DropOldest.Alone maxsize (Run.final (Reporter.step T) { config := c } steps).jobs := by
    have hboth := hsteps.invariant
      (I := fun s => (∃ jobs, Inv c jobs s) ∧ DropOldest.Alone maxsize s.jobs)
      (fun s action h hone => h.1.elim fun jobs hjobs =>
        ⟨⟨_, hjobs.step action⟩, alone_step hjobs h.2 hone⟩)
      ⟨⟨_, inv_run T c []⟩, DropOldest.alone_new maxsize⟩
    exact hboth.2
  generalize Run.final (Reporter.step T) { config := c } steps = s at hinv halone
  refine ⟨congrArg List.length halone.refused, hinv.outgoing_sublist.trans ?_⟩
  have hordered := halone.ordered
  rw [hinv.begun] at hordered
  rw [hordered, List.map_append]
  exact List.sublist_append_left _ _

theorem isFloat_zero : Json.IsFloat ['0', '.', '0'] := ⟨rfl, List.all_eq_true.mp (by decide)⟩

def sampleTexts : ReporterTexts where
  isoformat _ := "2026-01-01T00:00:00+00:00"
  reprFloat _ := ['0', '.', '0']
  isFloat_reprFloat _ := isFloat_zero

def sampleConfig : Config := { enabled := true }

def sampleEvent : BlockEvent where
  account := "0xab"
  kind := "XNM"
  key := "00ff"
  hashToVerify := "$argon2id$v=19$m=100,t=1,p=1$c2FsdA$XEN11"
  worker := "1"
  difficulty := some 100
  occurredAt := none

/-- An accept, its way through the queue, and its post. -/
def sampleSteps : List Step := [.report (.accepted 0 sampleEvent), .access 0, .get, .post true]

/-- Reports that come one after the other, each in the queue before the next begins. -/
def inTurn (k : ℕ) : List Report → List Step
  | [] => []
  | r :: rs => .report r :: .access k :: inTurn (k + 1) rs

/-- The reporter once some jobs more have come into the queue, each with one access. -/
def filled (s : Reporter) (k : ℕ) (jobs : List Job) : Reporter :=
  { s with
    jobs :=
      { s.jobs with
        calls := List.replicate (k + jobs.length) .done
        queue := s.jobs.queue ++ jobs
        begun := s.jobs.begun ++ jobs
        entered := s.jobs.entered ++ jobs } }

theorem oneAtATime_of_no_report {action : Step} (h : ∀ c, action.reports T c = none) :
    OneAtATime T s action := by
  intro hsome
  rw [h s.config] at hsome
  cases hsome

theorem waiting_of_done {s : DropOldest Job} {k : ℕ} (hcalls : s.calls = List.replicate k .done) :
    s.waiting = [] := by
  rw [DropOldest.waiting, hcalls, List.flatMap_eq_nil_iff]
  intro c hc
  rw [List.eq_of_mem_replicate hc]
  rfl

/-- While there is room, a report comes in with its first access. -/
theorem filled_step {r : Report} {job : Job} {k : ℕ} (hjob : s.config.job T r = some job)
    (hroom : s.jobs.queue.length < maxsize) (hcalls : s.jobs.calls = List.replicate k .done) :
    (s.step T (.report r)).step T (.access k) = filled s k [job] := by
  have hlast : (List.replicate k PutCall.done ++ [PutCall.first job])[k]? = some (.first job) := by
    simp
  have hset : (List.replicate k PutCall.done ++ [PutCall.first job]).set k .done
      = List.replicate (k + 1) .done := by
    rw [List.set_append_right _ _ (by simp), List.length_replicate, Nat.sub_self]
    exact List.replicate_succ'.symm
  simp only [Reporter.step, hjob, DropOldest.step, hcalls, hlast, DropOldest.access, if_pos hroom,
    DropOldest.enter, hset, filled, List.length_singleton]

theorem waiting_filled (s : Reporter) (k : ℕ) (jobs : List Job) : (filled s k jobs).jobs.waiting = [] :=
  waiting_of_done rfl

/-- While there is room, reports come in one after the other. -/
theorem filled_inTurn (reports : List Report) (jobs : List Job) (k : ℕ)
    (hjobs : reports.map (s.config.job T) = jobs.map some)
    (hroom : s.jobs.queue.length + jobs.length ≤ maxsize)
    (hcalls : s.jobs.calls = List.replicate k .done) :
    Run.Meets (Reporter.step T) (OneAtATime T) s (inTurn k reports) ∧
      Run.final (Reporter.step T) s (inTurn k reports) = filled s k jobs := by
  induction reports generalizing s jobs k with
  | nil =>
    obtain rfl : jobs = [] := List.map_eq_nil_iff.mp hjobs.symm
    refine ⟨trivial, ?_⟩
    simp [inTurn, filled, ← hcalls]
  | cons r reports ih =>
    obtain ⟨job, jobs, rfl, hjob, hrest⟩ := List.map_eq_cons_iff.mp hjobs.symm
    rw [List.length_cons] at hroom
    have hstep := filled_step hjob.symm (by omega) hcalls
    have hroom' : (filled s k [job]).jobs.queue.length + jobs.length ≤ maxsize := by
      simp only [filled, List.length_append, List.length_singleton]
      omega
    have hnext := ih (s := filled s k [job]) jobs (k + 1) hrest.symm hroom' rfl
    rw [← hstep] at hnext
    refine ⟨⟨fun _ => waiting_of_done hcalls, oneAtATime_of_no_report fun _ => rfl, hnext.1⟩, ?_⟩
    refine hnext.2.trans ?_
    rw [hstep]
    simp [filled, Nat.add_assoc, Nat.add_comm 1]

def sampleReport : Report := .accepted 0 sampleEvent

def sampleJob : Job where
  url := eventsUrl sampleConfig.endpoint
  payload := reportedPayload sampleTexts 0 sampleEvent "accepted"

/-- A report that throws the first one away, and two posts. -/
def overflowSteps : List Step :=
  [.report sampleReport, .access maxsize, .access maxsize, .access maxsize, .get, .post true, .get,
    .post false]

/-- As many accepts as the queue has places, and one more. -/
def fullSteps : List Step := inTurn 0 (List.replicate maxsize sampleReport) ++ overflowSteps

def afterFull : Reporter :=
  Run.final (Reporter.step sampleTexts) { config := sampleConfig } fullSteps

/-- The reporter with a full queue. -/
def fullReporter : Reporter :=
  filled { config := sampleConfig } 0 (List.replicate maxsize sampleJob)

theorem reporter_alone_full :
    afterFull.jobs.evicted.length = 1 ∧ afterFull.jobs.queue.length = 254 ∧
      afterFull.sent.length = 2 ∧ afterFull.stats.dropped = 0 ∧
      afterFull.outgoing.Sublist
        ((reported sampleTexts sampleConfig fullSteps).map sampleConfig.request) := by
  obtain ⟨hmeets, hfull⟩ := filled_inTurn (T := sampleTexts) (s := { config := sampleConfig })
    (List.replicate maxsize sampleReport) (List.replicate maxsize sampleJob) 0
    (by rw [List.map_replicate, List.map_replicate]; rfl)
    (by rw [List.length_replicate]; decide) rfl
  have hone : Run.Meets (Reporter.step sampleTexts) (OneAtATime sampleTexts)
      { config := sampleConfig } fullSteps := by
    refine Run.meets_append.mpr ⟨hmeets, ?_⟩
    rw [hfull]
    refine ⟨fun _ => waiting_filled _ _ _, ?_, ?_, ?_, ?_, ?_, ?_, ?_, trivial⟩
    all_goals exact oneAtATime_of_no_report fun _ => rfl
  have halone := reporter_alone sampleTexts sampleConfig fullSteps hone
  have hend : afterFull = Run.final (Reporter.step sampleTexts) fullReporter overflowSteps := by
    rw [afterFull, fullSteps, Run.final_append, hfull]
    rfl
  refine ⟨?_, ?_, ?_, halone⟩
  all_goals
    rw [hend]
    decide +kernel

/-! ### What is sent -/

/-- A request is the one of a report made, and reads back as its payload. -/
structure IsReported (T : ReporterTexts) (c : Config) (steps : List Step) (req : Request) : Prop where
  enabled : c.enabled = true
  target : req.url ∈ targets c
  report : ∃ r job, .report r ∈ steps ∧ c.job T r = some job ∧ req = c.request job ∧
    Json.loads req.data = some job.payload ∧ (∀ now e, r = .rejected now e → c.reportRejects = true)

/-- **Every request sent,** or about to be, is that of a report that was made: it goes to a collection of
the endpoint and carries the report's payload; none is sent while reports are off, and no reject unless
rejects are reported. -/
theorem sent_reported (T : ReporterTexts) (c : Config) (steps : List Step) :
    ∀ req ∈ (Run.final (Reporter.step T) { config := c } steps).outgoing,
      IsReported T c steps req := by
  intro req hreq
  have h := inv_run T c steps
  rw [h.outgoing_eq] at hreq
  obtain ⟨job, hjob, rfl⟩ := List.mem_map.mp hreq
  have hreported : job ∈ reported T c steps := h.begun ▸ h.queue.mem_begun hjob
  obtain ⟨action, haction, hreports⟩ := List.mem_filterMap.mp hreported
  cases action with
  | report r =>
    have hqueues := queues_job hreports
    exact ⟨hqueues.enabled, hqueues.target,
      r, job, haction, hreports, rfl, Json.loads_dumps hqueues.payload, hqueues.rejects⟩
  | access k => cases hreports
  | get => cases hreports
  | post ok => cases hreports

theorem sent_reported_accept :
    ∃ req ∈ (Run.final (Reporter.step sampleTexts) { config := sampleConfig } sampleSteps).outgoing,
      IsReported sampleTexts sampleConfig sampleSteps req := by
  obtain ⟨req, hreq⟩ := List.exists_mem_of_length_pos
    (l := (Run.final (Reporter.step sampleTexts) { config := sampleConfig } sampleSteps).outgoing)
    (by decide)
  exact ⟨req, hreq, sent_reported sampleTexts sampleConfig sampleSteps req hreq⟩

end XenblockscanReporter

/-! ### The accepted submissions -/

namespace BlockStore

variable {s : BlockStore} {seen : List String} {rows : List SubmittedRow} {x : AcceptedSubmit}

theorem mem_uniqueSubmits (h : x ∈ uniqueSubmits seen rows) :
    x.key ≠ "" ∧ x.key ∉ seen ∧ ∃ row ∈ rows, x = acceptedSubmit row := by
  induction rows generalizing seen with
  | nil => cases h
  | cons row rows ih =>
    rw [uniqueSubmits] at h
    split_ifs at h with hskip
    · obtain ⟨hne, hseen, row', hrow', heq⟩ := ih h
      exact ⟨hne, hseen, row', List.mem_cons_of_mem _ hrow', heq⟩
    · rw [not_or] at hskip
      rcases List.mem_cons.mp h with rfl | h
      · exact ⟨hskip.1, hskip.2, row, List.mem_cons_self, rfl⟩
      · obtain ⟨hne, hseen, row', hrow', heq⟩ := ih h
        exact ⟨hne, fun hx => hseen (List.mem_cons_of_mem _ hx), row', List.mem_cons_of_mem _ hrow', heq⟩

/-- Each key is listed once. -/
theorem nodup_uniqueSubmits (seen : List String) (rows : List SubmittedRow) :
    ((uniqueSubmits seen rows).map AcceptedSubmit.key).Nodup := by
  induction rows generalizing seen with
  | nil => exact List.nodup_nil
  | cons row rows ih =>
    rw [uniqueSubmits]
    split_ifs
    · exact ih seen
    · rw [List.map_cons, List.nodup_cons]
      refine ⟨fun hmem => ?_, ih _⟩
      obtain ⟨x, hx, hkey⟩ := List.mem_map.mp hmem
      have hseen := (mem_uniqueSubmits hx).2.1
      rw [hkey] at hseen
      exact hseen List.mem_cons_self

theorem mem_listAcceptedSubmits {limit : ℤ} (h : x ∈ s.listAcceptedSubmits limit) :
    x.key ≠ "" ∧ x.key ∈ s.acceptedKeys := by
  obtain ⟨hne, -, row, hrow, rfl⟩ := mem_uniqueSubmits h
  refine ⟨hne, ?_⟩
  have haccepted := List.mem_reverse.mp (List.mem_of_mem_take hrow)
  obtain ⟨y, hy, rfl⟩ := List.mem_map.mp haccepted
  exact List.mem_map_of_mem hy

end BlockStore

namespace XenblockscanReporter

/-! ### The history feed -/

/-- The rows in the order of the feed. -/
def ordered (rows : List BlockStore.AcceptedSubmit) : List BlockStore.AcceptedSubmit :=
  rows.mergeSort fun a b => rank (rowKind a) ≤ rank (rowKind b)

theorem pairwise_ordered (rows : List BlockStore.AcceptedSubmit) :
    (ordered rows).Pairwise fun a b => rank (rowKind a) ≤ rank (rowKind b) := by
  have hsorted : (ordered rows).Pairwise fun a b =>
      decide (rank (rowKind a) ≤ rank (rowKind b)) = true := by
    refine List.pairwise_mergeSort (fun a b c hab hbc => ?_) (fun a b => ?_) rows
    · exact decide_eq_true ((of_decide_eq_true hab).trans (of_decide_eq_true hbc))
    · rw [Bool.or_eq_true, decide_eq_true_iff, decide_eq_true_iff]
      exact Nat.le_total _ _
  exact hsorted.imp of_decide_eq_true

/-- What is cut off is not of a kind before one that is kept. -/
theorem rank_le_of_mem_drop {rows : List BlockStore.AcceptedSubmit} {n : ℕ}
    {kept dropped : BlockStore.AcceptedSubmit} (hkept : kept ∈ (ordered rows).take n)
    (hdropped : dropped ∈ (ordered rows).drop n) : rank (rowKind kept) ≤ rank (rowKind dropped) := by
  have hsorted := pairwise_ordered rows
  rw [← List.take_append_drop n (ordered rows), List.pairwise_append] at hsorted
  exact hsorted.2.2 kept hkept dropped hdropped

/-- Where all rows have a key, none of those picked is left out. -/
theorem backfillEvents_eq {rows : List BlockStore.AcceptedSubmit} (h : ∀ row ∈ rows, row.key ≠ "")
    (account worker : String) (maxRows : ℕ) :
    backfillEvents rows account worker maxRows =
      ((ordered rows).take maxRows).map (backfillEvent account worker) := by
  unfold backfillEvents
  dsimp only
  rw [List.filter_eq_self.mpr]
  · rfl
  · intro row hrow
    exact decide_eq_true (h row (List.mem_mergeSort.mp (List.mem_of_mem_take hrow)))

/-- **The history feed** queues the events of accepted submissions only, each key once, at most `maxRows`
of them and the special kinds first: what it leaves out is not of a kind before one it has. -/
theorem backfill_spec (s : BlockStore) (limit : ℤ) (account worker : String) (maxRows : ℕ) :
    let rows := s.listAcceptedSubmits limit
    let fed := backfillEvents rows account worker maxRows
    fed.length ≤ maxRows ∧ (fed.map BlockEvent.key).Nodup ∧
    (∀ e ∈ fed, e.key ≠ "" ∧ e.key ∈ s.acceptedKeys) ∧
    fed.Pairwise (fun e e' => rank e.kind ≤ rank e'.kind) ∧
    ∀ row ∈ rows, row.key ∉ fed.map BlockEvent.key →
      fed.length = maxRows ∧ ∀ e ∈ fed, rank e.kind ≤ rank (rowKind row) := by
  intro rows fed
  have hlisted : ∀ row ∈ rows, row.key ≠ "" ∧ row.key ∈ s.acceptedKeys := fun row hrow =>
    BlockStore.mem_listAcceptedSubmits hrow
  have hfed : fed = ((ordered rows).take maxRows).map (backfillEvent account worker) :=
    backfillEvents_eq (fun row hrow => (hlisted row hrow).1) account worker maxRows
  have hkeys : fed.map BlockEvent.key = ((ordered rows).take maxRows).map BlockStore.AcceptedSubmit.key := by
    rw [hfed, List.map_map]
    rfl
  have hperm : (ordered rows).Perm rows := List.mergeSort_perm rows _
  have hsorted := pairwise_ordered rows
  rw [hkeys, hfed]
  refine ⟨?_, ?_, ?_, ?_, ?_⟩
  · rw [List.length_map, List.length_take]
    exact Nat.min_le_left _ _
  · have hnodup : (rows.map BlockStore.AcceptedSubmit.key).Nodup := BlockStore.nodup_uniqueSubmits _ _
    have hordered := (hperm.map BlockStore.AcceptedSubmit.key).nodup_iff.mpr hnodup
    exact hordered.sublist ((List.take_sublist _ _).map _)
  · intro e he
    obtain ⟨row, hrow, rfl⟩ := List.mem_map.mp he
    exact hlisted row (hperm.mem_iff.mp (List.mem_of_mem_take hrow))
  · exact List.pairwise_map.mpr (hsorted.sublist (List.take_sublist _ _))
  · intro row hrow hout
    -- a row that is left out is behind the cut
    have hdropped : row ∈ (ordered rows).drop maxRows := by
      have hmem : row ∈ (ordered rows).take maxRows ++ (ordered rows).drop maxRows := by
        rw [List.take_append_drop]
        exact hperm.mem_iff.mpr hrow
      rcases List.mem_append.mp hmem with htaken | hdropped
      · exact absurd (List.mem_map_of_mem htaken) hout
      · exact hdropped
    constructor
    · have hlength := List.length_pos_of_mem hdropped
      rw [List.length_drop] at hlength
      rw [List.length_map, List.length_take]
      omega
    · intro e he
      obtain ⟨picked, hpicked, rfl⟩ := List.mem_map.mp he
      exact rank_le_of_mem_drop hpicked hdropped

end XenblockscanReporter

end XenMiner
