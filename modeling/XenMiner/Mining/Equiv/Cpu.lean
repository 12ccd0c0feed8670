import XenMiner.Lib.Transit
import XenMiner.Lib.Run
import XenMiner.Mining.Cpu

/-!
# What becomes of the hits of CPU workers

The hits are a `Transit`: a worker puts one in the queue it was spawned with, which is the backend's
(`Inv.live`), and every turn of controller or workers is one move of the transit (`transit_step`).  The move
that drops a queue is the end of a `stop`; so all hits come through exactly when no `stop` ends with
hits in the queue (`cpu_run`).  The stop event is set when `mine_batch` returns a hit, and nothing
clears it before the supervisor starts workers again.
-/

namespace XenMiner.CpuMiner

variable {s t : CpuMiner} {keyFn : ℤ → ℤ → String} {argon2Hash : String → String}

/-! ### The transit of hits -/

/-- What `mine_batch` hands on of a hit. -/
abbrev HitContent := String × String × String × ℤ

def rawContent (raw : RawHit) : HitContent := (raw.key, raw.hashStr, raw.blockType, raw.attempts)

def hitContent (hit : BlockHit) : HitContent := (hit.key, hit.hashStr, hit.blockType, hit.attempts)

/-- The hits `mine_batch` returned. -/
def returned (s : CpuMiner) : List BlockHit := s.batches.filterMap MineBatchResult.hit

/-- The hit `mine_batch` is about to return. -/
def inHand (s : CpuMiner) : List BlockHit :=
  match s.place with
  | .fetched hit => [hit]
  | _ => []

/-- The hits a later `mine_batch` can return. -/
def pending (s : CpuMiner) : List RawHit := if s.place = .down then [] else s.queue

/-- The hits in queues nobody reads any more. -/
def abandoned (s : CpuMiner) : List RawHit :=
  (s.hitQueues.take s.backend.hitQueue).flatten ++ if s.place = .down then s.queue else []

def transit (s : CpuMiner) : Transit HitContent where
  put := s.puts.map rawContent
  taken := s.returned.map hitContent
  held := s.inHand.map hitContent
  queued := s.pending.map rawContent
  lost := s.abandoned.map rawContent

theorem transit_congr (hputs : t.puts = s.puts) (hreturned : t.returned = s.returned)
    (hhand : t.inHand = s.inHand) (hqueues : t.hitQueues = s.hitQueues)
    (hqueue : t.backend.hitQueue = s.backend.hitQueue) (hdown : t.place = .down ↔ s.place = .down) :
    t.transit = s.transit := by
  unfold transit pending abandoned queue
  simp only [hputs, hreturned, hhand, hqueues, hqueue, hdown]

/-! ### What holds between turns -/

/-- A worker that still runs is one of the processes and puts its hits in the queue in use. -/
structure Inv (s : CpuMiner) : Prop where
  queue : s.backend.hitQueue + 1 = s.hitQueues.length
  event : s.backend.stopEvent < s.stopEvents.length
  live : ∀ i w, s.workers[i]? = some w → w.place ≠ .done →
    i ∈ s.backend.processes ∧ w.hitQueue = s.backend.hitQueue
  gotHit : s.place = .gotHit → s.isSet s.backend.stopEvent = true
  down : s.place = .down → s.backend.processes = []

/-- The queue in use is the last one. -/
theorem Inv.hitQueues_eq (h : s.Inv) :
    s.hitQueues = s.hitQueues.take s.backend.hitQueue ++ [s.queue] := by
  have hlt : s.backend.hitQueue < s.hitQueues.length := by
    have hqueue := h.queue
    omega
  have hlast : s.queue = s.hitQueues[s.backend.hitQueue] := by
    unfold CpuMiner.queue
    rw [List.getD_eq_getElem?_getD, List.getElem?_eq_getElem hlt, Option.getD_some]
  rw [hlast, List.take_append_getElem hlt, h.queue, List.take_length]

/-- A running worker keeps the miner up. -/
theorem Inv.not_down (h : s.Inv) {i : ℕ} {w : CpuWorker} (hw : s.workers[i]? = some w)
    (hplace : w.place ≠ .done) : s.place ≠ .down := by
  intro hdown
  have hmem := (h.live i w hw hplace).1
  rw [h.down hdown] at hmem
  cases hmem

theorem Inv.setWorker (h : s.Inv) {i : ℕ} {w w' : CpuWorker} (hw : s.workers[i]? = some w)
    (hplace : w.place ≠ .done) (hqueue : w'.hitQueue = w.hitQueue) : (s.setWorker i w').Inv where
  queue := h.queue
  event := h.event
  live := by
    intro j v hv hdone
    rcases eq_or_ne i j with rfl | hne
    · have hlt : i < s.workers.length := (List.getElem?_eq_some_iff.mp hw).1
      simp only [CpuMiner.setWorker, List.getElem?_set_self hlt, Option.some.injEq] at hv
      subst hv
      rw [hqueue]
      exact h.live i w hw hplace
    · simp only [CpuMiner.setWorker, List.getElem?_set_ne hne] at hv
      exact h.live j v hv hdone
  gotHit := h.gotHit
  down := h.down

theorem Inv.putHit (h : s.Inv) (q : ℕ) (hit : RawHit) : (s.putHit q hit).Inv where
  queue := by
    show s.backend.hitQueue + 1 = (s.hitQueues.modify q (· ++ [hit])).length
    rw [List.length_modify]
    exact h.queue
  event := h.event
  live := h.live
  gotHit := h.gotHit
  down := h.down

theorem Inv.counted (h : s.Inv) (n : ℕ) : Inv { s with countValue := n } :=
  ⟨h.queue, h.event, h.live, h.gotHit, h.down⟩

theorem Inv.spawnWorkers (h : s.Inv) (hplace : s.place ≠ .down) : s.spawnWorkers.Inv where
  queue := h.queue
  event := h.event
  live := by
    intro i w hw hdone
    simp only [CpuMiner.spawnWorkers] at hw ⊢
    rw [List.getElem?_append] at hw
    split_ifs at hw with hold
    · obtain ⟨hmem, hqueue⟩ := h.live i w hw hdone
      exact ⟨List.mem_append_left _ hmem, hqueue⟩
    · rw [List.getElem?_map, Option.map_eq_some_iff] at hw
      obtain ⟨lane, hlane, rfl⟩ := hw
      obtain ⟨hlt, hval⟩ := List.getElem?_eq_some_iff.mp hlane
      refine ⟨List.mem_append_right _ (List.mem_map.mpr ⟨lane, ?_, ?_⟩), rfl⟩
      · rw [← hval]
        exact List.getElem_mem _
      · rw [List.getElem_range] at hval
        omega
  gotHit := h.gotHit
  down hdown := absurd hdown hplace

/-- The supervisor goes on to another place. -/
theorem Inv.goTo (h : s.Inv) {place : CpuPlace} (hgot : place ≠ .gotHit) (hdown : place ≠ .down) :
    Inv { s with place := place } where
  queue := h.queue
  event := h.event
  live := h.live
  gotHit hplace := absurd hplace hgot
  down hplace := absurd hplace hdown

theorem isSet_setStopEvent (h : s.Inv) : s.setStopEvent.isSet s.backend.stopEvent = true := by
  show (s.stopEvents.set s.backend.stopEvent true).getD s.backend.stopEvent false = true
  rw [List.getD_eq_getElem?_getD, List.getElem?_set_self h.event, Option.getD_some]

theorem Inv.setStopEvent (h : s.Inv) : s.setStopEvent.Inv where
  queue := h.queue
  event := by
    show s.backend.stopEvent < (s.stopEvents.set s.backend.stopEvent true).length
    rw [List.length_set]
    exact h.event
  live := h.live
  gotHit _ := isSet_setStopEvent h
  down := h.down

theorem Inv.returnBatch (h : s.Inv) (hit : Option BlockHit) : (s.returnBatch hit).Inv :=
  ⟨h.queue, h.event, h.live, h.gotHit, h.down⟩

theorem Inv.setLanes (h : s.Inv) (lanes : ℤ) : (s.setLanes lanes).Inv := by
  unfold CpuMiner.setLanes
  dsimp only
  split_ifs
  · exact h
  · exact h.setStopEvent.goTo (by simp) (by simp)

theorem Inv.hashOnce (h : s.Inv) {i : ℕ} {w : CpuWorker} (hw : s.workers[i]? = some w)
    (hplace : w.place ≠ .done) : (s.hashOnce keyFn argon2Hash i w).Inv := by
  unfold CpuMiner.hashOnce
  dsimp only
  split
  · exact (h.counted _).setWorker hw hplace rfl
  · exact ((h.counted _).putHit _ _).setWorker hw hplace rfl

theorem Inv.workerStep (h : s.Inv) (i : ℕ) : (s.workerStep keyFn argon2Hash i).Inv := by
  unfold CpuMiner.workerStep
  split
  · exact h
  next w hw =>
    split
    next hplace => exact h.setWorker hw (by simp [hplace]) rfl
    next hplace => exact h.hashOnce hw (by simp [hplace])
    · exact h

/-- A worker that was joined runs no more. -/
theorem Inv.joinWorker (h : s.Inv) {i : ℕ} {rest : List ℕ} (hproc : s.backend.processes = i :: rest)
    (hplace : s.place ≠ .down) :
    Inv { s.joinWorker i with backend := { s.backend with processes := rest } } where
  queue := h.queue
  event := h.event
  live := by
    intro j w hw hdone
    rcases eq_or_ne i j with rfl | hne
    · simp only [CpuMiner.joinWorker, List.getElem?_modify_eq] at hw
      obtain ⟨v, -, rfl⟩ := Option.map_eq_some_iff.mp hw
      exact absurd rfl hdone
    · simp only [CpuMiner.joinWorker] at hw
      rw [List.getElem?_modify_ne _ _ hne] at hw
      obtain ⟨hmem, hqueue⟩ := h.live j w hw hdone
      rw [hproc] at hmem
      exact ⟨(List.mem_cons.mp hmem).resolve_left (Ne.symm hne), hqueue⟩
  gotHit := h.gotHit
  down hdown := absurd hdown hplace

theorem Inv.replaceLanes (h : s.Inv) (hproc : s.backend.processes = []) (lanes : ℤ) :
    (s.replaceLanes lanes).Inv := by
  refine Inv.spawnWorkers ⟨?_, ?_, ?_, nofun, nofun⟩ nofun
  · show s.hitQueues.length + 1 = (s.hitQueues ++ [[]]).length
    rw [List.length_append, List.length_singleton]
  · show s.stopEvents.length < (s.stopEvents ++ [false]).length
    rw [List.length_append, List.length_singleton]
    omega
  · intro i w hw hdone
    have hmem := (h.live i w hw hdone).1
    rw [hproc] at hmem
    cases hmem

theorem Inv.join (h : s.Inv) {lanes : Option ℤ} (hplace : s.place = .stopping lanes) :
    (s.join lanes).Inv := by
  unfold CpuMiner.join
  split
  next i rest hproc => exact h.joinWorker hproc (by simp [hplace])
  next hproc =>
    cases lanes with
    | some lanes => exact h.replaceLanes hproc lanes
    | none => exact ⟨h.queue, h.event, h.live, nofun, fun _ => hproc⟩

theorem Inv.pollQueue (h : s.Inv) (now : ℤ) : (s.pollQueue now).Inv := by
  unfold CpuMiner.pollQueue
  split
  · exact h.returnBatch none
  · refine ⟨?_, h.event, h.live, nofun, nofun⟩
    show s.backend.hitQueue + 1 = (s.hitQueues.set s.backend.hitQueue _).length
    rw [List.length_set]
    exact h.queue

theorem Inv.tune (h : s.Inv) (shouldReduce canAddLane : Bool) :
    (s.tune shouldReduce canAddLane).Inv := by
  have hset (lanes : ℤ) : Inv
      ({ s with laneManager := { s.laneManager with lanes := lanes } }.setLanes lanes) :=
    Inv.setLanes (s := { s with laneManager := { s.laneManager with lanes := lanes } })
      ⟨h.queue, h.event, h.live, h.gotHit, h.down⟩ lanes
  unfold CpuMiner.tune
  dsimp only
  split_ifs
  · exact hset _
  · exact h
  · exact hset _
  · exact h

theorem Inv.step (h : s.Inv) (a : CpuAction) : (s.step keyFn argon2Hash a).Inv := by
  unfold CpuMiner.step
  split
  · exact h.workerStep _
  next hplace => exact h.spawnWorkers (by simp [hplace])
  next hplace => exact (h.spawnWorkers (by simp [hplace])).goTo (by simp) (by simp)
  · exact h.tune _ _
  next hplace => exact h.join hplace
  · exact h.pollQueue _
  next hit _ =>
    have hset := h.setStopEvent.returnBatch (some hit)
    exact ⟨hset.queue, hset.event, hset.live, fun _ => isSet_setStopEvent h, nofun⟩
  · exact h.setStopEvent.goTo (by simp) (by simp)
  · exact h.setStopEvent.goTo (by simp) (by simp)
  · exact h

theorem inv_create (strategyName : String) (cpuLanes rampStep : ℤ) :
    (create strategyName cpuLanes rampStep).Inv := by
  unfold create
  refine Inv.setLanes ⟨rfl, Nat.zero_lt_one, ?_, ?_, ?_⟩ _
  · simp
  · simp
  · simp

/-! ### The moves of the transit -/

/-- The turn that ends a `stop`, which leaves the queue. -/
def EndsStop (s : CpuMiner) (a : CpuAction) : Prop :=
  a = .join ∧ (∃ lanes, s.place = .stopping lanes) ∧ s.backend.processes = []

/-- The turn is a move of the transit, which drops the queue only at the end of a `stop`. -/
def Moves (s : CpuMiner) (a : CpuAction) (t : CpuMiner) : Prop :=
  ∃ m, t.transit = s.transit.move m ∧ (m = .drop ↔ EndsStop s a)

theorem moves_stay {a : CpuAction} (h : t.transit = s.transit) (hends : ¬EndsStop s a) : Moves s a t :=
  ⟨.stay, h, by simp [hends]⟩

theorem not_endsStop {a : CpuAction} (h : a ≠ .join) : ¬EndsStop s a := fun hends => h hends.1

theorem transit_setWorker (i : ℕ) (w : CpuWorker) : (s.setWorker i w).transit = s.transit := rfl

/-- A put into the queue in use. -/
theorem transit_putHit (h : s.Inv) (hplace : s.place ≠ .down) (hit : RawHit) :
    (s.putHit s.backend.hitQueue hit).transit = s.transit.move (.put (rawContent hit)) := by
  have hlt : s.backend.hitQueue < s.hitQueues.length := by
    have hqueue := h.queue
    omega
  have hqueue : (s.putHit s.backend.hitQueue hit).queue = s.queue ++ [hit] := by
    simp [CpuMiner.putHit, CpuMiner.queue, List.getD_eq_getElem?_getD, List.getElem?_modify_eq,
      List.getElem?_eq_getElem hlt]
  have hothers : (s.putHit s.backend.hitQueue hit).hitQueues.take s.backend.hitQueue =
      s.hitQueues.take s.backend.hitQueue := by
    show (s.hitQueues.modify s.backend.hitQueue (· ++ [hit])).take s.backend.hitQueue = _
    rw [List.modify_eq_take_cons_drop hlt]
    exact List.take_left' (List.length_take_of_le hlt.le)
  have hplace' : (s.putHit s.backend.hitQueue hit).place ≠ .down := hplace
  have hpending : (s.putHit s.backend.hitQueue hit).pending = s.pending ++ [hit] := by
    unfold pending
    rw [if_neg hplace, if_neg hplace', hqueue]
  have habandoned : (s.putHit s.backend.hitQueue hit).abandoned = s.abandoned := by
    unfold abandoned
    rw [if_neg hplace, if_neg hplace']
    exact congrArg (fun queues => queues.flatten ++ []) hothers
  unfold transit Transit.move
  rw [hpending, habandoned, List.map_append]
  simp [CpuMiner.putHit, returned, inHand]

/-- A fetch from the queue in use. -/
theorem transit_fetch (h : s.Inv) (hplace : s.place = .ready) {raw : RawHit} {rest : List RawHit}
    (hqueue : s.queue = raw :: rest) (now : ℤ) :
    transit { s with
        hitQueues := s.hitQueues.set s.backend.hitQueue rest
        place := .fetched (raw.blockHit s.backend.strategyName now) } = s.transit.move .fetch := by
  have hlt : s.backend.hitQueue < s.hitQueues.length := by
    have hlast := h.queue
    omega
  have hothers : (s.hitQueues.set s.backend.hitQueue rest).take s.backend.hitQueue =
      s.hitQueues.take s.backend.hitQueue := List.take_set_of_le le_rfl
  have hrest : (s.hitQueues.set s.backend.hitQueue rest)[s.backend.hitQueue]? = some rest :=
    List.getElem?_set_self hlt
  have hcontent : hitContent (raw.blockHit s.backend.strategyName now) = rawContent raw := rfl
  have hpending : s.pending = raw :: rest := by
    unfold pending
    rw [if_neg (by simp [hplace]), hqueue]
  have hhand : s.inHand = [] := by
    unfold inHand
    rw [hplace]
  unfold transit Transit.move
  rw [hpending, hhand]
  simp [pending, abandoned, inHand, returned, hplace, CpuMiner.queue, hothers, hrest, hcontent]

/-- The end of a `stop` abandons what the queue holds. -/
theorem transit_replaceLanes (h : s.Inv) {lanes : Option ℤ} (hplace : s.place = .stopping lanes)
    (n : ℤ) : (s.replaceLanes n).transit = s.transit.move .drop := by
  have hall : s.hitQueues.flatten = (s.hitQueues.take s.backend.hitQueue).flatten ++ s.queue := by
    conv_lhs => rw [h.hitQueues_eq]
    rw [List.flatten_append, List.flatten_singleton]
  unfold transit Transit.move
  simp [CpuMiner.replaceLanes, CpuMiner.spawnWorkers, pending, abandoned, inHand, returned, hplace,
    CpuMiner.queue, hall]

theorem transit_shutDown {lanes : Option ℤ} (hplace : s.place = .stopping lanes) :
    transit { s with place := .down } = s.transit.move .drop := by
  unfold transit Transit.move
  simp [pending, abandoned, inHand, returned, hplace, CpuMiner.queue]

theorem moves_join (h : s.Inv) {lanes : Option ℤ} (hplace : s.place = .stopping lanes) :
    Moves s .join (s.join lanes) := by
  unfold CpuMiner.join
  split
  next i rest hproc =>
    refine moves_stay rfl fun hends => ?_
    rw [hends.2.2] at hproc
    cases hproc
  next hproc =>
    have hends : EndsStop s .join := ⟨rfl, ⟨lanes, hplace⟩, hproc⟩
    cases lanes with
    | some lanes => exact ⟨.drop, transit_replaceLanes h hplace lanes, by simp [hends]⟩
    | none => exact ⟨.drop, transit_shutDown hplace, by simp [hends]⟩

theorem moves_workerStep (h : s.Inv) (i : ℕ) :
    Moves s (.worker i) (s.workerStep keyFn argon2Hash i) := by
  have hends : ¬EndsStop s (.worker i) := not_endsStop (by simp)
  unfold CpuMiner.workerStep
  split
  · exact moves_stay rfl hends
  next w hw =>
    split
    · exact moves_stay rfl hends
    next hplace =>
      have hrun : w.place ≠ .done := by simp [hplace]
      unfold hashOnce
      dsimp only
      split
      · exact moves_stay rfl hends
      next blockType _ =>
        refine ⟨.put (rawContent ⟨keyFn w.lane w.localIndex,
          argon2Hash (keyFn w.lane w.localIndex), blockType, w.localIndex + 1, w.lane⟩), ?_,
          by simp [hends]⟩
        rw [transit_setWorker, (h.live i w hw hrun).2]
        exact transit_putHit (h.counted (s.countValue + 1)) (h.not_down hw hrun) _
    · exact moves_stay rfl hends

theorem moves_pollQueue (h : s.Inv) (hplace : s.place = .ready) (now : ℤ) :
    Moves s (.mineBatch now) (s.pollQueue now) := by
  have hends : ¬EndsStop s (.mineBatch now) := not_endsStop (by simp)
  unfold CpuMiner.pollQueue
  split
  · refine moves_stay (transit_congr rfl ?_ rfl rfl rfl Iff.rfl) hends
    simp [returned, CpuMiner.returnBatch]
  next raw rest hqueue => exact ⟨.fetch, transit_fetch h hplace hqueue now, by simp [hends]⟩

/-- `mine_batch` hands the hit over. -/
theorem transit_returnBatch {hit : BlockHit} (hplace : s.place = .fetched hit) :
    transit { s.setStopEvent.returnBatch (some hit) with place := .gotHit } = s.transit.move .give := by
  unfold transit Transit.move
  simp [pending, abandoned, inHand, returned, hplace, CpuMiner.queue, CpuMiner.returnBatch,
    CpuMiner.setStopEvent]

theorem transit_setLanes (hplace : s.place = .ready) (lanes : ℤ) :
    (s.setLanes lanes).transit = s.transit := by
  unfold CpuMiner.setLanes
  dsimp only
  split_ifs
  · rfl
  · refine transit_congr rfl rfl ?_ rfl rfl ?_
    · simp [inHand, hplace]
    · simp [hplace]

theorem transit_tune (hplace : s.place = .ready) (shouldReduce canAddLane : Bool) :
    (s.tune shouldReduce canAddLane).transit = s.transit := by
  have hset (lanes : ℤ) :
      ({ s with laneManager := { s.laneManager with lanes := lanes } }.setLanes lanes).transit =
        s.transit :=
    transit_setLanes (s := { s with laneManager := { s.laneManager with lanes := lanes } }) hplace lanes
  unfold CpuMiner.tune
  dsimp only
  split_ifs
  · exact hset _
  · rfl
  · exact hset _
  · rfl

/-- **Every turn is a move of the transit.** -/
theorem moves_step (h : s.Inv) (a : CpuAction) : Moves s a (s.step keyFn argon2Hash a) := by
  unfold CpuMiner.step
  split
  · exact moves_workerStep h _
  · exact moves_stay rfl (not_endsStop (by simp))
  next hplace =>
    refine moves_stay (transit_congr rfl rfl ?_ rfl rfl ?_) (not_endsStop (by simp))
    · simp [inHand, hplace]
    · simp [hplace]
  next hplace => exact moves_stay (transit_tune hplace _ _) (not_endsStop (by simp))
  next hplace => exact moves_join h hplace
  next hplace => exact moves_pollQueue h hplace _
  next hplace => exact ⟨.give, transit_returnBatch hplace, by simp [not_endsStop]⟩
  next hplace =>
    refine moves_stay (transit_congr rfl rfl ?_ rfl rfl ?_) (not_endsStop (by simp))
    · simp [inHand, hplace]
    · simp [hplace]
  next hplace =>
    refine moves_stay (transit_congr rfl rfl ?_ rfl rfl ?_) (not_endsStop (by simp))
    · simp [inHand, hplace]
    · simp [hplace]
  next hother =>
    refine moves_stay rfl fun hends => ?_
    obtain ⟨rfl, ⟨lanes, hplace⟩, -⟩ := hends
    simp_all

/-! ### Runs -/

/-- Every hit a worker put was returned by exactly one call of `mine_batch`, or a later one can still
return it. -/
def HitsComeThrough (s : CpuMiner) : Prop :=
  (s.puts.map rawContent).Perm (s.returned.map hitContent ++ s.inHand.map hitContent ++
    s.pending.map rawContent)

instance (s : CpuMiner) : Decidable s.HitsComeThrough :=
  inferInstanceAs (Decidable (List.Perm _ _))

/-- No `stop` ends with hits in the queue. -/
def QueueEmptied (s : CpuMiner) (a : CpuAction) : Prop := EndsStop s a → s.queue = []

/-- The supervisor starts workers after a hit. -/
def StartsAfterHit (s : CpuMiner) (a : CpuAction) : Prop := a = .start ∧ s.place = .gotHit

/-- Workers started after a hit see a clear stop event. -/
def StartsClear (s : CpuMiner) (a : CpuAction) : Prop :=
  StartsAfterHit s a → s.isSet s.backend.stopEvent = false

instance (s : CpuMiner) (a : CpuAction) : Decidable (StartsClear s a) :=
  inferInstanceAs (Decidable (a = .start ∧ s.place = .gotHit → _))

theorem abandoned_step (h : s.Inv) (a : CpuAction) :
    (s.step keyFn argon2Hash a).abandoned = [] ↔ s.abandoned = [] ∧ QueueEmptied s a := by
  obtain ⟨m, hm, hdrop⟩ := moves_step (s := s) (a := a) h
  have hlost := Transit.move_lost s.transit m
  rw [← hm] at hlost
  simp only [transit, List.map_eq_nil_iff] at hlost
  rw [hlost]
  refine and_congr_right fun _ => ?_
  unfold QueueEmptied
  rw [hdrop]
  refine imp_congr_right fun hends => ?_
  obtain ⟨-, ⟨lanes, hplace⟩, -⟩ := hends
  simp [pending, hplace]

/-- Whether queues were left with hits is decided turn by turn. -/
theorem abandoned_run (h : s.Inv) (actions : List CpuAction) :
    (Run.final (step keyFn argon2Hash) s actions).abandoned = [] ↔
      s.abandoned = [] ∧ Run.Meets (step keyFn argon2Hash) QueueEmptied s actions := by
  induction actions generalizing s with
  | nil => simp
  | cons a actions ih =>
    rw [Run.final_cons, ih (h.step a), abandoned_step h, Run.meets_cons, and_assoc]

theorem conserved_step (h : s.Inv) (hflow : s.transit.Conserved) (a : CpuAction) :
    (s.step keyFn argon2Hash a).transit.Conserved := by
  have hmoves : Moves s a (s.step keyFn argon2Hash a) := moves_step h a
  obtain ⟨m, hm, -⟩ := hmoves
  rw [hm]
  exact hflow.move m

theorem hitsComeThrough_iff (h : s.transit.Conserved) : s.HitsComeThrough ↔ s.abandoned = [] := by
  have hlost := h.lost_eq_nil_iff
  simp only [transit, List.map_eq_nil_iff] at hlost
  exact hlost.symm

theorem create_fresh (strategyName : String) (cpuLanes rampStep : ℤ) :
    (create strategyName cpuLanes rampStep).transit = {} := by
  simp [create, setLanes, setStopEvent, transit, returned, inHand, pending, abandoned, queue]

/-- **What becomes of the hits, and of the workers after one.**  In every run, all hits put so far have
come through exactly when no `stop` ended with hits in the queue; and the workers started after hits
have seen a clear stop event exactly when no workers were started after a hit. -/
theorem cpu_run (keyFn : ℤ → ℤ → String) (argon2Hash : String → String) (strategyName : String)
    (cpuLanes rampStep : ℤ) (actions : List CpuAction) :
    let run := step keyFn argon2Hash
    let start := create strategyName cpuLanes rampStep
    ((Run.final run start actions).HitsComeThrough ↔ Run.Meets run QueueEmptied start actions) ∧
    (Run.Meets run StartsClear start actions ↔
      Run.Meets run (fun s a => ¬StartsAfterHit s a) start actions) := by
  intro run start
  have hinv : start.Inv := inv_create strategyName cpuLanes rampStep
  have hfresh : start.transit = {} := create_fresh strategyName cpuLanes rampStep
  have hconserved : (Run.final run start actions).transit.Conserved := by
    refine (Run.invariant (I := fun s : CpuMiner => s.Inv ∧ s.transit.Conserved) ?_ ⟨hinv, ?_⟩).2
    · rintro s a ⟨h, hflow⟩
      exact ⟨h.step a, conserved_step h hflow a⟩
    · rw [hfresh]
      exact List.Perm.refl _
  have hnone : start.abandoned = [] := by
    have hlost := congrArg Transit.lost hfresh
    exact List.map_eq_nil_iff.mp hlost
  have hevery : Run.Meets run (fun _ _ => True) start actions := Run.Meets.of_mem (by simp)
  constructor
  · rw [hitsComeThrough_iff hconserved, abandoned_run hinv]
    exact and_iff_right hnone
  · constructor
    · intro hclear
      refine hclear.imp_of_invariant (I := Inv) (fun s a h _ => h.step a) ?_ hinv
      -- the event is set when the supervisor starts workers after a hit
      intro s a h hclear hstart
      have hset := h.gotHit hstart.2
      rw [hclear hstart] at hset
      cases hset
    · exact fun hrun => hrun.imp fun s a hnot hstart => absurd hstart hnot

/-- The turns of `cpu_run_stops`: two workers find a block, one hit is fetched, workers start, and
a lane is added. -/
def twoHits : List CpuAction :=
  [.join, .start, .worker 0, .worker 0, .worker 1, .worker 1, .mineBatch 0, .mineBatch 0, .start,
    .tune false true] ++ List.replicate 7 .join

/-- The hit that was not fetched is lost with its queue, and the workers started after the other one
see a set event. -/
theorem cpu_run_stops :
    let run := step (fun _ _ => "key") fun _ => "XEN11"
    let start := create "random" 2 1
    ¬(Run.final run start twoHits).HitsComeThrough ∧ ¬Run.Meets run StartsClear start twoHits := by
  decide +kernel

end XenMiner.CpuMiner
