import CksLoadtest.Protocol.Tokens

/-!
# Every request is answered and every client is woken

In every run: a request is answered by one update, updates reach the slot of the
client that asked, in the order it asked, and a SUSPENDED client is waiting for an
answer unless the one to its latest suspension was a failure. The control thread
answers whatever is queued by its own steps, for every outcome of the API calls.
-/
namespace CksLoadtest.Protocol

open Lib.Buffer Lib.Transition
open Worker (Core CorePath pushes)

variable {n : Nat}

namespace Exchange

/-- The suspensions of a client so far, as requests. -/
def suspensions (x : Exchange n) (w : Fin n) (i : Nat) : Nat :=
  (x.pushed.filter (·.IsFor w i)).countP (·.suspension)

theorem requests_suspensions (w : Fin n) (i t : Nat) (ps : List Worker.Push) :
    ((requests w i t ps).countP (·.suspension)) = ps.countP fun p => p.1 := by
  induction ps generalizing t with
  | nil => rfl
  | cons p ps ih => simp only [requests, List.countP_cons, ih]

theorem suspensions_same {x x' : Exchange n} {w : Fin n} {i : Nat} {c c' : Core}
    (hp : x'.pushed = x.pushed) (hs : c'.state = .suspended → c.state = .suspended) :
    x'.suspensions w i =
      x.suspensions w i + if c.state ≠ .suspended ∧ c'.state = .suspended then 1 else 0 := by
  rw [if_neg fun h => h.1 (hs h.2), suspensions, suspensions, hp, Nat.add_zero]

/-- A step suspends a client once and pushes one request for it, or does neither. -/
theorem suspensions_step {x x' : Exchange n} {l : Label n} (h : Step x l x') {w : Fin n} {i : Nat}
    {c c' : Core} (hc : (x.slots w)[i]? = some c) (hc' : (x'.slots w)[i]? = some c') :
    x'.suspensions w i =
      x.suspensions w i + if c.state ≠ .suspended ∧ c'.state = .suspended then 1 else 0 := by
  have same : (x'.slots w)[i]? = (x.slots w)[i]? → c'.state = .suspended →
      c.state = .suspended := by
    intro he hs
    rw [hc, hc'] at he
    exact Option.some.inj he ▸ hs
  cases h with
  | quiet | add | take | pop | refresh | place | post => exact suspensions_same rfl (same rfl)
  | @enroll w₀ =>
    refine suspensions_same rfl (same ?_)
    by_cases hw : w = w₀
    · subst hw
      simp only [Function.update_self]
      exact List.getElem?_append_left (List.getElem?_eq_some_iff.mp hc).1
    · simp only [Function.update_of_ne hw]
  | @act w₀ i₀ mark d d' ps hd hp =>
    unfold suspensions
    rw [push, List.filter_append, List.countP_append, requests_isFor]
    refine congrArg _ ?_
    split
    · rename_i hwi
      obtain ⟨rfl, rfl⟩ := hwi
      obtain rfl : c = d := Option.some.inj (hc.symm.trans hd)
      obtain rfl : d' = c' := Option.some.inj ((setSlot_slots_self hd).symm.trans hc')
      rw [requests_suspensions, hp.suspensions.2]
    · rename_i hwi
      have he : ((x.setSlot w₀ i₀ d').slots w)[i]? = (x.slots w)[i]? := setSlot_slots_ne hwi
      rw [if_neg fun h => h.1 (same he h.2)]
      rfl
  | @apply w₀ u rest d hu hd =>
    by_cases hwi : w₀ = w ∧ u.clientIndex = i
    · obtain ⟨rfl, rfl⟩ := hwi
      obtain rfl : c = d := Option.some.inj (hc.symm.trans hd)
      obtain rfl : Worker.updated u.toUpdate c = c' :=
        Option.some.inj ((setSlot_slots_self hd).symm.trans hc')
      refine suspensions_same rfl ?_
      unfold Worker.updated
      split
      · exact id
      · intro h
        cases h
    · exact suspensions_same rfl (same (setSlot_slots_ne hwi))

end Exchange

namespace Sys

variable {K : Type*}

def suspensions (s : Sys K n) (w : Fin n) (i : Nat) : Nat := s.exchange.suspensions w i

/-- The control thread's next event, given the outcomes of its API calls. -/
def next (s : Sys K n) (api : RefreshApi × AssignApi) : Event K n :=
  match s.job with
  | none => .pop
  | some j =>
    match j.phase with
    | .refreshing => .refresh api.1
    | .placing _ => .place api.2
    | .finished _ => .post

/-- A bound on the control thread's steps until nothing is left to answer. -/
def work (s : Sys K n) : Nat := 18 * s.queue.length + (s.job.map Job.callsLeft).getD 0

section

variable [Field K] [LinearOrder K] [FloorRing K] (P : Platform K) (cfg : Config K)

/-- So many steps of the control thread alone. -/
def controlRun (choose : Sys K n → RefreshApi × AssignApi) : Nat → Sys K n → Option (Sys K n)
  | 0, s => some s
  | k + 1, s => (s.step P cfg (s.next (choose s))).bind (controlRun choose k)

omit [Field K] [LinearOrder K] [FloorRing K] in
theorem refresh_callsLeft (l : Bool) (api : RefreshApi) (j : Job n) :
    (j.refresh cfg l api).2.1.callsLeft ≤ 16 := by
  obtain ⟨creds, -, ⟨kept, hc⟩ | hc⟩ := j.refresh_cases cfg l api
  · rw [hc]
    cases kept <;> simp [Job.callsLeft]
  · rw [hc]
    simp [Job.callsLeft]

omit [Field K] [LinearOrder K] [FloorRing K] in
theorem place_callsLeft {attempt : Nat} (h : 1 ≤ attempt ∧ attempt ≤ 15) (sd : Bool)
    (api : AssignApi) (j : Job n) :
    (j.place cfg sd attempt api).1.callsLeft < 16 - attempt + 1 := by
  obtain ⟨creds, -, -, hc | hc | ⟨hlt, hc⟩⟩ := j.place_cases cfg sd attempt api
  · rw [hc]
    simp only [Job.callsLeft]
    omega
  · rw [hc]
    simp only [Job.callsLeft]
    omega
  · rw [hc]
    simp only [Job.callsLeft]
    omega

/-- **Progress.** While there is work, the control thread's next step is possible and
leaves less of it, whatever the API answers. -/
theorem control_progress {s : Sys K n} (hjobs : s.exchange.JobsOk) (hne : s.exited = false)
    (hwork : 0 < s.work) (api : RefreshApi × AssignApi) :
    ∃ t, s.step P cfg (s.next api) = some t ∧ t.work < s.work ∧ t.hist.pushed = s.hist.pushed ∧
      t.exited = false := by
  unfold next
  cases hj : s.job with
  | none =>
    cases hq : s.queue with
    | nil => simp [work, hj, hq] at hwork
    | cons r rest =>
      refine ⟨{ s with queue := rest, job := some (Job.start r) }, ?_, ?_, rfl, hne⟩
      · simp [step, hne, hj, hq]
      · have hl : (Job.start r).callsLeft ≤ 17 := by
          unfold Job.callsLeft Job.start
          cases r.kind <;> simp
        simp only [work, hj, hq, List.length_cons, Option.map_some, Option.map_none,
          Option.getD_some, Option.getD_none]
        omega
  | some j =>
    have hok := hjobs j hj
    cases hp : j.phase with
    | refreshing =>
      refine ⟨s.refresh cfg api.1 j, by simp [step, hj, hp], ?_, ?_, ?_⟩
      · have hl := refresh_callsLeft cfg s.legacyRefresh api.1 j
        have hj' : (s.refresh cfg api.1 j).job = some (j.refresh cfg s.legacyRefresh api.1).2.1 ∧
            (s.refresh cfg api.1 j).queue = s.queue := by
          unfold refresh
          dsimp only
          split <;> exact ⟨rfl, rfl⟩
        simp only [work, hj, hj'.1, hj'.2, Option.map_some, Option.getD_some]
        simp only [Job.callsLeft, hp]
        unfold Job.callsLeft at hl
        omega
      · unfold refresh
        dsimp only
        split <;> rfl
      · unfold refresh
        dsimp only
        split <;> exact hne
    | placing attempt =>
      have ha := hok.placing attempt hp
      refine ⟨s.place cfg attempt api.2 j, by simp [step, hj, hp], ?_, rfl, hne⟩
      have hl := place_callsLeft cfg ⟨ha.1, ha.2.1⟩ s.shutdown api.2 j
      have hj' : (s.place cfg attempt api.2 j).job =
          some (j.place cfg s.shutdown attempt api.2).1 := rfl
      have hq' : (s.place cfg attempt api.2 j).queue = s.queue := rfl
      simp only [work, hj, hj', hq', Option.map_some, Option.getD_some]
      simp only [Job.callsLeft, hp]
      unfold Job.callsLeft at hl
      omega
    | finished failed =>
      refine ⟨{ s with job := none }.post (j.update failed), by simp [step, hj, hp], ?_, rfl, hne⟩
      have hq' : ({ s with job := none }.post (j.update failed)).queue = s.queue := rfl
      have hj' : ({ s with job := none }.post (j.update failed)).job = none := rfl
      simp only [work, hj, hj', hq', Option.map_some, Option.getD_some, Option.map_none,
        Option.getD_none]
      simp only [Job.callsLeft, hp]
      omega

/-- Whatever the API answers, the control thread alone empties the queue. -/
theorem control_drains (choose : Sys K n → RefreshApi × AssignApi) {s : Sys K n}
    (h : (system P cfg n).Reach s) (hne : s.exited = false) :
    ∃ k ≤ s.work, ∃ t, controlRun P cfg choose k s = some t ∧ (system P cfg n).Reach t ∧
      t.work = 0 ∧ t.hist.pushed = s.hist.pushed := by
  generalize hm : s.work = m
  induction m using Nat.strong_induction_on generalizing s with
  | _ m ih =>
    rcases Nat.eq_zero_or_pos m with hz | hpos
    · exact ⟨0, Nat.zero_le _, s, rfl, h, hm.trans hz, rfl⟩
    · have hsound := Exchange.sound_of_reach (exchange_reach (H := fun _ _ => True) P cfg
        (fun _ _ _ => trivial) h)
      obtain ⟨t, hs, hlt, hp, he⟩ :=
        control_progress P cfg hsound.jobs hne (hm ▸ hpos) (choose s)
      obtain ⟨k, hk, u, hrun, hu, hw, hpu⟩ := ih t.work (hm ▸ hlt) (h.step hs) he rfl
      refine ⟨k + 1, by omega, u, ?_, hu, hw, hpu.trans hp⟩
      rw [controlRun, hs]
      exact hrun

end

/-! ## Shutdown -/

/-- The queue is shut down after the workers, and the control thread leaves when
nothing is left; a worker that is not running has no update or datagram in hand. -/
structure Phases (s : Sys K n) : Prop where
  stopped : s.shutdown = true → ∀ w, (s.workers w).thread = .stopped
  exited : s.exited = true → s.shutdown = true ∧ s.queue = [] ∧ s.job = none
  halted : ∀ w, (s.workers w).thread ≠ .running →
    (s.workers w).rx = none ∧ (s.workers w).updates = []

/-- A step of a running worker. -/
theorem Phases.worker {s s' : Sys K n} (h : s.Phases) {w : Fin n} {x : WorkerSt K n}
    (hw : (s.workers w).thread = .running) (hs : s'.workers = Function.update s.workers w x)
    (hx : x.thread = .running) (hsd : s'.shutdown = s.shutdown)
    (he : s'.exited = s.exited) : s'.Phases := by
  have hopen : s.shutdown ≠ true := fun hsd => by
    have hst := h.stopped hsd w
    rw [hw] at hst
    cases hst
  refine ⟨fun h' => absurd (hsd ▸ h') hopen, fun h' => absurd (h.exited (he ▸ h')).1 hopen, ?_⟩
  intro w' hw'
  rw [hs] at hw' ⊢
  by_cases hww : w' = w
  · subst hww
    rw [Function.update_self] at hw'
    exact absurd hx hw'
  · rw [Function.update_of_ne hww] at hw' ⊢
    exact h.halted w' hw'

theorem Phases.commit {s t : Sys K n} (h : s.Phases) {w : Fin n} {i : Nat} {o : Worker.Out K}
    {x : WorkerSt K n} (hw : (s.workers w).thread = .running)
    (hs : t.workers = Function.update s.workers w x) (hx : x.thread = .running)
    (hsd : t.shutdown = s.shutdown) (he : t.exited = s.exited) : (t.commit w i o).Phases := by
  refine h.worker (x := x.setClient i o.1) hw ?_ hx ?_ ?_
  · rw [commit_workers, hs, Function.update_self, Function.update_idem]
  · rw [commit_shutdown, hsd]
  · rw [commit_exited, he]

section

variable [Field K] [LinearOrder K] [FloorRing K] {P : Platform K} {cfg : Config K}
  {s s' : Sys K n}

omit [Field K] [LinearOrder K] [FloorRing K] in
/-- A step that leaves threads, updates and datagrams alone, and queue and job too once
the control thread has left. -/
theorem Phases.frame (h : s.Phases)
    (hw : ∀ w, (s'.workers w).thread = (s.workers w).thread ∧
      (s'.workers w).rx = (s.workers w).rx ∧ (s'.workers w).updates = (s.workers w).updates)
    (hsd : s'.shutdown = s.shutdown) (he : s'.exited = s.exited)
    (hq : s.exited = true → s'.queue = s.queue ∧ s'.job = s.job) : s'.Phases where
  stopped h' w := (hw w).1.trans (h.stopped (hsd ▸ h') w)
  exited h' := by
    obtain ⟨hs, hqu, hj⟩ := h.exited (he ▸ h')
    obtain ⟨hq', hj'⟩ := hq (he ▸ h')
    exact ⟨hsd.trans hs, hq'.trans hqu, hj'.trans hj⟩
  halted w h' := by
    obtain ⟨hrx, hu⟩ := h.halted w ((hw w).1 ▸ h')
    exact ⟨(hw w).2.1.trans hrx, (hw w).2.2.trans hu⟩

omit [Field K] [LinearOrder K] [FloorRing K] in
/-- The control thread has not left while it has a job. -/
theorem Phases.not_exited (h : s.Phases) {j : Job n} (hj : s.job = some j) :
    s.exited ≠ true := fun he => by
  have hn := (h.exited he).2.2
  rw [hj] at hn
  cases hn

omit [Field K] [LinearOrder K] [FloorRing K] in
theorem Phases.running_of_rx (h : s.Phases) {w : Fin n} {p : Nat × Worker.Walk}
    (hrx : (s.workers w).rx = some p) : (s.workers w).thread = .running := by
  by_contra hne
  have hn := (h.halted w hne).1
  rw [hrx] at hn
  cases hn

theorem Phases.step {e : Event K n} (h : s.Phases) (hs : s.step P cfg e = some s') :
    s'.Phases := by
  cases step_cases hs with
  | @addClient w creds activateAt =>
    refine h.frame (fun w' => ?_) rfl rfl fun _ => ⟨rfl, rfl⟩
    by_cases hw : w' = w
    · subst hw
      simp [logAdded, setWorker]
    · simp [logAdded, setWorker, Function.update_of_ne hw]
  | @startWorker w _ hsd =>
    refine ⟨fun h' => absurd h' hsd, fun h' => absurd (h.exited h').1 hsd, fun w' hw' => ?_⟩
    by_cases hw : w' = w
    · subst hw
      simp [setWorker] at hw'
    · simp only [setWorker, Function.update_of_ne hw] at hw' ⊢
      exact h.halted w' hw'
  | @stopWorker w hi =>
    have hhalt : (s.workers w).rx = none ∧ (s.workers w).updates = [] := by
      rcases hi with hi | hi
      · exact ⟨hi.2.2, hi.2.1⟩
      · exact h.halted w (by simp [hi])
    refine ⟨fun h' w' => ?_, h.exited, fun w' hw' => ?_⟩
    · by_cases hw : w' = w
      · subst hw
        simp [setWorker]
      · simp only [setWorker, Function.update_of_ne hw]
        exact h.stopped h' w'
    · by_cases hw : w' = w
      · subst hw
        simpa [setWorker] using hhalt
      · simp only [setWorker, Function.update_of_ne hw] at hw' ⊢
        exact h.halted w' hw'
  | applyPendingClients hi => exact h.worker hi.1 rfl hi.1 rfl rfl
  | takeInbox hi => exact h.worker hi.1 rfl hi.1 rfl rfl
  | @applyUpdate w u rest c hu _ =>
    have hrun : (s.workers w).thread = .running := by
      by_contra hne
      have hn := (h.halted w hne).2
      rw [hu] at hn
      cases hn
    exact h.commit hrun rfl hrun rfl rfl
  | tick hi => exact h.worker hi.1 rfl hi.1 rfl rfl
  | activate hi => exact h.commit hi.1 (Function.update_eq_self _ _).symm hi.1 rfl rfl
  | sendDue hi => exact h.commit hi.1 (Function.update_eq_self _ _).symm hi.1 rfl rfl
  | rxDropped => exact h
  | rxBegin _ _ hi => exact h.commit hi.1 rfl hi.1 rfl rfl
  | rxMember hrx => exact h.commit (h.running_of_rx hrx) rfl (h.running_of_rx hrx) rfl rfl
  | rxEnd hrx => exact h.commit (h.running_of_rx hrx) rfl (h.running_of_rx hrx) rfl rfl
  | pop hne => exact h.frame (fun w => ⟨rfl, rfl, rfl⟩) rfl rfl fun he => absurd he hne
  | refresh hj =>
    have hne := h.not_exited hj
    unfold Sys.refresh
    dsimp only
    split <;> exact h.frame (fun w => ⟨rfl, rfl, rfl⟩) rfl rfl fun he => absurd he hne
  | place hj =>
    exact h.frame (fun w => ⟨rfl, rfl, rfl⟩) rfl rfl fun he => absurd he (h.not_exited hj)
  | @post j failed hj =>
    refine h.frame (fun w => ?_) rfl rfl fun he => absurd he (h.not_exited hj)
    by_cases hw : w = j.request.workerIndex
    · subst hw
      simp [Sys.post, logPosted, setWorker]
    · simp [Sys.post, logPosted, setWorker, Function.update_of_ne hw]
  | shutdown hw => exact ⟨fun _ => hw, fun he => ⟨rfl, (h.exited he).2⟩, h.halted⟩
  | exit hsd hq hj => exact ⟨h.stopped, fun _ => ⟨hsd, hq, hj⟩, h.halted⟩

theorem phases_of_reach (h : (system P cfg n).Reach s) : s.Phases := by
  refine System.Reach.inv (I := Phases) ?_ (fun s e s' _ hi hs => hi.step hs) h
  rintro _ rfl
  exact ⟨fun h => absurd h (by simp), fun h => absurd h (by simp), fun _ _ => ⟨rfl, rfl⟩⟩

/-- What delivery means in a state of the process. -/
structure Delivered (P : Platform K) (cfg : Config K) (s : Sys K n) : Prop where
  /-- Answers are posted one for one, in the order of the requests. -/
  once : s.hist.pushed = s.hist.posted.map (·.request) ++
    (s.job.toList.map (·.request) ++ s.queue)
  /-- No two requests are the same one. -/
  distinct : (s.hist.pushed.map (·.ticket)).Nodup
  /-- The control thread by itself answers all of them, whatever the API answers. -/
  answered : s.exited = false → ∀ choose, ∃ k t, controlRun P cfg choose k s = some t ∧
    t.hist.posted.map (·.request) = s.hist.pushed
  /-- It does not leave before. -/
  ended : s.exited = true → s.hist.posted.map (·.request) = s.hist.pushed
  /-- Per client, updates are applied in the order its requests were pushed. -/
  inOrder : ∀ w i, s.hist.pushed.filter (·.IsFor w i) =
    (s.hist.applied.filter fun a => a.worker = w ∧ a.slot = i).map (·.update.request) ++
      (s.outstanding w i).map (·.request)
  /-- An update was applied to the slot, and the client, of its request. -/
  ownSlot : ∀ a ∈ s.hist.applied, a.worker = a.update.request.workerIndex ∧
    a.slot = a.update.request.clientIndex ∧ a.index = a.update.request.creds.index
  /-- An update on its way finds its client in the slot. -/
  slotHolds : ∀ w u, u ∈ (s.workers w).updates ++ (s.workers w).inbox →
    ∃ c, s.client? w u.clientIndex = some c ∧ c.creds.index = u.request.creds.index
  /-- A step that suspends a client pushes one request for it, no other step does. -/
  oneRequest : ∀ e s', s.step P cfg e = some s' → ∀ w i c c', s.client? w i = some c →
    s'.client? w i = some c' → s'.suspensions w i =
      s.suspensions w i + if c.state ≠ .suspended ∧ c'.state = .suspended then 1 else 0
  /-- And so does a whole datagram, however many of its members ask for it. -/
  oneRequestPerDatagram : ∀ rxNs nowMs t data c,
    ((pushes (Worker.handleDatagram P cfg rxNs nowMs t data c).2).countP fun p => p.1) =
      if c.state ≠ .suspended ∧
        (Worker.handleDatagram P cfg rxNs nowMs t data c).1.state = .suspended then 1 else 0
  /-- A SUSPENDED client waits for an update, or the one for its latest suspension failed. -/
  woken : ∀ w i c, s.client? w i = some c → c.state = .suspended → s.outstanding w i ≠ [] ∨
    ∃ a ∈ s.hist.applied, a.worker = w ∧ a.slot = i ∧ a.update.failed = true ∧
      s.exchange.latest w i = some a.update.request

theorem Delivered.wake (h : (system P cfg n).Reach s) {w : Fin n} {i : Nat} {c : SimClient K}
    (hc : s.client? w i = some c) (hs : c.state = .suspended) : s.outstanding w i ≠ [] ∨
      ∃ a ∈ s.hist.applied, a.worker = w ∧ a.slot = i ∧ a.update.failed = true ∧
        s.exchange.latest w i = some a.update.request := by
  have hx := exchange_reach (H := fun _ _ => True) P cfg (fun _ _ _ => trivial) h
  have hcar : Exchange.Carries (n := n) (fun _ _ => True) fun _ _ => True := by
    constructor <;> intros <;> trivial
  have hv : s.exchange.view w i = some ⟨Worker.core c, s.outstanding w i, s.exchange.latest w i,
      s.exchange.failed w i, s.lastPair w i⟩ := by
    rw [Exchange.view, slot_of_client hc]
    rfl
  obtain ⟨r, hl, hr⟩ := Session.wake_of_reach (Exchange.view_reach hcar hx w i hv) hs
  rcases hr with hr | hr
  · refine .inl fun ho => ?_
    rw [ho] at hr
    cases hr
  · obtain ⟨a, ha, rfl⟩ := List.mem_map.mp hr
    obtain ⟨hm, hp⟩ := List.mem_filter.mp ha
    simp only [decide_eq_true_eq] at hp
    exact .inr ⟨a, hm, hp.1, hp.2.1, hp.2.2, hl⟩

/-- **Delivery.** It holds in every state of every run, with clients added at any
moment and after the shutdown of the queue. -/
theorem requests_delivered (h : (system P cfg n).Reach s) : Delivered P cfg s := by
  have hx := exchange_reach (H := fun _ _ => True) P cfg (fun _ _ _ => trivial) h
  have hsound := Exchange.sound_of_reach hx
  have hphases := phases_of_reach h
  refine ⟨hsound.account.requests, ?_, ?_, ?_, Exchange.pushed_isFor hsound,
    hsound.placed.applied, ?_, ?_, ?_, fun w i c hc hs => Delivered.wake h hc hs⟩
  · have ht : s.hist.pushed.map (·.ticket) = List.range s.hist.pushed.length :=
      hsound.account.tickets
    rw [ht]
    exact List.nodup_range
  · intro hne choose
    obtain ⟨k, -, t, hrun, ht, hw, hp⟩ := control_drains P cfg choose h hne
    refine ⟨k, t, hrun, ?_⟩
    have hreq := (Exchange.sound_of_reach (exchange_reach (H := fun _ _ => True) P cfg
      (fun _ _ _ => trivial) ht)).account.requests
    have hq : t.queue = [] ∧ t.job = none := by
      unfold work at hw
      have hl : 18 * t.queue.length = 0 ∧ (t.job.map Job.callsLeft).getD 0 = 0 := by omega
      refine ⟨List.length_eq_zero_iff.mp (by omega), ?_⟩
      cases hj : t.job with
      | none => rfl
      | some j =>
        have h0 := hl.2
        rw [hj, Option.map_some, Option.getD_some] at h0
        unfold Job.callsLeft at h0
        split at h0 <;> omega
    simp only [exchange, hq.1, hq.2, hp, Option.toList_none, List.map_nil, List.append_nil] at hreq
    exact hreq.symm
  · intro he
    obtain ⟨-, hq, hj⟩ := hphases.exited he
    have hreq := hsound.account.requests
    simp only [exchange, hq, hj, Option.toList_none, List.map_nil, List.append_nil] at hreq
    exact hreq.symm
  · intro w u hu
    obtain ⟨hp, hw⟩ := hsound.account.mem_updates (List.mem_append.mp hu)
    have hr := hsound.placed.pushed _ (hsound.account.mem_pushed (.inl ⟨u, hp, rfl⟩))
    rw [hw] at hr
    have hlt : u.clientIndex < (s.workers w).clients.length := by
      have hin : u.request.clientIndex < (s.exchange.slots w).length := hr.1
      simpa [exchange, ClientUpdate.clientIndex] using hin
    refine ⟨_, List.getElem?_eq_getElem hlt, ?_⟩
    have hslot := hsound.placed.slots w u.clientIndex _
      (slot_of_client (List.getElem?_eq_getElem hlt))
    exact Option.some.inj (hslot.symm.trans hr.2)
  · intro e s' hs w i c c' hc hc'
    exact Exchange.suspensions_step (step_exchange P cfg hs) (slot_of_client hc)
      (slot_of_client hc')
  · intro rxNs nowMs t data c
    exact (Worker.handleDatagram_follows P cfg rxNs nowMs t data c).suspensions.2

end

end Sys

/-- A client that asked for a fresh token: its request is outstanding, and delivered. -/
theorem requests_delivered_token_error : ∃ s : Sys ℚ 1, (s.outstanding 0 0).length = 1 ∧
    Sys.Delivered Sample.platform Sample.config s := by
  have hrun : ((System.exec (Sys.step Sample.platform Sample.config) {}
      (Sample.started ++ Sample.receives Sample.tokenError)).map fun s : Sys ℚ 1 =>
      (s.outstanding 0 0).length) = some 1 := by decide +kernel
  obtain ⟨s, hs, hm⟩ := Option.map_eq_some_iff.mp hrun
  have hr : (system Sample.platform Sample.config 1).Reach s :=
    System.Reach.exec (.init rfl) hs
  exact ⟨s, hm, Sys.requests_delivered hr⟩

end CksLoadtest.Protocol
