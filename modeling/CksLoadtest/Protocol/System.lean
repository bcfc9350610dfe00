import Mathlib.Algebra.Order.Field.Rat
import Mathlib.Data.Fintype.Basic
import Mathlib.Data.Rat.Floor
import CksLoadtest.Control.Loop
import CksLoadtest.Lib.Transition
import CksLoadtest.Worker.Traffic

/-!
# Workers, control queue and control thread

The state all threads share and one event for each section that runs without
another thread between its reads and writes: a mutex-protected section, a worker
function on one client, one member of a datagram, one API call of the control
thread. Any number of workers run; every order of the events is a run.
-/
namespace CksLoadtest.Protocol

open Lib.Buffer Lib.Transition

inductive ThreadState where
  | notStarted
  | running
  | stopped
  deriving DecidableEq, Repr

structure PendingAdd where
  creds : ClientCredentials
  activateAt : Int
  deriving DecidableEq

/-- One worker: what its mutexes protect, and what its thread owns. -/
structure WorkerSt (K : Type*) (n : Nat) where
  thread : ThreadState := .notStarted
  pending : List PendingAdd := []
  inbox : List (ClientUpdate n) := []
  /-- The vector `applyPendingUpdates` swapped the inbox into. -/
  updates : List (ClientUpdate n) := []
  clients : List (SimClient K) := []
  /-- The slot and the rest of a datagram being handled. -/
  rx : Option (Nat × Worker.Walk) := none
  /-- The last reading of the steady clock; readings do not decrease. -/
  clock : Int := 0
  /-- `now` and `nowSec` of the loop pass. -/
  now : Int := 0
  nowNs : Int := 0

/-- A datagram handed to `send()`, with the client and the clock at that moment. -/
structure Sent (K : Type*) (n : Nat) where
  worker : Fin n
  slot : Nat
  client : SimClient K
  bytes : Bytes
  time : Int

/-- What happened so far. No step reads it. -/
structure History (K : Type*) (n : Nat) where
  added : Fin n → List ClientCredentials := fun _ => []
  pushed : List (ControlRequest n) := []
  posted : List (ClientUpdate n) := []
  applied : List (Applied n) := []
  refreshed : List (Refreshed n) := []
  sent : List (Sent K n) := []

structure Sys (K : Type*) (n : Nat) where
  workers : Fin n → WorkerSt K n := fun _ => {}
  stats : Stats := {}
  queue : List (ControlRequest n) := []
  shutdown : Bool := false
  job : Option (Job n) := none
  exited : Bool := false
  legacyRefresh : Bool := false
  /-- Descriptors of client sockets open in the process. -/
  openSockets : Int := 0
  hist : History K n := {}

inductive Event (K : Type*) (n : Nat) where
  | addClient (w : Fin n) (creds : ClientCredentials) (activateAt : Int)
  | startWorker (w : Fin n)
  | stopWorker (w : Fin n)
  | applyPendingClients (w : Fin n)
  | takeInbox (w : Fin n)
  | applyUpdate (w : Fin n)
  | tick (w : Fin n) (now nowNs : Int)
  | activate (w : Fin n) (i : Nat) (draws : SimClient.Draws K) (outcome : Worker.OpenOutcome)
  | sendDue (w : Fin n) (i : Nat) (inputs : Worker.SendInputs K)
  | rxBegin (w : Fin n) (i : Nat) (rxNs nowMs : Int) (data : Bytes)
  | rxMember (w : Fin n) (readings : Worker.Readings)
  | rxEnd (w : Fin n)
  | pop
  | refresh (api : RefreshApi)
  | place (api : AssignApi)
  | post
  | shutdown
  | exit

namespace WorkerSt

variable {K : Type*} {n : Nat}

/-- The thread is in its loop and not inside `applyPendingUpdates` or a datagram. -/
def Idle (s : WorkerSt K n) : Prop := s.thread = .running ∧ s.updates = [] ∧ s.rx = none

instance (s : WorkerSt K n) : Decidable s.Idle := by
  unfold Idle
  cases s.rx <;> infer_instance

def setClient (s : WorkerSt K n) (i : Nat) (c : SimClient K) : WorkerSt K n :=
  { s with clients := s.clients.set i c }

end WorkerSt

namespace Sys

variable {K : Type*} {n : Nat}

def setWorker (s : Sys K n) (w : Fin n) (x : WorkerSt K n) : Sys K n :=
  { s with workers := Function.update s.workers w x }

def client? (s : Sys K n) (w : Fin n) (i : Nat) : Option (SimClient K) :=
  (s.workers w).clients[i]?

/-! History entries. -/

def logAdded (s : Sys K n) (w : Fin n) (creds : ClientCredentials) : Sys K n :=
  { s with hist.added := Function.update s.hist.added w (s.hist.added w ++ [creds]) }

def logPosted (s : Sys K n) (u : ClientUpdate n) : Sys K n :=
  { s with hist.posted := s.hist.posted ++ [u] }

def logApplied (s : Sys K n) (a : Applied n) : Sys K n :=
  { s with hist.applied := s.hist.applied ++ [a] }

def logRefreshed (s : Sys K n) (q : Refreshed n) : Sys K n :=
  { s with hist.refreshed := s.hist.refreshed ++ [q] }

/-- The request `suspendClient` or the proactive refresh pushes. -/
def request (s : Sys K n) (w : Fin n) (i : Nat) (suspension : Bool) (kind : Kind)
    (creds : ClientCredentials) : ControlRequest n where
  workerIndex := w
  clientIndex := i
  kind := kind
  creds := creds
  suspension := suspension
  ticket := s.hist.pushed.length

/-- One effect of worker `w` on its client `i`. -/
def effect (w : Fin n) (i : Nat) (s : Sys K n) : Effect K → Sys K n
  | .count c k => { s with stats := s.stats.fetchAdd k c }
  | .errorCode code => { s with stats := s.stats.addErrorCode code 1 }
  | .latency ms => { s with stats := s.stats.recordLatencyMs ms }
  | .activeClients d =>
    { s with stats := { s.stats with activeClients := s.stats.activeClients + d } }
  | .suspendedClients d =>
    { s with stats := { s.stats with suspendedClients := s.stats.suspendedClients + d } }
  | .socketOpened => { s with openSockets := s.openSockets + 1 }
  | .socketClosed => { s with openSockets := s.openSockets - 1 }
  | .push suspension kind creds =>
    let r := s.request w i suspension kind creds
    { s with queue := s.queue ++ [r], hist.pushed := s.hist.pushed ++ [r] }
  | .send client bytes =>
    let d : Sent K n := ⟨w, i, client, bytes, (s.workers w).clock⟩
    { s with hist.sent := s.hist.sent ++ [d] }

/-- Store the client a worker function left and let its effects happen. -/
def commit (s : Sys K n) (w : Fin n) (i : Nat) (o : Worker.Out K) : Sys K n :=
  o.2.foldl (effect w i) (s.setWorker w ((s.workers w).setClient i o.1))

/-- What no single effect changes is unchanged by all of them. -/
theorem effects_frame {β : Type*} (f : Sys K n → β) {w : Fin n} {i : Nat}
    (hf : ∀ s e, f (effect w i s e) = f s) (es : List (Effect K)) (s : Sys K n) :
    f (es.foldl (effect w i) s) = f s := by
  induction es generalizing s with
  | nil => rfl
  | cons e es ih => exact (ih _).trans (hf s e)

theorem commit_workers (s : Sys K n) (w : Fin n) (i : Nat) (o : Worker.Out K) :
    (s.commit w i o).workers = Function.update s.workers w ((s.workers w).setClient i o.1) :=
  effects_frame (·.workers) (fun _ e => by cases e <;> rfl) _ _

theorem commit_shutdown (s : Sys K n) (w : Fin n) (i : Nat) (o : Worker.Out K) :
    (s.commit w i o).shutdown = s.shutdown :=
  effects_frame (·.shutdown) (fun _ e => by cases e <;> rfl) _ _

theorem commit_exited (s : Sys K n) (w : Fin n) (i : Nat) (o : Worker.Out K) :
    (s.commit w i o).exited = s.exited :=
  effects_frame (·.exited) (fun _ e => by cases e <;> rfl) _ _

/-- The control thread's counters. -/
def tally (s : Sys K n) (cs : List Counter) : Sys K n :=
  { s with stats := cs.foldl (fun st c => st.fetchAdd 1 c) s.stats }

/-- `postUpdate`. -/
def post (s : Sys K n) (u : ClientUpdate n) : Sys K n :=
  let w := u.request.workerIndex
  (s.setWorker w { s.workers w with inbox := (s.workers w).inbox ++ [u] }).logPosted u

section Steps

variable [Field K] [LinearOrder K] [FloorRing K] (P : Platform K) (cfg : Config K)

def applyPendingClients (s : Sys K n) (w : Fin n) : Sys K n :=
  let x := s.workers w
  s.setWorker w
    { x with
      pending := []
      clients := x.clients ++ x.pending.map fun p => SimClient.fresh p.creds p.activateAt }

/-- One turn of the loop in `applyPendingUpdates`. -/
def applyUpdate (s : Sys K n) (w : Fin n) : Option (Sys K n) :=
  let x := s.workers w
  match x.updates with
  | [] => none
  | u :: rest =>
    (s.client? w u.clientIndex).map fun c =>
      let s := s.setWorker w { x with updates := rest }
      let s := s.logApplied ⟨w, u.clientIndex, c.creds.index, u⟩
      s.commit w u.clientIndex (Worker.applyUpdate cfg u.toUpdate c)

/-- A received datagram up to its member loop; one for a client that is not ACTIVE
is dropped. -/
def rxBegin (s : Sys K n) (w : Fin n) (i : Nat) (rxNs nowMs : Int) (data : Bytes) :
    Option (Sys K n) :=
  let x := s.workers w
  match x.clients[i]? with
  | none => none
  | some c =>
    if c.fd = none ∨ ¬ x.Idle ∨ rxNs < x.clock then none
    else if c.state ≠ .active then some s
    else
      let begun := Worker.beginDatagram P rxNs nowMs data c
      let s := s.setWorker w { x with clock := rxNs, rx := begun.2.map fun walk => (i, walk) }
      some (s.commit w i begun.1)

def rxMember (s : Sys K n) (w : Fin n) (t : Worker.Readings) : Option (Sys K n) :=
  let x := s.workers w
  match x.rx with
  | some (i, ⟨signedBundle, nowMs, m :: ms, ok⟩) =>
    x.clients[i]?.map fun c =>
      let s := s.setWorker w { x with rx := some (i, ⟨signedBundle, nowMs, ms, ok⟩) }
      s.commit w i (Worker.handleMember P cfg signedBundle nowMs t m c)
  | _ => none

def rxEnd (s : Sys K n) (w : Fin n) : Option (Sys K n) :=
  let x := s.workers w
  match x.rx with
  | some (i, ⟨_, _, [], ok⟩) =>
    x.clients[i]?.map fun c =>
      (s.setWorker w { x with rx := none }).commit w i (Worker.endDatagram ok c)
  | _ => none

def refresh (s : Sys K n) (api : RefreshApi) (j : Job n) : Sys K n :=
  let (legacy, j', cs) := j.refresh cfg s.legacyRefresh api
  let s := { s.tally cs with legacyRefresh := legacy, job := some j' }
  if j'.refreshed then
    s.logRefreshed
      ⟨j.request.workerIndex, j.request.clientIndex, Provisioner.tokenPair j'.creds⟩
  else s

def place (s : Sys K n) (attempt : Nat) (api : AssignApi) (j : Job n) : Sys K n :=
  let (j', cs) := j.place cfg s.shutdown attempt api
  { s.tally cs with job := some j' }

/-- `none` refuses an event the code cannot perform in this state. -/
def step (s : Sys K n) : Event K n → Option (Sys K n)
  | .addClient w creds activateAt =>
    let x := s.workers w
    let s := s.setWorker w { x with pending := x.pending ++ [⟨creds, activateAt⟩] }
    some (s.logAdded w creds)
  | .startWorker w =>
    if (s.workers w).thread = .notStarted ∧ ¬ s.shutdown then
      some (s.setWorker w { s.workers w with thread := .running })
    else none
  | .stopWorker w =>
    if (s.workers w).Idle ∨ (s.workers w).thread = .notStarted then
      some (s.setWorker w { s.workers w with thread := .stopped })
    else none
  | .applyPendingClients w =>
    if (s.workers w).Idle then some (s.applyPendingClients w) else none
  | .takeInbox w =>
    let x := s.workers w
    if x.Idle then some (s.setWorker w { x with updates := x.inbox, inbox := [] }) else none
  | .applyUpdate w => s.applyUpdate cfg w
  | .tick w now nowNs =>
    let x := s.workers w
    if x.Idle ∧ x.clock ≤ now ∧ now ≤ nowNs then
      some (s.setWorker w { x with clock := nowNs, now := now, nowNs := nowNs })
    else none
  | .activate w i draws outcome =>
    let x := s.workers w
    if x.Idle then
      x.clients[i]?.map fun c =>
        s.commit w i
          (Worker.activateDueClient P cfg x.now (steadySeconds x.nowNs) draws outcome c)
    else none
  | .sendDue w i inputs =>
    let x := s.workers w
    if x.Idle then
      x.clients[i]?.map fun c =>
        s.commit w i (Worker.sendDueUpdate P cfg (steadySeconds x.nowNs) inputs c)
    else none
  | .rxBegin w i rxNs nowMs data => s.rxBegin P w i rxNs nowMs data
  | .rxMember w readings => s.rxMember P cfg w readings
  | .rxEnd w => s.rxEnd w
  | .pop =>
    if s.exited ∨ s.job.isSome then none
    else
      match s.queue with
      | [] => none
      | r :: rest => some { s with queue := rest, job := some (Job.start r) }
  | .refresh api =>
    match s.job with
    | some j => if j.phase = .refreshing then some (s.refresh cfg api j) else none
    | none => none
  | .place api =>
    match s.job with
    | some j =>
      match j.phase with
      | .placing attempt => some (s.place cfg attempt api j)
      | _ => none
    | none => none
  | .post =>
    match s.job with
    | some j =>
      match j.phase with
      | .finished failed => some ({ s with job := none }.post (j.update failed))
      | _ => none
    | none => none
  | .shutdown =>
    -- `Harness::stop` has joined every worker before
    if ∀ w, (s.workers w).thread = .stopped then some { s with shutdown := true } else none
  | .exit =>
    if s.shutdown ∧ s.queue = [] ∧ s.job = none then some { s with exited := true } else none

/-- The steps, each with its guard. -/
inductive Steps (s : Sys K n) : Event K n → Sys K n → Prop
  | addClient {w : Fin n} {creds : ClientCredentials} {activateAt : Int} :
      Steps s (.addClient w creds activateAt)
        ((s.setWorker w { s.workers w with
          pending := (s.workers w).pending ++ [⟨creds, activateAt⟩] }).logAdded w creds)
  | startWorker {w : Fin n} (ht : (s.workers w).thread = .notStarted) (hs : ¬ s.shutdown) :
      Steps s (.startWorker w) (s.setWorker w { s.workers w with thread := .running })
  | stopWorker {w : Fin n} (ht : (s.workers w).Idle ∨ (s.workers w).thread = .notStarted) :
      Steps s (.stopWorker w) (s.setWorker w { s.workers w with thread := .stopped })
  | applyPendingClients {w : Fin n} (hi : (s.workers w).Idle) :
      Steps s (.applyPendingClients w) (s.applyPendingClients w)
  | takeInbox {w : Fin n} (hi : (s.workers w).Idle) :
      Steps s (.takeInbox w)
        (s.setWorker w { s.workers w with updates := (s.workers w).inbox, inbox := [] })
  | applyUpdate {w : Fin n} {u : ClientUpdate n} {rest : List (ClientUpdate n)}
      {c : SimClient K} (hu : (s.workers w).updates = u :: rest)
      (hc : s.client? w u.clientIndex = some c) :
      Steps s (.applyUpdate w)
        (((s.setWorker w { s.workers w with updates := rest }).logApplied
          ⟨w, u.clientIndex, c.creds.index, u⟩).commit w u.clientIndex
            (Worker.applyUpdate cfg u.toUpdate c))
  | tick {w : Fin n} {now nowNs : Int} (hi : (s.workers w).Idle)
      (hnow : (s.workers w).clock ≤ now) (hns : now ≤ nowNs) :
      Steps s (.tick w now nowNs)
        (s.setWorker w { s.workers w with clock := nowNs, now := now, nowNs := nowNs })
  | activate {w : Fin n} {i : Nat} {draws : SimClient.Draws K} {outcome : Worker.OpenOutcome}
      {c : SimClient K} (hi : (s.workers w).Idle) (hc : s.client? w i = some c) :
      Steps s (.activate w i draws outcome)
        (s.commit w i (Worker.activateDueClient P cfg (s.workers w).now
          (steadySeconds (s.workers w).nowNs) draws outcome c))
  | sendDue {w : Fin n} {i : Nat} {inputs : Worker.SendInputs K} {c : SimClient K}
      (hi : (s.workers w).Idle) (hc : s.client? w i = some c) :
      Steps s (.sendDue w i inputs)
        (s.commit w i (Worker.sendDueUpdate P cfg (steadySeconds (s.workers w).nowNs) inputs c))
  | rxDropped {w : Fin n} {i : Nat} {rxNs nowMs : Int} {data : Bytes} {c : SimClient K}
      (hc : s.client? w i = some c) (hfd : c.fd ≠ none) (hi : (s.workers w).Idle)
      (hk : (s.workers w).clock ≤ rxNs) (ha : c.state ≠ .active) :
      Steps s (.rxBegin w i rxNs nowMs data) s
  | rxBegin {w : Fin n} {i : Nat} {rxNs nowMs : Int} {data : Bytes} {c : SimClient K}
      (hc : s.client? w i = some c) (hfd : c.fd ≠ none) (hi : (s.workers w).Idle)
      (hk : (s.workers w).clock ≤ rxNs) (ha : c.state = .active) :
      Steps s (.rxBegin w i rxNs nowMs data)
        ((s.setWorker w { s.workers w with
          clock := rxNs
          rx := (Worker.beginDatagram P rxNs nowMs data c).2.map fun walk => (i, walk) }).commit
            w i (Worker.beginDatagram P rxNs nowMs data c).1)
  | rxMember {w : Fin n} {t : Worker.Readings} {i : Nat} {signedBundle : Bool} {nowMs : Int}
      {m : Bytes} {ms : List Bytes} {ok : Bool} {c : SimClient K}
      (hrx : (s.workers w).rx = some (i, ⟨signedBundle, nowMs, m :: ms, ok⟩))
      (hc : s.client? w i = some c) :
      Steps s (.rxMember w t)
        ((s.setWorker w { s.workers w with
          rx := some (i, ⟨signedBundle, nowMs, ms, ok⟩) }).commit w i
            (Worker.handleMember P cfg signedBundle nowMs t m c))
  | rxEnd {w : Fin n} {i : Nat} {signedBundle : Bool} {nowMs : Int} {ok : Bool}
      {c : SimClient K} (hrx : (s.workers w).rx = some (i, ⟨signedBundle, nowMs, [], ok⟩))
      (hc : s.client? w i = some c) :
      Steps s (.rxEnd w)
        ((s.setWorker w { s.workers w with rx := none }).commit w i (Worker.endDatagram ok c))
  | pop {r : ControlRequest n} {rest : List (ControlRequest n)} (he : ¬ s.exited)
      (hj : s.job = none) (hq : s.queue = r :: rest) :
      Steps s .pop { s with queue := rest, job := some (Job.start r) }
  | refresh {api : RefreshApi} {j : Job n} (hj : s.job = some j) (hp : j.phase = .refreshing) :
      Steps s (.refresh api) (s.refresh cfg api j)
  | place {api : AssignApi} {j : Job n} {attempt : Nat} (hj : s.job = some j)
      (hp : j.phase = .placing attempt) : Steps s (.place api) (s.place cfg attempt api j)
  | post {j : Job n} {failed : Bool} (hj : s.job = some j) (hp : j.phase = .finished failed) :
      Steps s .post ({ s with job := none }.post (j.update failed))
  | shutdown (ht : ∀ w, (s.workers w).thread = .stopped) :
      Steps s .shutdown { s with shutdown := true }
  | exit (hs : s.shutdown) (hq : s.queue = []) (hj : s.job = none) :
      Steps s .exit { s with exited := true }

variable {P cfg} {s s' : Sys K n}

theorem rxBegin_cases {w : Fin n} {i : Nat} {rxNs nowMs : Int} {data : Bytes}
    (h : s.rxBegin P w i rxNs nowMs data = some s') :
    Steps P cfg s (.rxBegin w i rxNs nowMs data) s' := by
  simp only [rxBegin] at h
  split at h
  · cases h
  · rename_i c hc
    split at h
    · cases h
    · rename_i hread
      simp only [not_or, not_not] at hread
      obtain ⟨hfd, hi, hk⟩ := hread
      split at h
      · rename_i ha
        exact Option.some.inj h ▸ .rxDropped hc hfd hi (not_lt.mp hk) ha
      · rename_i ha
        exact Option.some.inj h ▸ .rxBegin hc hfd hi (not_lt.mp hk) (not_not.mp ha)

/-- **What a step can do.** -/
theorem step_cases {e : Event K n} (h : s.step P cfg e = some s') : Steps P cfg s e s' := by
  cases e with
  | addClient w creds activateAt => exact Option.some.inj h ▸ .addClient
  | startWorker w =>
    obtain ⟨⟨ht, hs⟩, ⟨⟩⟩ := Option.ite_none_right_eq_some.mp h
    exact .startWorker ht hs
  | stopWorker w =>
    obtain ⟨ht, ⟨⟩⟩ := Option.ite_none_right_eq_some.mp h
    exact .stopWorker ht
  | applyPendingClients w =>
    obtain ⟨hi, ⟨⟩⟩ := Option.ite_none_right_eq_some.mp h
    exact .applyPendingClients hi
  | takeInbox w =>
    obtain ⟨hi, ⟨⟩⟩ := Option.ite_none_right_eq_some.mp h
    exact .takeInbox hi
  | applyUpdate w =>
    simp only [step, applyUpdate] at h
    split at h
    · cases h
    · rename_i u rest hu
      obtain ⟨c, hc, rfl⟩ := Option.map_eq_some_iff.mp h
      exact .applyUpdate hu hc
  | tick w now nowNs =>
    obtain ⟨⟨hi, hnow, hns⟩, ⟨⟩⟩ := Option.ite_none_right_eq_some.mp h
    exact .tick hi hnow hns
  | activate w i draws outcome =>
    obtain ⟨hi, h⟩ := Option.ite_none_right_eq_some.mp h
    obtain ⟨c, hc, rfl⟩ := Option.map_eq_some_iff.mp h
    exact .activate hi hc
  | sendDue w i inputs =>
    obtain ⟨hi, h⟩ := Option.ite_none_right_eq_some.mp h
    obtain ⟨c, hc, rfl⟩ := Option.map_eq_some_iff.mp h
    exact .sendDue hi hc
  | rxBegin w i rxNs nowMs data => exact rxBegin_cases h
  | rxMember w t =>
    simp only [step, rxMember] at h
    split at h
    · rename_i hrx
      obtain ⟨c, hc, rfl⟩ := Option.map_eq_some_iff.mp h
      exact .rxMember hrx hc
    · cases h
  | rxEnd w =>
    simp only [step, rxEnd] at h
    split at h
    · rename_i hrx
      obtain ⟨c, hc, rfl⟩ := Option.map_eq_some_iff.mp h
      exact .rxEnd hrx hc
    · cases h
  | pop =>
    obtain ⟨hn, h⟩ := Option.ite_none_left_eq_some.mp h
    obtain ⟨he, hj⟩ := not_or.mp hn
    split at h
    · cases h
    · rename_i r rest hq
      exact Option.some.inj h ▸ .pop he (Option.not_isSome_iff_eq_none.mp hj) hq
  | refresh api =>
    simp only [step] at h
    split at h
    · rename_i j hj
      obtain ⟨hp, ⟨⟩⟩ := Option.ite_none_right_eq_some.mp h
      exact .refresh hj hp
    · cases h
  | place api =>
    simp only [step] at h
    split at h
    · rename_i j hj
      split at h
      · rename_i attempt hp
        exact Option.some.inj h ▸ .place hj hp
      · cases h
    · cases h
  | post =>
    simp only [step] at h
    split at h
    · rename_i j hj
      split at h
      · rename_i failed hp
        exact Option.some.inj h ▸ .post hj hp
      · cases h
    · cases h
  | shutdown =>
    obtain ⟨ht, ⟨⟩⟩ := Option.ite_none_right_eq_some.mp h
    exact .shutdown ht
  | exit =>
    obtain ⟨⟨hs, hq, hj⟩, ⟨⟩⟩ := Option.ite_none_right_eq_some.mp h
    exact .exit hs hq hj

end Steps

end Sys

/-- The process from the start of `Harness::start` to the end of `Harness::stop`. -/
def system {K : Type*} [Field K] [LinearOrder K] [FloorRing K] (P : Platform K)
    (cfg : Config K) (n : Nat) : System (Sys K n) (Event K n) :=
  .ofPartial (fun s => s = {}) (Sys.step P cfg)

/-! A process that can be executed: one worker, and a client whose token has expired. -/
namespace Sample

def platform : Platform ℚ where
  hmacSha256 _ _ := some (List.replicate Hmac.TAG_SIZE 0)
  behindToken _ _ := 0
  f64 _ := .replicate 8 0
  f32 _ := .replicate 4 0
  sqrt x := x
  atan2 _ _ := 0
  inetPton _ := some 0

def config : Config ℚ := { walkSpeed := -1, chunkSizeUnits := -1 }

def draws : SimClient.Draws ℚ := ⟨0, 0, 0, 0, 0, ⟨1, 0, 0⟩, 0, 0, 0, 0⟩

def token (octet : UInt8) : Bytes := List.replicate Hmac.TOKEN_OCTETS octet

def creds : ClientCredentials :=
  { appToken := token 97, gameTokenId := 1, serverIp4 := "10.0.0.1", serverPort := 7000 }

def fresh : RefreshReply :=
  { token := some (token 98), gameTokenId := some 2, expiresAt := some 1000000000000000000 }

def server : ServerReply := { ip4 := some "10.0.0.1", clientPort := some 7000 }

def refresh (reply : RefreshReply) : Event ℚ 1 :=
  .refresh { current := fun _ => .ok reply, legacy := fun _ => .ok reply, now := 5 }

def place : Event ℚ 1 := .place { assign := fun _ => .ok server, now := 5 }

def refreshFails : Event ℚ 1 :=
  .refresh { current := fun _ => .error {}, legacy := fun _ => .error {}, now := 5 }

/-- The client is added and becomes ACTIVE. -/
def started : List (Event ℚ 1) :=
  [.addClient 0 creds 0, .startWorker 0, .applyPendingClients 0, .tick 0 1 1,
    .activate 0 0 draws ⟨true, true, true, true⟩]

/-- Its first send asks for a refresh. -/
def sends : Event ℚ 1 := .sendDue 0 0 ⟨0, 0, draws, true, true⟩

/-- A datagram with one message. -/
def receives (message : Bytes) : List (Event ℚ 1) :=
  [.rxBegin 0 0 2 0 message, .rxMember 0 ⟨3, 3⟩, .rxEnd 0]

def tokenError : Bytes := [Wire.GENERIC_ERROR_MESSAGE, 0, Wire.ERR_INVALID_TOKEN]

/-- The worker takes its inbox and applies so many updates. -/
def applies (k : Nat) : List (Event ℚ 1) := .takeInbox 0 :: List.replicate k (.applyUpdate 0)

end Sample

end CksLoadtest.Protocol
