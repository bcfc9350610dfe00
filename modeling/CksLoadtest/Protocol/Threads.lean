import CksLoadtest.Protocol.Atoms
import CksLoadtest.Protocol.Refinement

/-!
# The loop of a worker

`Worker::run` and the loops it calls, as the place its thread has reached: which event it performs
next, and where it goes from there. All threads run at once; what the kernel, the clocks and the
random draws answer is given with each step.
-/
namespace CksLoadtest.Protocol

open Lib.Buffer Lib.Transition

/-- What `recv` returns. -/
inductive Received where
  | data (rxNs nowMs : Int) (bytes : Bytes)
  /-- ECONNREFUSED: the datagram was lost. -/
  | refused
  /-- Any other error. -/
  | drained

/-- The clock at a datagram. -/
def Received.clock (before : Int) : Received → Int
  | .data rxNs _ _ => rxNs
  | _ => before

/-- What the outside answers to a step of a worker; a step takes what it asks for. -/
structure Answers (K : Type*) where
  now : Int
  nowNs : Int
  draws : SimClient.Draws K
  outcome : Worker.OpenOutcome
  inputs : Worker.SendInputs K
  /-- `events[i].data.u32` of `epoll_wait`. -/
  slots : List Nat
  received : Received
  readings : Worker.Readings

/-- Where a worker's thread is. -/
inductive Place where
  /-- At the test of `running_`. -/
  | loop
  | inbox
  | updates
  | clock
  | activating (i : Nat)
  | sending (i : Nat)
  | waiting
  /-- In `drainSocket` of the first slot, with the rest of the events. -/
  | draining (slots : List Nat)
  /-- In `handleDatagram` of a client of `drainSocket`. -/
  | handling (slot : Nat) (rest : List Nat)
  deriving DecidableEq

/-- A client is looked at by one of the two loops of a pass. -/
inductive Offer where
  | activation (i : Nat)
  | send (i : Nat)
  deriving DecidableEq

/-- The activations of the first clients. -/
def activations (k : Nat) : List Offer := (List.range k).map .activation

def sends (k : Nat) : List Offer := (List.range k).map .send

/-- What one pass looks at: every client twice, in the order of the slots. -/
def pass (k : Nat) : List Offer := activations k ++ sends k

@[simp] theorem activations_succ (k : Nat) :
    activations (k + 1) = activations k ++ [.activation k] := by
  unfold activations
  rw [List.range_succ, List.map_append]
  rfl

@[simp] theorem sends_succ (k : Nat) : sends (k + 1) = sends k ++ [.send k] := by
  unfold sends
  rw [List.range_succ, List.map_append]
  rfl

variable {K : Type*} {n : Nat}

namespace WorkerSt

/-- Neither inside `applyPendingUpdates` nor inside a datagram. -/
def Quiet (x : WorkerSt K n) : Prop := x.updates = [] ∧ x.rx = none

/-- The same for a worker's loop. -/
structure SameLoop (x y : WorkerSt K n) : Prop where
  updates : y.updates = x.updates
  rx : y.rx = x.rx
  clients : y.clients.length = x.clients.length

theorem SameLoop.refl (x : WorkerSt K n) : SameLoop x x := ⟨rfl, rfl, rfl⟩

end WorkerSt

namespace Place

/-- The next event of worker `w`, if there is one to perform, and where the thread goes; `none`
is an access outside `clients_`. -/
def next (s : Sys K n) (w : Fin n) (a : Answers K) : Place → Option (Option (Event K n) × Place)
  | loop => some (some (.applyPendingClients w), inbox)
  | inbox => some (some (.takeInbox w), updates)
  | updates =>
    match (s.workers w).updates with
    | [] => some (none, clock)
    | u :: _ =>
      (s.client? w u.clientIndex).map fun _ => (some (.applyUpdate w), updates)
  | clock => some (some (.tick w a.now a.nowNs), activating 0)
  | activating i =>
    if i < (s.workers w).clients.length then
      some (some (.activate w i a.draws a.outcome), activating (i + 1))
    else some (none, sending 0)
  | sending i =>
    if i < (s.workers w).clients.length then
      some (some (.sendDue w i a.inputs), sending (i + 1))
    else some (none, waiting)
  | waiting => some (none, draining a.slots)
  | draining [] => some (none, loop)
  | draining (slot :: rest) =>
    (s.client? w slot).map fun c =>
      if c.fd = none then (none, draining rest)
      else
        match a.received with
        | .drained => (none, draining rest)
        | .refused => (none, draining (slot :: rest))
        | .data rxNs nowMs bytes => (some (.rxBegin w slot rxNs nowMs bytes), handling slot rest)
  | handling slot rest =>
    match (s.workers w).rx with
    | none => some (none, draining (slot :: rest))
    | some (i, ⟨_, _, [], _⟩) =>
      (s.client? w i).map fun _ => (some (.rxEnd w), draining (slot :: rest))
    | some (i, ⟨_, _, _ :: _, _⟩) =>
      (s.client? w i).map fun _ => (some (.rxMember w a.readings), handling slot rest)

/-- What the thread relies on at each place. -/
def Holds (x : WorkerSt K n) (offers : List Offer) : Place → Prop
  | loop | inbox | clock => x.Quiet
  | updates => x.rx = none
  | activating i => x.Quiet ∧ i ≤ x.clients.length ∧ offers = activations i
  | sending i =>
    x.Quiet ∧ i ≤ x.clients.length ∧ offers = activations x.clients.length ++ sends i
  | waiting => x.Quiet ∧ offers = pass x.clients.length
  | draining slots => x.Quiet ∧ ∀ j ∈ slots, j < x.clients.length
  | handling slot rest =>
    x.updates = [] ∧ (∀ p ∈ x.rx, p.1 = slot) ∧ ∀ j ∈ slot :: rest, j < x.clients.length

theorem Holds.same {x y : WorkerSt K n} {offers : List Offer} {p : Place}
    (h : p.Holds x offers) (hs : x.SameLoop y) : p.Holds y offers := by
  have hquiet : x.Quiet → y.Quiet := fun hq => ⟨hs.updates.trans hq.1, hs.rx.trans hq.2⟩
  cases p with
  | loop | inbox | clock => exact hquiet h
  | updates => exact hs.rx.trans h
  | activating i => exact ⟨hquiet h.1, hs.clients ▸ h.2.1, h.2.2⟩
  | sending i => exact ⟨hquiet h.1, hs.clients ▸ h.2.1, hs.clients ▸ h.2.2⟩
  | waiting => exact ⟨hquiet h.1, hs.clients ▸ h.2⟩
  | draining slots => exact ⟨hquiet h.1, fun j hj => hs.clients ▸ h.2 j hj⟩
  | handling slot rest =>
    exact ⟨hs.updates.trans h.1, hs.rx ▸ h.2.1, fun j hj => hs.clients ▸ h.2.2 j hj⟩

end Place

/-- The kernel reports sockets that are open, and clocks do not go back. -/
def Answers.Possible (s : Sys K n) (w : Fin n) (a : Answers K) : Prop :=
  (s.workers w).clock ≤ a.now ∧ a.now ≤ a.nowNs ∧
    (∀ i ∈ a.slots, ((s.client? w i).bind (·.fd)).isSome = true) ∧
    (s.workers w).clock ≤ a.received.clock (s.workers w).clock

instance (s : Sys K n) (w : Fin n) (a : Answers K) : Decidable (a.Possible s w) :=
  inferInstanceAs (Decidable (_ ∧ _))

/-- All threads, with the place of each worker. -/
structure Threads (K : Type*) (n : Nat) where
  sys : Sys K n := {}
  place : Fin n → Place := fun _ => .loop
  /-- History: the clients looked at since the clock was read. -/
  offers : Fin n → List Offer := fun _ => []

inductive Threads.Event (K : Type*) (n : Nat) where
  | worker (w : Fin n) (a : Answers K)
  /-- `stop` joins the thread, which leaves its loop at the test of `running_`. -/
  | stop (w : Fin n)
  /-- A section of the main or of the control thread. -/
  | other (e : Protocol.Event K n)

/-- What an event adds to the clients looked at. -/
def offersAfter (offers : List Offer) : Option (Event K n) → List Offer
  | some (.tick ..) => []
  | some (.activate _ i _ _) => offers ++ [.activation i]
  | some (.sendDue _ i _) => offers ++ [.send i]
  | _ => offers

section

variable [Field K] [LinearOrder K] [FloorRing K] (P : Platform K) (cfg : Config K)

/-- The event of a step, where it has one. -/
def Sys.perform (s : Sys K n) : Option (Event K n) → Option (Sys K n)
  | none => some s
  | some e => s.step P cfg e

namespace Threads

/-- A worker that runs performs the next event of its loop. -/
def work (s : Threads K n) (w : Fin n) (a : Answers K) : Option (Threads K n) :=
  if (s.sys.workers w).thread = .running then
    ((s.place w).next s.sys w a).bind fun next =>
      (s.sys.perform P cfg next.1).map fun sys =>
        { sys := sys
          place := Function.update s.place w next.2
          offers := Function.update s.offers w (offersAfter (s.offers w) next.1) }
  else none

def step (s : Threads K n) : Event K n → Option (Threads K n)
  | .worker w a => if a.Possible s.sys w then s.work P cfg w a else none
  | .stop w =>
    if s.place w = .loop then
      (s.sys.step P cfg (.stopWorker w)).map fun sys => { s with sys := sys }
    else none
  | .other e =>
    match e.thread? with
    | some (some _) => none
    | _ => (s.sys.step P cfg e).map fun sys => { s with sys := sys }

def system (n : Nat) : System (Threads K n) (Event K n) := .ofPartial (· = {}) (step P cfg)

end Threads

end

/-! ## What the sections leave alone -/

namespace Sys

theorem worker_setWorker (s : Sys K n) (w : Fin n) (x : WorkerSt K n) :
    (s.setWorker w x).workers w = x := Function.update_self ..

/-- What is left of the worker when its function has run on a client. -/
theorem commit_worker {s t : Sys K n} {w : Fin n} {i : Nat} {o : Worker.Out K} {x : WorkerSt K n}
    (ht : t.workers = Function.update s.workers w x) :
    (t.commit w i o).workers = Function.update s.workers w (x.setClient i o.1) := by
  rw [commit_workers, ht, Function.update_self, Function.update_idem]

variable [Field K] [LinearOrder K] [FloorRing K] {P : Platform K} {cfg : Config K}
  {s s' : Sys K n} {w : Fin n} {e : Event K n}

theorem perform_cases {e : Event K n} (h : s.perform P cfg (some e) = some s') :
    Steps P cfg s e s' := step_cases h

/-- **Step lemma.** A section of a worker changes that worker only. -/
theorem own_step (h : s.step P cfg e = some s') (he : e.thread? = some (some w)) :
    ∃ x, s'.workers = Function.update s.workers w x ∧
      (x.thread = (s.workers w).thread ∨ e = .stopWorker w) := by
  cases step_cases h with
  | stopWorker =>
    cases he
    exact ⟨_, rfl, .inr rfl⟩
  | applyPendingClients | takeInbox | tick =>
    cases he
    exact ⟨_, rfl, .inl rfl⟩
  | applyUpdate | rxBegin | rxMember | rxEnd =>
    cases he
    exact ⟨_, commit_worker rfl, .inl rfl⟩
  | activate | sendDue =>
    cases he
    exact ⟨_, commit_workers .., .inl rfl⟩
  | rxDropped => exact ⟨s.workers w, (Function.update_eq_self ..).symm, .inl rfl⟩
  | addClient | startWorker | pop | refresh | place | post | shutdown | exit => cases he

/-- **Step lemma.** The sections of the other threads leave a worker's loop alone. -/
theorem other_step (h : s.step P cfg e = some s') (he : ∀ v, e.thread? ≠ some (some v)) :
    (s.workers w).SameLoop (s'.workers w) ∧
      ((s'.workers w).thread = (s.workers w).thread ∨ (s'.workers w).thread = .running) := by
  have hset (t : Sys K n) (v : Fin n) (x : WorkerSt K n) (ht : t.workers = s.workers)
      (hx : (s.workers v).SameLoop x)
      (hr : x.thread = (s.workers v).thread ∨ x.thread = .running) :
      (s.workers w).SameLoop ((t.setWorker v x).workers w) ∧
        (((t.setWorker v x).workers w).thread = (s.workers w).thread ∨
          ((t.setWorker v x).workers w).thread = .running) := by
    have hw : (t.setWorker v x).workers = Function.update s.workers v x := ht ▸ rfl
    rw [hw]
    by_cases hv : w = v
    · subst hv
      rw [Function.update_self]
      exact ⟨hx, hr⟩
    · rw [Function.update_of_ne hv]
      exact ⟨.refl _, .inl rfl⟩
  cases step_cases h with
  | addClient => exact hset s _ _ rfl ⟨rfl, rfl, rfl⟩ (.inl rfl)
  | startWorker => exact hset s _ _ rfl ⟨rfl, rfl, rfl⟩ (.inr rfl)
  | post => exact hset { s with job := none } _ _ rfl ⟨rfl, rfl, rfl⟩ (.inl rfl)
  | refresh =>
    unfold refresh
    dsimp only
    split
    · exact ⟨.refl _, .inl rfl⟩
    · exact ⟨.refl _, .inl rfl⟩
  | place | pop | shutdown | exit => exact ⟨.refl _, .inl rfl⟩
  | stopWorker | applyPendingClients | takeInbox | applyUpdate | tick | activate | sendDue
  | rxDropped | rxBegin | rxMember | rxEnd => exact absurd rfl (he _)

end Sys

/-! ## One step of the loop -/

namespace Place

section

variable {s : Sys K n} {w : Fin n} {a : Answers K} {p p' : Place} {e : Option (Event K n)}

/-- The ways the loop goes on, each with its condition. -/
inductive Next (s : Sys K n) (w : Fin n) (a : Answers K) : Place → Option (Event K n) → Place → Prop
  | loop : Next s w a loop (some (.applyPendingClients w)) inbox
  | inbox : Next s w a inbox (some (.takeInbox w)) updates
  | updated (h : (s.workers w).updates = []) : Next s w a updates none clock
  | update : Next s w a updates (some (.applyUpdate w)) updates
  | clock : Next s w a clock (some (.tick w a.now a.nowNs)) (activating 0)
  | activate {i : Nat} (h : i < (s.workers w).clients.length) :
      Next s w a (activating i) (some (.activate w i a.draws a.outcome)) (activating (i + 1))
  | activated {i : Nat} (h : ¬ i < (s.workers w).clients.length) :
      Next s w a (activating i) none (sending 0)
  | send {i : Nat} (h : i < (s.workers w).clients.length) :
      Next s w a (sending i) (some (.sendDue w i a.inputs)) (sending (i + 1))
  | sent {i : Nat} (h : ¬ i < (s.workers w).clients.length) : Next s w a (sending i) none waiting
  | waited : Next s w a waiting none (draining a.slots)
  | drained : Next s w a (draining []) none loop
  | left {slot : Nat} {rest : List Nat} : Next s w a (draining (slot :: rest)) none (draining rest)
  | lost {slot : Nat} {rest : List Nat} :
      Next s w a (draining (slot :: rest)) none (draining (slot :: rest))
  | received {slot : Nat} {rest : List Nat} {rxNs nowMs : Int} {bytes : Bytes} :
      Next s w a (draining (slot :: rest)) (some (.rxBegin w slot rxNs nowMs bytes))
        (handling slot rest)
  | handled {slot : Nat} {rest : List Nat} (h : (s.workers w).rx = none) :
      Next s w a (handling slot rest) none (draining (slot :: rest))
  | member {slot : Nat} {rest : List Nat} :
      Next s w a (handling slot rest) (some (.rxMember w a.readings)) (handling slot rest)
  | ended {slot : Nat} {rest : List Nat} :
      Next s w a (handling slot rest) (some (.rxEnd w)) (draining (slot :: rest))

/-- **How the loop goes on.** -/
theorem next_cases (h : p.next s w a = some (e, p')) : Next s w a p e p' := by
  cases p with
  | loop =>
    cases h
    exact .loop
  | inbox =>
    cases h
    exact .inbox
  | updates =>
    simp only [next] at h
    split at h
    · rename_i hu
      cases h
      exact .updated hu
    · obtain ⟨_, -, ⟨⟩⟩ := Option.map_eq_some_iff.mp h
      exact .update
  | clock =>
    cases h
    exact .clock
  | activating i =>
    simp only [next] at h
    split at h
    · rename_i hi
      cases h
      exact .activate hi
    · rename_i hi
      cases h
      exact .activated hi
  | sending i =>
    simp only [next] at h
    split at h
    · rename_i hi
      cases h
      exact .send hi
    · rename_i hi
      cases h
      exact .sent hi
  | waiting =>
    cases h
    exact .waited
  | draining slots =>
    cases slots with
    | nil =>
      cases h
      exact .drained
    | cons slot rest =>
      obtain ⟨c, -, h⟩ := Option.map_eq_some_iff.mp h
      split at h
      · cases h
        exact .left
      · split at h
        · cases h
          exact .left
        · cases h
          exact .lost
        · cases h
          exact .received
  | handling slot rest =>
    simp only [next] at h
    split at h
    · rename_i hrx
      cases h
      exact .handled hrx
    · obtain ⟨_, -, ⟨⟩⟩ := Option.map_eq_some_iff.mp h
      exact .ended
    · obtain ⟨_, -, ⟨⟩⟩ := Option.map_eq_some_iff.mp h
      exact .member

/-- The sections of the loop are the worker's own. -/
theorem Next.thread (h : Next s w a p e p') :
    ∀ ev ∈ e, ev.thread? = some (some w) ∧ ev ≠ .stopWorker w := by
  intro ev hev
  cases h <;> cases hev <;> exact ⟨rfl, nofun⟩

end

section

variable [Field K] [LinearOrder K] [FloorRing K] {P : Platform K} {cfg : Config K}
  {s s' : Sys K n} {w : Fin n} {a : Answers K} {p p' : Place} {e : Option (Event K n)}
  {offers : List Offer}

/-- **Step lemma.** What the thread relies on holds at the next place. -/
theorem Next.holds (h : Next s w a p e p') (hp : p.Holds (s.workers w) offers)
    (ha : a.Possible s w) (hs : s.perform P cfg e = some s') :
    p'.Holds (s'.workers w) (offersAfter offers e) := by
  have hlen (x : WorkerSt K n) (i : Nat) (c : SimClient K) :
      (x.setClient i c).clients.length = x.clients.length := List.length_set ..
  cases h with
  | loop =>
    cases Sys.perform_cases hs with
    | applyPendingClients =>
      unfold Sys.applyPendingClients
      rw [Sys.worker_setWorker]
      exact hp
  | inbox =>
    cases Sys.perform_cases hs with
    | takeInbox =>
      rw [Sys.worker_setWorker]
      exact hp.2
  | updated hu =>
    cases hs
    exact ⟨hu, hp⟩
  | update =>
    cases Sys.perform_cases hs with
    | applyUpdate =>
      rw [Sys.commit_worker rfl, Function.update_self]
      exact hp
  | clock =>
    cases Sys.perform_cases hs with
    | tick =>
      rw [Sys.worker_setWorker]
      exact ⟨hp, Nat.zero_le _, rfl⟩
  | activate hi =>
    cases Sys.perform_cases hs with
    | activate =>
      obtain ⟨hq, -, rfl⟩ := hp
      rw [Sys.commit_workers, Function.update_self]
      refine ⟨hq, ?_, (activations_succ _).symm⟩
      rw [hlen]
      exact hi
  | activated hi =>
    cases hs
    obtain ⟨hq, hle, rfl⟩ := hp
    refine ⟨hq, Nat.zero_le _, ?_⟩
    rw [le_antisymm hle (not_lt.mp hi)]
    exact (List.append_nil _).symm
  | send hi =>
    cases Sys.perform_cases hs with
    | sendDue =>
      obtain ⟨hq, -, rfl⟩ := hp
      rw [Sys.commit_workers, Function.update_self]
      refine ⟨hq, ?_, ?_⟩
      · rw [hlen]
        exact hi
      · rw [hlen, sends_succ, ← List.append_assoc]
        rfl
  | sent hi =>
    cases hs
    obtain ⟨hq, hle, rfl⟩ := hp
    refine ⟨hq, ?_⟩
    rw [le_antisymm hle (not_lt.mp hi)]
    rfl
  | waited =>
    cases hs
    refine ⟨hp.1, fun j hj => ?_⟩
    obtain ⟨c, hc, -⟩ := Option.bind_eq_some_iff.mp
      (Option.isSome_iff_exists.mp (ha.2.2.1 j hj)).choose_spec
    exact (List.getElem?_eq_some_iff.mp hc).1
  | drained =>
    cases hs
    exact hp.1
  | left =>
    cases hs
    exact ⟨hp.1, fun j hj => hp.2 j (List.mem_cons_of_mem _ hj)⟩
  | lost =>
    cases hs
    exact hp
  | received =>
    cases Sys.perform_cases hs with
    | rxDropped =>
      refine ⟨hp.1.1, ?_, hp.2⟩
      rw [hp.1.2]
      exact fun p hp => nomatch hp
    | rxBegin =>
      rw [Sys.commit_worker rfl, Function.update_self]
      refine ⟨hp.1.1, fun q hq => ?_, fun j hj => ?_⟩
      · obtain ⟨walk, -, rfl⟩ := Option.map_eq_some_iff.mp hq
        rfl
      · rw [hlen]
        exact hp.2 j hj
  | handled hrx =>
    cases hs
    exact ⟨⟨hp.1, hrx⟩, hp.2.2⟩
  | member =>
    cases Sys.perform_cases hs with
    | rxMember hrx =>
      rw [Sys.commit_worker rfl, Function.update_self]
      refine ⟨hp.1, fun q hq => ?_, fun j hj => ?_⟩
      · cases hq
        have hslot := hp.2.1 _ hrx
        exact hslot
      · rw [hlen]
        exact hp.2.2 j hj
  | ended =>
    cases Sys.perform_cases hs with
    | rxEnd =>
      rw [Sys.commit_worker rfl, Function.update_self]
      refine ⟨⟨hp.1, rfl⟩, fun j hj => ?_⟩
      rw [hlen]
      exact hp.2.2 j hj

/-- **Progress.** The thread never stands before an event it cannot perform. -/
theorem Holds.next (hp : p.Holds (s.workers w) offers) (hr : (s.workers w).thread = .running)
    (hu : ∀ u ∈ (s.workers w).updates, u.clientIndex < (s.workers w).clients.length)
    (ha : a.Possible s w) :
    ∃ e p', p.next s w a = some (e, p') ∧ (s.perform P cfg e).isSome = true := by
  have hidle : (s.workers w).Quiet → (s.workers w).Idle := fun hq => ⟨hr, hq⟩
  have hclient : ∀ j < (s.workers w).clients.length, ∃ c,
      s.client? w j = some c ∧ (s.workers w).clients[j]? = some c := fun j hj =>
    ⟨_, List.getElem?_eq_getElem hj, List.getElem?_eq_getElem hj⟩
  cases p with
  | loop =>
    refine ⟨_, _, rfl, ?_⟩
    simp only [Sys.perform, Sys.step, if_pos (hidle hp), Option.isSome_some]
  | inbox =>
    refine ⟨_, _, rfl, ?_⟩
    simp only [Sys.perform, Sys.step, if_pos (hidle hp), Option.isSome_some]
  | updates =>
    cases hup : (s.workers w).updates with
    | nil => exact ⟨none, clock, by simp only [next, hup], rfl⟩
    | cons u rest =>
      obtain ⟨c, hc, -⟩ := hclient u.clientIndex (hu u (hup ▸ List.mem_cons_self ..))
      refine ⟨some (.applyUpdate w), updates, ?_, ?_⟩
      · simp only [next, hup, hc, Option.map_some]
      · simp only [Sys.perform, Sys.step, Sys.applyUpdate, hup, hc, Option.map_some,
          Option.isSome_some]
  | clock =>
    refine ⟨_, _, rfl, ?_⟩
    have hguard : (s.workers w).Idle ∧ (s.workers w).clock ≤ a.now ∧ a.now ≤ a.nowNs :=
      ⟨hidle hp, ha.1, ha.2.1⟩
    simp only [Sys.perform, Sys.step, if_pos hguard, Option.isSome_some]
  | activating i =>
    by_cases hi : i < (s.workers w).clients.length
    · obtain ⟨c, -, hc⟩ := hclient i hi
      refine ⟨_, _, if_pos hi, ?_⟩
      simp only [Sys.perform, Sys.step, if_pos (hidle hp.1), hc, Option.map_some,
        Option.isSome_some]
    · exact ⟨_, _, if_neg hi, rfl⟩
  | sending i =>
    by_cases hi : i < (s.workers w).clients.length
    · obtain ⟨c, -, hc⟩ := hclient i hi
      refine ⟨_, _, if_pos hi, ?_⟩
      simp only [Sys.perform, Sys.step, if_pos (hidle hp.1), hc, Option.map_some,
        Option.isSome_some]
    · exact ⟨_, _, if_neg hi, rfl⟩
  | waiting => exact ⟨_, _, rfl, rfl⟩
  | draining slots =>
    cases slots with
    | nil => exact ⟨_, _, rfl, rfl⟩
    | cons slot rest =>
      obtain ⟨c, hc, hslot⟩ := hclient slot (hp.2 slot (List.mem_cons_self ..))
      by_cases hfd : c.fd = none
      · refine ⟨none, draining rest, ?_, rfl⟩
        simp only [next, hc, Option.map_some, if_pos hfd]
      · have hclock := ha.2.2.2
        cases hrec : a.received with
        | drained =>
          refine ⟨none, draining rest, ?_, rfl⟩
          simp only [next, hc, Option.map_some, if_neg hfd, hrec]
        | refused =>
          refine ⟨none, draining (slot :: rest), ?_, rfl⟩
          simp only [next, hc, Option.map_some, if_neg hfd, hrec]
        | data rxNs nowMs bytes =>
          rw [hrec] at hclock
          have hread : ¬ (c.fd = none ∨ ¬ (s.workers w).Idle ∨ rxNs < (s.workers w).clock) := by
            rw [not_or, not_or, not_not]
            exact ⟨hfd, hidle hp.1, not_lt.mpr hclock⟩
          refine ⟨some (.rxBegin w slot rxNs nowMs bytes), handling slot rest, ?_, ?_⟩
          · simp only [next, hc, Option.map_some, if_neg hfd, hrec]
          · simp only [Sys.perform, Sys.step, Sys.rxBegin, hslot, if_neg hread]
            split <;> rfl
  | handling slot rest =>
    obtain ⟨c, hc, hslot⟩ := hclient slot (hp.2.2 slot (List.mem_cons_self ..))
    cases hrx : (s.workers w).rx with
    | none => exact ⟨none, draining (slot :: rest), by simp only [next, hrx], rfl⟩
    | some q =>
      obtain ⟨i, signedBundle, nowMs, ms, ok⟩ := q
      obtain rfl : i = slot := hp.2.1 _ hrx
      cases ms with
      | nil =>
        refine ⟨some (.rxEnd w), draining (i :: rest), ?_, ?_⟩
        · simp only [next, hrx, hc, Option.map_some]
        · simp only [Sys.perform, Sys.step, Sys.rxEnd, hrx, hslot, Option.map_some,
            Option.isSome_some]
      | cons m ms =>
        refine ⟨some (.rxMember w a.readings), handling i rest, ?_, ?_⟩
        · simp only [next, hrx, hc, Option.map_some]
        · simp only [Sys.perform, Sys.step, Sys.rxMember, hrx, hslot, Option.map_some,
            Option.isSome_some]

end

end Place

/-! ## Every run of all threads -/

section

variable [Field K] [LinearOrder K] [FloorRing K] {P : Platform K} {cfg : Config K}

/-- An update in the hands of a worker names a client there is. -/
theorem Sys.update_in_range {s : Sys K n} (h : (Protocol.system P cfg n).Reach s) {w : Fin n}
    {u : ClientUpdate n} (hu : u ∈ (s.workers w).updates) :
    u.clientIndex < (s.workers w).clients.length := by
  have hsound := Exchange.sound_of_reach (Sys.exchange_reach (H := fun _ _ => True) P cfg
    (fun _ _ _ => trivial) h)
  obtain ⟨hposted, hw⟩ := hsound.account.mem_updates (w := w) (.inl hu)
  have hrange := (hsound.placed.pushed _ (hsound.account.mem_pushed (.inl ⟨u, hposted, rfl⟩))).1
  rw [hw] at hrange
  unfold Exchange.InRange Sys.exchange at hrange
  rw [List.length_map] at hrange
  exact hrange

namespace Threads

/-- What holds between any two events of the threads. -/
structure Inv (P : Platform K) (cfg : Config K) (s : Threads K n) : Prop where
  reach : (Protocol.system P cfg n).Reach s.sys
  rest : ∀ w, (s.sys.workers w).thread ≠ .running → s.place w = .loop
  holds : ∀ w, (s.place w).Holds (s.sys.workers w) (s.offers w)

/-- A step of the loop of worker `w`. -/
theorem Inv.work {s s' : Threads K n} (h : Inv P cfg s) {w : Fin n} {a : Answers K}
    (ha : a.Possible s.sys w) (hs : s.work P cfg w a = some s') : Inv P cfg s' := by
  obtain ⟨hr, hs⟩ := Option.ite_none_right_eq_some.mp hs
  obtain ⟨⟨e, p⟩, hn, hs⟩ := Option.bind_eq_some_iff.mp hs
  obtain ⟨sys, hsys, rfl⟩ := Option.map_eq_some_iff.mp hs
  have hnext := Place.next_cases hn
  have hholds := hnext.holds (h.holds w) ha hsys
  obtain ⟨x, hx, hthread, hreach⟩ : ∃ x, sys.workers = Function.update s.sys.workers w x ∧
      x.thread = .running ∧ (Protocol.system P cfg n).Reach sys := by
    cases e with
    | none =>
      obtain rfl := Option.some.inj hsys
      exact ⟨_, (Function.update_eq_self ..).symm, hr, h.reach⟩
    | some ev =>
      obtain ⟨hown, hstop⟩ := hnext.thread ev rfl
      obtain ⟨x, hx, hxt⟩ := Sys.own_step hsys hown
      exact ⟨x, hx, (hxt.resolve_right hstop).trans hr, h.reach.step hsys⟩
  refine ⟨hreach, fun v hv => ?_, fun v => ?_⟩
  · by_cases hvw : v = w
    · subst hvw
      rw [hx, Function.update_self] at hv
      exact absurd hthread hv
    · rw [hx, Function.update_of_ne hvw] at hv
      exact (Function.update_of_ne hvw ..).trans (h.rest v hv)
  · by_cases hvw : v = w
    · subst hvw
      simp only [Function.update_self]
      exact hholds
    · simp only [hx, Function.update_of_ne hvw]
      exact h.holds v

/-- **Step lemma.** -/
theorem Inv.step {s s' : Threads K n} (h : Inv P cfg s) {e : Event K n}
    (hs : s.step P cfg e = some s') : Inv P cfg s' := by
  cases e with
  | worker w a =>
    obtain ⟨ha, hs⟩ := Option.ite_none_right_eq_some.mp hs
    exact h.work ha hs
  | stop w =>
    obtain ⟨hplace, hs⟩ := Option.ite_none_right_eq_some.mp hs
    obtain ⟨sys, hsys, rfl⟩ := Option.map_eq_some_iff.mp hs
    cases Sys.step_cases hsys with
    | stopWorker =>
      refine ⟨h.reach.step hsys, fun v hv => ?_, fun v => ?_⟩
      · by_cases hvw : v = w
        · exact hvw ▸ hplace
        · simp only [Sys.setWorker, Function.update_of_ne hvw] at hv
          exact h.rest v hv
      · by_cases hvw : v = w
        · subst hvw
          simp only [Sys.worker_setWorker]
          exact (h.holds v).same ⟨rfl, rfl, rfl⟩
        · simp only [Sys.setWorker, Function.update_of_ne hvw]
          exact h.holds v
  | other e =>
    simp only [Threads.step] at hs
    split at hs
    · cases hs
    · rename_i hother
      obtain ⟨sys, hsys, rfl⟩ := Option.map_eq_some_iff.mp hs
      have hkeep (v : Fin n) := Sys.other_step (w := v) hsys hother
      refine ⟨h.reach.step hsys, fun v hv => ?_, fun v => (h.holds v).same (hkeep v).1⟩
      have hsame := (hkeep v).2.resolve_right hv
      exact h.rest v (hsame ▸ hv)

theorem inv_of_reach {s : Threads K n} (h : (system P cfg n).Reach s) : Inv P cfg s := by
  refine System.Reach.inv ?_ (fun s e s' _ hi hs => hi.step hs) h
  rintro _ rfl
  exact ⟨.init rfl, fun _ _ => rfl, fun _ => ⟨rfl, rfl⟩⟩

/-- What the loop of a worker does among the other threads. -/
structure Passes (P : Platform K) (cfg : Config K) (s : Threads K n) : Prop where
  /-- The threads together only do what the sections do in some order. -/
  sections : (Protocol.system P cfg n).Reach s.sys
  /-- A thread that runs has a next step, and it is inside `clients_`. -/
  proceeds : ∀ w a, (s.sys.workers w).thread = .running → a.Possible s.sys w →
    (s.step P cfg (.worker w a)).isSome = true
  /-- When it waits, every client was looked at by both loops since the clock was read. -/
  looked : ∀ w, s.place w = .waiting → s.offers w = pass (s.sys.workers w).clients.length

/-- **The loop of a worker.** Whatever the other threads do between its sections. -/
theorem worker_passes {s : Threads K n} (h : (system P cfg n).Reach s) : Passes P cfg s := by
  have hinv := inv_of_reach h
  refine ⟨hinv.reach, fun w a hr ha => ?_, fun w hw => ?_⟩
  · have hrange (u : ClientUpdate n) (hu : u ∈ (s.sys.workers w).updates) :=
      Sys.update_in_range hinv.reach hu
    obtain ⟨e, p, hn, hsome⟩ : ∃ e p, (s.place w).next s.sys w a = some (e, p) ∧
        (s.sys.perform P cfg e).isSome = true := (hinv.holds w).next hr hrange ha
    simp only [Threads.step, Threads.work, if_pos ha, if_pos hr, hn, Option.bind_some,
      Option.isSome_map, hsome]
  · have hholds := hinv.holds w
    rw [hw] at hholds
    exact hholds.2

end Threads

end

namespace Sample

/-- What a worker is answered at a time. -/
def answers (t : Int) (slots : List Nat) (received : Received) : Answers ℚ where
  now := t
  nowNs := t
  draws := draws
  outcome := ⟨true, true, true, true⟩
  inputs := ⟨0, 0, draws, true, true⟩
  slots := slots
  received := received
  readings := ⟨3, 3⟩

/-- A pass over one client. -/
def onePass (t : Int) : List (Threads.Event ℚ 1) :=
  List.replicate 8 (.worker 0 (answers t [] .drained))

def reconnect : Bytes := [Wire.COMMAND_RECONNECT]

/-- The client becomes ACTIVE and sends; then it is told to reconnect, and the next pass begins. -/
def twoPasses : List (Threads.Event ℚ 1) :=
  [.other (.addClient 0 creds 0), .other (.startWorker 0)] ++ onePass 1 ++
    .worker 0 (answers 1 [0] .drained) ::
      List.replicate 5 (.worker 0 (answers 2 [] (.data 2 0 reconnect))) ++ onePass 3

end Sample

/-- The second pass has looked at a client that is SUSPENDED. -/
theorem worker_passes_suspended : ∃ s : Threads ℚ 1, s.place 0 = .waiting ∧
    s.sys.stats.suspendedClients = 1 ∧ Threads.Passes Sample.platform Sample.config s := by
  have hrun : ((System.exec (Threads.step Sample.platform Sample.config) {}
      Sample.twoPasses).map fun s : Threads ℚ 1 =>
        (s.place 0, s.sys.stats.suspendedClients)) = some (.waiting, 1) := by decide +kernel
  obtain ⟨s, hs, hm⟩ := Option.map_eq_some_iff.mp hrun
  have hr : (Threads.system Sample.platform Sample.config 1).Reach s :=
    System.Reach.exec (.init rfl) hs
  exact ⟨s, congrArg Prod.fst hm, congrArg Prod.snd hm, Threads.worker_passes hr⟩

end CksLoadtest.Protocol
