import CksLoadtest.Harness.Stages
import CksLoadtest.Lib.Tally
import CksLoadtest.Lib.Trace
import CksLoadtest.Protocol.Gauges
import CksLoadtest.Protocol.Sends
import CksLoadtest.Worker.Starts

/-!
# The ramp

`distribute` gives every client of a range the time of its batch. A client draws its uuid and opens
its first socket at that time or later, whatever the threads do, so at no moment have more clients
started than their batches allow.
-/
namespace CksLoadtest.Protocol

open Lib Lib.Transition
open Worker (Awaits InTime Started sends)

variable {K : Type*} {n : Nat}

/-- Clients handed to workers. -/
abbrev Adds (n : Nat) := List (Fin n × PendingAdd)

/-- What worker `w` was given, in the order of its clients. -/
def Adds.given (l : Adds n) (w : Fin n) : List PendingAdd :=
  (l.filter fun a => a.1 = w).map (·.2)

def Adds.due (l : Adds n) (w : Fin n) : List Int := (l.given w).map (·.activateAt)

/-- The client an event adds. -/
def Event.adds : Event K n → Adds n
  | .addClient w creds activateAt => [(w, ⟨creds, activateAt⟩)]
  | _ => []

theorem Adds.given_append (l l' : Adds n) (v : Fin n) :
    (l ++ l').given v = l.given v ++ l'.given v := by
  unfold Adds.given
  rw [List.filter_append, List.map_append]

theorem Adds.given_single (v w : Fin n) (p : PendingAdd) :
    Adds.given [(w, p)] v = if w = v then [p] else [] := by
  unfold Adds.given
  rw [List.filter_singleton]
  by_cases hw : w = v
  · rw [if_pos hw, decide_eq_true hw]
    rfl
  · rw [if_neg hw, decide_eq_false hw]
    rfl

theorem Adds.due_concat (l : Adds n) (v w : Fin n) (p : PendingAdd) :
    Adds.due (l ++ [(w, p)]) v = if w = v then l.due v ++ [p.activateAt] else l.due v := by
  unfold Adds.due
  rw [Adds.given_append, Adds.given_single, List.map_append]
  split
  · rfl
  · exact List.append_nil _

/-- A worker keeps to the times it was given. -/
structure WorkerSt.Ramped (x : WorkerSt K n) (l : List Int) : Prop where
  now : x.now ≤ x.clock
  pending : x.pending.map (·.activateAt) = l.drop x.clients.length
  covered : x.clients.length ≤ l.length
  client : ∀ (i : Nat) (c : SimClient K), x.clients[i]? = some c →
    ∃ due, l[i]? = some due ∧ (Awaits due c ∨ Started c ∧ due ≤ x.clock)
  /-- A datagram is handled for a client that has started. -/
  rx : ∀ (i : Nat) (walk : Worker.Walk), x.rx = some (i, walk) →
    ∃ c, x.clients[i]? = some c ∧ Started c

namespace WorkerSt.Ramped

variable {x y : WorkerSt K n} {l : List Int}

/-- Only the clock and what is not about clients changed. -/
theorem same (h : x.Ramped l) (hp : y.pending = x.pending) (hc : y.clients = x.clients)
    (hr : y.rx = x.rx) (hk : x.clock ≤ y.clock) (hn : y.now ≤ y.clock) : y.Ramped l := by
  refine ⟨hn, ?_, ?_, ?_, ?_⟩
  · rw [hp, hc]
    exact h.pending
  · rw [hc]
    exact h.covered
  · intro i c hi
    rw [hc] at hi
    obtain ⟨due, hdue, hw | ⟨hs, hle⟩⟩ := h.client i c hi
    · exact ⟨due, hdue, .inl hw⟩
    · exact ⟨due, hdue, .inr ⟨hs, hle.trans hk⟩⟩
  · rw [hc, hr]
    exact h.rx

/-- A datagram comes in, or the next of its members. -/
theorem receive (h : x.Ramped l) {r : Option (Nat × Worker.Walk)} {k : Int} (hk : x.clock ≤ k)
    (hr : ∀ (i : Nat) (walk : Worker.Walk), r = some (i, walk) →
      ∃ c, x.clients[i]? = some c ∧ Started c) :
    Ramped { x with clock := k, rx := r } l := by
  refine ⟨h.now.trans hk, h.pending, h.covered, ?_, hr⟩
  intro i c hi
  obtain ⟨due, hdue, hw | ⟨hs, hle⟩⟩ := h.client i c hi
  · exact ⟨due, hdue, .inl hw⟩
  · exact ⟨due, hdue, .inr ⟨hs, hle.trans hk⟩⟩

theorem add (h : x.Ramped l) (p : PendingAdd) :
    Ramped { x with pending := x.pending ++ [p] } (l ++ [p.activateAt]) := by
  have hcovered := h.covered
  refine ⟨h.now, ?_, ?_, ?_, h.rx⟩
  · show (x.pending ++ [p]).map _ = _
    rw [List.map_append, h.pending, List.drop_append_of_le_length hcovered]
    rfl
  · rw [List.length_append]
    exact Nat.le_add_right_of_le hcovered
  · intro i c hi
    obtain ⟨due, hdue, hs⟩ := h.client i c hi
    exact ⟨due, (List.getElem?_append_left (List.getElem?_eq_some_iff.mp hdue).1).trans hdue, hs⟩

theorem enroll [Field K] (h : x.Ramped l) :
    Ramped { x with
      pending := []
      clients := x.clients ++ x.pending.map fun p => SimClient.fresh p.creds p.activateAt } l := by
  have hlength := congrArg List.length h.pending
  rw [List.length_map, List.length_drop] at hlength
  have hcovered := h.covered
  have hall : (x.clients ++ x.pending.map fun p =>
      SimClient.fresh (K := K) p.creds p.activateAt).length = l.length := by
    rw [List.length_append, List.length_map]
    omega
  refine ⟨h.now, ?_, hall.le, ?_, ?_⟩
  · show [] = l.drop (x.clients ++ _).length
    rw [hall, List.drop_length]
  · intro i c hi
    rcases lt_or_ge i x.clients.length with hlt | hge
    · exact h.client i c ((List.getElem?_append_left hlt).symm.trans hi)
    · have hi := (List.getElem?_append_right hge).symm.trans hi
      rw [List.getElem?_map] at hi
      obtain ⟨p, hp, rfl⟩ := Option.map_eq_some_iff.mp hi
      refine ⟨p.activateAt, ?_, .inl ⟨?_, rfl, rfl⟩⟩
      · have hdue := congrArg (·[i - x.clients.length]?) h.pending
        simp only [List.getElem?_map, List.getElem?_drop, hp, Nat.add_sub_cancel' hge] at hdue
        exact hdue.symm
      · exact fun hstarted => hstarted rfl
  · intro i walk hr
    obtain ⟨c, hi, hc⟩ := h.rx i walk hr
    exact ⟨c, (List.getElem?_append_left (List.getElem?_eq_some_iff.mp hi).1).trans hi, hc⟩

/-- One client takes its turn. -/
theorem turn {i : Nat} {c : SimClient K} {o : Worker.Out K} (h : x.Ramped l)
    (hc : x.clients[i]? = some c)
    (ho : ∀ due, Awaits due c ∨ Started c ∧ due ≤ x.clock → InTime due x.clock o)
    (hs : Started c → Started o.1) : (x.setClient i o.1).Ramped l := by
  have hlt := (List.getElem?_eq_some_iff.mp hc).1
  have hlength : (x.clients.set i o.1).length = x.clients.length := List.length_set ..
  refine ⟨h.now, ?_, ?_, ?_, ?_⟩
  · show _ = l.drop (x.clients.set i o.1).length
    rw [hlength]
    exact h.pending
  · exact hlength.trans_le h.covered
  · intro j d hj
    by_cases hij : i = j
    · subst hij
      obtain ⟨due, hdue, hold⟩ := h.client i c hc
      obtain rfl := Option.some.inj ((List.getElem?_set_self hlt).symm.trans hj)
      rcases ho due hold with ⟨hw, -⟩ | hst
      · exact ⟨due, hdue, .inl hw⟩
      · exact ⟨due, hdue, .inr hst⟩
    · exact h.client j d ((List.getElem?_set_ne hij).symm.trans hj)
  · intro j walk hr
    obtain ⟨d, hj, hd⟩ := h.rx j walk hr
    by_cases hij : i = j
    · subst hij
      obtain rfl := Option.some.inj (hc.symm.trans hj)
      exact ⟨o.1, List.getElem?_set_self hlt, hs hd⟩
    · exact ⟨d, (List.getElem?_set_ne hij).trans hj, hd⟩

end WorkerSt.Ramped

namespace Sys

/-- All workers keep to the times, and no datagram left before its client's time. -/
structure Ramped (s : Sys K n) (l : Adds n) : Prop where
  worker : ∀ w, (s.workers w).Ramped (l.due w)
  sent : ∀ d ∈ s.hist.sent, ∃ due, (l.due d.worker)[d.slot]? = some due ∧ due ≤ d.time

namespace Ramped

variable {s t : Sys K n} {l : Adds n} {w : Fin n} {x : WorkerSt K n}

theorem initial : Ramped ({} : Sys K n) [] := by
  constructor
  · intro w
    exact ⟨le_rfl, rfl, le_rfl, fun i c hi => absurd hi (by simp), fun i walk hr => by cases hr⟩
  · intro d hd
    cases hd

/-- One worker changes. -/
theorem worker_step {l' : Adds n} (h : s.Ramped l)
    (hw : t.workers = Function.update s.workers w x) (hx : x.Ramped (l'.due w))
    (hl : ∀ v, v ≠ w → l'.due v = l.due v)
    (hl' : ∀ (i : Nat) (due : Int), (l.due w)[i]? = some due → (l'.due w)[i]? = some due)
    (hsent : t.hist.sent = s.hist.sent) : t.Ramped l' := by
  constructor
  · intro v
    rw [hw]
    by_cases hv : v = w
    · subst hv
      rw [Function.update_self]
      exact hx
    · rw [Function.update_of_ne hv, hl v hv]
      exact h.worker v
  · intro d hd
    rw [hsent] at hd
    obtain ⟨due, hdue, hle⟩ := h.sent d hd
    refine ⟨due, ?_, hle⟩
    by_cases hv : d.worker = w
    · rw [hv] at hdue ⊢
      exact hl' _ _ hdue
    · rw [hl _ hv]
      exact hdue

theorem setWorker (h : s.Ramped l) (hw : t.workers = Function.update s.workers w x)
    (hx : x.Ramped (l.due w)) (hsent : t.hist.sent = s.hist.sent) : t.Ramped l :=
  h.worker_step hw hx (fun _ _ => rfl) (fun _ _ hi => hi) hsent

/-- Nothing of the workers changed. -/
theorem frame (h : s.Ramped l) (hw : t.workers = s.workers) (hsent : t.hist.sent = s.hist.sent) :
    t.Ramped l := by
  constructor
  · rw [hw]
    exact h.worker
  · rw [hsent]
    exact h.sent

theorem commit {i : Nat} {c : SimClient K} {o : Worker.Out K} (h : s.Ramped l)
    (hc : s.client? w i = some c)
    (ho : ∀ due, Awaits due c ∨ Started c ∧ due ≤ (s.workers w).clock →
      InTime due (s.workers w).clock o)
    (hs : Started c → Started o.1) : (s.commit w i o).Ramped l := by
  constructor
  · intro v
    rw [commit_workers]
    by_cases hv : v = w
    · subst hv
      rw [Function.update_self]
      exact (h.worker v).turn hc ho hs
    · rw [Function.update_of_ne hv]
      exact h.worker v
  · intro d hd
    rw [sent_commit] at hd
    rcases List.mem_append.mp hd with hd | hd
    · exact h.sent d hd
    · obtain ⟨p, hp, rfl⟩ := List.mem_map.mp hd
      obtain ⟨due, hdue, hold⟩ := (h.worker w).client i c hc
      rcases ho due hold with ⟨-, hnone⟩ | ⟨-, hle⟩
      · rw [hnone] at hp
        cases hp
      · exact ⟨due, hdue, hle⟩

/-- Whatever a client that has started does, it stays so. -/
theorem commit_started [Field K] [LinearOrder K] [FloorRing K] {i : Nat} {c : SimClient K}
    (h : s.Ramped l) (hc : s.client? w i = some c) (hs : Started c) (P : Platform K)
    (cfg : Config K) (turn : Worker.Turn K) : (s.commit w i (turn.run P cfg c)).Ramped l := by
  have hstill := turn.run_started P cfg hs
  refine h.commit hc (fun due hold => ?_) fun _ => hstill
  rcases hold with hwaits | ⟨-, hle⟩
  · exact absurd hs hwaits.1
  · exact .inr ⟨hstill, hle⟩

end Ramped

variable [Field K] [LinearOrder K] [FloorRing K] {P : Platform K} {cfg : Config K}
  {s s' : Sys K n} {l : Adds n}

/-- **Step lemma.** -/
theorem Ramped.step {e : Event K n} (h : s.Ramped l) (hs : s.step P cfg e = some s') :
    s'.Ramped (l ++ e.adds) := by
  have hkeep (hq : s'.Ramped l) (he : e.adds = []) : s'.Ramped (l ++ e.adds) := by
    rw [he, List.append_nil]
    exact hq
  cases step_cases hs with
  | @addClient w creds activateAt =>
    have hdue := Adds.due_concat l (p := ⟨creds, activateAt⟩) (w := w)
    refine h.worker_step rfl ?_ ?_ ?_ rfl
    · rw [Event.adds, hdue, if_pos rfl]
      exact (h.worker w).add _
    · intro v hv
      rw [Event.adds, hdue, if_neg (Ne.symm hv)]
    · intro i due hi
      rw [Event.adds, hdue, if_pos rfl]
      exact (List.getElem?_append_left (List.getElem?_eq_some_iff.mp hi).1).trans hi
  | @startWorker w | @stopWorker w | @takeInbox w =>
    exact hkeep (h.setWorker rfl ((h.worker w).same rfl rfl rfl le_rfl (h.worker w).now) rfl) rfl
  | @applyPendingClients w => exact hkeep (h.setWorker rfl (h.worker w).enroll rfl) rfl
  | @tick w now nowNs _ hnow hns =>
    exact hkeep (h.setWorker rfl ((h.worker w).same rfl rfl rfl (hnow.trans hns) hns) rfl) rfl
  | @applyUpdate w u rest c hu hc =>
    refine hkeep ?_ rfl
    have ht : Ramped ((s.setWorker w { s.workers w with updates := rest }).logApplied
        ⟨w, u.clientIndex, c.creds.index, u⟩) l :=
      h.setWorker rfl ((h.worker w).same rfl rfl rfl le_rfl (h.worker w).now) rfl
    refine ht.commit (c := c) ?_ (fun due hold => ?_) fun hstarted => ?_
    · show (Function.update s.workers w _ w).clients[_]? = _
      rw [Function.update_self]
      exact hc
    · rcases hold with hwaits | ⟨hstarted, hle⟩
      · obtain ⟨hstill, hnone⟩ := hwaits.update cfg u.toUpdate
        refine .inl ⟨hstill, ?_⟩
        rw [hnone]
        rfl
      · exact .inr ⟨Worker.Turn.run_started P cfg (.update u.toUpdate) hstarted, hle⟩
    · exact Worker.Turn.run_started P cfg (.update u.toUpdate) hstarted
  | @activate w i draws outcome c _ hc =>
    refine hkeep (h.commit hc (fun due hold => ?_) fun hstarted => ?_) rfl
    · rcases hold with hwaits | ⟨hstarted, hle⟩
      · rcases hwaits.activate P cfg (s.workers w).now (steadySeconds (s.workers w).nowNs) draws
          outcome with hstill | ⟨hstarted, hle⟩
        · exact .inl hstill
        · exact .inr ⟨hstarted, hle.trans (h.worker w).now⟩
      · exact .inr ⟨Worker.Turn.run_started P cfg (.activate _ _ draws outcome) hstarted, hle⟩
    · exact Worker.Turn.run_started P cfg (.activate _ _ draws outcome) hstarted
  | @sendDue w i inputs c _ hc =>
    refine hkeep (h.commit hc (fun due hold => ?_) fun hstarted => ?_) rfl
    · rcases hold with hwaits | ⟨hstarted, hle⟩
      · rw [hwaits.send]
        exact .inl ⟨hwaits, rfl⟩
      · exact .inr ⟨Worker.Turn.run_started P cfg (.send _ inputs) hstarted, hle⟩
    · exact Worker.Turn.run_started P cfg (.send _ inputs) hstarted
  | rxDropped => exact hkeep h rfl
  | @rxBegin w i rxNs nowMs data c hc _ _ hk ha =>
    obtain ⟨due, hdue, hwaits | ⟨hstarted, -⟩⟩ := (h.worker w).client i c hc
    · exact absurd (hwaits.2.1.symm.trans ha) State.noConfusion
    refine hkeep (Ramped.commit_started ?_ ?_ hstarted P cfg (.rxBegin rxNs nowMs data)) rfl
    · refine h.setWorker rfl ((h.worker w).receive hk ?_) rfl
      intro j walk hj
      obtain ⟨_, -, hslot⟩ := Option.map_eq_some_iff.mp hj
      obtain ⟨rfl, -⟩ := Prod.mk.inj hslot
      exact ⟨c, hc, hstarted⟩
    · show (Function.update s.workers w _ w).clients[_]? = _
      rw [Function.update_self]
      exact hc
  | @rxMember w t i signedBundle nowMs m ms ok c hrx hc =>
    obtain ⟨d, hd, hstarted⟩ := (h.worker w).rx i _ hrx
    obtain rfl := Option.some.inj (hc.symm.trans hd)
    refine hkeep (Ramped.commit_started ?_ ?_ hstarted P cfg (.rxMember signedBundle nowMs t m)) rfl
    · refine h.setWorker rfl ((h.worker w).receive le_rfl ?_) rfl
      intro j walk hj
      obtain ⟨rfl, -⟩ := Prod.mk.inj (Option.some.inj hj)
      exact ⟨c, hc, hstarted⟩
    · show (Function.update s.workers w _ w).clients[_]? = _
      rw [Function.update_self]
      exact hc
  | @rxEnd w i signedBundle nowMs ok c hrx hc =>
    obtain ⟨d, hd, hstarted⟩ := (h.worker w).rx i _ hrx
    obtain rfl := Option.some.inj (hc.symm.trans hd)
    refine hkeep (Ramped.commit_started ?_ ?_ hstarted P cfg (.rxEnd ok)) rfl
    · refine h.setWorker rfl ((h.worker w).receive le_rfl ?_) rfl
      intro j walk hj
      cases hj
    · show (Function.update s.workers w _ w).clients[_]? = _
      rw [Function.update_self]
      exact hc
  | @refresh api j =>
    refine hkeep (h.frame ?_ ?_) rfl
    all_goals
      unfold refresh
      dsimp only
      split <;> rfl
  | pop | place | shutdown | exit => exact hkeep (h.frame rfl rfl) rfl
  | @post j failed =>
    refine hkeep (h.setWorker rfl ?_ rfl) rfl
    exact (h.worker _).same rfl rfl rfl le_rfl (h.worker _).now

omit [LinearOrder K] [FloorRing K] in
theorem label_adds (e : Event K n) (w : Fin n) :
    (s.label cfg e).adds w = (Adds.given e.adds w).map (·.creds) := by
  cases e with
  | addClient v creds activateAt =>
    show (if v = w then [creds] else []) = _
    rw [Event.adds, Adds.given_single]
    split <;> rfl
  | rxMember v t | rxEnd v | refresh api =>
    simp only [label]
    split <;> rfl
  | place api =>
    simp only [label]
    split
    · split <;> rfl
    · rfl
  | startWorker | stopWorker | tick | shutdown | exit | applyPendingClients | takeInbox
  | applyUpdate | activate | sendDue | rxBegin | pop | post => rfl

/-- A worker's clients are those it was given, in that order. -/
theorem added_of_exec {es : List (Event K n)} (h : System.exec (step P cfg) {} es = some s)
    (w : Fin n) : s.hist.added w =
      (Adds.given (Trace.trace (step P cfg) (fun _ e => e.adds) {} es) w).map (·.creds) := by
  have hstep : ∀ (s : Sys K n) (l : Adds n) (e : Event K n) (s' : Sys K n),
      s.hist.added w = (Adds.given l w).map (·.creds) → s.step P cfg e = some s' →
        s'.hist.added w = (Adds.given (l ++ e.adds) w).map (·.creds) := by
    intro s l e s' hi hs
    have hlabel : (s.label cfg e).adds w = (Adds.given e.adds w).map (·.creds) := label_adds e w
    rw [Adds.given_append, List.map_append, ← hi, ← hlabel]
    exact (step_exchange P cfg hs).added w
  have hrun : s.hist.added w =
      (Adds.given ([] ++ Trace.trace (step P cfg) (fun _ e => e.adds) {} es) w).map (·.creds) :=
    Trace.exec_trace (I := fun (s : Sys K n) l => s.hist.added w = (Adds.given l w).map (·.creds))
      hstep rfl h
  rwa [List.nil_append] at hrun

/-- **Run lemma.** -/
theorem ramped_of_exec {es : List (Event K n)} (h : System.exec (step P cfg) {} es = some s) :
    s.Ramped (Trace.trace (step P cfg) (fun _ e => e.adds) {} es) := by
  have hrun : s.Ramped ([] ++ Trace.trace (step P cfg) (fun _ e => e.adds) {} es) :=
    Trace.exec_trace (I := Ramped) (fun _ _ _ _ hq hstep => hq.step hstep) Ramped.initial h
  rwa [List.nil_append] at hrun

end Sys

end CksLoadtest.Protocol

namespace CksLoadtest.Harness

open Lib Lib.Transition
open Protocol (Adds PendingAdd Sys)
open Worker (Started)

variable {K : Type*}

/-- One call of `distribute`. -/
structure Distribution where
  rampStart : Int
  creds : List ClientCredentials

namespace Distribution

section

variable (cfg : Config K) (d : Distribution)

/-- When the batch of its client `i` is due. -/
def batchTime (i : Nat) : Int :=
  d.rampStart + (i : Int).tdiv cfg.rampBatchSize * cfg.rampIntervalMs * 1000000

/-- That time as the clock's `time_point` holds it. -/
def activateAt (i : Nat) : Int := int64 (d.batchTime cfg i)

/-- The times of its batches are within the clock's range. -/
def Fits : Prop :=
  ∀ i < d.creds.length, -2 ^ 63 ≤ d.batchTime cfg i ∧ d.batchTime cfg i < 2 ^ 63

/-- The `addClient` calls, with the worker each goes to. -/
def adds [Ring K] [LinearOrder K] [FloorRing K] : List (Int × PendingAdd) :=
  d.creds.zipIdx.map fun (creds, i) => (Fleet.workerOf cfg creds, ⟨creds, d.activateAt cfg i⟩)

instance : Decidable (d.Fits cfg) := inferInstanceAs (Decidable (∀ i < d.creds.length, _))

/-- How many of its clients may have started by the time `t`: those of the first batch and of the
batches whose interval has passed. -/
def allowed (t : Int) : Nat :=
  if t < d.rampStart then 0
  else if cfg.rampIntervalMs = 0 then d.creds.length
  else
    let batches := (t - d.rampStart) / (cfg.rampIntervalMs * 1000000) + 1
    min (batches * cfg.rampBatchSize).toNat d.creds.length

end

/-- How many clients of all calls may have started. -/
def allowedAll (cfg : Config K) (t : Int) : List Distribution → Nat
  | [] => 0
  | d :: ds => d.allowed cfg t + allowedAll cfg t ds

theorem countP_zipIdx {α : Type*} (l : List α) (m : Nat) :
    l.zipIdx.countP (fun p => p.2 < m) = min m l.length := by
  have hsnd : l.zipIdx.countP (fun p => p.2 < m) =
      (l.zipIdx.map Prod.snd).countP fun i => i < m := by
    rw [List.countP_map]
    rfl
  rw [hsnd, List.zipIdx_map_snd]
  clear hsnd
  induction l using List.reverseRecOn with
  | nil => simp
  | append_singleton l a ih =>
    rw [List.length_append, List.length_singleton, List.range'_concat, List.countP_append, ih,
      List.countP_singleton]
    by_cases hm : l.length < m
    · simp [hm]
      omega
    · simp [hm]
      omega

variable {cfg : Config K} {d : Distribution} {t : Int}

theorem Fits.activateAt_eq (h : d.Fits cfg) {i : Nat} (hi : i < d.creds.length) :
    d.activateAt cfg i = d.batchTime cfg i :=
  int64_of_fits (h i hi).1 (h i hi).2

/-- The batches whose time has come by `t`. -/
theorem batchTime_le_iff (hb : 1 ≤ cfg.rampBatchSize) (hi : 0 < cfg.rampIntervalMs)
    (ht : d.rampStart ≤ t) (i : Nat) :
    d.batchTime cfg i ≤ t ↔
      i < (((t - d.rampStart) / (cfg.rampIntervalMs * 1000000) + 1) *
        cfg.rampBatchSize).toNat := by
  have hinterval : 0 < cfg.rampIntervalMs * 1000000 := by omega
  have hbatch : (i : Int).tdiv cfg.rampBatchSize = i / cfg.rampBatchSize :=
    Int.tdiv_eq_ediv_of_nonneg (Int.natCast_nonneg i)
  have hshift : d.batchTime cfg i ≤ t ↔
      i / cfg.rampBatchSize * (cfg.rampIntervalMs * 1000000) ≤ t - d.rampStart := by
    unfold batchTime
    rw [hbatch, Int.mul_assoc]
    omega
  have hpassed : 0 ≤ (t - d.rampStart) / (cfg.rampIntervalMs * 1000000) :=
    Int.ediv_nonneg (by omega) hinterval.le
  have hcount : 0 ≤ ((t - d.rampStart) / (cfg.rampIntervalMs * 1000000) + 1) *
      cfg.rampBatchSize := Int.mul_nonneg (by omega) (by omega)
  rw [hshift, ← Int.le_ediv_iff_mul_le hinterval, ← Int.lt_add_one_iff,
    Int.ediv_lt_iff_lt_mul (by omega)]
  omega

theorem batchTime_start (hb : 1 ≤ cfg.rampBatchSize) (hi : 0 ≤ cfg.rampIntervalMs) (i : Nat) :
    d.rampStart ≤ d.batchTime cfg i := by
  have hbatch : 0 ≤ (i : Int).tdiv cfg.rampBatchSize :=
    Int.tdiv_nonneg (Int.natCast_nonneg i) (by omega)
  have hoffset := Int.mul_nonneg hbatch hi
  unfold batchTime
  omega

/-- As many clients are due as the batches allow. -/
theorem due_eq [Ring K] [LinearOrder K] [FloorRing K] (hb : 1 ≤ cfg.rampBatchSize)
    (hi : 0 ≤ cfg.rampIntervalMs) (hd : d.Fits cfg) (t : Int) :
    (d.adds cfg).countP (fun a => a.2.activateAt ≤ t) = d.allowed cfg t := by
  have htime (p : ClientCredentials × Nat) (hp : p ∈ d.creds.zipIdx) :
      d.activateAt cfg p.2 = d.batchTime cfg p.2 := by
    obtain ⟨-, hlt, -⟩ := List.mem_zipIdx hp
    rw [Nat.zero_add] at hlt
    exact hd.activateAt_eq hlt
  unfold adds allowed
  rw [List.countP_map]
  by_cases ht : t < d.rampStart
  · rw [if_pos ht, List.countP_eq_zero]
    intro p hp hdue
    have hstart := batchTime_start (d := d) hb hi p.2
    have hle : d.activateAt cfg p.2 ≤ t := of_decide_eq_true hdue
    rw [htime p hp] at hle
    omega
  rw [if_neg ht]
  by_cases hzero : cfg.rampIntervalMs = 0
  · rw [if_pos hzero, ← List.length_zipIdx (l := d.creds) (i := 0), List.countP_eq_length]
    intro p hp
    refine decide_eq_true ?_
    show d.activateAt cfg p.2 ≤ t
    rw [htime p hp]
    unfold batchTime
    rw [hzero]
    omega
  · rw [if_neg hzero, ← countP_zipIdx]
    refine List.countP_congr fun p hp => ?_
    have hiff := batchTime_le_iff (d := d) (t := t) hb (by omega) (by omega) p.2
    rw [← htime p hp] at hiff
    exact (decide_eq_true_iff).trans (hiff.trans decide_eq_true_iff.symm)

end Distribution

section

variable {cfg : Config K} {n : Nat}

theorem ramp_batch_pos (h : cfg.Accepted) : 1 ≤ cfg.rampBatchSize := by
  have hp := h.passes
  simp only [Config.fieldChecks, Config.rangeChecks, List.forall_mem_append, List.forall_mem_cons,
    decide_eq_false_iff_not, not_lt] at hp
  obtain ⟨-, -, -, -, -, -, -, -, -, -, -, -, -, -, -, -, -, -, -, hbatch, -⟩ := hp
  exact hbatch

/-- The clients and the times of a run of `distribute` calls. -/
structure RampKept [Ring K] [LinearOrder K] [FloorRing K] (cfg : Config K)
    (calls : List Distribution) (l : Adds n) (s : Sys K n) : Prop where
  /-- A worker is given the clients of the calls, each with the time of its batch. -/
  given : ∀ w, ∀ p ∈ l.given w, ∃ d ∈ calls, ∃ i : Nat, d.creds[i]? = some p.creds ∧
    Fleet.workerOf cfg p.creds = w ∧ p.activateAt = d.activateAt cfg i
  /-- Client `i` of a worker is the one it was given as its `i`-th: its credentials keep that
  index. It does not start early. -/
  start : ∀ w (i : Nat) c, s.client? w i = some c → ∃ p, (l.given w)[i]? = some p ∧
    c.creds.index = p.creds.index ∧ (c.state = .active → Started c) ∧
    (Started c → p.activateAt ≤ (s.workers w).clock)
  /-- Nothing is sent early. -/
  sent : ∀ d ∈ s.hist.sent, ∃ p, (l.given d.worker)[d.slot]? = some p ∧ p.activateAt ≤ d.time
  /-- No more clients have started than the batches of the calls allow. -/
  count : 0 ≤ cfg.rampIntervalMs → (∀ d ∈ calls, d.Fits cfg) →
    ∀ t, (∀ w, (s.workers w).clock ≤ t) →
      ∑ w, (s.workers w).clients.countP (fun c => Started c) ≤
        Distribution.allowedAll cfg t calls

theorem started_le {s : Sys K n} {l : Adds n} (h : s.Ramped l) {t : Int}
    (ht : ∀ w, (s.workers w).clock ≤ t) :
    ∑ w, (s.workers w).clients.countP (fun c => Started c) ≤
      l.countP fun a => a.2.activateAt ≤ t := by
  have hworker (w : Fin n) : (s.workers w).clients.countP (fun c => Started c) ≤
      l.countP fun a => (a.1 : Nat) = w ∧ decide (a.2.activateAt ≤ t) := by
    have hdue : (l.due w).countP (fun due => due ≤ t) =
        l.countP fun a => (a.1 : Nat) = w ∧ decide (a.2.activateAt ≤ t) := by
      unfold Adds.due Adds.given
      rw [List.countP_map, List.countP_map, List.countP_filter]
      refine List.countP_congr fun a _ => ?_
      simp [Fin.ext_iff, and_comm]
    rw [← hdue]
    refine Tally.countP_le_of_slots fun i c hi hstarted => ?_
    obtain ⟨due, hdue, hwaits | ⟨-, hle⟩⟩ := (h.worker w).client i c hi
    · exact absurd (of_decide_eq_true hstarted) hwaits.1
    · exact ⟨due, hdue, decide_eq_true (hle.trans (ht w))⟩
  have hfiber := Tally.sum_countP_key (n := n) (fun a : Fin n × PendingAdd => (a.1 : Nat))
    (fun a => a.2.activateAt ≤ t) (l := l) fun a _ => a.1.isLt
  exact (Finset.sum_le_sum fun w _ => hworker w).trans hfiber.le

variable [Field K] [LinearOrder K] [FloorRing K] {P : Platform K}

theorem due_all (hb : 1 ≤ cfg.rampBatchSize) (hi : 0 ≤ cfg.rampIntervalMs)
    {calls : List Distribution} (hcalls : ∀ d ∈ calls, d.Fits cfg) (t : Int) :
    (calls.flatMap (·.adds cfg)).countP (fun a => a.2.activateAt ≤ t) =
      Distribution.allowedAll cfg t calls := by
  induction calls with
  | nil => rfl
  | cons d calls ih =>
    obtain ⟨hd, hcalls⟩ := List.forall_mem_cons.mp hcalls
    rw [List.flatMap_cons, List.countP_append, ih hcalls, Distribution.due_eq hb hi hd]
    rfl

/-- **The ramp is kept.** In every run whose clients come from `distribute` calls, the last of
which may still be under way. -/
theorem ramp_kept (hcfg : cfg.Accepted) {es : List (Protocol.Event K n)} {s : Sys K n}
    {calls : List Distribution} (h : System.exec (Sys.step P cfg) {} es = some s)
    (hcalls : ((Trace.trace (Sys.step P cfg) (fun _ e => e.adds) {} es).map
      fun a => ((a.1 : Int), a.2)) <+: calls.flatMap (·.adds cfg)) :
    RampKept cfg calls (Trace.trace (Sys.step P cfg) (fun _ e => e.adds) {} es) s := by
  have hramped := Sys.ramped_of_exec h
  have hadded := Sys.added_of_exec h
  have hplaced := (Protocol.Exchange.sound_of_reach (Sys.exchange_reach
    (H := fun _ _ => True) P cfg (fun _ _ _ => trivial)
      (System.Reach.exec (.init rfl) h))).placed
  generalize Trace.trace (Sys.step P cfg) (fun _ e => e.adds) {} es = l at hcalls hramped hadded ⊢
  have hgiven {w : Fin n} {i : Nat} {due : Int} (hdue : (Adds.due l w)[i]? = some due) :
      ∃ p, (Adds.given l w)[i]? = some p ∧ p.activateAt = due := by
    unfold Adds.due at hdue
    rw [List.getElem?_map] at hdue
    exact Option.map_eq_some_iff.mp hdue
  refine ⟨fun w p hp => ?_, fun w i c hc => ?_, fun d hd => ?_, fun hinterval hfits t ht => ?_⟩
  · obtain ⟨a, ha, rfl⟩ := List.mem_map.mp hp
    obtain ⟨ha, hw⟩ := List.mem_filter.mp ha
    obtain ⟨d, hd, had⟩ := List.mem_flatMap.mp (hcalls.subset (List.mem_map_of_mem ha))
    obtain ⟨q, hq, heq⟩ := List.mem_map.mp had
    obtain ⟨hworker, hpending⟩ := Prod.mk.inj heq
    rw [← hpending]
    refine ⟨d, hd, q.2, List.mem_zipIdx_iff_getElem?.mp hq, ?_, rfl⟩
    rw [hworker, of_decide_eq_true hw]
  · obtain ⟨due, hdue, hstate⟩ := (hramped.worker w).client i c hc
    obtain ⟨p, hp, rfl⟩ := hgiven hdue
    refine ⟨p, hp, ?_, ?_⟩
    · have hslot := hplaced.slots w i _ (Sys.slot_of_client hc)
      unfold Protocol.Exchange.indexOf at hslot
      rw [show s.exchange.added w = _ from hadded w, List.getElem?_map, hp] at hslot
      exact (Option.some.inj hslot).symm
    · rcases hstate with hwaits | ⟨hstarted, hle⟩
      · refine ⟨fun hactive => ?_, fun hstarted => absurd hstarted hwaits.1⟩
        exact absurd (hwaits.2.1.symm.trans hactive) State.noConfusion
      · exact ⟨fun _ => hstarted, fun _ => hle⟩
  · obtain ⟨due, hdue, hle⟩ := hramped.sent d hd
    obtain ⟨p, hp, rfl⟩ := hgiven hdue
    exact ⟨p, hp, hle⟩
  · have hcount := hcalls.sublist.countP_le (p := fun a => a.2.activateAt ≤ t)
    rw [List.countP_map, due_all (ramp_batch_pos hcfg) hinterval hfits] at hcount
    exact (started_le hramped ht).trans hcount

end

namespace Sample

/-- Two clients are handed out, one a second, and the first of them starts. -/
def rampConfig : Config ℚ := { config with rampBatchSize := 1 }

def ramp : List Distribution := [⟨5, [Protocol.Sample.creds, Protocol.Sample.creds]⟩]

def ramps : List (Protocol.Event ℚ 1) :=
  [.addClient 0 Protocol.Sample.creds 5, .addClient 0 Protocol.Sample.creds 1000000005,
    .startWorker 0, .applyPendingClients 0, .tick 0 1000000004 1000000004,
    .activate 0 0 Protocol.Sample.draws ⟨true, true, true, true⟩,
    .activate 0 1 Protocol.Sample.draws ⟨true, true, true, true⟩]

end Sample

theorem ramp_kept_first : ∃ (l : Adds 1) (s : Sys ℚ 1), s.clientsIn .active = 1 ∧
    s.clientsIn .waiting = 1 ∧ RampKept Sample.rampConfig Sample.ramp l s ∧
      ∑ w, (s.workers w).clients.countP (fun c => Started c) ≤ 1 := by
  have hrun : ((System.exec (Sys.step Protocol.Sample.platform Sample.rampConfig) {}
      Sample.ramps).map fun s : Sys ℚ 1 =>
        (s.clientsIn .active, s.clientsIn .waiting, (s.workers 0).clock)) =
      some (1, 1, 1000000004) := by decide +kernel
  have hcalls : ((Trace.trace (Sys.step Protocol.Sample.platform Sample.rampConfig)
      (fun _ e => e.adds) {} Sample.ramps).map fun a => ((a.1 : Int), a.2)) <+:
        Sample.ramp.flatMap (·.adds Sample.rampConfig) := by decide +kernel
  obtain ⟨s, hs, hm⟩ := Option.map_eq_some_iff.mp hrun
  obtain ⟨hactive, hm⟩ := Prod.mk.inj hm
  obtain ⟨hwaiting, hclock⟩ := Prod.mk.inj hm
  have hcfg : Sample.rampConfig.Accepted := by
    show Config.validate _ = _
    decide +kernel
  have hfits : ∀ d ∈ Sample.ramp, d.Fits Sample.rampConfig := by decide
  have hallowed : Distribution.allowedAll Sample.rampConfig 1000000004 Sample.ramp = 1 := by
    decide +kernel
  have hkept := ramp_kept hcfg hs hcalls
  refine ⟨_, s, hactive, hwaiting, hkept, ?_⟩
  refine (hkept.count (by decide) hfits 1000000004 fun w => ?_).trans hallowed.le
  rw [Subsingleton.elim w 0, hclock]

end CksLoadtest.Harness
