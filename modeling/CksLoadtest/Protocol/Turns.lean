import CksLoadtest.Protocol.System
import CksLoadtest.Worker.Gauges

/-!
# What a step does to the clients

Every client is changed by a worker function on it and by nothing else: a step
leaves all clients alone, appends new ones, or is one turn of one client.
-/
namespace CksLoadtest.Protocol.Sys

open Lib.Buffer Lib.Transition

variable {K : Type*} {n : Nat}

/-- What an event makes of client `i` of worker `w`. -/
inductive Turn [Field K] [LinearOrder K] [FloorRing K] (P : Platform K) (cfg : Config K)
    (s : Sys K n) (w : Fin n) (i : Nat) (c : SimClient K) : Event K n → Worker.Out K → Prop
  | update {u : ClientUpdate n} (hu : u ∈ (s.workers w).updates) :
      Turn P cfg s w i c (.applyUpdate w) (Worker.applyUpdate cfg u.toUpdate c)
  | activate (draws : SimClient.Draws K) (o : Worker.OpenOutcome) :
      Turn P cfg s w i c (.activate w i draws o)
        (Worker.activateDueClient P cfg (s.workers w).now (steadySeconds (s.workers w).nowNs)
          draws o c)
  | send (inputs : Worker.SendInputs K) :
      Turn P cfg s w i c (.sendDue w i inputs)
        (Worker.sendDueUpdate P cfg (steadySeconds (s.workers w).nowNs) inputs c)
  | rxBegin (rxNs nowMs : Int) (data : Bytes) :
      Turn P cfg s w i c (.rxBegin w i rxNs nowMs data)
        (Worker.beginDatagram P rxNs nowMs data c).1
  | rxMember (signedBundle : Bool) (nowMs : Int) (t : Worker.Readings) (m : Bytes) :
      Turn P cfg s w i c (.rxMember w t) (Worker.handleMember P cfg signedBundle nowMs t m c)
  | rxEnd (ok : Bool) : Turn P cfg s w i c (.rxEnd w) (Worker.endDatagram ok c)

/-- The two gauges and the open sockets. -/
def gauges (s : Sys K n) : Worker.Level :=
  (s.stats.activeClients, s.stats.suspendedClients, s.openSockets)

/-- The clients, the gauges and the datagrams handed over are the same; clocks moved
at most forward. -/
structure SameClients (s t : Sys K n) : Prop where
  clients : ∀ w, (t.workers w).clients = (s.workers w).clients
  clock : ∀ w, (s.workers w).clock ≤ (t.workers w).clock
  now : ∀ w, (s.workers w).now ≤ (s.workers w).clock → (t.workers w).now ≤ (t.workers w).clock
  gauges : t.gauges = s.gauges
  sent : t.hist.sent = s.hist.sent

namespace SameClients

theorem refl (s : Sys K n) : SameClients s s :=
  ⟨fun _ => rfl, fun _ => le_rfl, fun _ h => h, rfl, rfl⟩

theorem trans {s t u : Sys K n} (h : SameClients s t) (k : SameClients t u) : SameClients s u :=
  ⟨fun w => (k.clients w).trans (h.clients w), fun w => (h.clock w).trans (k.clock w),
    fun w hn => k.now w (h.now w hn), k.gauges.trans h.gauges, k.sent.trans h.sent⟩

/-- A worker changes, but not its clients. -/
theorem setWorker (s : Sys K n) {w : Fin n} {x : WorkerSt K n}
    (hc : x.clients = (s.workers w).clients) (hk : (s.workers w).clock ≤ x.clock)
    (hn : (s.workers w).now ≤ (s.workers w).clock → x.now ≤ x.clock) :
    SameClients s (s.setWorker w x) := by
  have hx (v : Fin n) : (s.setWorker w x).workers v = if v = w then x else s.workers v :=
    Function.update_apply ..
  refine ⟨fun v => ?_, fun v => ?_, fun v => ?_, rfl, rfl⟩
  all_goals
    rw [hx]
    split
    · rename_i hv
      subst hv
      assumption
  · rfl
  · exact le_rfl
  · exact id

/-- Nothing of the workers, the gauges or the sent datagrams changed. -/
theorem of_eq {s t : Sys K n} (hw : t.workers = s.workers) (hg : t.gauges = s.gauges)
    (hs : t.hist.sent = s.hist.sent) : SameClients s t :=
  ⟨fun _ => by rw [hw], fun _ => by rw [hw], fun _ => by rw [hw]; exact id, hg, hs⟩

end SameClients

theorem commit_clients (s : Sys K n) (w v : Fin n) (i : Nat) (o : Worker.Out K) :
    ((s.commit w i o).workers v).clients =
      if v = w then (s.workers w).clients.set i o.1 else (s.workers v).clients := by
  rw [commit_workers, Function.update_apply]
  split <;> rfl

theorem enroll_workers [Field K] (s : Sys K n) (w v : Fin n) :
    (s.applyPendingClients w).workers v =
      if v = w then
        { s.workers w with
          pending := []
          clients := (s.workers w).clients ++
            (s.workers w).pending.map fun p => SimClient.fresh p.creds p.activateAt }
      else s.workers v := Function.update_apply ..

theorem enroll_clients [Field K] (s : Sys K n) (w v : Fin n) :
    ((s.applyPendingClients w).workers v).clients =
      if v = w then
        (s.workers w).clients ++
          (s.workers w).pending.map fun p => SimClient.fresh p.creds p.activateAt
      else (s.workers v).clients := by
  rw [enroll_workers]
  split <;> rfl

/-- The control thread's counters are not the gauges. -/
theorem tally_gauges (s : Sys K n) (cs : List Counter) : (s.tally cs).gauges = s.gauges := by
  have hadd : ∀ (st : Stats) (c : Counter), (st.fetchAdd 1 c).activeClients = st.activeClients ∧
      (st.fetchAdd 1 c).suspendedClients = st.suspendedClients := by
    intro st c
    cases c <;> exact ⟨rfl, rfl⟩
  have hall : ∀ st : Stats, (cs.foldl (fun st c => st.fetchAdd 1 c) st).activeClients =
        st.activeClients ∧
      (cs.foldl (fun st c => st.fetchAdd 1 c) st).suspendedClients = st.suspendedClients := by
    induction cs with
    | nil => exact fun _ => ⟨rfl, rfl⟩
    | cons c cs ih =>
      intro st
      obtain ⟨ha, hs⟩ := ih (st.fetchAdd 1 c)
      exact ⟨ha.trans (hadd st c).1, hs.trans (hadd st c).2⟩
  unfold gauges tally
  rw [(hall s.stats).1, (hall s.stats).2]

variable [Field K] [LinearOrder K] [FloorRing K] (P : Platform K) (cfg : Config K)
  {s s' : Sys K n}

/-- What one step does to the clients. -/
inductive Moves (e : Event K n) (s s' : Sys K n) : Prop
  | same (h : SameClients s s')
  | enroll (w : Fin n) (h : s' = s.applyPendingClients w)
  | turn {w : Fin n} {i : Nat} {c : SimClient K} {o : Worker.Out K} (t : Sys K n)
      (hc : s.client? w i = some c) (ho : Turn P cfg s w i c e o) (ht : SameClients s t)
      (h : s' = t.commit w i o)

/-- **Step lemma.** Clients are only appended, or changed by a turn of one of them. -/
theorem step_moves {e : Event K n} (h : s.step P cfg e = some s') :
    Moves P cfg e s s' := by
  cases step_cases h with
  | addClient =>
    refine .same ((SameClients.setWorker s ?_ ?_ ?_).trans (.of_eq rfl rfl rfl))
    · rfl
    · exact le_rfl
    · exact id
  | startWorker | stopWorker | takeInbox => exact .same (.setWorker s rfl le_rfl id)
  | applyPendingClients => exact .enroll _ rfl
  | applyUpdate hu hc =>
    refine .turn _ hc (.update (hu ▸ List.mem_cons_self ..)) ?_ rfl
    refine (SameClients.setWorker s ?_ ?_ ?_).trans (.of_eq rfl rfl rfl)
    · rfl
    · exact le_rfl
    · exact id
  | tick _ hnow hns => exact .same (.setWorker s rfl (hnow.trans hns) fun _ => hns)
  | activate _ hc => exact .turn s hc (.activate _ _) (.refl s) rfl
  | sendDue _ hc => exact .turn s hc (.send _) (.refl s) rfl
  | rxDropped => exact .same (.refl s)
  | rxBegin hc _ _ hk =>
    refine .turn _ hc (.rxBegin _ _ _) ?_ rfl
    exact .setWorker s rfl hk fun hn => hn.trans hk
  | @rxMember _ t _ signedBundle nowMs m _ _ _ _ hc =>
    refine .turn _ hc (.rxMember signedBundle nowMs t m) ?_ rfl
    exact .setWorker s rfl le_rfl id
  | @rxEnd _ _ _ _ ok _ _ hc =>
    refine .turn _ hc (.rxEnd ok) ?_ rfl
    exact .setWorker s rfl le_rfl id
  | pop | shutdown | exit => exact .same (.of_eq rfl rfl rfl)
  | refresh =>
    refine .same ?_
    unfold refresh
    dsimp only
    split
    · exact .of_eq rfl (tally_gauges ..) rfl
    · exact .of_eq rfl (tally_gauges ..) rfl
  | place => exact .same (.of_eq rfl (tally_gauges ..) rfl)
  | post =>
    have hjob : SameClients s { s with job := none } := .of_eq rfl rfl rfl
    refine .same (hjob.trans ?_)
    unfold post
    refine SameClients.trans (.setWorker _ ?_ ?_ ?_) (.of_eq rfl rfl rfl)
    · rfl
    · exact le_rfl
    · exact id

end CksLoadtest.Protocol.Sys
