import CksLoadtest.Protocol.Clients
import CksLoadtest.Protocol.System

/-!
# The process refines the exchange

Forgetting statistics, sockets, clocks and everything of a client but its core, each
event of the process is a step of the exchange. With the sessions of the exchange
this carries what holds of one client's session to every run of the process.
-/
namespace CksLoadtest.Protocol

open Lib.Buffer Lib.Transition
open Worker (core pushes Follows isTokenErrorMember)

variable {K : Type*} {n : Nat}

namespace Sys

def exchange (s : Sys K n) : Exchange n where
  slots w := (s.workers w).clients.map core
  pending w := (s.workers w).pending.map (·.creds)
  inbox w := (s.workers w).inbox
  updates w := (s.workers w).updates
  queue := s.queue
  job := s.job
  added := s.hist.added
  pushed := s.hist.pushed
  posted := s.hist.posted
  applied := s.hist.applied
  refreshed := s.hist.refreshed

theorem exchange_effect (w : Fin n) (i : Nat) (s : Sys K n) (e : Effect K) :
    (effect w i s e).exchange =
      s.exchange.push (requests w i s.hist.pushed.length (pushes [e])) := by
  have quiet : s.exchange = s.exchange.push [] := by simp [Exchange.push]
  cases e with
  | push suspension kind creds => rfl
  | count | errorCode | latency | activeClients | suspendedClients | socketOpened | socketClosed
  | send => exact quiet

theorem exchange_effects (w : Fin n) (i : Nat) (es : List (Effect K)) (s : Sys K n) :
    (es.foldl (effect w i) s).exchange =
      s.exchange.push (requests w i s.hist.pushed.length (pushes es)) := by
  induction es generalizing s with
  | nil => simp [Exchange.push, requests]
  | cons e es ih =>
    have he := exchange_effect w i s e
    have hlen : (effect w i s e).hist.pushed.length =
        s.hist.pushed.length + (pushes [e]).length := by
      have h := congrArg (fun x => x.pushed.length) he
      simpa [Exchange.push, Exchange.length_requests, exchange] using h
    rw [List.foldl_cons, ih, he, hlen]
    have hp : pushes (e :: es) = pushes [e] ++ pushes es := Worker.pushes_append [e] es
    rw [hp, Exchange.requests_append]
    simp [Exchange.push]

theorem exchange_logAdded (s : Sys K n) (w : Fin n) (creds : ClientCredentials) :
    (s.logAdded w creds).exchange =
      { s.exchange with
        added := Function.update s.exchange.added w (s.exchange.added w ++ [creds]) } := rfl

theorem exchange_logPosted (s : Sys K n) (u : ClientUpdate n) :
    (s.logPosted u).exchange = { s.exchange with posted := s.exchange.posted ++ [u] } := rfl

theorem exchange_logApplied (s : Sys K n) (a : Applied n) :
    (s.logApplied a).exchange = { s.exchange with applied := s.exchange.applied ++ [a] } := rfl

/-- A worker's part is replaced in every field of the exchange. -/
theorem exchange_setWorker (s : Sys K n) (w : Fin n) (x : WorkerSt K n) :
    (s.setWorker w x).exchange =
      { s.exchange with
        slots := Function.update s.exchange.slots w (x.clients.map core)
        pending := Function.update s.exchange.pending w (x.pending.map (·.creds))
        inbox := Function.update s.exchange.inbox w x.inbox
        updates := Function.update s.exchange.updates w x.updates } := by
  unfold exchange setWorker
  congr 1
  all_goals
    funext w'
    by_cases hw : w' = w
    · subst hw
      simp
    · simp [Function.update_of_ne hw]

/-- A change of one worker that the exchange cannot see. -/
theorem exchange_unseen {s : Sys K n} {w : Fin n} {x : WorkerSt K n}
    (hp : x.pending = (s.workers w).pending) (hi : x.inbox = (s.workers w).inbox)
    (hu : x.updates = (s.workers w).updates) (hc : x.clients = (s.workers w).clients) :
    (s.setWorker w x).exchange = s.exchange := by
  rw [exchange_setWorker, hp, hi, hu, hc]
  simp [exchange]

/-- Storing what a worker function left, as the exchange sees it. -/
theorem exchange_commit (s : Sys K n) (w : Fin n) (i : Nat) (o : Worker.Out K) :
    (s.commit w i o).exchange =
      (s.exchange.setSlot w i (core o.1)).push
        (requests w i s.exchange.pushed.length (pushes o.2)) := by
  unfold commit
  rw [exchange_effects, exchange_setWorker]
  simp [WorkerSt.setClient, Exchange.setSlot, List.map_set, exchange, setWorker]

theorem slot_of_client {s : Sys K n} {w : Fin n} {i : Nat} {c : SimClient K}
    (hc : s.client? w i = some c) : (s.exchange.slots w)[i]? = some (core c) := by
  unfold client? at hc
  simp only [exchange, List.getElem?_map, hc, Option.map_some]

/-- What an event is to the exchange. -/
def label [Field K] (cfg : Config K) (s : Sys K n) : Event K n → Label n
  | .addClient w creds _ => .add w creds
  | .applyPendingClients w => .enroll w
  | .takeInbox w => .take w
  | .applyUpdate w => .apply w
  | .activate w i .. => .act w i False
  | .sendDue w i _ => .act w i False
  | .rxBegin w i .. => .act w i False
  | .rxMember w _ =>
    match (s.workers w).rx with
    | some (i, walk) =>
      .act w i (∃ m ms c, walk.members = m :: ms ∧ s.client? w i = some c ∧
        isTokenErrorMember m = true ∧ c.state = .suspended ∧ c.refreshRequested = false)
    | none => .quiet
  | .rxEnd w =>
    match (s.workers w).rx with
    | some (i, _) => .act w i False
    | none => .quiet
  | .pop => .pop
  | .refresh api =>
    match s.job with
    | some j => .refresh (j.refresh cfg s.legacyRefresh api).2.1
    | none => .quiet
  | .place api =>
    match s.job with
    | some j =>
      match j.phase with
      | .placing attempt => .place (j.place cfg s.shutdown attempt api).1
      | _ => .quiet
    | none => .quiet
  | .post => .post
  | .startWorker _ | .stopWorker _ | .tick .. | .shutdown | .exit => .quiet

/-- A worker function on one client is a step of the exchange. -/
theorem step_act {s t : Sys K n} {w : Fin n} {i : Nat} {mark : Prop} {c : SimClient K}
    {o : Worker.Out K} (ht : t.exchange = s.exchange) (hc : s.client? w i = some c)
    (ho : Follows mark c o) :
    Exchange.Step s.exchange (.act w i mark) (t.commit w i o).exchange := by
  rw [exchange_commit, ht]
  exact .act (slot_of_client hc) ho

section

variable [Field K] [LinearOrder K] [FloorRing K] (P : Platform K) (cfg : Config K)
  {s s' : Sys K n}

omit [LinearOrder K] [FloorRing K] in
theorem step_applyUpdate {w : Fin n} {u : ClientUpdate n} {rest : List (ClientUpdate n)}
    {c : SimClient K} (hu : (s.workers w).updates = u :: rest)
    (hc : s.client? w u.clientIndex = some c) :
    Exchange.Step s.exchange (.apply w)
      (((s.setWorker w { s.workers w with updates := rest }).logApplied
        ⟨w, u.clientIndex, c.creds.index, u⟩).commit w u.clientIndex
          (Worker.applyUpdate cfg u.toUpdate c)).exchange := by
  obtain ⟨hcore, hpush⟩ := Worker.applyUpdate_core cfg u.toUpdate c
  have hstep := Exchange.Step.apply (x := s.exchange) (w := w) hu (slot_of_client hc)
  have hs : (s.setWorker w { s.workers w with updates := rest }).exchange =
      { s.exchange with updates := Function.update s.exchange.updates w rest } := by
    rw [exchange_setWorker]
    simp [exchange]
  rw [exchange_commit, hcore, hpush, exchange_logApplied, hs]
  simpa [Exchange.push, requests, Exchange.setSlot, core] using hstep

omit [LinearOrder K] [FloorRing K] in
theorem step_refresh {api : RefreshApi} {j : Job n} (hj : s.job = some j)
    (hp : j.phase = .refreshing) :
    Exchange.Step s.exchange (s.label cfg (.refresh api)) (s.refresh cfg api j).exchange := by
  have hresult : Exchange.RefreshResult j (j.refresh cfg s.legacyRefresh api).2.1 := by
    obtain ⟨creds, hi, ⟨kept, hc⟩ | hc⟩ := j.refresh_cases cfg s.legacyRefresh api
    · rw [hc]
      refine ⟨rfl, hi, .inl ⟨rfl, ?_⟩⟩
      cases kept
      · exact .inr rfl
      · exact .inl rfl
    · rw [hc]
      exact ⟨rfl, hi, .inr ⟨rfl, rfl⟩⟩
  have hstep := Exchange.Step.refresh (x := s.exchange) hj hp hresult
  simp only [label, hj]
  refine cast (congrArg _ ?_) hstep
  unfold refresh
  rcases hr : j.refresh cfg s.legacyRefresh api with ⟨legacy, j', cs⟩
  dsimp only
  split <;> rfl

omit [LinearOrder K] [FloorRing K] in
theorem step_place {api : AssignApi} {j : Job n} {attempt : Nat} (hj : s.job = some j)
    (hp : j.phase = .placing attempt) :
    Exchange.Step s.exchange (s.label cfg (.place api)) (s.place cfg attempt api j).exchange := by
  have hresult : Exchange.PlaceResult attempt j (j.place cfg s.shutdown attempt api).1 := by
    obtain ⟨creds, hi, ht, hc | hc | ⟨hlt, hc⟩⟩ := j.place_cases cfg s.shutdown attempt api
    · rw [hc]
      exact ⟨rfl, hi, rfl, ht, .inl ⟨_, rfl⟩⟩
    · rw [hc]
      exact ⟨rfl, hi, rfl, ht, .inl ⟨_, rfl⟩⟩
    · rw [hc]
      exact ⟨rfl, hi, rfl, ht, .inr ⟨hlt, rfl⟩⟩
  have hstep := Exchange.Step.place (x := s.exchange) hj hp hresult
  simp only [label, hj, hp]
  exact hstep

omit [Field K] [LinearOrder K] [FloorRing K] in
theorem step_post {j : Job n} {failed : Bool} (hj : s.job = some j)
    (hp : j.phase = .finished failed) :
    Exchange.Step s.exchange .post ({ s with job := none }.post (j.update failed)).exchange := by
  have hstep := Exchange.Step.post (x := s.exchange) hj hp
  refine cast (congrArg _ ?_) hstep
  unfold post
  dsimp only
  rw [exchange_logPosted, exchange_setWorker]
  simp [exchange]

/-- **Refinement.** Every event of the process is a step of the exchange. -/
theorem step_exchange {e : Event K n} (h : s.step P cfg e = some s') :
    Exchange.Step s.exchange (s.label cfg e) s'.exchange := by
  have quiet : ∀ {t : Sys K n}, t.exchange = s.exchange →
      Exchange.Step s.exchange .quiet t.exchange := by
    intro t ht
    rw [ht]
    exact .quiet
  cases step_cases h with
  | @addClient w creds activateAt =>
    rw [exchange_logAdded, exchange_setWorker]
    have hstep := @Exchange.Step.add _ s.exchange w creds
    refine cast (congrArg _ ?_) hstep
    simp [exchange]
  | startWorker | stopWorker | tick => exact quiet (exchange_unseen rfl rfl rfl rfl)
  | @applyPendingClients w _ =>
    have hstep := Exchange.Step.enroll (x := s.exchange) (w := w)
    refine cast (congrArg _ ?_) hstep
    unfold applyPendingClients
    rw [exchange_setWorker]
    simp [exchange, core, SimClient.fresh, Function.comp_def]
  | @takeInbox w hi =>
    have hstep := Exchange.Step.take (x := s.exchange) (w := w) hi.2.1
    refine cast (congrArg _ ?_) hstep
    rw [exchange_setWorker]
    simp [exchange]
  | applyUpdate hu hc => exact step_applyUpdate cfg hu hc
  | @activate _ _ draws outcome c _ hc =>
    exact step_act rfl hc (Worker.activateDueClient_follows P cfg _ _ draws outcome c)
  | @sendDue _ _ inputs c _ hc =>
    exact step_act rfl hc (Worker.sendDueUpdate_follows P cfg _ inputs c)
  | rxDropped hc =>
    have hstep := @Exchange.Step.act _ _ _ _ False _ _ _ (slot_of_client hc) (.refl _)
    rwa [Exchange.setSlot_self (slot_of_client hc), requests, Exchange.push_nil] at hstep
  | @rxBegin _ _ rxNs nowMs data c hc =>
    exact step_act (exchange_unseen rfl rfl rfl rfl) hc
      (Worker.beginDatagram_follows P rxNs nowMs data c)
  | @rxMember _ t _ signedBundle nowMs m ms _ c hrx hc =>
    simp only [label, hrx]
    refine step_act (exchange_unseen rfl rfl rfl rfl) hc ?_
    refine (Worker.handleMember_follows P cfg signedBundle nowMs t m c).mono ?_
    rintro ⟨hm, hs, hf⟩
    exact ⟨m, ms, c, rfl, hc, hm, hs, hf⟩
  | @rxEnd _ _ _ _ ok c hrx hc =>
    simp only [label, hrx]
    exact step_act (exchange_unseen rfl rfl rfl rfl) hc (Worker.endDatagram_follows ok c)
  | pop _ hj hq => exact .pop hj hq
  | refresh hj hp => exact step_refresh cfg hj hp
  | place hj hp => exact step_place cfg hj hp
  | post hj hp => exact step_post hj hp
  | shutdown | exit => exact quiet rfl

/-- Runs of the process are runs of the exchange, with their conditions. -/
theorem exchange_reach {G : Sys K n → Event K n → Prop} {H : Exchange n → Label n → Prop}
    (hG : ∀ s e, G s e → H s.exchange (s.label cfg e)) (h : (system P cfg n).GReach G s) :
    (Exchange.system n).GReach H s.exchange := by
  refine System.GReach.simulate (Exchange.system n) (fun s => some s.exchange) ?_ ?_ h _ rfl
  · rintro _ x rfl hx
    exact (Option.some.inj hx).symm
  · rintro s e s' x' - hg hs hx
    refine .inr ⟨s.exchange, rfl, ?_⟩
    obtain rfl := Option.some.inj hx
    exact .single (hG s e hg) (step_exchange P cfg hs)

end

end Sys

end CksLoadtest.Protocol
