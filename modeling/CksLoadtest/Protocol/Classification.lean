import CksLoadtest.Protocol.System
import CksLoadtest.Worker.Box

/-!
# The permission box only classifies

Two runs of the process on the same events, with configs that differ in the permission box
alone, look alike at every step: only the clients' boxes, their log flags and the tally of
reloads may differ. Updates may come from anywhere.
-/
namespace CksLoadtest

open Lib.Buffer Lib.Transition

namespace Stats

/-- The counters without the tally of reloads. -/
def withoutReloads (s : Stats) : Stats := { s with unauthorizedWindowReload := 0 }

theorem withoutReloads_fetchAdd (s : Stats) (k : Nat) (c : Counter) :
    (s.withoutReloads.fetchAdd k c).withoutReloads = (s.fetchAdd k c).withoutReloads := by
  cases c <;> rfl

theorem withoutReloads_foldl (cs : List Counter) (s : Stats) :
    (cs.foldl (fun st c => st.fetchAdd 1 c) s.withoutReloads).withoutReloads =
      (cs.foldl (fun st c => st.fetchAdd 1 c) s).withoutReloads := by
  induction cs generalizing s with
  | nil => rfl
  | cons c cs ih =>
    rw [List.foldl_cons, List.foldl_cons, ← ih, withoutReloads_fetchAdd, ih]

end Stats

namespace Protocol

variable {K : Type*} {n : Nat}

def WorkerSt.unboxed (x : WorkerSt K n) : WorkerSt K n :=
  { x with clients := x.clients.map SimClient.unboxed }

def Sent.unboxed (d : Sent K n) : Sent K n := { d with client := d.client.unboxed }

namespace Sys

/-- The process without the boxes, the log flags and the tally of reloads. -/
def unboxed (s : Sys K n) : Sys K n :=
  { s with
    workers := fun w => (s.workers w).unboxed
    stats := s.stats.withoutReloads
    hist := { s.hist with sent := s.hist.sent.map Sent.unboxed } }

theorem unboxed_setWorker (s : Sys K n) (w : Fin n) (x : WorkerSt K n) :
    (s.setWorker w x).unboxed = s.unboxed.setWorker w x.unboxed := by
  have hworkers : (fun v => (Function.update s.workers w x v).unboxed) =
      Function.update (fun v => (s.workers v).unboxed) w x.unboxed := by
    funext v
    by_cases hv : v = w
    · subst hv
      simp
    · simp [hv]
  simp only [unboxed, setWorker, hworkers]

theorem unboxed_effect (w : Fin n) (i : Nat) (s : Sys K n) (e : Effect K) :
    (effect w i s e).unboxed = match e.unboxed with
      | some e' => effect w i s.unboxed e'
      | none => s.unboxed := by
  cases e with
  | count c k => cases c <;> rfl
  | send client bytes =>
    simp only [effect, Effect.unboxed, unboxed, List.map_append]
    rfl
  | _ => rfl

theorem unboxed_effects (w : Fin n) (i : Nat) (es : List (Effect K)) (s : Sys K n) :
    (es.foldl (effect w i) s).unboxed =
      (es.filterMap Effect.unboxed).foldl (effect w i) s.unboxed := by
  induction es generalizing s with
  | nil => rfl
  | cons e es ih =>
    rw [List.foldl_cons, ih, unboxed_effect, List.filterMap_cons]
    cases e.unboxed <;> rfl

theorem unboxed_commit (s : Sys K n) (w : Fin n) (i : Nat) (o : Worker.Out K) :
    (s.commit w i o).unboxed = s.unboxed.commit w i (Worker.seen o) := by
  have hclients : ((s.workers w).setClient i o.1).unboxed =
      (s.unboxed.workers w).setClient i o.1.unboxed := by
    simp only [WorkerSt.setClient, WorkerSt.unboxed, List.map_set, unboxed]
  unfold commit
  rw [unboxed_effects, unboxed_setWorker, hclients]
  rfl

@[simp] theorem map_unboxed_unboxed (cs : List (SimClient K)) :
    (cs.map SimClient.unboxed).map SimClient.unboxed = cs.map SimClient.unboxed := by
  rw [List.map_map]
  rfl

@[simp] theorem unboxed_unboxed (s : Sys K n) : s.unboxed.unboxed = s.unboxed := by
  have hsent : (s.hist.sent.map Sent.unboxed).map Sent.unboxed = s.hist.sent.map Sent.unboxed := by
    rw [List.map_map]
    rfl
  simp only [unboxed, WorkerSt.unboxed, map_unboxed_unboxed, hsent]
  rfl

theorem unboxed_tally (s : Sys K n) (cs : List Counter) :
    (s.unboxed.tally cs).unboxed = (s.tally cs).unboxed := by
  have hstats := Stats.withoutReloads_foldl cs s.stats
  show ({ s.unboxed.unboxed with
    stats := (cs.foldl (fun st c => st.fetchAdd 1 c) s.stats.withoutReloads).withoutReloads } :
      Sys K n) = _
  rw [hstats, unboxed_unboxed]
  rfl

/-- A client as the unboxed process has it. -/
theorem unboxed_clients (s : Sys K n) (w : Fin n) (i : Nat) :
    ((s.unboxed.workers w).clients)[i]? = ((s.workers w).clients[i]?).map SimClient.unboxed :=
  List.getElem?_map ..

theorem setWorker_alike {s t : Sys K n} {w : Fin n} {x y : WorkerSt K n}
    (hs : s.unboxed = t.unboxed) (hx : x.unboxed = y.unboxed) :
    (s.setWorker w x).unboxed = (t.setWorker w y).unboxed := by
  rw [unboxed_setWorker, unboxed_setWorker, hs, hx]

theorem commit_alike {s t : Sys K n} {w : Fin n} {i : Nat} {o o' : Worker.Out K}
    (hs : s.unboxed = t.unboxed) (ho : Worker.seen o = Worker.seen o') :
    (s.commit w i o).unboxed = (t.commit w i o').unboxed := by
  rw [unboxed_commit, unboxed_commit, hs, ho]

/-- A worker whose clients are replaced by what is left of them. -/
theorem unboxed_clients_eq (x : WorkerSt K n) (y : List (SimClient K) → WorkerSt K n)
    (hy : ∀ cs, (y cs).unboxed = { y [] with clients := cs.map SimClient.unboxed }) :
    (y x.unboxed.clients).unboxed = (y x.clients).unboxed := by
  rw [hy, hy]
  exact congrArg (fun cs => { y [] with clients := cs }) (map_unboxed_unboxed x.clients)

theorem post_alike {s t : Sys K n} (hs : s.unboxed = t.unboxed) (u : ClientUpdate n) :
    (s.post u).unboxed = (t.post u).unboxed := by
  have hpost : ∀ s : Sys K n, (s.post u).unboxed = (s.unboxed.post u).unboxed := by
    intro s
    refine congrArg (fun t => t.logPosted u) (setWorker_alike (unboxed_unboxed s).symm ?_)
    exact (unboxed_clients_eq (s.workers u.request.workerIndex) (fun cs =>
      { s.workers u.request.workerIndex with
        inbox := (s.workers u.request.workerIndex).inbox ++ [u], clients := cs }) fun _ => rfl).symm
  rw [hpost, hpost t, hs]

theorem map_ite {p q : Prop} [Decidable p] [Decidable q] (hpq : p ↔ q)
    {s s' t t' : Option (Sys K n)} (hst : s.map unboxed = t.map unboxed)
    (hst' : s'.map unboxed = t'.map unboxed) :
    (if p then s else s').map unboxed = (if q then t else t').map unboxed := by
  by_cases hp : p
  · rw [if_pos hp, if_pos (hpq.mp hp), hst]
  · rw [if_neg hp, if_neg (hpq.not.mp hp), hst']

/-- A change that neither looks at the boxes nor touches them. -/
theorem change_alike {f : Sys K n → Sys K n} (hf : ∀ s, (f s).unboxed = f s.unboxed)
    (s : Sys K n) : (f s.unboxed).unboxed = (f s).unboxed := by
  rw [hf, hf, unboxed_unboxed]

section Step

variable [Field K] [LinearOrder K] [FloorRing K] (P : Platform K) (cfg : Config K)

omit [LinearOrder K] [FloorRing K] in
theorem applyUpdate_unboxed (r g : Int) (s : Sys K n) (w : Fin n) :
    (s.unboxed.applyUpdate (cfg.withBoxModel r g) w).map unboxed =
      (s.applyUpdate cfg w).map unboxed := by
  have hupdates : (s.unboxed.workers w).updates = (s.workers w).updates := rfl
  unfold applyUpdate client?
  dsimp only
  rw [hupdates]
  cases (s.workers w).updates with
  | nil => rfl
  | cons u rest =>
    dsimp only
    rw [unboxed_clients]
    cases hc : (s.workers w).clients[u.clientIndex]? with
    | none => rfl
    | some c =>
      have hset := setWorker_alike (w := w) (unboxed_unboxed s) (unboxed_clients_eq (s.workers w)
        (fun cs => { s.workers w with updates := rest, clients := cs }) fun _ => rfl)
      refine congrArg some (commit_alike ?_
        (Worker.applyUpdate_respects cfg r g u.toUpdate c _))
      exact congrArg (fun t => t.logApplied ⟨w, u.clientIndex, c.creds.index, u⟩) hset

omit [LinearOrder K] [FloorRing K] in
theorem rxBegin_unboxed (s : Sys K n) (w : Fin n) (i : Nat) (rxNs nowMs : Int) (data : Bytes) :
    (s.unboxed.rxBegin P w i rxNs nowMs data).map unboxed =
      (s.rxBegin P w i rxNs nowMs data).map unboxed := by
  unfold rxBegin
  dsimp only
  rw [unboxed_clients]
  cases hc : (s.workers w).clients[i]? with
  | none => rfl
  | some c =>
    obtain ⟨hseen, hwalk⟩ := Worker.beginDatagram_respects P rxNs nowMs data c ⟨⟨0, 0, 0⟩, 0, false⟩
    have hset := setWorker_alike (w := w) (unboxed_unboxed s) (unboxed_clients_eq (s.workers w)
      (fun cs => { s.workers w with
        clock := rxNs
        rx := (Worker.beginDatagram P rxNs nowMs data c).2.map fun walk => (i, walk)
        clients := cs }) fun _ => rfl)
    refine map_ite Iff.rfl rfl (map_ite Iff.rfl (congrArg some (unboxed_unboxed s)) ?_)
    refine congrArg some (commit_alike ?_ hseen)
    rw [show (Worker.beginDatagram P rxNs nowMs data c.unboxed).2 = _ from hwalk]
    exact hset

omit [Field K] [LinearOrder K] [FloorRing K] in
theorem rxMember_unboxed (r g : Int) (s : Sys K n) (w : Fin n) (t : Worker.Readings) :
    (s.unboxed.rxMember P (cfg.withBoxModel r g) w t).map unboxed =
      (s.rxMember P cfg w t).map unboxed := by
  have hrx : (s.unboxed.workers w).rx = (s.workers w).rx := rfl
  unfold rxMember
  dsimp only
  rw [hrx]
  split
  · rename_i i signedBundle nowMs m ms ok hm
    rw [unboxed_clients]
    cases hc : (s.workers w).clients[i]? with
    | none => rfl
    | some c =>
      exact congrArg some (commit_alike
        (setWorker_alike (w := w) (unboxed_unboxed s) (unboxed_clients_eq (s.workers w)
          (fun cs => { s.workers w with
            rx := some (i, ⟨signedBundle, nowMs, ms, ok⟩), clients := cs }) fun _ => rfl))
        (Worker.handleMember_respects P cfg r g signedBundle nowMs t m c _))
  · rfl

omit [Field K] [LinearOrder K] [FloorRing K] in
theorem rxEnd_unboxed (s : Sys K n) (w : Fin n) :
    (s.unboxed.rxEnd w).map unboxed = (s.rxEnd w).map unboxed := by
  have hrx : (s.unboxed.workers w).rx = (s.workers w).rx := rfl
  unfold rxEnd
  dsimp only
  rw [hrx]
  split
  · rename_i i signedBundle nowMs ok hm
    rw [unboxed_clients]
    cases hc : (s.workers w).clients[i]? with
    | none => rfl
    | some c =>
      exact congrArg some (commit_alike
        (setWorker_alike (w := w) (unboxed_unboxed s) (unboxed_clients_eq (s.workers w)
          (fun cs => { s.workers w with rx := none, clients := cs }) fun _ => rfl)) rfl)
  · rfl

omit [Field K] [LinearOrder K] [FloorRing K] in
theorem refresh_unboxed (r g : Int) (s : Sys K n) (api : RefreshApi) (j : Job n) :
    (s.unboxed.refresh (cfg.withBoxModel r g) api j).unboxed =
      (s.refresh cfg api j).unboxed := by
  have hjob : j.refresh (cfg.withBoxModel r g) s.legacyRefresh api =
      j.refresh cfg s.legacyRefresh api := rfl
  have hlegacy : s.unboxed.legacyRefresh = s.legacyRefresh := rfl
  unfold refresh
  rw [hlegacy, hjob]
  obtain ⟨legacy, j', cs⟩ := j.refresh cfg s.legacyRefresh api
  have htally := congrArg (fun t : Sys K n => { t with legacyRefresh := legacy, job := some j' })
    (unboxed_tally s cs)
  dsimp only
  split
  · exact congrArg (fun t : Sys K n => t.logRefreshed _) htally
  · exact htally

omit [Field K] [LinearOrder K] [FloorRing K] in
theorem place_unboxed (r g : Int) (s : Sys K n) (attempt : Nat) (api : AssignApi) (j : Job n) :
    (s.unboxed.place (cfg.withBoxModel r g) attempt api j).unboxed =
      (s.place cfg attempt api j).unboxed := by
  have hjob : j.place (cfg.withBoxModel r g) s.shutdown attempt api =
      j.place cfg s.shutdown attempt api := rfl
  have hshutdown : s.unboxed.shutdown = s.shutdown := rfl
  unfold place
  rw [hshutdown, hjob]
  obtain ⟨j', cs⟩ := j.place cfg s.shutdown attempt api
  exact congrArg (fun t : Sys K n => { t with job := some j' }) (unboxed_tally s cs)

/-- **One step.** What a step leaves, but for the boxes, does not depend on the boxes nor on
their settings. -/
theorem step_unboxed (r g : Int) (s : Sys K n) (e : Event K n) :
    (s.unboxed.step P (cfg.withBoxModel r g) e).map unboxed = (s.step P cfg e).map unboxed := by
  have hs : s.unboxed.unboxed = s.unboxed := unboxed_unboxed s
  have hclients : ∀ w, (s.unboxed.workers w).clients =
      (s.workers w).clients.map SimClient.unboxed := fun _ => rfl
  cases e with
  | addClient w creds activateAt =>
    refine congrArg (fun t => some (t.logAdded w creds)) (setWorker_alike hs ?_)
    exact unboxed_clients_eq (s.workers w) (fun cs =>
      { s.workers w with
        pending := (s.workers w).pending ++ [⟨creds, activateAt⟩], clients := cs }) fun _ => rfl
  | startWorker w =>
    exact map_ite Iff.rfl (congrArg some (setWorker_alike hs (unboxed_clients_eq (s.workers w)
      (fun cs => { s.workers w with thread := .running, clients := cs }) fun _ => rfl))) rfl
  | stopWorker w =>
    exact map_ite Iff.rfl (congrArg some (setWorker_alike hs (unboxed_clients_eq (s.workers w)
      (fun cs => { s.workers w with thread := .stopped, clients := cs }) fun _ => rfl))) rfl
  | applyPendingClients w =>
    refine map_ite Iff.rfl (congrArg some (setWorker_alike hs ?_)) rfl
    have hmap : ∀ new : List (SimClient K), ((s.unboxed.workers w).clients ++ new).map
        SimClient.unboxed = ((s.workers w).clients ++ new).map SimClient.unboxed := by
      intro new
      rw [List.map_append, List.map_append, hclients, map_unboxed_unboxed]
    exact congrArg (fun cs => ({ s.workers w with pending := [], clients := cs } : WorkerSt K n))
      (hmap _)
  | takeInbox w =>
    exact map_ite Iff.rfl (congrArg some (setWorker_alike hs (unboxed_clients_eq (s.workers w)
      (fun cs => { s.workers w with
        updates := (s.workers w).inbox, inbox := [], clients := cs }) fun _ => rfl))) rfl
  | applyUpdate w => exact applyUpdate_unboxed cfg r g s w
  | tick w now nowNs =>
    exact map_ite Iff.rfl (congrArg some (setWorker_alike hs (unboxed_clients_eq (s.workers w)
      (fun cs => { s.workers w with
        clock := nowNs, now := now, nowNs := nowNs, clients := cs }) fun _ => rfl))) rfl
  | activate w i draws outcome =>
    refine map_ite Iff.rfl ?_ rfl
    rw [unboxed_clients]
    cases hc : (s.workers w).clients[i]? with
    | none => rfl
    | some c =>
      exact congrArg some (commit_alike hs (Worker.activateDueClient_respects P cfg r g
        (s.workers w).now (steadySeconds (s.workers w).nowNs) draws outcome c _))
  | sendDue w i inputs =>
    refine map_ite Iff.rfl ?_ rfl
    rw [unboxed_clients]
    cases hc : (s.workers w).clients[i]? with
    | none => rfl
    | some c =>
      exact congrArg some (commit_alike hs (Worker.sendDueUpdate_respects P cfg r g
        (steadySeconds (s.workers w).nowNs) inputs c _))
  | rxBegin w i rxNs nowMs data => exact rxBegin_unboxed P s w i rxNs nowMs data
  | rxMember w readings => exact rxMember_unboxed P cfg r g s w readings
  | rxEnd w => exact rxEnd_unboxed s w
  | pop =>
    have hqueue : s.unboxed.queue = s.queue := rfl
    refine map_ite Iff.rfl rfl ?_
    rw [hqueue]
    cases s.queue with
    | nil => rfl
    | cons q rest =>
      exact congrArg some (change_alike (f := fun s =>
        { s with queue := rest, job := some (Job.start q) }) (fun _ => rfl) s)
  | refresh api =>
    have hjob : s.unboxed.job = s.job := rfl
    simp only [step, hjob]
    cases s.job with
    | none => rfl
    | some j => exact map_ite Iff.rfl (congrArg some (refresh_unboxed cfg r g s api j)) rfl
  | place api =>
    have hjob : s.unboxed.job = s.job := rfl
    simp only [step, hjob]
    cases s.job with
    | none => rfl
    | some j =>
      dsimp only
      cases j.phase with
      | placing attempt => exact congrArg some (place_unboxed cfg r g s attempt api j)
      | refreshing | finished => rfl
  | post =>
    have hjob : s.unboxed.job = s.job := rfl
    simp only [step, hjob]
    cases s.job with
    | none => rfl
    | some j =>
      dsimp only
      cases j.phase with
      | finished failed =>
        exact congrArg some (post_alike (change_alike (f := fun s => { s with job := none })
          (fun _ => rfl) s) (j.update failed))
      | refreshing | placing => rfl
  | shutdown =>
    exact map_ite Iff.rfl (congrArg some (change_alike (f := fun s => { s with shutdown := true })
      (fun _ => rfl) s)) rfl
  | exit =>
    exact map_ite Iff.rfl (congrArg some (change_alike (f := fun s => { s with exited := true })
      (fun _ => rfl) s)) rfl

/-- An event of the process, or an update that some other thread posts. -/
def feed (s : Sys K n) : Event K n ⊕ ClientUpdate n → Option (Sys K n)
  | .inl e => s.step P cfg e
  | .inr u => some (s.post u)

theorem feed_alike (r g : Int) {s t : Sys K n} (hst : s.unboxed = t.unboxed)
    (e : Event K n ⊕ ClientUpdate n) :
    (s.feed P cfg e).map unboxed = (t.feed P (cfg.withBoxModel r g) e).map unboxed := by
  cases e with
  | inl e =>
    have hs := step_unboxed P cfg 0 0 s e
    have ht := step_unboxed P (cfg.withBoxModel r g) 0 0 t e
    rw [← hst] at ht
    exact hs.symm.trans ht
  | inr u => exact congrArg some (post_alike hst u)

/-- **The box only classifies.** Two processes that start alike and are fed the same events,
with configs that differ in the permission box alone, refuse the same events and stay alike:
the clients but for their boxes and log flags, the requests, the datagrams handed over, the
sockets and every counter but the tally of reloads are the same. -/
theorem runs_alike (r g : Int) {s t : Sys K n} (hst : s.unboxed = t.unboxed)
    (es : List (Event K n ⊕ ClientUpdate n)) :
    (System.exec (feed P cfg) s es).map unboxed =
      (System.exec (feed P (cfg.withBoxModel r g)) t es).map unboxed :=
  System.exec_unwind unboxed (fun _ _ e h => feed_alike P cfg r g h e) es hst

end Step

/-- A client walks for a minute and is refused. -/
def refusedWalk : List (Event ℚ 1 ⊕ ClientUpdate 1) :=
  (Sample.started ++
    [Event.tick 0 60000000000 60000000000, .sendDue 0 0 ⟨0, 0, Sample.draws, true, true⟩,
      .rxBegin 0 0 60000000001 0 [Wire.GENERIC_ERROR_MESSAGE, 0, Wire.ERR_UNAUTHORIZED],
      .rxMember 0 ⟨60000000002, 60000000002⟩, .rxEnd 0]).map .inl

/-- A small box explains the refusal that a large one does not, and nothing else differs. -/
theorem refusedWalk_alike :
    ((System.exec (feed Sample.platform Sample.config) {} refusedWalk).map fun s =>
      s.stats.unauthorizedWindowReload) = some 0 ∧
    ((System.exec (feed Sample.platform (Sample.config.withBoxModel 2 5000)) {} refusedWalk).map
      fun s => s.stats.unauthorizedWindowReload) = some 1 ∧
    (System.exec (feed Sample.platform Sample.config) {} refusedWalk).map unboxed =
      (System.exec (feed Sample.platform (Sample.config.withBoxModel 2 5000)) {}
        refusedWalk).map unboxed :=
  ⟨by decide +kernel, by decide +kernel, runs_alike Sample.platform Sample.config 2 5000 rfl _⟩

end Sys

end Protocol

end CksLoadtest
