import Mathlib.Algebra.BigOperators.Group.Finset.Basic
import Mathlib.Algebra.BigOperators.Pi
import Mathlib.Algebra.BigOperators.Ring.Finset
import Mathlib.Algebra.Order.BigOperators.Group.Finset
import CksLoadtest.Protocol.Refinement
import CksLoadtest.Protocol.Turns

/-!
# The shared gauges

The gauges are sums over all clients of all workers: a turn of one client moves them
by what it moves that client, so they agree with the clients in every state.
-/
namespace CksLoadtest.Protocol

open Lib.Buffer Lib.Transition
open Worker (Level Balanced FdOk gaugeStep level socketRun)

variable {K : Type*} {n : Nat}

namespace Sys

/-- What the clients of one worker count for. -/
def workerLevel (s : Sys K n) (w : Fin n) : Level := ((s.workers w).clients.map level).sum

def census (s : Sys K n) : Level := ∑ w, s.workerLevel w

/-- Number of clients in a state. -/
def clientsIn (s : Sys K n) (st : State) : Nat :=
  ∑ w, (s.workers w).clients.countP fun c => c.state = st

theorem gauges_effect (w : Fin n) (i : Nat) (s : Sys K n) (e : Effect K) :
    (effect w i s e).gauges = s.gauges + gaugeStep e := by
  have hcount : ∀ (st : Stats) (c : Counter) (k : Nat),
      (st.fetchAdd k c).activeClients = st.activeClients ∧
        (st.fetchAdd k c).suspendedClients = st.suspendedClients := by
    intro st c k
    cases c <;> exact ⟨rfl, rfl⟩
  cases e with
  | count c k =>
    simp only [gauges, effect, (hcount s.stats c k).1, (hcount s.stats c k).2, gaugeStep, add_zero]
  | errorCode | latency | push | send => exact (add_zero _).symm
  | activeClients d => simp [gauges, effect, gaugeStep]
  | suspendedClients d => simp [gauges, effect, gaugeStep]
  | socketOpened => simp [gauges, effect, gaugeStep]
  | socketClosed => simp [gauges, effect, gaugeStep, sub_eq_add_neg]

theorem gauges_effects (w : Fin n) (i : Nat) (es : List (Effect K)) (s : Sys K n) :
    (es.foldl (effect w i) s).gauges = s.gauges + Worker.gauges es := by
  induction es generalizing s with
  | nil => simp
  | cons e es ih => rw [List.foldl_cons, ih, gauges_effect, Worker.gauges_cons, add_assoc]

theorem gauges_commit (s : Sys K n) (w : Fin n) (i : Nat) (o : Worker.Out K) :
    (s.commit w i o).gauges = s.gauges + Worker.gauges o.2 := gauges_effects ..

theorem sum_level_set {l : List (SimClient K)} {i : Nat} {c : SimClient K} (d : SimClient K)
    (h : l[i]? = some c) :
    ((l.set i d).map level).sum = (l.map level).sum + (level d - level c) := by
  induction l generalizing i with
  | nil => simp at h
  | cons x xs ih =>
    cases i with
    | zero =>
      obtain rfl : x = c := by simpa using h
      simp only [List.set_cons_zero, List.map_cons, List.sum_cons]
      abel
    | succ i =>
      have hi := ih (i := i) (by simpa using h)
      simp only [List.set_cons_succ, List.map_cons, List.sum_cons, hi, add_assoc]

/-- Changing one worker moves the census by what that worker's level moved. -/
theorem census_update {s t : Sys K n} {w : Fin n} {d : Level}
    (hw : t.workerLevel w = s.workerLevel w + d)
    (hne : ∀ v, v ≠ w → t.workerLevel v = s.workerLevel v) : t.census = s.census + d := by
  have hrest : ∑ v ∈ Finset.univ.erase w, t.workerLevel v =
      ∑ v ∈ Finset.univ.erase w, s.workerLevel v :=
    Finset.sum_congr rfl fun v hv => hne v (Finset.ne_of_mem_erase hv)
  unfold census
  rw [← Finset.add_sum_erase _ _ (Finset.mem_univ w), hrest, hw,
    ← Finset.add_sum_erase _ s.workerLevel (Finset.mem_univ w)]
  abel

theorem census_same {s t : Sys K n} (h : SameClients s t) : t.census = s.census :=
  Finset.sum_congr rfl fun w _ => by unfold workerLevel; rw [h.clients w]

theorem census_commit {s : Sys K n} {w : Fin n} {i : Nat} {c : SimClient K}
    (hc : s.client? w i = some c) (o : Worker.Out K) :
    (s.commit w i o).census = s.census + (level o.1 - level c) := by
  refine census_update (w := w) ?_ fun v hv => ?_
  · unfold workerLevel
    rw [commit_clients, if_pos rfl]
    exact sum_level_set o.1 hc
  · unfold workerLevel
    rw [commit_clients, if_neg hv]

/-- A new client counts for nothing. -/
theorem census_enroll [Field K] (s : Sys K n) (w : Fin n) :
    (s.applyPendingClients w).census = s.census := by
  refine (census_update (w := w) (d := 0) ?_ fun v hv => ?_).trans (add_zero _)
  · have hfresh : ∀ ps : List PendingAdd,
        ((ps.map fun p => SimClient.fresh (K := K) p.creds p.activateAt).map level).sum = 0 := by
      intro ps
      induction ps with
      | nil => rfl
      | cons p ps ih =>
        rw [List.map_cons, List.map_cons, List.sum_cons, ih, add_zero]
        rfl
    unfold workerLevel
    rw [enroll_clients, if_pos rfl, List.map_append, List.sum_append, hfresh]
  · unfold workerLevel
    rw [enroll_clients, if_neg hv]

/-- Gauges and sockets as the clients have them. -/
structure Counted (s : Sys K n) : Prop where
  gauges : s.gauges = s.census
  fds : ∀ w, ∀ c ∈ (s.workers w).clients, FdOk c

section

variable [Field K] [LinearOrder K] [FloorRing K] (P : Platform K) (cfg : Config K)
  {s s' : Sys K n}

theorem turn_balanced {w : Fin n} {i : Nat} {c : SimClient K} {e : Event K n}
    {o : Worker.Out K} (h : Turn P cfg s w i c e o) : Balanced c o := by
  cases h with
  | update => exact Worker.applyUpdate_balanced cfg _ c
  | activate draws o => exact Worker.activateDueClient_balanced P cfg _ _ draws o c
  | send inputs => exact Worker.sendDueUpdate_balanced P cfg _ inputs c
  | rxBegin rxNs nowMs data => exact (Worker.beginDatagram_suspends P rxNs nowMs data c).balanced
  | rxMember b nowMs t m => exact (Worker.handleMember_suspends P cfg b nowMs t m c).balanced
  | rxEnd ok => exact (Worker.endDatagram_suspends ok c).balanced

theorem counted_step {e : Event K n} (hs : s.Counted) (hm : Moves P cfg e s s') : s'.Counted := by
  cases hm with
  | same h =>
    refine ⟨by rw [h.gauges, hs.gauges, census_same h], fun w c hc => ?_⟩
    exact hs.fds w c (h.clients w ▸ hc)
  | enroll w h =>
    subst h
    refine ⟨hs.gauges.trans (census_enroll s w).symm, fun v c hc => ?_⟩
    rw [enroll_clients] at hc
    split at hc
    · simp only [List.mem_append, List.mem_map] at hc
      rcases hc with hc | ⟨p, -, rfl⟩
      · exact hs.fds w c hc
      · exact ⟨fun h => absurd h Bool.false_ne_true, fun h => absurd h nofun⟩
    · exact hs.fds v c hc
  | @turn w i c o t hc ho ht h =>
    subst h
    have hct : t.client? w i = some c := by rw [client?, ht.clients w]; exact hc
    obtain ⟨hfd, hg, -⟩ := turn_balanced P cfg ho (hs.fds w c (List.mem_of_getElem? hc))
    refine ⟨?_, fun v d hd => ?_⟩
    · rw [gauges_commit, census_commit hct, ht.gauges, hs.gauges, census_same ht, hg]
    · rw [commit_clients] at hd
      split at hd
      · rw [ht.clients w] at hd
        rcases List.mem_or_eq_of_mem_set hd with hd | rfl
        · exact hs.fds w d hd
        · exact hfd
      · exact hs.fds v d (ht.clients v ▸ hd)

theorem counted_of_reach (h : (system P cfg n).Reach s) : s.Counted := by
  refine System.Reach.inv (I := Counted) ?_ ?_ h
  · rintro _ rfl
    refine ⟨?_, fun w c hc => absurd hc List.not_mem_nil⟩
    exact (Finset.sum_const_zero (s := (Finset.univ : Finset (Fin n)))).symm
  · intro s e s' _ hs he
    exact counted_step P cfg hs (step_moves P cfg he)

omit [Field K] [LinearOrder K] [FloorRing K] in
theorem sum_level (l : List (SimClient K)) (h : ∀ c ∈ l, FdOk c) :
    (l.map level).sum =
      (((l.countP fun c => c.state = .active : Nat) : Int),
        ((l.countP fun c => c.state = .suspended : Nat) : Int),
        ((l.countP fun c => c.state = .active : Nat) : Int)) := by
  induction l with
  | nil => rfl
  | cons c cs ih =>
    have hfd : (c.fd.isSome = true) = (c.state = .active) := propext (h c (List.mem_cons_self ..))
    rw [List.map_cons, List.sum_cons, ih fun d hd => h d (List.mem_cons_of_mem c hd)]
    simp only [List.countP_cons, level, hfd, decide_eq_true_eq, Prod.mk_add_mk, Nat.cast_add,
      Nat.cast_ite, Nat.cast_one, Nat.cast_zero, add_comm]

omit [Field K] [LinearOrder K] [FloorRing K] in
/-- The census in numbers of clients. -/
theorem Counted.census_eq (h : s.Counted) :
    s.census = ((s.clientsIn .active : Int), (s.clientsIn .suspended : Int),
      (s.clientsIn .active : Int)) := by
  have hw : ∀ w, s.workerLevel w = _ := fun w => sum_level _ (h.fds w)
  unfold census
  rw [Finset.sum_congr rfl fun w _ => hw w]
  refine Prod.ext ?_ (Prod.ext ?_ ?_)
  all_goals simp [clientsIn, Prod.fst_sum, Prod.snd_sum, Nat.cast_sum]

/-- What the gauges, the sockets and the clients have to do with each other. -/
structure GaugesAgree (s : Sys K n) : Prop where
  active : s.stats.activeClients = s.clientsIn .active
  suspended : s.stats.suspendedClients = s.clientsIn .suspended
  sockets : s.openSockets = s.clientsIn .active
  fds : ∀ w i c, s.client? w i = some c → (c.fd.isSome = true ↔ c.state = .active)
  /-- No worker function opens a socket over an open one. -/
  opens : ∀ w i c e o, s.client? w i = some c → Turn P cfg s w i c e o →
    socketRun c.fd.isSome o.2 = some o.1.fd.isSome
  nonneg : 0 ≤ s.stats.activeClients ∧ 0 ≤ s.stats.suspendedClients
  bounded : s.stats.activeClients + s.stats.suspendedClients ≤
    ((∑ w, (s.hist.added w).length : Nat) : Int)

/-- **The gauges.** In every reachable state the two gauges are the numbers of ACTIVE
and SUSPENDED clients, and the open sockets are those of the ACTIVE ones. -/
theorem gauges_agree (h : (system P cfg n).Reach s) : GaugesAgree P cfg s := by
  have hc := counted_of_reach P cfg h
  have hg := hc.gauges.trans hc.census_eq
  simp only [gauges, Prod.mk.injEq] at hg
  obtain ⟨ha, hsu, hso⟩ := hg
  have hfds : ∀ w i c, s.client? w i = some c → FdOk c :=
    fun w i c hci => hc.fds w c (List.mem_of_getElem? hci)
  refine ⟨ha, hsu, hso, hfds, fun w i c e o hci ho => ?_, ⟨by omega, by omega⟩, ?_⟩
  · exact (turn_balanced P cfg ho (hfds w i c hci)).2.2
  · have hplaced := (Exchange.sound_of_reach (exchange_reach (H := fun _ _ => True) P cfg
      (fun _ _ _ => trivial) h)).placed.covered
    have hw : ∀ w : Fin n, ((s.workers w).clients.countP fun c => c.state = .active) +
        ((s.workers w).clients.countP fun c => c.state = .suspended) ≤
          (s.hist.added w).length := by
      intro w
      have hlen : (s.workers w).clients.length ≤ (s.hist.added w).length := by
        simpa [exchange] using hplaced w
      have hdisj : (s.workers w).clients.countP (fun c => c.state = .suspended) ≤
          (s.workers w).clients.countP fun c => decide ¬ decide (c.state = .active) = true := by
        refine List.countP_mono_left fun c _ hst => ?_
        rw [decide_eq_true_eq] at hst
        simp [hst]
      have hsplit := List.length_eq_countP_add_countP (fun c : SimClient K => c.state = .active)
        (l := (s.workers w).clients)
      omega
    have hsum : s.clientsIn .active + s.clientsIn .suspended ≤ ∑ w, (s.hist.added w).length := by
      unfold clientsIn
      rw [← Finset.sum_add_distrib]
      exact Finset.sum_le_sum fun w _ => hw w
    rw [ha, hsu]
    exact_mod_cast hsum

end

end Sys

/-- A client that was refused a socket, suspended, moved and activated. -/
theorem gauges_agree_refused_socket : ∃ s : Sys ℚ 1, s.stats.activeClients = 1 ∧
    Sys.GaugesAgree Sample.platform Sample.config s := by
  have hrun : ((System.exec (Sys.step Sample.platform Sample.config) {}
      ([.addClient 0 Sample.creds 0, .startWorker 0, .applyPendingClients 0, .tick 0 1 1,
        .activate 0 0 Sample.draws ⟨false, true, true, true⟩, .pop, Sample.place, .post] ++
        Sample.applies 1 ++ [.tick 0 1000000000000 1000000000000,
          .activate 0 0 Sample.draws ⟨true, true, true, true⟩])).map fun s : Sys ℚ 1 =>
      s.stats.activeClients) = some 1 := by decide +kernel
  obtain ⟨s, hs, hm⟩ := Option.map_eq_some_iff.mp hrun
  have hr : (system Sample.platform Sample.config 1).Reach s :=
    System.Reach.exec (.init rfl) hs
  exact ⟨s, hm, Sys.gauges_agree Sample.platform Sample.config hr⟩

end CksLoadtest.Protocol
