import CksLoadtest.Protocol.Gauges
import CksLoadtest.Stats.Loads
import CksLoadtest.Stats.OneMark
import CksLoadtest.Worker.Tallies

/-!
# Sections cut into accesses

The counters are not behind a lock: while a thread is in a section, the others see some of its
accesses and not yet the rest. Here a section and its accesses are separate events, and the
readers and rungs of the statistics run beside the threads.
-/
namespace CksLoadtest.Protocol

open Lib.Buffer Lib.Tally Lib.Transition

variable {K : Type*} {n : Nat}

/-- A thread that writes counters: a worker or, as `none`, the control thread. -/
abbrev Thread (n : Nat) := Option (Fin n)

/-- The thread whose section an event is; the main thread writes no counter. -/
def Event.thread? : Event K n → Option (Thread n)
  | .addClient .. | .startWorker _ | .shutdown => none
  | .stopWorker w | .applyPendingClients w | .takeInbox w | .applyUpdate w | .tick w .. => some w
  | .activate w .. | .sendDue w .. | .rxBegin w .. | .rxMember w _ | .rxEnd w => some w
  | .pop | .refresh _ | .place _ | .post | .exit => some none

namespace Sys

/-- The accesses of the control thread's counters. -/
def tallyAtoms (cs : List Counter) : List Stats.Atom := cs.map fun c => .fetchAdd c 1

theorem effect_stats (w : Fin n) (i : Nat) (s : Sys K n) (e : Effect K) :
    (effect w i s e).stats = e.atoms.foldl Stats.Atom.apply s.stats := by
  cases e with
  | latency ms => exact (Stats.recordLatencyMs_atoms s.stats ms).symm
  | _ => rfl

theorem commit_stats (s : Sys K n) (w : Fin n) (i : Nat) (o : Worker.Out K) :
    (s.commit w i o).stats = (Worker.atoms o.2).foldl Stats.Atom.apply s.stats := by
  unfold commit
  generalize o.2 = es
  have hset : (s.setWorker w ((s.workers w).setClient i o.1)).stats = s.stats := rfl
  revert hset
  generalize s.setWorker w ((s.workers w).setClient i o.1) = t
  induction es generalizing s t with
  | nil => exact fun h => h
  | cons e es ih =>
    intro h
    have hrest := ih (effect w i t e) (effect w i t e) rfl
    rw [List.foldl_cons, hrest, effect_stats, h]
    exact (List.foldl_append ..).symm

theorem tally_stats (s : Sys K n) (cs : List Counter) :
    (s.tally cs).stats = (tallyAtoms cs).foldl Stats.Atom.apply s.stats := by
  unfold tally tallyAtoms
  rw [List.foldl_map]
  rfl

/-- What a worker function does to the counters, if there is a client to run it on. -/
def onClient (s : Sys K n) (w : Fin n) (i : Nat) (f : SimClient K → Worker.Out K) :
    List Stats.Atom :=
  match s.client? w i with
  | some c => Worker.atoms (f c).2
  | none => []

theorem onClient_some {s : Sys K n} {w : Fin n} {i : Nat} {c : SimClient K}
    (hc : s.client? w i = some c) (f : SimClient K → Worker.Out K) :
    s.onClient w i f = Worker.atoms (f c).2 := by
  unfold onClient
  rw [hc]

section

variable [Field K] [LinearOrder K] [FloorRing K] (P : Platform K) (cfg : Config K)

/-- The accesses of a section, in its order. -/
def atoms (s : Sys K n) : Event K n → List Stats.Atom
  | .applyUpdate w =>
    match (s.workers w).updates with
    | u :: _ => s.onClient w u.clientIndex (Worker.applyUpdate cfg u.toUpdate)
    | [] => []
  | .activate w i draws outcome =>
    let x := s.workers w
    s.onClient w i (Worker.activateDueClient P cfg x.now (steadySeconds x.nowNs) draws outcome)
  | .sendDue w i inputs =>
    s.onClient w i (Worker.sendDueUpdate P cfg (steadySeconds (s.workers w).nowNs) inputs)
  | .rxBegin w i rxNs nowMs data =>
    s.onClient w i fun c =>
      if c.state = .active then (Worker.beginDatagram P rxNs nowMs data c).1 else (c, [])
  | .rxMember w t =>
    match (s.workers w).rx with
    | some (i, ⟨signedBundle, nowMs, m :: _, _⟩) =>
      s.onClient w i (Worker.handleMember P cfg signedBundle nowMs t m)
    | _ => []
  | .rxEnd w =>
    match (s.workers w).rx with
    | some (i, ⟨_, _, [], ok⟩) => s.onClient w i (Worker.endDatagram ok)
    | _ => []
  | .refresh api =>
    match s.job with
    | some j => tallyAtoms (j.refresh cfg s.legacyRefresh api).2.2
    | none => []
  | .place api =>
    match s.job with
    | some j =>
      match j.phase with
      | .placing attempt => tallyAtoms (j.place cfg s.shutdown attempt api).2
      | _ => []
    | none => []
  | _ => []

variable {P cfg} {s s' : Sys K n} {e : Event K n}

/-- **A section is its accesses**, as far as the counters go. -/
theorem step_stats (h : s.step P cfg e = some s') :
    s'.stats = (s.atoms P cfg e).foldl Stats.Atom.apply s.stats := by
  cases step_cases h with
  | applyUpdate hu hc =>
    simp only [atoms, hu, onClient_some hc]
    exact commit_stats ..
  | activate hi hc =>
    simp only [atoms, onClient_some hc]
    exact commit_stats ..
  | sendDue hi hc =>
    simp only [atoms, onClient_some hc]
    exact commit_stats ..
  | rxDropped hc _ _ _ ha =>
    simp only [atoms, onClient_some hc, if_neg ha]
    rfl
  | rxBegin hc _ _ _ ha =>
    simp only [atoms, onClient_some hc, if_pos ha]
    exact commit_stats ..
  | rxMember hrx hc =>
    simp only [atoms, hrx, onClient_some hc]
    exact commit_stats ..
  | rxEnd hrx hc =>
    simp only [atoms, hrx, onClient_some hc]
    exact commit_stats ..
  | refresh hj hp =>
    simp only [atoms, hj]
    rw [← tally_stats]
    unfold refresh
    dsimp only
    split <;> rfl
  | place hj hp =>
    simp only [atoms, hj, hp]
    exact tally_stats ..
  | _ => rfl

theorem tallyAtoms_keeps (size : Nat) {cs : List Counter}
    (h : cs = [] ∨ cs = [.controlFailures] ∨ cs = [.reassignments] ∨ cs = [.tokenRefreshes] ∨
      cs = [.tokenRefreshes, .refreshesKeptServer]) : Stats.Keeps size (tallyAtoms cs) := by
  have hone : ∀ c : Counter, c.earns = true → Stats.Keeps size (tallyAtoms [c]) := by
    intro c hc
    have hgain := Stats.earns_gain hc size 1
    exact Stats.keeps_cons (fun b => (hgain b).1) (fun b => (hgain b).2) (Stats.keeps_nil size)
  rcases h with rfl | rfl | rfl | rfl | rfl
  · exact Stats.keeps_nil size
  · exact hone _ rfl
  · exact hone _ rfl
  · exact hone _ rfl
  · refine Stats.keeps_of_gains (fun b => ?_) rfl rfl
    cases b <;> simp [tallyAtoms, Safe, Form.gain, Balance.form, Cell.weight]

/-- **A section breaks no balance**, not even between two of its accesses. -/
theorem atoms_keep (h : s.step P cfg e = some s') :
    Stats.Keeps (SimClient.messageSize cfg) (s.atoms P cfg e) := by
  cases step_cases h with
  | @applyUpdate _ u _ c hu hc =>
    simp only [atoms, hu, onClient_some hc]
    exact Worker.Turn.run_coherent P cfg (.update u.toUpdate) c
  | @activate w _ draws outcome c hi hc =>
    simp only [atoms, onClient_some hc]
    exact Worker.Turn.run_coherent P cfg
      (.activate (s.workers w).now (steadySeconds (s.workers w).nowNs) draws outcome) c
  | @sendDue w _ inputs c hi hc =>
    simp only [atoms, onClient_some hc]
    exact Worker.Turn.run_coherent P cfg (.send (steadySeconds (s.workers w).nowNs) inputs) c
  | rxDropped hc _ _ _ ha =>
    simp only [atoms, onClient_some hc, if_neg ha]
    exact Stats.keeps_nil _
  | @rxBegin _ _ rxNs nowMs data c hc _ _ _ ha =>
    simp only [atoms, onClient_some hc, if_pos ha]
    exact Worker.Turn.run_coherent P cfg (.rxBegin rxNs nowMs data) c
  | @rxMember _ t _ signedBundle nowMs m _ _ c hrx hc =>
    simp only [atoms, hrx, onClient_some hc]
    exact Worker.Turn.run_coherent P cfg (.rxMember signedBundle nowMs t m) c
  | @rxEnd _ _ _ _ ok c hrx hc =>
    simp only [atoms, hrx, onClient_some hc]
    exact Worker.Turn.run_coherent P cfg (.rxEnd ok) c
  | @refresh api j hj hp =>
    simp only [atoms, hj]
    apply tallyAtoms_keeps
    unfold Job.refresh
    dsimp only
    split
    · exact .inr (.inl rfl)
    · split
      · exact .inr (.inr (.inr (.inr rfl)))
      · exact .inr (.inr (.inr (.inl rfl)))
  | @place api j attempt hj hp =>
    simp only [atoms, hj, hp]
    apply tallyAtoms_keeps
    unfold Job.place
    dsimp only
    split
    · dsimp only
      split
      · exact .inr (.inr (.inl rfl))
      · exact .inl rfl
    · split
      · exact .inr (.inl rfl)
      · exact .inl rfl
  | _ => exact Stats.keeps_nil _

end

end Sys

/-- The process with its sections cut: the accesses each thread has still to make. -/
structure Fine (K : Type*) (n : Nat) where
  /-- As if all accesses of the sections begun had been made. -/
  sys : Sys K n := {}
  rungs : Rungs K
  todo : Thread n → List Stats.Atom := fun _ => []

inductive Fine.Event (K : Type*) (n : Nat) where
  | begin (e : Protocol.Event K n)
  | atom (t : Thread n)
  /-- A step of the rungs and the readers. -/
  | rungs (e : RungEvent K)

namespace Fine

section

variable [Field K] [LinearOrder K] [FloorRing K] (P : Platform K) (cfg : Config K)

/-- A thread begins a section when it has made all accesses of the one before. -/
def begin (s : Fine K n) (e : Protocol.Event K n) : Option (Fine K n) :=
  match e.thread? with
  | none => (s.sys.step P cfg e).map fun sys => { s with sys := sys }
  | some t =>
    if s.todo t = [] then
      (s.sys.step P cfg e).map fun sys =>
        { s with sys := sys, todo := Function.update s.todo t (s.sys.atoms P cfg e) }
    else none

def atom (s : Fine K n) (t : Thread n) : Option (Fine K n) :=
  match s.todo t with
  | [] => none
  | a :: rest =>
    (s.rungs.step (.atom a)).map fun rungs =>
      { s with rungs := rungs, todo := Function.update s.todo t rest }

def step (s : Fine K n) : Event K n → Option (Fine K n)
  | .begin e => s.begin P cfg e
  | .atom t => s.atom t
  | .rungs (.atom _) => none
  | .rungs e => (s.rungs.step e).map fun rungs => { s with rungs := rungs }

end

/-- The threads start with counters that are all zero. -/
structure Started [Field K] (s : Fine K n) : Prop where
  sys : s.sys = {}
  todo : s.todo = fun _ => []
  rungs : s.rungs.Started
  zero : ∀ cell : Cell, cell.read s.rungs.stats = 0

/-- Any number of threads, readers and rung openers, in any order of their accesses. -/
def system [Field K] [LinearOrder K] [FloorRing K] (P : Platform K) (cfg : Config K) (n : Nat) :
    System (Fine K n) (Event K n) :=
  .ofPartial Started (step P cfg)

/-- What holds between the accesses. -/
structure Inv (size : Nat) (s : Fine K n) : Prop where
  settles : ∀ cell : Cell,
    Settles cell.weight s.todo (cell.read s.rungs.stats) (cell.read s.sys.stats)
  covered : ∀ b : Balance,
    Covered (b.form size).gain s.todo ((b.form size).value s.rungs.stats)
  even : ∀ b : Balance, b.Even → (b.form size).value s.sys.stats = 0

section

variable [Field K] [LinearOrder K] [FloorRing K] {P : Platform K} {cfg : Config K}
  {s s' : Fine K n}

omit [LinearOrder K] [FloorRing K] in
theorem Inv.init (size : Nat) (h : Started s) : Inv size s := by
  have hsys : s.sys.stats = {} := by rw [h.sys]
  refine ⟨fun cell => ?_, fun b => ?_, fun b _ => ?_⟩
  · rw [h.todo, h.zero, hsys, Cell.read_empty]
    exact settles_idle cell.weight 0
  · have hzero : (b.form size).value s.rungs.stats = (b.form size).value {} :=
      Form.value_congr _ fun cell => (h.zero cell).trans (Cell.read_empty cell).symm
    rw [h.todo, hzero, Form.value_empty]
    exact covered_idle _
  · rw [hsys, Form.value_empty]

/-- A section begins. -/
theorem Inv.begin {e : Protocol.Event K n} (h : Inv (SimClient.messageSize cfg) s)
    (hs : s.begin P cfg e = some s') : Inv (SimClient.messageSize cfg) s' := by
  unfold Fine.begin at hs
  split at hs
  · rename_i hmain
    obtain ⟨sys, hstep, rfl⟩ := Option.map_eq_some_iff.mp hs
    -- the main thread writes no counter
    have hstats : sys.stats = s.sys.stats := by
      rw [Sys.step_stats hstep]
      cases e with
      | addClient | startWorker | shutdown => rfl
      | _ => cases hmain
    refine ⟨fun cell => ?_, h.covered, fun b hb => ?_⟩
    · dsimp only
      rw [hstats]
      exact h.settles cell
    · dsimp only
      rw [hstats]
      exact h.even b hb
  · rename_i t ht
    obtain ⟨hidle, hs⟩ := Option.ite_none_right_eq_some.mp hs
    obtain ⟨sys, hstep, rfl⟩ := Option.map_eq_some_iff.mp hs
    have hstats := Sys.step_stats hstep
    have hkeep := Sys.atoms_keep hstep
    refine ⟨fun cell => ?_, fun b => ?_, fun b hb => ?_⟩
    · dsimp only
      rw [hstats, Cell.read_foldl]
      exact (h.settles cell).begin hidle _
    · exact (h.covered b).begin hidle (hkeep.safe b)
    · dsimp only
      rw [hstats, Form.value_foldl, h.even b hb, hkeep.even b hb, add_zero]

omit [FloorRing K] in
/-- A thread makes its next access. -/
theorem Inv.atom {size : Nat} {t : Thread n} (h : Inv size s) (hs : s.atom t = some s') :
    Inv size s' := by
  unfold Fine.atom at hs
  split at hs
  · cases hs
  · rename_i a rest ht
    obtain ⟨rungs, hstep, rfl⟩ := Option.map_eq_some_iff.mp hs
    obtain rfl := Option.some.inj hstep
    refine ⟨fun cell => ?_, fun b => ?_, h.even⟩
    · dsimp only
      rw [Cell.read_apply]
      exact (h.settles cell).act ht
    · dsimp only
      rw [Form.value_apply]
      exact (h.covered b).act ht

/-- What a step of the cut process is. -/
theorem step_cases {e : Event K n} (hs : s.step P cfg e = some s') :
    (∃ b, e = .begin b ∧ s.begin P cfg b = some s') ∨ (∃ t, e = .atom t ∧ s.atom t = some s') ∨
      ∃ r rungs, e = .rungs r ∧ (∀ a, r ≠ .atom a) ∧ s.rungs.step r = some rungs ∧
        s' = { s with rungs := rungs } := by
  cases e with
  | begin b => exact .inl ⟨b, rfl, hs⟩
  | atom t => exact .inr (.inl ⟨t, rfl, hs⟩)
  | rungs r =>
    have hother : (∀ a, r ≠ .atom a) ∧
        (s.rungs.step r).map (fun rungs => { s with rungs := rungs }) = some s' := by
      cases r with
      | atom a => cases hs
      | _ => exact ⟨fun a ha => (by cases ha), hs⟩
    obtain ⟨rungs, hstep, rfl⟩ := Option.map_eq_some_iff.mp hother.2
    exact .inr (.inr ⟨r, rungs, rfl, hother.1, hstep, rfl⟩)

/-- **Step lemma.** -/
theorem Inv.step {e : Event K n} (h : Inv (SimClient.messageSize cfg) s)
    (hs : s.step P cfg e = some s') : Inv (SimClient.messageSize cfg) s' := by
  rcases step_cases hs with ⟨b, -, hb⟩ | ⟨t, -, ht⟩ | ⟨r, rungs, -, hr, hstep, rfl⟩
  · exact h.begin hb
  · exact h.atom ht
  · have hcells := Rungs.step_cells hr hstep
    refine ⟨fun cell => ?_, fun b => ?_, h.even⟩
    · dsimp only
      rw [hcells]
      exact h.settles cell
    · dsimp only
      rw [Form.value_congr _ hcells]
      exact h.covered b

theorem inv_of_reach (h : (system P cfg n).Reach s) : Inv (SimClient.messageSize cfg) s :=
  h.inv (fun _ => Inv.init _) fun _ _ _ _ hi hs => hi.step hs

/-- The sections alone are a run of the uncut process. -/
theorem sys_reach (h : (system P cfg n).Reach s) : (Protocol.system P cfg n).Reach s.sys := by
  refine System.Reach.inv (I := fun s => (Protocol.system P cfg n).Reach s.sys) ?_ ?_ h
  · exact fun s hs => .init hs.sys
  intro s e s' _ ih hs
  rcases step_cases hs with ⟨b, -, hb⟩ | ⟨t, -, ht⟩ | ⟨r, rungs, -, -, -, rfl⟩
  · unfold Fine.begin at hb
    split at hb
    · obtain ⟨sys, hstep, rfl⟩ := Option.map_eq_some_iff.mp hb
      exact ih.step hstep
    · obtain ⟨-, hb⟩ := Option.ite_none_right_eq_some.mp hb
      obtain ⟨sys, hstep, rfl⟩ := Option.map_eq_some_iff.mp hb
      exact ih.step hstep
  · unfold Fine.atom at ht
    split at ht
    · cases ht
    · obtain ⟨rungs, -, rfl⟩ := Option.map_eq_some_iff.mp ht
      exact ih
  · exact ih

/-- What the shared counters say while no thread is in a section. -/
structure AtRest (cfg : Config K) (s : Fine K n) : Prop where
  complete : s.rungs.stats.loadLifetime.HistogramComplete
  bytes : s.rungs.stats.txBytes = SimClient.messageSize cfg * s.rungs.stats.txPackets
  active : s.rungs.stats.activeClients = s.sys.clientsIn .active
  suspended : s.rungs.stats.suspendedClients = s.sys.clientsIn .suspended

theorem atRest (h : (system P cfg n).Reach s) (hd : ∀ t, s.todo t = []) : AtRest cfg s := by
  have hi := inv_of_reach h
  have hcell : ∀ cell : Cell, cell.read s.sys.stats = cell.read s.rungs.stats :=
    fun cell => (hi.settles cell).done hd
  have heven : ∀ b : Balance, b.Even →
      (b.form (SimClient.messageSize cfg)).value s.rungs.stats = 0 := fun b hb => by
    rw [← Form.value_congr _ hcell, hi.even b hb]
  have hbuckets := heven .buckets trivial
  have hbytes := heven .bytes trivial
  rw [Stats.value_eq] at hbuckets hbytes
  dsimp only at hbuckets hbytes
  have hgauges := Sys.gauges_agree P cfg (sys_reach h)
  refine ⟨?_, by omega, ?_, ?_⟩
  · unfold CounterSnap.HistogramComplete
    rw [← Fin.sum_univ_def]
    show s.rungs.stats.latencySamples =
      ∑ i : Fin LATENCY_BUCKETS, getElem s.rungs.stats.latencyHist i i.isLt
    omega
  · rw [← hgauges.active]
    exact (hcell .activeClients).symm
  · rw [← hgauges.suspended]
    exact (hcell .suspendedClients).symm

/-- **Coherent counters.** However the accesses of the threads interleave with each other, with
the rungs and with the readers, the counters never claim more than happened; what is missing of
a counter is what the sections in progress have still to add; and while no section is in
progress the histogram is complete and the gauges are the numbers of clients. -/
theorem counters_coherent (h : (system P cfg n).Reach s) :
    s.rungs.stats.loadLifetime.Coherent (SimClient.messageSize cfg) ∧
      (∀ cell : Cell, cell.read s.sys.stats =
        cell.read s.rungs.stats + ∑ t, total cell.weight (s.todo t)) ∧
      ((∀ t, s.todo t = []) → AtRest cfg s) := by
  have hi := inv_of_reach h
  refine ⟨?_, hi.settles, atRest h⟩
  apply Stats.coherent_of_balances
  exact fun b => (hi.covered b).nonneg

end

/-- A process with one worker, about to start. -/
def sample : Fine ℚ 1 := { rungs := Rungs.sample }

theorem sample_started : sample.Started := by
  refine ⟨rfl, rfl, Rungs.sample_started, fun cell => ?_⟩
  exact (cell.read_openWindow ..).trans cell.read_empty

/-- A worker that has counted a packet and not yet its octets, and then counts them. -/
theorem counters_coherent_cut : ∃ s s' : Fine ℚ 1,
    (s.rungs.stats.txPackets = 1 ∧ s.rungs.stats.txBytes = 0 ∧ s.sys.stats.txBytes = 197 ∧
      s.rungs.stats.loadLifetime.Coherent (SimClient.messageSize Sample.config)) ∧
    step Sample.platform Sample.config s (.atom (some 0)) = some s' ∧
      s'.rungs.stats.txBytes = 197 ∧ AtRest Sample.config s' := by
  have hrun : ((System.exec (step Sample.platform Sample.config) sample
      (Sample.started.map Event.begin ++
        [.atom (some 0), .begin Sample.sends, .atom (some 0), .atom (some 0)])).bind fun s =>
      (step Sample.platform Sample.config s (.atom (some 0))).map fun s' =>
        ((s.rungs.stats.txPackets, s.rungs.stats.txBytes, s.sys.stats.txBytes),
          s'.rungs.stats.txBytes, (s'.todo none).length, (s'.todo (some 0)).length)) =
      some ((1, 0, 197), 197, 0, 0) := by decide +kernel
  obtain ⟨s, hs, hm⟩ := Option.bind_eq_some_iff.mp hrun
  obtain ⟨s', hs', hm⟩ := Option.map_eq_some_iff.mp hm
  simp only [Prod.mk.injEq] at hm
  obtain ⟨⟨hpackets, hbytes, hwhole⟩, hdone, hcontrol, hworker⟩ := hm
  have hreach : (system Sample.platform Sample.config 1).Reach s :=
    System.Reach.exec (.init sample_started) hs
  have hrest : ∀ t, s'.todo t = [] := by
    intro t
    apply List.eq_nil_of_length_eq_zero
    cases t with
    | none => exact hcontrol
    | some w => rwa [Subsingleton.elim w 0]
  exact ⟨s, s', ⟨hpackets, hbytes, hwhole, (counters_coherent hreach).1⟩, hs', hdone,
    (counters_coherent (hreach.step hs')).2.2 hrest⟩

end Fine

end CksLoadtest.Protocol
