import CksLoadtest.Harness.Cut
import CksLoadtest.Harness.Indices
import CksLoadtest.Lib.Json
import CksLoadtest.Lib.Tally

/-!
# The clients a status accounts for

Every client that `distribute` handed out is ACTIVE, SUSPENDED, WAITING or not yet taken in by its
worker. `used_` counts them, apart from those of a range that is being handed out, and
`statusJson` subtracts the gauges from it, as they are between the accesses of the sections that
other threads are in.
-/
namespace CksLoadtest.Harness

open Lib Lib.Transition
open Protocol (Sys)

variable {K : Type*}

/-- What `statusJson` reads besides the clients and the configuration. -/
structure StatusTexts where
  rungId : String
  replayLoggingObserved : String
  replayLoggingAtEnd : String

/-- `statusJson`, with the gauges as loaded. -/
def statusJson (cfg : Config K) (texts : StatusTexts) (s : Fleet) (active suspended : Int) :
    Json K :=
  let waiting := s.used - active - suspended
  let waiting := if waiting < 0 then 0 else waiting
  .obj
    [("instance_id", .str cfg.instanceId),
     ("index_base", .int cfg.indexBase),
     ("used", .int s.used),
     ("limit", .int cfg.indexLimit),
     ("active", .int active),
     ("suspended", .int suspended),
     ("waiting", .int waiting),
     ("busy", .bool s.busy),
     ("add_error", .str s.addError),
     ("rung_id", .str texts.rungId),
     ("threads", .int cfg.threads),
     ("update_hz", .int cfg.updateHz),
     ("replay_logging", .str texts.replayLoggingObserved),
     ("replay_logging_requested", .str cfg.replayLogging),
     ("replay_logging_at_end", .str texts.replayLoggingAtEnd)]

/-- Clients of an add that are out already. -/
def Add.out (a : Add) : Int :=
  match a.phase with
  | .distributing todo => a.count - todo.length
  | _ => 0

namespace Fleet

/-- How many clients are out that `used_` does not count yet; less than none are while the start
slice, which is counted first, is handed out. -/
def ahead (s : Fleet) : Int :=
  match s.main with
  | .distributing todo => -todo.length
  | _ => Tally.total Add.out s.adds

variable {cfg : Config K} {s : Fleet}

theorem ahead_eq (h : ∀ todo, s.main ≠ .distributing todo) :
    s.ahead = Tally.total Add.out s.adds := by
  unfold ahead
  split
  · rename_i todo hm
    exact absurd hm (h todo)
  · rfl

theorem length_first {n : Int} (hn : 0 ≤ n) : ((first cfg n).length : Int) = n := by
  unfold first
  rw [length_consecutive]
  omega

theorem Adding.given_length {a : Add} (h : Adding cfg s a) (hu : 0 ≤ s.used) :
    (s.handed.length : Int) = s.used + a.out := by
  have hphase := h.phase
  have hcount := h.count
  unfold Add.out
  split at hphase
  · rename_i r hp
    rw [hp, hphase.2.2.2, length_first hu]
    exact (add_zero _).symm
  · rename_i hp
    rw [hp, hphase, length_first hu]
    exact (add_zero _).symm
  · rename_i todo hp
    have hlength := congrArg List.length hphase
    rw [List.length_append, List.length_map] at hlength
    have hall : ((first cfg (s.used + a.count)).length : Int) = s.used + a.count :=
      length_first (by omega)
    rw [hp]
    dsimp only
    omega

/-- The clients that are out. -/
theorem Inv.given_length (h : Inv cfg s) : (s.given.length : Int) = s.used + s.ahead := by
  have hhanded : s.handed.length = s.given.length := List.length_map ..
  have hused := h.used.1
  have hidle (hm : ∀ todo, s.main ≠ .distributing todo) (ha : s.adds = []) : s.ahead = 0 := by
    rw [ahead_eq hm, ha]
    rfl
  have hup (hm : s.main = .running ∨ s.main = .stopping) (todo : List ClientCredentials) :
      s.main ≠ .distributing todo := by
    intro hd
    rw [hd] at hm
    rcases hm with hm | hm <;> cases hm
  cases h.stage with
  | empty hm ha _ hu hg =>
    rw [hg, hu, hidle ?_ ha]
    · rfl
    · intro todo hd
      rw [hd] at hm
      rcases hm with hm | hm <;> cases hm
  | loading r hm ha _ hu hg =>
    rw [hg, hu, hidle ?_ ha]
    · rfl
    · intro todo hd
      cases hm.symm.trans hd
  | starting todo hm _ _ hh =>
    have hahead : s.ahead = -todo.length := by
      unfold ahead
      rw [hm]
    have hlength := congrArg List.length hh
    rw [List.length_append, List.length_map] at hlength
    have hall : ((first cfg s.used).length : Int) = s.used := length_first hused
    omega
  | idle hm ha _ hh =>
    have hall : ((first cfg s.used).length : Int) = s.used := length_first hused
    rw [← hhanded, hh, hall, hidle (hup hm) ha, add_zero]
  | adding a ha =>
    rw [← hhanded, ha.given_length hused, ahead_eq (hup ha.running), ha.only]
    exact congrArg _ (add_zero _).symm

end Fleet

namespace Process

variable [Field K] [LinearOrder K] [FloorRing K] {P : Platform K} {parseIso8601Utc : String → Int}
  {cfg : Config K}

/-- What the harness computes fits its `int`s. -/
def Fits (cfg : Config K) {n : Nat} (p : Process K n) : Event K n → Prop
  | .harness e _ => Fleet.CountFits p.fleet e ∧ Fleet.RangeFits cfg p.fleet e
  | .thread _ => True

instance {n : Nat} (p : Process K n) : (e : Event K n) → Decidable (Fits cfg p e)
  | .harness _ _ => inferInstanceAs (Decidable (_ ∧ _))
  | .thread _ => inferInstanceAs (Decidable True)

/-- Clients that have not been ACTIVE or SUSPENDED, or are to become ACTIVE again. -/
def waiting {n : Nat} (p : Process K n) : Nat :=
  p.sys.clientsIn .waiting + ∑ w, (p.sys.workers w).pending.length

variable {p : Process K cfg.threads.toNat}

theorem fleet_fits (h : (process P parseIso8601Utc cfg).GReach (Fits cfg) p) :
    (system parseIso8601Utc cfg).GReach
      (fun s e => Fleet.CountFits s e ∧ Fleet.RangeFits cfg s e) p.fleet := by
  induction h with
  | init hi =>
    obtain rfl := hi
    exact .init rfl
  | step _ hg hs ih =>
    rcases step_cases hs with ⟨e', activateAt, rfl, hf, -⟩ | ⟨e', -, -, -, hf⟩
    · exact .step ih hg hf
    · exact hf ▸ ih

/-- What a worker was given, it has taken in or will. -/
theorem added_length {n : Nat} {s : Sys K n} (h : (Protocol.system P cfg n).Reach s) (w : Fin n) :
    (s.hist.added w).length = (s.workers w).clients.length + (s.workers w).pending.length := by
  have hplaced := (Protocol.Exchange.sound_of_reach (Sys.exchange_reach (H := fun _ _ => True) P cfg
    (fun _ _ _ => trivial) h)).placed
  have hpending := congrArg List.length (hplaced.pending w)
  have hcovered := hplaced.covered w
  simp only [Sys.exchange, List.length_drop, List.length_map] at hpending hcovered
  omega

omit [Field K] [LinearOrder K] [FloorRing K] in
theorem length_states (l : List (SimClient K)) :
    l.length = l.countP (fun c => c.state = .active) + l.countP (fun c => c.state = .suspended) +
      l.countP fun c => c.state = .waiting := by
  induction l with
  | nil => rfl
  | cons c l ih =>
    simp only [List.length_cons, List.countP_cons]
    cases hc : c.state <;> simp <;> omega

/-- **Every client is accounted for.** -/
theorem clients_out (hcfg : cfg.Accepted)
    (h : (process P parseIso8601Utc cfg).GReach (Fits cfg) p) :
    p.fleet.used + p.fleet.ahead =
      p.sys.clientsIn .active + p.sys.clientsIn .suspended + p.waiting := by
  have hinv := Fleet.inv_of_reach parseIso8601Utc hcfg (fleet_fits h)
  have hsys : (Protocol.system P cfg cfg.threads.toNat).Reach p.sys :=
    sys_reach (H := fun _ _ => True) (fun _ _ _ _ => trivial) (fun _ _ _ _ _ _ _ => trivial) h
  have hkeys : ∀ g ∈ p.fleet.given, g.1.toNat < cfg.threads.toNat := by
    intro g hg
    have hw := workerOf_lt hcfg g.2
    rw [hinv.worker g hg]
    omega
  have hgiven := Tally.sum_countP_key (fun g : Int × ClientCredentials => g.1.toNat)
    (fun _ => true) hkeys
  have hworker (w : Fin cfg.threads.toNat) :
      p.fleet.given.countP (fun g => g.1.toNat = (w : Nat) ∧ (true : Bool)) =
        (p.sys.workers w).clients.length + (p.sys.workers w).pending.length := by
    rw [← added_length hsys w, handed_over h w, List.length_map, List.countP_eq_length_filter]
    refine congrArg List.length (List.filter_congr fun g _ => ?_)
    simp
  rw [Finset.sum_congr rfl fun w _ => hworker w, List.countP_true] at hgiven
  rw [← hinv.given_length, ← hgiven]
  unfold waiting Sys.clientsIn
  have hstates := Finset.sum_congr rfl
    fun (w : Fin cfg.threads.toNat) (_ : w ∈ Finset.univ) => length_states (p.sys.workers w).clients
  rw [Finset.sum_add_distrib, Finset.sum_add_distrib] at hstates
  rw [Finset.sum_add_distrib]
  omega

end Process

namespace Cut

/-- What the harness computes fits its `int`s. -/
def Fits (cfg : Config K) {n : Nat} (c : Cut K n) : Event K n → Prop
  | .begin e => Process.Fits cfg c.process e
  | .atom _ => True

instance (cfg : Config K) {n : Nat} (c : Cut K n) : (e : Event K n) → Decidable (Fits cfg c e)
  | .begin e => inferInstanceAs (Decidable (Process.Fits cfg c.process e))
  | .atom _ => inferInstanceAs (Decidable True)

/-- What the sections begun have still to add to the two gauges. -/
def owedGauges {n : Nat} (c : Cut K n) : Int := c.owed .activeClients + c.owed .suspendedClients

/-- What a status says of the clients when `activeClients` is loaded now. -/
structure Accounted (cfg : Config K) {n : Nat} (c : Cut K n) : Prop where
  total : c.process.fleet.used + c.process.fleet.ahead =
    c.stats.activeClients + c.stats.suspendedClients + c.owedGauges + c.process.waiting
  /-- `suspendedClients` is loaded later, and may have changed. -/
  status : ∀ texts suspended,
    (statusJson cfg texts c.process.fleet c.stats.activeClients suspended).field? "waiting" =
      some (.int (max 0 (c.process.waiting + c.owedGauges - c.process.fleet.ahead -
        (suspended - c.stats.suspendedClients))))
  /-- While no range is being handed out, `used_` counts all clients that are out. -/
  settled : c.process.fleet.Settled → c.process.fleet.ahead = 0
  /-- While no thread is in a section, the gauges lack nothing. -/
  idle : (∀ t, c.todo t = []) → c.owedGauges = 0

variable [Field K] [LinearOrder K] [FloorRing K] {P : Platform K} {parseIso8601Utc : String → Int}
  {cfg : Config K} {c : Cut K cfg.threads.toNat}

/-- **The status accounts for every client**, wherever its loads fall. -/
theorem accounted (hcfg : cfg.Accepted) (h : (cut P parseIso8601Utc cfg).GReach (Fits cfg) c) :
    Accounted cfg c := by
  have hout := Process.clients_out hcfg (process_reach (H := Process.Fits cfg) (fun _ _ h => h) h)
  obtain ⟨hactive, hsuspended⟩ := gauges h
  have htotal : c.process.fleet.used + c.process.fleet.ahead =
      c.stats.activeClients + c.stats.suspendedClients + c.owedGauges + c.process.waiting := by
    unfold owedGauges
    omega
  refine ⟨htotal, fun texts suspended => ?_, fun hs => ?_, fun hidle => ?_⟩
  · have hshown : (statusJson cfg texts c.process.fleet c.stats.activeClients suspended).field?
          "waiting" =
        some (.int (if c.process.fleet.used - c.stats.activeClients - suspended < 0 then 0
          else c.process.fleet.used - c.stats.activeClients - suspended)) := rfl
    rw [hshown]
    refine congrArg _ (congrArg _ ?_)
    split
    · rw [max_eq_left (by omega)]
    · rw [max_eq_right (by omega)]
      omega
  · rw [Fleet.ahead_eq hs.2, hs.1]
    rfl
  · unfold owedGauges
    rw [owed_idle hidle, owed_idle hidle, add_zero]

end Cut

namespace Sample

def harness (e : Event ℚ) : Cut.Event ℚ 1 := .begin (.harness e 0)

def thread (e : Protocol.Event ℚ 1) : Cut.Event ℚ 1 := .begin (.thread e)

/-- One client is loaded and becomes ACTIVE, and an add of another one hands it out. -/
def handsOut : List (Cut.Event ℚ 1) :=
  (loads .missing 1).map harness ++
    [thread (.startWorker 0), thread (.applyPendingClients 0),
      thread (.tick 0 2000000000 2000000000),
      thread (.activate 0 0 Protocol.Sample.draws ⟨true, true, true, true⟩), .atom (some 0)] ++
    harness (.requestAdd 1) :: (provisions client 1).map (fun e => harness (.addStep 0 e)) ++
    [harness (.addJoin 0), harness (.addGive 0)]

/-- The first client is told to reconnect, and its worker is between the two accesses of
`suspendClient`. -/
def suspends : List (Cut.Event ℚ 1) :=
  [thread (.rxBegin 0 0 2000000001 0 [Wire.COMMAND_RECONNECT]), .atom (some 0), .atom (some 0),
    thread (.rxMember 0 ⟨2000000002, 3⟩), .atom (some 0), .atom (some 0)]

end Sample

/-- The client of the add is out and not counted yet, the other one is in no gauge: the status
shows one client waiting, which is another one than the one that waits. -/
theorem accounted_during_suspend : ∃ c : Cut ℚ 1, c.process.waiting = 1 ∧
    c.process.fleet.ahead = 1 ∧ c.stats.activeClients = 0 ∧ c.stats.suspendedClients = 0 ∧
    c.owedGauges = 1 ∧ Cut.Accounted Sample.config c := by
  have hrun : ((System.exec (System.checked (fun c e => decide (Cut.Fits Sample.config c e))
      (Cut.step Protocol.Sample.platform (fun _ => 0) Sample.config)) {}
      (Sample.handsOut ++ Sample.suspends)).map fun c : Cut ℚ 1 =>
        decide (c.process.waiting = 1 ∧ c.process.fleet.ahead = 1 ∧ c.stats.activeClients = 0 ∧
          c.stats.suspendedClients = 0 ∧ c.owedGauges = 1)) = some true := by decide +kernel
  obtain ⟨c, hc, hm⟩ := Option.map_eq_some_iff.mp hrun
  obtain ⟨hwaiting, hahead, hactive, hsuspended, howed⟩ := of_decide_eq_true hm
  have hr : (cut Protocol.Sample.platform (fun _ => 0) Sample.config).GReach
      (Cut.Fits Sample.config) c :=
    System.GReach.exec (fun _ _ => of_decide_eq_true) (.init rfl) hc
  have hcfg : Sample.config.Accepted := by
    show Config.validate _ = _
    decide +kernel
  exact ⟨c, hwaiting, hahead, hactive, hsuspended, howed, Cut.accounted hcfg hr⟩

end CksLoadtest.Harness
