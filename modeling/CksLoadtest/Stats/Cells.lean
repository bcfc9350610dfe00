import Mathlib.Algebra.BigOperators.Fin
import CksLoadtest.Lib.Tally
import CksLoadtest.Stats.Percentile
import CksLoadtest.Stats.Rung
import CksLoadtest.Stats.Window

/-!
# What the counters say of one another

A counter is read as an integer, and each atomic access adds its weight to it. A balance weighs
counters against each other: a datagram is counted before its bundle, a refusal before its code,
a code before its explanation.
-/
namespace CksLoadtest

open Lib.Tally

/-- What the atomic accesses add to. -/
inductive Cell where
  | counter (c : Counter)
  | code (c : Fin 256)
  /-- The codes together. -/
  | codes
  /-- The buckets together. -/
  | buckets
  | latencySamples
  | latencySumMs
  | activeClients
  | suspendedClients

namespace Cell

def read (s : Stats) : Cell → ℤ
  | counter c => s.loadLifetime.count c
  | code c => getElem s.errorCodes c (code_lt c)
  | codes => ∑ c : Fin 256, (getElem s.errorCodes c (code_lt c) : ℤ)
  | buckets => ∑ i : Fin LATENCY_BUCKETS, (getElem s.latencyHist i i.isLt : ℤ)
  | latencySamples => s.latencySamples
  | latencySumMs => s.latencySumMs
  | activeClients => s.activeClients
  | suspendedClients => s.suspendedClients

/-- What an access adds. -/
def weight : Cell → Stats.Atom → ℤ
  | counter c, .fetchAdd c' n => if c = c' then n else 0
  | code c, .addErrorCode c' n => if c = Stats.codeIndex c' then n else 0
  | codes, .addErrorCode _ n => n
  | buckets, .latencyBucket _ => 1
  | latencySamples, .latencySample => 1
  | latencySumMs, .latencySum ms => ms
  | activeClients, .activeClients d => d
  | suspendedClients, .suspendedClients d => d
  | _, _ => 0

theorem slot_set_add {n : Nat} (v : Vector Nat n) (i j : Fin n) (k : Nat) :
    (getElem (v.set i (getElem v i i.isLt + k) i.isLt) j j.isLt : ℤ) =
      getElem v j j.isLt + if j = i then (k : ℤ) else 0 := by
  have hslot := congrArg (Nat.cast (R := ℤ)) (Stats.getElem_set_add v i j k)
  rw [Nat.cast_add] at hslot
  refine hslot.trans (congrArg ((getElem v j j.isLt : ℤ) + ·) ?_)
  split <;> rfl

/-- Only one slot of the array grows. -/
theorem sum_set_add {n : Nat} (v : Vector Nat n) (i : Fin n) (k : Nat) :
    ∑ j : Fin n, (getElem (v.set i (getElem v i i.isLt + k) i.isLt) j j.isLt : ℤ) =
      ∑ j : Fin n, (getElem v j j.isLt : ℤ) + k := by
  rw [Finset.sum_congr rfl fun j _ => slot_set_add v i j k, Finset.sum_add_distrib,
    Finset.sum_ite_eq', if_pos (Finset.mem_univ i)]

theorem fetchAdd_gauges (s : Stats) (n : Nat) (c : Counter) :
    (s.fetchAdd n c).activeClients = s.activeClients ∧
      (s.fetchAdd n c).suspendedClients = s.suspendedClients := by
  cases c <;> exact ⟨rfl, rfl⟩

/-- **An access adds its weight**, whatever the other threads did before. -/
theorem read_apply (cell : Cell) (s : Stats) (a : Stats.Atom) :
    cell.read (a.apply s) = cell.read s + cell.weight a := by
  cases a with
  | fetchAdd c n =>
    obtain ⟨-, hcodes, hhist, hsamples, hsum, -⟩ := Stats.fetchAdd_frame s n c
    obtain ⟨hactive, hsuspended⟩ := fetchAdd_gauges s n c
    cases cell with
    | counter c' =>
      have hcount := Stats.count_fetchAdd s n c' c
      show ((s.fetchAdd n c).loadLifetime.count c' : ℤ) = _
      rw [hcount, Nat.cast_add]
      refine congrArg ((s.loadLifetime.count c' : ℤ) + ·) ?_
      show _ = if c' = c then (n : ℤ) else 0
      split <;> rfl
    | code c' => simp only [read, weight, Stats.Atom.apply, hcodes, add_zero]
    | codes => simp only [read, weight, Stats.Atom.apply, hcodes, add_zero]
    | buckets => simp only [read, weight, Stats.Atom.apply, hhist, add_zero]
    | latencySamples => simp only [read, weight, Stats.Atom.apply, hsamples, add_zero]
    | latencySumMs => simp only [read, weight, Stats.Atom.apply, hsum, add_zero]
    | activeClients => simp only [read, weight, Stats.Atom.apply, hactive, add_zero]
    | suspendedClients => simp only [read, weight, Stats.Atom.apply, hsuspended, add_zero]
  | addErrorCode code n =>
    cases cell with
    | counter c => cases c <;> exact (add_zero _).symm
    | code c =>
      exact slot_set_add s.errorCodes (Stats.codeIndex code) c n
    | codes => exact sum_set_add s.errorCodes (Stats.codeIndex code) n
    | _ => exact (add_zero _).symm
  | latencySample =>
    cases cell with
    | counter c => cases c <;> exact (add_zero _).symm
    | latencySamples => exact Nat.cast_succ _
    | _ => exact (add_zero _).symm
  | latencySum ms =>
    cases cell with
    | counter c => cases c <;> exact (add_zero _).symm
    | latencySumMs => exact Nat.cast_add _ _
    | _ => exact (add_zero _).symm
  | latencyBucket i =>
    cases cell with
    | counter c => cases c <;> exact (add_zero _).symm
    | buckets => exact sum_set_add s.latencyHist i 1
    | _ => exact (add_zero _).symm
  | latencyMax ms | windowLatencyMax ms =>
    cases cell with
    | counter c => cases c <;> exact (add_zero _).symm
    | _ => exact (add_zero _).symm
  | activeClients d | suspendedClients d =>
    cases cell with
    | counter c => cases c <;> exact (add_zero _).symm
    | activeClients | suspendedClients => first | rfl | exact (add_zero _).symm
    | _ => exact (add_zero _).symm

theorem read_foldl (cell : Cell) (l : List Stats.Atom) (s : Stats) :
    cell.read (l.foldl Stats.Atom.apply s) = cell.read s + total cell.weight l :=
  foldl_total (fun s => cell.read s) (fun s a => cell.read_apply s a) l s

/-- No counter changes when a window is opened. -/
theorem read_openWindow (cell : Cell) (s : Stats) (now : CounterSnap) (id : String)
    (epochSec : Nat) (steady : Int) :
    cell.read (s.openWindow now id epochSec steady) = cell.read s := by
  cases cell with
  | counter c => cases c <;> rfl
  | _ => rfl

theorem read_empty (cell : Cell) : cell.read {} = 0 := by
  cases cell with
  | counter c => cases c <;> rfl
  | code c => simp [read]
  | codes => simp [read]
  | buckets => simp [read]
  | _ => rfl

end Cell

/-- Cells weighed against each other. -/
abbrev Form := List (ℤ × Cell)

namespace Form

def value (f : Form) (s : Stats) : ℤ := (f.map fun t => t.1 * t.2.read s).sum

/-- What an access adds to the value. -/
def gain (f : Form) (a : Stats.Atom) : ℤ := (f.map fun t => t.1 * t.2.weight a).sum

theorem value_apply (f : Form) (s : Stats) (a : Stats.Atom) :
    f.value (a.apply s) = f.value s + f.gain a := by
  unfold value gain
  rw [← List.sum_map_add]
  simp only [Cell.read_apply, mul_add]

theorem value_foldl (f : Form) (l : List Stats.Atom) (s : Stats) :
    f.value (l.foldl Stats.Atom.apply s) = f.value s + total f.gain l :=
  foldl_total f.value (fun s a => f.value_apply s a) l s

/-- The value depends on the cells only. -/
theorem value_congr (f : Form) {s t : Stats} (h : ∀ cell : Cell, cell.read t = cell.read s) :
    f.value t = f.value s := by
  unfold value
  simp only [h]

theorem value_empty (f : Form) : f.value {} = 0 := by
  unfold value
  simp only [Cell.read_empty, mul_zero, List.map_const', List.sum_replicate, nsmul_zero]

end Form

/-- The balances between the counters of a process whose messages have `size` octets. -/
inductive Balance where
  /-- A bundle is a datagram. -/
  | bundles
  /-- A code comes with an error message. -/
  | refusals
  /-- An expected refusal is an UNAUTHORIZED one. -/
  | expected
  /-- A latency is that of a spatial message. -/
  | samples
  /-- A bucket is raised for a sample. -/
  | buckets
  /-- The octets are those of the packets. -/
  | bytes
  /-- A refresh that kept its server is a refresh. -/
  | kept

namespace Balance

def form (size : Nat) : Balance → Form
  | bundles =>
    [(1, .counter .rxDatagrams), (-1, .counter .rxBundles), (-1, .counter .rxSignedBundles)]
  | refusals => [(1, .counter .rxErrorMessages), (-1, .codes)]
  | expected =>
    [(1, .code 7), (-1, .counter .unauthorizedFirstContact),
      (-1, .counter .unauthorizedWindowReload)]
  | samples =>
    [(1, .counter .rxActorNotifications), (1, .counter .rxOtherSpatial), (-1, .latencySamples)]
  | buckets => [(1, .latencySamples), (-1, .buckets)]
  | bytes => [(size, .counter .txPackets), (-1, .counter .txBytes)]
  | kept => [(1, .counter .tokenRefreshes), (-1, .counter .refreshesKeptServer)]

/-- What one section of a thread leaves even. -/
def Even : Balance → Prop
  | buckets | bytes => True
  | _ => False

end Balance

/-- What the counters of a snapshot say of one another when they agree. -/
structure CounterSnap.Coherent (size : Nat) (s : CounterSnap) : Prop where
  bundles : s.rxBundles + s.rxSignedBundles ≤ s.rxDatagrams
  refusals : ∑ c : Fin 256, getElem s.errorCodes c (code_lt c) ≤ s.rxErrorMessages
  expected : s.unauthorizedFirstContact + s.unauthorizedWindowReload ≤
    getElem s.errorCodes (7 : Fin 256) unauthorized_lt
  samples : s.latencySamples ≤ s.rxActorNotifications + s.rxOtherSpatial
  buckets : ∑ i : Fin LATENCY_BUCKETS, getElem s.latencyHist i i.isLt ≤ s.latencySamples
  bytes : s.txBytes ≤ size * s.txPackets
  kept : s.refreshesKeptServer ≤ s.tokenRefreshes

namespace Stats

variable {size : Nat} {s : Stats}

/-- A balance of three terms or less, written out. -/
theorem value_eq (b : Balance) : (b.form size).value s =
    match b with
    | .bundles => (s.rxDatagrams : ℤ) - s.rxBundles - s.rxSignedBundles
    | .refusals => (s.rxErrorMessages : ℤ) -
        ((∑ c : Fin 256, getElem s.errorCodes c (code_lt c) : Nat) : ℤ)
    | .expected => ((getElem s.errorCodes (7 : Fin 256) unauthorized_lt : Nat) : ℤ) -
        s.unauthorizedFirstContact - s.unauthorizedWindowReload
    | .samples => (s.rxActorNotifications : ℤ) + s.rxOtherSpatial - s.latencySamples
    | .buckets => (s.latencySamples : ℤ) -
        ((∑ i : Fin LATENCY_BUCKETS, getElem s.latencyHist i i.isLt : Nat) : ℤ)
    | .bytes => ((size * s.txPackets : Nat) : ℤ) - s.txBytes
    | .kept => (s.tokenRefreshes : ℤ) - s.refreshesKeptServer := by
  cases b with
  | bytes =>
    simp only [Balance.form, Form.value, List.map_cons, List.map_nil, List.sum_cons, List.sum_nil,
      Cell.read, CounterSnap.count, loadLifetime, Nat.cast_mul]
    omega
  | _ =>
    simp only [Balance.form, Form.value, List.map_cons, List.map_nil, List.sum_cons, List.sum_nil,
      Cell.read, CounterSnap.count, loadLifetime, Nat.cast_sum]
    omega

theorem coherent_of_balances (h : ∀ b : Balance, 0 ≤ (b.form size).value s) :
    s.loadLifetime.Coherent size := by
  simp only [value_eq] at h
  have hbundles := h .bundles
  have hrefusals := h .refusals
  have hexpected := h .expected
  have hsamples := h .samples
  have hbuckets := h .buckets
  have hbytes := h .bytes
  have hkept := h .kept
  dsimp only at *
  refine ⟨?_, ?_, ?_, ?_, ?_, ?_, ?_⟩ <;> dsimp only [loadLifetime] <;> omega

end Stats

end CksLoadtest
