import Mathlib.Tactic.IntervalCases
import CksLoadtest.Stats.Cells

/-!
# What the loads of a snapshot leave in it

A snapshot is loaded counter by counter, in a fixed order, while the counters grow. Each load
takes one counter of its moment and leaves the others of the snapshot alone.
-/
namespace CksLoadtest

open Lib Lib.Transition

/-- The place of an event counter in the order of the loads. -/
def Counter.load : Counter → Nat
  | .txPackets => 0
  | .txBytes => 1
  | .txSendErrors => 2
  | .rxDatagrams => 3
  | .rxBytes => 4
  | .rxBundles => 5
  | .rxSignedBundles => 6
  | .rxSignedMembers => 7
  | .txCapabilities => 8
  | .rxActorNotifications => 9
  | .rxOtherSpatial => 10
  | .rxErrorMessages => 11
  | .rxReconnectCommands => 12
  | .rxSilentReassigns => 13
  | .rcvbufSetFailures => 14
  | .rxHmacFailures => 15
  | .rxMalformed => 16
  | .tokenRefreshes => 17
  | .refreshesKeptServer => 18
  | .reassignments => 19
  | .controlFailures => 20
  | .unauthorizedFirstContact => 21
  | .unauthorizedWindowReload => 22

namespace Stats

/-- The place of an error code in the order of the loads. -/
def codeLoad (c : Fin 256) : Nat := 26 + LATENCY_BUCKETS + c

theorem getElem?_map_finRange {α : Type*} {n k : Nat} {g : Fin n → α} {a : α}
    (h : ((List.finRange n).map g)[k]? = some a) : ∃ i : Fin n, k = i ∧ a = g i := by
  obtain ⟨hi, rfl⟩ := List.getElem?_eq_some_iff.mp h
  rw [List.length_map, List.length_finRange] at hi
  exact ⟨⟨k, hi⟩, rfl, by simp⟩

/-- A load is one of the single counters, of the buckets, of the codes, or the last one. -/
theorem load_cases {k : Nat} {f : Stats → CounterSnap → CounterSnap} (h : loads[k]? = some f) :
    k < 26 ∨
      (∃ i : Fin LATENCY_BUCKETS, k = 26 + i ∧ f = fun s c =>
        { c with latencyHist := c.latencyHist.set i (getElem s.latencyHist i i.isLt) i.isLt }) ∨
      (∃ i : Fin 256, k = codeLoad i ∧ f = fun s c =>
        { c with
          errorCodes := c.errorCodes.set i (getElem s.errorCodes i (code_lt i)) (code_lt i) }) ∨
      (k = codeLoad 255 + 1 ∧ f = fun s c =>
        { c with
          signInReused := s.signInReused
          signInMintedBefore := s.signInMintedBefore
          signInMintedDuring := s.signInMintedDuring }) := by
  by_cases hk : k < 26
  · exact .inl hk
  · right
    simp only [loads, List.append_assoc] at h
    rw [List.getElem?_append_right (Nat.le_of_not_lt hk), List.getElem?_append] at h
    split at h
    · obtain ⟨i, hi, rfl⟩ := getElem?_map_finRange h
      simp only [List.length_cons, List.length_nil] at hi
      exact .inl ⟨i, by omega, rfl⟩
    · rename_i hbucket
      rw [List.length_map, List.length_finRange] at h hbucket
      rw [List.getElem?_append] at h
      split at h
      · obtain ⟨i, hi, rfl⟩ := getElem?_map_finRange h
        simp only [List.length_cons, List.length_nil] at hi hbucket
        exact .inr (.inl ⟨i, by unfold codeLoad; omega, rfl⟩)
      · rename_i hcode
        rw [List.length_map, List.length_finRange] at h hcode
        obtain ⟨hi, rfl⟩ := List.getElem?_eq_some_iff.mp h
        simp only [List.length_cons, List.length_nil] at hi hbucket hcode
        refine .inr (.inr ⟨?_, ?_⟩)
        · have hlast : codeLoad 255 = 26 + LATENCY_BUCKETS + 255 := rfl
          omega
        · simp only [List.getElem_singleton]

theorem load_lt (c : Counter) : c.load < 23 := by
  cases c <;> decide

theorem length_loads : loads.length = codeLoad 255 + 2 := by
  simp only [loads, List.length_append, List.length_cons, List.length_nil, List.length_map,
    List.length_finRange]
  rfl

theorem load_lt_length (c : Counter) : c.load < loads.length := by
  have hc := load_lt c
  have hlast : codeLoad 255 = 26 + LATENCY_BUCKETS + 255 := rfl
  rw [length_loads]
  omega

/-- **A load takes its counter** and no other event counter. -/
theorem count_load {k : Nat} {f : Stats → CounterSnap → CounterSnap} (h : loads[k]? = some f)
    (s : Stats) (snap : CounterSnap) (c : Counter) :
    (f s snap).count c = if k = c.load then s.loadLifetime.count c else snap.count c := by
  have hc := load_lt c
  rcases load_cases h with hk | ⟨i, rfl, rfl⟩ | ⟨i, rfl, rfl⟩ | ⟨rfl, rfl⟩
  · interval_cases k <;> obtain rfl := Option.some.inj h <;> cases c <;> rfl
  · rw [if_neg (by omega)]
    cases c <;> rfl
  · rw [if_neg (by unfold codeLoad; omega)]
    cases c <;> rfl
  · rw [if_neg (by unfold codeLoad; omega)]
    cases c <;> rfl

/-- **A load takes its error code** and no other. -/
theorem code_load {k : Nat} {f : Stats → CounterSnap → CounterSnap} (h : loads[k]? = some f)
    (s : Stats) (snap : CounterSnap) (c : Fin 256) :
    getElem (f s snap).errorCodes c (code_lt c) =
      if k = codeLoad c then getElem s.errorCodes c (code_lt c)
      else getElem snap.errorCodes c (code_lt c) := by
  rcases load_cases h with hk | ⟨i, rfl, rfl⟩ | ⟨i, rfl, rfl⟩ | ⟨rfl, rfl⟩
  · rw [if_neg (by unfold codeLoad; omega)]
    interval_cases k <;> obtain rfl := Option.some.inj h <;> rfl
  · rw [if_neg (by unfold codeLoad; omega)]
  · dsimp only
    by_cases hi : i = c
    · subst hi
      rw [if_pos rfl]
      exact Vector.getElem_set_self ..
    · rw [if_neg (by unfold codeLoad; omega)]
      exact Vector.getElem_set_ne _ _ (by omega)
  · have hlast : codeLoad 255 = 26 + LATENCY_BUCKETS + 255 := rfl
    rw [if_neg (by unfold codeLoad at *; omega)]

end Stats

def Access.isLifetime : Access → Bool
  | .lifetime _ => true
  | _ => false

/-- The first access may come before the second: loads of one snapshot go up, and the reporter
sets its interval after them. -/
def Access.Before (a b : Access) : Prop :=
  (∀ j k, a = .lifetime j → b = .lifetime k → j < k) ∧ (a = .setInterval → b.isLifetime = false)

/-- Any access may come before one that is not a load of the snapshot. -/
theorem Access.before_of_other (a : Access) {b : Access} (h : b.isLifetime = false) :
    a.Before b := by
  refine ⟨fun j k _ hb => ?_, fun _ => h⟩
  subst hb
  cases h

theorem pairwise_others {l : List Access} (h : ∀ b ∈ l, b.isLifetime = false) :
    l.Pairwise Access.Before :=
  List.pairwise_of_forall_mem_list fun a _ b hb => a.before_of_other (h b hb)

theorem loadWindow_others : ∀ b ∈ loadWindow, b.isLifetime = false := by
  intro b hb
  unfold loadWindow at hb
  rcases List.mem_append.mp hb with hb | hb
  · obtain ⟨k, -, rfl⟩ := List.mem_map.mp hb
    rfl
  · rw [List.mem_singleton.mp hb]
    rfl

theorem loadLifetime_ordered : loadLifetime.Pairwise Access.Before := by
  apply List.pairwise_map.mpr
  refine List.pairwise_lt_range.imp fun hlt => ⟨fun j k hj hk => ?_, fun ha => by cases ha⟩
  cases hj
  cases hk
  exact hlt

namespace ReaderKind

/-- A program is its loads of the lifetime snapshot between other accesses. -/
theorem program_split (kind : ReaderKind) : ∃ first last : List Access,
    kind.program = first ++ (loadLifetime ++ last) ∧
      (∀ a ∈ first, a.isLifetime = false ∧ a ≠ .setInterval) ∧
      ∀ b ∈ last, b.isLifetime = false := by
  cases kind with
  | statsJson | closeRung =>
    refine ⟨[.harness, .rungId, .windowOpenEpochSec, .windowDurationSec, .activeClients,
      .suspendedClients], loadWindow ++ [.interval], ?_, by decide, fun b hb => ?_⟩
    · simp only [program, List.append_assoc]
    · rcases List.mem_append.mp hb with hb | hb
      · exact loadWindow_others b hb
      · rw [List.mem_singleton.mp hb]
        rfl
  | reporter =>
    have hgauges : ∀ b ∈ [Access.setInterval, .activeClients, .suspendedClients],
        b.isLifetime = false := by decide
    have hmeta : ∀ b ∈ [Access.rungId, .windowOpenEpochSec, .windowDurationSec],
        b.isLifetime = false := by decide
    refine ⟨[], [.setInterval, .activeClients, .suspendedClients] ++ (loadWindow ++
      [.rungId, .windowOpenEpochSec, .windowDurationSec]), ?_, by decide, fun b hb => ?_⟩
    · simp only [program, List.append_assoc, List.nil_append]
    · rcases List.mem_append.mp hb with hb | hb
      · exact hgauges b hb
      · rcases List.mem_append.mp hb with hb | hb
        · exact loadWindow_others b hb
        · exact hmeta b hb

theorem program_ordered (kind : ReaderKind) : kind.program.Pairwise Access.Before := by
  obtain ⟨first, last, hprogram, hfirst, hlast⟩ := kind.program_split
  rw [hprogram, List.pairwise_append, List.pairwise_append]
  refine ⟨pairwise_others fun a ha => (hfirst a ha).1, ⟨loadLifetime_ordered,
    pairwise_others hlast, fun a _ b hb => a.before_of_other (hlast b hb)⟩, fun a ha b _ => ?_⟩
  refine ⟨fun j k hj _ => ?_, fun hi => absurd hi (hfirst a ha).2⟩
  have hother := (hfirst a ha).1
  rw [hj] at hother
  cases hother

theorem lifetime_mem (kind : ReaderKind) {k : Nat} (hk : k < Stats.loads.length) :
    .lifetime k ∈ kind.program := by
  have hload : Access.lifetime k ∈ loadLifetime :=
    List.mem_map_of_mem (List.mem_range.mpr hk)
  obtain ⟨first, last, hprogram, -, -⟩ := kind.program_split
  rw [hprogram]
  exact List.mem_append_right _ (List.mem_append_left _ hload)

end ReaderKind

/-- What may not come before the next access of a thread comes after it. -/
theorem mem_of_suffix {α : Type*} {R : α → α → Prop} {l rest : List α} {a b : α}
    (h : a :: rest <:+ l) (hl : l.Pairwise R) (hb : b ∈ l) (hab : b ≠ a) (hR : ¬ R b a) :
    b ∈ rest := by
  obtain ⟨first, rfl⟩ := h
  rcases List.mem_append.mp hb with hb | hb
  · exact absurd ((List.pairwise_append.mp hl).2.2 b hb a (List.mem_cons_self ..)) hR
  · exact (List.mem_cons.mp hb).resolve_left hab

namespace Rungs

variable {K : Type*} [Field K] [LinearOrder K] {s s' : Rungs K}

/-- A thread that begins to put a blob together. -/
def fresh (kind : ReaderKind) : Reader K where
  kind := kind
  todo := kind.program
  blob :=
    { snapshot := { windowDurationSec := 0 }
      lifetime := {}
      window := {}
      interval := ⟨0, 0, 0, 0, 0, 0, 0, 0⟩ }

/-- What a step does to the threads that put blobs together, and to the reporter's memory. -/
inductive Moves (s s' : Rungs K) : Prop
  | other (f : Versions Part → Versions Part) (hprev : s'.prev = s.prev)
      (hemit : s'.emitted = s.emitted)
      (hreaders : s'.readers = s.readers.map fun r => { r with versions := f r.versions })
  | start (kind : ReaderKind)
      (hone : kind = .reporter → ∀ r ∈ s.readers, r.kind ≠ .reporter)
      (h : s' = { s with readers := s.readers ++ [fresh kind] })
  | access (i : Nat) (clock : Clock) (r : Reader K) (a : Access) (todo : List Access)
      (hr : s.readers[i]? = some r) (ht : r.todo = a :: todo) (hstats : s'.stats = s.stats)
      (hprev : s'.prev = s.prev) (hemit : s'.emitted = s.emitted)
      (hreaders : s'.readers = s.readers.set i { s.access clock r a with todo := todo })
  | emit (i : Nat) (r : Reader K) (hr : s.readers[i]? = some r) (ht : r.todo = [])
      (hstats : s'.stats = s.stats)
      (hprev : s'.prev = if r.kind = .reporter then r.blob.lifetime else s.prev)
      (hemit : s'.emitted = s.emitted ++ [r]) (hreaders : s'.readers = s.readers.eraseIdx i)

theorem step_moves {e : RungEvent K} (hs : s.step e = some s') : Moves s s' := by
  have hsame : s'.prev = s.prev → s'.emitted = s.emitted → s'.readers = s.readers → Moves s s' :=
    fun hprev hemit hreaders => .other id hprev hemit (hreaders.trans (List.map_id _).symm)
  cases e with
  | atom a | setSignIn | harness =>
    obtain rfl := Option.some.inj hs
    exact hsame rfl rfl rfl
  | openRung id =>
    simp only [step] at hs
    split at hs <;> obtain rfl := Option.some.inj hs <;> exact hsame rfl rfl rfl
  | openStep i clock =>
    simp only [step, openStep] at hs
    split at hs
    · cases hs
    · split at hs <;> obtain rfl := Option.some.inj hs <;> exact hsame rfl rfl rfl
    · split at hs
      · obtain rfl := Option.some.inj hs
        exact hsame rfl rfl rfl
      · obtain rfl := Option.some.inj hs
        exact .other Versions.replaced rfl rfl rfl
  | read kind =>
    obtain ⟨hone, hs⟩ := Option.ite_none_left_eq_some.mp hs
    obtain rfl := Option.some.inj hs
    refine .start kind (fun hk r hr hkind => hone ⟨hk, ?_⟩) rfl
    exact List.any_eq_true.mpr ⟨r, hr, decide_eq_true hkind⟩
  | readStep i clock =>
    simp only [step, readStep] at hs
    split at hs
    · cases hs
    · rename_i r hr
      split at hs
      · rename_i ht
        obtain rfl := Option.some.inj hs
        exact .emit i r hr ht rfl rfl rfl rfl
      · rename_i a todo ht
        obtain rfl := Option.some.inj hs
        exact .access i clock r a todo hr ht rfl rfl rfl rfl

/-- Neither the rungs nor the readers write a counter. -/
theorem step_cells {e : RungEvent K} (he : ∀ a, e ≠ .atom a) (hs : s.step e = some s')
    (cell : Cell) : cell.read s'.stats = cell.read s.stats := by
  have hsame : s'.stats = s.stats → cell.read s'.stats = cell.read s.stats := congrArg (cell.read ·)
  cases e with
  | atom a => exact absurd rfl (he a)
  | setSignIn =>
    obtain rfl := Option.some.inj hs
    cases cell with
    | counter c => cases c <;> rfl
    | _ => rfl
  | harness h =>
    obtain rfl := Option.some.inj hs
    rfl
  | openRung id =>
    simp only [step] at hs
    split at hs <;> exact hsame (Option.some.inj hs ▸ rfl)
  | openStep i clock =>
    simp only [step, openStep] at hs
    split at hs
    · cases hs
    · split at hs <;> exact hsame (Option.some.inj hs ▸ rfl)
    · split at hs
      · exact hsame (Option.some.inj hs ▸ rfl)
      · obtain rfl := Option.some.inj hs
        exact cell.read_openWindow ..
  | read kind =>
    obtain ⟨-, hs⟩ := Option.ite_none_left_eq_some.mp hs
    exact hsame (Option.some.inj hs ▸ rfl)
  | readStep i clock =>
    simp only [step, readStep] at hs
    split at hs
    · cases hs
    · split at hs <;> exact hsame (Option.some.inj hs ▸ rfl)

/-- What no access takes from only grows. -/
theorem read_mono {e : RungEvent K} (hs : s.step e = some s') {cell : Cell}
    (hcell : ∀ a, 0 ≤ cell.weight a) : cell.read s.stats ≤ cell.read s'.stats := by
  cases e with
  | atom a =>
    obtain rfl := Option.some.inj hs
    have hweight := hcell a
    dsimp only
    rw [Cell.read_apply]
    omega
  | _ => exact (step_cells (fun a ha => by cases ha) hs _).ge

theorem count_mono {e : RungEvent K} (hs : s.step e = some s') (c : Counter) :
    s.stats.loadLifetime.count c ≤ s'.stats.loadLifetime.count c := by
  have hcell : Cell.read s.stats (.counter c) ≤ Cell.read s'.stats (.counter c) := by
    apply read_mono hs
    intro a
    cases a with
    | fetchAdd c' n =>
      show 0 ≤ if c = c' then (n : ℤ) else 0
      split <;> omega
    | _ => exact le_refl 0
  exact Int.ofNat_le.mp hcell

theorem code_mono {e : RungEvent K} (hs : s.step e = some s') (c : Fin 256) :
    getElem s.stats.errorCodes c (code_lt c) ≤ getElem s'.stats.errorCodes c (code_lt c) := by
  have hcell : Cell.read s.stats (.code c) ≤ Cell.read s'.stats (.code c) := by
    apply read_mono hs
    intro a
    cases a with
    | addErrorCode c' n =>
      show 0 ≤ if c = Stats.codeIndex c' then (n : ℤ) else 0
      split <;> omega
    | _ => exact le_refl 0
  exact Int.ofNat_le.mp hcell

end Rungs

end CksLoadtest
