import CksLoadtest.Harness.Process
import CksLoadtest.Protocol.Atoms

/-!
# The whole process, cut into accesses

The lock of `statusJson` is the harness's own, and no worker takes it: a load of a gauge may fall
between two accesses of a section, such as the two of `suspendClient`. Here the sections of the
process and the accesses its threads make to the counters are separate events. A counter is what
the sections begun come to, less what they have still to add.
-/
namespace CksLoadtest.Harness

open Lib.Tally Lib.Transition
open Protocol (Sys Thread)

/-- The process with its sections cut: the accesses each thread has still to make. -/
structure Cut (K : Type*) (n : Nat) where
  /-- As if all accesses of the sections begun had been made. -/
  process : Process K n := {}
  /-- The counters, as the other threads see them. -/
  stats : Stats := {}
  todo : Thread n → List Stats.Atom := fun _ => []

inductive Cut.Event (K : Type*) (n : Nat) where
  | begin (e : Process.Event K n)
  | atom (t : Thread n)

namespace Process

variable {K : Type*} {n : Nat}

/-- The harness writes no counter. -/
def Event.thread? : Event K n → Option (Thread n)
  | .harness .. => none
  | .thread e => e.thread?

variable [Field K] [LinearOrder K] [FloorRing K] (P : Platform K)
  (parseIso8601Utc : String → Int) (cfg : Config K)

/-- The accesses of a section, in its order. -/
def atoms (p : Process K n) : Event K n → List Stats.Atom
  | .harness .. => []
  | .thread e => p.sys.atoms P cfg e

variable {P parseIso8601Utc cfg} {p p' : Process K n} {e : Event K n}

theorem addClients_stats (activateAt : Int) (gs : List (Int × ClientCredentials)) (s : Sys K n) :
    (gs.foldl (addClient P cfg activateAt) s).stats = s.stats := by
  induction gs generalizing s with
  | nil => rfl
  | cons g gs ih =>
    rw [List.foldl_cons, ih]
    unfold addClient
    split
    · rfl
    · rfl

theorem step_stats (h : p.step P parseIso8601Utc cfg e = some p') :
    p'.sys.stats = (p.atoms P cfg e).foldl Stats.Atom.apply p.sys.stats := by
  rcases step_cases h with ⟨e', activateAt, rfl, -, hsys⟩ | ⟨e', rfl, -, hsys, -⟩
  · rw [hsys]
    exact addClients_stats ..
  · exact Sys.step_stats hsys

/-- Only a section of a thread has accesses. -/
theorem atoms_main (h : e.thread? = none) : p.atoms P cfg e = [] := by
  cases e with
  | harness => rfl
  | thread e =>
    cases e with
    | addClient | startWorker | shutdown => rfl
    | _ => cases h

end Process

namespace Cut

section

variable {K : Type*} {n : Nat}

/-- What the sections begun have still to add. -/
def owed (c : Cut K n) (cell : Cell) : Int := ∑ t, total cell.weight (c.todo t)

/-- No section begun has an access to the cell still to make. -/
def NoAccess (cell : Cell) (c : Cut K n) : Prop := ∀ t, ∀ a ∈ c.todo t, cell.weight a = 0

/-- No section begun has a `fetch_add` on the cell still to make. -/
def NoFetchAdd (cell : Cell) (c : Cut K n) : Prop := ∀ t, ∀ a ∈ c.todo t, cell.weight a ≤ 0

instance (cell : Cell) (c : Cut K n) : Decidable (NoAccess cell c) :=
  inferInstanceAs (Decidable (∀ t, ∀ a ∈ c.todo t, _))

instance (cell : Cell) (c : Cut K n) : Decidable (NoFetchAdd cell c) :=
  inferInstanceAs (Decidable (∀ t, ∀ a ∈ c.todo t, _))

variable {c : Cut K n} {cell : Cell}

theorem NoAccess.owed_eq (h : NoAccess cell c) : c.owed cell = 0 :=
  Finset.sum_eq_zero fun t _ => total_eq_zero (h t)

theorem NoFetchAdd.owed_nonpos (h : NoFetchAdd cell c) : c.owed cell ≤ 0 :=
  Finset.sum_nonpos fun t _ => total_nonpos (h t)

/-- Nothing is owed while no thread is in a section. -/
theorem owed_idle (h : ∀ t, c.todo t = []) (cell : Cell) : c.owed cell = 0 :=
  Finset.sum_eq_zero fun t _ => by rw [h t, total_nil]

end

variable {K : Type*} [Field K] [LinearOrder K] [FloorRing K] {n : Nat} (P : Platform K)
  (parseIso8601Utc : String → Int) (cfg : Config K)

/-- A thread begins a section when it has made all accesses of the one before. -/
def begin (c : Cut K n) (e : Process.Event K n) : Option (Cut K n) :=
  match e.thread? with
  | none =>
    (c.process.step P parseIso8601Utc cfg e).map fun process => { c with process := process }
  | some t =>
    if c.todo t = [] then
      (c.process.step P parseIso8601Utc cfg e).map fun process =>
        { c with
          process := process
          todo := Function.update c.todo t (c.process.atoms P cfg e) }
    else none

omit [Field K] [LinearOrder K] [FloorRing K] in
def atom (c : Cut K n) (t : Thread n) : Option (Cut K n) :=
  match c.todo t with
  | [] => none
  | a :: rest => some { c with stats := a.apply c.stats, todo := Function.update c.todo t rest }

def step (c : Cut K n) : Event K n → Option (Cut K n)
  | .begin e => c.begin P parseIso8601Utc cfg e
  | .atom t => c.atom t

end Cut

/-- The cut process with as many workers as the configuration has threads. -/
def cut {K : Type*} [Field K] [LinearOrder K] [FloorRing K] (P : Platform K)
    (parseIso8601Utc : String → Int) (cfg : Config K) :
    System (Cut K cfg.threads.toNat) (Cut.Event K cfg.threads.toNat) :=
  .ofPartial (fun c => c = {}) (Cut.step P parseIso8601Utc cfg)

namespace Cut

variable {K : Type*} [Field K] [LinearOrder K] [FloorRing K] {P : Platform K}
  {parseIso8601Utc : String → Int} {cfg : Config K}

section Steps

variable {n : Nat} {c c' : Cut K n} {e : Event K n}

/-- **One step** begins a section of the process or makes an access. -/
theorem step_cases (h : c.step P parseIso8601Utc cfg e = some c') :
    (∃ e' p, e = .begin e' ∧ c.process.step P parseIso8601Utc cfg e' = some p ∧
      ((c.process.atoms P cfg e' = [] ∧ c' = { c with process := p }) ∨
        ∃ t, c.todo t = [] ∧
          c' = { c with
            process := p
            todo := Function.update c.todo t (c.process.atoms P cfg e') })) ∨
      ∃ t a rest, e = .atom t ∧ c.todo t = a :: rest ∧
        c' = { c with stats := a.apply c.stats, todo := Function.update c.todo t rest } := by
  cases e with
  | begin e =>
    simp only [step, begin] at h
    split at h
    · rename_i hmain
      obtain ⟨p, hp, rfl⟩ := Option.map_eq_some_iff.mp h
      exact .inl ⟨e, p, rfl, hp, .inl ⟨Process.atoms_main hmain, rfl⟩⟩
    · obtain ⟨hidle, h⟩ := Option.ite_none_right_eq_some.mp h
      obtain ⟨p, hp, rfl⟩ := Option.map_eq_some_iff.mp h
      exact .inl ⟨e, p, rfl, hp, .inr ⟨_, hidle, rfl⟩⟩
  | atom t =>
    simp only [step, atom] at h
    split at h
    · cases h
    · rename_i a rest ht
      exact .inr ⟨t, a, rest, rfl, ht, (Option.some.inj h).symm⟩

/-- As far as the sections go, a step is one of the process or none. -/
theorem step_process (h : c.step P parseIso8601Utc cfg e = some c') :
    (∃ e', e = .begin e' ∧ c.process.step P parseIso8601Utc cfg e' = some c'.process) ∨
      (∃ t, e = .atom t) ∧ c'.process = c.process := by
  rcases step_cases h with ⟨e', p, rfl, hp, ⟨-, rfl⟩ | ⟨t, -, rfl⟩⟩ | ⟨t, a, rest, rfl, -, rfl⟩
  · exact .inl ⟨e', rfl, hp⟩
  · exact .inl ⟨e', rfl, hp⟩
  · exact .inr ⟨⟨t, rfl⟩, rfl⟩

end Steps

variable {c c' : Cut K cfg.threads.toNat} {e : Event K cfg.threads.toNat}
  {G : Cut K cfg.threads.toNat → Event K cfg.threads.toNat → Prop}
  {H : Process K cfg.threads.toNat → Process.Event K cfg.threads.toNat → Prop}

/-- The sections alone are a run of the uncut process. -/
theorem process_reach (hG : ∀ c e, G c (.begin e) → H c.process e)
    (h : (cut P parseIso8601Utc cfg).GReach G c) :
    (Harness.process P parseIso8601Utc cfg).GReach H c.process := by
  induction h with
  | init hi =>
    obtain rfl := hi
    exact .init rfl
  | @step c e c' _ hg hs ih =>
    rcases step_process hs with ⟨e', rfl, hp⟩ | ⟨-, hp⟩
    · exact .step ih (hG c e' hg) hp
    · rw [hp]
      exact ih

theorem settles_step (h : ∀ cell : Cell,
      Settles cell.weight c.todo (cell.read c.stats) (cell.read c.process.sys.stats))
    (hs : c.step P parseIso8601Utc cfg e = some c') (cell : Cell) :
    Settles cell.weight c'.todo (cell.read c'.stats) (cell.read c'.process.sys.stats) := by
  rcases step_cases hs with ⟨e', p, -, hp, ⟨hnone, rfl⟩ | ⟨t, hidle, rfl⟩⟩ |
    ⟨t, a, rest, -, ht, rfl⟩
  · have hstats := Process.step_stats hp
    rw [hnone] at hstats
    have hsame : p.sys.stats = c.process.sys.stats := hstats
    rw [hsame]
    exact h cell
  · rw [Process.step_stats hp, Cell.read_foldl]
    exact (h cell).begin hidle _
  · rw [Cell.read_apply]
    exact (h cell).act ht

/-- **What is missing of a counter is still to be added.** -/
theorem settles (h : (cut P parseIso8601Utc cfg).GReach G c) (cell : Cell) :
    cell.read c.process.sys.stats = cell.read c.stats + c.owed cell := by
  refine System.GReach.inv (I := fun c => ∀ cell : Cell,
    Settles cell.weight c.todo (cell.read c.stats) (cell.read c.process.sys.stats)) ?_ ?_ h cell
  · rintro _ rfl cell
    exact settles_idle cell.weight _
  · intro c e c' _ hi _ hs cell
    exact settles_step hi hs cell

/-- **The gauges** are the numbers of clients, but for what is still to be added. -/
theorem gauges (h : (cut P parseIso8601Utc cfg).GReach G c) :
    c.stats.activeClients + c.owed .activeClients = c.process.sys.clientsIn .active ∧
      c.stats.suspendedClients + c.owed .suspendedClients =
        c.process.sys.clientsIn .suspended := by
  have hprocess : (Harness.process P parseIso8601Utc cfg).GReach (fun _ _ => True) c.process :=
    process_reach (fun _ _ _ => trivial) h
  have hsys : (Protocol.system P cfg cfg.threads.toNat).Reach c.process.sys :=
    Process.sys_reach (H := fun _ _ => True) (fun _ _ _ _ => trivial)
      (fun _ _ _ _ _ _ _ => trivial) hprocess
  have hagree := Sys.gauges_agree P cfg hsys
  exact ⟨(settles h .activeClients).symm.trans hagree.active,
    (settles h .suspendedClients).symm.trans hagree.suspended⟩

end Cut

end CksLoadtest.Harness
