import CksLoadtest.Harness.Cut
import CksLoadtest.Lib.Tally
import CksLoadtest.Protocol.Lives

/-!
# What an add leaves behind

An accepted add keeps the process busy until it has counted its clients or has failed. Its
clients stand behind the old ones of their worker, and once they are all in service each of them
is ACTIVE at the first of two moments or SUSPENDED at the second, whatever it does in between.
-/
namespace CksLoadtest.Harness

open Lib Lib.Transition
open Protocol (Sys)

namespace Fleet

variable {K : Type*}

/-- `start` has returned true. -/
def Up (s : Fleet) : Prop := s.main = .running ∨ s.main = .stopping

/-- The sizes of the adds under way. -/
def counts (s : Fleet) : List Int := s.adds.map (·.count)

section Steps

variable [Ring K] [LinearOrder K] [FloorRing K] {parseIso8601Utc : String → Int} {cfg : Config K}
  {s s' : Fleet} {e : Event K}

variable (cfg) in
/-- What a step does to the adds and to what `statusJson` tells of them. -/
inductive Books (s : Fleet) : Event K → Fleet → Prop
  | kept {e : Event K} {s' : Fleet} (hb : s'.busy = s.busy) (hc : s'.counts = s.counts)
      (hup : s.Up → s'.Up ∧ s'.used = s.used ∧ s'.addError = s.addError) : Books s e s'
  | accepted {count : Int} {roster : Roster} (hm : s.main = .running)
      (he : s.requestAddError cfg count = "") :
      Books s (.requestAdd count) (s.acceptAdd cfg roster count)
  | ended {k : Nat} {a : Add} {s' : Fleet} (hk : s.adds[k]? = some a)
      (hend : s.endAdd k a = some s') : Books s (.addEnd k) s'

omit [Ring K] [LinearOrder K] [FloorRing K] in
theorem counts_at {k : Nat} {a : Add} (hk : s.adds[k]? = some a) :
    s.counts[k]? = some a.count := by
  show (s.adds.map (·.count))[k]? = _
  rw [List.getElem?_map, hk]
  rfl

omit [Ring K] [LinearOrder K] [FloorRing K] in
theorem counts_acceptAdd (s : Fleet) (roster : Roster) (count : Int) :
    (s.acceptAdd cfg roster count).counts = s.counts ++ [count] := List.map_append ..

omit [Ring K] [LinearOrder K] [FloorRing K] in
theorem counts_setAdd (s : Fleet) {k : Nat} {a b : Add} (hk : s.adds[k]? = some a)
    (hc : b.count = a.count) : (s.setAdd k b).counts = s.counts := by
  show (s.adds.set k b).map (·.count) = s.adds.map (·.count)
  refine List.ext_getElem? fun j => ?_
  rw [List.getElem?_map, List.getElem?_map, List.getElem?_set]
  split
  · rename_i hj
    subst hj
    rw [hk, if_pos (List.getElem?_eq_some_iff.mp hk).1]
    exact congrArg some hc
  · rfl

theorem step_books (hs : s.step parseIso8601Utc cfg e = some s') : Books cfg s e s' := by
  have hup {m : MainPhase} (hm : s.main = m) (h₁ : m ≠ .running) (h₂ : m ≠ .stopping) : ¬ s.Up := by
    rintro (h | h)
    · exact h₁ (hm.symm.trans h)
    · exact h₂ (hm.symm.trans h)
  have hkeep (h : s.Up) : s.Up ∧ s.used = s.used ∧ s.addError = s.addError := ⟨h, rfl, rfl⟩
  cases step_cases parseIso8601Utc cfg hs with
  | @start file api hm =>
    have hbefore := hup hm nofun nofun
    rcases start_cases parseIso8601Utc cfg s file api with ⟨-, -, hs⟩ | ⟨_, _, _, -, hs, -⟩
    · rw [hs]
      exact .kept rfl rfl fun h => absurd h hbefore
    · rw [hs]
      exact .kept rfl rfl fun h => absurd h hbefore
  | startStep hm => exact .kept rfl rfl fun h => absurd h (hup hm nofun nofun)
  | startFailed hm => exact .kept rfl rfl fun h => absurd h (hup hm nofun nofun)
  | startJoined hm => exact .kept rfl rfl fun h => absurd h (hup hm nofun nofun)
  | startDone hm => exact .kept rfl rfl fun h => absurd h (hup hm nofun nofun)
  | startGive hm => exact .kept rfl rfl fun h => absurd h (hup hm nofun nofun)
  | addRefused => exact .kept rfl rfl hkeep
  | addAccepted hm _ he => exact .accepted hm he
  | addStep hk => exact .kept rfl (counts_setAdd s hk rfl) hkeep
  | addJoin hk => exact .kept rfl (counts_setAdd s hk rfl) hkeep
  | addGive hk => exact .kept rfl (counts_setAdd s hk rfl) hkeep
  | addEnd hk hend => exact .ended hk hend
  | control => exact .kept rfl rfl hkeep
  | signal => exact .kept rfl rfl hkeep
  | endSeen => exact .kept rfl rfl hkeep
  | observeEnd => exact .kept rfl rfl hkeep
  | httpStop => exact .kept rfl rfl fun _ => ⟨.inr rfl, rfl, rfl⟩

/-- The end of an add: the error is set, or its clients are counted. -/
theorem endAdd_books {k : Nat} {a : Add} (h : s.endAdd k a = some s') :
    s'.main = s.main ∧ s'.busy = false ∧ s'.counts = s.counts.eraseIdx k ∧
      (s'.addError = "" → s'.used = int32 (s.used + a.count)) := by
  have hcounts : (s.adds.eraseIdx k).map (·.count) = s.counts.eraseIdx k :=
    (List.eraseIdx_map ..).symm
  unfold endAdd at h
  split at h
  · obtain rfl := Option.some.inj h
    refine ⟨rfl, rfl, hcounts, fun hok => ?_⟩
    dsimp only at hok
    split at hok
    · exact absurd hok (by decide)
    · exact absurd hok (by decide)
  · obtain rfl := Option.some.inj h
    exact ⟨rfl, rfl, hcounts, fun _ => rfl⟩
  · cases h

/-- One add at a time, and busy as long as it runs. -/
def Serial (s : Fleet) : Prop :=
  (s.busy = false ∧ s.counts = []) ∨ (s.busy = true ∧ ∃ count, s.counts = [count])

omit [Ring K] [LinearOrder K] [FloorRing K] in
theorem requestAddError_idle {count : Int} (h : s.requestAddError cfg count = "") :
    s.busy = false := ((requestAddError_eq_empty s count).mp h).2.1

theorem serial_step (h : s.Serial) (hs : s.step parseIso8601Utc cfg e = some s') : s'.Serial := by
  cases step_books hs with
  | kept hb hc =>
    unfold Serial
    rw [hb, hc]
    exact h
  | @accepted count roster hm he =>
    rcases h with ⟨-, hnone⟩ | ⟨hbusy, -⟩
    · refine .inr ⟨rfl, count, ?_⟩
      rw [counts_acceptAdd, hnone]
      rfl
    · exact absurd (hbusy.symm.trans (requestAddError_idle he)) nofun
  | @ended k a _ hk hend =>
    obtain ⟨-, hb, hc, -⟩ := endAdd_books hend
    have hmem := counts_at hk
    rcases h with ⟨-, hnone⟩ | ⟨-, count, hone⟩
    · rw [hnone] at hmem
      cases hmem
    · rw [hone] at hmem hc
      obtain rfl : k = 0 := Nat.lt_one_iff.mp (List.getElem?_eq_some_iff.mp hmem).1
      exact .inl ⟨hb, hc⟩

theorem serial_of_reach (h : (system parseIso8601Utc cfg).Reach s) : s.Serial := by
  refine System.Reach.inv (I := Serial) ?_ ?_ h
  · rintro _ rfl
    exact .inl ⟨rfl, rfl⟩
  · intro s e s' _ hi hs
    exact serial_step hi hs

/-- Where an add of `count` clients stands that was accepted at `used` clients. -/
structure Growth (used count : Int) (s : Fleet) : Prop where
  up : s.Up
  stage : (s.busy = true ∧ s.counts = [count] ∧ s.used = used) ∨
    (s.busy = false ∧ s.counts = [] ∧ (s.addError = "" → s.used = int32 (used + count)))

theorem Growth.of_accepted {count : Int} (h : s.Serial) (he : s.requestAddError cfg count = "")
    (hs : s.step parseIso8601Utc cfg (.requestAdd count) = some s') :
    Growth s.used count s' := by
  simp only [step] at hs
  split at hs
  · rename_i roster hm _
    rw [if_pos he] at hs
    obtain rfl := Option.some.inj hs
    rcases h with ⟨-, hnone⟩ | ⟨hbusy, -⟩
    · refine ⟨.inl hm, .inl ⟨rfl, ?_, rfl⟩⟩
      rw [counts_acceptAdd, hnone]
      rfl
    · cases hbusy.symm.trans (requestAddError_idle he)
  · cases hs

/-- **Step lemma.** Until the next add is accepted. -/
theorem Growth.step {used count : Int} (h : Growth used count s)
    (hs : s.step parseIso8601Utc cfg e = some s')
    (hne : ∀ n, e = .requestAdd n → s.requestAddError cfg n ≠ "") : Growth used count s' := by
  cases step_books hs with
  | kept hb hc hup =>
    obtain ⟨hup', hu, herr⟩ := hup h.up
    refine ⟨hup', ?_⟩
    rw [hb, hc, hu, herr]
    exact h.stage
  | accepted _ he => exact absurd he (hne _ rfl)
  | @ended k a _ hk hend =>
    obtain ⟨hm, hb, hc, hok⟩ := endAdd_books hend
    have hmem := counts_at hk
    have hup' : s'.Up := by
      unfold Up
      rw [hm]
      exact h.up
    refine ⟨hup', .inr ?_⟩
    rcases h.stage with ⟨-, hone, hu⟩ | ⟨-, hnone, -⟩
    · rw [hone] at hmem hc
      obtain ⟨hlt, hcount⟩ := List.getElem?_eq_some_iff.mp hmem
      obtain rfl : k = 0 := Nat.lt_one_iff.mp hlt
      have hcount : count = a.count := hcount
      rw [← hcount, hu] at hok
      exact ⟨hb, hc, hok⟩
    · rw [hnone] at hmem
      cases hmem

end Steps

end Fleet

namespace Process

variable {K : Type*} {n : Nat}

/-- The clients of a worker behind those it had been given at `p₀`. -/
def newClients (p₀ p : Process K n) (w : Fin n) : List (SimClient K) :=
  (p.sys.workers w).clients.drop (p₀.sys.hist.added w).length

/-- The add of `count` clients has ended, and all of them are ACTIVE or SUSPENDED. -/
def Grown (count : Int) (p₀ p : Process K n) : Prop :=
  p.fleet.busy = false ∧ p.fleet.addError = "" ∧
    ((∑ w, (newClients p₀ p w).length : Nat) : Int) = count ∧
    ∀ w, ∀ c ∈ newClients p₀ p w, c.state = .active ∨ c.state = .suspended

instance (count : Int) (p₀ p : Process K n) : Decidable (Grown count p₀ p) :=
  inferInstanceAs (Decidable (_ ∧ _ ∧ _ ∧ _))

/-- The clients in a state, by worker and position. -/
def slots (p : Process K n) (st : State) : Finset (Σ _ : Fin n, Nat) :=
  Finset.univ.sigma fun w =>
    (Finset.range (p.sys.workers w).clients.length).filter fun i =>
      (p.sys.client? w i).any fun c => c.state = st

/-- The clients behind those that the workers had been given at `p₀`. -/
def newSlots (p₀ p : Process K n) : Finset (Σ _ : Fin n, Nat) :=
  Finset.univ.sigma fun w =>
    Finset.Ico (p₀.sys.hist.added w).length (p.sys.workers w).clients.length

/-- The new clients that are SUSPENDED in `p` are so in `q`, too. -/
def Stays (p₀ p q : Process K n) : Prop :=
  ∀ s ∈ p.slots .suspended, (p₀.sys.hist.added s.1).length ≤ s.2 → s ∈ q.slots .suspended

variable {p₀ p q : Process K n} {count : Int} {st : State} {s : Σ _ : Fin n, Nat}

theorem Stays.refl (p₀ p : Process K n) : Stays p₀ p p := fun _ hs _ => hs

theorem mem_slots : s ∈ p.slots st ↔ ∃ c, p.sys.client? s.1 s.2 = some c ∧ c.state = st := by
  unfold slots
  rw [Finset.mem_sigma, Finset.mem_filter, Finset.mem_range, Option.any_eq_true]
  simp only [decide_eq_true_eq]
  constructor
  · rintro ⟨-, -, c, hc, hst⟩
    exact ⟨c, hc, hst⟩
  · rintro ⟨c, hc, hst⟩
    exact ⟨Finset.mem_univ _, (List.getElem?_eq_some_iff.mp hc).1, c, hc, hst⟩

theorem card_slots (p : Process K n) (st : State) : (p.slots st).card = p.sys.clientsIn st := by
  unfold slots Sys.clientsIn
  rw [Finset.card_sigma]
  refine Finset.sum_congr rfl fun w _ => ?_
  rw [← Tally.countP_slots, List.countP_eq_length_filter]
  exact congrArg List.length (List.filter_congr fun _ _ => Bool.decide_eq_true)

theorem mem_newClients {w : Fin n} {i : Nat} {c : SimClient K}
    (hold : (p₀.sys.hist.added w).length ≤ i) (hc : p.sys.client? w i = some c) :
    c ∈ newClients p₀ p w := by
  refine List.mem_of_getElem? (i := i - (p₀.sys.hist.added w).length) ?_
  unfold newClients
  rw [List.getElem?_drop, Nat.add_sub_cancel' hold]
  exact hc

/-- A grown process has as many new clients as were asked for. -/
theorem Grown.card_newSlots (h : Grown count p₀ p) : ((newSlots p₀ p).card : Int) = count := by
  rw [← h.2.2.1]
  unfold newSlots newClients
  rw [Finset.card_sigma]
  refine congrArg Nat.cast (Finset.sum_congr rfl fun w _ => ?_)
  rw [Nat.card_Ico, List.length_drop]

/-- Every new client is ACTIVE at the first of two moments or SUSPENDED at the second. -/
theorem Grown.newSlots_subset (h : Grown count p₀ p) (hs : Stays p₀ p q) :
    newSlots p₀ p ⊆ p.slots .active ∪ q.slots .suspended := by
  rintro ⟨w, i⟩ hnew
  obtain ⟨-, hnew⟩ := Finset.mem_sigma.mp hnew
  obtain ⟨hold, hlt⟩ := Finset.mem_Ico.mp hnew
  obtain ⟨c, hc⟩ : ∃ c, p.sys.client? w i = some c := ⟨_, List.getElem?_eq_getElem hlt⟩
  rw [Finset.mem_union]
  rcases h.2.2.2 w c (mem_newClients hold hc) with hst | hst
  · exact .inl (mem_slots.mpr ⟨c, hc, hst⟩)
  · exact .inr (hs ⟨w, i⟩ (mem_slots.mpr ⟨c, hc, hst⟩) hold)

variable [Field K] [LinearOrder K] [FloorRing K] {P : Platform K} {cfg : Config K}
  {parseIso8601Utc : String → Int}

theorem addClients_clients (activateAt : Int) (gs : List (Int × ClientCredentials)) (s : Sys K n)
    (w : Fin n) :
    ((gs.foldl (addClient P cfg activateAt) s).workers w).clients = (s.workers w).clients := by
  induction gs generalizing s with
  | nil => rfl
  | cons g gs ih =>
    rw [List.foldl_cons, ih]
    unfold addClient
    split
    · exact Sys.setWorker_clients s (x := { s.workers _ with
        pending := (s.workers _).pending ++ [⟨g.2, activateAt⟩] }) rfl w
    · rfl

/-- **Step lemma.** A SUSPENDED client that is in service afterwards is still SUSPENDED. -/
theorem Stays.step {e : Event K n} {r : Process K n} (h : Stays p₀ p q)
    (hs : q.step P parseIso8601Utc cfg e = some r) (hr : Grown count p₀ r) : Stays p₀ p r := by
  rintro ⟨w, i⟩ hc hold
  obtain ⟨d, hd, hds⟩ := mem_slots.mp (h _ hc hold)
  have hafter : ∃ d', r.sys.client? w i = some d' ∧
      (d'.state = .suspended ∨ d'.state = .waiting) := by
    rcases step_cases hs with ⟨e', activateAt, -, -, hsys⟩ | ⟨e', -, -, hsys, -⟩
    · rw [hsys, Sys.client?, addClients_clients]
      exact ⟨d, hd, .inl hds⟩
    · exact Sys.suspended_step hsys hd hds
  obtain ⟨d', hd', hs' | hs'⟩ := hafter
  · exact mem_slots.mpr ⟨d', hd', hs'⟩
  · rcases hr.2.2.2 w d' (mem_newClients hold hd') with hlive | hlive
    · exact absurd (hs'.symm.trans hlive) (by decide)
    · exact mem_slots.mpr ⟨d', hd', hlive⟩

end Process

end CksLoadtest.Harness
