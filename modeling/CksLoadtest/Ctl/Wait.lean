import CksLoadtest.Harness.Growth

/-!
# Waiting for a fleet to grow

`cks-loadtest-ctl wait` takes a baseline of every host and polls until every host is idle and
has grown by the delta. The hosts go on in between, and the gauges of one status are two loads,
either of which may fall between two accesses of a worker's section. When every baseline falls
before the growth and counts no client twice, the first poll after it ends the wait, as long as
the clients of the baseline are in service and the gauges do not lag behind.
-/
namespace CksLoadtest.Ctl

open Lib.Transition
open Harness (Cut Fleet Process)

/-- What `wait` reads of a status. -/
structure Status where
  used : Int
  active : Int
  suspended : Int
  busy : Bool
  addError : String

-- as the gauges themselves, their sum counts clients and is not wrapped
def Status.live (st : Status) : Int := st.active + st.suspended

/-- A host's process at the two loads of its `statusJson`. -/
structure Reading (K : Type*) (n : Nat) where
  first : Cut K n
  second : Cut K n

/-- What is guarded by `mu_` does not change between the loads. -/
def Reading.statusJson {K : Type*} {n : Nat} (r : Reading K n) : Status where
  used := r.second.process.fleet.used
  active := r.first.stats.activeClients
  suspended := r.second.stats.suspendedClients
  busy := r.second.process.fleet.busy
  addError := r.second.process.fleet.addError

/-- A row of `fan`. -/
inductive Row (K : Type*) (n : Nat) where
  | unasked
  /-- `statusJson` has loaded `activeClients`. -/
  | halfway (first : Cut K n)
  | answered (r : Reading K n)
  /-- `failIfAny` complains. -/
  | failed

namespace Row

variable {K : Type*} {n : Nat}

def isUnasked : Row K n → Bool
  | unasked => true
  | _ => false

def isHalfway : Row K n → Bool
  | halfway _ => true
  | _ => false

def isFailed : Row K n → Bool
  | failed => true
  | _ => false

def first? : Row K n → Option (Cut K n)
  | halfway first => some first
  | _ => none

def reading? : Row K n → Option (Reading K n)
  | answered r => some r
  | _ => none

theorem asked_of_first {row : Row K n} {first : Cut K n} (h : first ∈ row.first?) :
    ¬ row.isUnasked := by
  cases row with
  | unasked => cases h
  | _ => exact Bool.false_ne_true

theorem asked_of_reading {row : Row K n} {r : Reading K n} (h : r ∈ row.reading?) :
    ¬ row.isUnasked := by
  cases row with
  | unasked => cases h
  | _ => exact Bool.false_ne_true

end Row

/-- A host, with what `wait` holds of it. -/
structure Host (K : Type*) (n : Nat) where
  cut : Cut K n := {}
  row : Row K n := .unasked
  /-- The row that `baseUsed` and `baseLive` are taken from. -/
  base : Option (Reading K n) := none
  /-- The latest add the host has accepted, and the process then. No step reads it. -/
  asked : Option (Int × Process K n) := none

inductive Host.Event (K : Type*) (n : Nat)
  | run (e : Cut.Event K n)
  | loadActive
  | answer
  | fail

namespace Host

variable {K : Type*} {n : Nat}

/-- The sections that take `mu_`, as `statusJson` does. -/
def locks : Cut.Event K n → Bool
  | .begin (.harness (.requestAdd _) _) | .begin (.harness (.addEnd _) _)
  | .begin (.harness (.observeEnd _) _) => true
  | _ => false

/-- The size of the add that an event starts. -/
def accepted? (cfg : Config K) (p : Process K n) : Cut.Event K n → Option Int
  | .begin (.harness (.requestAdd count) _) =>
    if p.fleet.requestAddError cfg count = "" then some count else none
  | _ => none

def step [Field K] [LinearOrder K] [FloorRing K] (P : Platform K) (parseIso8601Utc : String → Int)
    (cfg : Config K) (h : Host K n) : Event K n → Option (Host K n)
  | .run e =>
    if h.row.isHalfway ∧ locks e then none
    else
      (h.cut.step P parseIso8601Utc cfg e).map fun c =>
        { h with
          cut := c
          asked := ((accepted? cfg h.cut.process e).map fun count =>
            (count, h.cut.process)).or h.asked }
  | .loadActive =>
    -- the control server is up
    match h.row, h.cut.process.fleet.main with
    | .unasked, .running => some { h with row := .halfway h.cut }
    | _, _ => none
  | .answer =>
    match h.row with
    | .halfway first => some { h with row := .answered ⟨first, h.cut⟩ }
    | _ => none
  | .fail =>
    match h.row with
    | .unasked | .halfway _ => some { h with row := .failed }
    | _ => none

def baseUsed (h : Host K n) : Int := h.base.elim 0 (·.statusJson.used)

def baseLive (h : Host K n) : Int := h.base.elim 0 (·.statusJson.live)

/-- What the loop finds in a row that does not make it set `grown = false`. -/
def HasGrown (delta : Int) (h : Host K n) (st : Status) : Prop :=
  0 < delta → int32 (h.baseUsed + delta) ≤ st.used ∧ int32 (h.baseLive + delta) ≤ st.live

instance (delta : Int) (h : Host K n) (st : Status) : Decidable (HasGrown delta h st) :=
  inferInstanceAs (Decidable (_ → _ ∧ _))

end Host

/-- The hosts and the tool. -/
structure Wait {K : Type*} {m : Nat} (cfg : Fin m → Config K) where
  hosts : (i : Fin m) → Host K (cfg i).threads.toNat := fun _ => {}
  rc : Option Int := none

inductive Wait.Event {K : Type*} {m : Nat} (cfg : Fin m → Config K)
  | host (i : Fin m) (e : Host.Event K (cfg i).threads.toNat)
  /-- All threads of `fan` are joined; `late` tells whether the deadline has passed. -/
  | turn (late : Bool)

namespace Wait

variable {K : Type*} {m : Nat} {cfg : Fin m → Config K}

/-- What `wait` does with the rows: the baseline first, then one turn of the loop each. -/
def turn (delta : Int) (x : Wait cfg) (late : Bool) : Option (Wait cfg) :=
  if x.rc.isSome ∨ ∃ i, (x.hosts i).row.isUnasked ∨ (x.hosts i).row.isHalfway then none
  else if ∃ i, (x.hosts i).row.isFailed then some { x with rc := some 1 }
  else if 0 < delta ∧ ∃ i, (x.hosts i).base.isNone then
    some { x with
      hosts := fun i =>
        { x.hosts i with
          base := (x.hosts i).row.reading?
          row := .unasked } }
  else if ∃ i, ∃ r ∈ (x.hosts i).row.reading?, r.statusJson.addError ≠ "" then
    some { x with rc := some 1 }
  else if ∀ i, ∀ r ∈ (x.hosts i).row.reading?,
      r.statusJson.busy = false ∧ (x.hosts i).HasGrown delta r.statusJson then
    some { x with rc := some 0 }
  else if late then some { x with rc := some 3 }
  else some { x with hosts := fun i => { x.hosts i with row := .unasked } }

def step [Field K] [LinearOrder K] [FloorRing K] (P : Platform K) (parseIso8601Utc : String → Int)
    (delta : Int) (x : Wait cfg) : Event cfg → Option (Wait cfg)
  | .host i e =>
    ((x.hosts i).step P parseIso8601Utc (cfg i) e).map fun h =>
      { x with hosts := Function.update x.hosts i h }
  | .turn late => x.turn delta late

end Wait

/-- A `wait` with `--active-delta`, next to the hosts from their start. -/
def waiting {K : Type*} [Field K] [LinearOrder K] [FloorRing K] {m : Nat} (P : Platform K)
    (parseIso8601Utc : String → Int) (cfg : Fin m → Config K) (delta : Int) :
    System (Wait cfg) (Wait.Event cfg) :=
  .ofPartial (fun x => x = {}) (Wait.step P parseIso8601Utc delta)

/-! ### The recipe -/

namespace Reading

variable {K : Type*} {n : Nat}

/-- The clients that are ACTIVE at the first load or SUSPENDED at the second. -/
def live (r : Reading K n) : Finset (Σ _ : Fin n, Nat) :=
  r.first.process.slots .active ∪ r.second.process.slots .suspended

/-- A baseline that shows no more than the clients in service, each of them once and none of the
add: no worker has an access to the gauge that is loaded still to make, and no client is suspended
between the loads. -/
structure Early (p₀ : Process K n) (b : Reading K n) : Prop where
  active : b.first.NoAccess .activeClients
  suspended : b.second.NoAccess .suspendedClients
  once : Disjoint (b.first.process.slots .active) (b.second.process.slots .suspended)
  old : ∀ s ∈ b.live, s.2 < (p₀.sys.hist.added s.1).length

/-- A poll that shows the clients of the baseline: they are in service, and no worker has a
`fetch_add` on the gauge that is loaded still to make. -/
structure Keeps (b r : Reading K n) : Prop where
  active : r.first.NoFetchAdd .activeClients
  suspended : r.second.NoFetchAdd .suspendedClients
  clients : b.live ⊆ r.live

instance (p₀ : Process K n) (b : Reading K n) : Decidable (Early p₀ b) :=
  decidable_of_iff
    (b.first.NoAccess .activeClients ∧ b.second.NoAccess .suspendedClients ∧
      Disjoint (b.first.process.slots .active) (b.second.process.slots .suspended) ∧
      ∀ s ∈ b.live, s.2 < (p₀.sys.hist.added s.1).length)
    ⟨fun ⟨h₁, h₂, h₃, h₄⟩ => ⟨h₁, h₂, h₃, h₄⟩, fun ⟨h₁, h₂, h₃, h₄⟩ => ⟨h₁, h₂, h₃, h₄⟩⟩

instance (b r : Reading K n) : Decidable (Keeps b r) :=
  decidable_of_iff
    (r.first.NoFetchAdd .activeClients ∧ r.second.NoFetchAdd .suspendedClients ∧ b.live ⊆ r.live)
    ⟨fun ⟨h₁, h₂, h₃⟩ => ⟨h₁, h₂, h₃⟩, fun ⟨h₁, h₂, h₃⟩ => ⟨h₁, h₂, h₃⟩⟩

end Reading

namespace Reading

variable {K : Type*} [Field K] [LinearOrder K] [FloorRing K] {P : Platform K}
  {parseIso8601Utc : String → Int} {cfg : Config K} {p₀ : Process K cfg.threads.toNat}
  {b r : Reading K cfg.threads.toNat} {count : Int}

/-- An early baseline shows the clients that are live at its loads. -/
theorem Early.live_eq (h : Early p₀ b) (h₁ : (Harness.cut P parseIso8601Utc cfg).Reach b.first)
    (h₂ : (Harness.cut P parseIso8601Utc cfg).Reach b.second) :
    b.statusJson.live = b.live.card := by
  have hactive := (Cut.gauges h₁).1
  have hsuspended := (Cut.gauges h₂).2
  rw [h.active.owed_eq, add_zero, ← Process.card_slots] at hactive
  rw [h.suspended.owed_eq, add_zero, ← Process.card_slots] at hsuspended
  show b.first.stats.activeClients + b.second.stats.suspendedClients = _
  rw [hactive, hsuspended, ← Nat.cast_add, ← Finset.card_union_of_disjoint h.once]
  rfl

/-- The gauges of a poll show at least the clients that are live at its loads. -/
theorem Keeps.le_live (h : Keeps b r) (h₁ : (Harness.cut P parseIso8601Utc cfg).Reach r.first)
    (h₂ : (Harness.cut P parseIso8601Utc cfg).Reach r.second) :
    r.live.card ≤ r.statusJson.live := by
  have hactive := (Cut.gauges h₁).1
  have hsuspended := (Cut.gauges h₂).2
  have hadd := h.active.owed_nonpos
  have hadd' := h.suspended.owed_nonpos
  rw [← Process.card_slots] at hactive hsuspended
  have hcard : r.live.card ≤ _ := Finset.card_union_le ..
  show (r.live.card : Int) ≤ r.first.stats.activeClients + r.second.stats.suspendedClients
  omega

omit [Field K] [LinearOrder K] [FloorRing K] in
/-- **Growth shows.** Next to the clients of the baseline, the poll shows those of the add. -/
theorem Keeps.grown (h : Keeps b r) (hb : Early p₀ b)
    (hg : Process.Grown count p₀ r.first.process)
    (hs : Process.Stays p₀ r.first.process r.second.process) :
    (b.live.card : Int) + count ≤ r.live.card := by
  have hdisjoint : Disjoint b.live (Process.newSlots p₀ r.first.process) := by
    rw [Finset.disjoint_left]
    intro s hold hnew
    have hlt := hb.old s hold
    have hle := (Finset.mem_Ico.mp (Finset.mem_sigma.mp hnew).2).1
    omega
  have hsub : b.live ∪ Process.newSlots p₀ r.first.process ⊆ r.live :=
    Finset.union_subset h.clients (hg.newSlots_subset hs)
  have hle := Finset.card_le_card hsub
  rw [Finset.card_union_of_disjoint hdisjoint] at hle
  have hcount := hg.card_newSlots
  omega

end Reading

namespace Host

variable {K : Type*} {n : Nat}

/-- The host is asked for its baseline after it has accepted an add of `delta` clients, and
accepts no other one from then on. -/
def AsAsked (cfg : Config K) (delta : Int) (h : Host K n) : Event K n → Prop
  | .run e => (accepted? cfg h.cut.process e).isSome → h.base.isNone ∧ h.row.isUnasked
  | .loadActive => h.base.isNone → ∃ a ∈ h.asked, a.1 = delta
  | _ => True

/-- The baseline is read while the add is running, and early in it. -/
def ReadEarly (h : Host K n) : Event K n → Prop
  | .answer => h.base.isNone → h.cut.process.fleet.busy = true ∧
      ∀ first ∈ h.row.first?, ∀ a ∈ h.asked, Reading.Early a.2 ⟨first, h.cut⟩
  | _ => True

/-- The add of `delta` clients has ended, and all of them are in service. -/
def Grown (delta : Int) (h : Host K n) : Prop :=
  ∃ a ∈ h.asked, a.1 = delta ∧ Process.Grown delta a.2 h.cut.process

/-- The poll shows the clients of the baseline. -/
def Kept (h : Host K n) : Prop := ∀ b ∈ h.base, ∀ r ∈ h.row.reading?, Reading.Keeps b r

instance (cfg : Config K) (delta : Int) (h : Host K n) : (e : Event K n) →
    Decidable (AsAsked cfg delta h e)
  | .run _ => inferInstanceAs (Decidable (_ → _ ∧ _))
  | .loadActive => inferInstanceAs (Decidable (_ → ∃ a ∈ h.asked, a.1 = delta))
  | .answer | .fail => inferInstanceAs (Decidable True)

instance (h : Host K n) : (e : Event K n) → Decidable (ReadEarly h e)
  | .answer => inferInstanceAs (Decidable (_ → _ ∧ ∀ first ∈ h.row.first?, ∀ a ∈ h.asked, _))
  | .run _ | .loadActive | .fail => inferInstanceAs (Decidable True)

instance (delta : Int) (h : Host K n) : Decidable (Grown delta h) :=
  inferInstanceAs (Decidable (∃ a ∈ h.asked, a.1 = delta ∧ Process.Grown delta a.2 h.cut.process))

instance (h : Host K n) : Decidable (Kept h) :=
  inferInstanceAs (Decidable (∀ b ∈ h.base, ∀ r ∈ h.row.reading?, _))

/-- What a guarded run keeps of a host. -/
structure Inv [Field K] [LinearOrder K] [FloorRing K] (P : Platform K)
    (parseIso8601Utc : String → Int) (cfg : Config K) (delta : Int)
    (h : Host K cfg.threads.toNat) : Prop where
  cut : (Harness.cut P parseIso8601Utc cfg).Reach h.cut
  growth : ∀ a ∈ h.asked, Fleet.Growth a.2.fleet.used a.1 h.cut.process.fleet
  halfway : ∀ first ∈ h.row.first?,
    (Harness.cut P parseIso8601Utc cfg).Reach first ∧ ∃ a ∈ h.asked, a.1 = delta
  answered : ∀ r ∈ h.row.reading?,
    (Harness.cut P parseIso8601Utc cfg).Reach r.first ∧
      (Harness.cut P parseIso8601Utc cfg).Reach r.second ∧ (∃ a ∈ h.asked, a.1 = delta) ∧
      ∀ a ∈ h.asked, Fleet.Growth a.2.fleet.used a.1 r.second.process.fleet ∧
        (h.base = none → r.second.process.fleet.used = a.2.fleet.used ∧ Reading.Early a.2 r)
  base : ∀ b ∈ h.base,
    (Harness.cut P parseIso8601Utc cfg).Reach b.first ∧
      (Harness.cut P parseIso8601Utc cfg).Reach b.second ∧ (∃ a ∈ h.asked, a.1 = delta) ∧
      ∀ a ∈ h.asked, b.second.process.fleet.used = a.2.fleet.used ∧ Reading.Early a.2 b

section Runs

variable [Field K] [LinearOrder K] [FloorRing K] {P : Platform K} {parseIso8601Utc : String → Int}
  {cfg : Config K} {delta : Int}

theorem growth_begin {p p' : Process K cfg.threads.toNat}
    {e : Process.Event K cfg.threads.toNat} {asked : Option (Int × Process K cfg.threads.toNat)}
    (hp : (Harness.process P parseIso8601Utc cfg).Reach p)
    (hs : p.step P parseIso8601Utc cfg e = some p')
    (h : ∀ a ∈ asked, Fleet.Growth a.2.fleet.used a.1 p.fleet) :
    ∀ a ∈ ((accepted? cfg p (.begin e)).map fun count => (count, p)).or asked,
      Fleet.Growth a.2.fleet.used a.1 p'.fleet := by
  rcases Process.step_cases hs with ⟨e', activateAt, rfl, hf, -⟩ | ⟨e', rfl, -, -, hf⟩
  · cases hacc : accepted? cfg p (.begin (.harness e' activateAt)) with
    | none =>
      intro a ha
      refine (h a ha).step hf fun count he hok => ?_
      subst he
      have hsome :
          accepted? cfg p (.begin (.harness (.requestAdd count) activateAt)) = some count :=
        if_pos hok
      rw [hacc] at hsome
      cases hsome
    | some count =>
      intro a ha
      obtain rfl : (count, p) = a := Option.some.inj ha
      cases e' with
      | requestAdd count' =>
        obtain ⟨hok, hcount⟩ := Option.ite_none_right_eq_some.mp hacc
        obtain rfl := Option.some.inj hcount
        exact .of_accepted (Fleet.serial_of_reach (Process.fleet_reach hp)) hok hf
      | _ => cases hacc
  · rw [hf]
    exact h

theorem growth_run {c c' : Cut K cfg.threads.toNat} {e : Cut.Event K cfg.threads.toNat}
    {asked : Option (Int × Process K cfg.threads.toNat)}
    (hc : (Harness.cut P parseIso8601Utc cfg).Reach c)
    (hs : c.step P parseIso8601Utc cfg e = some c')
    (h : ∀ a ∈ asked, Fleet.Growth a.2.fleet.used a.1 c.process.fleet) :
    ∀ a ∈ ((accepted? cfg c.process e).map fun count => (count, c.process)).or asked,
      Fleet.Growth a.2.fleet.used a.1 c'.process.fleet := by
  rcases Cut.step_process hs with ⟨e', rfl, hp⟩ | ⟨⟨t, rfl⟩, hp⟩
  · exact growth_begin (Cut.process_reach (fun _ _ _ => trivial) hc) hp h
  · rw [hp]
    exact h

omit [Field K] [LinearOrder K] [FloorRing K] in
theorem accepted_none {h : Host K cfg.threads.toNat} {e : Cut.Event K cfg.threads.toNat}
    (hg : AsAsked cfg delta h (.run e)) (hrow : ¬ (h.base.isNone ∧ h.row.isUnasked)) :
    accepted? cfg h.cut.process e = none := by
  by_contra hne
  exact hrow (hg (Option.isSome_iff_ne_none.mpr hne))

/-- Nothing is known of a row that has no loads. -/
theorem Inv.row {h : Host K cfg.threads.toNat} (hi : Inv P parseIso8601Utc cfg delta h)
    {row : Row K cfg.threads.toNat} (hfirst : row.first? = none) (hreading : row.reading? = none) :
    Inv P parseIso8601Utc cfg delta { h with row := row } := by
  refine ⟨hi.cut, hi.growth, fun first h' => ?_, fun r h' => ?_, hi.base⟩
  · rw [hfirst] at h'
    cases h'
  · rw [hreading] at h'
    cases h'

/-- **Step lemma.** -/
theorem Inv.step {h h' : Host K cfg.threads.toNat} {e : Event K cfg.threads.toNat}
    (hi : Inv P parseIso8601Utc cfg delta h) (hask : AsAsked cfg delta h e) (hearly : ReadEarly h e)
    (hs : h.step P parseIso8601Utc cfg e = some h') : Inv P parseIso8601Utc cfg delta h' := by
  cases e with
  | run e =>
    obtain ⟨-, hs⟩ := Option.ite_none_left_eq_some.mp hs
    obtain ⟨p, hp, rfl⟩ := Option.map_eq_some_iff.mp hs
    refine ⟨hi.cut.step hp, growth_run hi.cut hp hi.growth, ?_, ?_, ?_⟩
    · intro first hrow
      rw [accepted_none hask fun hc => Row.asked_of_first hrow hc.2]
      exact hi.halfway first hrow
    · intro r hrow
      rw [accepted_none hask fun hc => Row.asked_of_reading hrow hc.2]
      exact hi.answered r hrow
    · intro b hb
      have hpolled : ¬ h.base.isNone := by
        rw [show h.base = some b from hb]
        exact Bool.false_ne_true
      rw [accepted_none hask fun hc => hpolled hc.1]
      exact hi.base b hb
  | loadActive =>
    simp only [Host.step] at hs
    split at hs
    · obtain rfl := Option.some.inj hs
      refine ⟨hi.cut, hi.growth, ?_, fun r hr => absurd hr (Option.not_mem_none r), hi.base⟩
      intro first hrow
      obtain rfl : h.cut = first := Option.some.inj hrow
      refine ⟨hi.cut, ?_⟩
      cases hb : h.base with
      | none => exact hask (by rw [hb]; rfl)
      | some b => exact (hi.base b hb).2.2.1
    · cases hs
  | answer =>
    simp only [Host.step] at hs
    split at hs
    · rename_i first hrow
      obtain rfl := Option.some.inj hs
      obtain ⟨hfirst, hasked⟩ := hi.halfway first (by rw [hrow]; rfl)
      refine ⟨hi.cut, hi.growth, fun r hr => absurd hr (Option.not_mem_none r), ?_, hi.base⟩
      intro r hr
      obtain rfl : ⟨first, h.cut⟩ = r := Option.some.inj hr
      refine ⟨hfirst, hi.cut, hasked, fun a ha => ⟨hi.growth a ha, fun hb => ?_⟩⟩
      have hb : h.base = none := hb
      obtain ⟨hrunning, hread⟩ := hearly (by rw [hb]; rfl)
      refine ⟨?_, hread first (by rw [hrow]; rfl) a ha⟩
      rcases (hi.growth a ha).stage with ⟨-, -, hused⟩ | ⟨hidle, -⟩
      · exact hused
      · exact absurd (hrunning.symm.trans hidle) nofun
    · cases hs
  | fail =>
    simp only [Host.step] at hs
    split at hs
    · obtain rfl := Option.some.inj hs
      exact hi.row rfl rfl
    · obtain rfl := Option.some.inj hs
      exact hi.row rfl rfl
    · cases hs

/-- The baseline is taken from the rows. -/
theorem Inv.rebase {h : Host K cfg.threads.toNat} (hi : Inv P parseIso8601Utc cfg delta h)
    (hb : h.base = none) :
    Inv P parseIso8601Utc cfg delta { h with base := h.row.reading?, row := .unasked } := by
  refine ⟨hi.cut, hi.growth, fun q hq => absurd hq (Option.not_mem_none q),
    fun r hr => absurd hr (Option.not_mem_none r), fun b hr => ?_⟩
  obtain ⟨hfirst, hsecond, hasked, hcut⟩ := hi.answered b hr
  exact ⟨hfirst, hsecond, hasked, fun a ha => (hcut a ha).2 hb⟩

/-- What is known of a host that is polled while its new clients are in service. -/
structure Polled (delta : Int) (h : Host K cfg.threads.toNat) : Prop where
  base : h.base.isSome
  halfway : ∀ first ∈ h.row.first?, ∀ a ∈ h.asked,
    Process.Grown delta a.2 first.process ∧ Process.Stays a.2 first.process h.cut.process
  answered : ∀ r ∈ h.row.reading?, ∀ a ∈ h.asked,
    Process.Grown delta a.2 r.first.process ∧
      Process.Stays a.2 r.first.process r.second.process ∧
      Process.Grown delta a.2 r.second.process

omit [Field K] [LinearOrder K] [FloorRing K] in
theorem Grown.at {h : Host K n} (hg : Grown delta h) {a : Int × Process K n} (ha : a ∈ h.asked) :
    Process.Grown delta a.2 h.cut.process := by
  obtain ⟨b, hb, -, hgrown⟩ := hg
  obtain rfl : b = a := Option.some.inj (hb.symm.trans ha)
  exact hgrown

/-- **Step lemma.** -/
theorem Polled.step {h h' : Host K cfg.threads.toNat} {e : Event K cfg.threads.toNat}
    (hp : Polled delta h) (hask : AsAsked cfg delta h e) (hg : Grown delta h)
    (hs : h.step P parseIso8601Utc cfg e = some h') (hg' : Grown delta h') : Polled delta h' := by
  cases e with
  | run e =>
    obtain ⟨-, hs⟩ := Option.ite_none_left_eq_some.mp hs
    obtain ⟨c, hrun, rfl⟩ := Option.map_eq_some_iff.mp hs
    have hpolled : ¬ h.base.isNone := by
      rw [← Option.not_isSome, hp.base]
      exact Bool.false_ne_true
    have hnone := accepted_none hask fun hc => hpolled hc.1
    have hgrown {a : Int × Process K cfg.threads.toNat} (ha : a ∈ h.asked) :
        Process.Grown delta a.2 c.process := by
      refine hg'.at (a := a) ?_
      rw [hnone]
      exact ha
    rw [hnone]
    refine ⟨hp.base, fun first hfirst a ha => ?_, hp.answered⟩
    obtain ⟨hfirst, hstays⟩ := hp.halfway first hfirst a ha
    refine ⟨hfirst, ?_⟩
    rcases Cut.step_process hrun with ⟨e', -, hp⟩ | ⟨-, hp⟩
    · exact hstays.step hp (hgrown ha)
    · rw [hp]
      exact hstays
  | loadActive =>
    simp only [Host.step] at hs
    split at hs
    · obtain rfl := Option.some.inj hs
      refine ⟨hp.base, fun first hfirst a ha => ?_, fun r hr => absurd hr (Option.not_mem_none r)⟩
      obtain rfl : h.cut = first := Option.some.inj hfirst
      exact ⟨hg.at ha, .refl a.2 h.cut.process⟩
    · cases hs
  | answer =>
    simp only [Host.step] at hs
    split at hs
    · rename_i first hrow
      obtain rfl := Option.some.inj hs
      refine ⟨hp.base, fun q hq => absurd hq (Option.not_mem_none q), fun r hr a ha => ?_⟩
      obtain rfl : ⟨first, h.cut⟩ = r := Option.some.inj hr
      obtain ⟨hfirst, hstays⟩ := hp.halfway first (by rw [hrow]; rfl) a ha
      exact ⟨hfirst, hstays, hg.at ha⟩
    · cases hs
  | fail =>
    have hfailed : Polled delta { h with row := .failed } :=
      ⟨hp.base, fun q hq => absurd hq (Option.not_mem_none q),
        fun r hr => absurd hr (Option.not_mem_none r)⟩
    simp only [Host.step] at hs
    split at hs
    · obtain rfl := Option.some.inj hs
      exact hfailed
    · obtain rfl := Option.some.inj hs
      exact hfailed
    · cases hs

/-- **One host.** Polled after it has grown, it shows that it is idle and has grown. -/
theorem Polled.found {h : Host K cfg.threads.toNat} (hi : Inv P parseIso8601Utc cfg delta h)
    (hp : Polled delta h) (hkept : Kept h) {r : Reading K cfg.threads.toNat}
    (hr : r ∈ h.row.reading?) :
    r.statusJson.addError = "" ∧ r.statusJson.busy = false ∧ h.HasGrown delta r.statusJson := by
  obtain ⟨hfirst, hsecond, ⟨a, ha, hdelta⟩, hgrowth⟩ := hi.answered r hr
  obtain ⟨hgrown, hstays, hidle, herr, -⟩ := hp.answered r hr a ha
  obtain ⟨b, hb⟩ := Option.isSome_iff_exists.mp hp.base
  obtain ⟨hb₁, hb₂, -, hread⟩ := hi.base b hb
  obtain ⟨hused, hearly⟩ := hread a ha
  refine ⟨herr, hidle, fun hpos => ⟨?_, ?_⟩⟩
  · have hbase : h.baseUsed = a.2.fleet.used := by
      unfold baseUsed
      rw [hb]
      exact hused
    have hended : r.second.process.fleet.used = int32 (a.2.fleet.used + a.1) := by
      rcases (hgrowth a ha).1.stage with ⟨hbusy, -⟩ | ⟨-, -, hended⟩
      · exact absurd (hidle.symm.trans hbusy) nofun
      · exact hended herr
    rw [hbase, ← hdelta]
    exact hended.ge
  · have hbase : h.baseLive = b.statusJson.live := by
      unfold baseLive
      rw [hb]
      rfl
    have hkeeps := hkept b hb r hr
    rw [hbase, hearly.live_eq hb₁ hb₂]
    calc int32 (b.live.card + delta)
        ≤ b.live.card + delta := int32_le (by omega)
      _ ≤ r.live.card := hkeeps.grown hearly hgrown hstays
      _ ≤ r.statusJson.live := hkeeps.le_live hfirst hsecond

end Runs

end Host

namespace Wait

section

variable {K : Type*} {m : Nat} {cfg : Fin m → Config K}

def AsAsked (delta : Int) (x : Wait cfg) : Event cfg → Prop
  | .host i e => (x.hosts i).AsAsked (cfg i) delta e
  | .turn _ => True

def ReadEarly (x : Wait cfg) : Event cfg → Prop
  | .host i e => (x.hosts i).ReadEarly e
  | .turn _ => True

/-- Every host is idle, and its new clients are in service. -/
def Grown (delta : Int) (x : Wait cfg) : Prop := ∀ i, (x.hosts i).Grown delta

/-- A step between the requests and the answers of a poll that starts after the growth. -/
def WhileGrown (delta : Int) (x : Wait cfg) : Event cfg → Prop
  | .host i e => x.Grown delta ∧ (x.hosts i).AsAsked (cfg i) delta e
  | .turn _ => False

/-- `wait` is about to poll. -/
def Polling (x : Wait cfg) : Prop :=
  x.rc = none ∧ ∀ i, (x.hosts i).base.isSome ∧ (x.hosts i).row.isUnasked

/-- Every host has answered, and shows the clients of its baseline. -/
def Kept (x : Wait cfg) : Prop := ∀ i, (x.hosts i).row.reading?.isSome ∧ (x.hosts i).Kept

instance (delta : Int) (x : Wait cfg) : (e : Event cfg) → Decidable (AsAsked delta x e)
  | .host i e => inferInstanceAs (Decidable ((x.hosts i).AsAsked (cfg i) delta e))
  | .turn _ => inferInstanceAs (Decidable True)

instance (x : Wait cfg) : (e : Event cfg) → Decidable (ReadEarly x e)
  | .host i e => inferInstanceAs (Decidable ((x.hosts i).ReadEarly e))
  | .turn _ => inferInstanceAs (Decidable True)

instance (delta : Int) (x : Wait cfg) : Decidable (Grown delta x) :=
  inferInstanceAs (Decidable (∀ i, (x.hosts i).Grown delta))

instance (delta : Int) (x : Wait cfg) : (e : Event cfg) → Decidable (WhileGrown delta x e)
  | .host i e =>
    inferInstanceAs (Decidable (x.Grown delta ∧ (x.hosts i).AsAsked (cfg i) delta e))
  | .turn _ => inferInstanceAs (Decidable False)

instance (x : Wait cfg) : Decidable (Polling x) := inferInstanceAs (Decidable (_ ∧ _))

instance (x : Wait cfg) : Decidable (Kept x) :=
  inferInstanceAs (Decidable (∀ i, (x.hosts i).row.reading?.isSome ∧ (x.hosts i).Kept))

variable [Field K] [LinearOrder K] [FloorRing K] {P : Platform K} {parseIso8601Utc : String → Int}
  {delta : Int} {x y : Wait cfg}

/-- The baselines are taken together. -/
structure Inv (P : Platform K) (parseIso8601Utc : String → Int) (delta : Int) (x : Wait cfg) :
    Prop where
  host : ∀ i, (x.hosts i).Inv P parseIso8601Utc (cfg i) delta
  base : (∀ i, (x.hosts i).base = none) ∨ ∀ i, (x.hosts i).base.isSome

theorem step_host {i : Fin m} {e : Host.Event K (cfg i).threads.toNat}
    (h : x.step P parseIso8601Utc delta (.host i e) = some y) :
    ∃ h', (x.hosts i).step P parseIso8601Utc (cfg i) e = some h' ∧
      y = { x with hosts := Function.update x.hosts i h' } := by
  obtain ⟨h', hs, rfl⟩ := Option.map_eq_some_iff.mp h
  exact ⟨h', hs, rfl⟩

omit [Field K] [LinearOrder K] [FloorRing K] in
/-- A turn takes the baseline, ends the wait or forgets the rows. -/
theorem turn_cases {late : Bool} (h : x.turn delta late = some y) :
    (∃ rc, y = { x with rc := some rc }) ∨
      ((∃ i, (x.hosts i).base.isNone) ∧ (∀ i, (x.hosts i).row.reading?.isSome) ∧
        y = { x with hosts := fun i =>
          { x.hosts i with base := (x.hosts i).row.reading?, row := .unasked } }) ∨
      y = { x with hosts := fun i => { x.hosts i with row := .unasked } } := by
  unfold turn at h
  obtain ⟨hjoined, h⟩ := Option.ite_none_left_eq_some.mp h
  split at h
  · exact .inl ⟨1, (Option.some.inj h).symm⟩
  · rename_i hok
    split at h
    · rename_i hbase
      refine .inr (.inl ⟨hbase.2, fun i => ?_, (Option.some.inj h).symm⟩)
      rw [not_or, not_exists] at hjoined
      rw [not_exists] at hok
      have hasked := not_or.mp (hjoined.2 i)
      have hanswered := hok i
      cases hrow : (x.hosts i).row with
      | unasked => exact absurd (by rw [hrow]; rfl) hasked.1
      | halfway first => exact absurd (by rw [hrow]; rfl) hasked.2
      | answered r => rfl
      | failed => exact absurd (by rw [hrow]; rfl) hanswered
    · split at h
      · exact .inl ⟨1, (Option.some.inj h).symm⟩
      · split at h
        · exact .inl ⟨0, (Option.some.inj h).symm⟩
        · split at h
          · exact .inl ⟨3, (Option.some.inj h).symm⟩
          · exact .inr (.inr (Option.some.inj h).symm)

/-- A step of a host leaves its baseline alone. -/
theorem host_base {i : Fin m} {h' : Host K (cfg i).threads.toNat}
    {e : Host.Event K (cfg i).threads.toNat}
    (hs : (x.hosts i).step P parseIso8601Utc (cfg i) e = some h') :
    h'.base = (x.hosts i).base := by
  cases e with
  | run e =>
    obtain ⟨-, hs⟩ := Option.ite_none_left_eq_some.mp hs
    obtain ⟨p, -, rfl⟩ := Option.map_eq_some_iff.mp hs
    rfl
  | _ =>
    simp only [Host.step] at hs
    split at hs
    all_goals cases hs
    all_goals rfl

/-- **Step lemma.** -/
theorem Inv.step {e : Event cfg} (hi : Inv P parseIso8601Utc delta x) (hask : AsAsked delta x e)
    (hearly : ReadEarly x e) (hs : x.step P parseIso8601Utc delta e = some y) :
    Inv P parseIso8601Utc delta y := by
  cases e with
  | host i e =>
    obtain ⟨h', hrun, rfl⟩ := step_host hs
    refine ⟨fun j => ?_, ?_⟩
    · by_cases hj : j = i
      · subst hj
        show Host.Inv _ _ _ _ (Function.update x.hosts j h' j)
        rw [Function.update_self]
        exact (hi.host j).step hask hearly hrun
      · show Host.Inv _ _ _ _ (Function.update x.hosts i h' j)
        rw [Function.update_of_ne hj]
        exact hi.host j
    · have hbase : ∀ j, (Function.update x.hosts i h' j).base = (x.hosts j).base := by
        intro j
        by_cases hj : j = i
        · subst hj
          rw [Function.update_self]
          exact host_base hrun
        · rw [Function.update_of_ne hj]
      simp only [hbase]
      exact hi.base
  | turn late =>
    rcases turn_cases hs with ⟨rc, rfl⟩ | ⟨⟨i, hnone⟩, hrows, rfl⟩ | rfl
    · exact ⟨hi.host, hi.base⟩
    · have hall : ∀ j, (x.hosts j).base = none := by
        rcases hi.base with hall | hall
        · exact hall
        · rw [← Option.not_isSome, hall i] at hnone
          exact absurd hnone Bool.false_ne_true
      exact ⟨fun j => (hi.host j).rebase (hall j), .inr hrows⟩
    · exact ⟨fun j => (hi.host j).row rfl rfl, hi.base⟩

theorem inv_of_reach
    (h : (waiting P parseIso8601Utc cfg delta).GReach
      (fun x e => AsAsked delta x e ∧ ReadEarly x e) x) : Inv P parseIso8601Utc delta x := by
  refine System.GReach.inv (I := Inv P parseIso8601Utc delta) ?_ ?_ h
  · rintro _ rfl
    refine ⟨fun i => ?_, .inl fun i => rfl⟩
    exact ⟨.init rfl, fun a ha => absurd ha (Option.not_mem_none a),
      fun q hq => absurd hq (Option.not_mem_none q), fun r hr => absurd hr (Option.not_mem_none r),
      fun b hb => absurd hb (Option.not_mem_none b)⟩
  · intro x e y _ hi hg hs
    exact hi.step hg.1 hg.2 hs

theorem grown_of_path (h : (waiting P parseIso8601Utc cfg delta).GPath (WhileGrown delta) x y)
    (hy : y.Grown delta) : x.Grown delta := by
  cases h with
  | refl => exact hy
  | @step _ t _ e hg =>
    cases e with
    | host i e => exact hg.1
    | turn late => exact hg.elim

/-- **Step lemma.** -/
theorem polled_step {i : Fin m} {e : Host.Event K (cfg i).threads.toNat}
    (hp : ∀ j, (x.hosts j).Polled delta) (hg : WhileGrown delta x (.host i e))
    (hs : x.step P parseIso8601Utc delta (.host i e) = some y) (hy : y.Grown delta) :
    ∀ j, (y.hosts j).Polled delta := by
  obtain ⟨h', hrun, rfl⟩ := step_host hs
  intro j
  by_cases hj : j = i
  · subst hj
    have hgrown : Host.Grown delta (Function.update x.hosts j h' j) := hy j
    show Host.Polled delta (Function.update x.hosts j h' j)
    rw [Function.update_self] at hgrown ⊢
    exact (hp j).step hg.2 (hg.1 j) hrun hgrown
  · show Host.Polled delta (Function.update x.hosts i h' j)
    rw [Function.update_of_ne hj]
    exact hp j

/-- **Run lemma.** What one poll keeps that starts after the growth. -/
theorem polled_path (hi : Inv P parseIso8601Utc delta x) (hp : ∀ j, (x.hosts j).Polled delta)
    (h : (waiting P parseIso8601Utc cfg delta).GPath (WhileGrown delta) x y)
    (hy : y.Grown delta) :
    Inv P parseIso8601Utc delta y ∧ (∀ j, (y.hosts j).Polled delta) ∧ y.rc = x.rc := by
  induction h with
  | refl => exact ⟨hi, hp, rfl⟩
  | @step x t y e hg hs htail ih =>
    cases e with
    | host i e =>
      have hearly : ReadEarly x (.host i e) := by
        cases e with
        | answer =>
          intro hnone
          rw [← Option.not_isSome, (hp i).base] at hnone
          exact absurd hnone Bool.false_ne_true
        | _ => trivial
      have hpolled := polled_step hp hg hs (grown_of_path htail hy)
      have hask : AsAsked delta x (.host i e) := hg.2
      obtain ⟨hinv, hall, hrc⟩ := ih (hi.step hask hearly hs) hpolled hy
      refine ⟨hinv, hall, hrc.trans ?_⟩
      obtain ⟨h', -, rfl⟩ := step_host hs
      rfl
    | turn late => exact hg.elim

omit [Field K] [LinearOrder K] [FloorRing K] in
/-- The exit of the loop. -/
theorem turn_found (hrc : y.rc = none) (hbase : ∀ i, (y.hosts i).base.isSome)
    (hrow : ∀ i, ∃ r, (y.hosts i).row = .answered r)
    (hfound : ∀ i, ∀ r ∈ (y.hosts i).row.reading?, r.statusJson.addError = "" ∧
      r.statusJson.busy = false ∧ (y.hosts i).HasGrown delta r.statusJson) (late : Bool) :
    y.turn delta late = some { y with rc := some 0 } := by
  have hjoined : ¬ (y.rc.isSome ∨ ∃ i, (y.hosts i).row.isUnasked ∨ (y.hosts i).row.isHalfway) := by
    rw [hrc]
    rintro (h | ⟨i, h⟩)
    · cases h
    · obtain ⟨r, hr⟩ := hrow i
      rw [hr] at h
      rcases h with h | h <;> cases h
  have hok : ¬ ∃ i, (y.hosts i).row.isFailed := by
    rintro ⟨i, h⟩
    obtain ⟨r, hr⟩ := hrow i
    rw [hr] at h
    cases h
  have hpolled : ¬ (0 < delta ∧ ∃ i, (y.hosts i).base.isNone) := by
    rintro ⟨-, i, h⟩
    rw [← Option.not_isSome, hbase] at h
    cases h
  unfold turn
  rw [if_neg hjoined, if_neg hok, if_neg hpolled, if_neg, if_pos]
  · exact fun i r hr => (hfound i r hr).2
  · rintro ⟨i, r, hr, hne⟩
    exact hne (hfound i r hr).1

/-- **Add, then wait.** When every baseline was read early in the add, the first poll made once
every host is idle with its new clients in service ends the wait, as long as it shows the clients
of the baseline, whether or not the deadline has passed. -/
theorem wait_ends
    (hx : (waiting P parseIso8601Utc cfg delta).GReach
      (fun x e => AsAsked delta x e ∧ ReadEarly x e) x)
    (hpoll : x.Polling)
    (hpath : (waiting P parseIso8601Utc cfg delta).GPath (WhileGrown delta) x y)
    (hy : y.Grown delta) (hkept : y.Kept) (late : Bool) :
    y.step P parseIso8601Utc delta (.turn late) = some { y with rc := some 0 } := by
  have hstart : ∀ i, (x.hosts i).Polled delta := by
    intro i
    obtain ⟨hbase, hrow⟩ := hpoll.2 i
    refine ⟨hbase, fun q hq => ?_, fun r hr => ?_⟩
    · exact absurd hrow (Row.asked_of_first hq)
    · exact absurd hrow (Row.asked_of_reading hr)
  obtain ⟨hinv, hpolled, hrc⟩ := polled_path (inv_of_reach hx) hstart hpath hy
  have hrow : ∀ i, ∃ r, (y.hosts i).row = .answered r := by
    intro i
    have hsome := (hkept i).1
    cases hr : (y.hosts i).row with
    | answered r => exact ⟨r, rfl⟩
    | _ =>
      rw [hr] at hsome
      cases hsome
  refine turn_found (hrc.trans hpoll.1) (fun i => (hpolled i).base) hrow ?_ late
  exact fun i r hr => (hpolled i).found (hinv.host i) (hkept i).2 hr

end

end Wait

/-! One host with one client, which is asked for one more. -/
namespace Sample

def cfg : Fin 1 → Config ℚ := fun _ => Harness.Sample.config

def harness (e : Harness.Event ℚ) : Wait.Event cfg := .host 0 (.run (.begin (.harness e 0)))

def thread (e : Protocol.Event ℚ 1) : Wait.Event cfg := .host 0 (.run (.begin (.thread e)))

/-- The worker takes up its new clients, and client `i` is activated and counted. -/
def ramps (i : Nat) : List (Wait.Event cfg) :=
  [thread (.applyPendingClients 0), thread (.tick 0 2000000000 2000000000),
    thread (.activate 0 i Protocol.Sample.draws ⟨true, true, true, true⟩),
    .host 0 (.run (.atom (some (0 : Fin 1))))]

/-- The first client is loaded and activated, and one more is asked for. -/
def asks : List (Wait.Event cfg) :=
  (Harness.Sample.loads .missing 1).map harness ++ thread (.startWorker 0) :: ramps 0 ++
    [harness (.requestAdd 1)]

/-- The add runs to its end, and its client is activated. -/
def grows : List (Wait.Event cfg) :=
  (Harness.Sample.provisions Harness.Sample.client 1).map (fun e => harness (.addStep 0 e)) ++
    [harness (.addJoin 0), harness (.addGive 0), harness (.addEnd 0)] ++ ramps 1

def polls : List (Wait.Event cfg) := [.host 0 .loadActive, .host 0 .answer]

end Sample

/-- The baseline is read after the request was accepted, then the add runs, then the host is
polled. -/
theorem wait_ends_sample : ∃ y : Wait Sample.cfg, y.Grown 1 ∧ ∀ late,
    y.step Protocol.Sample.platform (fun _ => 0) 1 (.turn late) = some { y with rc := some 0 } := by
  let step : Wait Sample.cfg → Wait.Event Sample.cfg → Option (Wait Sample.cfg) :=
    Wait.step Protocol.Sample.platform (fun _ => 0) 1
  have hrun : ((System.exec (System.checked (fun x e => decide (x.AsAsked 1 e ∧ x.ReadEarly e))
      step) {} (Sample.asks ++ Sample.polls ++ .turn false :: Sample.grows)).bind fun x =>
    (System.exec (System.checked (fun x e => decide (x.WhileGrown 1 e)) step) x
      Sample.polls).map fun y => decide (x.Polling ∧ y.Grown 1 ∧ y.Kept)) = some true := by
    decide +kernel
  obtain ⟨x, hx, hrun⟩ := Option.bind_eq_some_iff.mp hrun
  obtain ⟨y, hy, hm⟩ := Option.map_eq_some_iff.mp hrun
  obtain ⟨hpoll, hgrown, hkept⟩ := of_decide_eq_true hm
  have hr : (waiting Protocol.Sample.platform (fun _ => 0) Sample.cfg 1).GReach
      (fun x e => x.AsAsked 1 e ∧ x.ReadEarly e) x :=
    System.GReach.exec (fun _ _ => of_decide_eq_true) (.init rfl) hx
  have hp : (waiting Protocol.Sample.platform (fun _ => 0) Sample.cfg 1).GPath
      (Wait.WhileGrown 1) x y :=
    System.GPath.exec (fun _ _ => of_decide_eq_true) hy
  exact ⟨y, hgrown, Wait.wait_ends hr hpoll hp hgrown hkept⟩

/-- The same with a baseline that is read after the add has ended: the new client is already
counted, and the wait runs into its deadline. -/
theorem late_baseline_times_out : ∃ x y : Wait Sample.cfg,
    (waiting Protocol.Sample.platform (fun _ => 0) Sample.cfg 1).GReach (Wait.AsAsked 1) x ∧
      x.Polling ∧
      (waiting Protocol.Sample.platform (fun _ => 0) Sample.cfg 1).GPath (Wait.WhileGrown 1) x y ∧
      y.Grown 1 ∧ (∀ i, (y.hosts i).row.reading?.isSome) ∧
      ∃ z, y.step Protocol.Sample.platform (fun _ => 0) 1 (.turn true) = some z ∧
        z.rc = some 3 := by
  let step : Wait Sample.cfg → Wait.Event Sample.cfg → Option (Wait Sample.cfg) :=
    Wait.step Protocol.Sample.platform (fun _ => 0) 1
  have hrun : ((System.exec (System.checked (fun x e => decide (x.AsAsked 1 e)) step) {}
      (Sample.asks ++ Sample.grows ++ Sample.polls ++ [.turn false])).bind fun x =>
    (System.exec (System.checked (fun x e => decide (x.WhileGrown 1 e)) step) x
      Sample.polls).map fun y => decide (x.Polling ∧ y.Grown 1 ∧
        (∀ i, (y.hosts i).row.reading?.isSome) ∧
        (step y (.turn true)).map (·.rc) = some (some 3))) = some true := by
    decide +kernel
  obtain ⟨x, hx, hrun⟩ := Option.bind_eq_some_iff.mp hrun
  obtain ⟨y, hy, hm⟩ := Option.map_eq_some_iff.mp hrun
  obtain ⟨hpoll, hgrown, hrows, hout⟩ := of_decide_eq_true hm
  obtain ⟨z, hz, hrc⟩ := Option.map_eq_some_iff.mp hout
  exact ⟨x, y, System.GReach.exec (fun _ _ => of_decide_eq_true) (.init rfl) hx, hpoll,
    System.GPath.exec (fun _ _ => of_decide_eq_true) hy, hgrown, hrows, z, hz, hrc⟩

end CksLoadtest.Ctl
