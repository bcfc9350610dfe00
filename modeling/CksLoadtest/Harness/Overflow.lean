import CksLoadtest.Harness.Stages
import CksLoadtest.Provision.Progress

/-!
# Sums that leave the int

`requestAdd` guards the number of clients with a sum of two `int`s. `provisionRange` counts the
offsets it hands out and the clients it has, adds every offset to the start of its range, and
prints the end of it. Nothing relates the operands to the range of an `int`: as long as the sums
fit, the guard admits exactly what the limit allows.
-/
namespace CksLoadtest

open Lib Lib.Transition

variable {K : Type*}

/-- A value of a 32-bit `int`. -/
def IsInt (x : Int) : Prop := -2 ^ 31 ≤ x ∧ x < 2 ^ 31

instance (x : Int) : Decidable (IsInt x) := inferInstanceAs (Decidable (_ ∧ _))

theorem consecutive_isInt {base : Int} (hbase : -2 ^ 31 ≤ base) {n : Nat}
    (hfits : base + n ≤ 2 ^ 31) : ∀ x ∈ consecutive base n, IsInt x := by
  intro x hx
  obtain ⟨hl, hu⟩ := mem_consecutive.mp hx
  exact ⟨hbase.trans hl, by omega⟩

/-- It has taken an offset that it is not done with. -/
def ThreadPhase.holds : ThreadPhase → Bool
  | .claimed _ | .working _ => true
  | _ => false

namespace Range

variable (cfg : Config K) (roster : Roster)

/-- The sums of a range before its threads are started: the keys that are looked up in the
roster, and the end of the range for the line that says how many were found. -/
def startSums (globalStart count : Int) : List Int :=
  if count ≤ 0 ∨ cfg.rosterFile = "" then []
  else consecutive globalStart count.toNat ++ [globalStart + count]

/-- The thread of the event takes an offset. -/
def claims (r : Range) : RangeEvent → Bool
  | .claim t => r.threads[t]? = some .idle
  | _ => false

/-- The thread of the event stores its client. -/
def stores (r : Range) (e : RangeEvent) : Bool :=
  (r.turn? e).any fun p =>
    (Provisioner.provisionClient cfg roster p.2 (int32 (r.globalStart + p.1))).result.isOk

/-- A line of output is due with the next client stored. -/
def Reports (r : Range) : Prop := (r.completed + 1) % 50 = 0 ∨ r.completed + 1 = r.count

instance (r : Range) : Decidable r.Reports := inferInstanceAs (Decidable (_ ∨ _))

/-- The sums of a thread's turn. -/
def sums (r : Range) (e : RangeEvent) : List Int :=
  (if r.claims e then [(r.nextOffset : Int) + 1] else []) ++
    (r.turn? e).toList.map (fun p => r.globalStart + p.1) ++
    if r.stores cfg roster e then
      ((r.completed : Int) + 1) :: if r.Reports then [r.globalStart + r.count] else []
    else []

/-- The next offset is an `int`, so is the index of the client, and so is the end of the range
where a line of output gives it. -/
def Fits (r : Range) (e : RangeEvent) : Prop :=
  (r.claims e → r.nextOffset + 1 < 2 ^ 31) ∧ (∀ p ∈ r.turn? e, r.globalStart + p.1 < 2 ^ 31) ∧
    (r.stores cfg roster e → r.Reports → r.globalStart + r.count < 2 ^ 31)

instance (r : Range) (e : RangeEvent) : Decidable (Fits cfg roster r e) :=
  inferInstanceAs (Decidable (_ ∧ (∀ p ∈ r.turn? e, _) ∧ _))

/-- What the counters of a range are to each other. -/
structure Sized (r : Range) : Prop where
  start : -2 ^ 31 ≤ r.globalStart
  length : r.out.length = r.count
  next : r.nextOffset < 2 ^ 31
  /-- An offset that was taken is held by a thread, or counts one client at most. -/
  held : r.completed + r.threads.countP (·.holds) ≤ r.nextOffset

variable {cfg roster} {r r' : Range} {stop : Bool} {e : RangeEvent} {ops : List Operation}

theorem start_sized {globalStart count : Int} (hg : -2 ^ 31 ≤ globalStart)
    (h : start cfg roster globalStart count = some r) :
    r.Sized ∧ (r.count : Int) = count := by
  unfold start at h
  split at h
  · cases h
  · rename_i hn
    rw [not_or] at hn
    obtain rfl := Option.some.inj h
    refine ⟨⟨hg, List.length_replicate, Nat.two_pow_pos 31, ?_⟩, ?_⟩
    · show 0 + (List.replicate _ ThreadPhase.idle).countP (·.holds) ≤ 0
      rw [List.countP_replicate, if_neg (by decide)]
    · show ((count.toNat : Nat) : Int) = count
      omega

/-- **Step lemma.** -/
theorem Sized.step (h : r.Sized) (hf : r.claims e → r.nextOffset + 1 < 2 ^ 31)
    (hs : r.step cfg roster stop e = some (r', ops)) : r'.Sized ∧ r'.count = r.count := by
  obtain ⟨hstart, hlength, hnext, hheld⟩ := h
  have hset {t : Nat} {p q : ThreadPhase} {a b : Nat} (ht : r.threads[t]? = some p)
      (ha : (if p.holds then 1 else 0) = a) (hb : (if q.holds then 1 else 0) = b) :
      (r.threads.set t q).countP (·.holds) + a = r.threads.countP (·.holds) + b := by
    rw [← ha, ← hb]
    exact countP_set (·.holds) ht
  cases step_turned hs with
  | @claim t ht =>
    have hclaims : r.claims (.claim t) = true := decide_eq_true ht
    have hcount := hset (q := .claimed r.nextOffset) (a := 0) (b := 1) ht rfl rfl
    refine ⟨⟨hstart, hlength, hf hclaims, ?_⟩, rfl⟩
    show r.completed + (r.threads.set t _).countP _ ≤ r.nextOffset + 1
    omega
  | @leave t off ht =>
    have hcount := hset (q := .ended) (a := 1) (b := 0) ht rfl rfl
    refine ⟨⟨hstart, hlength, hnext, ?_⟩, rfl⟩
    show r.completed + (r.threads.set t _).countP _ ≤ r.nextOffset
    omega
  | @go t off ht =>
    have hcount := hset (q := .working off) (a := 1) (b := 1) ht rfl rfl
    refine ⟨⟨hstart, hlength, hnext, ?_⟩, rfl⟩
    show r.completed + (r.threads.set t _).countP _ ≤ r.nextOffset
    omega
  | @store t off api c ht =>
    have hcount := hset (q := .idle) (a := 1) (b := 0) ht rfl rfl
    refine ⟨⟨hstart, List.length_set.trans hlength, hnext, ?_⟩, rfl⟩
    show r.completed + 1 + (r.threads.set t _).countP _ ≤ r.nextOffset
    omega
  | @fail t off api error ht =>
    have hcount := hset (q := .ended) (a := 1) (b := 0) ht rfl rfl
    refine ⟨⟨hstart, hlength, hnext, ?_⟩, rfl⟩
    show r.completed + (r.threads.set t _).countP _ ≤ r.nextOffset
    omega

/-- A thread that stores a client holds an offset until then. -/
theorem Sized.completed_lt (h : r.Sized) (hs : r.stores cfg roster e = true) :
    r.completed + 1 < 2 ^ 31 := by
  obtain ⟨p, hp, -⟩ := (Option.any_eq_true _ _).mp hs
  cases e with
  | claim | check => cases hp
  | provision t api =>
    simp only [turn?] at hp
    split at hp
    · rename_i off ht
      have hpos : 0 < r.threads.countP (·.holds) :=
        List.countP_pos_iff.mpr ⟨_, List.mem_of_getElem? ht, rfl⟩
      have hheld := h.held
      have hnext := h.next
      omega
    · cases hp

/-- A turn computes `int`s exactly when it fits. -/
theorem sums_iff (h : r.Sized) (e : RangeEvent) :
    (∀ x ∈ r.sums cfg roster e, IsInt x) ↔ r.Fits cfg roster e := by
  have hstart := h.start
  unfold sums
  rw [List.forall_mem_append, List.forall_mem_append, List.forall_mem_map, and_assoc]
  refine and_congr ?_ (and_congr ?_ ?_)
  · split
    · rename_i hclaims
      simp only [List.forall_mem_singleton, hclaims, forall_const]
      exact ⟨fun hx => by have := hx.2; omega, fun hx => ⟨by omega, by omega⟩⟩
    · rename_i hclaims
      exact iff_of_true nofun fun hc => absurd hc hclaims
  · refine forall_congr' fun p => ?_
    rw [Option.mem_toList]
    exact imp_congr_right fun _ => ⟨fun hx => hx.2, fun hx => ⟨by omega, hx⟩⟩
  · split
    · rename_i hstores
      have hdone := h.completed_lt hstores
      simp only [List.forall_mem_cons, hstores, forall_const]
      split
      · rename_i hreports
        simp only [List.forall_mem_singleton, hreports, forall_const]
        exact ⟨fun hx => hx.2.2, fun hx => ⟨⟨by omega, by omega⟩, by omega, hx⟩⟩
      · rename_i hreports
        exact iff_of_true ⟨⟨by omega, by omega⟩, nofun⟩ fun hr => absurd hr hreports
    · rename_i hstores
      exact iff_of_true nofun fun hs => absurd hs hstores

variable (cfg) in
/-- Before the threads are started, the end of the range is the largest sum. -/
theorem startSums_iff {globalStart : Int} (count : Int) (hg : -2 ^ 31 ≤ globalStart) :
    (∀ x ∈ startSums cfg globalStart count, IsInt x) ↔
      (0 < count → cfg.rosterFile ≠ "" → globalStart + count < 2 ^ 31) := by
  unfold startSums
  split
  · rename_i hnone
    exact iff_of_true nofun fun hc hf => hnone.elim (fun h => absurd h (by omega)) (absurd · hf)
  · rename_i hsome
    rw [not_or, not_le] at hsome
    rw [List.forall_mem_append, List.forall_mem_singleton]
    constructor
    · exact fun hx _ _ => hx.2.2
    · intro hx
      have hend := hx hsome.1 hsome.2
      exact ⟨consecutive_isInt hg (by omega), by omega, hend⟩

end Range

namespace Harness.Fleet

/-- The range, the roster and the turn of an event that provisions. -/
def turn (s : Fleet) : Event K → Option (Range × Roster × RangeEvent)
  | .startStep e =>
    match s.main, s.provisioner with
    | .provisioning r, some roster => some (r, roster, e)
    | _, _ => none
  | .addStep k e =>
    match s.adds[k]?, s.provisioner with
    | some ⟨_, _, .provisioning r⟩, some roster => some (r, roster, e)
    | _, _ => none
  | _ => none

section

variable [Ring K] [LinearOrder K] [FloorRing K] (parseIso8601Utc : String → Int) (cfg : Config K)

/-- `start` comes to its `provisionAll`. -/
def provisionsAll (file : RosterFile K) (api : ReplayApi) : Bool :=
  match Roster.load parseIso8601Utc cfg file with
  | .error _ => false
  | .ok _ =>
    cfg.replayLogging = "leave" ∨ (Provisioner.setReplayLogging (cfg.replayLogging = "on") api).2

/-- The sums an event computes in an `int`. -/
def sums (s : Fleet) : Event K → List Int
  | .start file api =>
    if provisionsAll parseIso8601Utc cfg file api then
      Range.startSums cfg cfg.indexBase cfg.clients
    else []
  | .requestAdd count =>
    if count < 1 ∨ s.busy then []
    else
      (s.used + count) ::
        if s.requestAddError cfg count = "" then
          (cfg.indexBase + s.used) :: Range.startSums cfg (int32 (cfg.indexBase + s.used)) count
        else []
  | .addEnd k =>
    match s.adds[k]? with
    | some ⟨count, _, .distributing []⟩ => [s.used + count]
    | _ => []
  | e => (s.turn e).elim [] fun x => x.1.sums cfg x.2.1 x.2.2

/-- What a step promises: its sums are `int`s, and a request is admitted exactly when no add is
running and the limit allows it, and changes nothing when it is refused. -/
def Guarded (s : Fleet) (e : Event K) : Prop :=
  (∀ x ∈ s.sums parseIso8601Utc cfg e, IsInt x) ∧
    match e with
    | .requestAdd count =>
      (s.requestAddError cfg count = "" ↔
        s.busy = false ∧ 1 ≤ count ∧ s.used + count ≤ cfg.indexLimit) ∧
      (s.requestAddError cfg count ≠ "" → ∀ s', s.step parseIso8601Utc cfg e = some s' →
        s'.used = s.used ∧ s'.busy = s.busy ∧ s'.addError = s.addError)
    | _ => True

/-- With a roster file, the end of the initial range is an `int`. Where a request comes to its
guard, so is the sum there; if the limit allows it, so is the start of its range and, with a
roster file, the end. A turn of a range fits. -/
def Fits (s : Fleet) : Event K → Prop
  | .start file api => provisionsAll parseIso8601Utc cfg file api → 0 < cfg.clients →
      cfg.rosterFile ≠ "" → cfg.indexBase + cfg.clients < 2 ^ 31
  | .requestAdd count => s.busy = false → 1 ≤ count → s.used + count < 2 ^ 31 ∧
      (s.used + count ≤ cfg.indexLimit → cfg.indexBase + s.used < 2 ^ 31 ∧
        (cfg.rosterFile ≠ "" → cfg.indexBase + s.used + count < 2 ^ 31))
  | e => ∀ x ∈ s.turn e, x.1.Fits cfg x.2.1 x.2.2

instance (s : Fleet) : (e : Event K) → Decidable (Fits parseIso8601Utc cfg s e)
  | .start _ _ => inferInstanceAs (Decidable (_ → _))
  | .requestAdd _ => inferInstanceAs (Decidable (_ → _ → _))
  | .startStep e => inferInstanceAs (Decidable (∀ x ∈ s.turn (.startStep (K := K) e), _))
  | .addStep k e => inferInstanceAs (Decidable (∀ x ∈ s.turn (.addStep (K := K) k e), _))
  | .startJoin | .startGive | .addJoin _ | .addGive _ | .addEnd _ | .control _ | .signal
  | .observeEnd _ | .httpStop => isTrue fun x hx => absurd hx (Option.not_mem_none x)

/-- The arguments that are `int`s because of their types. -/
def Typed : Event K → Prop
  | .start _ _ => IsInt cfg.indexBase
  | .requestAdd count => IsInt count ∧ IsInt cfg.indexLimit
  | _ => True

end

/-- An add that was admitted at `used` clients. -/
structure AddSized (used limit : Int) (a : Add) : Prop where
  count : 1 ≤ a.count
  limit : used + a.count ≤ limit
  fits : used + a.count < 2 ^ 31
  range : ∀ r, a.phase = .provisioning r → r.Sized

/-- What every step that fits keeps. -/
structure Sized (cfg : Config K) (s : Fleet) : Prop where
  used : 0 ≤ s.used ∧ s.used ≤ cfg.indexLimit
  loading : ∀ r, s.main = .provisioning r → r.Sized ∧ (r.count : Int) = cfg.clients
  /-- Adds are requested once `start` has returned. -/
  idle : (s.main = .running ∨ s.main = .stopping) ∨ s.adds = [] ∧ s.busy = false
  adds : (s.busy = false ∧ s.adds = []) ∨
    ∃ a, s.busy = true ∧ s.adds = [a] ∧ AddSized s.used cfg.indexLimit a

section Runs

variable [Ring K] [LinearOrder K] [FloorRing K] {parseIso8601Utc : String → Int} {cfg : Config K}
  {s s' : Fleet} {e : Event K}

omit [Ring K] [LinearOrder K] [FloorRing K] in
theorem Sized.add_at (h : Sized cfg s) {k : Nat} {a : Add} (hk : s.adds[k]? = some a) :
    k = 0 ∧ s.busy = true ∧ s.adds = [a] ∧ AddSized s.used cfg.indexLimit a := by
  rcases h.adds with ⟨-, hnone⟩ | ⟨b, hbusy, hone, hb⟩
  · rw [hnone] at hk
    cases hk
  · rw [hone] at hk
    obtain ⟨hlt, rfl⟩ := List.getElem?_eq_some_iff.mp hk
    obtain rfl : k = 0 := Nat.lt_one_iff.mp hlt
    exact ⟨rfl, hbusy, hone, hb⟩

omit [Ring K] [LinearOrder K] [FloorRing K] in
/-- The main thread goes on, before there are adds or beside them. -/
theorem Sized.main (h : Sized cfg s) {m : MainPhase} (hm : ∀ r, m ≠ .provisioning r)
    (hi : (m = .running ∨ m = .stopping) ∨ s.adds = [] ∧ s.busy = false) :
    Sized cfg { s with main := m } :=
  ⟨h.used, fun r hr => absurd hr (hm r), hi, h.adds⟩

omit [Ring K] [LinearOrder K] [FloorRing K] in
/-- The one add goes on. -/
theorem Sized.setAdd (h : Sized cfg s) {k : Nat} {a : Add} (hk : s.adds[k]? = some a)
    {p : AddPhase} (hr : ∀ r, p = .provisioning r → r.Sized) :
    Sized cfg (s.setAdd k { a with phase := p }) := by
  obtain ⟨rfl, hbusy, hone, ha⟩ := h.add_at hk
  refine ⟨h.used, h.loading, ?_, .inr ⟨{ a with phase := p }, hbusy, ?_, ?_⟩⟩
  · rcases h.idle with hup | ⟨hnone, -⟩
    · exact .inl hup
    · rw [hone] at hnone
      cases hnone
  · show s.adds.set 0 _ = _
    rw [hone]
    rfl
  · exact ⟨ha.count, ha.limit, ha.fits, hr⟩

theorem sized_start (hcfg : cfg.Accepted) (h : Sized cfg s) (hm : s.main = .notStarted)
    (file : RosterFile K) (api : ReplayApi) :
    Sized cfg (s.start parseIso8601Utc cfg file api) := by
  have hbase := hcfg.sizes.2.2.2.1
  have hidle : s.adds = [] ∧ s.busy = false := by
    rcases h.idle with hup | hidle
    · rw [hm] at hup
      rcases hup with hup | hup <;> cases hup
    · exact hidle
  rcases start_cases parseIso8601Utc cfg s file api with ⟨-, -, hs⟩ |
    ⟨roster, main, ops, -, hs, -, hmain⟩
  · rw [hs]
    exact h.main nofun (.inr hidle)
  · rw [hs]
    refine ⟨h.used, fun r hr => ?_, .inr hidle, h.adds⟩
    have hr : main = .provisioning r := hr
    rcases hmain with rfl | rfl | ⟨r', rfl, hstart⟩
    · cases hr
    · cases hr
    · obtain rfl := MainPhase.provisioning.inj hr
      exact Range.start_sized (by omega) hstart

omit [Ring K] [LinearOrder K] [FloorRing K] in
theorem sized_accept (h : Sized cfg s) (hm : s.main = .running) {count : Int}
    (he : s.requestAddError cfg count = "") (hfits : s.used + count < 2 ^ 31) (roster : Roster) :
    Sized cfg (s.acceptAdd cfg roster count) := by
  obtain ⟨hc, hb, hle⟩ := (requestAddError_eq_empty s count).mp he
  have hused := h.used
  rw [int32_of_fits (by omega) hfits] at hle
  have hnone : s.adds = [] := by
    rcases h.adds with ⟨-, hnone⟩ | ⟨a, hbusy, -⟩
    · exact hnone
    · exact absurd (hbusy.symm.trans hb) nofun
  have hstart : -2 ^ 31 ≤ int32 (cfg.indexBase + s.used) := by
    unfold int32
    have := Int.le_bmod (x := cfg.indexBase + s.used) (m := 2 ^ 32) (by decide)
    omega
  have hadd (phase : AddPhase) (hr : ∀ r, phase = .provisioning r → r.Sized) :
      AddSized s.used cfg.indexLimit ⟨count, int32 (cfg.indexBase + s.used), phase⟩ :=
    ⟨hc, hle, hfits, hr⟩
  refine ⟨h.used, h.loading, .inl (.inl hm), .inr ⟨_, rfl, congrArg (· ++ [_]) hnone, ?_⟩⟩
  refine hadd _ fun r hr => ?_
  split at hr
  · rename_i r' hr'
    obtain rfl := AddPhase.provisioning.inj hr
    exact (Range.start_sized hstart hr').1
  · cases hr

omit [Ring K] [LinearOrder K] [FloorRing K] in
theorem sized_end (h : Sized cfg s) {k : Nat} {a : Add} (hk : s.adds[k]? = some a)
    (hend : s.endAdd k a = some s') : Sized cfg s' := by
  obtain ⟨rfl, hbusy, hone, ha⟩ := h.add_at hk
  have hup : s.main = .running ∨ s.main = .stopping := by
    rcases h.idle with hup | ⟨hnone, -⟩
    · exact hup
    · rw [hone] at hnone
      cases hnone
  have hnone : s.adds.eraseIdx 0 = [] := by rw [hone]; rfl
  have hcount := ha.count
  have hlimit := ha.limit
  have hused := h.used
  unfold endAdd at hend
  split at hend
  · obtain rfl := Option.some.inj hend
    exact ⟨h.used, h.loading, .inl hup, .inl ⟨rfl, hnone⟩⟩
  · obtain rfl := Option.some.inj hend
    refine ⟨?_, h.loading, .inl hup, .inl ⟨rfl, hnone⟩⟩
    dsimp only
    rw [int32_of_fits (by omega) ha.fits]
    exact ⟨by omega, by omega⟩
  · cases hend

/-- **Step lemma.** -/
theorem Sized.step (hcfg : cfg.Accepted) (h : Sized cfg s) (hf : Fits parseIso8601Utc cfg s e)
    (hs : s.step parseIso8601Utc cfg e = some s') : Sized cfg s' := by
  have hbefore {m : MainPhase} (hm : s.main = m) (h₁ : m ≠ .running) (h₂ : m ≠ .stopping) :
      s.adds = [] ∧ s.busy = false := by
    rcases h.idle with (hup | hup) | hidle
    · exact absurd (hm.symm.trans hup) h₁
    · exact absurd (hm.symm.trans hup) h₂
    · exact hidle
  have hclaims {r : Range} {roster : Roster} {e' : RangeEvent}
      (ht : s.turn e = some (r, roster, e')) (hall : ∀ x ∈ s.turn e, x.1.Fits cfg x.2.1 x.2.2) :=
    (hall _ ht).1
  cases step_cases parseIso8601Utc cfg hs with
  | start hm => exact sized_start hcfg h hm _ _
  | @startStep e r r' roster ops hm hroster hr =>
    have ht : s.turn (.startStep (K := K) e) = some (r, roster, e) := by
      simp only [turn, hm, hroster]
    obtain ⟨hsized, hcount⟩ := h.loading r hm
    obtain ⟨hnext, hsame⟩ := hsized.step (hclaims ht hf) hr
    refine ⟨h.used, fun q hq => ?_, .inr (hbefore hm nofun nofun), h.adds⟩
    obtain rfl : r' = q := MainPhase.provisioning.inj hq
    exact ⟨hnext, hsame ▸ hcount⟩
  | startFailed hm => exact h.main nofun (.inr (hbefore hm nofun nofun))
  | @startJoined r hm hj hne =>
    obtain ⟨hsized, hcount⟩ := h.loading r hm
    have hlimit := hcfg.sizes.2.2.2.2
    have hlength : (r.result s.stop).length = r.count := by
      unfold Range.result at hne ⊢
      split
      · rename_i hflag
        rw [if_pos hflag] at hne
        exact absurd rfl hne
      · exact hsized.length
    refine ⟨⟨by dsimp only; omega, by dsimp only; omega⟩, nofun,
      .inr (hbefore hm nofun nofun), .inl ?_⟩
    exact ⟨(hbefore hm nofun nofun).2, (hbefore hm nofun nofun).1⟩
  | startDone hm => exact h.main nofun (.inl (.inl rfl))
  | @startGive c todo hm =>
    have hnext := h.main (m := .distributing todo) nofun (.inr (hbefore hm nofun nofun))
    exact ⟨hnext.used, hnext.loading, hnext.idle, hnext.adds⟩
  | addRefused => exact h
  | @addAccepted count roster hm hroster he =>
    obtain ⟨hc, hb, -⟩ := (requestAddError_eq_empty s count).mp he
    exact sized_accept h hm he (hf hb hc).1 roster
  | @addStep k e count globalStart r r' roster ops hk hroster hr =>
    have ht : s.turn (.addStep (K := K) k e) = some (r, roster, e) := by
      simp only [turn, hk, hroster]
    obtain ⟨-, -, -, ha⟩ := h.add_at hk
    obtain ⟨hnext, -⟩ := (ha.range r rfl).step (hclaims ht hf) hr
    have hset := h.setAdd hk (p := .provisioning r') fun q hq => by
      obtain rfl := AddPhase.provisioning.inj hq
      exact hnext
    exact ⟨hset.used, hset.loading, hset.idle, hset.adds⟩
  | @addJoin k count globalStart r hk hj =>
    refine h.setAdd hk fun q hq => ?_
    split at hq <;> cases hq
  | @addGive k count globalStart c todo hk =>
    have hset := h.setAdd hk (p := .distributing todo) nofun
    exact ⟨hset.used, hset.loading, hset.idle, hset.adds⟩
  | addEnd hk hend => exact sized_end h hk hend
  | control => exact ⟨h.used, h.loading, h.idle, h.adds⟩
  | signal => exact ⟨h.used, h.loading, h.idle, h.adds⟩
  | endSeen => exact h
  | observeEnd => exact ⟨h.used, h.loading, h.idle, h.adds⟩
  | httpStop => exact h.main nofun (.inl (.inr rfl))

theorem sized_of_fits (hcfg : cfg.Accepted)
    (h : (system parseIso8601Utc cfg).GReach (Fits parseIso8601Utc cfg) s) : Sized cfg s := by
  refine System.GReach.inv (I := Sized cfg) ?_ ?_ h
  · rintro s rfl
    have hlimit : 0 ≤ cfg.indexLimit := hcfg.sizes.1.trans hcfg.sizes.2.2.2.2
    exact ⟨⟨le_refl _, hlimit⟩, nofun, .inr ⟨rfl, rfl⟩, .inl ⟨rfl, rfl⟩⟩
  · intro s e s' _ hi hf hs
    exact hi.step hcfg hf hs

omit [Ring K] [LinearOrder K] [FloorRing K] in
/-- **The guard** admits what the limit allows exactly when its sum does not wrap. -/
theorem requestAddError_exact (hu : 0 ≤ s.used ∧ s.used ≤ cfg.indexLimit) {count : Int}
    (hcount : IsInt count) (hlimit : IsInt cfg.indexLimit) :
    (s.requestAddError cfg count = "" ↔
        s.busy = false ∧ 1 ≤ count ∧ s.used + count ≤ cfg.indexLimit) ↔
      (s.busy = false → 1 ≤ count → s.used + count < 2 ^ 31) := by
  obtain ⟨-, hcount⟩ := hcount
  obtain ⟨-, hlimit⟩ := hlimit
  rw [requestAddError_eq_empty]
  constructor
  · intro hexact hb hc
    by_contra hover
    -- a sum past the largest `int` is taken for a negative one
    have hwraps : int32 (s.used + count) = s.used + count - 2 ^ 32 := by
      unfold int32
      rw [← Int.sub_bmod_right]
      exact Int.bmod_eq_of_le (by omega) (by omega)
    have hallowed := (hexact.mp ⟨hc, hb, by omega⟩).2.2
    omega
  · intro hfits
    constructor
    · rintro ⟨hc, hb, hle⟩
      rw [int32_of_fits (by omega) (hfits hb hc)] at hle
      exact ⟨hb, hc, hle⟩
    · rintro ⟨hb, hc, hle⟩
      rw [int32_of_fits (by omega) (hfits hb hc)]
      exact ⟨hc, hb, hle⟩

/-- A refused request does not change anything. -/
theorem refused_unchanged {count : Int} (hr : s.requestAddError cfg count ≠ "")
    (hs : s.step parseIso8601Utc cfg (.requestAdd count) = some s') : s' = s := by
  simp only [step] at hs
  split at hs
  · rw [if_neg hr] at hs
    exact (Option.some.inj hs).symm
  · cases hs

/-- The initial load looks up its indices, and prints where they end. -/
theorem guarded_start (hcfg : cfg.Accepted) (file : RosterFile K) (api : ReplayApi) :
    Guarded parseIso8601Utc cfg s (.start file api) ↔
      Fits parseIso8601Utc cfg s (.start file api) := by
  have hbase := hcfg.sizes.2.2.2.1
  have hsums := Range.startSums_iff cfg cfg.clients
    (show -2 ^ 31 ≤ cfg.indexBase by omega)
  refine (and_iff_left trivial).trans ?_
  show (∀ x ∈ s.sums parseIso8601Utc cfg (.start file api), IsInt x) ↔ (_ → _)
  unfold sums
  dsimp only
  split
  · rename_i hall
    simpa only [hall, forall_const] using hsums
  · rename_i hnone
    exact iff_of_true nofun fun hall => absurd hall hnone

/-- A request computes its guard and, when it is admitted, where its range starts. -/
theorem guarded_request (hcfg : cfg.Accepted) (h : Sized cfg s) {count : Int}
    (hcount : IsInt count) (hlimit : IsInt cfg.indexLimit) :
    Guarded parseIso8601Utc cfg s (.requestAdd count) ↔
      Fits parseIso8601Utc cfg s (.requestAdd count) := by
  have hbase := hcfg.sizes.2.2.2.1
  have hused := h.used.1
  have hguard := requestAddError_exact h.used hcount hlimit
  have hstarts (hint : cfg.indexBase + s.used < 2 ^ 31) :=
    Range.startSums_iff cfg count
      (show -2 ^ 31 ≤ cfg.indexBase + s.used by omega)
  constructor
  · rintro ⟨hall, hexact, -⟩ hb hc
    refine ⟨hguard.mp hexact hb hc, fun hallowed => ?_⟩
    have hidle : ¬ (count < 1 ∨ s.busy = true) := by
      rw [not_or, hb]
      exact ⟨by omega, Bool.false_ne_true⟩
    unfold sums at hall
    dsimp only at hall
    rw [if_neg hidle, if_pos (hexact.mpr ⟨hb, hc, hallowed⟩), List.forall_mem_cons,
      List.forall_mem_cons] at hall
    obtain ⟨-, hstart, hrange⟩ := hall
    rw [int32_of_fits hstart.1 hstart.2] at hrange
    exact ⟨hstart.2, (hstarts hstart.2).mp hrange (by omega)⟩
  · intro hfits
    have hexact := hguard.mpr fun hb hc => (hfits hb hc).1
    refine ⟨?_, hexact, fun hr s' hs => ?_⟩
    · unfold sums
      dsimp only
      split
      · exact nofun
      · rename_i hidle
        rw [not_or, Bool.not_eq_true] at hidle
        obtain ⟨hsum, hrange⟩ := hfits hidle.2 (by omega)
        refine List.forall_mem_cons.mpr ⟨⟨by omega, hsum⟩, ?_⟩
        split
        · rename_i hadmitted
          obtain ⟨hstart, hend⟩ := hrange (hexact.mp hadmitted).2.2
          rw [int32_of_fits (by omega) hstart]
          exact List.forall_mem_cons.mpr ⟨⟨by omega, hstart⟩, (hstarts hstart).mpr fun _ => hend⟩
        · exact nofun
    · rw [refused_unchanged hr hs]
      exact ⟨rfl, rfl, rfl⟩

omit [Ring K] [LinearOrder K] [FloorRing K] in
theorem Sized.turn (h : Sized cfg s) {x : Range × Roster × RangeEvent}
    (hx : s.turn e = some x) : x.1.Sized := by
  cases e with
  | startStep e =>
    simp only [turn] at hx
    split at hx
    · rename_i hm _
      obtain rfl := Option.some.inj hx
      exact (h.loading _ hm).1
    · cases hx
  | addStep k e =>
    simp only [turn] at hx
    split at hx
    · rename_i hk _
      obtain rfl := Option.some.inj hx
      exact (h.add_at hk).2.2.2.range _ rfl
    · cases hx
  | _ => cases hx

omit [Ring K] [LinearOrder K] [FloorRing K] in
theorem turns_iff (hsized : ∀ x, s.turn e = some x → x.1.Sized) :
    (∀ x ∈ (s.turn e).elim [] (fun x => x.1.sums cfg x.2.1 x.2.2), IsInt x) ↔
      ∀ x ∈ s.turn e, x.1.Fits cfg x.2.1 x.2.2 := by
  cases ht : s.turn e with
  | none => exact iff_of_true nofun nofun
  | some x =>
    refine (Range.sums_iff (hsized x ht) x.2.2).trans ⟨?_, fun hall => hall x rfl⟩
    rintro hfits y hy
    obtain rfl := Option.some.inj hy
    exact hfits

/-- **Requests and ranges.** In every run whose steps all fit, whatever comes next: it computes
`int`s, and a request is admitted exactly when no add is running and the limit allows it, and
changes nothing when it is refused, if and only if it fits, too. -/
theorem guarded_iff (hcfg : cfg.Accepted)
    (h : (system parseIso8601Utc cfg).GReach (Fits parseIso8601Utc cfg) s) (he : Typed cfg e) :
    Guarded parseIso8601Utc cfg s e ↔ Fits parseIso8601Utc cfg s e := by
  have hsized := sized_of_fits hcfg h
  have hquiet : ∀ x ∈ (none : Option (Range × Roster × RangeEvent)), x.1.Fits cfg x.2.1 x.2.2 :=
    fun x hx => absurd hx (Option.not_mem_none x)
  cases e with
  | start file api => exact guarded_start hcfg file api
  | requestAdd count => exact guarded_request hcfg hsized he.1 he.2
  | startStep e =>
    exact (and_iff_left trivial).trans (turns_iff fun x hx => hsized.turn hx)
  | addStep k e =>
    exact (and_iff_left trivial).trans (turns_iff fun x hx => hsized.turn hx)
  | addEnd k =>
    refine iff_of_true ⟨?_, trivial⟩ hquiet
    unfold sums
    dsimp only
    split
    · rename_i count globalStart hk
      obtain ⟨-, -, -, ha⟩ := hsized.add_at hk
      have hused := hsized.used.1
      have hcount := ha.count
      dsimp only at hcount
      intro x hx
      obtain rfl := List.mem_singleton.mp hx
      exact ⟨by omega, ha.fits⟩
    · exact nofun
  | _ => exact iff_of_true ⟨fun x hx => absurd hx List.not_mem_nil, trivial⟩ hquiet

end Runs

/-- With one client of two, one more is admitted. -/
theorem guarded_sample : ∃ s : Fleet, s.used = 1 ∧
    Guarded (fun _ => 0) Sample.config s (.requestAdd 1) := by
  have hrun : ((System.exec
      (System.checked (fun s e => decide (Fits (fun _ => 0) Sample.config s e))
        (step (fun _ => 0) Sample.config)) {} (Sample.loads .missing 1)).map Fleet.used) =
      some 1 := by decide +kernel
  obtain ⟨s, hs, hu⟩ := Option.map_eq_some_iff.mp hrun
  have hcfg : Sample.config.Accepted := by
    show Config.validate _ = _
    decide +kernel
  have hr : (system (fun _ => 0) Sample.config).GReach (Fits (fun _ => 0) Sample.config) s :=
    System.GReach.exec (fun _ _ => of_decide_eq_true) (.init rfl) hs
  have hfits : Fits (fun _ => 0) Sample.config s (.requestAdd 1) := by
    intro _ _
    rw [hu]
    decide
  exact ⟨s, hu, (guarded_iff hcfg hr (e := .requestAdd 1) ⟨by decide, by decide⟩).mpr hfits⟩

/-- With one client, the largest `int` is admitted on top of it. -/
theorem wrapped_guard_admits : ∃ (cfg : Config ℚ) (s : Fleet), cfg.Accepted ∧
    cfg.indexLimit = 2147483647 ∧ (system (fun _ => 0) cfg).Reach s ∧ s.used = 1 ∧
    s.requestAddError cfg 2147483647 = "" ∧
    ¬ Guarded (fun _ => 0) cfg s (.requestAdd 2147483647) := by
  let cfg : Config ℚ := { Sample.config with indexLimit := 2147483647 }
  have hrun : ((System.exec (step (fun _ => 0) cfg) {} (Sample.loads .missing 1)).map
      fun s => (s.used, s.requestAddError cfg 2147483647)) = some (1, "") := by decide +kernel
  obtain ⟨s, hs, hm⟩ := Option.map_eq_some_iff.mp hrun
  obtain ⟨hu, hadmitted⟩ := Prod.mk.inj hm
  refine ⟨cfg, s, by show Config.validate _ = _; decide +kernel, rfl,
    System.Reach.exec (.init rfl) hs, hu, hadmitted, ?_⟩
  rintro ⟨-, hexact, -⟩
  have hallowed := (hexact.mp hadmitted).2.2
  rw [hu] at hallowed
  exact absurd hallowed (by decide)

end Harness.Fleet

end CksLoadtest
