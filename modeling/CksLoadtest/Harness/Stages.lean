import CksLoadtest.Lib.Consecutive
import CksLoadtest.Harness.Fleet

/-!
# The stages of a run

Where the process stands, with what has been handed to the workers there: always the used
indices, then those handed out of the one range that is under way. `requestAdd` and
`provisionRange` compute the indices in a plain `int`; every step keeps this as long as
what it computes fits.
-/
namespace CksLoadtest

open Lib Lib.Transition

namespace Config

variable {K : Type*} {cfg : Config K}

/-- What `validate` checks of the fleet's size. -/
theorem Accepted.sizes (h : cfg.Accepted) :
    0 ≤ cfg.clients ∧ 1 ≤ cfg.threads ∧ 1 ≤ cfg.provisionConcurrency ∧ 0 ≤ cfg.indexBase ∧
      cfg.clients ≤ cfg.indexLimit := by
  have hp := h.passes
  simp only [fieldChecks, rangeChecks, List.forall_mem_append, List.forall_mem_cons,
    decide_eq_false_iff_not, not_lt] at hp
  obtain ⟨-, -, -, -, hclients, hthreads, -, -, -, -, -, -, -, -, -, -, -, -, hconc, -, -, -, hbase,
    -, -, hlimit, -⟩ := hp
  exact ⟨hclients, hthreads, hconc, hbase, hlimit⟩

end Config

namespace Harness

variable {K : Type*} (cfg : Config K)

namespace Fleet

/-- The indices handed out, in order. -/
def handed (s : Fleet) : List Int := s.given.map fun p => p.2.index

/-- The first `n` indices of the configuration. -/
def first (n : Int) : List Int := consecutive cfg.indexBase n.toNat

/-- An add that has been accepted and has not ended. -/
structure Adding (s : Fleet) (a : Add) : Prop where
  running : s.main = .running ∨ s.main = .stopping
  only : s.adds = [a]
  busy : s.busy = true
  start : a.globalStart = cfg.indexBase + s.used
  count : 1 ≤ a.count
  limit : s.used + a.count ≤ cfg.indexLimit
  countFits : s.used + a.count < 2 ^ 31
  rangeFits : cfg.indexBase + s.used + a.count ≤ 2 ^ 31
  phase :
    match a.phase with
    | .provisioning r => r.Inv s.stop ∧ r.globalStart = a.globalStart ∧ (r.count : Int) = a.count ∧
        s.handed = first cfg s.used
    | .failed => s.handed = first cfg s.used
    | .distributing todo => s.handed ++ todo.map (·.index) = first cfg (s.used + a.count)

/-- Where the process stands, with what has been handed out there. -/
inductive Stage (s : Fleet) : Prop
  | empty : (s.main = .notStarted ∨ s.main = .refused) → s.adds = [] → s.busy = false →
      s.used = 0 → s.given = [] → Stage s
  | loading (r : Range) : s.main = .provisioning r → s.adds = [] → s.busy = false → s.used = 0 →
      s.given = [] → r.Inv s.stop → r.globalStart = cfg.indexBase → (r.count : Int) = cfg.clients →
      cfg.indexBase + cfg.clients ≤ 2 ^ 31 → Stage s
  | starting (todo : List ClientCredentials) : s.main = .distributing todo → s.adds = [] →
      s.busy = false → s.handed ++ todo.map (·.index) = first cfg s.used → Stage s
  | idle : (s.main = .running ∨ s.main = .stopping) → s.adds = [] → s.busy = false →
      s.handed = first cfg s.used → Stage s
  | adding (a : Add) : Adding cfg s a → Stage s

/-- The invariant of the whole run. -/
structure Inv (s : Fleet) : Prop where
  used : 0 ≤ s.used ∧ s.used ≤ cfg.indexLimit
  worker : ∀ p ∈ s.given, p.1 = workerOf cfg p.2
  stage : Stage cfg s

/-- `used_ + count` stays within a 32-bit `int`. -/
def CountFits (s : Fleet) : Event K → Prop
  | .requestAdd count => s.used + count < 2 ^ 31
  | _ => True

/-- A range that is provisioned stays within a 32-bit `int`. -/
def RangeFits (s : Fleet) : Event K → Prop
  | .start _ _ => cfg.indexBase + cfg.clients ≤ 2 ^ 31
  | .requestAdd count =>
    s.requestAddError cfg count = "" → cfg.indexBase + s.used + count ≤ 2 ^ 31
  | _ => True

instance (s : Fleet) : (e : Event K) → Decidable (CountFits s e)
  | .requestAdd _ => inferInstanceAs (Decidable (_ < _))
  | .start .. | .startStep _ | .startJoin | .startGive | .addStep .. | .addJoin _ | .addGive _
  | .addEnd _ | .control _ | .signal | .observeEnd _ | .httpStop => inferInstanceAs (Decidable True)

instance (s : Fleet) : (e : Event K) → Decidable (RangeFits cfg s e)
  | .start _ _ => inferInstanceAs (Decidable (_ ≤ _))
  | .requestAdd _ => inferInstanceAs (Decidable (_ → _))
  | .startStep _ | .startJoin | .startGive | .addStep .. | .addJoin _ | .addGive _ | .addEnd _
  | .control _ | .signal | .observeEnd _ | .httpStop => inferInstanceAs (Decidable True)

variable {cfg} {s : Fleet}

theorem first_add (cfg : Config K) {m n : Int} (hm : 0 ≤ m) (hn : 0 ≤ n) :
    first cfg (m + n) = first cfg m ++ consecutive (cfg.indexBase + m) n.toNat := by
  have hadd : (m + n).toNat = m.toNat + n.toNat := by omega
  have hcast : (m.toNat : Int) = m := by omega
  rw [first, hadd, consecutive_add, hcast]
  rfl

/-- There is one add at most. -/
theorem Adding.at_only {a b : Add} {k : Nat} (h : Adding cfg s a) (hk : s.adds[k]? = some b) :
    k = 0 ∧ b = a := by
  rw [h.only] at hk
  obtain ⟨hlt, rfl⟩ := List.getElem?_eq_some_iff.mp hk
  have hk0 : k = 0 := Nat.lt_one_iff.mp hlt
  subst hk0
  exact ⟨rfl, rfl⟩

/-- An event of an add thread finds the one add. -/
theorem Stage.add_at {b : Add} {k : Nat} (h : Stage cfg s) (hk : s.adds[k]? = some b) :
    Adding cfg s b ∧ k = 0 := by
  have hnone : s.adds ≠ [] := fun h0 => by
    rw [h0] at hk
    cases hk
  cases h with
  | empty _ ha => exact absurd ha hnone
  | loading _ _ ha => exact absurd ha hnone
  | starting _ _ ha => exact absurd ha hnone
  | idle _ ha => exact absurd ha hnone
  | adding a ha =>
    obtain ⟨hk0, rfl⟩ := ha.at_only hk
    exact ⟨ha, hk0⟩

/-- What else a step changes does not matter, and a stop flag is never cleared. -/
theorem Stage.congr {s' : Fleet} (hm : s'.main = s.main) (ha : s'.adds = s.adds)
    (hb : s'.busy = s.busy) (hu : s'.used = s.used) (hg : s'.given = s.given)
    (hs : s.stop = true → s'.stop = true) (h : Stage cfg s) : Stage cfg s' := by
  obtain ⟨provisioner', main', stop', used', busy', addError', adds', endObserved', given',
    sent'⟩ := s'
  dsimp only at hm ha hb hu hg hs
  subst hm ha hb hu hg
  cases h with
  | empty hm ha hb hu hg => exact .empty hm ha hb hu hg
  | loading r hm ha hb hu hg hr hstart hcount hfits =>
    exact .loading r hm ha hb hu hg (hr.stopped hs) hstart hcount hfits
  | starting todo hm ha hb hh => exact .starting todo hm ha hb hh
  | idle hm ha hb hh => exact .idle hm ha hb hh
  | adding a ha =>
    refine .adding a { ha with phase := ?_ }
    have hp := ha.phase
    split at hp
    · exact ⟨hp.1.stopped hs, hp.2⟩
    · exact hp
    · exact hp

/-- What a range that fits provisions: nothing, or its indices in order. -/
theorem result_consecutive {r : Range} {stop : Bool} (h : r.Inv stop) (hj : r.joined = true)
    (hs : 0 ≤ r.globalStart) (hf : r.globalStart + r.count ≤ 2 ^ 31) :
    r.result stop = [] ∨
      (r.result stop).map (·.index) = consecutive r.globalStart r.count := by
  refine (Range.result_indices h hj).imp id fun hm => hm.trans ?_
  refine List.map_congr_left fun k hk => ?_
  rw [List.mem_range] at hk
  exact int32_of_fits (by omega) (by omega)

theorem Stage.log {o : Origin} {ops : List Operation} (h : Stage cfg s) :
    Stage cfg (s.log o ops) :=
  Stage.congr (s := s) rfl rfl rfl rfl rfl id h

theorem handed_give (s : Fleet) (c : ClientCredentials) :
    (s.give cfg c).handed = s.handed ++ [c.index] := by
  unfold handed give
  rw [List.map_append]
  rfl

/-- One client goes from the list to a worker. -/
theorem handed_give_cons (s : Fleet) (c : ClientCredentials) (todo : List ClientCredentials) :
    (s.give cfg c).handed ++ todo.map (·.index) = s.handed ++ (c :: todo).map (·.index) := by
  rw [handed_give, List.append_assoc]
  rfl

theorem give_worker {c : ClientCredentials} (h : ∀ p ∈ s.given, p.1 = workerOf cfg p.2) :
    ∀ p ∈ (s.give cfg c).given, p.1 = workerOf cfg p.2 := by
  intro p hp
  rcases List.mem_append.mp hp with hp | hp
  · exact h p hp
  · rw [List.mem_singleton.mp hp]

/-- The end of the initial load. -/
theorem startJoin_stage (hcfg : cfg.Accepted) {r : Range} (hm : s.main = .provisioning r)
    (hj : r.joined = true) (h : Stage cfg s) :
    if r.result s.stop = [] then Stage cfg { s with main := .refused }
    else (r.result s.stop).length = cfg.clients ∧ Stage cfg
      { s with used := (r.result s.stop).length, main := .distributing (r.result s.stop) } := by
  cases h with
  | empty h' => rcases h' with h' | h' <;> cases hm.symm.trans h'
  | starting todo h' => cases hm.symm.trans h'
  | idle h' => rcases h' with h' | h' <;> cases hm.symm.trans h'
  | adding a h' => rcases h'.running with h' | h' <;> cases hm.symm.trans h'
  | loading r' h' ha hb hu hg hr hstart hcount hfits =>
    obtain rfl := MainPhase.provisioning.inj (h'.symm.trans hm)
    have hbase := hcfg.sizes.2.2.2.1
    split
    · exact .empty (.inr rfl) ha hb hu hg
    · rename_i hne
      have hres := (result_consecutive hr hj (by omega) (by omega)).resolve_left hne
      have hlen := congrArg List.length hres
      rw [List.length_map, length_consecutive] at hlen
      refine ⟨by omega, .starting _ rfl ha hb ?_⟩
      show s.given.map _ ++ _ = first cfg _
      rw [hg, hres, hlen, hstart]
      rfl

/-- When `requestAdd` accepts. -/
theorem requestAddError_eq_empty (s : Fleet) (count : Int) :
    s.requestAddError cfg count = "" ↔
      1 ≤ count ∧ s.busy = false ∧ int32 (s.used + count) ≤ cfg.indexLimit := by
  unfold requestAddError
  split
  · rename_i hc
    simp only [show ¬ 1 ≤ count by omega, false_and, iff_false]
    decide
  · rename_i hc
    split
    · rename_i hb
      simp only [hb, Bool.true_eq_false, false_and, and_false, iff_false]
      decide
    · rename_i hb
      split
      · rename_i hl
        simp [not_le.mpr hl]
      · rename_i hl
        simp only [true_iff]
        exact ⟨by omega, eq_false_of_ne_true hb, not_lt.mp hl⟩

section Steps

variable [Ring K] [LinearOrder K] [FloorRing K] (parseIso8601Utc : String → Int)

theorem start_stage (hcfg : cfg.Accepted) (file : RosterFile K) (api : ReplayApi)
    (hm : s.main = .notStarted) (hfits : cfg.indexBase + cfg.clients ≤ 2 ^ 31)
    (h : Stage cfg s) : Stage cfg (s.start parseIso8601Utc cfg file api) := by
  have hempty : s.adds = [] ∧ s.busy = false ∧ s.used = 0 ∧ s.given = [] := by
    cases h with
    | empty _ ha hb hu hg => exact ⟨ha, hb, hu, hg⟩
    | loading r h' => cases hm.symm.trans h'
    | starting todo h' => cases hm.symm.trans h'
    | idle h' => rcases h' with h' | h' <;> cases hm.symm.trans h'
    | adding a h' => rcases h'.running with h' | h' <;> cases hm.symm.trans h'
  obtain ⟨ha, hb, hu, hg⟩ := hempty
  rcases start_cases parseIso8601Utc cfg s file api with
    ⟨thrown, -, hs⟩ | ⟨roster, main, ops, -, hs, -, hmain⟩
  · rw [hs]
    exact .empty (.inr rfl) ha hb hu hg
  · rw [hs]
    refine Stage.log ?_
    rcases hmain with rfl | rfl | ⟨r, rfl, hr⟩
    · exact .empty (.inr rfl) ha hb hu hg
    · refine .idle (.inl rfl) ha hb ?_
      show s.given.map _ = first cfg s.used
      rw [hg, hu]
      rfl
    · obtain ⟨hinv, hstart, hcount⟩ := Range.start_inv cfg roster hcfg.sizes.2.2.1 hr
      exact .loading r rfl ha hb hu hg hinv hstart hcount hfits

end Steps

/-- An accepted request takes the indices after the used ones. -/
theorem acceptAdd_stage (hcfg : cfg.Accepted) (hu : 0 ≤ s.used) (roster : Roster) {count : Int}
    (hm : s.main = .running) (he : s.requestAddError cfg count = "")
    (hc : s.used + count < 2 ^ 31) (hr : cfg.indexBase + s.used + count ≤ 2 ^ 31)
    (h : Stage cfg s) : Stage cfg (s.acceptAdd cfg roster count) := by
  have hsizes := hcfg.sizes
  obtain ⟨hcount, hbusy, hlimit⟩ := (requestAddError_eq_empty s count).mp he
  rw [int32_of_fits (by omega) hc] at hlimit
  have hstart : int32 (cfg.indexBase + s.used) = cfg.indexBase + s.used :=
    int32_of_fits (by omega) (by omega)
  have hidle : s.adds = [] ∧ s.handed = first cfg s.used := by
    cases h with
    | empty h' => rcases h' with h' | h' <;> cases hm.symm.trans h'
    | loading r h' => cases hm.symm.trans h'
    | starting todo h' => cases hm.symm.trans h'
    | idle h' ha hb hh => exact ⟨ha, hh⟩
    | adding a h' => cases hbusy.symm.trans h'.busy
  unfold acceptAdd
  rw [hstart, hidle.1]
  dsimp only
  cases hrange : Range.start cfg roster (cfg.indexBase + s.used) count with
  | none =>
    exact .adding _ ⟨.inl hm, rfl, rfl, rfl, hcount, hlimit, hc, hr, hidle.2⟩
  | some r =>
    obtain ⟨hinv, hrs, hrc⟩ := Range.start_inv cfg roster hsizes.2.2.1 hrange
    exact .adding _ ⟨.inl hm, rfl, rfl, rfl, hcount, hlimit, hc, hr, hinv, hrs, hrc, hidle.2⟩

/-- An add thread that keeps its reservation. -/
theorem Adding.setAdd {a b : Add} (h : Adding cfg s a) (hc : b.count = a.count)
    (hs : b.globalStart = a.globalStart)
    (hp :
      match b.phase with
      | .provisioning r => r.Inv s.stop ∧ r.globalStart = a.globalStart ∧
          (r.count : Int) = a.count ∧ s.handed = first cfg s.used
      | .failed => s.handed = first cfg s.used
      | .distributing todo => s.handed ++ todo.map (·.index) = first cfg (s.used + a.count)) :
    Adding cfg (s.setAdd 0 b) b where
  running := h.running
  only := by
    show s.adds.set 0 b = [b]
    rw [h.only]
    rfl
  busy := h.busy
  start := hs.trans h.start
  count := hc ▸ h.count
  limit := by rw [hc]; exact h.limit
  countFits := by rw [hc]; exact h.countFits
  rangeFits := by rw [hc]; exact h.rangeFits
  phase := by rw [hs, hc]; exact hp

theorem addJoin_stage (hcfg : cfg.Accepted) (hu : 0 ≤ s.used) {count globalStart : Int} {r : Range}
    (hj : r.joined = true) (h : Adding cfg s ⟨count, globalStart, .provisioning r⟩) :
    Stage cfg (s.setAdd 0 ⟨count, globalStart,
      if r.result s.stop = [] then .failed else .distributing (r.result s.stop)⟩) := by
  obtain ⟨hinv, hrs, hrc, hh⟩ := h.phase
  have hbase := hcfg.sizes.2.2.2.1
  have hstart : globalStart = cfg.indexBase + s.used := h.start
  have hcount : 1 ≤ count := h.count
  have hfits : cfg.indexBase + s.used + count ≤ 2 ^ 31 := h.rangeFits
  have hrs : r.globalStart = globalStart := hrs
  have hrc : (r.count : Int) = count := hrc
  refine .adding _ (h.setAdd rfl rfl ?_)
  split
  · rename_i heq
    split at heq <;> cases heq
  · exact hh
  · rename_i todo heq
    split at heq
    · cases heq
    · rename_i hne
      obtain rfl := AddPhase.distributing.inj heq
      have hres := (result_consecutive hinv hj (by omega) (by omega)).resolve_left hne
      have hadd := first_add cfg hu (show 0 ≤ count by omega)
      have hlen : r.count = count.toNat := by omega
      rw [hres, hh, hadd, hrs, hstart, hlen]

theorem addGive_stage {count globalStart : Int} {c : ClientCredentials}
    {todo : List ClientCredentials}
    (h : Adding cfg s ⟨count, globalStart, .distributing (c :: todo)⟩) :
    Stage cfg ((s.setAdd 0 ⟨count, globalStart, .distributing todo⟩).give cfg c) := by
  have hset : (s.setAdd 0 ⟨count, globalStart, .distributing todo⟩).adds =
      [⟨count, globalStart, .distributing todo⟩] := by
    unfold setAdd
    rw [h.only]
    rfl
  exact .adding ⟨count, globalStart, .distributing todo⟩
    { running := h.running
      only := hset
      busy := h.busy
      start := h.start
      count := h.count
      limit := h.limit
      countFits := h.countFits
      rangeFits := h.rangeFits
      phase := (handed_give_cons (s.setAdd 0 _) c todo).trans h.phase }

/-- How an add ends: with nothing handed out and nothing used, or with its whole range. -/
theorem endAdd_cases {a : Add} {s' : Fleet} (hu : 0 ≤ s.used) (h : Adding cfg s a)
    (hs : s.endAdd 0 a = some s') :
    s'.main = s.main ∧ s'.adds = [] ∧ s'.busy = false ∧ s'.given = s.given ∧
      s'.handed = first cfg s'.used ∧
      (a.phase = .failed ∧ s'.used = s.used ∨
        a.phase = .distributing [] ∧ s'.used = s.used + a.count) := by
  have hadds : s.adds.eraseIdx 0 = [] := by
    rw [h.only]
    rfl
  have hp := h.phase
  have hcount := h.count
  unfold endAdd at hs
  split at hs
  · rename_i hph
    obtain rfl := Option.some.inj hs
    rw [hph] at hp
    exact ⟨rfl, hadds, rfl, rfl, hp, .inl ⟨hph, rfl⟩⟩
  · rename_i hph
    obtain rfl := Option.some.inj hs
    rw [hph] at hp
    have hint : int32 (s.used + a.count) = s.used + a.count :=
      int32_of_fits (by omega) h.countFits
    refine ⟨rfl, hadds, rfl, rfl, ?_, .inr ⟨hph, hint⟩⟩
    show s.handed = first cfg (int32 (s.used + a.count))
    rw [hint, ← hp]
    exact (List.append_nil _).symm
  · cases hs

theorem endAdd_stage {a : Add} {s' : Fleet} (hu : 0 ≤ s.used) (h : Adding cfg s a)
    (hs : s.endAdd 0 a = some s') : Stage cfg s' := by
  obtain ⟨hm, ha, hb, -, hh, -⟩ := endAdd_cases hu h hs
  exact .idle (hm ▸ h.running) ha hb hh

theorem loading_step {r r' : Range} {roster : Roster} {e : RangeEvent} {ops : List Operation}
    (hm : s.main = .provisioning r) (hr : r.step cfg roster s.stop e = some (r', ops))
    (h : Stage cfg s) : Stage cfg { s with main := .provisioning r' } := by
  cases h with
  | empty h' => rcases h' with h' | h' <;> cases hm.symm.trans h'
  | starting todo h' => cases hm.symm.trans h'
  | idle h' => rcases h' with h' | h' <;> cases hm.symm.trans h'
  | adding a h' => rcases h'.running with h' | h' <;> cases hm.symm.trans h'
  | loading r₀ h' ha hb hu hg hinv hstart hcount hfits =>
    obtain rfl := MainPhase.provisioning.inj (h'.symm.trans hm)
    obtain ⟨hs', hc'⟩ := Range.step_fixed cfg roster hr
    exact .loading r' rfl ha hb hu hg (Range.step_inv cfg roster hinv hr) (hs'.trans hstart)
      (hc' ▸ hcount) hfits

theorem startGive_stage {todo : List ClientCredentials} (hm : s.main = .distributing todo)
    (h : Stage cfg s) :
    match todo with
    | [] => Stage cfg { s with main := .running }
    | c :: todo => Stage cfg ({ s with main := .distributing todo }.give cfg c) := by
  cases h with
  | empty h' => rcases h' with h' | h' <;> cases hm.symm.trans h'
  | loading r h' => cases hm.symm.trans h'
  | idle h' => rcases h' with h' | h' <;> cases hm.symm.trans h'
  | adding a h' => rcases h'.running with h' | h' <;> cases hm.symm.trans h'
  | starting todo' h' ha hb hh =>
    obtain rfl := MainPhase.distributing.inj (h'.symm.trans hm)
    cases todo' with
    | nil => exact .idle (.inl rfl) ha hb ((List.append_nil _).symm.trans hh)
    | cons c todo =>
      exact .starting todo rfl ha hb ((handed_give_cons { s with main := _ } c todo).trans hh)

theorem addStep_stage {count globalStart : Int} {r r' : Range} {roster : Roster} {e : RangeEvent}
    {ops : List Operation} (hr : r.step cfg roster s.stop e = some (r', ops))
    (h : Adding cfg s ⟨count, globalStart, .provisioning r⟩) :
    Stage cfg (s.setAdd 0 ⟨count, globalStart, .provisioning r'⟩) := by
  obtain ⟨hinv, hrs, hrc, hh⟩ := h.phase
  obtain ⟨hs', hc'⟩ := Range.step_fixed cfg roster hr
  exact .adding _ (h.setAdd rfl rfl
    ⟨Range.step_inv cfg roster hinv hr, hs'.trans hrs, hc' ▸ hrc, hh⟩)

theorem httpStop_stage (hm : s.main = .running) (h : Stage cfg s) :
    Stage cfg { s with main := .stopping } := by
  cases h with
  | empty h' => rcases h' with h' | h' <;> cases hm.symm.trans h'
  | loading r h' => cases hm.symm.trans h'
  | starting todo h' => cases hm.symm.trans h'
  | idle _ ha hb hh => exact .idle (.inr rfl) ha hb hh
  | adding a ha => exact .adding a { ha with running := .inr rfl, phase := ha.phase }

theorem Inv.of_stage {s' : Fleet} (h : Inv cfg s) (hu : s'.used = s.used) (hg : s'.given = s.given)
    (hst : Stage cfg s') : Inv cfg s' :=
  ⟨hu ▸ h.used, hg ▸ h.worker, hst⟩

section Run

variable [Ring K] [LinearOrder K] [FloorRing K] (parseIso8601Utc : String → Int)

/-- **One step** keeps the invariant when what it computes fits. -/
theorem step_inv (hcfg : cfg.Accepted) {s' : Fleet} {e : Event K} (h : Inv cfg s)
    (hc : CountFits s e) (hr : RangeFits cfg s e) (hs : s.step parseIso8601Utc cfg e = some s') :
    Inv cfg s' := by
  have hu := h.used.1
  cases step_cases parseIso8601Utc cfg hs with
  | @start file api hm =>
    have hst := start_stage parseIso8601Utc hcfg file api hm hr h.stage
    rcases start_cases parseIso8601Utc cfg s file api with
      ⟨thrown, -, hs⟩ | ⟨roster, main, ops, -, hs, -⟩
    all_goals
      rw [hs] at hst ⊢
      exact h.of_stage rfl rfl hst
  | startStep hm _ hr' => exact h.of_stage rfl rfl (loading_step hm hr' h.stage).log
  | startFailed hm hj hempty =>
    have hst := startJoin_stage hcfg hm hj h.stage
    rw [if_pos hempty] at hst
    exact h.of_stage rfl rfl hst
  | startJoined hm hj hne =>
    have hst := startJoin_stage hcfg hm hj h.stage
    rw [if_neg hne] at hst
    have hsizes := hcfg.sizes
    exact ⟨⟨Int.natCast_nonneg _, hst.1.trans_le hsizes.2.2.2.2⟩, h.worker, hst.2⟩
  | startDone hm => exact h.of_stage rfl rfl (startGive_stage hm h.stage)
  | startGive hm => exact ⟨h.used, give_worker h.worker, startGive_stage hm h.stage⟩
  | addRefused => exact h
  | addAccepted hm _ he =>
    exact h.of_stage rfl rfl (acceptAdd_stage hcfg hu _ hm he hc (hr he) h.stage)
  | addStep hk _ hr' =>
    obtain ⟨hadd, rfl⟩ := h.stage.add_at hk
    exact h.of_stage rfl rfl (addStep_stage hr' hadd).log
  | addJoin hk hj =>
    obtain ⟨hadd, rfl⟩ := h.stage.add_at hk
    exact h.of_stage rfl rfl (addJoin_stage hcfg hu hj hadd)
  | addGive hk =>
    obtain ⟨hadd, rfl⟩ := h.stage.add_at hk
    exact ⟨h.used, give_worker h.worker, addGive_stage hadd⟩
  | addEnd hk hend =>
    obtain ⟨hadd, rfl⟩ := h.stage.add_at hk
    obtain ⟨-, -, -, hg, -, hused⟩ := endAdd_cases hu hadd hend
    have hcount := hadd.count
    have hlimit := hadd.limit
    refine ⟨?_, hg ▸ h.worker, endAdd_stage hu hadd hend⟩
    rcases hused with ⟨-, hused⟩ | ⟨-, hused⟩
    · exact hused ▸ h.used
    · omega
  | control => exact h.of_stage rfl rfl h.stage.log
  | signal =>
    exact h.of_stage rfl rfl (Stage.congr (s := s) rfl rfl rfl rfl rfl (fun _ => rfl) h.stage)
  | endSeen => exact h
  | observeEnd =>
    exact h.of_stage rfl rfl (Stage.congr (s := s) rfl rfl rfl rfl rfl id h.stage)
  | httpStop hm => exact h.of_stage rfl rfl (httpStop_stage hm h.stage)

end Run

end Fleet

end Harness

end CksLoadtest
