import Mathlib.Data.Int.ConditionallyCompleteOrder
import Mathlib.Order.CompletePartialOrder
import CksLoadtest.Harness.Stages

/-!
# Global indices

What the stages say of the indices handed out over a whole run: each once, exactly the
used ones when no range is under way, and shared evenly among the workers.
-/
namespace CksLoadtest.Harness

open Lib Lib.Transition

namespace Fleet

variable {K : Type*} {cfg : Config K} {s : Fleet}

/-- The clients of one worker. -/
def share (s : Fleet) (w : Int) : Nat := s.given.countP fun p => p.1 = w

/-- No range is being handed out: `start` is through, and no add runs. -/
def Settled (s : Fleet) : Prop := s.adds = [] ∧ ∀ todo, s.main ≠ .distributing todo

variable (cfg) in
/-- The indices a run has handed out. -/
structure Indices (s : Fleet) : Prop where
  one_add : s.adds.length ≤ 1
  used_le : s.used ≤ cfg.indexLimit
  distinct : s.handed.Nodup
  within : ∀ i ∈ s.handed, cfg.indexBase ≤ i ∧ i < cfg.indexBase + cfg.indexLimit
  settled : s.Settled → s.handed = first cfg s.used
  /-- Until a range is provisioned nothing of it is out, and it stays the next one. -/
  pending : ∀ a ∈ s.adds, (∀ todo, a.phase ≠ .distributing todo) →
    a.globalStart = cfg.indexBase + s.used ∧ s.handed = first cfg s.used
  shares : s.Settled → ∀ w w', 0 ≤ w ∧ w < cfg.threads → 0 ≤ w' ∧ w' < cfg.threads →
    s.share w ≤ s.share w' + 1

/-- What is out is the start of the configuration's indices. -/
theorem Inv.handed_prefix (hcfg : cfg.Accepted) (h : Inv cfg s) :
    ∃ n, 0 ≤ n ∧ n ≤ cfg.indexLimit ∧ s.handed <+: first cfg n := by
  have hsizes := hcfg.sizes
  have hnone : s.given = [] → s.handed <+: first cfg 0 := by
    intro hg
    unfold handed
    rw [hg]
    exact List.nil_prefix
  cases h.stage with
  | empty _ _ _ _ hg => exact ⟨0, le_refl _, by omega, hnone hg⟩
  | loading _ _ _ _ _ hg => exact ⟨0, le_refl _, by omega, hnone hg⟩
  | starting todo _ _ _ hh => exact ⟨s.used, h.used.1, h.used.2, ⟨_, hh⟩⟩
  | idle _ _ _ hh => exact ⟨s.used, h.used.1, h.used.2, hh ▸ List.prefix_refl _⟩
  | adding a ha =>
    have hused := h.used
    have hcount := ha.count
    have hp := ha.phase
    split at hp
    · exact ⟨s.used, hused.1, hused.2, hp.2.2.2 ▸ List.prefix_refl _⟩
    · exact ⟨s.used, hused.1, hused.2, hp ▸ List.prefix_refl _⟩
    · exact ⟨s.used + a.count, by omega, ha.limit, ⟨_, hp⟩⟩

theorem Inv.settled (h : Inv cfg s) (hs : s.Settled) : s.handed = first cfg s.used := by
  have hnone : s.given = [] → s.used = 0 → s.handed = first cfg s.used := by
    intro hg hu
    unfold handed
    rw [hg, hu]
    rfl
  cases h.stage with
  | empty _ _ _ hu hg => exact hnone hg hu
  | loading _ _ _ _ hu hg => exact hnone hg hu
  | starting todo hm => exact absurd hm (hs.2 todo)
  | idle _ _ _ hh => exact hh
  | adding a ha =>
    have hnil := hs.1
    rw [ha.only] at hnil
    cases hnil

/-- On the indices a run hands out, `distribute` is a round robin. -/
theorem share_eq (hcfg : cfg.Accepted) (h : Inv cfg s) {w : Int} (hw : 0 ≤ w ∧ w < cfg.threads) :
    s.share w = s.handed.countP fun i => i % cfg.threads = w := by
  obtain ⟨n, -, -, hp⟩ := h.handed_prefix hcfg
  unfold share handed
  rw [List.countP_map]
  refine List.countP_congr fun p hmem => ?_
  have hi : cfg.indexBase ≤ p.2.index :=
    (mem_consecutive.mp (hp.subset (List.mem_map_of_mem hmem))).1
  have hbase := hcfg.sizes.2.2.2.1
  have hworker : workerOf cfg p.2 = p.2.index % cfg.threads := by
    have hmod := Int.emod_nonneg p.2.index (show cfg.threads ≠ 0 by omega)
    unfold workerOf
    rw [Int.tmod_eq_emod_of_nonneg (by omega)]
    exact if_neg (not_lt.mpr hmod)
  rw [h.worker p hmem, hworker]
  rfl

theorem Inv.shares (hcfg : cfg.Accepted) (h : Inv cfg s) (hs : s.Settled) {w w' : Int}
    (hw : 0 ≤ w ∧ w < cfg.threads) (hw' : 0 ≤ w' ∧ w' < cfg.threads) :
    s.share w ≤ s.share w' + 1 := by
  rw [share_eq hcfg h hw, share_eq hcfg h hw', h.settled hs]
  obtain ⟨d, hd, hc⟩ := countP_residue cfg.indexBase s.used.toNat (by omega) hw
  obtain ⟨d', -, hc'⟩ := countP_residue cfg.indexBase s.used.toNat (by omega) hw'
  rw [first, hc, hc']
  omega

theorem Inv.indices (hcfg : cfg.Accepted) (h : Inv cfg s) : Indices cfg s := by
  obtain ⟨n, hn, hlimit, hp⟩ := h.handed_prefix hcfg
  refine ⟨?_, h.used.2, ?_, ?_, h.settled, ?_, fun hs _ _ => h.shares hcfg hs⟩
  · cases h.stage with
    | empty _ ha => simp [ha]
    | loading _ _ ha => simp [ha]
    | starting _ _ ha => simp [ha]
    | idle _ ha => simp [ha]
    | adding a ha => simp [ha.only]
  · exact (nodup_consecutive _ _).sublist hp.sublist
  · intro i hi
    have hmem := mem_consecutive.mp (hp.subset hi)
    omega
  · intro a ha hph
    obtain ⟨k, hk⟩ := List.mem_iff_getElem?.mp ha
    have hadd := (h.stage.add_at hk).1
    have hphase := hadd.phase
    refine ⟨hadd.start, ?_⟩
    split at hphase
    · exact hphase.2.2.2
    · exact hphase
    · exact absurd ‹_› (hph _)

theorem acceptAdd_globalStart (roster : Roster) (count : Int) :
    (s.acceptAdd cfg roster count).adds.map (·.globalStart) =
      s.adds.map (·.globalStart) ++ [int32 (cfg.indexBase + s.used)] := by
  unfold acceptAdd
  rw [List.map_append]
  rfl

variable [Ring K] [LinearOrder K] [FloorRing K] (parseIso8601Utc : String → Int)

theorem inv_of_reach (hcfg : cfg.Accepted)
    (h : (system parseIso8601Utc cfg).GReach (fun s e => CountFits s e ∧ RangeFits cfg s e) s) :
    Inv cfg s := by
  refine System.GReach.inv (I := Inv cfg) ?_ ?_ h
  · rintro s rfl
    have hlimit : 0 ≤ cfg.indexLimit := hcfg.sizes.1.trans hcfg.sizes.2.2.2.2
    exact ⟨⟨le_refl _, hlimit⟩, nofun, .empty (.inl rfl) rfl rfl rfl rfl⟩
  · intro s e s' _ hi hg hs
    exact step_inv parseIso8601Utc hcfg hi hg.1 hg.2 hs

/-- The end of an add that failed. -/
structure Reused (cfg : Config K) (s s' : Fleet) (a : Add) : Prop where
  given : s'.given = s.given
  used : s'.used = s.used
  idle : s'.adds = [] ∧ s'.busy = false
  next : ∀ roster count, (s'.acceptAdd cfg roster count).adds.map (·.globalStart) = [a.globalStart]

theorem failed_reused (hcfg : cfg.Accepted) (h : Inv cfg s) {k : Nat} {a : Add} {s' : Fleet}
    (hk : s.adds[k]? = some a) (hph : a.phase = .failed)
    (hs : s.step parseIso8601Utc cfg (.addEnd k) = some s') : Reused cfg s s' a := by
  obtain ⟨hadd, rfl⟩ := h.stage.add_at hk
  simp only [step, hk] at hs
  obtain ⟨-, ha, hb, hg, -, hused⟩ := endAdd_cases h.used.1 hadd hs
  have hu : s'.used = s.used := by
    rcases hused with ⟨-, hu⟩ | ⟨hd, -⟩
    · exact hu
    · cases hph.symm.trans hd
  have hint : int32 (cfg.indexBase + s.used) = cfg.indexBase + s.used := by
    have hused := h.used.1
    have hbase := hcfg.sizes.2.2.2.1
    have hcount := hadd.count
    have hfits := hadd.rangeFits
    exact int32_of_fits (by omega) (by omega)
  refine ⟨hg, hu, ⟨ha, hb⟩, fun roster count => ?_⟩
  rw [acceptAdd_globalStart, ha, hu, hint, hadd.start]
  rfl

/-- **Global indices.** In every run whose ranges fit an `int`, no index is handed out
twice, a failed range is reused, and no other generator with a range of its own hands out
the same index. -/
theorem indices_handed_once (hcfg : cfg.Accepted)
    (h : (system parseIso8601Utc cfg).GReach (fun s e => CountFits s e ∧ RangeFits cfg s e) s) :
    Indices cfg s ∧
    (∀ k a s', s.adds[k]? = some a → a.phase = .failed →
      s.step parseIso8601Utc cfg (.addEnd k) = some s' → Reused cfg s s' a) ∧
    ∀ (cfg' : Config K) (s' : Fleet), cfg'.Accepted →
      (system parseIso8601Utc cfg').GReach (fun s e => CountFits s e ∧ RangeFits cfg' s e) s' →
      Disjoint (Set.Ico cfg.indexBase (cfg.indexBase + cfg.indexLimit))
        (Set.Ico cfg'.indexBase (cfg'.indexBase + cfg'.indexLimit)) →
      ∀ i ∈ s.handed, i ∉ s'.handed := by
  have hinv := inv_of_reach parseIso8601Utc hcfg h
  have hindices := hinv.indices hcfg
  refine ⟨hindices, fun k a s' hk => failed_reused parseIso8601Utc hcfg hinv hk, ?_⟩
  intro cfg' s' hcfg' h' hdisj i hi hi'
  have hindices' := (inv_of_reach parseIso8601Utc hcfg' h').indices hcfg'
  exact Set.disjoint_left.mp hdisj (hindices.within i hi) (hindices'.within i hi')

end Fleet

/-- An add that fails, and one that takes the same index. -/
theorem indices_after_failed_add : ∃ s : Fleet, s.handed = [0, 1] ∧
    Fleet.Indices Sample.config s := by
  let fails : List RangeEvent :=
    [.claim 0, .check 0, .provision 0 { Sample.client with bootstrap := fun _ => .error {} }]
  have hrun : ((System.exec (System.checked
      (fun s e => decide (Fleet.CountFits s e ∧ Fleet.RangeFits Sample.config s e))
      (Fleet.step (fun _ => 0) Sample.config)) {}
      (Sample.loads .missing 1 ++ .requestAdd 1 :: fails.map (.addStep 0) ++
        [.addJoin 0, .addEnd 0, .requestAdd 1] ++
        (Sample.provisions Sample.client 1).map (.addStep 0) ++
        [.addJoin 0, .addGive 0, .addEnd 0])).map Fleet.handed) = some [0, 1] := by
    decide +kernel
  obtain ⟨s, hs, hh⟩ := Option.map_eq_some_iff.mp hrun
  have hcfg : Sample.config.Accepted := by
    show Config.validate _ = _
    decide +kernel
  refine ⟨s, hh, (Fleet.indices_handed_once (fun _ => 0) hcfg ?_).1⟩
  exact System.GReach.exec (fun _ _ => of_decide_eq_true) (.init rfl) hs

/-- The second index of a load that starts at the largest `int` is negative. -/
theorem wrapped_index_handed_out : ∃ (cfg : Config ℚ) (s : Fleet), cfg.Accepted ∧
    (system (fun _ => 0) cfg).GReach Fleet.CountFits s ∧ s.Settled ∧ s.used = 2 ∧
    s.handed = [2147483647, -2147483648] ∧ ¬ Fleet.Indices cfg s := by
  let cfg : Config ℚ := { Sample.config with indexBase := 2147483647, clients := 2 }
  have hrun : ((System.exec (System.checked (fun s e => decide (Fleet.CountFits s e))
      (Fleet.step (fun _ => 0) cfg)) {} (Sample.loads .missing 2)).map fun s =>
        (s.handed, s.used, s.adds.length, decide (s.main = .running))) =
      some ([2147483647, -2147483648], 2, 0, true) := by decide +kernel
  obtain ⟨s, hs, hm⟩ := Option.map_eq_some_iff.mp hrun
  simp only [Prod.mk.injEq] at hm
  obtain ⟨hh, hu, ha, hmain⟩ := hm
  have hsettled : s.Settled := by
    refine ⟨List.eq_nil_of_length_eq_zero ha, fun todo ht => ?_⟩
    cases ht.symm.trans (of_decide_eq_true hmain)
  refine ⟨cfg, s, by show Config.validate _ = _; decide +kernel, ?_, hsettled, hu, hh, ?_⟩
  · exact System.GReach.exec (fun _ _ => of_decide_eq_true) (.init rfl) hs
  · intro h
    have hw := h.within (-2147483648) (by rw [hh]; decide)
    exact absurd hw.1 (by decide)

end CksLoadtest.Harness
