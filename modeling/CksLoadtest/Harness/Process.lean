import CksLoadtest.Harness.Keyed
import CksLoadtest.Protocol.Keyed

/-!
# The whole process

The harness and the threads it feeds: a client that `distribute` hands out is added to its
worker, which is all the two have to do with each other. Their runs are those of the two
parts, and what the parts keep holds of the credentials on every way to a worker.
-/
namespace CksLoadtest.Harness

open Lib Lib.Transition
open Protocol (Sys)

/-- The provisioning side, and the workers with the control thread. -/
structure Process (K : Type*) (n : Nat) where
  fleet : Fleet := {}
  sys : Sys K n := {}

inductive Process.Event (K : Type*) (n : Nat)
  /-- A section of the harness; the clients it hands out are due at `activateAt`. -/
  | harness (e : Harness.Event K) (activateAt : Int)
  | thread (e : Protocol.Event K n)

namespace Process

variable {K : Type*} [Field K] [LinearOrder K] [FloorRing K] {n : Nat} (P : Platform K)
  (parseIso8601Utc : String → Int) (cfg : Config K)

/-- `workers_[w]->addClient(c, activateAt)`. -/
def addClient (activateAt : Int) (s : Sys K n) (g : Int × ClientCredentials) : Sys K n :=
  if h : g.1.toNat < n then
    (s.step P cfg (.addClient ⟨g.1.toNat, h⟩ g.2 activateAt)).getD s
  else s

def step (p : Process K n) : Event K n → Option (Process K n)
  | .harness e activateAt =>
    (p.fleet.step parseIso8601Utc cfg e).map fun fleet =>
      { fleet := fleet
        sys := (fleet.given.drop p.fleet.given.length).foldl (addClient P cfg activateAt) p.sys }
  | .thread (.addClient ..) => none
  | .thread e => (p.sys.step P cfg e).map fun sys => { p with sys := sys }

end Process

/-- The process with as many workers as the configuration has threads. -/
def process {K : Type*} [Field K] [LinearOrder K] [FloorRing K] (P : Platform K)
    (parseIso8601Utc : String → Int) (cfg : Config K) :
    System (Process K cfg.threads.toNat) (Process.Event K cfg.threads.toNat) :=
  .ofPartial (fun p => p = {}) (Process.step P parseIso8601Utc cfg)

namespace Process

variable {K : Type*} [Field K] [LinearOrder K] [FloorRing K] {P : Platform K}
  {parseIso8601Utc : String → Int} {cfg : Config K}

section Steps

variable {n : Nat} {p p' : Process K n} {e : Event K n}

/-- **One step** is one of the harness, with the clients it hands out, or one of a thread. -/
theorem step_cases (h : p.step P parseIso8601Utc cfg e = some p') :
    (∃ e' activateAt, e = .harness e' activateAt ∧
        p.fleet.step parseIso8601Utc cfg e' = some p'.fleet ∧
        p'.sys = (p'.fleet.given.drop p.fleet.given.length).foldl
          (addClient P cfg activateAt) p.sys) ∨
      ∃ e', e = .thread e' ∧ (∀ w creds activateAt, e' ≠ .addClient w creds activateAt) ∧
        p.sys.step P cfg e' = some p'.sys ∧ p'.fleet = p.fleet := by
  cases e with
  | harness e' activateAt =>
    obtain ⟨fleet, hf, rfl⟩ := Option.map_eq_some_iff.mp h
    exact .inl ⟨e', activateAt, rfl, hf, rfl⟩
  | thread e' =>
    right
    refine ⟨e', rfl, ?_⟩
    cases e' with
    | addClient => cases h
    | _ =>
      obtain ⟨sys, hs, rfl⟩ := Option.map_eq_some_iff.mp h
      exact ⟨nofun, hs, rfl⟩

end Steps

variable {p : Process K cfg.threads.toNat}
  {G : Process K cfg.threads.toNat → Event K cfg.threads.toNat → Prop}

/-- The harness of a run of the process is in a run of its own. -/
theorem fleet_reach (h : (process P parseIso8601Utc cfg).GReach G p) :
    (system parseIso8601Utc cfg).Reach p.fleet := by
  induction h with
  | init hi =>
    obtain rfl := hi
    exact .init rfl
  | step _ _ hs ih =>
    rcases step_cases hs with ⟨e', activateAt, -, hf, -⟩ | ⟨e', -, -, -, hf⟩
    · exact ih.step hf
    · exact hf ▸ ih

theorem addClients_path {H : Sys K cfg.threads.toNat → Protocol.Event K cfg.threads.toNat → Prop}
    (activateAt : Int) {gs : List (Int × ClientCredentials)}
    (hadd : ∀ g ∈ gs, ∀ s w, H s (.addClient w g.2 activateAt)) (s : Sys K cfg.threads.toNat) :
    (Protocol.system P cfg cfg.threads.toNat).GPath H s
      (gs.foldl (addClient P cfg activateAt) s) := by
  induction gs generalizing s with
  | nil => exact .refl s
  | cons g gs ih =>
    rw [List.forall_mem_cons] at hadd
    refine .trans ?_ (ih hadd.2 _)
    unfold addClient
    split
    · exact .single (hadd.1 s _) rfl
    · exact .refl s

/-- And so are its threads, with what they are promised of the clients they are given. -/
theorem sys_reach {H : Sys K cfg.threads.toNat → Protocol.Event K cfg.threads.toNat → Prop}
    (hG : ∀ p e, (∀ w creds activateAt, e ≠ .addClient w creds activateAt) →
      G p (.thread e) → H p.sys e)
    (hadd : ∀ p, (process P parseIso8601Utc cfg).GReach G p →
      ∀ g ∈ p.fleet.given, ∀ s w activateAt, H s (.addClient w g.2 activateAt))
    (h : (process P parseIso8601Utc cfg).GReach G p) :
    (Protocol.system P cfg cfg.threads.toNat).GReach H p.sys := by
  induction h with
  | init hi =>
    obtain rfl := hi
    exact .init rfl
  | @step q q' e hr hg hs ih =>
    rcases step_cases hs with ⟨e', activateAt, -, -, hsys⟩ | ⟨e', rfl, hne, hsys, -⟩
    · rw [hsys]
      refine ih.path (addClients_path activateAt (fun g hgiven s w => ?_) _)
      exact hadd q' (.step hr hg hs) g (List.mem_of_mem_drop hgiven) s w activateAt
    · exact .step ih (hG q e' hne hg) hsys

/-! ### Nothing is lost between the two -/

omit [Field K] [LinearOrder K] [FloorRing K] in
/-- `distribute` picks a worker there is. -/
theorem workerOf_lt (hcfg : cfg.Accepted) (c : ClientCredentials) :
    0 ≤ Fleet.workerOf cfg c ∧ Fleet.workerOf cfg c < cfg.threads := by
  have hthreads := hcfg.sizes.2.1
  have hlt := Int.tmod_lt_of_pos c.index (show 0 < cfg.threads by omega)
  unfold Fleet.workerOf
  dsimp only
  split <;> omega

theorem added_addClients {n : Nat} (activateAt : Int) (gs : List (Int × ClientCredentials))
    (s : Sys K n) (w : Fin n) :
    (gs.foldl (addClient P cfg activateAt) s).hist.added w =
      s.hist.added w ++ (gs.filter fun g => g.1.toNat = (w : Nat)).map Prod.snd := by
  induction gs generalizing s with
  | nil => simp
  | cons g gs ih =>
    rw [List.foldl_cons, ih]
    unfold addClient
    by_cases hg : g.1.toNat < n
    · rw [dif_pos hg]
      show Function.update s.hist.added ⟨g.1.toNat, hg⟩ _ w ++ _ = _
      by_cases hw : w = ⟨g.1.toNat, hg⟩
      · subst hw
        rw [Function.update_self, List.filter_cons_of_pos (by simp), List.append_assoc]
        rfl
      · have hne : ¬ g.1.toNat = (w : Nat) := fun h => hw (Fin.ext h.symm)
        rw [Function.update_of_ne hw, List.filter_cons_of_neg (by simpa using hne)]
    · have hne : ¬ g.1.toNat = (w : Nat) := fun h => hg (h ▸ w.2)
      rw [dif_neg hg, List.filter_cons_of_neg (by simpa using hne)]

/-- What was handed out stays so. -/
theorem given_step {s s' : Fleet} {e : Harness.Event K}
    (h : s.step parseIso8601Utc cfg e = some s') : s.given <+: s'.given := by
  have keep : s.given <+: s.given := List.prefix_refl _
  cases Fleet.step_cases parseIso8601Utc cfg h with
  | @start file api =>
    rcases Fleet.start_cases parseIso8601Utc cfg s file api with
      ⟨-, -, hs⟩ | ⟨_, _, _, -, hs, -⟩
    · rw [hs]
    · rw [hs]
      exact keep
  | startGive | addGive => exact List.prefix_append _ _
  | addEnd _ hend => rw [(Fleet.endAdd_erases hend).2.2.2.2.1]
  | _ => exact keep

/-- No other event of the threads adds a client. -/
theorem added_step {n : Nat} {s s' : Sys K n} {e : Protocol.Event K n}
    (hne : ∀ w creds activateAt, e ≠ .addClient w creds activateAt)
    (h : s.step P cfg e = some s') : s'.hist.added = s.hist.added := by
  have hx := Sys.step_exchange P cfg h
  have hkeep : ∀ {x x' : Protocol.Exchange n} {l : Protocol.Label n},
      Protocol.Exchange.Step x l x' → (∀ w creds, l ≠ .add w creds) → x'.added = x.added := by
    intro x x' l hstep hl
    cases hstep with
    | add => exact absurd rfl (hl _ _)
    | _ => rfl
  refine hkeep hx ?_
  cases e with
  | addClient => exact absurd rfl (hne _ _ _)
  | _ =>
    intro w creds hl
    simp only [Sys.label] at hl
    repeat' split at hl
    all_goals cases hl

/-- **Handed over.** The clients a worker was given are those the harness handed out for it. -/
theorem handed_over (h : (process P parseIso8601Utc cfg).GReach G p) (w : Fin cfg.threads.toNat) :
    p.sys.hist.added w = (p.fleet.given.filter fun g => g.1.toNat = (w : Nat)).map Prod.snd := by
  induction h with
  | init hi =>
    obtain rfl := hi
    rfl
  | @step q q' e _ _ hs ih =>
    rcases step_cases hs with ⟨e', activateAt, -, hf, hsys⟩ | ⟨e', rfl, hne, hsys, hf⟩
    · obtain ⟨new, hnew⟩ := given_step hf
      rw [hsys, added_addClients, ih, ← hnew, List.drop_left, List.filter_append, List.map_append]
    · rw [added_step hne hsys, ih, hf]

/-! ### Tokens -/

/-- What `refreshToken` is given has a token of the length `spatialSign` reads. -/
def KeyedReplies {n : Nat} (p : Process K n) : Event K n → Prop
  | .thread (.refresh api) =>
    ∀ j ∈ p.sys.job, Provisioner.KeyedReply p.sys.legacyRefresh api j.creds
  | _ => True

/-- **Tokens that reach a worker.** In every run whose refreshes answer with tokens of 64
octets, all credentials that are added to a worker or come with a successful update have
such a token, and so has every client. -/
theorem credentials_keyed (hcfg : cfg.Accepted)
    (h : (process P parseIso8601Utc cfg).GReach KeyedReplies p) :
    (∀ g ∈ p.fleet.given, g.2.Keyed) ∧ (∀ w, ∀ c ∈ p.sys.hist.added w, c.Keyed) ∧
      (∀ u ∈ p.sys.hist.posted, u.failed = false → u.creds.Keyed) ∧
      ∀ w i c, p.sys.client? w i = some c → c.creds.Keyed := by
  have hgiven : ∀ q, (process P parseIso8601Utc cfg).GReach KeyedReplies q →
      ∀ g ∈ q.fleet.given, g.2.Keyed := fun q hq =>
    (Fleet.keyed_of_reach parseIso8601Utc hcfg (fleet_reach hq)).given
  have hsys : (Protocol.system P cfg cfg.threads.toNat).GReach Sys.KeyedInputs p.sys := by
    refine sys_reach (fun q e hne hq => ?_) (fun q hq g hg s w activateAt => hgiven q hq g hg) h
    cases e with
    | addClient w creds activateAt => exact absurd rfl (hne w creds activateAt)
    | refresh api => exact hq
    | _ => trivial
  exact ⟨hgiven p h, Sys.keyed_of_inputs hsys⟩

instance {n : Nat} (p : Process K n) (e : Event K n) : Decidable (p.KeyedReplies e) := by
  unfold KeyedReplies
  split <;> infer_instance

end Process

/-! A client is loaded, meets a token error and gets its token refreshed. -/
namespace Sample

/-- The threads, from the start of the worker to the answer of the control thread. -/
def refreshes (token : Lib.Buffer.Bytes) : List (Protocol.Event ℚ 1) :=
  [.startWorker 0, .applyPendingClients 0, .tick 0 2000000000 2000000000,
    .activate 0 0 Protocol.Sample.draws ⟨true, true, true, true⟩,
    .rxBegin 0 0 2000000001 0 Protocol.Sample.tokenError, .rxMember 0 ⟨3, 3⟩, .rxEnd 0, .pop,
    Protocol.Sample.refresh { Protocol.Sample.fresh with
      token := some token, authorizedServer := some Protocol.Sample.server },
    .post]

def run (token : Lib.Buffer.Bytes) : List (Process.Event ℚ 1) :=
  (loads .missing 1).map (.harness · 0) ++ (refreshes token).map .thread

end Sample

theorem refreshed_keyed : ∃ p : Process ℚ 1, (∃ u ∈ p.sys.hist.posted, u.failed = false) ∧
    ∀ u ∈ p.sys.hist.posted, u.failed = false → u.creds.Keyed := by
  have hrun : ((System.exec (System.checked (fun p e => decide (p.KeyedReplies e))
      (Process.step Protocol.Sample.platform (fun _ => 0) Sample.config)) {}
      (Sample.run (Protocol.Sample.token 98))).map fun p : Process ℚ 1 =>
        p.sys.hist.posted.any fun u => u.failed = false) = some true := by decide +kernel
  obtain ⟨p, hp, hm⟩ := Option.map_eq_some_iff.mp hrun
  have hr : (process Protocol.Sample.platform (fun _ => 0) Sample.config).GReach
      Process.KeyedReplies p :=
    System.GReach.exec (fun _ _ => of_decide_eq_true) (.init rfl) hp
  have hcfg : Sample.config.Accepted := by
    show Config.validate _ = _
    decide +kernel
  exact ⟨p, by simpa using hm, (Process.credentials_keyed hcfg hr).2.2.1⟩

/-- `refreshToken` takes a token of 63 octets as it is, and the worker gets it. -/
theorem short_token_posted : Sample.config.Accepted ∧ ∃ p : Process ℚ 1,
    (process Protocol.Sample.platform (fun _ => 0) Sample.config).Reach p ∧
      ∃ u ∈ p.sys.hist.posted, u.failed = false ∧ u.creds.appToken.length = 63 := by
  have hrun : ((System.exec (Process.step Protocol.Sample.platform (fun _ => 0) Sample.config) {}
      (Sample.run (List.replicate 63 98))).map fun p : Process ℚ 1 =>
        p.sys.hist.posted.any fun u => u.failed = false ∧ u.creds.appToken.length = 63) =
      some true := by decide +kernel
  obtain ⟨p, hp, hm⟩ := Option.map_eq_some_iff.mp hrun
  refine ⟨show Config.validate _ = _ by decide +kernel, p, System.Reach.exec (.init rfl) hp, ?_⟩
  simpa using hm

end CksLoadtest.Harness
