import CksLoadtest.Provision.Coverage
import CksLoadtest.Harness.Fleet

/-!
# When a password is sent

With a required roster no client is ever signed in. The password still leaves the process:
`start` and the end of the run read the app's replay logging back, and sign in as the base
account for it.
-/
namespace CksLoadtest.Harness

open Lib Lib.Transition

namespace Fleet

/-- A `provisionRange` call is under way. -/
def Runs (s : Fleet) (r : Range) : Prop :=
  s.main = .provisioning r ∨ ∃ a ∈ s.adds, a.phase = .provisioning r

/-- Every range under way is covered, and only the replay logging has used a password. -/
structure Waived (s : Fleet) : Prop where
  fresh : s.main = .notStarted → s.adds = []
  usable : ∀ roster, s.provisioner = some roster → roster.Usable
  covers : ∀ roster r, s.provisioner = some roster → s.Runs r → r.Covers roster
  sent : ∀ x ∈ s.sent, x.1 ≠ .replayLogging → x.2.usesPassword = false

variable {s s' : Fleet}

/-- A step that starts no range: what it logs is all there is to show. -/
theorem Waived.kept (h : Waived s) (hf : s'.main = .notStarted → s'.adds = [])
    (hp : s'.provisioner = s.provisioner) (hr : ∀ r, s'.Runs r → s.Runs r)
    (hs : s'.sent = s.sent) : Waived s' where
  fresh := hf
  usable roster hroster := h.usable roster (hp ▸ hroster)
  covers roster r hroster hruns := h.covers roster r (hp ▸ hroster) (hr r hruns)
  sent := hs ▸ h.sent

theorem Waived.log (h : Waived s) {o : Origin} {ops : List Operation}
    (hops : o ≠ .replayLogging → NoPassword ops) : Waived (s.log o ops) where
  fresh := h.fresh
  usable := h.usable
  covers := h.covers
  sent x hx ho := by
    rcases List.mem_append.mp hx with hx | hx
    · exact h.sent x hx ho
    · obtain ⟨op, hop, rfl⟩ := List.mem_map.mp hx
      exact hops ho op hop

theorem runs_main {r : Range} (h : s.Runs r) (ha : s.adds = []) : s.main = .provisioning r := by
  refine h.resolve_right ?_
  rw [ha]
  rintro ⟨a, ha, -⟩
  cases ha

theorem runs_setAdd {k : Nat} {a : Add} {r : Range} (h : (s.setAdd k a).Runs r) :
    s.Runs r ∨ a.phase = .provisioning r := by
  rcases h with h | ⟨b, hb, hph⟩
  · exact .inl (.inl h)
  · rcases List.mem_or_eq_of_mem_set hb with hb | rfl
    · exact .inl (.inr ⟨b, hb, hph⟩)
    · exact .inr hph

/-- An add thread that goes on without provisioning. -/
theorem Waived.setAdd (h : Waived s) {k : Nat} {a b : Add} (hk : s.adds[k]? = some b)
    (ha : ∀ r, a.phase ≠ .provisioning r) : Waived (s.setAdd k a) := by
  refine h.kept (fun hm => ?_) rfl (fun r hr => (runs_setAdd hr).resolve_right (ha r)) rfl
  rw [h.fresh hm] at hk
  cases hk

variable {K : Type*} {cfg : Config K}

theorem acceptAdd_waived (hfile : cfg.rosterFile ≠ "") (hreq : cfg.rosterRequired = true)
    {roster : Roster} {count : Int} (hm : s.main = .running) (hr : s.provisioner = some roster)
    (h : Waived s) : Waived (s.acceptAdd cfg roster count) := by
  refine ⟨fun hm' => ?_, h.usable, fun roster' r hr' hruns => ?_, h.sent⟩
  · cases hm.symm.trans hm'
  · obtain rfl := Option.some.inj (hr.symm.trans hr')
    rcases hruns with hruns | ⟨a, ha, hph⟩
    · exact h.covers roster r hr (.inl hruns)
    · rcases List.mem_append.mp ha with ha | ha
      · exact h.covers roster r hr (.inr ⟨a, ha, hph⟩)
      · rw [List.mem_singleton.mp ha] at hph
        dsimp only at hph
        split at hph
        · rename_i r' hstart
          obtain rfl := AddPhase.provisioning.inj hph
          exact Range.start_covers hfile hreq hstart
        · cases hph

variable [Ring K] [LinearOrder K] [FloorRing K] (parseIso8601Utc : String → Int)

theorem start_waived (hfile : cfg.rosterFile ≠ "") (hreq : cfg.rosterRequired = true)
    (hm : s.main = .notStarted) (h : Waived s) (file : RosterFile K) (api : ReplayApi) :
    Waived (s.start parseIso8601Utc cfg file api) := by
  have hadds := h.fresh hm
  rcases start_cases parseIso8601Utc cfg s file api with
    ⟨thrown, -, hs⟩ | ⟨roster, main, ops, hload, hs, -, hmain⟩
  · rw [hs]
    exact h.kept (fun _ => hadds) rfl (fun r hr => nomatch runs_main hr hadds) rfl
  · rw [hs]
    refine Waived.log ?_ fun hne => absurd rfl hne
    refine ⟨fun _ => hadds, fun r hr => ?_, fun roster' r hroster' hruns => ?_, h.sent⟩
    · obtain rfl := Option.some.inj hr
      exact Roster.load_usable parseIso8601Utc hload
    · obtain rfl := Option.some.inj hroster'
      have hrun : main = .provisioning r := runs_main hruns hadds
      rcases hmain with rfl | rfl | ⟨r', rfl, hr⟩
      · cases hrun
      · cases hrun
      · obtain rfl := MainPhase.provisioning.inj hrun
        exact Range.start_covers hfile hreq hr

/-- **One step** uses no password outside the replay logging. -/
theorem step_waived (hfile : cfg.rosterFile ≠ "") (hreq : cfg.rosterRequired = true)
    {e : Event K} (h : Waived s) (hs : s.step parseIso8601Utc cfg e = some s') : Waived s' := by
  cases step_cases parseIso8601Utc cfg hs with
  | @start file api hm => exact start_waived parseIso8601Utc hfile hreq hm h file api
  | @startStep e r r' roster ops hm hroster hr =>
    have hcov := h.covers roster r hroster (.inl hm)
    refine Waived.log (s := { s with main := .provisioning r' }) ?_ fun _ =>
      Range.step_noPassword (h.usable roster hroster) hcov hr
    refine ⟨nofun, h.usable, fun roster' r'' hroster' hruns => ?_, h.sent⟩
    obtain rfl := Option.some.inj (hroster.symm.trans hroster')
    rcases hruns with hruns | hruns
    · obtain rfl := MainPhase.provisioning.inj hruns
      exact Range.step_covers hcov hr
    · exact h.covers roster r'' hroster (.inr hruns)
  | startFailed | startJoined | startDone | startGive | httpStop =>
    exact h.kept nofun rfl (fun r hr => .inr (hr.resolve_left nofun)) rfl
  | addRefused | endSeen => exact h
  | addAccepted hm hroster => exact acceptAdd_waived hfile hreq hm hroster h
  | @addStep k e count globalStart r r' roster ops hk hroster hr =>
    have hcov := h.covers roster r hroster (.inr ⟨_, List.mem_of_getElem? hk, rfl⟩)
    refine Waived.log ?_ fun _ => Range.step_noPassword (h.usable roster hroster) hcov hr
    refine ⟨fun hm => ?_, h.usable, fun roster' r'' hroster' hruns => ?_, h.sent⟩
    · rw [h.fresh hm] at hk
      cases hk
    · obtain rfl := Option.some.inj (hroster.symm.trans hroster')
      rcases runs_setAdd hruns with hruns | hph
      · exact h.covers roster r'' hroster hruns
      · obtain rfl := AddPhase.provisioning.inj hph
        exact Range.step_covers hcov hr
  | addJoin hk =>
    refine h.setAdd hk fun r => ?_
    dsimp only
    split <;> nofun
  | @addGive k count globalStart c todo hk =>
    have hset := h.setAdd (a := ⟨count, globalStart, .distributing todo⟩) hk nofun
    exact hset.kept hset.fresh rfl (fun _ hr => hr) rfl
  | addEnd hk hend =>
    obtain ⟨hm, ha, hp, -, -, hsent⟩ := endAdd_erases hend
    refine h.kept (fun hm' => ?_) hp (fun r hr => ?_) hsent
    · rw [ha, h.fresh (hm ▸ hm')]
      rfl
    · rcases hr with hr | ⟨a, hmem, hph⟩
      · exact .inl (hm ▸ hr)
      · exact .inr ⟨a, List.mem_of_mem_eraseIdx (ha ▸ hmem), hph⟩
  | @control call hm =>
    refine h.log fun _ op hop => ?_
    rw [List.mem_singleton.mp hop]
    cases call <;> rfl
  | signal => exact h.kept h.fresh rfl (fun _ hr => hr) rfl
  | observeEnd =>
    exact Waived.log (s := { s with endObserved := true })
      (h.kept h.fresh rfl (fun _ hr => hr) rfl) fun hne => absurd rfl hne

theorem waived_of_reach (hfile : cfg.rosterFile ≠ "") (hreq : cfg.rosterRequired = true)
    (h : (system parseIso8601Utc cfg).Reach s) : Waived s := by
  refine System.Reach.inv (I := Waived) ?_ ?_ h
  · rintro s rfl
    exact ⟨fun _ => rfl, nofun, nofun, nofun⟩
  · intro s e s' _ hi hs
    exact step_waived parseIso8601Utc hfile hreq hi hs

/-- The constructor of `Provisioner` refuses the roster. -/
def Refused (parseIso8601Utc : String → Int) (cfg : Config K) (_ : Fleet) : Event K → Prop
  | .start file _ => ∃ thrown, Roster.load parseIso8601Utc cfg file = .error thrown
  | _ => True

/-- Without a `Provisioner` nothing is sent. -/
structure Silent (s : Fleet) : Prop where
  main : s.main = .notStarted ∨ s.main = .refused
  adds : s.adds = []
  sent : s.sent = []

theorem step_silent {e : Event K} (h : Silent s) (hr : Refused parseIso8601Utc cfg s e)
    (hs : s.step parseIso8601Utc cfg e = some s') : Silent s' := by
  have hk : ∀ k : Nat, s.adds[k]? = none := fun k => by
    rw [h.adds]
    rfl
  cases e with
  | start file api =>
    obtain ⟨thrown, hload⟩ := hr
    simp only [step] at hs
    split at hs
    · obtain rfl := Option.some.inj hs
      unfold start
      rw [hload]
      exact ⟨.inr rfl, h.adds, h.sent⟩
    · cases hs
  | signal => exact Option.some.inj hs ▸ ⟨h.main, h.adds, h.sent⟩
  | addStep k e => simp [step, hk] at hs
  | addJoin k => simp [step, hk] at hs
  | addGive k => simp [step, hk] at hs
  | addEnd k => simp [step, hk] at hs
  | _ => rcases h.main with hm | hm <;> simp [step, hm] at hs

theorem silent_of_refused
    (h : (system parseIso8601Utc cfg).GReach (Refused parseIso8601Utc cfg) s) : Silent s := by
  refine System.GReach.inv (I := Silent) ?_ ?_ h
  · rintro s rfl
    exact ⟨.inl rfl, rfl, rfl⟩
  · intro s e s' _ hi hg hs
    exact step_silent parseIso8601Utc hi hg hs

/-- Replay logging left alone is read back with a sign-in as the base account. -/
theorem start_signs_in (hleave : cfg.replayLogging = "leave") {file : RosterFile K}
    {roster : Roster} (hload : Roster.load parseIso8601Utc cfg file = .ok roster) (s : Fleet)
    (api : ReplayApi) :
    (.replayLogging, .login) ∈ (s.start parseIso8601Utc cfg file api).sent := by
  have hread : .login ∈ (Provisioner.readReplayLogging api).1 := by
    have hlogin : .login ∈ (request .login api.login).1 := by
      refine List.mem_replicate.mpr ⟨?_, rfl⟩
      unfold attempts
      split
      · exact one_ne_zero
      · split
        · exact one_ne_zero
        · split
          · exact two_ne_zero
          · split <;> decide
    unfold Provisioner.readReplayLogging
    dsimp only
    split
    · exact List.mem_append_left _ hlogin
    · exact hlogin
  rcases start_cases parseIso8601Utc cfg s file api with
    ⟨thrown, herr, -⟩ | ⟨_, main, ops, -, hs, hops, -⟩
  · cases hload.symm.trans herr
  · rw [hs, hops hleave]
    exact List.mem_append_right _ (List.mem_map.mpr ⟨_, hread, rfl⟩)

/-- What was sent stays sent. -/
theorem step_sent {e : Event K} (hs : s.step parseIso8601Utc cfg e = some s') :
    s.sent ⊆ s'.sent := by
  have hlog : ∀ (t : Fleet) o ops, t.sent ⊆ (t.log o ops).sent := fun t o ops =>
    List.subset_append_left _ _
  have hsame : ∀ t : Fleet, t.sent = s.sent → s.sent ⊆ t.sent := fun t ht =>
    ht ▸ List.Subset.refl _
  cases step_cases parseIso8601Utc cfg hs with
  | @start file api =>
    rcases start_cases parseIso8601Utc cfg s file api with ⟨_, -, hs⟩ | ⟨_, _, _, -, hs, -⟩
    · rw [hs]
      exact hsame _ rfl
    · rw [hs]
      exact hlog { s with provisioner := _, main := _ } _ _
  | startStep => exact hlog { s with main := _ } _ _
  | addStep => exact hlog (s.setAdd _ _) _ _
  | control => exact hlog s _ _
  | observeEnd => exact hlog { s with endObserved := true } _ _
  | addEnd _ hend => exact hsame _ (endAdd_erases hend).2.2.2.2.2
  | _ => exact hsame _ rfl

/-- **Passwords.** With a required roster and the replay logging left alone, a run is free
of passwords exactly when the roster is refused at every start; the client path itself
never uses one. -/
theorem password_free_iff (hfile : cfg.rosterFile ≠ "") (hreq : cfg.rosterRequired = true)
    (hleave : cfg.replayLogging = "leave") (h : (system parseIso8601Utc cfg).Reach s) :
    ((∀ x ∈ s.sent, x.2.usesPassword = false) ↔
      (system parseIso8601Utc cfg).GReach (Refused parseIso8601Utc cfg) s) ∧
    ∀ x ∈ s.sent, x.1 ≠ .replayLogging → x.2.usesPassword = false := by
  refine ⟨⟨fun hfree => ?_, fun hr => ?_⟩, (waived_of_reach parseIso8601Utc hfile hreq h).sent⟩
  · -- a run that met the condition so far either goes on so, or signs in with this step
    have hdone : (system parseIso8601Utc cfg).GReach (Refused parseIso8601Utc cfg) s ∨
        (.replayLogging, .login) ∈ s.sent := by
      refine System.Reach.inv (I := fun s => (system parseIso8601Utc cfg).GReach
        (Refused parseIso8601Utc cfg) s ∨ (.replayLogging, .login) ∈ s.sent)
        (fun s hs => .inl (.init hs)) ?_ h
      intro s e s' _ hi hs
      rcases hi with hi | hi
      · by_cases hg : Refused parseIso8601Utc cfg s e
        · exact .inl (.step hi hg hs)
        · right
          cases e with
          | start file api =>
            cases hload : Roster.load parseIso8601Utc cfg file with
            | error thrown => exact absurd ⟨thrown, hload⟩ hg
            | ok roster =>
              have hsigned := start_signs_in parseIso8601Utc hleave hload s api
              change s.step parseIso8601Utc cfg _ = some s' at hs
              simp only [step] at hs
              split at hs
              · exact Option.some.inj hs ▸ hsigned
              · cases hs
          | _ => exact absurd trivial hg
      · exact .inr (step_sent parseIso8601Utc hs hi)
    refine hdone.resolve_right fun hmem => ?_
    exact absurd (hfree _ hmem) (by decide)
  · rw [(silent_of_refused parseIso8601Utc hr).sent]
    exact List.forall_mem_nil _

end Fleet

namespace Sample

/-- No password is configured: a required roster waives it. -/
def waived : Config ℚ :=
  { config with password := "", rosterFile := "roster.json", rosterRequired := true }

def roster : RosterFile ℚ :=
  .parsed (.obj [("sessions", .arr [.obj [("index", .int 0), ("token", .str "session")]])])

theorem waived_accepted : waived.Accepted := by
  show Config.validate _ = _
  decide +kernel

end Sample

/-- A covered client is loaded without a sign-in of its own. -/
theorem covered_load_signs_in_no_client : ∃ s : Fleet, s.used = 1 ∧
    ∀ x ∈ s.sent, x.1 ≠ .replayLogging → x.2.usesPassword = false := by
  have hrun : ((System.exec (Fleet.step (fun _ => 0) Sample.waived) {}
      (Sample.loads Sample.roster 1)).map Fleet.used) = some 1 := by decide +kernel
  obtain ⟨s, hs, hu⟩ := Option.map_eq_some_iff.mp hrun
  have hr : (system (fun _ => 0) Sample.waived).Reach s := System.Reach.exec (.init rfl) hs
  exact ⟨s, hu, (Fleet.password_free_iff (fun _ => 0) (by decide) rfl rfl hr).2⟩

/-- The roster covers every client, and `start` sends a LOGIN with the empty password. -/
theorem covered_start_signs_in : ∃ s : Fleet, Sample.waived.Accepted ∧
    Sample.waived.rosterFile ≠ "" ∧ Sample.waived.rosterRequired = true ∧
    Sample.waived.replayLogging = "leave" ∧ (system (fun _ => 0) Sample.waived).Reach s ∧
    (.replayLogging, .login) ∈ s.sent := by
  have hrun : ((System.exec (Fleet.step (fun _ => 0) Sample.waived) {}
      (Sample.loads Sample.roster 1)).map fun s => decide ((.replayLogging, .login) ∈ s.sent)) =
      some true := by decide +kernel
  obtain ⟨s, hs, hm⟩ := Option.map_eq_some_iff.mp hrun
  exact ⟨s, Sample.waived_accepted, by decide, rfl, rfl, System.Reach.exec (.init rfl) hs,
    of_decide_eq_true hm⟩

end CksLoadtest.Harness
