import CksLoadtest.Harness.SignIn
import CksLoadtest.Harness.Stages
import CksLoadtest.Provision.Keyed

/-!
# Tokens handed to workers

Every client the harness hands out came out of a `provisionRange` call, of the initial load
or of an add, and so has a token of 64 octets.
-/
namespace CksLoadtest.Harness

open Lib Lib.Transition

namespace Fleet

/-- Clients on their way to the workers. -/
def Distributes (s : Fleet) (todo : List ClientCredentials) : Prop :=
  s.main = .distributing todo ∨ ∃ a ∈ s.adds, a.phase = .distributing todo

/-- Credentials that were handed out or will be can be signed with. -/
structure Keyed (s : Fleet) : Prop where
  fresh : s.main = .notStarted → s.adds = []
  roster : ∀ roster, s.provisioner = some roster → roster.Keyed
  runs : ∀ r, s.Runs r → r.Inv s.stop ∧ r.Keyed s.stop
  todo : ∀ todo, s.Distributes todo → ∀ c ∈ todo, c.Keyed
  given : ∀ g ∈ s.given, g.2.Keyed

variable {s s' : Fleet}

/-- A step that starts no range and provisions no client. -/
theorem Keyed.kept (h : Keyed s) (hf : s'.main = .notStarted → s'.adds = [])
    (hp : s'.provisioner = s.provisioner) (hs : s'.stop = s.stop)
    (hr : ∀ r, s'.Runs r → s.Runs r) (ht : ∀ todo, s'.Distributes todo → ∀ c ∈ todo, c.Keyed)
    (hg : s'.given = s.given) : Keyed s' where
  fresh := hf
  roster roster hroster := h.roster roster (hp ▸ hroster)
  runs r hruns := hs ▸ h.runs r (hr r hruns)
  todo := ht
  given := hg ▸ h.given

theorem Keyed.log (h : Keyed s) (o : Origin) (ops : List Operation) : Keyed (s.log o ops) :=
  h.kept h.fresh rfl rfl (fun _ hr => hr) h.todo rfl

theorem distributes_setAdd {k : Nat} {a : Add} {todo : List ClientCredentials}
    (h : (s.setAdd k a).Distributes todo) : s.Distributes todo ∨ a.phase = .distributing todo := by
  rcases h with h | ⟨b, hb, hph⟩
  · exact .inl (.inl h)
  · rcases List.mem_or_eq_of_mem_set hb with hb | rfl
    · exact .inl (.inr ⟨b, hb, hph⟩)
    · exact .inr hph

/-- An add thread that goes on: its new phase is all there is to show. -/
theorem Keyed.setAdd (h : Keyed s) {k : Nat} {a b : Add} (hk : s.adds[k]? = some b)
    (hr : ∀ r, a.phase = .provisioning r → r.Inv s.stop ∧ r.Keyed s.stop)
    (ht : ∀ todo, a.phase = .distributing todo → ∀ c ∈ todo, c.Keyed) : Keyed (s.setAdd k a) where
  fresh hm := by
    rw [h.fresh hm] at hk
    cases hk
  roster := h.roster
  runs r hruns := (runs_setAdd hruns).elim (h.runs r) (hr r)
  todo todo hd := (distributes_setAdd hd).elim (h.todo todo) (ht todo)
  given := h.given

theorem Keyed.give {K : Type*} (cfg : Config K) (h : Keyed s) {c : ClientCredentials}
    (hc : c.Keyed) : Keyed (s.give cfg c) where
  fresh := h.fresh
  roster := h.roster
  runs := h.runs
  todo := h.todo
  given g hg := by
    rcases List.mem_append.mp hg with hg | hg
    · exact h.given g hg
    · exact List.mem_singleton.mp hg ▸ hc

variable {K : Type*} {cfg : Config K}

theorem acceptAdd_keyed (hcfg : cfg.Accepted) {roster : Roster} {count : Int}
    (hm : s.main = .running) (h : Keyed s) : Keyed (s.acceptAdd cfg roster count) := by
  have hnew : ∀ r, Range.start cfg roster (int32 (cfg.indexBase + s.used)) count = some r →
      r.Inv s.stop ∧ r.Keyed s.stop := fun r hr =>
    ⟨(Range.start_inv cfg roster hcfg.sizes.2.2.1 hr).1, Range.start_keyed hr⟩
  refine ⟨fun hm' => (nomatch hm.symm.trans hm'), h.roster, fun r hruns => ?_, fun todo hd => ?_,
    h.given⟩
  · rcases hruns with hruns | ⟨a, ha, hph⟩
    · exact h.runs r (.inl hruns)
    · rcases List.mem_append.mp ha with ha | ha
      · exact h.runs r (.inr ⟨a, ha, hph⟩)
      · rw [List.mem_singleton.mp ha] at hph
        dsimp only at hph
        split at hph
        · rename_i r' hstart
          obtain rfl := AddPhase.provisioning.inj hph
          exact hnew _ hstart
        · cases hph
  · rcases hd with hd | ⟨a, ha, hph⟩
    · exact h.todo todo (.inl hd)
    · rcases List.mem_append.mp ha with ha | ha
      · exact h.todo todo (.inr ⟨a, ha, hph⟩)
      · rw [List.mem_singleton.mp ha] at hph
        dsimp only at hph
        split at hph <;> cases hph

variable [Ring K] [LinearOrder K] [FloorRing K] (parseIso8601Utc : String → Int)

theorem start_keyed (hcfg : cfg.Accepted) (hm : s.main = .notStarted) (h : Keyed s)
    (file : RosterFile K) (api : ReplayApi) : Keyed (s.start parseIso8601Utc cfg file api) := by
  have hadds := h.fresh hm
  have hnone : ∀ {t : Fleet} {todo : List ClientCredentials}, t.adds = [] →
      (∀ todo, t.main ≠ .distributing todo) → ¬ t.Distributes todo := by
    rintro t todo ha hmain (hd | ⟨a, ha', -⟩)
    · exact hmain todo hd
    · rw [ha] at ha'
      cases ha'
  rcases start_cases parseIso8601Utc cfg s file api with
    ⟨thrown, -, hs⟩ | ⟨roster, main, ops, hload, hs, -, hmain⟩
  · rw [hs]
    exact h.kept (fun _ => hadds) rfl rfl (fun r hr => nomatch runs_main hr hadds)
      (fun todo hd => absurd hd (hnone hadds nofun)) rfl
  · rw [hs]
    refine Keyed.log ?_ ..
    refine ⟨fun _ => hadds, fun r hr => ?_, fun r hruns => ?_, fun todo hd => ?_, h.given⟩
    · obtain rfl := Option.some.inj hr
      exact Roster.load_keyed parseIso8601Utc hload
    · have hrun : main = .provisioning r := runs_main hruns hadds
      rcases hmain with rfl | rfl | ⟨r', rfl, hr⟩
      · cases hrun
      · cases hrun
      · obtain rfl := MainPhase.provisioning.inj hrun
        exact ⟨(Range.start_inv cfg roster hcfg.sizes.2.2.1 hr).1, Range.start_keyed hr⟩
    · refine absurd hd (hnone hadds ?_)
      rcases hmain with rfl | rfl | ⟨r', rfl, -⟩ <;> exact nofun

/-- **Step lemma.** -/
theorem step_keyed (hcfg : cfg.Accepted) {e : Event K} (h : Keyed s)
    (hs : s.step parseIso8601Utc cfg e = some s') : Keyed s' := by
  cases step_cases parseIso8601Utc cfg hs with
  | @start file api hm => exact start_keyed parseIso8601Utc hcfg hm h file api
  | @startStep e r r' roster ops hm hroster hr =>
    obtain ⟨hi, hk⟩ := h.runs r (.inl hm)
    refine Keyed.log (s := { s with main := .provisioning r' }) ?_ ..
    refine ⟨nofun, h.roster, fun r'' hruns => ?_, fun todo hd => ?_, h.given⟩
    · rcases hruns with hruns | hruns
      · obtain rfl := MainPhase.provisioning.inj hruns
        exact ⟨Range.step_inv cfg roster hi hr, Range.step_keyed (h.roster _ hroster) hi hk hr⟩
      · exact h.runs r'' (.inr hruns)
    · exact h.todo todo (.inr (hd.resolve_left nofun))
  | @startJoined r hm hj =>
    obtain ⟨hi, hk⟩ := h.runs r (.inl hm)
    refine h.kept nofun rfl rfl (fun r hr => .inr (hr.resolve_left nofun)) ?_ rfl
    rintro todo (hd | hd)
    · obtain rfl := MainPhase.distributing.inj hd
      exact Range.result_keyed hi hk hj
    · exact h.todo todo (.inr hd)
  | startFailed | startDone | httpStop =>
    exact h.kept nofun rfl rfl (fun r hr => .inr (hr.resolve_left nofun))
      (fun todo hd => h.todo todo (.inr (hd.resolve_left nofun))) rfl
  | @startGive c todo hm =>
    have htodo := h.todo _ (.inl hm)
    rw [List.forall_mem_cons] at htodo
    refine Keyed.give (s := { s with main := .distributing todo }) cfg ?_ htodo.1
    refine h.kept nofun rfl rfl (fun r hr => .inr (hr.resolve_left nofun)) ?_ rfl
    rintro todo' (hd | hd)
    · obtain rfl := MainPhase.distributing.inj hd
      exact htodo.2
    · exact h.todo todo' (.inr hd)
  | addRefused | endSeen => exact h
  | addAccepted hm => exact acceptAdd_keyed hcfg hm h
  | @addStep k e count globalStart r r' roster ops hk hroster hr =>
    obtain ⟨hi, hkeyed⟩ := h.runs r (.inr ⟨_, List.mem_of_getElem? hk, rfl⟩)
    refine Keyed.log (h.setAdd (a := ⟨count, globalStart, .provisioning r'⟩) hk
      (fun r'' hph => ?_) nofun) ..
    obtain rfl := AddPhase.provisioning.inj hph
    exact ⟨Range.step_inv cfg roster hi hr, Range.step_keyed (h.roster _ hroster) hi hkeyed hr⟩
  | @addJoin k count globalStart r hk hj =>
    obtain ⟨hi, hkeyed⟩ := h.runs r (.inr ⟨_, List.mem_of_getElem? hk, rfl⟩)
    refine h.setAdd hk (fun r' hph => ?_) (fun todo hph => ?_)
    · dsimp only at hph
      split at hph <;> cases hph
    · dsimp only at hph
      split at hph
      · cases hph
      · obtain rfl := AddPhase.distributing.inj hph
        exact Range.result_keyed hi hkeyed hj
  | @addGive k count globalStart c todo hk =>
    have htodo := h.todo _ (.inr ⟨_, List.mem_of_getElem? hk, rfl⟩)
    rw [List.forall_mem_cons] at htodo
    refine Keyed.give cfg (h.setAdd (a := ⟨count, globalStart, .distributing todo⟩) hk nofun
      fun todo' hph => ?_) htodo.1
    obtain rfl := AddPhase.distributing.inj hph
    exact htodo.2
  | addEnd hk hend =>
    obtain ⟨hm, ha, hp, hstop, hg, -⟩ := endAdd_erases hend
    refine h.kept (fun hm' => ?_) hp hstop (fun r hr => ?_) (fun todo hd => h.todo todo ?_) hg
    · rw [ha, h.fresh (hm ▸ hm')]
      rfl
    · rcases hr with hr | ⟨a, hmem, hph⟩
      · exact .inl (hm ▸ hr)
      · exact .inr ⟨a, List.mem_of_mem_eraseIdx (ha ▸ hmem), hph⟩
    · rcases hd with hd | ⟨a, hmem, hph⟩
      · exact .inl (hm ▸ hd)
      · exact .inr ⟨a, List.mem_of_mem_eraseIdx (ha ▸ hmem), hph⟩
  | control => exact h.log ..
  | signal =>
    refine ⟨h.fresh, h.roster, fun r hr => ?_, h.todo, h.given⟩
    obtain ⟨hi, hk⟩ := h.runs r hr
    exact ⟨hi.stopped fun _ => rfl, hk.stopped fun _ => rfl⟩
  | observeEnd =>
    exact Keyed.log (s := { s with endObserved := true })
      (h.kept h.fresh rfl rfl (fun _ hr => hr) h.todo rfl) ..

/-- **Runs** hand out only clients that can be signed with. -/
theorem keyed_of_reach (hcfg : cfg.Accepted) (h : (system parseIso8601Utc cfg).Reach s) :
    Keyed s := by
  refine System.Reach.inv (I := Keyed) ?_ ?_ h
  · rintro s rfl
    refine ⟨fun _ => rfl, nofun, fun r hr => ?_, fun todo hd => ?_, fun g hg => ?_⟩
    · cases runs_main hr rfl
    · rcases hd with hd | ⟨a, ha, -⟩
      · cases hd
      · cases ha
    · cases hg
  · intro s e s' _ hi hs
    exact step_keyed parseIso8601Utc hcfg hi hs

end Fleet

end CksLoadtest.Harness
