import CksLoadtest.Lib.Tally
import CksLoadtest.Protocol.Clients
import CksLoadtest.Protocol.Gauges
import CksLoadtest.Protocol.Lives
import CksLoadtest.Protocol.Moves
import CksLoadtest.Protocol.Refinement

/-!
# Clients the control thread gave up on

A failed update leaves its client SUSPENDED. Nothing wakes a client that is SUSPENDED with no
request outstanding, and there are at most as many of them as `controlFailures` says, so that the
gauge falls back to no more than that whenever the control thread has caught up.
-/
namespace CksLoadtest.Protocol

open Lib.Transition
open Worker (Core CoreStep core)

variable {n : Nat}

namespace Session

/-- A client that was given up on stays as it is. -/
theorem GivenUp.step {v v' : Session n} {m : Move n} (h : v.GivenUp) (hs : Step v m v') :
    v'.GivenUp := by
  obtain ⟨hsusp, hnone⟩ := h
  obtain ⟨target, r, -, hc, rfl⟩ | ⟨done, x, x', rest, -, ho, -⟩ | ⟨x, rest, failed, -, ho, -⟩ :=
    hs.cases
  · generalize hps : (r.map push).toList = ps at hc
    cases hc with
    | activate hw => exact absurd (hsusp.symm.trans hw) (by decide)
    | ask ha => exact absurd (hsusp.symm.trans ha) (by decide)
    | suspend hne => exact absurd hsusp hne
    | tokenError hne => exact absurd hsusp hne
    | markOnly =>
      cases r with
      | none => exact ⟨hsusp, by simpa [pushed] using hnone⟩
      | some r => cases hps
  · rw [hnone] at ho
    exact absurd ho.symm (List.append_ne_nil_of_right_ne_nil _ (List.cons_ne_nil _ _))
  · rw [hnone] at ho
    exact absurd ho.symm (List.cons_ne_nil _ _)

theorem GivenUp.path {G : Session n → Move n → Prop} {v v' : Session n} (h : v.GivenUp)
    (hp : (system n).GPath G v v') : v'.GivenUp := by
  induction hp with
  | refl => exact h
  | step _ hs _ ih => exact ih (h.step hs)

end Session

namespace Exchange

variable {x x' : Exchange n} {l : Label n} {w : Fin n} {i : Nat}

theorem carries_all : Carries (n := n) (fun _ _ => True) (fun _ _ => True) where
  refreshed _ _ := trivial
  retry _ _ := trivial
  refresh _ _ _ _ _ _ _ := trivial
  place _ _ _ _ _ _ _ _ _ _ _ := trivial
  act _ _ _ _ _ _ _ _ _ := trivial
  apply _ _ _ _ _ _ _ _ := trivial

/-- One step of the exchange is a path of every client's session. -/
theorem view_step (hsound : x.Sound) (hs : Step x l x') {v' : Session n}
    (hv : x'.view w i = some v') : Matched (fun _ _ => True) x w i v' := by
  cases hs with
  | quiet => exact matched_of_eq hv rfl
  | add => exact matched_add hsound _ _ rfl hv
  | enroll => exact matched_enroll hsound _ rfl hv
  | take hu => exact matched_take _ hu rfl hv
  | act hc hp => exact matched_act carries_all trivial hc hp rfl hv
  | apply hu hc => exact matched_apply carries_all trivial hu hc rfl hv
  | pop hj hq => exact matched_pop hj hq rfl hv
  | refresh hj hp hr => exact matched_refresh carries_all hsound hj hp hr rfl hv
  | place hj hp hr => exact matched_place carries_all hsound trivial hj hp hr rfl hv
  | post hj hp => exact matched_post hj hp rfl hv

end Exchange

namespace Sys

variable {K : Type*}

/-- Client `i` of worker `w` is SUSPENDED, and no request of it is outstanding. -/
def Lost (s : Sys K n) (w : Fin n) (i : Nat) : Prop :=
  (∃ c ∈ s.client? w i, c.state = .suspended) ∧ s.exchange.outstanding w i = []

instance (s : Sys K n) (w : Fin n) (i : Nat) : Decidable (s.Lost w i) :=
  inferInstanceAs (Decidable (_ ∧ _))

/-- Number of clients that were given up on. -/
def lost (s : Sys K n) : Nat :=
  ∑ w, (List.range (s.workers w).clients.length).countP fun i => s.Lost w i

/-- Every request has been answered, and every answer been applied. -/
def CaughtUp (s : Sys K n) : Prop :=
  s.queue = [] ∧ s.job = none ∧ ∀ w, (s.workers w).inbox = [] ∧ (s.workers w).updates = []

/-- The failed answers of the control thread. -/
def failures (s : Sys K n) : Nat :=
  s.hist.posted.countP (·.failed) + s.job.toList.countP fun j => j.phase = .finished true

variable {s : Sys K n} {w : Fin n} {i : Nat}

theorem lost_iff : s.Lost w i ↔ ∃ v, s.exchange.view w i = some v ∧ v.GivenUp := by
  have hslot : (s.exchange.slots w)[i]? = (s.client? w i).map core := List.getElem?_map ..
  unfold Exchange.view
  rw [hslot]
  constructor
  · rintro ⟨⟨c, hc, hst⟩, ho⟩
    rw [hc]
    exact ⟨_, rfl, hst, ho⟩
  · rintro ⟨v, hv, hst, ho⟩
    obtain ⟨k, hk, rfl⟩ := Option.map_eq_some_iff.mp hv
    obtain ⟨c, hc, rfl⟩ := Option.map_eq_some_iff.mp hk
    exact ⟨⟨c, hc, hst⟩, ho⟩

section

variable [Field K] [LinearOrder K] [FloorRing K] {P : Platform K} {cfg : Config K} {s' : Sys K n}

theorem exchange_of_reach (h : (system P cfg n).Reach s) :
    (Exchange.system n).GReach (fun _ _ => True) s.exchange :=
  exchange_reach P cfg (fun _ _ _ => trivial) h

/-- **Step lemma.** -/
theorem Lost.step {e : Event K n} (h : s.Lost w i) (hr : (system P cfg n).Reach s)
    (hs : s.step P cfg e = some s') : s'.Lost w i := by
  have hsound := Exchange.sound_of_reach (exchange_of_reach hr)
  obtain ⟨v, hv, hgiven⟩ := lost_iff.mp h
  obtain ⟨⟨c, hc, -⟩, -⟩ := h
  obtain ⟨c', hc'⟩ := Option.isSome_iff_exists.mp (client_stays hs (Option.isSome_of_mem hc))
  obtain ⟨v', hv'⟩ : ∃ v', s'.exchange.view w i = some v' :=
    ⟨_, Option.map_eq_some_iff.mpr ⟨_, slot_of_client hc', rfl⟩⟩
  rcases Exchange.view_step hsound (step_exchange P cfg hs) hv' with ⟨hnone, -⟩ | ⟨u, hu, hpath⟩
  · exact absurd (hv.symm.trans hnone) (Option.some_ne_none v)
  · obtain rfl : v = u := Option.some.inj (hv.symm.trans hu)
    exact lost_iff.mpr ⟨v', hv', hgiven.path hpath⟩

/-- **Run lemma.** -/
theorem Lost.path {t : Sys K n} (h : s.Lost w i) (hr : (system P cfg n).Reach s)
    (hp : (system P cfg n).GPath (fun _ _ => True) s t) : t.Lost w i := by
  induction hp with
  | refl => exact h
  | step _ hs _ ih => exact ih (h.step hr hs) (hr.step hs)

/-! ### What `controlFailures` counts -/

omit [Field K] [LinearOrder K] [FloorRing K] in
theorem commit_posted (s : Sys K n) (w : Fin n) (i : Nat) (o : Worker.Out K) :
    (s.commit w i o).hist.posted = s.hist.posted :=
  effects_frame (·.hist.posted) (fun _ e => by cases e <;> rfl) _ _

/-- The other threads answer nothing. -/
theorem posted_step {e : Event K n} (h : s.step P cfg e = some s') (he : ¬ e.ofTurn) :
    s'.hist.posted = s.hist.posted := by
  cases step_cases h with
  | pop | refresh | place | post => exact absurd trivial he
  | addClient | startWorker | stopWorker | applyPendingClients | takeInbox | tick | rxDropped
  | shutdown | exit => rfl
  | applyUpdate | activate | sendDue | rxBegin | rxMember | rxEnd => exact commit_posted ..

omit [Field K] [LinearOrder K] [FloorRing K] in
theorem refresh_failures (legacyRefresh : Bool) (api : RefreshApi) (j : Job n) :
    (j.refresh cfg legacyRefresh api).2.2.count .controlFailures =
      [(j.refresh cfg legacyRefresh api).2.1].countP fun j => j.phase = .finished true := by
  unfold Job.refresh
  rcases Provisioner.refreshToken cfg legacyRefresh api j.creds with ⟨legacy, creds, result⟩
  cases result with
  | error e => rfl
  | ok kept => cases kept <;> rfl

omit [Field K] [LinearOrder K] [FloorRing K] in
theorem place_failures (isShutdown : Bool) (attempt : Nat) (api : AssignApi) (j : Job n) :
    (j.place cfg isShutdown attempt api).2.count .controlFailures =
      [(j.place cfg isShutdown attempt api).1].countP fun j => j.phase = .finished true := by
  unfold Job.place
  rcases Provisioner.assignServer cfg api j.creds with ⟨creds, result⟩
  cases result with
  | ok u =>
    dsimp only
    split <;> rfl
  | error e =>
    dsimp only
    split <;> rfl

/-- **Step lemma.** -/
theorem failures_step {e : Event K n} (h : s.count .controlFailures = s.failures)
    (hs : s.step P cfg e = some s') : s'.count .controlFailures = s'.failures := by
  by_cases he : e.ofTurn
  · unfold failures at h ⊢
    cases step_cases hs with
    | @pop r _ _ hj =>
      have hstart : [Job.start r].countP (fun j => j.phase = .finished true) = 0 := by
        unfold Job.start
        cases r.kind <;> rfl
      rw [hj] at h
      exact h.trans (congrArg _ hstart.symm)
    | @refresh api j hj hp =>
      have hnow : [j].countP (fun j => j.phase = .finished true) = 0 := by
        simp only [List.countP_singleton, hp]
        rfl
      have hcount : (s.refresh cfg api j).count .controlFailures =
          (s.tally (j.refresh cfg s.legacyRefresh api).2.2).count .controlFailures := by
        unfold refresh
        dsimp only
        split <;> rfl
      have hrest : (s.refresh cfg api j).hist.posted = s.hist.posted ∧
          (s.refresh cfg api j).job = some (j.refresh cfg s.legacyRefresh api).2.1 := by
        unfold refresh
        dsimp only
        split <;> exact ⟨rfl, rfl⟩
      rw [hcount, tally_count, refresh_failures, hrest.1, hrest.2, h, hj]
      show _ + [j].countP _ + _ = _
      rw [hnow]
      rfl
    | @place api j attempt hj hp =>
      have hnow : [j].countP (fun j => j.phase = .finished true) = 0 := by
        simp only [List.countP_singleton, hp]
        rfl
      have hcount := tally_count s (j.place cfg s.shutdown attempt api).2 .controlFailures
      rw [place_failures, h, hj] at hcount
      refine Eq.trans hcount ?_
      show _ + [j].countP _ + _ = _
      rw [hnow]
      rfl
    | @post j failed hj hp =>
      have hnow : [j].countP (fun j => j.phase = .finished true) =
          [j.update failed].countP (·.failed) := by
        simp only [List.countP_singleton, hp]
        cases failed <;> rfl
      refine Eq.trans (h.trans ?_) (congrArg (· + 0) (List.countP_append ..).symm)
      rw [hj]
      exact congrArg _ hnow
    | _ => exact absurd he (by exact fun h => h)
  · have hsame := step_control P cfg hs he
    unfold failures at h ⊢
    rw [hsame.count .controlFailures rfl, h, posted_step hs he, hsame.job]

theorem failures_of_reach (h : (system P cfg n).Reach s) :
    s.count .controlFailures = s.failures := by
  refine System.Reach.inv (I := fun s => s.count .controlFailures = s.failures) ?_
    (fun s e s' _ hi hs => ?_) h
  · rintro _ rfl
    rfl
  · have hstep : s.step P cfg e = some s' := hs
    exact failures_step hi hstep

/-! ### Clients and failed answers -/

/-- A client that was given up on has a failed answer of its own. -/
theorem Lost.answered (h : s.Lost w i) (hr : (system P cfg n).Reach s) :
    ∃ a ∈ s.hist.applied, a.worker = w ∧ a.slot = i ∧ a.update.failed = true := by
  obtain ⟨v, hv, hsusp, hnone⟩ := lost_iff.mp h
  have hwake := Session.wake_of_reach
    (Exchange.view_reach Exchange.carries_all (exchange_of_reach hr) w i hv)
  obtain ⟨r, -, hmem⟩ := hwake hsusp
  rw [hnone] at hmem
  obtain ⟨c, -, rfl⟩ := Exchange.view_eq_some hv
  obtain ⟨a, ha, -⟩ := List.mem_map.mp (hmem.resolve_left List.not_mem_nil)
  obtain ⟨ha, hfor⟩ := List.mem_filter.mp ha
  exact ⟨a, ha, of_decide_eq_true hfor⟩

/-- The clients of one worker that were given up on, against its failed answers. -/
theorem lost_worker_le (hr : (system P cfg n).Reach s) (w : Fin n) :
    (List.range (s.workers w).clients.length).countP (fun i => s.Lost w i) ≤
      s.hist.posted.countP fun u => (u.request.workerIndex : Nat) = w ∧ u.failed := by
  have hsound := Exchange.sound_of_reach (exchange_of_reach hr)
  have hslots : ((List.range (s.workers w).clients.length).filter fun i => s.Lost w i) ⊆
      (s.hist.applied.filter fun a => a.worker = w ∧ a.update.failed).map (·.slot) := by
    intro i hi
    obtain ⟨a, ha, hw, hslot, hf⟩ :=
      (of_decide_eq_true (List.mem_filter.mp hi).2 : s.Lost w i).answered hr
    exact List.mem_map.mpr ⟨a, List.mem_filter.mpr ⟨ha, decide_eq_true ⟨hw, hf⟩⟩, hslot⟩
  have happlied : (s.hist.applied.filter fun a => a.worker = w ∧ a.update.failed).length ≤
      s.hist.posted.countP fun u => (u.request.workerIndex : Nat) = w ∧ u.failed := by
    have hupdates := congrArg (List.countP (·.failed)) (hsound.account.updates w)
    rw [List.countP_filter, List.countP_append, List.countP_map, List.countP_filter] at hupdates
    rw [← List.countP_eq_length_filter]
    refine le_trans (le_of_eq ?_) ((Nat.le_add_right _ _).trans (le_of_eq (hupdates.symm.trans ?_)))
    · exact List.countP_congr fun a _ => by simp [and_comm]
    · exact List.countP_congr fun u _ => by simp [and_comm, Fin.ext_iff]
  have hlength := (List.subperm_of_subset (List.nodup_range.filter _) hslots).length_le
  rw [List.length_map] at hlength
  rw [List.countP_eq_length_filter]
  exact hlength.trans happlied

theorem lost_le (hr : (system P cfg n).Reach s) : s.lost ≤ s.count .controlFailures := by
  have hfiber := Lib.Tally.sum_countP_key (n := n)
    (fun u : ClientUpdate n => (u.request.workerIndex : Nat)) (·.failed) (l := s.hist.posted)
    fun u _ => u.request.workerIndex.isLt
  have hsum : s.lost ≤ s.hist.posted.countP (·.failed) :=
    (Finset.sum_le_sum fun w _ => lost_worker_le hr w).trans hfiber.le
  rw [failures_of_reach hr]
  unfold failures
  omega

omit [Field K] [LinearOrder K] [FloorRing K] in
/-- When everything was answered, every SUSPENDED client was given up on. -/
theorem lost_of_caughtUp (h : s.CaughtUp) : s.lost = s.clientsIn .suspended := by
  obtain ⟨hq, hj, hw⟩ := h
  have hnone (w : Fin n) (i : Nat) : s.exchange.outstanding w i = [] := by
    have hupdates : s.exchange.updates w ++ s.exchange.inbox w = [] := by
      show (s.workers w).updates ++ (s.workers w).inbox = []
      rw [(hw w).1, (hw w).2]
      rfl
    unfold Exchange.outstanding
    rw [hupdates, show s.exchange.job = none from hj, show s.exchange.queue = [] from hq]
    rfl
  unfold lost clientsIn
  refine Finset.sum_congr rfl fun w _ => ?_
  rw [← Lib.Tally.countP_slots (s.workers w).clients]
  refine List.countP_congr fun i _ => ?_
  rw [decide_eq_true_eq, Option.any_eq_true]
  constructor
  · rintro ⟨⟨c, hc, hst⟩, -⟩
    exact ⟨c, hc, decide_eq_true hst⟩
  · rintro ⟨c, hc, hst⟩
    exact ⟨⟨c, hc, of_decide_eq_true hst⟩, hnone w i⟩

/-- What there is to say of the clients that were given up on. -/
structure GiveUps (P : Platform K) (cfg : Config K) (s : Sys K n) : Prop where
  /-- Whatever happens, such a client never plays again. -/
  permanent : ∀ t, (system P cfg n).GPath (fun _ _ => True) s t →
    ∀ w i, s.Lost w i → t.Lost w i
  failures : s.stats.controlFailures = s.failures
  counted : s.lost ≤ s.stats.controlFailures
  caughtUp : s.CaughtUp → s.stats.suspendedClients = s.lost

/-- **Given up for good, and counted.** -/
theorem give_ups (h : (system P cfg n).Reach s) : GiveUps P cfg s where
  permanent _ hp _ _ hg := hg.path h hp
  failures := failures_of_reach h
  counted := lost_le h
  caughtUp hc := by
    rw [lost_of_caughtUp hc]
    exact (gauges_agree P cfg h).suspended

end

end Sys

/-- A client is told that its token is invalid, and the refresh fails. -/
theorem give_ups_refresh_failed : ∃ s : Sys ℚ 1, s.lost = 1 ∧
    Sys.GiveUps Sample.platform Sample.config s := by
  have hrun : ((System.exec (Sys.step Sample.platform Sample.config) {}
      (Sample.started ++ Sample.receives Sample.tokenError ++
        [.pop, Sample.refreshFails, .post] ++ Sample.applies 1)).map Sys.lost) = some 1 := by
    decide +kernel
  obtain ⟨s, hs, hm⟩ := Option.map_eq_some_iff.mp hrun
  have hr : (system Sample.platform Sample.config 1).Reach s :=
    System.Reach.exec (.init rfl) hs
  exact ⟨s, hm, Sys.give_ups hr⟩

end CksLoadtest.Protocol
