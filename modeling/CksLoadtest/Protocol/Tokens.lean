import CksLoadtest.Protocol.Refinement

/-!
# The token pair a client holds

A request carries the credentials of the moment it was pushed. A REASSIGN pushed
while a REFRESH was outstanding brings the old pair back, and a refresh that
succeeded is lost when its placement is given up on. In runs without either the
newest pair is always held or on its way.
-/
namespace CksLoadtest.Protocol

open Lib.Buffer Lib.Transition
open Provisioner (tokenPair)

namespace Sys

variable {K : Type*} {n : Nat}

/-- The requests and updates of a client that are in the control queue, being
processed, or on their way to be applied. -/
def outstanding (s : Sys K n) (w : Fin n) (i : Nat) : List (Item n) :=
  s.exchange.outstanding w i

/-- The pair of the last `refreshToken` call that returned for a client, the
provisioned pair if none did. -/
def lastPair (s : Sys K n) (w : Fin n) (i : Nat) : Int64 × Bytes := s.exchange.lastPair w i

/-- The condition on a placement attempt: it succeeds for a REASSIGN only when the
request carries the newest pair, and no REFRESH is given up on in it. -/
def KeepsPairs (cfg : Config K) (s : Sys K n) : Event K n → Prop
  | .place api =>
    match s.job with
    | none => True
    | some j =>
      match j.phase with
      | .placing attempt =>
        match (Provisioner.assignServer cfg api j.creds).2 with
        | .ok _ => j.request.kind = .reassign →
            tokenPair j.creds = s.lastPair j.request.workerIndex j.request.clientIndex
        | .error _ => 15 ≤ attempt ∨ s.shutdown = true → j.request.kind = .reassign
      | _ => True
  | _ => True

/-- The same condition on the exchange. -/
def PairGuard (x : Exchange n) : Label n → Prop
  | .place j' => ∀ j, x.job = some j →
      (j'.phase = .finished false → j.request.kind = .reassign →
        tokenPair j.creds = x.lastPair j.request.workerIndex j.request.clientIndex) ∧
      (j'.phase = .finished true → j.request.kind = .reassign)
  | _ => True

theorem pairGuard_carries : Exchange.Carries (n := n) PairGuard Session.KeepsPair where
  refreshed _ _ := trivial
  retry _ _ := trivial
  refresh v x failed creds hp hk hr y hy := by
    obtain rfl : x = y := Option.some.inj (hp.symm.trans hy)
    refine ⟨fun _ hre => ?_, fun hf => by simpa [hf] using hr⟩
    rw [hk] at hre
    cases hre
  place x j j' failed v hsound hg hj hfin hv hp y hy := by
    obtain rfl : Item.ofJob j = y := Option.some.inj (hp.symm.trans hy)
    obtain ⟨c, -, rfl⟩ := Exchange.view_eq_some hv
    obtain ⟨hok, hbad⟩ := hg j hj
    constructor
    · rintro rfl hk
      exact hok hfin hk
    · rintro rfl
      -- a job that was refreshed was asked for a refresh
      have hk := hbad hfin
      cases hrf : j.refreshed with
      | false => exact hrf
      | true => exact absurd ((hsound.jobs j hj).refreshed hrf) (by simp [hk])
  act _ _ _ _ _ _ _ _ _ := trivial
  apply _ _ _ _ _ _ _ _ := trivial

variable [Field K] [LinearOrder K] [FloorRing K] {P : Platform K} {cfg : Config K}
  {s : Sys K n}

omit [LinearOrder K] [FloorRing K] in
theorem pairGuard_of_keepsPairs (s : Sys K n) (e : Event K n) (h : s.KeepsPairs cfg e) :
    PairGuard s.exchange (s.label cfg e) := by
  cases e with
  | place api =>
    cases hj : s.job with
    | none =>
      simp only [label, hj]
      trivial
    | some j =>
      simp only [KeepsPairs, hj] at h
      simp only [label, hj]
      cases hp : j.phase with
      | refreshing => trivial
      | finished failed => trivial
      | placing attempt =>
        rintro j₀ hj₀
        obtain rfl : j = j₀ := Option.some.inj (hj.symm.trans hj₀)
        simp only [hp] at h
        rw [Job.place_phase]
        cases hr : (Provisioner.assignServer cfg api j.creds).2 with
        | ok u =>
          simp only [hr] at h
          exact ⟨fun _ hk => h hk, by simp⟩
        | error e =>
          simp only [hr] at h
          dsimp only
          split
          · rename_i hgive
            exact ⟨by simp, fun _ => h hgive⟩
          · exact ⟨by simp, by simp⟩
  | rxMember w r =>
    simp only [label]
    split <;> trivial
  | rxEnd w =>
    simp only [label]
    split <;> trivial
  | refresh api =>
    simp only [label]
    split <;> trivial
  | addClient | startWorker | stopWorker | applyPendingClients | takeInbox | applyUpdate | tick
  | activate | sendDue | rxBegin | pop | post | shutdown | exit => trivial

/-- In runs that keep the pairs, the newest pair of every client is the one it holds
once the outstanding updates are applied; with nothing outstanding it is held. -/
theorem newest_pair_held (h : (system P cfg n).GReach (KeepsPairs cfg) s) {w : Fin n} {i : Nat}
    {c : SimClient K} (hc : s.client? w i = some c) :
    Session.heldAfter (tokenPair c.creds) (s.outstanding w i) = s.lastPair w i ∧
      (s.outstanding w i = [] → tokenPair c.creds = s.lastPair w i) := by
  have hx := exchange_reach P cfg (fun s e => pairGuard_of_keepsPairs s e) h
  have hv : s.exchange.view w i = some ⟨Worker.core c, s.outstanding w i, s.exchange.latest w i,
      s.exchange.failed w i, s.lastPair w i⟩ := by
    rw [Exchange.view, slot_of_client hc]
    rfl
  have hr := Exchange.view_reach pairGuard_carries hx w i hv
  exact ⟨(Session.pair_of_reach hr).2, Session.pair_of_quiet hr⟩

instance (s : Sys K n) : (e : Event K n) → Decidable (s.KeepsPairs cfg e)
  | .place api => by
    dsimp only [KeepsPairs]
    cases s.job with
    | none => exact inferInstanceAs (Decidable True)
    | some j =>
      dsimp only
      cases j.phase with
      | placing attempt =>
        dsimp only
        cases (Provisioner.assignServer cfg api j.creds).2 with
        | ok _ => exact inferInstanceAs (Decidable (_ → _))
        | error _ => exact inferInstanceAs (Decidable (_ ∨ _ → _))
      | refreshing | finished => exact inferInstanceAs (Decidable True)
  | .addClient .. | .startWorker _ | .stopWorker _ | .applyPendingClients _ | .takeInbox _
  | .applyUpdate _ | .tick .. | .activate .. | .sendDue .. | .rxBegin .. | .rxMember ..
  | .rxEnd _ | .pop | .refresh _ | .post | .shutdown | .exit => inferInstanceAs (Decidable True)

end Sys

/-! A token error is answered by a fresh token on the same server. -/

/-- The client ends with the refreshed pair. -/
theorem refreshed_pair_held : ∃ (s : Sys ℚ 1) (c : SimClient ℚ), s.client? 0 0 = some c ∧
    s.lastPair 0 0 = (2, Sample.token 98) ∧
    tokenPair c.creds = s.lastPair 0 0 := by
  have hrun : ((System.exec (System.checked
      (fun s e => decide (s.KeepsPairs Sample.config e)) (Sys.step Sample.platform Sample.config))
      {} (Sample.started ++ Sample.receives Sample.tokenError ++
        [.pop, Sample.refresh { Sample.fresh with authorizedServer := some Sample.server },
          .post] ++ Sample.applies 1)).map fun s : Sys ℚ 1 =>
      ((s.client? 0 0).isSome, s.outstanding 0 0, s.lastPair 0 0)) =
        some (true, [], (2, Sample.token 98)) := by decide +kernel
  obtain ⟨s, hs, hm⟩ := Option.map_eq_some_iff.mp hrun
  simp only [Prod.mk.injEq] at hm
  obtain ⟨c, hc⟩ := Option.isSome_iff_exists.mp hm.1
  have hr : (system Sample.platform Sample.config 1).GReach (Sys.KeepsPairs Sample.config) s :=
    System.GReach.exec (fun _ _ => of_decide_eq_true) (.init rfl) hs
  exact ⟨s, c, hc, hm.2.2, (Sys.newest_pair_held hr hc).2 hm.2.1⟩

/-- A REASSIGN that was pushed while a REFRESH was outstanding: the client ends with
the pair of before the refresh. -/
theorem reassign_overwrites_pair : ∃ (s : Sys ℚ 1) (c : SimClient ℚ),
    (system Sample.platform Sample.config 1).Reach s ∧ s.client? 0 0 = some c ∧
      s.outstanding 0 0 = [] ∧ s.lastPair 0 0 = (2, Sample.token 98) ∧
      tokenPair c.creds = (1, Sample.token 97) := by
  have hrun : ((System.exec (Sys.step Sample.platform Sample.config) {}
      (Sample.started ++ [Sample.sends] ++ Sample.receives [Wire.COMMAND_RECONNECT] ++
        [.pop, Sample.refresh Sample.fresh, Sample.place, .post, .pop, Sample.place, .post] ++
        Sample.applies 2)).map fun s : Sys ℚ 1 =>
      ((s.client? 0 0).map fun c => tokenPair c.creds, s.outstanding 0 0, s.lastPair 0 0)) =
        some (some (1, Sample.token 97), [], (2, Sample.token 98)) := by decide +kernel
  obtain ⟨s, hs, hm⟩ := Option.map_eq_some_iff.mp hrun
  simp only [Prod.mk.injEq] at hm
  obtain ⟨c, hc, hp⟩ := Option.map_eq_some_iff.mp hm.1
  exact ⟨s, c, System.Reach.exec (.init rfl) hs, hc, hm.2.1, hm.2.2, hp⟩

end CksLoadtest.Protocol
