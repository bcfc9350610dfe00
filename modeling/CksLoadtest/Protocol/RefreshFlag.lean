import CksLoadtest.Protocol.Tokens

/-!
# The refresh flag

`refreshRequested` is meant to be set exactly while a REFRESH is outstanding. It is
not touched by a failed update, is cleared by the answer to any request, and is set
without a request by a token error on a client another member has suspended. In runs
without these three it follows the outstanding REFRESH.
-/
namespace CksLoadtest.Protocol

open Lib.Buffer Lib.Transition
open Worker (Core CoreStep isTokenErrorMember pushes)

namespace Sys

variable {K : Type*} {n : Nat}

/-- REFRESH requests of a client that are outstanding. -/
def refreshes (s : Sys K n) (w : Fin n) (i : Nat) : Nat :=
  (s.outstanding w i).countP fun x => x.request.kind = .refresh

/-- SUSPENDED with nothing outstanding: no step of the process wakes the client. -/
def GivenUp (s : Sys K n) (w : Fin n) (i : Nat) (c : SimClient K) : Prop :=
  c.state = .suspended ∧ s.outstanding w i = []

/-- The condition on a step. A token error finds the client not SUSPENDED or the flag
set already; a successful answer to a REASSIGN finds the flag clear; a failed REFRESH
finds the client SUSPENDED and waiting for nothing else. -/
def KeepsFlag (s : Sys K n) : Event K n → Prop
  | .rxMember w _ =>
    match (s.workers w).rx with
    | none => True
    | some (i, walk) =>
      match walk.members, s.client? w i with
      | m :: _, some c =>
        isTokenErrorMember m = true → c.state ≠ .suspended ∨ c.refreshRequested = true
      | _, _ => True
  | .applyUpdate w =>
    match (s.workers w).updates with
    | [] => True
    | u :: _ =>
      match s.client? w u.clientIndex, u.failed, u.request.kind with
      | some c, false, .reassign => c.refreshRequested = false
      | some c, true, .refresh =>
        c.state = .suspended ∧ (s.outstanding w u.clientIndex).length = 1
      | _, _, _ => True
  | _ => True

/-- The same condition on the exchange. -/
def FlagGuard (x : Exchange n) : Label n → Prop
  | .act _ _ mark => ¬ mark
  | .apply w => ∀ u rest c, x.updates w = u :: rest → (x.slots w)[u.clientIndex]? = some c →
      (u.failed = false → u.request.kind = .reassign → c.refreshRequested = false) ∧
      (u.failed = true → u.request.kind = .refresh →
        c.state = .suspended ∧ (x.outstanding w u.clientIndex).length = 1)
  | _ => True

theorem flagGuard_carries : Exchange.Carries (n := n) FlagGuard Session.KeepsFlag where
  refreshed _ _ := trivial
  retry _ _ := trivial
  refresh _ _ _ _ _ _ _ := trivial
  place _ _ _ _ _ _ _ _ _ _ _ := trivial
  act x w i mark v target r hg hs hnone := by
    subst hnone
    generalize hps : (Option.map Session.push (none : Option (ControlRequest n))).toList = ps at hs
    cases hs with
    | activate => rfl
    | ask => simp at hps
    | suspend => simp at hps
    | tokenError => simp at hps
    | markOnly hm => exact absurd hm hg
  apply x w u rest v hg hu hv y ys hy := by
    obtain ⟨c, hc, rfl⟩ := Exchange.view_eq_some hv
    obtain ⟨hok, hbad⟩ := hg u rest c hu hc
    have hhead : y = Item.ofUpdate u := by
      have ho : (x.outstanding w u.clientIndex).head? = some (Item.ofUpdate u) := by
        simp [Exchange.outstanding, hu]
      have hy' : x.outstanding w u.clientIndex = y :: ys := hy
      rw [hy', List.head?_cons] at ho
      exact Option.some.inj ho
    subst hhead
    refine ⟨fun ha hk => hok (Option.some.inj ha) hk, fun ha hk => ?_⟩
    obtain ⟨hs, hl⟩ := hbad (Option.some.inj ha) hk
    have hy' : x.outstanding w u.clientIndex = Item.ofUpdate u :: ys := hy
    rw [hy', List.length_cons] at hl
    exact ⟨hs, List.length_eq_zero_iff.mp (by omega)⟩

variable [Field K] [LinearOrder K] [FloorRing K] {P : Platform K} {cfg : Config K}
  {s s' : Sys K n} {w : Fin n} {i : Nat} {c : SimClient K}

omit [LinearOrder K] [FloorRing K] in
theorem flagGuard_of_keepsFlag (s : Sys K n) (e : Event K n) (h : s.KeepsFlag e) :
    FlagGuard s.exchange (s.label cfg e) := by
  cases e with
  | rxMember w r =>
    simp only [label]
    cases hrx : (s.workers w).rx with
    | none => trivial
    | some p =>
      obtain ⟨i, walk⟩ := p
      simp only [KeepsFlag, hrx] at h
      rintro ⟨m, ms, c, hm, hc, htok, hsusp, hflag⟩
      simp only [hm, hc] at h
      rcases h htok with h | h
      · exact h hsusp
      · simp [hflag] at h
  | applyUpdate w =>
    rintro u rest d hu hd
    have hu' : (s.workers w).updates = u :: rest := hu
    simp only [KeepsFlag, hu'] at h
    obtain ⟨c, hc, rfl⟩ : ∃ c, s.client? w u.clientIndex = some c ∧ Worker.core c = d := by
      simpa [exchange, client?] using hd
    simp only [hc] at h
    constructor
    · intro hf hk
      simp only [hf, hk] at h
      exact h
    · intro hf hk
      simp only [hf, hk] at h
      exact h
  | rxEnd w =>
    simp only [label]
    split
    · exact id
    · trivial
  | refresh api =>
    simp only [label]
    split <;> trivial
  | place api =>
    simp only [label]
    split
    · split <;> trivial
    · trivial
  | activate | sendDue | rxBegin => exact id
  | addClient | startWorker | stopWorker | applyPendingClients | takeInbox | tick | pop | post
  | shutdown | exit => trivial

theorem flag_inv (h : (system P cfg n).GReach KeepsFlag s) (hc : s.client? w i = some c) :
    s.GivenUp w i c ∨ s.refreshes w i = if c.refreshRequested then 1 else 0 := by
  have hx := exchange_reach (H := FlagGuard) P cfg (fun s e => flagGuard_of_keepsFlag s e) h
  have hv : s.exchange.view w i = some ⟨Worker.core c, s.outstanding w i, s.exchange.latest w i,
      s.exchange.failed w i, s.lastPair w i⟩ := by
    rw [Exchange.view, slot_of_client hc]
    rfl
  exact Session.flag_of_reach (Exchange.view_reach flagGuard_carries hx w i hv)

omit [Field K] [LinearOrder K] [FloorRing K] in
/-- What a worker function on a client adds to its outstanding requests. -/
theorem outstanding_commit (s : Sys K n) (w : Fin n) (i : Nat) (o : Worker.Out K) :
    (s.commit w i o).outstanding w i = s.outstanding w i ++
      (requests w i s.hist.pushed.length (pushes o.2)).map Item.queued := by
  unfold outstanding
  rw [exchange_commit, Exchange.outstanding_push, Exchange.requests_isFor, if_pos ⟨rfl, rfl⟩]
  rfl

/-- The client whose datagram worker `w` handles, and the member it handles next. -/
def nextMember (s : Sys K n) (w : Fin n) : Option (Nat × Bytes) :=
  (s.workers w).rx.bind fun p => p.2.members.head?.map fun m => (p.1, m)

omit [Field K] [LinearOrder K] [FloorRing K] in
theorem rxMember_outstanding {r : Worker.Readings} {m : Bytes}
    (hm : s.nextMember w = some (i, m)) (hc : s.client? w i = some c)
    (h : s.rxMember P cfg w r = some s') :
    ∃ signedBundle nowMs, s'.outstanding w i = s.outstanding w i ++
      (requests w i s.hist.pushed.length
        (pushes (Worker.handleMember P cfg signedBundle nowMs r m c).2)).map Item.queued := by
  unfold rxMember at h
  dsimp only at h
  split at h
  · rename_i i' signedBundle nowMs m' ms ok hrx
    obtain ⟨c', hc', rfl⟩ := Option.map_eq_some_iff.mp h
    simp only [nextMember, hrx, Option.bind_some, List.head?_cons, Option.map_some,
      Option.some.injEq, Prod.mk.injEq] at hm
    obtain ⟨rfl, rfl⟩ := hm
    obtain rfl : c = c' := Option.some.inj (hc.symm.trans hc')
    refine ⟨signedBundle, nowMs, ?_⟩
    rw [outstanding_commit]
    congr 1
    have he := exchange_unseen (s := s) (w := w)
      (x := { s.workers w with rx := some (i', ⟨signedBundle, nowMs, ms, ok⟩) }) rfl rfl rfl rfl
    exact congrArg (fun x => x.outstanding w i') he
  · cases h

/-- In runs that keep the flag it says whether a REFRESH is outstanding, there is at
most one, and a token error on an ACTIVE client leaves it with one. -/
theorem flag_follows_refresh (h : (system P cfg n).GReach KeepsFlag s)
    (hc : s.client? w i = some c) :
    (¬ s.GivenUp w i c →
      (c.refreshRequested = true ↔ s.refreshes w i = 1) ∧ s.refreshes w i ≤ 1) ∧
    ∀ r m s', c.state = .active → s.nextMember w = some (i, m) → isTokenErrorMember m = true →
      s.step P cfg (.rxMember w r) = some s' → s'.refreshes w i = 1 := by
  have hinv := flag_inv h hc
  constructor
  · intro hg
    have hcount := hinv.resolve_left hg
    cases hf : c.refreshRequested with
    | true => simp [hcount, hf]
    | false => simp [hcount, hf]
  · intro r m s' hact hm htok hs
    have hcount := hinv.resolve_left fun hg => by simpa [hact] using hg.1
    obtain ⟨signedBundle, nowMs, ho⟩ := rxMember_outstanding hm hc hs
    unfold refreshes at hcount ⊢
    rw [ho, Worker.handleMember_tokenError P cfg signedBundle nowMs r htok (by simp [hact]),
      List.countP_append, hcount]
    cases hf : c.refreshRequested with
    | true => simp [requests]
    | false => simp [requests, Item.queued]

instance (s : Sys K n) : (e : Event K n) → Decidable (s.KeepsFlag e)
  | .rxMember w _ => by
    dsimp only [KeepsFlag]
    cases (s.workers w).rx with
    | none => exact inferInstanceAs (Decidable True)
    | some x =>
      dsimp only
      cases x.2.members with
      | nil => exact inferInstanceAs (Decidable True)
      | cons m _ =>
        cases s.client? w x.1 with
        | none => exact inferInstanceAs (Decidable True)
        | some c => exact inferInstanceAs (Decidable (_ → _ ∨ _))
  | .applyUpdate w => by
    dsimp only [KeepsFlag]
    cases (s.workers w).updates with
    | nil => exact inferInstanceAs (Decidable True)
    | cons u _ =>
      dsimp only
      cases s.client? w u.clientIndex with
      | none => exact inferInstanceAs (Decidable True)
      | some c =>
        cases u.failed <;> cases u.request.kind <;> dsimp only <;> infer_instance
  | .addClient .. | .startWorker _ | .stopWorker _ | .applyPendingClients _ | .takeInbox _
  | .tick .. | .activate .. | .sendDue .. | .rxBegin .. | .rxEnd _ | .pop | .refresh _
  | .place _ | .post | .shutdown | .exit => inferInstanceAs (Decidable True)

end Sys

/-- A token error on the ACTIVE client: the flag is set and one REFRESH is outstanding. -/
theorem flag_follows_token_error : ∃ (s : Sys ℚ 1) (c : SimClient ℚ), s.client? 0 0 = some c ∧
    c.refreshRequested = true ∧ s.refreshes 0 0 = 1 := by
  have hrun : ((System.exec (System.checked (fun s e => decide (s.KeepsFlag e))
      (Sys.step Sample.platform Sample.config)) {}
      (Sample.started ++ Sample.receives Sample.tokenError)).map fun s : Sys ℚ 1 =>
      ((s.client? 0 0).map (·.refreshRequested), (s.outstanding 0 0).length)) =
        some (some true, 1) := by decide +kernel
  obtain ⟨s, hs, hm⟩ := Option.map_eq_some_iff.mp hrun
  simp only [Prod.mk.injEq] at hm
  obtain ⟨c, hc, hf⟩ := Option.map_eq_some_iff.mp hm.1
  have hr : (system Sample.platform Sample.config 1).GReach Sys.KeepsFlag s :=
    System.GReach.exec (fun _ _ => of_decide_eq_true) (.init rfl) hs
  refine ⟨s, c, hc, hf, ?_⟩
  have hng : ¬ s.GivenUp 0 0 c := fun hg => by simp [hg.2] at hm
  exact (((Sys.flag_follows_refresh hr hc).1 hng).1).mp hf

/-- A proactive refresh that fails: the client stays ACTIVE with the flag set and
nothing outstanding, and a token error then asks for nothing. -/
theorem failed_refresh_leaves_flag : ∃ (s : Sys ℚ 1) (c : SimClient ℚ),
    (system Sample.platform Sample.config 1).Reach s ∧ s.client? 0 0 = some c ∧
      ¬ s.GivenUp 0 0 c ∧ c.refreshRequested = true ∧ s.refreshes 0 0 = 0 := by
  have hrun : ((System.exec (Sys.step Sample.platform Sample.config) {}
      (Sample.started ++ [Sample.sends, .pop, Sample.refreshFails, .post] ++ Sample.applies 1 ++
        Sample.receives Sample.tokenError)).map fun s : Sys ℚ 1 =>
      ((s.client? 0 0).map fun c => (c.state, c.refreshRequested), s.outstanding 0 0)) =
        some (some (.active, true), []) := by decide +kernel
  obtain ⟨s, hs, hm⟩ := Option.map_eq_some_iff.mp hrun
  simp only [Prod.mk.injEq] at hm
  obtain ⟨c, hc, hcs⟩ := Option.map_eq_some_iff.mp hm.1
  simp only [Prod.mk.injEq] at hcs
  refine ⟨s, c, System.Reach.exec (.init rfl) hs, hc, ?_, hcs.2, ?_⟩
  · rintro ⟨hsusp, -⟩
    simp [hcs.1] at hsusp
  · simp [Sys.refreshes, hm.2]

end CksLoadtest.Protocol
