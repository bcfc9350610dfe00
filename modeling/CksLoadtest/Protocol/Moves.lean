import CksLoadtest.Control.Turn
import CksLoadtest.Protocol.System
import CksLoadtest.Stats.Window
import CksLoadtest.Worker.Counts

/-!
# What the control thread counts of a request

A request is handled while all other threads run on. None of them touches the job or a counter
of the control thread, so between the pop and the post these counters grow by what the turn of
the control loop raises.
-/
namespace CksLoadtest.Protocol

open Lib.Buffer Lib.Transition

variable {K : Type*} {n : Nat}

namespace Sys

/-- The present value of an event counter. -/
def count (s : Sys K n) (c : Counter) : Nat := s.stats.loadLifetime.count c

/-- The control thread's own state and counters are the same. -/
structure SameControl (s t : Sys K n) : Prop where
  job : t.job = s.job
  legacy : t.legacyRefresh = s.legacyRefresh
  count : ∀ c : Counter, c.ofControl = true → t.count c = s.count c

namespace SameControl

theorem refl (s : Sys K n) : SameControl s s := ⟨rfl, rfl, fun _ _ => rfl⟩

theorem trans {s t u : Sys K n} (h : SameControl s t) (k : SameControl t u) : SameControl s u :=
  ⟨k.job.trans h.job, k.legacy.trans h.legacy, fun c hc => (k.count c hc).trans (h.count c hc)⟩

theorem of_eq {s t : Sys K n} (hj : t.job = s.job) (hl : t.legacyRefresh = s.legacyRefresh)
    (hs : t.stats = s.stats) : SameControl s t :=
  ⟨hj, hl, fun c _ => by rw [Sys.count, hs]; rfl⟩

end SameControl

theorem effect_control {w : Fin n} {i : Nat} {e : Effect K} (he : Worker.foreign e = true)
    (s : Sys K n) : SameControl s (effect w i s e) := by
  refine ⟨by cases e <;> rfl, by cases e <;> rfl, fun c hc => ?_⟩
  cases e with
  | count c' k =>
    have hne : c ≠ c' := by
      rintro rfl
      simp [Worker.foreign, hc] at he
    show (s.stats.fetchAdd k c').loadLifetime.count c = _
    rw [Stats.count_fetchAdd, if_neg hne]
    rfl
  | errorCode | latency | activeClients | suspendedClients => cases c <;> rfl
  | socketOpened | socketClosed | push | send => rfl

theorem effects_control {w : Fin n} {i : Nat} {es : List (Effect K)}
    (he : es.all Worker.foreign = true) (s : Sys K n) :
    SameControl s (es.foldl (effect w i) s) := by
  induction es generalizing s with
  | nil => exact .refl s
  | cons e es ih =>
    rw [List.all_cons, Bool.and_eq_true] at he
    exact (effect_control he.1 s).trans (ih he.2 _)

theorem commit_control {s t : Sys K n} {w : Fin n} {i : Nat} {o : Worker.Out K}
    (ho : Worker.Foreign o) (h : SameControl s t) : SameControl s (t.commit w i o) := by
  have hset : SameControl t (t.setWorker w ((t.workers w).setClient i o.1)) := .of_eq rfl rfl rfl
  exact h.trans (hset.trans (effects_control ho _))

/-- `fetch_add`, counter by counter. -/
theorem tally_count (s : Sys K n) (cs : List Counter) (c : Counter) :
    (s.tally cs).count c = s.count c + cs.count c := by
  have hall : ∀ st : Stats, (cs.foldl (fun st c => st.fetchAdd 1 c) st).loadLifetime.count c =
      st.loadLifetime.count c + cs.count c := by
    induction cs with
    | nil => exact fun _ => rfl
    | cons d cs ih =>
      intro st
      rw [List.foldl_cons, ih, Stats.count_fetchAdd, List.count_cons]
      by_cases hd : c = d
      · subst hd
        simp only [if_true, beq_self_eq_true]
        omega
      · have hd' : (d == c) = false := beq_false_of_ne (Ne.symm hd)
        simp only [hd, hd', if_false, Bool.false_eq_true]
        omega
  exact hall s.stats

end Sys

/-- An event of the control thread's turn. -/
def Event.ofTurn : Event K n → Prop
  | .pop | .refresh _ | .place _ | .post => True
  | _ => False

namespace Sys

variable [Field K] [LinearOrder K] [FloorRing K] (P : Platform K) (cfg : Config K)
  {s s' : Sys K n}

/-- **Frame.** What the other threads do leaves the control thread's state and counters alone. -/
theorem step_control {e : Event K n} (h : s.step P cfg e = some s') (he : ¬ e.ofTurn) :
    SameControl s s' := by
  cases step_cases h with
  | pop | refresh | place | post => exact absurd trivial he
  | addClient | startWorker | stopWorker | applyPendingClients | takeInbox | tick | shutdown
  | exit =>
    exact .of_eq rfl rfl rfl
  | applyUpdate =>
    exact commit_control (Worker.Turn.run_foreign P cfg (.update _) _) (.of_eq rfl rfl rfl)
  | activate =>
    exact commit_control (Worker.Turn.run_foreign P cfg (.activate _ _ _ _) _) (.refl s)
  | sendDue => exact commit_control (Worker.Turn.run_foreign P cfg (.send _ _) _) (.refl s)
  | rxDropped => exact .refl s
  | rxBegin =>
    exact commit_control (Worker.Turn.run_foreign P cfg (.rxBegin _ _ _) _) (.of_eq rfl rfl rfl)
  | rxMember =>
    exact commit_control (Worker.Turn.run_foreign P cfg (.rxMember _ _ _ _) _) (.of_eq rfl rfl rfl)
  | rxEnd =>
    exact commit_control (Worker.Turn.run_foreign P cfg (.rxEnd _) _) (.of_eq rfl rfl rfl)

/-- The state `t` after the events `evs`, while the control thread handles `r`. -/
structure InTurn (s : Sys K n) (r : ControlRequest n) (evs : List (Event K n)) (t : Sys K n)
    (called : Option RefreshApi) (j : Job n) (cs : List Counter) : Prop where
  job : t.job = some j
  turn : Job.Turn cfg s.legacyRefresh r called j cs
  count : ∀ c : Counter, c.ofControl = true → t.count c = s.count c + cs.count c
  calls : ∀ api, .refresh api ∈ evs ↔ called = some api
  legacy : called = none → t.legacyRefresh = s.legacyRefresh

variable {P} {cfg} {r : ControlRequest n} {evs : List (Event K n)} {t t' : Sys K n}
  {called : Option RefreshApi} {j : Job n} {cs : List Counter}

/-- **Step lemma.** Whatever happens before the post, the turn goes on. -/
theorem InTurn.step (h : InTurn cfg s r evs t called j cs) {e : Event K n}
    (hs : t.step P cfg e = some t') (he : e ≠ .post) :
    ∃ called' j' cs', InTurn cfg s r (evs ++ [e]) t' called' j' cs' := by
  have hcalls : (∀ api, e ≠ .refresh api) →
      ∀ api, .refresh api ∈ evs ++ [e] ↔ called = some api := by
    intro hne api
    rw [List.mem_append, List.mem_singleton, ← h.calls]
    exact or_iff_left fun heq => hne api heq.symm
  by_cases hturn : e.ofTurn
  · cases e with
    | pop =>
      have hsome : t.exited = true ∨ t.job.isSome = true := .inr (by rw [h.job]; rfl)
      obtain ⟨hnone, -⟩ := Option.ite_none_left_eq_some.mp hs
      exact absurd hsome hnone
    | refresh api =>
      simp only [Sys.step, h.job] at hs
      obtain ⟨hp, ⟨⟩⟩ := Option.ite_none_right_eq_some.mp hs
      obtain ⟨hk, rfl, rfl, rfl⟩ := h.turn.refreshing hp
      have hlegacy : t.legacyRefresh = s.legacyRefresh := h.legacy rfl
      have hjob : (t.refresh cfg api (Job.start r)).job =
          some (Job.entry cfg s.legacyRefresh r (some api)).1 := by
        rw [← hlegacy]
        unfold Sys.refresh
        dsimp only
        split <;> rfl
      have hstats : ∀ c, (t.refresh cfg api (Job.start r)).count c =
          (t.tally (Job.entry cfg s.legacyRefresh r (some api)).2).count c := by
        intro c
        rw [← hlegacy]
        unfold Sys.refresh
        dsimp only
        split <;> rfl
      refine ⟨some api, _, _, hjob, .refresh api hk, ?_, ?_,
        fun h => absurd h (Option.some_ne_none api)⟩
      · intro c hc
        rw [hstats, tally_count, h.count c hc]
        rfl
      · intro api'
        have hnone : .refresh api' ∉ evs := by
          intro hmem
          cases (h.calls api').mp hmem
        rw [List.mem_append, or_iff_right hnone, List.mem_singleton, Event.refresh.injEq,
          Option.some.injEq]
        exact eq_comm
    | place api =>
      simp only [Sys.step, h.job] at hs
      split at hs
      · rename_i attempt hp
        obtain rfl := Option.some.inj hs
        have hother : ∀ api', (.place api : Event K n) ≠ .refresh api' := by
          intro api' heq
          cases heq
        refine ⟨called, _, _, rfl, h.turn.place hp t.shutdown api, ?_, hcalls hother, h.legacy⟩
        intro c hc
        have htally := tally_count t (j.place cfg t.shutdown attempt api).2 c
        have hcount := h.count c hc
        rw [List.count_append, ← Nat.add_assoc, ← hcount, ← htally]
        rfl
      · cases hs
    | post => exact absurd rfl he
    | _ => exact hturn.elim
  · have hsame := step_control P cfg hs hturn
    refine ⟨called, j, cs, hsame.job.trans h.job, h.turn, ?_, hcalls ?_, ?_⟩
    · intro c hc
      rw [hsame.count c hc, h.count c hc]
    · rintro api rfl
      exact hturn trivial
    · intro hnone
      rw [hsame.legacy, h.legacy hnone]

/-- **Run lemma.** -/
theorem InTurn.run {evs' : List (Event K n)} (h : InTurn cfg s r evs t called j cs)
    (hs : System.exec (Sys.step P cfg) t evs' = some t') (he : .post ∉ evs') :
    ∃ called' j' cs', InTurn cfg s r (evs ++ evs') t' called' j' cs' := by
  induction evs' generalizing evs t called j cs with
  | nil =>
    obtain rfl := Option.some.inj hs
    exact ⟨called, j, cs, by rwa [List.append_nil]⟩
  | cons e evs' ih =>
    obtain ⟨u, hu, hs⟩ := Option.bind_eq_some_iff.mp hs
    rw [List.mem_cons, not_or] at he
    obtain ⟨called', j', cs', h'⟩ := h.step hu (Ne.symm he.1)
    rw [List.append_cons]
    exact ih h' hs he.2

theorem InTurn.pop {rest : List (ControlRequest n)} (hq : s.queue = r :: rest)
    (hs : s.step P cfg .pop = some t) : InTurn cfg s r [] t none (Job.start r) [] := by
  obtain ⟨-, hs⟩ := Option.ite_none_left_eq_some.mp hs
  rw [hq] at hs
  obtain rfl := Option.some.inj hs
  refine ⟨rfl, .start, fun _ _ => rfl, fun api => ?_, fun _ => rfl⟩
  simp

end Sys

/-- The reply `refreshToken` takes authorizes the token on another server than the request's. -/
def AuthorizedElsewhere (legacyRefresh : Bool) (api : RefreshApi) (c : ClientCredentials) : Prop :=
  ∃ fresh a, Provisioner.refreshReply legacyRefresh api c = .ok fresh ∧
    fresh.address? = some a ∧ a ≠ c.address

/-- The request asks for a fresh token and its `refreshToken` call returned one. -/
def TokenRefreshed (cfg : Config K) (legacyRefresh : Bool) (r : ControlRequest n)
    (evs : List (Event K n)) : Prop :=
  r.kind = .refresh ∧ ∃ api, .refresh api ∈ evs ∧
    (Provisioner.refreshToken cfg legacyRefresh api r.creds).2.2.isOk = true

/-- What the counters are said to count of the request `r`, handled from `s` to `t` by the events
`evs` and answered with `creds`. -/
structure MovesCounted (cfg : Config K) (s : Sys K n) (r : ControlRequest n)
    (evs : List (Event K n)) (t : Sys K n) (creds : ClientCredentials) : Prop where
  reassignments : t.stats.reassignments = s.stats.reassignments +
    if r.kind = .reassign ∨ creds.address ≠ r.creds.address then 1 else 0
  kept : s.stats.refreshesKeptServer < t.stats.refreshesKeptServer →
    creds.address = r.creds.address
  refreshes :
    (t.stats.tokenRefreshes = s.stats.tokenRefreshes + 1 ∧
        TokenRefreshed cfg s.legacyRefresh r evs) ∨
      (t.stats.tokenRefreshes = s.stats.tokenRefreshes ∧
        ¬ TokenRefreshed cfg s.legacyRefresh r evs)

section

variable [Field K] [LinearOrder K] [FloorRing K] {P : Platform K} {cfg : Config K}

/-- **When the control thread counts moves right.** A request is popped, whatever happens before
its answer is posted, and it is answered with success: the counters say what they should exactly
when the refresh reply, if there was one, does not authorize the token on another server. -/
theorem movesCounted_iff {s s₁ t : Sys K n} {r : ControlRequest n} {rest : List (ControlRequest n)}
    {evs : List (Event K n)} {j : Job n} (hq : s.queue = r :: rest)
    (hpop : s.step P cfg .pop = some s₁)
    (hrun : System.exec (Sys.step P cfg) s₁ evs = some t) (hevs : .post ∉ evs)
    (hjob : t.job = some j) (hdone : j.phase = .finished false) :
    MovesCounted cfg s r evs t (j.update false).creds ↔
      ¬ ∃ api, .refresh api ∈ evs ∧ AuthorizedElsewhere s.legacyRefresh api r.creds := by
  obtain ⟨called, j', cs, hturn⟩ := (Sys.InTurn.pop hq hpop).run hrun hevs
  rw [List.nil_append] at hturn
  obtain rfl : j' = j := Option.some.inj (hturn.job.symm.trans hjob)
  have hmoves : t.stats.reassignments = s.stats.reassignments + cs.count .reassignments :=
    hturn.count .reassignments rfl
  have hkept : t.stats.refreshesKeptServer =
      s.stats.refreshesKeptServer + cs.count .refreshesKeptServer :=
    hturn.count .refreshesKeptServer rfl
  have hrefreshes : t.stats.tokenRefreshes = s.stats.tokenRefreshes + cs.count .tokenRefreshes :=
    hturn.count .tokenRefreshes rfl
  rcases hturn.turn.succeeded hdone with ⟨hk, rfl, rfl⟩ |
      ⟨api, fresh, hk, rfl, hreply, hok, ⟨haddress, rfl⟩ | ⟨hnone, rfl⟩⟩
  · -- a REASSIGN: no refresh was called
    refine iff_of_true ⟨?_, ?_, .inr ⟨hrefreshes, ?_⟩⟩ ?_
    · rw [hmoves, if_pos (.inl hk)]
      rfl
    · intro hlt
      rw [hkept] at hlt
      exact absurd hlt (lt_irrefl _)
    · rintro ⟨hrefresh, -⟩
      cases hk.symm.trans hrefresh
    · rintro ⟨api, hmem, -⟩
      cases (hturn.calls api).mp hmem
  · -- the token is authorized on some server, and the client is sent there
    have hcalled : .refresh api ∈ evs := (hturn.calls api).mpr rfl
    have hgrew : s.stats.refreshesKeptServer < t.stats.refreshesKeptServer := by
      rw [hkept]
      exact Nat.lt_succ_self _
    constructor
    · rintro hcounted ⟨api', hmem, fresh', a, hreply', ha, hne⟩
      obtain rfl := Option.some.inj ((hturn.calls api').mp hmem)
      obtain rfl := Except.ok.inj (hreply.symm.trans hreply')
      obtain rfl := Option.some.inj (haddress.symm.trans ha)
      exact hne (hcounted.kept hgrew)
    · intro hnot
      have hsame : (j'.update false).creds.address = r.creds.address := by
        by_contra hne
        exact hnot ⟨api, hcalled, fresh, _, hreply, haddress, hne⟩
      refine ⟨?_, fun _ => hsame, .inl ⟨hrefreshes, hk, api, hcalled, hok⟩⟩
      have hcond : ¬ (r.kind = .reassign ∨
          (j'.update false).creds.address ≠ r.creds.address) := by
        rw [hk, hsame]
        simp
      rw [hmoves, if_neg hcond]
      rfl
  · -- the token is authorized nowhere, and the client was placed
    have hcalled : .refresh api ∈ evs := (hturn.calls api).mpr rfl
    refine iff_of_true ⟨?_, ?_, .inl ⟨?_, hk, api, hcalled, hok⟩⟩ ?_
    · rw [hmoves]
      have hkind : ¬ r.kind = .reassign := by
        rw [hk]
        exact Kind.noConfusion
      simp only [hkind, false_or]
      show _ = _ + if j'.creds.address ≠ r.creds.address then 1 else 0
      split <;> rfl
    · intro hlt
      rw [hkept] at hlt
      have hcount : (Counter.tokenRefreshes :: if j'.creds.address ≠ r.creds.address then
          [Counter.reassignments] else []).count .refreshesKeptServer = 0 := by
        split <;> rfl
      rw [hcount] at hlt
      exact absurd hlt (lt_irrefl _)
    · rw [hrefreshes]
      split <;> rfl
    · rintro ⟨api', hmem, fresh', a, hreply', ha, -⟩
      obtain rfl := Option.some.inj ((hturn.calls api').mp hmem)
      obtain rfl := Except.ok.inj (hreply.symm.trans hreply')
      cases hnone.symm.trans ha

end

namespace Sample

/-- The client asks for a fresh token, and the API authorizes it on `server`: the process before
the request is popped, after it, and when it is answered. -/
def refreshedOn (server : ServerReply) : Option (Sys ℚ 1 × Sys ℚ 1 × Sys ℚ 1) :=
  (System.exec (Sys.step platform config) {} (started ++ [sends])).bind fun s =>
    (s.step platform config .pop).bind fun s₁ =>
      (System.exec (Sys.step platform config) s₁
        [refresh { fresh with authorizedServer := some server }]).map fun t => (s, s₁, t)

theorem refreshedOn_runs {server : ServerReply} {s s₁ t : Sys ℚ 1}
    (h : refreshedOn server = some (s, s₁, t)) :
    (system platform config 1).Reach s ∧ s.step platform config .pop = some s₁ ∧
      System.exec (Sys.step platform config) s₁
        [refresh { fresh with authorizedServer := some server }] = some t := by
  obtain ⟨s', hs, h⟩ := Option.bind_eq_some_iff.mp h
  obtain ⟨s₁', hpop, h⟩ := Option.bind_eq_some_iff.mp h
  obtain ⟨t', hrun, h⟩ := Option.map_eq_some_iff.mp h
  cases h
  exact ⟨System.Reach.exec (.init rfl) hs, hpop, hrun⟩

def elsewhere : ServerReply := { ip4 := some "10.0.0.2", clientPort := some 7000 }

/-- Both refresh mutations answer alike. -/
theorem refreshReply_same (legacyRefresh : Bool) (reply : RefreshReply) (now : Int)
    (c : ClientCredentials) :
    Provisioner.refreshReply legacyRefresh
      { current := fun _ => .ok reply, legacy := fun _ => .ok reply, now := now } c =
        .ok reply := by
  unfold Provisioner.refreshReply
  split <;> rfl

end Sample

/-- A refresh whose reply keeps the client where it is. -/
theorem kept_server_counted : ∃ (s t : Sys ℚ 1) (r : ControlRequest 1) (j : Job 1),
    (system Sample.platform Sample.config 1).Reach s ∧ s.queue = [r] ∧ r.kind = .refresh ∧
      t.stats.refreshesKeptServer = s.stats.refreshesKeptServer + 1 ∧
      MovesCounted Sample.config s r
        [Sample.refresh { Sample.fresh with authorizedServer := some Sample.server }] t
        (j.update false).creds := by
  have hrun : ((Sample.refreshedOn Sample.server).map fun p =>
      (p.1.queue.map fun r => (r.kind, r.creds.address), p.2.2.job.map (·.phase))) =
        some ([(.refresh, ("10.0.0.1", 7000))], some (.finished false)) := by decide +kernel
  have hcounts : ((Sample.refreshedOn Sample.server).map fun p =>
      (p.1.stats.refreshesKeptServer, p.2.2.stats.refreshesKeptServer)) = some (0, 1) := by
    decide +kernel
  obtain ⟨⟨s, s₁, t⟩, h, hm⟩ := Option.map_eq_some_iff.mp hrun
  obtain ⟨hqueue, hphase⟩ := Prod.mk.inj hm
  obtain ⟨r, hr, hrequest⟩ := List.map_eq_singleton_iff.mp hqueue
  obtain ⟨hk, haddress⟩ := Prod.mk.inj hrequest
  obtain ⟨j, hj, hp⟩ := Option.map_eq_some_iff.mp hphase
  obtain ⟨hreach, hpop, hexec⟩ := Sample.refreshedOn_runs h
  rw [h] at hcounts
  obtain ⟨hkept, hkept'⟩ := Prod.mk.inj (Option.some.inj hcounts)
  refine ⟨s, t, r, j, hreach, hr, hk, by rw [hkept, hkept'],
    (movesCounted_iff hr hpop hexec (by simp [Sample.refresh]) hj hp).mpr ?_⟩
  rintro ⟨api, hmem, fresh, a, hreply, ha, hne⟩
  cases List.mem_singleton.mp hmem
  rw [Sample.refreshReply_same] at hreply
  obtain rfl := Except.ok.inj hreply
  have hserver : some a = some ("10.0.0.1", 7000) := ha.symm.trans (by decide +kernel)
  exact hne ((Option.some.inj hserver).trans haddress.symm)

/-- A refresh whose reply moves the client to 10.0.0.2: it counts as one that kept its server,
and as no reassignment. -/
theorem moved_counted_as_kept : ∃ (s s₁ t : Sys ℚ 1) (r : ControlRequest 1) (j : Job 1),
    (system Sample.platform Sample.config 1).Reach s ∧ s.queue = [r] ∧
      s.step Sample.platform Sample.config .pop = some s₁ ∧
      System.exec (Sys.step Sample.platform Sample.config) s₁
        [Sample.refresh { Sample.fresh with authorizedServer := some Sample.elsewhere }] = some t ∧
      t.job = some j ∧ j.phase = .finished false ∧ r.creds.address = ("10.0.0.1", 7000) ∧
      (j.update false).creds.address = ("10.0.0.2", 7000) ∧
      t.stats.reassignments = s.stats.reassignments ∧
      t.stats.refreshesKeptServer = s.stats.refreshesKeptServer + 1 ∧
      ¬ MovesCounted Sample.config s r
        [Sample.refresh { Sample.fresh with authorizedServer := some Sample.elsewhere }] t
        (j.update false).creds := by
  have hrun : ((Sample.refreshedOn Sample.elsewhere).map fun p =>
      (p.1.queue.map fun r => r.creds.address,
        p.2.2.job.map fun j => (j.phase, j.creds.address))) =
        some ([("10.0.0.1", 7000)], some (.finished false, ("10.0.0.2", 7000))) := by
    decide +kernel
  have hcounts : ((Sample.refreshedOn Sample.elsewhere).map fun p =>
      [p.1.stats.reassignments, p.1.stats.refreshesKeptServer, p.2.2.stats.reassignments,
        p.2.2.stats.refreshesKeptServer]) = some [0, 0, 0, 1] := by
    decide +kernel
  obtain ⟨⟨s, s₁, t⟩, h, hm⟩ := Option.map_eq_some_iff.mp hrun
  obtain ⟨haddresses, hjob⟩ := Prod.mk.inj hm
  rw [h] at hcounts
  simp only [Option.map_some, Option.some.injEq, List.cons.injEq, and_true] at hcounts
  obtain ⟨hmoves, hkept, hmoves', hkept'⟩ := hcounts
  obtain ⟨r, hr, haddress⟩ := List.map_eq_singleton_iff.mp haddresses
  obtain ⟨j, hj, hp⟩ := Option.map_eq_some_iff.mp hjob
  obtain ⟨hphase, hnew⟩ := Prod.mk.inj hp
  obtain ⟨hreach, hpop, hexec⟩ := Sample.refreshedOn_runs h
  have hgrew : t.stats.refreshesKeptServer = s.stats.refreshesKeptServer + 1 := by
    rw [hkept, hkept']
  refine ⟨s, s₁, t, r, j, hreach, hr, hpop, hexec, hj, hphase, haddress, hnew,
    hmoves'.trans hmoves.symm, hgrew, ?_⟩
  intro hcounted
  have hsame := hcounted.kept (by rw [hgrew]; exact Nat.lt_succ_self _)
  rw [haddress] at hsame
  exact absurd (hnew.symm.trans hsame) (by decide)

end CksLoadtest.Protocol
