import CksLoadtest.Control.Loop

/-!
# A whole turn of the control loop

The refresh, if there is one, and any number of placement attempts. What the counters of the
control thread say of a turn is settled here: which reply `refreshToken` takes, where the client
was before and where it is after.
-/
namespace CksLoadtest

/-- The server a client is on. -/
def ClientCredentials.address (c : ClientCredentials) : String × UInt16 :=
  (c.serverIp4, c.serverPort)

/-- The server a refresh reply authorizes the token on, decoded. -/
def RefreshReply.address? (fresh : RefreshReply) : Option (String × UInt16) :=
  match fresh.authorizedServer with
  | some ⟨some ip4, some port⟩ => some (ip4, UInt16.ofInt port)
  | _ => none

namespace Provisioner

variable {K : Type*} (cfg : Config K)

/-- The reply `refreshToken` takes the fresh token from. -/
def refreshReply (legacyRefresh : Bool) (api : RefreshApi) (c : ClientCredentials) :
    Except GraphQLError RefreshReply :=
  if ¬ legacyRefresh ∧ c.serverIp4 ≠ "" then
    match requestWithRetry api.current with
    | .ok fresh => .ok fresh
    | .error e => if predatesCurrentServer e then requestWithRetry api.legacy else .error e
  else requestWithRetry api.legacy

theorem refreshToken_eq (legacyRefresh : Bool) (api : RefreshApi) (c : ClientCredentials) :
    (refreshToken cfg legacyRefresh api c).2 =
      match refreshReply legacyRefresh api c with
      | .error e => (c, .error (.graphql e))
      | .ok fresh => installRefresh cfg api.now fresh c := by
  have old : ∀ l : Bool, (match requestWithRetry api.legacy with
      | .error e => (l, c, Except.error (Thrown.graphql e))
      | .ok fresh => (l, installRefresh cfg api.now fresh c)).2 =
        match requestWithRetry api.legacy with
        | .error e => (c, .error (.graphql e))
        | .ok fresh => installRefresh cfg api.now fresh c := by
    intro l
    cases requestWithRetry api.legacy <;> rfl
  unfold refreshToken refreshReply
  dsimp only
  split
  · cases requestWithRetry api.current with
    | ok fresh => rfl
    | error e =>
      dsimp only
      split
      · exact old true
      · rfl
  · exact old legacyRefresh

theorem placeOn_ok {now : Int} {server : ServerReply} {c c' : ClientCredentials}
    (h : placeOn cfg now server c = (c', .ok ())) :
    ∃ ip4 port, server = ⟨some ip4, some port⟩ ∧ c'.address = (ip4, UInt16.ofInt port) := by
  obtain ⟨ip4, port⟩ := server
  cases ip4 with
  | none => cases (Prod.mk.inj h).2
  | some ip4 =>
    cases port with
    | none => cases (Prod.mk.inj h).2
    | some port =>
      obtain ⟨rfl, -⟩ := Prod.mk.inj h
      exact ⟨ip4, port, rfl, rfl⟩

/-- **What a refresh that returns leaves of the address**: it is the authorized one, or it was
not touched. -/
theorem installRefresh_ok {now : Int} {fresh : RefreshReply} {c c' : ClientCredentials}
    {kept : Bool} (h : installRefresh cfg now fresh c = (c', .ok kept)) :
    if kept then fresh.address? = some c'.address
    else fresh.address? = none ∧ c'.address = c.address := by
  obtain ⟨token, id, expires, authorized⟩ := fresh
  unfold installRefresh at h
  cases token with
  | none => cases (Prod.mk.inj h).2
  | some token =>
    cases id with
    | none => cases (Prod.mk.inj h).2
    | some id =>
      cases expires with
      | none => cases (Prod.mk.inj h).2
      | some expires =>
        cases authorized with
        | none =>
          obtain ⟨rfl, hk⟩ := Prod.mk.inj h
          obtain rfl := Except.ok.inj hk
          exact ⟨rfl, rfl⟩
        | some server =>
          dsimp only at h
          obtain ⟨hc, hk⟩ := Prod.mk.inj h
          generalize hp : placeOn cfg now server { c with
            appToken := token, gameTokenId := id, tokenExpiresAt := expires } = placed at hc hk
          obtain ⟨d, result⟩ := placed
          cases result with
          | error e => cases hk
          | ok u =>
            obtain rfl := Except.ok.inj hk
            obtain ⟨ip4, port, rfl, haddress⟩ := placeOn_ok cfg hp
            obtain rfl := hc
            exact congrArg some haddress.symm

theorem refreshToken_ok {legacyRefresh : Bool} {api : RefreshApi} {c c' : ClientCredentials}
    {kept : Bool} (h : (refreshToken cfg legacyRefresh api c).2 = (c', .ok kept)) :
    ∃ fresh, refreshReply legacyRefresh api c = .ok fresh ∧
      if kept then fresh.address? = some c'.address
      else fresh.address? = none ∧ c'.address = c.address := by
  rw [refreshToken_eq] at h
  cases hr : refreshReply legacyRefresh api c with
  | error e =>
    rw [hr] at h
    cases (Prod.mk.inj h).2
  | ok fresh =>
    rw [hr] at h
    exact ⟨fresh, rfl, installRefresh_ok cfg h⟩

end Provisioner

namespace Job

variable {K : Type*} {n : Nat} (cfg : Config K)

/-- The job where the placement loop begins, and what was counted up to there: `api` is the
refresh that was called, if one was. -/
def entry (legacyRefresh : Bool) (r : ControlRequest n) : Option RefreshApi → Job n × List Counter
  | none => (start r, [])
  | some api => ((start r).refresh cfg legacyRefresh api).2

/-- A turn so far: the refresh it called, the job, and the counters it raised in order. -/
inductive Turn (legacyRefresh : Bool) (r : ControlRequest n) :
    Option RefreshApi → Job n → List Counter → Prop
  | start : Turn legacyRefresh r none (start r) []
  | refresh (api : RefreshApi) (hr : r.kind = .refresh) :
      Turn legacyRefresh r (some api) (entry cfg legacyRefresh r (some api)).1
        (entry cfg legacyRefresh r (some api)).2
  | place {called : Option RefreshApi} {j : Job n} {cs : List Counter} {attempt : Nat}
      (h : Turn legacyRefresh r called j cs) (hp : j.phase = .placing attempt) (isShutdown : Bool)
      (api : AssignApi) :
      Turn legacyRefresh r called (j.place cfg isShutdown attempt api).1
        (cs ++ (j.place cfg isShutdown attempt api).2)

/-- The address the placement is compared with. -/
def previous (j : Job n) : String × UInt16 := (j.previousIp4, j.previousPort)

/-- How far the placement of a job is, and what was counted with it. -/
inductive Placed (kind : Kind) (previous : String × UInt16) (cs : List Counter) (j : Job n) :
    List Counter → Prop
  | trying {attempt : Nat} (hp : j.phase = .placing attempt) : Placed kind previous cs j cs
  | done (hp : j.phase = .finished false) :
      Placed kind previous cs j
        (cs ++ if kind = .reassign ∨ j.creds.address ≠ previous then [.reassignments] else [])
  | failed (hp : j.phase = .finished true) : Placed kind previous cs j (cs ++ [.controlFailures])

variable {cfg} {r : ControlRequest n} {legacyRefresh : Bool} {called : Option RefreshApi}
  {j : Job n} {cs : List Counter}

theorem not_refresh_iff {k : Kind} : k ≠ .refresh ↔ k = .reassign := by
  cases k <;> simp

theorem Placed.append {kind : Kind} {previous : String × UInt16} {cs' : List Counter}
    (h : Placed kind previous [] j cs') : Placed kind previous cs j (cs ++ cs') := by
  cases h with
  | trying hp =>
    rw [List.append_nil]
    exact .trying hp
  | done hp =>
    rw [List.nil_append]
    exact .done hp
  | failed hp => exact .failed hp

theorem Placed.counted {kind : Kind} {previous : String × UInt16} {cs' : List Counter}
    {attempt : Nat} (h : Placed kind previous cs j cs') (hp : j.phase = .placing attempt) :
    cs' = cs := by
  cases h with
  | trying => rfl
  | done hd => cases hp.symm.trans hd
  | failed hf => cases hp.symm.trans hf

/-- **What an attempt counts**: nothing while it goes on, a move against the address taken
before the loop when it succeeds. -/
theorem place_spec (cfg : Config K) (isShutdown : Bool) (attempt : Nat) (api : AssignApi)
    (j : Job n) :
    (j.place cfg isShutdown attempt api).1.request = j.request ∧
      (j.place cfg isShutdown attempt api).1.previous = j.previous ∧
      Placed j.request.kind j.previous [] (j.place cfg isShutdown attempt api).1
        (j.place cfg isShutdown attempt api).2 := by
  unfold place
  rcases Provisioner.assignServer cfg api j.creds with ⟨creds, result⟩
  cases result with
  | ok u =>
    refine ⟨rfl, rfl, ?_⟩
    have hmoved : (j.request.kind ≠ .refresh ∨
        decide (creds.serverIp4 ≠ j.previousIp4 ∨ creds.serverPort ≠ j.previousPort) = true) ↔
        (j.request.kind = .reassign ∨ creds.address ≠ j.previous) := by
      rw [not_refresh_iff, decide_eq_true_iff, ClientCredentials.address, previous]
      simp only [ne_eq, Prod.mk.injEq, not_and_or]
    dsimp only
    simp only [hmoved]
    exact .done rfl
  | error e =>
    dsimp only
    split
    · exact ⟨rfl, rfl, .failed rfl⟩
    · exact ⟨rfl, rfl, .trying rfl⟩

/-- A turn is at its entry, or its placement is compared with the address at its entry. -/
theorem Turn.placed (h : Turn cfg legacyRefresh r called j cs) :
    j.request = r ∧ j.previous = (entry cfg legacyRefresh r called).1.previous ∧
      (called.isSome → r.kind = .refresh) ∧
      (j = (entry cfg legacyRefresh r called).1 ∧ cs = (entry cfg legacyRefresh r called).2 ∨
        (∃ k, (entry cfg legacyRefresh r called).1.phase = .placing k) ∧
          Placed r.kind (entry cfg legacyRefresh r called).1.previous
            (entry cfg legacyRefresh r called).2 j cs) := by
  induction h with
  | start => exact ⟨rfl, rfl, fun h => absurd h Bool.false_ne_true, .inl ⟨rfl, rfl⟩⟩
  | refresh api hr =>
    refine ⟨?_, rfl, fun _ => hr, .inl ⟨rfl, rfl⟩⟩
    obtain ⟨creds, -, ⟨kept, hj⟩ | hj⟩ := (Job.start r).refresh_cases cfg legacyRefresh api
    · exact congrArg Job.request hj
    · exact congrArg Job.request hj
  | @place called j cs attempt _ hp isShutdown api ih =>
    obtain ⟨hrequest, hprevious, hcalled, hentry⟩ := ih
    obtain ⟨hrequest', hprevious', hplaced⟩ := place_spec cfg isShutdown attempt api j
    refine ⟨hrequest'.trans hrequest, hprevious'.trans hprevious, hcalled, .inr ?_⟩
    rw [hrequest, hprevious] at hplaced
    rcases hentry with ⟨hj, hcs⟩ | ⟨hphase, hsofar⟩
    · exact ⟨⟨attempt, hj ▸ hp⟩, hcs ▸ hplaced.append⟩
    · rw [hsofar.counted hp]
      exact ⟨hphase, hplaced.append⟩

/-- Only a REFRESH that has not called yet is refreshing. -/
theorem Turn.refreshing (h : Turn cfg legacyRefresh r called j cs) (hp : j.phase = .refreshing) :
    r.kind = .refresh ∧ called = none ∧ j = Job.start r ∧ cs = [] := by
  cases h with
  | start =>
    refine ⟨?_, rfl, rfl, rfl⟩
    by_contra hr
    have hphase : (Job.start r).phase = .placing 1 := if_neg hr
    cases hp.symm.trans hphase
  | refresh api hr =>
    obtain ⟨creds, -, ⟨kept, hj⟩ | hj⟩ := (Job.start r).refresh_cases cfg legacyRefresh api
    · have hphase := hp.symm.trans (congrArg Job.phase hj)
      cases kept <;> cases hphase
    · cases hp.symm.trans (congrArg Job.phase hj)
  | @place _ j _ attempt _ _ isShutdown api =>
    obtain ⟨creds, -, -, hj | hj | ⟨-, hj⟩⟩ := j.place_cases cfg isShutdown attempt api
    · cases hp.symm.trans (congrArg Job.phase hj)
    · cases hp.symm.trans (congrArg Job.phase hj)
    · cases hp.symm.trans (congrArg Job.phase hj)

theorem entry_refresh_ok {api : RefreshApi} {c' : ClientCredentials} {kept : Bool}
    (h : (Provisioner.refreshToken cfg legacyRefresh api r.creds).2 = (c', .ok kept)) :
    entry cfg legacyRefresh r (some api) =
      ({ start r with
          creds := c'
          phase := if kept then .finished false else .placing 1
          previousIp4 := c'.serverIp4
          previousPort := c'.serverPort
          refreshed := true },
        .tokenRefreshes :: if kept then [.refreshesKeptServer] else []) := by
  simp only [entry, refresh, start_creds]
  rcases hr : Provisioner.refreshToken cfg legacyRefresh api r.creds with ⟨legacy, creds, result⟩
  rw [hr] at h
  obtain ⟨rfl, rfl⟩ := Prod.mk.inj h
  rfl

theorem entry_refresh_error {api : RefreshApi} {c' : ClientCredentials} {e : Thrown}
    (h : (Provisioner.refreshToken cfg legacyRefresh api r.creds).2 = (c', .error e)) :
    (entry cfg legacyRefresh r (some api)).1.phase = .finished true := by
  simp only [entry, refresh, start_creds]
  rcases hr : Provisioner.refreshToken cfg legacyRefresh api r.creds with ⟨legacy, creds, result⟩
  rw [hr] at h
  obtain ⟨rfl, rfl⟩ := Prod.mk.inj h
  rfl

/-- Only the phase decides whether a turn is over: at its entry, or after a placement. -/
theorem Turn.done (h : Turn cfg legacyRefresh r called j cs) (hp : j.phase = .finished false) :
    (j = (entry cfg legacyRefresh r called).1 ∧ cs = (entry cfg legacyRefresh r called).2) ∨
      (∃ k, (entry cfg legacyRefresh r called).1.phase = .placing k) ∧
        cs = (entry cfg legacyRefresh r called).2 ++
          if r.kind = .reassign ∨
              j.creds.address ≠ (entry cfg legacyRefresh r called).1.previous then
            [.reassignments] else [] := by
  obtain ⟨-, -, -, hentry | ⟨hk, hplaced⟩⟩ := h.placed
  · exact .inl hentry
  · cases hplaced with
    | trying ht => cases hp.symm.trans ht
    | done => exact .inr ⟨hk, rfl⟩
    | failed hf => cases hp.symm.trans hf

/-- **A turn that succeeded.** A REASSIGN was placed; a REFRESH got a fresh token, and stayed on
the server its reply authorized or was placed and compared with where it had been. -/
theorem Turn.succeeded (h : Turn cfg legacyRefresh r called j cs) (hp : j.phase = .finished false) :
    (r.kind = .reassign ∧ called = none ∧ cs = [.reassignments]) ∨
      ∃ api fresh, r.kind = .refresh ∧ called = some api ∧
        Provisioner.refreshReply legacyRefresh api r.creds = .ok fresh ∧
        (Provisioner.refreshToken cfg legacyRefresh api r.creds).2.2.isOk = true ∧
        ((fresh.address? = some j.creds.address ∧ cs = [.tokenRefreshes, .refreshesKeptServer]) ∨
          fresh.address? = none ∧ cs = .tokenRefreshes ::
            if j.creds.address ≠ r.creds.address then [.reassignments] else []) := by
  have hcalled := h.placed.2.2.1
  have hdone := h.done hp
  cases called with
  | none =>
    cases hk : r.kind with
    | refresh =>
      -- without its refresh such a turn has not got anywhere
      have hphase : (Job.start r).phase = .refreshing := if_pos hk
      rcases hdone with ⟨hj, -⟩ | ⟨⟨k, hplacing⟩, -⟩
      · rw [hj] at hp
        cases hphase.symm.trans hp
      · cases hphase.symm.trans hplacing
    | reassign =>
      have hphase : (Job.start r).phase = .placing 1 := if_neg (by rw [hk]; exact Kind.noConfusion)
      rcases hdone with ⟨hj, -⟩ | ⟨-, hcs⟩
      · rw [hj] at hp
        cases hphase.symm.trans hp
      · rw [if_pos (.inl hk)] at hcs
        exact .inl ⟨rfl, rfl, hcs⟩
  | some api =>
    have hk := hcalled rfl
    rcases hr : Provisioner.refreshToken cfg legacyRefresh api r.creds with ⟨legacy, creds, result⟩
    cases result with
    | error e =>
      have hphase := entry_refresh_error (congrArg Prod.snd hr)
      rcases hdone with ⟨hj, -⟩ | ⟨⟨k, hplacing⟩, -⟩
      · rw [hj] at hp
        cases hphase.symm.trans hp
      · cases hphase.symm.trans hplacing
    | ok kept =>
      have hentry := entry_refresh_ok (congrArg Prod.snd hr)
      obtain ⟨fresh, hreply, haddress⟩ := Provisioner.refreshToken_ok cfg (congrArg Prod.snd hr)
      refine .inr ⟨api, fresh, hk, rfl, hreply, by rw [hr]; rfl, ?_⟩
      rw [hentry] at hdone
      cases kept with
      | true =>
        rcases hdone with ⟨hj, hcs⟩ | ⟨⟨k, hplacing⟩, -⟩
        · rw [hj]
          exact .inl ⟨haddress, hcs⟩
        · cases hplacing
      | false =>
        obtain ⟨hnone, hsame⟩ := haddress
        rcases hdone with ⟨hj, -⟩ | ⟨-, hcs⟩
        · rw [hj] at hp
          cases hp
        · refine .inr ⟨hnone, hcs.trans ?_⟩
          have hprevious : (creds.serverIp4, creds.serverPort) = r.creds.address := hsame
          simp only [hk, previous, hprevious, reduceCtorEq, false_or]
          rfl

end Job

end CksLoadtest
