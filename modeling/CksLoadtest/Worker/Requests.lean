import CksLoadtest.Worker.Traffic

/-!
# What a worker function can ask for

Seen from the control thread a client is its state, its refresh flag and its
credentials. Every worker function moves these by a path of five elementary steps,
and the requests it pushes are those of the path.
-/
namespace CksLoadtest.Worker

open Lib.Buffer

/-- A pushed request: by a suspension or not, its kind, its credentials. -/
abbrev Push := Bool × Kind × ClientCredentials

structure Core where
  state : State
  refreshRequested : Bool
  creds : ClientCredentials
  deriving DecidableEq

/-- The elementary steps. A token-level error that finds the client SUSPENDED sets
the flag and asks for nothing; `mark` says when a path may contain that step. -/
inductive CoreStep (mark : Prop) : Core → List Push → Core → Prop
  | activate {c : Core} (hs : c.state = .waiting) : CoreStep mark c [] { c with state := .active }
  | ask {c : Core} (hs : c.state = .active) (hf : c.refreshRequested = false) :
      CoreStep mark c [(false, .refresh, c.creds)] { c with refreshRequested := true }
  | suspend {c : Core} (hs : c.state ≠ .suspended) :
      CoreStep mark c [(true, .reassign, c.creds)] { c with state := .suspended }
  | tokenError {c : Core} (hs : c.state ≠ .suspended) (hf : c.refreshRequested = false) :
      CoreStep mark c [(true, .refresh, c.creds)]
        { c with state := .suspended, refreshRequested := true }
  | markOnly {c : Core} (hm : mark) (hs : c.state = .suspended) (hf : c.refreshRequested = false) :
      CoreStep mark c [] { c with refreshRequested := true }

theorem CoreStep.creds {mark : Prop} {a b : Core} {ps : List Push} (h : CoreStep mark a ps b) :
    b.creds = a.creds := by cases h <;> rfl

theorem CoreStep.mono {mark mark' : Prop} (hm : mark → mark') {a b : Core} {ps : List Push}
    (h : CoreStep mark a ps b) : CoreStep mark' a ps b := by
  cases h with
  | activate hs => exact .activate hs
  | ask hs hf => exact .ask hs hf
  | suspend hs => exact .suspend hs
  | tokenError hs hf => exact .tokenError hs hf
  | markOnly h hs hf => exact .markOnly (hm h) hs hf

inductive CorePath (mark : Prop) : Core → List Push → Core → Prop
  | refl (c : Core) : CorePath mark c [] c
  | step {a b c : Core} {ps qs : List Push} :
      CoreStep mark a ps b → CorePath mark b qs c → CorePath mark a (ps ++ qs) c

namespace CorePath

variable {mark : Prop} {a b c : Core} {ps qs : List Push}

theorem single (h : CoreStep mark a ps b) : CorePath mark a ps b := by
  simpa using CorePath.step h (.refl b)

theorem append (h : CorePath mark a ps b) (k : CorePath mark b qs c) :
    CorePath mark a (ps ++ qs) c := by
  induction h with
  | refl => exact k
  | step hs _ ih =>
    rw [List.append_assoc]
    exact .step hs (ih k)

theorem mono {mark' : Prop} (hm : mark → mark') (h : CorePath mark a ps b) :
    CorePath mark' a ps b := by
  induction h with
  | refl => exact .refl _
  | step hs _ ih => exact .step (hs.mono hm) ih

/-- A path leads into SUSPENDED at most once, and pushes one request when it does. -/
theorem suspensions (h : CorePath mark a ps b) :
    (a.state = .suspended → b.state = .suspended) ∧
      (ps.countP fun p => p.1) =
        if a.state ≠ .suspended ∧ b.state = .suspended then 1 else 0 := by
  induction h with
  | refl c =>
    refine ⟨id, ?_⟩
    rw [if_neg (fun h => h.1 h.2)]
    rfl
  | step hs _ ih =>
    rw [List.countP_append, ih.2]
    cases hs with
    | activate hw => exact ⟨by simp [hw], by simp [hw]⟩
    | ask ha => exact ⟨by simp [ha], by simp [ha]⟩
    | suspend hne => exact ⟨fun h => absurd h hne, by simp [hne, ih.1 rfl]⟩
    | tokenError hne => exact ⟨fun h => absurd h hne, by simp [hne, ih.1 rfl]⟩
    | markOnly _ hsu => exact ⟨fun _ => ih.1 hsu, by simp [hsu]⟩

end CorePath

variable {K : Type*}

/-- The requests among a list of effects. -/
def pushes (es : List (Effect K)) : List Push :=
  es.filterMap fun
    | .push suspension kind creds => some (suspension, kind, creds)
    | _ => none

def core (c : SimClient K) : Core := ⟨c.state, c.refreshRequested, c.creds⟩

@[simp] theorem pushes_append (es fs : List (Effect K)) :
    pushes (es ++ fs) = pushes es ++ pushes fs := List.filterMap_append ..

@[simp] theorem pushes_nil : pushes ([] : List (Effect K)) = [] := rfl
@[simp] theorem pushes_push (b : Bool) (k : Kind) (d : ClientCredentials) (es : List (Effect K)) :
    pushes (.push b k d :: es) = (b, k, d) :: pushes es := rfl
@[simp] theorem pushes_count (x : Counter) (n : Nat) (es : List (Effect K)) :
    pushes (.count x n :: es) = pushes es := rfl
@[simp] theorem pushes_errorCode (x : UInt8) (es : List (Effect K)) :
    pushes (.errorCode x :: es) = pushes es := rfl
@[simp] theorem pushes_latency (x : Int) (es : List (Effect K)) :
    pushes (.latency x :: es) = pushes es := rfl
@[simp] theorem pushes_activeClients (d : Int) (es : List (Effect K)) :
    pushes (.activeClients d :: es) = pushes es := rfl
@[simp] theorem pushes_suspendedClients (d : Int) (es : List (Effect K)) :
    pushes (.suspendedClients d :: es) = pushes es := rfl
@[simp] theorem pushes_socketOpened (es : List (Effect K)) :
    pushes (.socketOpened :: es) = pushes es := rfl
@[simp] theorem pushes_socketClosed (es : List (Effect K)) :
    pushes (.socketClosed :: es) = pushes es := rfl
@[simp] theorem pushes_send (c : SimClient K) (bs : Bytes) (es : List (Effect K)) :
    pushes (.send c bs :: es) = pushes es := rfl

/-- A result whose requests are those of a path from the client it started with. -/
def Follows (mark : Prop) (c : SimClient K) (o : Out K) : Prop :=
  CorePath mark (core c) (pushes o.2) (core o.1)

namespace Follows

variable {mark : Prop} {c : SimClient K}

theorem mono {mark' : Prop} {o : Out K} (h : Follows mark c o) (hm : mark → mark') :
    Follows mark' c o := CorePath.mono hm h

/-- Nothing the control thread can see has changed. -/
theorem quiet {d : SimClient K} {es : List (Effect K)} (hc : core d = core c)
    (he : pushes es = []) : Follows mark c (d, es) := by
  unfold Follows
  rw [he, hc]
  exact .refl _

theorem of_core {d : SimClient K} {o : Out K} (hc : core d = core c) (h : Follows mark d o) :
    Follows mark c o := by
  unfold Follows at h ⊢
  rwa [hc] at h

theorem after {es : List (Effect K)} {o : Out K} (he : pushes es = []) (h : Follows mark c o) :
    Follows mark c (Worker.after es o) := by
  unfold Follows Worker.after
  rw [pushes_append, he, List.nil_append]
  exact h

theorem andThen {o : Out K} {f : SimClient K → Out K} (h : Follows mark c o)
    (hf : Follows mark o.1 (f o.1)) : Follows mark c (Worker.andThen o f) := by
  unfold Follows Worker.andThen Worker.after
  rw [pushes_append]
  exact CorePath.append h hf

end Follows

section

variable {mark : Prop} {c : SimClient K}

theorem closeSocket_core (c : SimClient K) : core (closeSocket c).1 = core c := by
  unfold closeSocket
  split <;> rfl

@[simp] theorem closeSocket_pushes (c : SimClient K) : pushes (closeSocket c).2 = [] := by
  unfold closeSocket
  split <;> rfl

/-- The request of a suspension, and the state it leaves. -/
theorem suspendClient_outcome (kind : Kind) (c : SimClient K) (hs : c.state ≠ .suspended) :
    core (suspendClient kind c).1 = { core c with state := .suspended } ∧
      pushes (suspendClient kind c).2 = [(true, kind, c.creds)] := by
  have hc := closeSocket_core c
  simp only [core, Core.mk.injEq] at hc
  unfold suspendClient
  rw [if_neg hs]
  constructor
  · simp only [core, hc.2.1, hc.2.2]
  · dsimp only
    split <;> simp

theorem suspendClient_follows : Follows mark c (suspendClient .reassign c) := by
  by_cases hs : c.state = .suspended
  · rw [suspendClient, if_pos hs]
    exact .quiet rfl rfl
  · have h := suspendClient_outcome .reassign c hs
    unfold Follows
    rw [h.1, h.2]
    exact .single (.suspend hs)

theorem classifyRefusal_quiet [Field K] (cfg : Config K) (t : Readings) (code : UInt8)
    (c : SimClient K) : core (classifyRefusal cfg t code c).1.1 = core c ∧
      pushes (classifyRefusal cfg t code c).1.2 = [] := by
  unfold classifyRefusal
  split
  · exact ⟨rfl, rfl⟩
  · split
    · dsimp only
      split
      · constructor
        · dsimp only
          split <;> rfl
        · rfl
      · exact ⟨rfl, rfl⟩
    · exact ⟨rfl, rfl⟩

/-- A refusal asks for at most one request; the flag is set without one only by a
token-level error on a SUSPENDED client. -/
theorem reactToError_follows [Field K] (cfg : Config K) (code : UInt8) (c : SimClient K) :
    Follows (isTokenError code = true ∧ c.state = .suspended ∧ c.refreshRequested = false) c
      (reactToError cfg code c) := by
  unfold reactToError
  split
  · rename_i h
    have hf : c.refreshRequested = false := by simpa using h.2
    by_cases hs : c.state = .suspended
    · have hq : suspendClient .refresh { c with refreshRequested := true } =
          ({ c with refreshRequested := true }, []) := by
        rw [suspendClient, if_pos hs]
      rw [hq]
      exact .single (.markOnly ⟨h.1, hs, hf⟩ hs hf)
    · have ho := suspendClient_outcome .refresh { c with refreshRequested := true } hs
      unfold Follows
      rw [ho.1, ho.2]
      exact .single (.tokenError hs hf)
  · split
    · dsimp only
      split
      · exact .of_core (c := c) (d := { c with unauthorizedCount := 0 }) rfl
          suspendClient_follows
      · exact .quiet rfl rfl
    · exact .quiet rfl rfl

theorem logError_core (expected : Bool) (c : SimClient K) :
    core (logError expected c) = core c := by
  unfold logError
  split <;> rfl

/-- A member that is a token-level error. -/
def isTokenErrorMember (m : Bytes) : Bool :=
  Wire.type m = Wire.GENERIC_ERROR_MESSAGE &&
    match m with
    | _ :: _ :: code :: _ => isTokenError code
    | _ => false

theorem handleError_follows [Field K] (cfg : Config K) (t : Readings) (m : Bytes)
    (c : SimClient K) (hm : Wire.type m = Wire.GENERIC_ERROR_MESSAGE) :
    Follows (isTokenErrorMember m = true ∧ c.state = .suspended ∧ c.refreshRequested = false) c
      (handleError cfg t m c) := by
  match m with
  | [] | [_] | [_, _] => exact .quiet rfl rfl
  | a :: b :: code :: rest =>
    have hq := classifyRefusal_quiet cfg t code c
    refine .after rfl (.andThen (.quiet hq.1 hq.2) ?_)
    have hcore (d : SimClient K) (hd : core d = core c) (l : SimClient K)
        (hl : core l = core d) :
        Follows (isTokenErrorMember (a :: b :: code :: rest) = true ∧ c.state = .suspended ∧
          c.refreshRequested = false) d (reactToError cfg code l) := by
      have hr := reactToError_follows cfg code l
      have hlc : core l = core c := hl.trans hd
      simp only [core, Core.mk.injEq] at hlc
      rw [hlc.1, hlc.2.1] at hr
      have ht : isTokenErrorMember (a :: b :: code :: rest) = isTokenError code := by
        simp [isTokenErrorMember, hm]
      rw [ht]
      exact .of_core hl hr
    exact hcore _ hq.1 _ (logError_core _ _)

/-- One member asks for at most one request, however many a bundle has. -/
theorem handleMember_follows [Field K] (P : Platform K) (cfg : Config K) (signedBundle : Bool)
    (nowMs : Int) (t : Readings) (m : Bytes) (c : SimClient K) :
    Follows (isTokenErrorMember m = true ∧ c.state = .suspended ∧ c.refreshRequested = false) c
      (handleMember P cfg signedBundle nowMs t m c) := by
  refine .after (by split <;> rfl) ?_
  split
  · rename_i hm
    exact .after rfl (handleError_follows cfg t m c hm)
  · split
    · exact .after rfl suspendClient_follows
    · split
      · unfold handleSpatial
        split
        · exact .quiet rfl rfl
        · refine .quiet rfl ?_
          rw [pushes_count]
          split
          · split <;> rfl
          · rfl
      · exact .quiet rfl rfl

/-- A token-level error on a client that is not SUSPENDED asks for a refresh, unless
the flag says that one was asked for. -/
theorem handleMember_tokenError [Field K] (P : Platform K) (cfg : Config K) (signedBundle : Bool)
    (nowMs : Int) (t : Readings) {m : Bytes} {c : SimClient K} (hm : isTokenErrorMember m = true)
    (hs : c.state ≠ .suspended) :
    pushes (handleMember P cfg signedBundle nowMs t m c).2 =
      if c.refreshRequested then [] else [(true, .refresh, c.creds)] := by
  simp only [isTokenErrorMember, Bool.and_eq_true, decide_eq_true_eq] at hm
  obtain ⟨htype, hcode⟩ := hm
  match m, htype, hcode with
  | a :: b :: code :: rest, htype, hcode =>
    have hq := classifyRefusal_quiet cfg t code c
    have hl := (logError_core (classifyRefusal cfg t code c).2
      (classifyRefusal cfg t code c).1.1).trans hq.1
    have hun : code ≠ Wire.ERR_UNAUTHORIZED := by
      rintro rfl
      simp [isTokenError, Wire.ERR_UNAUTHORIZED, Wire.ERR_INVALID_TOKEN, Wire.ERR_TOKEN_EXPIRED,
        Wire.ERR_USER_NOT_AUTHENTICATED] at hcode
    generalize hd : logError (classifyRefusal cfg t code c).2
      (classifyRefusal cfg t code c).1.1 = d at hl
    simp only [core, Core.mk.injEq] at hl
    obtain ⟨hds, hdf, hdc⟩ := hl
    have hreact : pushes (reactToError cfg code d).2 =
        if c.refreshRequested then [] else [(true, .refresh, c.creds)] := by
      unfold reactToError
      cases hf : c.refreshRequested with
      | true =>
        rw [if_neg (by simp [hdf, hf]), if_neg hun]
        rfl
      | false =>
        rw [if_pos ⟨hcode, by simp [hdf, hf]⟩]
        have hne : ({ d with refreshRequested := true } : SimClient K).state ≠ .suspended := by
          rw [hds]
          exact hs
        rw [(suspendClient_outcome .refresh _ hne).2, hdc]
        rfl
    have hsigned : pushes (if signedBundle then [Effect.count (K := K) .rxSignedMembers 1]
        else []) = [] := by split <;> rfl
    unfold handleMember handleError after andThen after
    simp only [htype, if_true, pushes_append, hsigned, hq.2, hd, hreact, pushes_count,
      pushes_errorCode, pushes_nil, List.nil_append]

theorem beginDatagram_follows [Field K] (P : Platform K) (rxNs nowMs : Int) (data : Bytes)
    (c : SimClient K) : Follows mark c (beginDatagram P rxNs nowMs data c).1 := by
  unfold beginDatagram
  dsimp only
  split
  · exact .quiet rfl rfl
  · split
    · refine .quiet rfl ?_
      simp only [pushes_append, pushes_count, pushes_nil, List.nil_append, List.append_nil]
      split
      · rfl
      · split <;> rfl
    · refine .quiet rfl ?_
      simp only [pushes_append, pushes_count, pushes_nil, List.nil_append]
      split
      · rfl
      · split <;> rfl

theorem endDatagram_follows (ok : Bool) (c : SimClient K) :
    Follows mark c (endDatagram ok c) := by
  refine .quiet rfl ?_
  split <;> rfl

theorem handleMembers_follows [Field K] (P : Platform K) (cfg : Config K) (signedBundle : Bool)
    (nowMs : Int) (t : Nat → Readings) (ms : List Bytes) (c : SimClient K) :
    Follows True c (handleMembers P cfg signedBundle nowMs t ms c) := by
  induction ms generalizing t c with
  | nil => exact .quiet rfl rfl
  | cons m ms ih =>
    exact .andThen ((handleMember_follows P cfg signedBundle nowMs _ m c).mono fun _ => trivial)
      (ih _ _)

theorem handleDatagram_follows [Field K] (P : Platform K) (cfg : Config K) (rxNs nowMs : Int)
    (t : Nat → Readings) (data : Bytes) (c : SimClient K) :
    Follows True c (handleDatagram P cfg rxNs nowMs t data c) := by
  unfold handleDatagram
  dsimp only
  split
  · exact beginDatagram_follows P rxNs nowMs data c
  · exact .andThen (beginDatagram_follows P rxNs nowMs data c)
      (.andThen (handleMembers_follows P cfg _ _ t _ _) (endDatagram_follows _ _))

/-- The core an applied update leaves. -/
def updated (u : Update) (c : Core) : Core := if u.failed then c else ⟨.waiting, false, u.creds⟩

section

variable [Field K] [LinearOrder K] [FloorRing K] (P : Platform K) (cfg : Config K)

omit [LinearOrder K] [FloorRing K] in
/-- An update leaves the client WAITING with its credentials, whatever state it finds;
a failed one changes nothing. It asks for nothing. -/
theorem applyUpdate_core (u : Update) (c : SimClient K) :
    core (applyUpdate cfg u c).1 = updated u (core c) ∧ pushes (applyUpdate cfg u c).2 = [] := by
  unfold applyUpdate updated
  cases hf : u.failed with
  | true => exact ⟨rfl, rfl⟩
  | false =>
    simp only [Bool.false_eq_true, if_false]
    generalize hd : (if u.creds.gameTokenId ≠ c.creds.gameTokenId then
      SimClient.rebuildTemplate cfg { c with creds := u.creds, refreshRequested := false }
      else { c with creds := u.creds, refreshRequested := false }) = d
    have hcore : core d = ⟨c.state, false, u.creds⟩ := by
      rw [← hd]
      split <;> rfl
    have hclosed := (closeSocket_core d).trans hcore
    simp only [core, Core.mk.injEq] at hcore hclosed
    split
    · exact ⟨by simp [core, hcore.2.1, hcore.2.2], rfl⟩
    · rename_i hs
      split
      · exact ⟨by simp [core, hclosed.2.1, hclosed.2.2], by simp⟩
      · rename_i ha
        refine ⟨?_, rfl⟩
        rw [hcore.1] at ha
        have hw : c.state = .waiting := by
          cases hst : c.state with
          | waiting => rfl
          | active => exact absurd hst ha
          | suspended => exact absurd hst hs
        simp [core, hcore.1, hcore.2.1, hcore.2.2, hw]

theorem projectPose_core (c : SimClient K) : core (c.projectPose cfg) = core c := rfl

theorem updateWalk_core (r : SimClient.Draws K) (nowSec : K) (c : SimClient K) :
    core (c.updateWalk P cfg r nowSec) = core c := by
  rw [SimClient.updateWalk_moveTo]
  rfl

omit [LinearOrder K] [FloorRing K] in
theorem buildUpdate_core (epochMs : Int) (c : SimClient K) :
    core (c.buildUpdate P cfg epochMs).1 = core c := rfl

theorem initSimulation_core (r : SimClient.Draws K) (nowSec : K) (c : SimClient K) :
    core (c.initSimulation P cfg r nowSec) = core c := by
  unfold SimClient.initSimulation
  rw [projectPose_core, SimClient.spawn_moveTo]
  rfl

theorem resume_core (now : Int) (nowSec : K) (r : SimClient.Draws K) (c : SimClient K) :
    core (resume P cfg now nowSec r c) = core c := by
  unfold resume
  dsimp only
  split
  · exact initSimulation_core P cfg r nowSec c
  · rfl

omit [Field K] [LinearOrder K] [FloorRing K] in
theorem openSocket_core (o : OpenOutcome) (c : SimClient K) :
    core (openSocket P cfg o c).1.1 = core c ∧ pushes (openSocket P cfg o c).1.2 = [] := by
  unfold openSocket
  split
  · exact ⟨rfl, rfl⟩
  · cases P.inetPton c.creds.serverIp4 with
    | none => exact ⟨rfl, rfl⟩
    | some addr =>
      have hb : ∀ b : Prop, [Decidable b] →
          pushes (if b then [Effect.count (K := K) .rcvbufSetFailures 1] else []) = [] := by
        intro b _
        split <;> rfl
      dsimp only
      split
      · exact ⟨rfl, by simp [hb]⟩
      · exact ⟨rfl, by simp [hb]⟩

theorem activateDueClient_follows (now : Int) (nowSec : K) (r : SimClient.Draws K)
    (o : OpenOutcome) (c : SimClient K) :
    Follows mark c (activateDueClient P cfg now nowSec r o c) := by
  unfold activateDueClient
  split
  · exact .quiet rfl rfl
  · rename_i hw
    have hw : c.state = .waiting := not_not.mp hw
    split
    · exact .quiet rfl rfl
    · have hr := resume_core P cfg now nowSec r c
      have ho := openSocket_core P cfg o (resume P cfg now nowSec r c)
      dsimp only
      split
      · have hc : core (openSocket P cfg o (resume P cfg now nowSec r c)).1.1 = core c :=
          ho.1.trans hr
        simp only [core, Core.mk.injEq] at hc
        unfold Follows
        simp only [pushes_append, ho.2, core, hc.2.1, hc.2.2, pushes_activeClients, pushes_nil,
          List.append_nil]
        exact .single (.activate hw)
      · refine .andThen (.quiet (ho.1.trans hr) ho.2) suspendClient_follows

omit [Field K] [LinearOrder K] [FloorRing K] in
theorem requestRefresh_follows (sysNow : Int) (c : SimClient K) (hs : c.state = .active) :
    Follows mark c (requestRefresh cfg sysNow c) := by
  unfold requestRefresh
  split
  · rename_i h
    exact .single (.ask hs (by simpa [core] using h.1))
  · exact .quiet rfl rfl

omit [FloorRing K] in
theorem advertise_follows (nowSec : K) (sent : Bool) (c : SimClient K) :
    Follows mark c (advertise P cfg nowSec sent c) := by
  unfold advertise
  split
  · dsimp only
    split
    · refine .quiet rfl ?_
      rw [pushes_send]
      split <;> rfl
    · exact .quiet rfl rfl
  · exact .quiet rfl rfl

theorem transmit_follows (nowSec : K) (i : SendInputs K) (c : SimClient K) :
    Follows mark c (transmit P cfg nowSec i c) := by
  have hb : core ((c.updateWalk P cfg i.draws nowSec).buildUpdate P cfg i.epochMs).1 = core c :=
    (buildUpdate_core P cfg i.epochMs _).trans (updateWalk_core P cfg i.draws nowSec c)
  refine .of_core hb ?_
  unfold transmit
  dsimp only
  split
  · exact .quiet rfl rfl
  · split
    · exact .quiet rfl rfl
    · refine .after rfl ?_
      split
      · refine .of_core ?_ suspendClient_follows
        rfl
      · exact .quiet rfl rfl

theorem sendDueUpdate_follows (nowSec : K) (i : SendInputs K) (c : SimClient K) :
    Follows mark c (sendDueUpdate P cfg nowSec i c) := by
  unfold sendDueUpdate
  split
  · exact .quiet rfl rfl
  · rename_i hs
    split
    · exact .after rfl suspendClient_follows
    · split
      · exact .quiet rfl rfl
      · refine .andThen ?_ (.andThen (advertise_follows ..) (transmit_follows ..))
        exact .of_core (d := paceSend cfg nowSec c) rfl
          (requestRefresh_follows cfg _ _ (not_not.mp hs))

end

end

end CksLoadtest.Worker
