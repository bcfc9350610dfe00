import CksLoadtest.Worker.Sends

/-!
# What a client keeps of its assignment and its schedule

The contact time, the two counts that end an assignment, the permission box and the pacing
clock. Every function of the worker has one lemma for what it does to these marks.
-/
namespace CksLoadtest.Worker

open Lib.Buffer

variable {K : Type*}

/-- What a client keeps of its assignment and its schedule. -/
structure Marks (K : Type*) where
  uuid : Bytes
  activatedAt : Int
  unauthorizedCount : Int
  consecutiveSendErrors : Int
  permWindowCenter : Vec Int
  permWindowValid : Bool
  permReloadAt : Int
  lastSendTime : K

def marks (c : SimClient K) : Marks K where
  uuid := c.uuid
  activatedAt := c.activatedAt
  unauthorizedCount := c.unauthorizedCount
  consecutiveSendErrors := c.consecutiveSendErrors
  permWindowCenter := c.permWindowCenter
  permWindowValid := c.permWindowValid
  permReloadAt := c.permReloadAt
  lastSendTime := c.lastSendTime

/-- A member that refuses the client: GENERIC_ERROR_MESSAGE with the code UNAUTHORIZED. -/
def isRefusal : Bytes → Bool
  | type :: _ :: code :: _ => type = Wire.GENERIC_ERROR_MESSAGE && code = Wire.ERR_UNAUTHORIZED
  | _ => false

/-- The client is due in `activateDueClients`. -/
def Due (now : Int) (c : SimClient K) : Prop :=
  c.state = .waiting ∧ c.activateAt ≤ now ∧ c.creds.udpReadyAt ≤ now

instance (now : Int) (c : SimClient K) : Decidable (Due now c) :=
  inferInstanceAs (Decidable (_ ∧ _ ∧ _))

section Suspension

theorem closeSocket_marks (c : SimClient K) : marks (closeSocket c).1 = marks c := by
  unfold closeSocket
  split <;> rfl

theorem suspendClient_marks (kind : Kind) (c : SimClient K) :
    marks (suspendClient kind c).1 = marks c := by
  unfold suspendClient
  split
  · rfl
  · exact closeSocket_marks c

theorem suspendClient_chunk (kind : Kind) (c : SimClient K) :
    (suspendClient kind c).1.chunk = c.chunk := by
  unfold suspendClient closeSocket
  split
  · rfl
  · split <;> rfl

theorem suspendClient_state (kind : Kind) (c : SimClient K) :
    (suspendClient kind c).1.state = .suspended := by
  unfold suspendClient
  split
  · assumption
  · rfl

/-- A datagram keeps the state or suspends the client. -/
theorem Suspends.state {c : SimClient K} {o : Out K} (h : Suspends c o) :
    o.1.state = c.state ∨ o.1.state = .suspended := by
  induction h with
  | plain hl _ => exact .inl (link_parts hl).1
  | suspend kind c => exact .inr (suspendClient_state kind c)
  | andThen _ _ ih ih' =>
    rcases ih' with h' | h'
    · rw [← h'] at ih
      exact ih
    · exact .inr h'

end Suspension

section Updates

variable [Field K]

theorem applyUpdate_marks (cfg : Config K) (u : Update) (c : SimClient K) :
    marks (applyUpdate cfg u c).1 = marks c ∧
      ((applyUpdate cfg u c).1.state = c.state ∨ (applyUpdate cfg u c).1.state = .waiting) := by
  have hinstall : ∀ d : SimClient K, marks (d.rebuildTemplate cfg) = marks d := fun _ => rfl
  unfold applyUpdate
  split
  · exact ⟨rfl, .inl rfl⟩
  · dsimp only
    generalize hd : (if u.creds.gameTokenId ≠ c.creds.gameTokenId then
      SimClient.rebuildTemplate cfg { c with creds := u.creds, refreshRequested := false }
      else { c with creds := u.creds, refreshRequested := false }) = d
    have hsame : marks d = marks c ∧ d.state = c.state := by
      rw [← hd]
      split
      · exact ⟨hinstall _, rfl⟩
      · exact ⟨rfl, rfl⟩
    split
    · exact ⟨hsame.1, .inr rfl⟩
    · split
      · exact ⟨(closeSocket_marks d).trans hsame.1, .inr rfl⟩
      · exact ⟨hsame.1, .inl hsame.2⟩

theorem beginDatagram_marks (P : Platform K) (rxNs nowMs : Int) (data : Bytes) (c : SimClient K) :
    marks (beginDatagram P rxNs nowMs data c).1.1 = marks c ∧
      (beginDatagram P rxNs nowMs data c).1.1.state = c.state := by
  unfold beginDatagram
  dsimp only
  split
  · exact ⟨rfl, rfl⟩
  · split <;> exact ⟨rfl, rfl⟩

end Updates

section Members

variable (P : Platform K) (cfg : Config K)

/-- A refusal is counted, classified and reacted to; nothing else of a member is. -/
theorem handleMember_refusal {m : Bytes} (h : isRefusal m = true) (signedBundle : Bool)
    (nowMs : Int) (t : Readings) (c : SimClient K) :
    ∃ es : List (Effect K), (∀ e ∈ es, e = .count .rxSignedMembers 1 ∨
        e = .count .rxErrorMessages 1 ∨ e = .errorCode Wire.ERR_UNAUTHORIZED) ∧
      handleMember P cfg signedBundle nowMs t m c =
        after es (andThen (classifyRefusal cfg t Wire.ERR_UNAUTHORIZED c).1 fun d =>
          reactToError cfg Wire.ERR_UNAUTHORIZED
            (logError (classifyRefusal cfg t Wire.ERR_UNAUTHORIZED c).2 d)) := by
  match m with
  | [] | [_] | [_, _] => exact absurd h Bool.false_ne_true
  | type :: flags :: code :: rest =>
    rw [isRefusal, Bool.and_eq_true, decide_eq_true_iff, decide_eq_true_iff] at h
    obtain ⟨rfl, rfl⟩ := h
    refine ⟨(if signedBundle then [.count .rxSignedMembers 1] else []) ++
      ([.count .rxErrorMessages 1] ++ [.errorCode Wire.ERR_UNAUTHORIZED]), ?_, ?_⟩
    · cases signedBundle <;> simp
    · unfold handleMember handleError Wire.type
      dsimp only
      rw [if_pos rfl]
      simp only [after, List.append_assoc]

/-- The client's last (re)activation is less than two seconds ago. -/
def FirstContact (t : Readings) (c : SimClient K) : Prop :=
  c.activatedAt ≠ 0 ∧ t.contact - c.activatedAt < FIRST_CONTACT_GRACE_MS * 1000000

/-- A reload that is younger than the grace period. -/
def SameEpisode (cfg : Config K) (t : Readings) (c : SimClient K) : Prop :=
  c.permReloadAt ≠ 0 ∧ t.reload - c.permReloadAt < cfg.permReloadGraceMs * 1000000

instance (t : Readings) (c : SimClient K) : Decidable (FirstContact t c) :=
  inferInstanceAs (Decidable (_ ∧ _))

instance (t : Readings) (c : SimClient K) : Decidable (SameEpisode cfg t c) :=
  inferInstanceAs (Decidable (_ ∧ _))

/-- The four outcomes of a refusal: first contact, the same episode, a new one, unexplained. -/
theorem classifyRefusal_cases (t : Readings) (c : SimClient K) :
    let o := classifyRefusal cfg t Wire.ERR_UNAUTHORIZED c
    (FirstContact t c ∧ o = ((c, [.count .unauthorizedFirstContact 1]), true)) ∨
      (¬ FirstContact t c ∧
        (((c.permWindowValid = true ∧ SameEpisode cfg t c) ∧
            o = ((c, [.count .unauthorizedWindowReload 1]), true)) ∨
          ((c.permWindowValid = true ∧ ¬ SameEpisode cfg t c ∧ leftPermWindow cfg c = true) ∧
            o = (({ c with permWindowCenter := c.chunk, permReloadAt := t.reload },
              [.count .unauthorizedWindowReload 1]), true)) ∨
          ((c.permWindowValid = true → ¬ SameEpisode cfg t c ∧ leftPermWindow cfg c = false) ∧
            o = ((c, []), false)))) := by
  intro o
  show (FirstContact t c ∧ classifyRefusal cfg t Wire.ERR_UNAUTHORIZED c = _) ∨
    (_ ∧ ((_ ∧ classifyRefusal cfg t Wire.ERR_UNAUTHORIZED c = _) ∨
      (_ ∧ classifyRefusal cfg t Wire.ERR_UNAUTHORIZED c = _) ∨
      (_ ∧ classifyRefusal cfg t Wire.ERR_UNAUTHORIZED c = _)))
  have hsame : (c.permReloadAt ≠ 0 && t.reload - c.permReloadAt < cfg.permReloadGraceMs * 1000000 :
      Bool) = decide (SameEpisode cfg t c) := (Bool.decide_and ..).symm
  unfold classifyRefusal
  by_cases hfirst : FirstContact t c
  · rw [if_pos ⟨rfl, hfirst⟩]
    exact .inl ⟨hfirst, rfl⟩
  · rw [if_neg (fun h => hfirst h.2)]
    refine .inr ⟨hfirst, ?_⟩
    split
    · rename_i hvalid
      dsimp only
      rw [hsame]
      by_cases hep : SameEpisode cfg t c
      · rw [decide_eq_true hep]
        exact .inl ⟨⟨hvalid.2, hep⟩, rfl⟩
      · rw [decide_eq_false hep]
        refine .inr ?_
        cases hleft : leftPermWindow cfg c with
        | true => exact .inl ⟨⟨hvalid.2, hep, rfl⟩, rfl⟩
        | false => exact .inr ⟨fun _ => ⟨hep, rfl⟩, rfl⟩
    · rename_i hvalid
      exact .inr (.inr ⟨fun hv => absurd ⟨rfl, hv⟩ hvalid, rfl⟩)

theorem classifyRefusal_marks (t : Readings) (c : SimClient K) :
    marks (classifyRefusal cfg t Wire.ERR_UNAUTHORIZED c).1.1 = marks c ∨
      (leftPermWindow cfg c = true ∧ marks (classifyRefusal cfg t Wire.ERR_UNAUTHORIZED c).1.1 =
        { marks c with permWindowCenter := c.chunk, permReloadAt := t.reload }) := by
  rcases classifyRefusal_cases cfg t c with ⟨-, ho⟩ | ⟨-, ⟨-, ho⟩ | ⟨⟨-, -, hleft⟩, ho⟩ | ⟨-, ho⟩⟩
  · exact .inl (by rw [ho])
  · exact .inl (by rw [ho])
  · exact .inr ⟨hleft, by rw [ho]; rfl⟩
  · exact .inl (by rw [ho])

theorem logError_marks (expected : Bool) (c : SimClient K) :
    marks (logError expected c) = marks c := by
  unfold logError
  split <;> rfl

/-- The refusals since the count was last taken back. -/
def nextUnauthorized (n : Int) : Int := if 5 * cfg.updateHz ≤ n + 1 then 0 else n + 1

theorem reactToError_refusal (c : SimClient K) :
    marks (reactToError cfg Wire.ERR_UNAUTHORIZED c).1 =
        { marks c with unauthorizedCount := nextUnauthorized cfg c.unauthorizedCount } ∧
      (pushes (reactToError cfg Wire.ERR_UNAUTHORIZED c).2 ≠ [] →
        5 * cfg.updateHz ≤ c.unauthorizedCount + 1) := by
  have hcode : ¬ (isTokenError Wire.ERR_UNAUTHORIZED = true ∧ ¬ c.refreshRequested) := by
    intro h
    exact absurd h.1 (by decide)
  unfold reactToError nextUnauthorized
  rw [if_neg hcode, if_pos rfl]
  dsimp only
  split
  · rename_i hfull
    exact ⟨suspendClient_marks _ _, fun _ => hfull⟩
  · exact ⟨rfl, fun h => absurd rfl h⟩

theorem handleMember_refusal_marks [Field K] {m : Bytes} (h : isRefusal m = true)
    (signedBundle : Bool) (nowMs : Int) (t : Readings) (c : SimClient K) :
    marks (handleMember P cfg signedBundle nowMs t m c).1 =
        { marks (classifyRefusal cfg t Wire.ERR_UNAUTHORIZED c).1.1 with
          unauthorizedCount := nextUnauthorized cfg c.unauthorizedCount } ∧
      (pushes (handleMember P cfg signedBundle nowMs t m c).2 ≠ [] →
        5 * cfg.updateHz ≤ c.unauthorizedCount + 1) := by
  obtain ⟨es, hes, ho⟩ := handleMember_refusal P cfg h signedBundle nowMs t c
  have hnone : pushes es = [] := by
    refine List.filterMap_eq_nil_iff.mpr fun e he => ?_
    rcases hes e he with rfl | rfl | rfl <;> rfl
  have hclass := classifyRefusal_quiet cfg t Wire.ERR_UNAUTHORIZED c
  have hcount : (classifyRefusal cfg t Wire.ERR_UNAUTHORIZED c).1.1.unauthorizedCount =
      c.unauthorizedCount := by
    rcases classifyRefusal_marks cfg t c with hm | ⟨-, hm⟩
    · exact congrArg Marks.unauthorizedCount hm
    · exact congrArg Marks.unauthorizedCount hm
  generalize (classifyRefusal cfg t Wire.ERR_UNAUTHORIZED c).2 = expected at ho
  generalize (classifyRefusal cfg t Wire.ERR_UNAUTHORIZED c).1 = d at ho hclass hcount ⊢
  have hlog := logError_marks expected d.1
  obtain ⟨hmarks, hpush⟩ := reactToError_refusal cfg (logError expected d.1)
  have hlogged : (logError expected d.1).unauthorizedCount = c.unauthorizedCount :=
    (congrArg Marks.unauthorizedCount hlog).trans hcount
  rw [hlogged] at hmarks hpush
  rw [ho]
  refine ⟨?_, fun hne => hpush ?_⟩
  · show marks (reactToError cfg Wire.ERR_UNAUTHORIZED (logError expected d.1)).1 = _
    rw [hmarks, hlog]
  · intro hnil
    refine hne ?_
    show pushes (es ++ (d.2 ++ _)) = []
    rw [pushes_append, pushes_append, hnone, hclass.2, hnil]
    rfl

/-- Any other member leaves the marks alone. -/
theorem handleMember_marks {m : Bytes} (h : isRefusal m = false) (signedBundle : Bool)
    (nowMs : Int) (t : Readings) (c : SimClient K) :
    marks (handleMember P cfg signedBundle nowMs t m c).1 = marks c := by
  unfold handleMember
  show marks (if Wire.type m = Wire.GENERIC_ERROR_MESSAGE then _ else _ : Out K).1 = _
  split
  · rename_i hm
    show marks (handleError cfg t m c).1 = _
    match m with
    | [] | [_] | [_, _] => rfl
    | type :: _ :: code :: _ =>
      have hcode : code ≠ Wire.ERR_UNAUTHORIZED := by
        intro hc
        have htype : type = Wire.GENERIC_ERROR_MESSAGE := hm
        rw [isRefusal, hc, htype] at h
        exact Bool.noConfusion h
      have hclass : classifyRefusal cfg t code c = ((c, []), false) := by
        unfold classifyRefusal
        rw [if_neg (fun hc => hcode hc.1), if_neg (fun hc => hcode hc.1)]
      have hlog := logError_marks false c
      unfold handleError
      dsimp only
      rw [hclass]
      show marks (reactToError cfg code (logError false c)).1 = _
      rw [← hlog]
      unfold reactToError
      split
      · exact suspendClient_marks _ _
      · rfl
  · split
    · exact suspendClient_marks _ _
    · split
      · show marks (handleSpatial P cfg nowMs m c).1 = _
        unfold handleSpatial
        split <;> rfl
      · rfl

end Members

section Activation

variable [Field K] [LinearOrder K] [FloorRing K] (P : Platform K) (cfg : Config K)

theorem activateDueClient_idle {now : Int} {c : SimClient K} (h : ¬ Due now c) (nowSec : K)
    (r : SimClient.Draws K) (o : OpenOutcome) :
    activateDueClient P cfg now nowSec r o c = (c, []) := by
  unfold activateDueClient
  split
  · rfl
  · rename_i hw
    split
    · rfl
    · rename_i hd
      rw [not_or, not_lt, not_lt] at hd
      exact absurd ⟨not_not.mp hw, hd⟩ h

/-- A due client resumes; without a socket it is suspended in the same turn. -/
theorem activateDueClient_due {now : Int} {c : SimClient K} (h : Due now c) (nowSec : K)
    (r : SimClient.Draws K) (o : OpenOutcome) :
    marks (activateDueClient P cfg now nowSec r o c).1 = marks (resume P cfg now nowSec r c) ∧
      ((activateDueClient P cfg now nowSec r o c).1.state = .active ∨
        (activateDueClient P cfg now nowSec r o c).1.state = .suspended) := by
  obtain ⟨hw, ha, hu⟩ := h
  have hopen : marks (openSocket P cfg o (resume P cfg now nowSec r c)).1.1 =
      marks (resume P cfg now nowSec r c) := by
    unfold openSocket
    split
    · rfl
    · cases P.inetPton (resume P cfg now nowSec r c).creds.serverIp4 with
      | none => rfl
      | some addr =>
        dsimp only
        split <;> rfl
  unfold activateDueClient
  rw [if_neg (not_not_intro hw), if_neg (by rw [not_or, not_lt, not_lt]; exact ⟨ha, hu⟩)]
  dsimp only
  split
  · exact ⟨hopen, .inl rfl⟩
  · exact ⟨(suspendClient_marks _ _).trans hopen, .inr (suspendClient_state _ _)⟩

/-- A due client starts in the chunk it resumes in, with a socket or without. -/
theorem activateDueClient_chunk {now : Int} {c : SimClient K} (h : Due now c) (nowSec : K)
    (r : SimClient.Draws K) (o : OpenOutcome) :
    (activateDueClient P cfg now nowSec r o c).1.chunk = (resume P cfg now nowSec r c).chunk := by
  obtain ⟨hw, ha, hu⟩ := h
  have hopen : (openSocket P cfg o (resume P cfg now nowSec r c)).1.1.chunk =
      (resume P cfg now nowSec r c).chunk := by
    unfold openSocket
    split
    · rfl
    · cases P.inetPton (resume P cfg now nowSec r c).creds.serverIp4 with
      | none => rfl
      | some addr =>
        dsimp only
        split <;> rfl
  unfold activateDueClient
  rw [if_neg (not_not_intro hw), if_neg (by rw [not_or, not_lt, not_lt]; exact ⟨ha, hu⟩)]
  dsimp only
  split
  · exact hopen
  · exact (suspendClient_chunk _ _).trans hopen

/-- What a (re)activation sets: the contact time, the box, and the schedule, with an offset
inside one interval when the client first starts. -/
theorem resume_marks (now : Int) (nowSec : K) (r : SimClient.Draws K) (c : SimClient K) :
    let d := resume P cfg now nowSec r c
    Started d ∧
      marks d =
        { marks c with
          uuid := d.uuid
          activatedAt := now
          permWindowCenter := d.chunk
          permWindowValid := true
          lastSendTime :=
            if c.uuid.head? = some 0 then
              nowSec - 1 / (cfg.updateHz : K) + r.offset * (1 / (cfg.updateHz : K))
            else nowSec } := by
  have hinit : ∀ d : SimClient K, marks (d.projectPose cfg) = marks d := fun _ => rfl
  unfold resume
  dsimp only
  by_cases hs : c.uuid.head? = some 0
  · rw [if_pos hs, if_pos hs]
    have hm : marks (c.initSimulation P cfg r nowSec) =
        { marks c with
          uuid := SimClient.generateUuid r.uuidA r.uuidB
          lastSendTime :=
            nowSec - 1 / (cfg.updateHz : K) + r.offset * (1 / (cfg.updateHz : K)) } := by
      unfold SimClient.initSimulation
      rw [hinit, SimClient.spawn_moveTo]
      rfl
    generalize c.initSimulation P cfg r nowSec = d at hm
    have huuid : d.uuid = SimClient.generateUuid r.uuidA r.uuidB := congrArg Marks.uuid hm
    refine ⟨?_, ?_⟩
    · show d.uuid.head? ≠ some 0
      rw [huuid]
      exact (generateUuid_spec r.uuidA r.uuidB).2
    · show { marks d with
        activatedAt := now, permWindowCenter := d.chunk, permWindowValid := true } = _
      rw [hm, ← huuid]
  · rw [if_neg hs, if_neg hs]
    exact ⟨hs, rfl⟩

end Activation

section Sends

variable [Field K] [LinearOrder K]

/-- The client takes an update slot in `sendDueUpdates`: it is ACTIVE, not silent for too long,
and an interval has passed since the last slot. -/
def TakesSlot (cfg : Config K) (nowSec : K) (c : SimClient K) : Prop :=
  c.state = .active ∧
    ¬ (0 < cfg.rxSilentReassignSec ∧ (cfg.rxSilentReassignSec : K) < nowSec - c.lastRxTime) ∧
    1 / (cfg.updateHz : K) ≤ nowSec - c.lastSendTime

instance (cfg : Config K) (nowSec : K) (c : SimClient K) : Decidable (TakesSlot cfg nowSec c) :=
  inferInstanceAs (Decidable (_ ∧ _ ∧ _))

variable [FloorRing K] (P : Platform K) (cfg : Config K)

/-- The client of a slot when its update is about to be built. -/
def readyToSend (nowSec : K) (i : SendInputs K) (c : SimClient K) : SimClient K :=
  (advertise P cfg nowSec i.capsSent
    (requestRefresh cfg i.sysNow (paceSend cfg nowSec c)).1).1

/-- The result of the `send` of an update; `none` when it cannot be signed. -/
def transmitResult (nowSec : K) (i : SendInputs K) (c : SimClient K) : Option Bool :=
  if ((c.updateWalk P cfg i.draws nowSec).buildUpdate P cfg i.epochMs).2 = true then some i.sent
  else none

/-- The result of the `send` in a client's turn; `none` when nothing is handed over. -/
def sendResult (nowSec : K) (i : SendInputs K) (c : SimClient K) : Option Bool :=
  if TakesSlot cfg nowSec c then transmitResult P cfg nowSec i (readyToSend P cfg nowSec i c)
  else none

/-- The consecutive failures after a send. -/
def nextSendErrors (n : Int) : Option Bool → Int
  | none => n
  | some true => 0
  | some false => if 3 * cfg.updateHz ≤ n + 1 then 0 else n + 1

theorem updateWalk_marks (r : SimClient.Draws K) (nowSec : K) (c : SimClient K) :
    marks (c.updateWalk P cfg r nowSec) = marks c := by
  rw [SimClient.updateWalk_moveTo]
  rfl

omit [Field K] [LinearOrder K] [FloorRing K] in
theorem requestRefresh_marks (sysNow : Int) (c : SimClient K) :
    marks (requestRefresh cfg sysNow c).1 = marks c ∧
      (requestRefresh cfg sysNow c).1.state = c.state ∧
      ∀ p ∈ pushes (requestRefresh cfg sysNow c).2, p.1 = false := by
  unfold requestRefresh
  split
  · refine ⟨rfl, rfl, fun p hp => ?_⟩
    rw [pushes_push, pushes_nil, List.mem_singleton] at hp
    rw [hp]
  · exact ⟨rfl, rfl, nofun⟩

omit [FloorRing K] in
theorem advertise_marks (nowSec : K) (sent : Bool) (c : SimClient K) :
    marks (advertise P cfg nowSec sent c).1 = marks c ∧
      (advertise P cfg nowSec sent c).1.state = c.state ∧
      pushes (advertise P cfg nowSec sent c).2 = [] := by
  unfold advertise
  split
  · dsimp only
    split
    · refine ⟨rfl, rfl, ?_⟩
      rw [pushes_send]
      split <;> rfl
    · exact ⟨rfl, rfl, rfl⟩
  · exact ⟨rfl, rfl, rfl⟩

/-- Without a slot a client at most falls silent. -/
theorem sendDueUpdate_idle {nowSec : K} {c : SimClient K} (h : ¬ TakesSlot cfg nowSec c)
    (i : SendInputs K) :
    marks (sendDueUpdate P cfg nowSec i c).1 = marks c ∧
      ((sendDueUpdate P cfg nowSec i c).1.state = c.state ∨
        (sendDueUpdate P cfg nowSec i c).1.state = .suspended) ∧
      ((sendDueUpdate P cfg nowSec i c).1.state = .active →
        nowSec - c.lastSendTime < 1 / (cfg.updateHz : K)) := by
  unfold sendDueUpdate
  split
  · rename_i hna
    exact ⟨rfl, .inl rfl, fun ha => absurd ha hna⟩
  · rename_i ha
    split
    · refine ⟨suspendClient_marks _ _, .inr (suspendClient_state _ _), fun hs => ?_⟩
      exact absurd ((suspendClient_state _ _).symm.trans hs) nofun
    · rename_i hheard
      split
      · rename_i hearly
        exact ⟨rfl, .inl rfl, fun _ => hearly⟩
      · rename_i hslot
        exact absurd ⟨not_not.mp ha, hheard, not_lt.mp hslot⟩ h

/-- The outcome of `transmit`, by the result of its `send`. -/
theorem transmit_marks (nowSec : K) (i : SendInputs K) (c : SimClient K) :
    marks (transmit P cfg nowSec i c).1 =
        { marks c with
          consecutiveSendErrors :=
            nextSendErrors cfg c.consecutiveSendErrors (transmitResult P cfg nowSec i c) } ∧
      ((transmit P cfg nowSec i c).1.state = c.state ∨
        (transmit P cfg nowSec i c).1.state = .suspended) ∧
      (pushes (transmit P cfg nowSec i c).2 ≠ [] →
        transmitResult P cfg nowSec i c = some false ∧
          3 * cfg.updateHz ≤ c.consecutiveSendErrors + 1) := by
  have hm : marks ((c.updateWalk P cfg i.draws nowSec).buildUpdate P cfg i.epochMs).1 = marks c :=
    updateWalk_marks P cfg i.draws nowSec c
  have hs : ((c.updateWalk P cfg i.draws nowSec).buildUpdate P cfg i.epochMs).1.state = c.state :=
    (link_parts (updateWalk_link P cfg i.draws nowSec c)).1
  unfold transmit transmitResult nextSendErrors
  dsimp only
  generalize (c.updateWalk P cfg i.draws nowSec).buildUpdate P cfg i.epochMs = built at hm hs ⊢
  have hn : built.1.consecutiveSendErrors = c.consecutiveSendErrors :=
    congrArg Marks.consecutiveSendErrors hm
  cases hb : built.2 with
  | false =>
    rw [if_pos (by decide), if_neg (by decide)]
    exact ⟨hm, .inl hs, fun h => absurd rfl h⟩
  | true =>
    rw [if_neg (by decide), if_pos rfl]
    cases hsent : i.sent with
    | true =>
      rw [if_pos rfl]
      refine ⟨?_, .inl hs, fun h => absurd rfl h⟩
      rw [← hm]
      rfl
    | false =>
      rw [if_neg Bool.false_ne_true, hn]
      dsimp only
      split
      · rename_i hfull
        refine ⟨?_, .inr (suspendClient_state _ _), fun _ => ⟨rfl, hfull⟩⟩
        refine (suspendClient_marks _ _).trans ?_
        rw [← hm]
        rfl
      · refine ⟨?_, .inl hs, fun h => absurd rfl h⟩
        rw [← hm]
        rfl

/-- In a slot the client asks for a refresh, advertises and transmits. -/
theorem sendDueUpdate_of_slot {nowSec : K} {c : SimClient K} (h : TakesSlot cfg nowSec c)
    (i : SendInputs K) :
    sendDueUpdate P cfg nowSec i c =
      andThen (requestRefresh cfg i.sysNow (paceSend cfg nowSec c)) fun d =>
        andThen (advertise P cfg nowSec i.capsSent d) (transmit P cfg nowSec i) := by
  unfold sendDueUpdate
  rw [if_neg (not_not_intro h.1), if_neg h.2.1, if_neg (not_lt.mpr h.2.2)]

/-- A slot moves the schedule on, and its result the count of failures. -/
theorem sendDueUpdate_slot {nowSec : K} {c : SimClient K} (h : TakesSlot cfg nowSec c)
    (i : SendInputs K) :
    marks (sendDueUpdate P cfg nowSec i c).1 =
        { marks c with
          lastSendTime := (paceSend cfg nowSec c).lastSendTime
          consecutiveSendErrors :=
            nextSendErrors cfg c.consecutiveSendErrors (sendResult P cfg nowSec i c) } ∧
      ((sendDueUpdate P cfg nowSec i c).1.state = .active ∨
        (sendDueUpdate P cfg nowSec i c).1.state = .suspended) ∧
      (∀ creds, (true, .reassign, creds) ∈ pushes (sendDueUpdate P cfg nowSec i c).2 →
        sendResult P cfg nowSec i c = some false ∧
          3 * cfg.updateHz ≤ c.consecutiveSendErrors + 1) := by
  have hslot := sendDueUpdate_of_slot P cfg h i
  obtain ⟨hm₁, hs₁, hp₁⟩ := requestRefresh_marks cfg i.sysNow (paceSend cfg nowSec c)
  obtain ⟨hm₂, hs₂, hp₂⟩ := advertise_marks P cfg nowSec i.capsSent
    (requestRefresh cfg i.sysNow (paceSend cfg nowSec c)).1
  obtain ⟨hm₃, hs₃, hp₃⟩ := transmit_marks P cfg nowSec i (readyToSend P cfg nowSec i c)
  have hresult : sendResult P cfg nowSec i c =
      transmitResult P cfg nowSec i (readyToSend P cfg nowSec i c) := if_pos h
  have hready : marks (readyToSend P cfg nowSec i c) =
      { marks c with lastSendTime := (paceSend cfg nowSec c).lastSendTime } := hm₂.trans hm₁
  have hstate : (readyToSend P cfg nowSec i c).state = .active := (hs₂.trans hs₁).trans h.1
  have hn : (readyToSend P cfg nowSec i c).consecutiveSendErrors = c.consecutiveSendErrors :=
    congrArg Marks.consecutiveSendErrors hready
  rw [← hresult, hn] at hp₃ hm₃
  rw [hready] at hm₃
  rw [hstate] at hs₃
  have hlast : (sendDueUpdate P cfg nowSec i c).1 =
      (transmit P cfg nowSec i (readyToSend P cfg nowSec i c)).1 := by
    unfold readyToSend
    rw [hslot, andThen, after, andThen, after]
  rw [hlast, hslot]
  refine ⟨hm₃, hs₃, fun creds hmem => hp₃ fun hnil => ?_⟩
  rw [andThen, after, andThen, after, pushes_append, pushes_append, hp₂, List.nil_append,
    List.mem_append] at hmem
  rcases hmem with hmem | hmem
  · exact Bool.noConfusion (hp₁ _ hmem)
  · have hnone : (true, Kind.reassign, creds) ∈
        pushes (transmit P cfg nowSec i (readyToSend P cfg nowSec i c)).2 := hmem
    rw [hnil] at hnone
    cases hnone

end Sends

end CksLoadtest.Worker
