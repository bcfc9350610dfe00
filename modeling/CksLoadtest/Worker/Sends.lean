import CksLoadtest.Wire.Signed
import CksLoadtest.Worker.Gauges

/-!
# What a client is when it sends

The token id sits in a prebuilt template, the peer is pinned at connect time, the
settle delay is checked at activation and the key is read at the send. One invariant
of the client says that the four belong to the credentials it holds.
-/
namespace CksLoadtest.Worker

open Lib.Buffer

variable {K : Type*}

/-- The client's uuid has been drawn; an undrawn one begins with a zero octet. -/
def Started (c : SimClient K) : Prop := c.uuid.head? ≠ some 0

/-- Socket, template and settle delay belong to the credentials the client holds. -/
structure Linked (P : Platform K) (cfg : Config K) (clock : Int) (c : SimClient K) : Prop where
  fd : FdOk c
  peer : ∀ p, c.fd = some p →
    P.inetPton c.creds.serverIp4 = some p.addr ∧ p.port = c.creds.serverPort
  settled : c.state = .active → c.creds.udpReadyAt ≤ clock
  started : c.state = .active → Started c
  uuid : c.uuid.length = 32
  message : c.message.length = Wire.ACTOR_UPDATE_MAX_SIZE
  slot : Started c → slice c.message
    (Wire.actorUpdateTokenIdOffset (SimClient.poseFormat cfg)) 8 =
      Wire.i64Bytes c.creds.gameTokenId.toInt

/-- What a send hands to the socket, and the client it does that for. -/
def sends (es : List (Effect K)) : List (SimClient K × Bytes) :=
  es.filterMap fun
    | .send c bytes => some (c, bytes)
    | _ => none

@[simp] theorem sends_append (es fs : List (Effect K)) :
    sends (es ++ fs) = sends es ++ sends fs := List.filterMap_append ..

theorem sends_plain {es : List (Effect K)} (h : es.all plain = true) : sends es = [] := by
  refine List.filterMap_eq_nil_iff.mpr fun e he => ?_
  have hp := List.all_eq_true.mp h e he
  cases e with
  | send => cases hp
  | _ => rfl

namespace Linked

variable {P : Platform K} {cfg : Config K} {clock : Int} {c d : SimClient K}

theorem later {clock' : Int} (h : Linked P cfg clock c) (hk : clock ≤ clock') :
    Linked P cfg clock' c :=
  { h with settled := fun ha => (h.settled ha).trans hk }

theorem of_link (h : Linked P cfg clock c) (hl : link d = link c) : Linked P cfg clock d := by
  obtain ⟨hs, hc, hf, hu, hm⟩ := link_parts hl
  obtain ⟨h1, h2, h3, h4, h5, h6, h7⟩ := h
  constructor
  all_goals simp only [FdOk, Started, hs, hc, hf, hu, hm]
  all_goals assumption

end Linked

theorem fresh_linked [Field K] (P : Platform K) (cfg : Config K) (clock : Int)
    (creds : ClientCredentials) (activateAt : Int) :
    Linked P cfg clock (SimClient.fresh creds activateAt) where
  fd := ⟨fun h => absurd h Bool.false_ne_true, fun h => absurd h nofun⟩
  peer := fun _ h => absurd h nofun
  settled := fun h => absurd h nofun
  started := fun h => absurd h nofun
  uuid := List.length_replicate
  message := List.length_replicate
  slot := fun h => absurd rfl h

theorem suspendClient_link (kind : Kind) (c : SimClient K) :
    (link (suspendClient kind c).1 = link c ∨
      link (suspendClient kind c).1 = (.suspended, c.creds, none, c.uuid, c.message)) ∧
      sends (suspendClient kind c).2 = [] := by
  have hg : sends (if c.state = .active then [Effect.activeClients (K := K) (-1)] else []) =
      [] := by split <;> rfl
  have hc : link { (closeSocket c).1 with state := .suspended } =
      (.suspended, c.creds, none, c.uuid, c.message) ∧ sends (closeSocket c).2 = [] := by
    unfold closeSocket
    cases hf : c.fd with
    | none => exact ⟨by simp [link, hf], rfl⟩
    | some p => exact ⟨rfl, rfl⟩
  unfold suspendClient
  split
  · exact ⟨.inl rfl, rfl⟩
  · refine ⟨.inr hc.1, ?_⟩
    simp only [sends_append, hc.2, hg]
    rfl

/-- A datagram that comes in is answered by nothing. -/
theorem Suspends.silent {c : SimClient K} {o : Out K} (h : Suspends c o) : sends o.2 = [] := by
  induction h with
  | plain _ he => exact sends_plain he
  | suspend kind c => exact (suspendClient_link kind c).2
  | andThen _ _ ih ih' =>
    unfold Worker.andThen Worker.after
    rw [sends_append, ih, ih']
    rfl

/-- A datagram leaves the credentials alone. -/
theorem Suspends.creds {c : SimClient K} {o : Out K} (h : Suspends c o) :
    o.1.creds = c.creds := by
  induction h with
  | plain hl _ => exact (link_parts hl).2.1
  | suspend kind c =>
    rcases (suspendClient_link kind c).1 with hl | hl
    · exact (link_parts hl).2.1
    · exact congrArg (fun l => l.2.1) hl
  | andThen _ _ ih ih' => exact ih'.trans ih

/-- A datagram keeps the link and sends nothing. -/
theorem Suspends.linked {P : Platform K} {cfg : Config K} {clock : Int} {c : SimClient K}
    {o : Out K} (h : Suspends c o) (hl : Linked P cfg clock c) :
    Linked P cfg clock o.1 ∧ sends o.2 = [] := by
  refine ⟨?_, h.silent⟩
  induction h with
  | plain hlink _ => exact hl.of_link hlink
  | suspend kind c =>
    rcases (suspendClient_link kind c).1 with hlink | hlink
    · exact hl.of_link hlink
    · have hsus : Linked P cfg clock { c with state := .suspended, fd := none } :=
        { hl with
          fd := ⟨fun h => absurd h Bool.false_ne_true, fun h => absurd h nofun⟩
          peer := fun p hp => absurd hp nofun
          settled := fun h => absurd h nofun
          started := fun h => absurd h nofun }
      exact hsus.of_link hlink
  | andThen _ _ ih ih' => exact ih' (ih hl)

theorem closeSocket_link (c : SimClient K) : (closeSocket c).1.uuid = c.uuid ∧
    (closeSocket c).1.creds = c.creds ∧ (closeSocket c).1.message = c.message ∧
    (closeSocket c).1.fd = none ∧ sends (closeSocket c).2 = [] := by
  unfold closeSocket
  cases hf : c.fd with
  | none => exact ⟨rfl, rfl, rfl, hf, rfl⟩
  | some p => exact ⟨rfl, rfl, rfl, rfl, rfl⟩

section

variable [Field K] [LinearOrder K] [FloorRing K] (P : Platform K) (cfg : Config K)

omit [LinearOrder K] [FloorRing K] in
theorem rebuildTemplate_message {c : SimClient K} (hu : c.uuid.length = 32) :
    (c.rebuildTemplate cfg).message.length = Wire.ACTOR_UPDATE_MAX_SIZE ∧
      slice (c.rebuildTemplate cfg).message
        (Wire.actorUpdateTokenIdOffset (SimClient.poseFormat cfg)) 8 =
          Wire.i64Bytes c.creds.gameTokenId.toInt := by
  unfold SimClient.rebuildTemplate
  dsimp only
  exact ⟨Wire.length_template _ _ _ _ _ _ hu, Wire.template_tokenId _ _ _ _ _ _ hu⟩

omit [LinearOrder K] [FloorRing K] in
theorem applyUpdate_silent (u : Update) (c : SimClient K) :
    sends (applyUpdate cfg u c).2 = [] := by
  unfold applyUpdate
  split
  · rfl
  · dsimp only
    generalize (if u.creds.gameTokenId ≠ c.creds.gameTokenId then
      SimClient.rebuildTemplate cfg { c with creds := u.creds, refreshRequested := false }
      else { c with creds := u.creds, refreshRequested := false }) = d
    split
    · rfl
    · split
      · rw [sends_append, (closeSocket_link d).2.2.2.2]
        rfl
      · rfl

omit [LinearOrder K] [FloorRing K] in
/-- An applied update leaves no socket that was connected for the old credentials, and
no template with the old token id. -/
theorem applyUpdate_linked {clock : Int} (u : Update) {c : SimClient K}
    (h : Linked P cfg clock c) :
    Linked P cfg clock (applyUpdate cfg u c).1 ∧ sends (applyUpdate cfg u c).2 = [] := by
  refine ⟨?_, applyUpdate_silent cfg u c⟩
  unfold applyUpdate
  split
  · exact h
  · dsimp only
    generalize hd : (if u.creds.gameTokenId ≠ c.creds.gameTokenId then
      SimClient.rebuildTemplate cfg { c with creds := u.creds, refreshRequested := false }
      else { c with creds := u.creds, refreshRequested := false }) = d
    have hsame : d.state = c.state ∧ d.fd = c.fd ∧ d.uuid = c.uuid ∧ d.creds = u.creds := by
      rw [← hd]
      split <;> exact ⟨rfl, rfl, rfl, rfl⟩
    obtain ⟨hs, hf, hu, hc⟩ := hsame
    have hmessage : d.message.length = Wire.ACTOR_UPDATE_MAX_SIZE ∧
        (Started d → slice d.message
          (Wire.actorUpdateTokenIdOffset (SimClient.poseFormat cfg)) 8 =
            Wire.i64Bytes d.creds.gameTokenId.toInt) := by
      rw [← hd]
      split
      · obtain ⟨hlen, hslot⟩ := rebuildTemplate_message cfg
          (c := { c with creds := u.creds, refreshRequested := false }) h.uuid
        exact ⟨hlen, fun _ => hslot⟩
      · rename_i hid
        rw [not_not] at hid
        refine ⟨h.message, fun hst => ?_⟩
        rw [h.slot hst, ← hid]
    -- what is left is not ACTIVE and has no socket
    have hrest : ∀ e : SimClient K, e.state ≠ .active → e.fd = none → e.uuid = d.uuid →
        e.creds = d.creds → e.message = d.message → Linked P cfg clock e := by
      intro e hes hef heu hec hem
      refine ⟨⟨fun h => ?_, fun h => absurd h hes⟩, fun p hp => ?_, fun h => absurd h hes,
        fun h => absurd h hes, by rw [heu, hu, h.uuid], by rw [hem, hmessage.1], fun hst => ?_⟩
      · rw [hef] at h
        cases h
      · rw [hef] at hp
        cases hp
      · rw [hem, hec]
        exact hmessage.2 (by unfold Started at hst ⊢; rwa [heu] at hst)
    have hclosed := closeSocket_link d
    have hnone : c.state ≠ .active → d.fd = none := by
      intro hca
      have hclosed := h.fd.closed hca
      rw [hf]
      simpa using hclosed
    split
    · rename_i hsus
      exact hrest _ nofun (hnone (by simp [hsus])) rfl rfl rfl
    · split
      · exact hrest _ nofun hclosed.2.2.2.1 hclosed.1 hclosed.2.1 hclosed.2.2.1
      · rename_i hna
        exact hrest _ hna (hnone (by rwa [← hs])) rfl rfl rfl

theorem generateUuid_spec (a b : UInt64) : (SimClient.generateUuid a b).length = 32 ∧
    (SimClient.generateUuid a b).head? ≠ some 0 := by
  have hdigit : ∀ d < 16, UInt8.ofNat (if d < 10 then 48 + d else 55 + d) ≠ 0 := by decide
  unfold SimClient.generateUuid SimClient.hexDigits
  refine ⟨by simp, ?_⟩
  rw [List.head?_append_of_ne_nil _ (by simp), List.head?_map, List.head?_range]
  intro h
  exact hdigit _ (Nat.mod_lt _ (by decide)) (Option.some.inj h)

/-- A client that starts or resumes has drawn its uuid, and its template is built. -/
theorem resume_linked {clock : Int} (now : Int) (nowSec : K) (r : SimClient.Draws K)
    {c : SimClient K} (h : Linked P cfg clock c) :
    Linked P cfg clock (resume P cfg now nowSec r c) ∧ Started (resume P cfg now nowSec r c) ∧
      (resume P cfg now nowSec r c).creds = c.creds := by
  have hrest : ∀ d : SimClient K, link { d with
      lastRxTime := nowSec
      activatedAt := now
      permWindowCenter := d.chunk
      permWindowValid := true } = link d := fun _ => rfl
  unfold resume
  dsimp only
  split
  · rename_i hz
    have hl := initSimulation_link P cfg r nowSec c
    obtain ⟨hulen, hstart⟩ := generateUuid_spec r.uuidA r.uuidB
    generalize SimClient.initSimulation P cfg r nowSec c = d at hl
    simp only [link, Prod.mk.injEq] at hl
    obtain ⟨hs, hc, hf, hu, hm⟩ := hl
    have hna : c.state ≠ .active := fun ha => h.started ha hz
    have hd : Linked P cfg clock d := by
      refine ⟨?_, ?_, ?_, fun _ => ?_, ?_, ?_, fun _ => ?_⟩
      · unfold FdOk
        rw [hf, hs]
        exact h.fd
      · rw [hf, hc]
        exact h.peer
      · rw [hs, hc]
        exact h.settled
      · unfold Started
        rwa [hu]
      · rw [hu, hulen]
      · rw [hm]
        exact Wire.length_template _ _ _ _ _ _ hulen
      · rw [hm, hc]
        exact Wire.template_tokenId _ _ _ _ _ _ hulen
    refine ⟨hd.of_link (hrest d), ?_, hc⟩
    unfold Started
    rwa [show d.uuid = _ from hu]
  · rename_i hz
    refine ⟨h.of_link rfl, hz, rfl⟩

omit [Field K] [LinearOrder K] [FloorRing K] in
theorem openSocket_link (o : OpenOutcome) (c : SimClient K) :
    sends (openSocket P cfg o c).1.2 = [] ∧
      if (openSocket P cfg o c).2 then
        ∃ addr, P.inetPton c.creds.serverIp4 = some addr ∧
          (openSocket P cfg o c).1.1 = { c with fd := some ⟨addr, c.creds.serverPort⟩ }
      else (openSocket P cfg o c).1.1 = c := by
  have hb : ∀ b : Prop, [Decidable b] →
      sends (if b then [Effect.count (K := K) .rcvbufSetFailures 1] else []) = [] := by
    intro b _
    split <;> rfl
  unfold openSocket
  split
  · exact ⟨rfl, rfl⟩
  · cases hp : P.inetPton c.creds.serverIp4 with
    | none => exact ⟨rfl, rfl⟩
    | some addr =>
      have hcons : ∀ es : List (Effect K), sends (.socketOpened :: es) = sends es := fun _ => rfl
      dsimp only
      split
      · refine ⟨?_, rfl⟩
        rw [List.cons_append, hcons, sends_append, hb]
        rfl
      · refine ⟨?_, addr, rfl, rfl⟩
        rw [hcons, hb]

theorem activateDueClient_silent (now : Int) (nowSec : K) (r : SimClient.Draws K)
    (o : OpenOutcome) (c : SimClient K) :
    sends (activateDueClient P cfg now nowSec r o c).2 = [] := by
  unfold activateDueClient
  split
  · rfl
  · split
    · rfl
    · obtain ⟨hsends, -⟩ := openSocket_link P cfg o (resume P cfg now nowSec r c)
      dsimp only
      split
      · rw [sends_append, hsends]
        rfl
      · unfold andThen after
        rw [sends_append, hsends, (suspendClient_link .reassign _).2]
        rfl

/-- An activation waits for the settle delay and connects to the server the client was
assigned. -/
theorem activateDueClient_linked {clock now : Int} (hnow : now ≤ clock) (nowSec : K)
    (r : SimClient.Draws K) (o : OpenOutcome) {c : SimClient K} (h : Linked P cfg clock c) :
    Linked P cfg clock (activateDueClient P cfg now nowSec r o c).1 ∧
      sends (activateDueClient P cfg now nowSec r o c).2 = [] := by
  refine ⟨?_, activateDueClient_silent P cfg now nowSec r o c⟩
  unfold activateDueClient
  split
  · exact h
  · split
    · exact h
    · rename_i hdue
      rw [not_or, not_lt, not_lt] at hdue
      obtain ⟨hl, hst, hcreds⟩ := resume_linked P cfg now nowSec r h
      generalize resume P cfg now nowSec r c = d at hl hst hcreds
      obtain ⟨-, hopen⟩ := openSocket_link P cfg o d
      dsimp only
      split
      · rename_i hok
        rw [if_pos hok] at hopen
        obtain ⟨addr, hp, hd⟩ := hopen
        rw [hd]
        refine ⟨⟨fun _ => rfl, fun _ => rfl⟩, ?_, fun _ => ?_, fun _ => hst, hl.uuid, hl.message,
          hl.slot⟩
        · intro p hpeer
          obtain rfl := Option.some.inj hpeer
          exact ⟨hp, rfl⟩
        · show d.creds.udpReadyAt ≤ clock
          rw [hcreds]
          exact hdue.2.trans hnow
      · rename_i hok
        rw [if_neg hok] at hopen
        rw [show (openSocket P cfg o d).1 = (d, (openSocket P cfg o d).1.2) from
          Prod.ext hopen rfl]
        exact ((Suspends.suspend .reassign d).linked hl).1

/-- The datagrams of a turn go out on the client's socket, signed for the credentials it
holds. -/
def SendsOk (c : SimClient K) (es : List (Effect K)) : Prop :=
  ∀ d bytes, (d, bytes) ∈ sends es → d.state = c.state ∧ d.creds = c.creds ∧ d.fd = c.fd ∧
    (c.creds.appToken.length = Hmac.TOKEN_OCTETS →
      Wire.SignedFor P c.creds.gameTokenId c.creds.appToken bytes)

variable {P cfg}

omit [Field K] [LinearOrder K] [FloorRing K] in
theorem SendsOk.of_nil {c : SimClient K} {es : List (Effect K)} (h : sends es = []) :
    SendsOk P c es := by
  intro d bytes hd
  rw [h] at hd
  cases hd

omit [Field K] [LinearOrder K] [FloorRing K] in
theorem SendsOk.append {c : SimClient K} {es fs : List (Effect K)} (h : SendsOk P c es)
    (k : SendsOk P c fs) : SendsOk P c (es ++ fs) := by
  intro d bytes hd
  rw [sends_append, List.mem_append] at hd
  exact hd.elim (h d bytes) (k d bytes)

omit [LinearOrder K] [FloorRing K] in
theorem buildUpdate_linked {clock : Int} (epochMs : Int) {c : SimClient K}
    (h : Linked P cfg clock c) (hst : Started c) :
    Linked P cfg clock (c.buildUpdate P cfg epochMs).1 ∧
      ((c.buildUpdate P cfg epochMs).2 = true →
        c.creds.appToken.length = Hmac.TOKEN_OCTETS →
        Wire.SignedFor P c.creds.gameTokenId c.creds.appToken
          ((c.buildUpdate P cfg epochMs).1.message.take (SimClient.messageSize cfg))) := by
  unfold SimClient.buildUpdate
  dsimp only
  generalize Wire.ActorPose.mk c.pos.x c.pos.y c.pos.z _ _ _ _ _ _ _ _ = pose
  have hspec := Wire.finalize_spec P (SimClient.poseFormat cfg) c.chunk.x c.chunk.y c.chunk.z pose
    c.sequence c.creds.appToken h.message
  dsimp only at hspec
  generalize Wire.finalizeActorUpdateFmt P c.message _ _ _ _ pose _ _ = out at hspec
  obtain ⟨hlen, hslot, hsigned⟩ := hspec
  refine ⟨⟨h.fd, h.peer, h.settled, h.started, h.uuid, hlen, fun _ => ?_⟩, fun hok htoken => ?_⟩
  · exact hslot.trans (h.slot hst)
  · exact hsigned hok htoken c.creds.gameTokenId (h.slot hst)

/-- A built update is handed over as it is, and what follows from the result sends nothing. -/
theorem transmit_built (P : Platform K) (cfg : Config K) (nowSec : K) (i : SendInputs K)
    (c : SimClient K) :
    let built := (c.updateWalk P cfg i.draws nowSec).buildUpdate P cfg i.epochMs
    ∃ o : Out K, Suspends built.1 o ∧ (transmit P cfg nowSec i c).1 = o.1 ∧
      sends (transmit P cfg nowSec i c).2 =
        if built.2 then [(built.1, built.1.message.take (SimClient.messageSize cfg))] else [] := by
  unfold transmit
  dsimp only
  generalize (c.updateWalk P cfg i.draws nowSec).buildUpdate P cfg i.epochMs = built
  split
  · exact ⟨(built.1, [.count .txSendErrors 1]), .plain rfl rfl, rfl, rfl⟩
  · rename_i hok
    rw [not_not] at hok
    rw [if_pos hok]
    split
    · exact ⟨({ built.1 with consecutiveSendErrors := 0 }, []), .plain rfl rfl, rfl, rfl⟩
    · split
      · have hsus : Suspends built.1
            (suspendClient .reassign { built.1 with consecutiveSendErrors := 0 }) :=
          .of_link (d := { built.1 with consecutiveSendErrors := 0 }) rfl (.suspend .reassign _)
        refine ⟨_, hsus, rfl, ?_⟩
        unfold after
        rw [sends_append, hsus.silent]
        rfl
      · exact ⟨({ built.1 with consecutiveSendErrors := built.1.consecutiveSendErrors + 1 }, []),
          .plain rfl rfl, rfl, rfl⟩

theorem transmit_linked {clock : Int} (nowSec : K) (i : SendInputs K) {c : SimClient K}
    (h : Linked P cfg clock c) (hst : Started c) :
    Linked P cfg clock (transmit P cfg nowSec i c).1 ∧
      SendsOk P c (transmit P cfg nowSec i c).2 := by
  have hl : link (c.updateWalk P cfg i.draws nowSec) = link c := updateWalk_link ..
  obtain ⟨o, hsus, hclient, hsends⟩ := transmit_built P cfg nowSec i c
  generalize c.updateWalk P cfg i.draws nowSec = w at hl hsus hsends
  obtain ⟨hs, hc, hf, hu, -⟩ := link_parts hl
  have hw : Started w := by unfold Started at hst ⊢; rwa [hu]
  obtain ⟨hb, hsigned⟩ := buildUpdate_linked i.epochMs (h.of_link hl) hw
  have hbs : (w.buildUpdate P cfg i.epochMs).1.state = w.state := rfl
  have hbc : (w.buildUpdate P cfg i.epochMs).1.creds = w.creds := rfl
  have hbf : (w.buildUpdate P cfg i.epochMs).1.fd = w.fd := rfl
  generalize w.buildUpdate P cfg i.epochMs = built at hb hsigned hbs hbc hbf hsus hsends
  rw [hc] at hsigned
  refine ⟨hclient ▸ (hsus.linked hb).1, fun d bytes hd => ?_⟩
  rw [hsends] at hd
  split at hd
  · rename_i hok
    rw [List.mem_singleton, Prod.mk.injEq] at hd
    obtain ⟨rfl, rfl⟩ := hd
    exact ⟨hbs.trans hs, hbc.trans hc, hbf.trans hf, hsigned hok⟩
  · cases hd

omit [FloorRing K] in
/-- The only datagram of `advertise` is the capabilities message of the client. -/
theorem advertise_built {P : Platform K} {cfg : Config K} {nowSec : K} {sent : Bool}
    {c d : SimClient K} {bytes : Bytes}
    (hd : (d, bytes) ∈ sends (advertise P cfg nowSec sent c).2) :
    d.state = c.state ∧ d.creds = c.creds ∧ d.fd = c.fd ∧ d.uuid = c.uuid ∧
      Wire.buildCapabilities P cfg.appId c.creds.gameTokenId Wire.CAP_BUNDLE_SIGNED c.sequence
        c.creds.appToken = some bytes := by
  unfold advertise at hd
  split at hd
  · dsimp only at hd
    split at hd
    · rename_i bytes' hb
      have hcount :
          sends (if sent then [Effect.count (K := K) .txCapabilities 1] else []) = [] := by
        split <;> rfl
      have hcons : ∀ (e : SimClient K) (es : List (Effect K)),
          sends (.send e bytes' :: es) = (e, bytes') :: sends es := fun _ _ => rfl
      rw [hcons, hcount, List.mem_singleton, Prod.mk.injEq] at hd
      obtain ⟨rfl, rfl⟩ := hd
      exact ⟨rfl, rfl, rfl, rfl, hb⟩
    · cases hd
  · cases hd

omit [FloorRing K] in
theorem advertise_sends (P : Platform K) (cfg : Config K) (nowSec : K) (sent : Bool)
    (c : SimClient K) :
    link (advertise P cfg nowSec sent c).1 = link c ∧
      SendsOk P c (advertise P cfg nowSec sent c).2 := by
  constructor
  · unfold advertise
    split
    · dsimp only
      split <;> rfl
    · rfl
  · intro d bytes hd
    obtain ⟨hs, hc, hf, -, hb⟩ := advertise_built hd
    exact ⟨hs, hc, hf, fun htoken => Wire.buildCapabilities_spec hb htoken⟩

/-- A client whose slot has not come sends nothing; an ACTIVE one whose slot has come is asked
for a refresh, advertises and transmits. -/
theorem sendDueUpdate_cases (P : Platform K) (cfg : Config K) (nowSec : K) (i : SendInputs K)
    (c : SimClient K) :
    Suspends c (sendDueUpdate P cfg nowSec i c) ∨
      c.state = .active ∧ ∃ asked : Out K, link asked.1 = link c ∧ sends asked.2 = [] ∧
        sendDueUpdate P cfg nowSec i c = andThen asked fun d =>
          andThen (advertise P cfg nowSec i.capsSent d) (transmit P cfg nowSec i) := by
  unfold sendDueUpdate
  split
  · exact .inl (.plain rfl rfl)
  · rename_i ha
    rw [not_not] at ha
    split
    · exact .inl (.after rfl (.suspend .reassign c))
    · split
      · exact .inl (.plain rfl rfl)
      · refine .inr ⟨ha, requestRefresh cfg i.sysNow (paceSend cfg nowSec c), ?_, ?_, rfl⟩
        · unfold requestRefresh
          split <;> rfl
        · unfold requestRefresh
          split <;> rfl

/-- **One turn of `sendDueUpdates`.** It keeps the link, and what it sends goes out for
an ACTIVE client and is signed for the credentials that client holds. -/
theorem sendDueUpdate_linked {clock : Int} (nowSec : K) (i : SendInputs K) {c : SimClient K}
    (h : Linked P cfg clock c) :
    Linked P cfg clock (sendDueUpdate P cfg nowSec i c).1 ∧
      (SendsOk P c (sendDueUpdate P cfg nowSec i c).2) ∧
      (c.state ≠ .active → sends (sendDueUpdate P cfg nowSec i c).2 = []) := by
  rcases sendDueUpdate_cases P cfg nowSec i c with hidle | ⟨ha, asked, hasked, hnone, heq⟩
  · exact ⟨(hidle.linked h).1, .of_nil hidle.silent, fun _ => hidle.silent⟩
  · rw [heq]
    obtain ⟨hal, hasends⟩ := advertise_sends P cfg nowSec i.capsSent asked.1
    have hlink := hal.trans hasked
    have hl := h.of_link hlink
    have hst : Started (advertise P cfg nowSec i.capsSent asked.1).1 := by
      have hstc := h.started ha
      unfold Started at hstc ⊢
      rwa [(link_parts hlink).2.2.2.1]
    obtain ⟨ht, htsends⟩ := transmit_linked nowSec i hl hst
    obtain ⟨hs, hc, hf, -⟩ := link_parts hasked
    obtain ⟨hs', hc', hf', -⟩ := link_parts hlink
    refine ⟨ht, ?_, fun hna => absurd ha hna⟩
    refine (SendsOk.of_nil hnone).append (SendsOk.append ?_ ?_)
    · unfold SendsOk at hasends ⊢
      rwa [hs, hc, hf] at hasends
    · unfold SendsOk at htsends ⊢
      rwa [hs', hc', hf'] at htsends

end

end CksLoadtest.Worker
