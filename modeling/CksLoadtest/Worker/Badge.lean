import CksLoadtest.Wire.Layout
import CksLoadtest.Worker.Life

/-!
# Who a datagram is from

The buffer of a client that has started is the template of its uuid, its current token and the
configuration, with its sends on top. So what it hands to `send()` is laid out for that client as
it is, and with a token of 64 octets it passes the check the receiving side makes with that token.
-/
namespace CksLoadtest

open Lib.Buffer

variable {K : Type*}

namespace SimClient

/-- The static fields of the client's updates. -/
def templateArgs (cfg : Config K) (uuid : Vector UInt8 32) (c : SimClient K) :
    Wire.TemplateArgs where
  uuid32 := uuid
  appId := cfg.appId
  gameTokenId := c.creds.gameTokenId
  distance := UInt8.ofNat (cfg.distance % 256).toNat
  decay := UInt8.ofNat (cfg.decay % 256).toNat

/-- The dynamic fields of an update with sequence number `seq`. -/
def updateArgs [Field K] (P : Platform K) (cfg : Config K) (epochMs : Int) (seq : UInt8)
    (c : SimClient K) : Wire.UpdateArgs K where
  chunkX := Int64.ofInt c.chunk.x
  chunkY := Int64.ofInt c.chunk.y
  chunkZ := Int64.ofInt c.chunk.z
  pose :=
    { posX := c.pos.x, posY := c.pos.y, posZ := c.pos.z
      velX := c.vel.x, velY := c.vel.y, velZ := c.vel.z
      pitch := 0
      yaw := if cfg.isBwf then P.atan2 c.dir.x c.dir.z else 0
      roll := if cfg.isBwf then 0 else c.rotYawDeg
      grounded := false
      updatedAtMs := if cfg.isBwf then (epochMs : K) else 0 }
  seq := seq
  token64 := c.creds.appToken

theorem template_of_uuid (cfg : Config K) (c : SimClient K) {uuid : Bytes}
    (h : uuid.length = 32) : ∃ v : Vector UInt8 32, v.toList = uuid ∧
      Wire.template (poseFormat cfg) (c.templateArgs cfg v) =
        Wire.initActorUpdateTemplateFmt (poseFormat cfg) uuid cfg.appId c.creds.gameTokenId
          (UInt8.ofNat (cfg.distance % 256).toNat) (UInt8.ofNat (cfg.decay % 256).toNat) := by
  obtain ⟨v, rfl⟩ : ∃ v : Vector UInt8 32, v.toList = uuid := ⟨⟨uuid.toArray, h⟩, rfl⟩
  exact ⟨v, rfl, rfl⟩

end SimClient

namespace Wire

/-- A chunk coordinate is written modulo `2 ^ 64`. -/
theorem i64Bytes_ofInt (x : Int) : i64Bytes (Int64.ofInt x).toInt = i64Bytes x := by
  unfold i64Bytes
  rw [Int64.toInt_ofInt, show (2 : Int) ^ 64 = (Int64.size : Nat) from rfl, Int.bmod_emod]

theorem finalizeAll_concat (P : Platform K) (fmt : PoseFormat) (buf : Bytes)
    (us : List (UpdateArgs K)) (u : UpdateArgs K) :
    finalizeAll P fmt buf (us ++ [u]) = (finalize P fmt (finalizeAll P fmt buf us) u).1 := by
  induction us generalizing buf with
  | nil => rfl
  | cons v us ih => exact ih _

end Wire

namespace Worker

variable (P : Platform K) (cfg : Config K)

/-- The buffer belongs to the client. -/
structure Badged (c : SimClient K) : Prop where
  length : c.uuid.length = 32
  started : c.state = .active → Started c
  message : Started c → ∃ (uuid : Vector UInt8 32) (us : List (Wire.UpdateArgs K)),
    uuid.toList = c.uuid ∧ c.message = Wire.finalizeAll P (SimClient.poseFormat cfg)
      (Wire.template (SimClient.poseFormat cfg) (c.templateArgs cfg uuid)) us

/-- A datagram of client `d`, whose uuid is `uuid`. What a shorter token is signed with lies
behind its end, so the tag is known for 64 octets only. -/
inductive From [Field K] (uuid : Vector UInt8 32) (d : SimClient K) (bytes : Bytes) : Prop
  | capabilities (seq : UInt8) (tag : Bytes)
      (laid : bytes = overwrite (Wire.writeFields (List.replicate Wire.CAPABILITIES_SIZE 0)
        (Wire.capabilitiesFields cfg.appId d.creds.gameTokenId Wire.CAP_BUNDLE_SIGNED seq))
          (Wire.HEADER_SIZE + 4) tag)
      (signed : d.creds.appToken.length = Hmac.TOKEN_OCTETS →
        Wire.buildCapabilities P cfg.appId d.creds.gameTokenId Wire.CAP_BUNDLE_SIGNED seq
          d.creds.appToken = some bytes)
  | update (epochMs : Int)
      (laid : Wire.LaidOut P (SimClient.poseFormat cfg) (d.templateArgs cfg uuid)
        (d.updateArgs P cfg epochMs (d.sequence - 1)) bytes)
      (verified : d.creds.appToken.length = Hmac.TOKEN_OCTETS →
        Wire.verifyNotification P bytes d.creds.appToken = true)

namespace Badged

variable {P} {cfg} {c d : SimClient K} {o : Out K}

theorem of_link (h : Badged P cfg c) (hl : link d = link c) : Badged P cfg d := by
  obtain ⟨hs, hc, -, hu, hm⟩ := link_parts hl
  obtain ⟨hlength, hstarted, hmessage⟩ := h
  constructor
  all_goals simp only [Started, SimClient.templateArgs, hs, hc, hu, hm]
  all_goals assumption

/-- A client out of service keeps its buffer. -/
theorem rest (h : Badged P cfg c) (hs : d.state ≠ .active) (hc : d.creds = c.creds)
    (hu : d.uuid = c.uuid) (hm : d.message = c.message) : Badged P cfg d := by
  refine ⟨hu ▸ h.length, fun ha => absurd ha hs, ?_⟩
  have hmessage := h.message
  simp only [Started, SimClient.templateArgs, hc, hu, hm] at hmessage ⊢
  exact hmessage

theorem fresh [Field K] (P : Platform K) (cfg : Config K) (creds : ClientCredentials)
    (activateAt : Int) : Badged P cfg (SimClient.fresh creds activateAt) where
  length := List.length_replicate
  started := fun h => absurd h State.noConfusion
  message := fun h => absurd rfl h

theorem suspends (h : Badged P cfg c) (hs : Suspends c o) : Badged P cfg o.1 := by
  induction hs with
  | plain hl _ => exact h.of_link hl
  | suspend kind c =>
    rcases (suspendClient_link kind c).1 with hl | hl
    · exact h.of_link hl
    · simp only [link, Prod.mk.injEq] at hl
      refine h.rest ?_ hl.2.1 hl.2.2.2.1 hl.2.2.2.2
      rw [hl.1]
      exact State.noConfusion
  | andThen _ _ ih ih' => exact ih' (ih h)

/-- A rebuilt template is the client's. -/
theorem rebuild [Field K] {c : SimClient K} (hlength : c.uuid.length = 32)
    (hstarted : c.state = .active → Started c) : Badged P cfg (c.rebuildTemplate cfg) where
  length := hlength
  started := hstarted
  message _ := by
    obtain ⟨uuid, hu, ht⟩ := c.template_of_uuid cfg hlength
    refine ⟨uuid, [], hu, ?_⟩
    unfold SimClient.templateArgs at ht
    unfold SimClient.rebuildTemplate SimClient.templateArgs Wire.finalizeAll
    dsimp only
    exact ht.symm

section

variable [Field K] [LinearOrder K] [FloorRing K]

omit [LinearOrder K] [FloorRing K] in
theorem update (h : Badged P cfg c) (u : Update) : Badged P cfg (applyUpdate cfg u c).1 := by
  unfold applyUpdate
  split
  · exact h
  · dsimp only
    generalize hd : (if u.creds.gameTokenId ≠ c.creds.gameTokenId then
      SimClient.rebuildTemplate cfg { c with creds := u.creds, refreshRequested := false }
      else { c with creds := u.creds, refreshRequested := false }) = d
    have hbadged : Badged P cfg d := by
      rw [← hd]
      split
      · exact rebuild h.length h.started
      · rename_i hid
        refine ⟨h.length, h.started, ?_⟩
        have hmessage := h.message
        unfold SimClient.templateArgs at hmessage ⊢
        rw [not_not] at hid
        dsimp only
        rw [hid]
        exact hmessage
    obtain ⟨huuid, hcreds, hmessage, -⟩ := closeSocket_link d
    split
    · exact hbadged.rest State.noConfusion rfl rfl rfl
    · split
      · exact hbadged.rest State.noConfusion hcreds huuid hmessage
      · exact hbadged

theorem resume (h : Badged P cfg c) (now : Int) (nowSec : K) (r : SimClient.Draws K) :
    Badged P cfg (Worker.resume P cfg now nowSec r c) ∧
      Started (Worker.resume P cfg now nowSec r c) := by
  unfold Worker.resume
  dsimp only
  split
  · rename_i hz
    have hl := initSimulation_link P cfg r nowSec c
    obtain ⟨hlength, hstart⟩ := generateUuid_spec r.uuidA r.uuidB
    generalize SimClient.initSimulation P cfg r nowSec c = d at hl
    simp only [link, Prod.mk.injEq] at hl
    obtain ⟨-, hc, -, hu, hm⟩ := hl
    have hstarted : Started d := by
      unfold Started
      rwa [hu]
    refine ⟨⟨hu ▸ hlength, fun _ => hstarted, fun _ => ?_⟩, hstarted⟩
    obtain ⟨uuid, huuid, ht⟩ := c.template_of_uuid cfg hlength
    refine ⟨uuid, [], huuid.trans hu.symm, ?_⟩
    unfold SimClient.templateArgs at ht ⊢
    unfold Wire.finalizeAll
    dsimp only
    rw [hm, hc]
    exact ht.symm
  · rename_i hz
    exact ⟨h.of_link rfl, hz⟩

theorem activate (h : Badged P cfg c) (now : Int) (nowSec : K) (r : SimClient.Draws K)
    (o : OpenOutcome) : Badged P cfg (activateDueClient P cfg now nowSec r o c).1 := by
  unfold activateDueClient
  split
  · exact h
  · split
    · exact h
    · obtain ⟨hd, hst⟩ := h.resume now nowSec r
      generalize Worker.resume P cfg now nowSec r c = d at hd hst
      obtain ⟨-, hopen⟩ := openSocket_link P cfg o d
      dsimp only
      split
      · rename_i hok
        rw [if_pos hok] at hopen
        obtain ⟨addr, -, heq⟩ := hopen
        rw [heq]
        exact ⟨hd.length, fun _ => hst, hd.message⟩
      · rename_i hok
        rw [if_neg hok] at hopen
        unfold andThen after
        dsimp only
        rw [hopen]
        exact hd.suspends (.suspend .reassign d)

omit [LinearOrder K] [FloorRing K] in
/-- One more send on the client's buffer. -/
theorem build (h : Badged P cfg c) (hst : Started c) (epochMs : Int) :
    Badged P cfg (c.buildUpdate P cfg epochMs).1 ∧
      (c.buildUpdate P cfg epochMs).1.uuid = c.uuid ∧
      (c.buildUpdate P cfg epochMs).1.creds = c.creds ∧
      ((c.buildUpdate P cfg epochMs).2 = true → ∃ uuid : Vector UInt8 32, uuid.toList = c.uuid ∧
        From P cfg uuid (c.buildUpdate P cfg epochMs).1
          ((c.buildUpdate P cfg epochMs).1.message.take (SimClient.messageSize cfg))) := by
  obtain ⟨uuid, us, hu, hm⟩ := h.message hst
  have hsent : c.buildUpdate P cfg epochMs =
      let out := Wire.finalize P (SimClient.poseFormat cfg) c.message
        (c.updateArgs P cfg epochMs c.sequence)
      ({ c with message := out.1, sequence := c.sequence + 1 }, out.2) := by
    unfold SimClient.buildUpdate Wire.finalize Wire.finalizeActorUpdateFmt Wire.sendFields
    dsimp only [SimClient.updateArgs]
    simp only [Wire.i64Bytes_ofInt]
  obtain ⟨hlaid, -, -, -, hverified, -⟩ := Wire.finalizeActorUpdateFmt_layout P
    (SimClient.poseFormat cfg) (c.templateArgs cfg uuid) us (c.updateArgs P cfg epochMs c.sequence)
  rw [← hm] at hlaid hverified
  rw [hsent]
  dsimp only
  refine ⟨⟨h.length, h.started, fun _ => ?_⟩, rfl, rfl, fun hok => ⟨uuid, hu, ?_⟩⟩
  · refine ⟨uuid, us ++ [c.updateArgs P cfg epochMs c.sequence], hu, ?_⟩
    rw [Wire.finalizeAll_concat]
    exact congrArg (fun buf => (Wire.finalize P _ buf _).1) hm
  · have hseq : c.sequence + 1 - 1 = c.sequence := UInt8.add_sub_cancel ..
    refine .update epochMs ?_ fun _ => (hverified hok).2
    unfold SimClient.updateArgs at hlaid ⊢
    dsimp only
    rw [hseq]
    exact hlaid

end

end Badged

/-- What a turn hands over comes from the client, which has started. -/
def SendsFrom [Field K] (c : SimClient K) (es : List (Effect K)) : Prop :=
  ∀ d bytes, (d, bytes) ∈ sends es → Started c ∧ d.uuid = c.uuid ∧ d.creds = c.creds ∧
    ∃ uuid : Vector UInt8 32, uuid.toList = c.uuid ∧ From P cfg uuid d bytes

variable {P} {cfg} {c : SimClient K}

theorem SendsFrom.of_nil [Field K] {es : List (Effect K)} (h : sends es = []) :
    SendsFrom P cfg c es := by
  intro d bytes hd
  rw [h] at hd
  cases hd

theorem SendsFrom.append [Field K] {es fs : List (Effect K)} (h : SendsFrom P cfg c es)
    (k : SendsFrom P cfg c fs) : SendsFrom P cfg c (es ++ fs) := by
  intro d bytes hd
  rw [sends_append, List.mem_append] at hd
  exact hd.elim (h d bytes) (k d bytes)

theorem SendsFrom.of_same [Field K] {d : SimClient K} {es : List (Effect K)}
    (h : SendsFrom P cfg d es) (hu : d.uuid = c.uuid) (hc : d.creds = c.creds) :
    SendsFrom P cfg c es := by
  unfold SendsFrom Started at h ⊢
  rwa [← hu, ← hc]

section

variable [Field K] [LinearOrder K] [FloorRing K]

omit [FloorRing K] in
theorem Badged.advertise (h : Badged P cfg c) (hst : Started c) (nowSec : K) (sent : Bool) :
    SendsFrom P cfg c (Worker.advertise P cfg nowSec sent c).2 := by
  intro d bytes hd
  obtain ⟨-, hc, -, hu, hb⟩ := advertise_built hd
  rw [← hc] at hb
  have hsigned := hb
  unfold Wire.buildCapabilities at hb
  obtain ⟨tag, -, hbytes⟩ := Option.map_eq_some_iff.mp hb
  exact ⟨hst, hu, hc, ⟨c.uuid.toArray, h.length⟩, rfl,
    .capabilities c.sequence tag hbytes.symm fun _ => hsigned⟩

theorem Badged.transmit (h : Badged P cfg c) (hst : Started c) (nowSec : K) (i : SendInputs K) :
    Badged P cfg (Worker.transmit P cfg nowSec i c).1 ∧
      SendsFrom P cfg c (Worker.transmit P cfg nowSec i c).2 := by
  have hl : link (c.updateWalk P cfg i.draws nowSec) = link c := updateWalk_link ..
  obtain ⟨o, hsus, hclient, hsends⟩ := transmit_built P cfg nowSec i c
  generalize c.updateWalk P cfg i.draws nowSec = w at hl hsus hsends
  obtain ⟨-, hcreds, -, hu, -⟩ := link_parts hl
  have hw : Started w := by
    unfold Started at hst ⊢
    rwa [hu]
  obtain ⟨hb, huuid, hheld, hfrom⟩ := (h.of_link hl).build hw i.epochMs
  rw [hu] at hfrom
  generalize w.buildUpdate P cfg i.epochMs = built at hb huuid hheld hfrom hsus hsends
  refine ⟨hclient ▸ hb.suspends hsus, fun d bytes hd => ?_⟩
  rw [hsends] at hd
  split at hd
  · rename_i hok
    rw [List.mem_singleton, Prod.mk.injEq] at hd
    obtain ⟨rfl, rfl⟩ := hd
    exact ⟨hst, huuid.trans hu, hheld.trans hcreds, hfrom hok⟩
  · cases hd

/-- **One turn of `sendDueUpdates`.** -/
theorem Badged.send (h : Badged P cfg c) (nowSec : K) (i : SendInputs K) :
    Badged P cfg (sendDueUpdate P cfg nowSec i c).1 ∧
      SendsFrom P cfg c (sendDueUpdate P cfg nowSec i c).2 := by
  rcases sendDueUpdate_cases P cfg nowSec i c with hidle | ⟨ha, asked, hasked, hnone, heq⟩
  · exact ⟨h.suspends hidle, .of_nil hidle.silent⟩
  · rw [heq]
    have hst (d : SimClient K) (hu : d.uuid = c.uuid) : Started d := by
      have hstc := h.started ha
      unfold Started at hstc ⊢
      rwa [hu]
    obtain ⟨-, hc, -, hu, -⟩ := link_parts hasked
    have hlink := (advertise_sends P cfg nowSec i.capsSent asked.1).1.trans hasked
    obtain ⟨-, hc', -, hu', -⟩ := link_parts hlink
    have hcaps := (h.of_link hasked).advertise (hst _ hu) nowSec i.capsSent
    obtain ⟨ht, hsends⟩ := (h.of_link hlink).transmit (hst _ hu') nowSec i
    refine ⟨ht, ?_⟩
    exact (SendsFrom.of_nil hnone).append
      ((hcaps.of_same hu hc).append (hsends.of_same hu' hc'))

/-- **Step lemma.** A turn keeps the client's badge, and what it hands over carries it. -/
theorem Turn.run_badged (t : Turn K) (h : Badged P cfg c) :
    Badged P cfg (t.run P cfg c).1 ∧ SendsFrom P cfg c (t.run P cfg c).2 := by
  cases t with
  | update u => exact ⟨h.update u, .of_nil (applyUpdate_silent cfg u c)⟩
  | activate now nowSec draws outcome =>
    exact ⟨h.activate now nowSec draws outcome,
      .of_nil (activateDueClient_silent P cfg now nowSec draws outcome c)⟩
  | send nowSec i => exact h.send nowSec i
  | rxBegin rxNs nowMs data =>
    have hsus := beginDatagram_suspends P rxNs nowMs data c
    exact ⟨h.suspends hsus, .of_nil hsus.silent⟩
  | rxMember signedBundle nowMs r m =>
    have hsus := handleMember_suspends P cfg signedBundle nowMs r m c
    exact ⟨h.suspends hsus, .of_nil hsus.silent⟩
  | rxEnd ok =>
    have hsus := endDatagram_suspends ok c
    exact ⟨h.suspends hsus, .of_nil hsus.silent⟩

end

end Worker

end CksLoadtest
