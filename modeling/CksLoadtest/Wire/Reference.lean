import CksLoadtest.Wire.Layout

/-!
# The reference encoder

`initActorUpdateTemplate` and `finalizeActorUpdate`, which the reference vector is tested
against and no client calls, written with the UE5 constants of `Wire.hpp`. They are compared
with the pair the clients use, over one template and any sequence of sends.
-/
namespace CksLoadtest.Wire

open Lib.Buffer

namespace State
def VERSION_VALUE : UInt8 := 2
def VERSION : Nat := 0
def POSITION_X : Nat := 8
def POSITION_Y : Nat := 16
def POSITION_Z : Nat := 24
def ROTATION_PITCH : Nat := 32
def ROTATION_YAW : Nat := 40
def ROTATION_ROLL : Nat := 48
def VELOCITY_X : Nat := 56
def VELOCITY_Y : Nat := 64
def VELOCITY_Z : Nat := 72
end State

def ACTOR_UPDATE_SIZE : Nat := actorUpdateSize .ue5
def ACTOR_UPDATE_HMAC_OFFSET : Nat := actorUpdateHmacOffset .ue5
def ACTOR_UPDATE_TOKEN_ID_OFFSET : Nat := actorUpdateTokenIdOffset .ue5
def ACTOR_UPDATE_SEQ_OFFSET : Nat := actorUpdateSeqOffset .ue5

example : (ACTOR_UPDATE_SIZE, ACTOR_UPDATE_HMAC_OFFSET, ACTOR_UPDATE_TOKEN_ID_OFFSET,
    ACTOR_UPDATE_SEQ_OFFSET) = (197, 156, 188, 196) := by
  decide

/-- The static fields over the zeroed buffer. -/
def initActorUpdateTemplate (uuid : Bytes) (appId gameTokenId : Int64) (distance decay : UInt8) :
    Bytes :=
  writeFields (List.replicate ACTOR_UPDATE_SIZE 0)
    [(Off.TYPE, [ACTOR_UPDATE_REQUEST_2]), (Off.APP_ID, i64Bytes appId.toInt),
      (Off.DISTANCE, [distance]), (Off.DECAY, [decay]), (Off.CONTAINS_AUTH, [1]),
      (Off.UUID, uuid), (HEADER_SIZE + State.VERSION, [State.VERSION_VALUE]),
      (ACTOR_UPDATE_TOKEN_ID_OFFSET, i64Bytes gameTokenId.toInt)]

section Finalize

variable {K : Type*} (P : Platform K)

/-- What a reference send patches before it signs. -/
def referenceFields (chunkX chunkY chunkZ : Int)
    (posX posY posZ rotPitch rotYaw rotRoll velX velY velZ : K) (seq : UInt8) : List Field :=
  let st := Off.PAYLOAD
  [(Off.CHUNK_X, i64Bytes chunkX), (Off.CHUNK_Y, i64Bytes chunkY), (Off.CHUNK_Z, i64Bytes chunkZ),
    (st + State.POSITION_X, f64Bytes P posX), (st + State.POSITION_Y, f64Bytes P posY),
    (st + State.POSITION_Z, f64Bytes P posZ), (st + State.ROTATION_PITCH, f64Bytes P rotPitch),
    (st + State.ROTATION_YAW, f64Bytes P rotYaw), (st + State.ROTATION_ROLL, f64Bytes P rotRoll),
    (st + State.VELOCITY_X, f64Bytes P velX), (st + State.VELOCITY_Y, f64Bytes P velY),
    (st + State.VELOCITY_Z, f64Bytes P velZ), (ACTOR_UPDATE_SEQ_OFFSET, [seq])]

/-- Patch the per-send fields, then sign again over everything before the HMAC field. -/
def finalizeActorUpdate (buf : Bytes) (chunkX chunkY chunkZ : Int)
    (posX posY posZ rotPitch rotYaw rotRoll velX velY velZ : K) (seq : UInt8) (token64 : Bytes) :
    Bytes × Bool :=
  let buf := writeFields buf (referenceFields P chunkX chunkY chunkZ posX posY posZ
    rotPitch rotYaw rotRoll velX velY velZ seq)
  match Hmac.spatialSign P (buf.take ACTOR_UPDATE_HMAC_OFFSET) token64 with
  | some tag => (overwrite buf ACTOR_UPDATE_HMAC_OFFSET tag, true)
  | none => (buf, false)

/-- One send through the reference pair: it takes the pose apart and leaves out what only the
other profile writes. -/
def referenceSend (buf : Bytes) (u : UpdateArgs K) : Bytes × Bool :=
  finalizeActorUpdate P buf u.chunkX.toInt u.chunkY.toInt u.chunkZ.toInt u.pose.posX u.pose.posY
    u.pose.posZ u.pose.pitch u.pose.yaw u.pose.roll u.pose.velX u.pose.velY u.pose.velZ u.seq
    u.token64

def referenceTemplate (t : TemplateArgs) : Bytes :=
  initActorUpdateTemplate t.uuid32.toList t.appId t.gameTokenId t.distance t.decay

/-- What each of a sequence of sends leaves in the buffer, with its result. -/
def sends (send : Bytes → UpdateArgs K → Bytes × Bool) (buf : Bytes) :
    List (UpdateArgs K) → List (Bytes × Bool)
  | [] => []
  | u :: us => send buf u :: sends send (send buf u).1 us

/-- The two templates have the same fields in the same order. -/
theorem referenceTemplate_eq (t : TemplateArgs) : referenceTemplate t = template .ue5 t := rfl

/-- A reference send patches the fields of the UE5 profile in the same order. -/
theorem referenceFields_eq (u : UpdateArgs K) :
    referenceFields P u.chunkX.toInt u.chunkY.toInt u.chunkZ.toInt u.pose.posX u.pose.posY
      u.pose.posZ u.pose.pitch u.pose.yaw u.pose.roll u.pose.velX u.pose.velY u.pose.velZ u.seq =
      u.fields P .ue5 := rfl

theorem referenceSend_eq (buf : Bytes) (u : UpdateArgs K) :
    referenceSend P buf u = finalize P .ue5 buf u := by
  unfold referenceSend finalizeActorUpdate ACTOR_UPDATE_HMAC_OFFSET
  rw [referenceFields_eq]
  cases h : Hmac.spatialSign P ((writeFields buf (u.fields P .ue5)).take
      (actorUpdateHmacOffset .ue5)) u.token64 with
  | some tag => simp only [h, finalize_of_tag h]
  | none => simp only [h, finalize_of_none h]

theorem sends_congr {f g : Bytes → UpdateArgs K → Bytes × Bool} (h : ∀ buf u, f buf u = g buf u)
    (buf : Bytes) (us : List (UpdateArgs K)) : sends f buf us = sends g buf us := by
  induction us generalizing buf with
  | nil => rfl
  | cons u us ih => rw [sends, sends, h, ih]

theorem length_sends (fmt : PoseFormat) (us : List (UpdateArgs K)) {buf : Bytes}
    (hlen : buf.length = ACTOR_UPDATE_MAX_SIZE) :
    ∀ out ∈ sends (finalize P fmt) buf us, out.1.length = ACTOR_UPDATE_MAX_SIZE := by
  induction us generalizing buf with
  | nil => nofun
  | cons u us ih =>
    have hl := (finalize_outside P fmt hlen u).1
    intro out hout
    rcases List.mem_cons.mp hout with rfl | hrest
    · exact hl
    · exact ih hl out hrest

/-- A message signed on a fresh template is signed alike after any sends on the same buffer. -/
theorem finalize_fresh (fmt : PoseFormat) (t : TemplateArgs) (us : List (UpdateArgs K))
    {u : UpdateArgs K} {m : Bytes} (h : finalize P fmt (template fmt t) u = (m, true)) :
    finalize P fmt (finalizeAll P fmt (template fmt t) us) u = (m, true) := by
  obtain ⟨-, -, hafter⟩ := finalize_sent P fmt t us u
  obtain ⟨-, -, hfresh⟩ := finalize_sent P fmt t [] u
  rw [finalizeAll, h] at hfresh
  cases hsign : Hmac.spatialSign P ((unsignedMessage P fmt t u).take (actorUpdateHmacOffset fmt))
      u.token64 with
  | none =>
    rw [hsign] at hfresh
    cases hfresh
  | some tag =>
    rw [hsign] at hafter hfresh
    exact hafter.trans hfresh.symm

/-- **The two encoders agree.** The templates are the same 197 octets, and so is the message
after every one of a sequence of sends, together with the result of signing it. A vector the
reference pair is tested against is what a client sends, whatever it sent before. -/
theorem reference_encoder_eq (t : TemplateArgs) (us : List (UpdateArgs K)) :
    referenceTemplate t = template .ue5 t ∧ (referenceTemplate t).length = ACTOR_UPDATE_SIZE ∧
      sends (referenceSend P) (referenceTemplate t) us =
        sends (finalize P .ue5) (template .ue5 t) us ∧
      (∀ out ∈ sends (referenceSend P) (referenceTemplate t) us,
        out.1.length = ACTOR_UPDATE_SIZE) ∧
      ∀ u vector, referenceSend P (referenceTemplate t) u = (vector, true) →
        finalize P .ue5 (finalizeAll P .ue5 (template .ue5 t) us) u = (vector, true) := by
  have hlen := length_templateArgs .ue5 t
  have hsame : sends (referenceSend P) (referenceTemplate t) us =
      sends (finalize P .ue5) (template .ue5 t) us :=
    sends_congr (referenceSend_eq P) (template .ue5 t) us
  refine ⟨referenceTemplate_eq t, hlen, hsame, ?_, fun u vector h => ?_⟩
  · rw [hsame]
    exact length_sends P .ue5 us hlen
  · rw [referenceSend_eq, referenceTemplate_eq] at h
    exact finalize_fresh P .ue5 t us h

end Finalize

end CksLoadtest.Wire
