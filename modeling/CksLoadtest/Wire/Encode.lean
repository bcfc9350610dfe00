import CksLoadtest.Platform

/-!
# Outgoing datagrams

The long spatial layout of both pose profiles: a template with the static fields,
patched and signed again at every send, and the capabilities datagram. A template
is a list of field writes into the client's 197-byte message buffer.
-/
namespace CksLoadtest.Wire

open Lib.Buffer

inductive PoseFormat where
  | ue5
  | bwf
  deriving DecidableEq, Repr

namespace Off
def TYPE : Nat := 0
def APP_ID : Nat := 1
def CHUNK_X : Nat := 9
def CHUNK_Y : Nat := 17
def CHUNK_Z : Nat := 25
def DISTANCE : Nat := 33
def DECAY : Nat := 34
def CONTAINS_AUTH : Nat := 35
def UUID : Nat := 36
def PAYLOAD : Nat := 68
end Off

def ACTOR_UPDATE_REQUEST_2 : UInt8 := 128
def CLIENT_CAPABILITIES : UInt8 := 29
def CAP_BUNDLE_SIGNED : Nat := 1

def HEADER_SIZE : Nat := Off.PAYLOAD
def TAIL_WITH_HMAC : Nat := Hmac.TAG_SIZE + 8 + 1
def TAIL_NO_HMAC : Nat := 8 + 1

def payloadSize : PoseFormat → Nat
  | .ue5 => 88
  | .bwf => 48

def actorUpdateSize (f : PoseFormat) : Nat := HEADER_SIZE + payloadSize f + TAIL_WITH_HMAC
def actorUpdateHmacOffset (f : PoseFormat) : Nat := HEADER_SIZE + payloadSize f
def actorUpdateTokenIdOffset (f : PoseFormat) : Nat := actorUpdateHmacOffset f + Hmac.TAG_SIZE
def actorUpdateSeqOffset (f : PoseFormat) : Nat := actorUpdateTokenIdOffset f + 8
def ACTOR_UPDATE_MAX_SIZE : Nat := actorUpdateSize .ue5
def CAPABILITIES_SIZE : Nat := HEADER_SIZE + 4 + TAIL_WITH_HMAC

/-- `writeI64`: the two's complement octets of an `int64_t`. -/
def i64Bytes (x : Int) : Bytes := leBytes 8 (x % 2 ^ 64).toNat

/-- `readI64`. -/
def readI64 (bs : Bytes) : Int := (leNat bs : Int).bmod (2 ^ 64)

@[simp] theorem length_i64Bytes (x : Int) : (i64Bytes x).length = 8 := length_leBytes ..

theorem readI64_i64Bytes_bmod (x : Int) : readI64 (i64Bytes x) = x.bmod (2 ^ 64) := by
  have hx : ((x % 2 ^ 64).toNat : Int) = x % ((2 ^ 64 : Nat) : Int) := by omega
  have hm : ((256 ^ 8 : Nat) : Int) = ((2 ^ 64 : Nat) : Int) := by decide
  unfold readI64 i64Bytes
  rw [leNat_leBytes, Int.natCast_emod, hx, hm]
  rw [Int.emod_emod_of_dvd _ (Int.dvd_refl _)]
  exact Int.emod_bmod _ _

/-- An `int64_t` field reads back as written. -/
theorem readI64_i64Bytes (x : Int64) : readI64 (i64Bytes x.toInt) = x.toInt :=
  (readI64_i64Bytes_bmod _).trans (Int.bmod_eq_of_le x.le_toInt x.toInt_lt)

/-- The values one send carries, in the profile's own units and axes. -/
structure ActorPose (K : Type*) where
  posX : K
  posY : K
  posZ : K
  pitch : K
  yaw : K
  roll : K
  velX : K
  velY : K
  velZ : K
  grounded : Bool
  updatedAtMs : K

/-- One field write: its offset in the buffer and its octets. -/
abbrev Field := Nat × Bytes

/-- Write the fields in order. -/
def writeFields (buf : Bytes) : List Field → Bytes
  | [] => buf
  | (off, bs) :: fs => writeFields (overwrite buf off bs) fs

/-- Every field lies inside the first `n` octets. -/
def FieldsFit (n : Nat) (fs : List Field) : Prop := ∀ f ∈ fs, f.1 + f.2.length ≤ n

/-- No field touches the octets from `o` up to `o + n`. -/
def FieldsAvoid (o n : Nat) (fs : List Field) : Prop :=
  ∀ f ∈ fs, o + n ≤ f.1 ∨ f.1 + f.2.length ≤ o

theorem length_writeFields {buf : Bytes} {fs : List Field} (h : FieldsFit buf.length fs) :
    (writeFields buf fs).length = buf.length := by
  induction fs generalizing buf with
  | nil => rfl
  | cons f fs ih =>
    have hf := length_overwrite (h f (List.mem_cons_self ..))
    rw [writeFields, ih (fun g hg => hf ▸ h g (List.mem_cons_of_mem f hg)), hf]

/-- Fields that avoid a slice leave it alone. -/
theorem slice_writeFields {buf : Bytes} {fs : List Field} {o n : Nat}
    (h : FieldsFit buf.length fs) (ha : FieldsAvoid o n fs) :
    slice (writeFields buf fs) o n = slice buf o n := by
  induction fs generalizing buf with
  | nil => rfl
  | cons f fs ih =>
    have hf := h f (List.mem_cons_self ..)
    have hl := length_overwrite hf
    rw [writeFields, ih (fun g hg => hl ▸ h g (List.mem_cons_of_mem f hg))
        (fun g hg => ha g (List.mem_cons_of_mem f hg)),
      slice_overwrite_disjoint (by omega) (ha f (List.mem_cons_self ..))]

/-- A field that no later field touches reads back as written. -/
theorem slice_writeFields_append {buf : Bytes} {fs gs : List Field} {o : Nat} {bs : Bytes}
    (hf : FieldsFit buf.length fs) (hg : FieldsFit buf.length gs) (hb : o + bs.length ≤ buf.length)
    (ha : FieldsAvoid o bs.length gs) :
    slice (writeFields buf (fs ++ (o, bs) :: gs)) o bs.length = bs := by
  induction fs generalizing buf with
  | nil =>
    have hl := length_overwrite hb
    rw [List.nil_append, writeFields, slice_writeFields (hl ▸ hg) ha,
      slice_overwrite_same (by omega)]
  | cons f fs ih =>
    have hl := length_overwrite (hf f (List.mem_cons_self ..))
    rw [List.cons_append, writeFields]
    exact ih (fun g h => hl ▸ hf g (List.mem_cons_of_mem f h)) (hl ▸ hg) (hl ▸ hb)

/-- The static fields `initActorUpdateTemplateFmt` writes over the zeroed buffer. -/
def templateFields (fmt : PoseFormat) (uuid : Bytes) (appId gameTokenId : Int64)
    (distance decay : UInt8) : List Field :=
  [(Off.TYPE, [ACTOR_UPDATE_REQUEST_2]), (Off.APP_ID, i64Bytes appId.toInt),
    (Off.DISTANCE, [distance]), (Off.DECAY, [decay]), (Off.CONTAINS_AUTH, [1]),
    (Off.UUID, uuid)] ++
  (match fmt with
    | .ue5 => [(HEADER_SIZE, [2])]
    | .bwf => []) ++
  [(actorUpdateTokenIdOffset fmt, i64Bytes gameTokenId.toInt)]

def initActorUpdateTemplateFmt (fmt : PoseFormat) (uuid : Bytes) (appId gameTokenId : Int64)
    (distance decay : UInt8) : Bytes :=
  writeFields (List.replicate ACTOR_UPDATE_MAX_SIZE 0)
    (templateFields fmt uuid appId gameTokenId distance decay)

section Finalize

variable {K : Type*} (P : Platform K)

def f64Bytes (x : K) : Bytes := (P.f64 x).toList
def f32Bytes (x : K) : Bytes := (P.f32 x).toList

@[simp] theorem length_f64Bytes (x : K) : (f64Bytes P x).length = 8 := by simp [f64Bytes]
@[simp] theorem length_f32Bytes (x : K) : (f32Bytes P x).length = 4 := by simp [f32Bytes]

def poseFields (p : ActorPose K) : PoseFormat → List Field
  | .bwf =>
    [(0, f32Bytes P p.posX), (4, f32Bytes P p.posY), (8, f32Bytes P p.posZ),
      (12, f32Bytes P p.yaw), (16, f32Bytes P p.pitch), (20, f32Bytes P p.velX),
      (24, f32Bytes P p.velY), (28, f32Bytes P p.velZ),
      (32, [if p.grounded then 1 else 0]), (33, [0]), (36, f64Bytes P p.updatedAtMs)]
  | .ue5 =>
    [(8, f64Bytes P p.posX), (16, f64Bytes P p.posY), (24, f64Bytes P p.posZ),
      (32, f64Bytes P p.pitch), (40, f64Bytes P p.yaw), (48, f64Bytes P p.roll),
      (56, f64Bytes P p.velX), (64, f64Bytes P p.velY), (72, f64Bytes P p.velZ)]

/-- The fields `finalizeActorUpdateFmt` patches before it signs. -/
def sendFields (fmt : PoseFormat) (chunkX chunkY chunkZ : Int) (p : ActorPose K)
    (seq : UInt8) : List Field :=
  [(Off.CHUNK_X, i64Bytes chunkX), (Off.CHUNK_Y, i64Bytes chunkY),
    (Off.CHUNK_Z, i64Bytes chunkZ)] ++
  (poseFields P p fmt).map (fun f => (Off.PAYLOAD + f.1, f.2)) ++
  [(actorUpdateSeqOffset fmt, [seq])]

/-- Patch and sign again: the buffer, and whether `spatialSign` succeeded. -/
def finalizeActorUpdateFmt (buf : Bytes) (fmt : PoseFormat) (chunkX chunkY chunkZ : Int)
    (p : ActorPose K) (seq : UInt8) (token : Bytes) : Bytes × Bool :=
  let buf := writeFields buf (sendFields P fmt chunkX chunkY chunkZ p seq)
  match Hmac.spatialSign P (buf.take (actorUpdateHmacOffset fmt)) token with
  | some tag => (overwrite buf (actorUpdateHmacOffset fmt) tag, true)
  | none => (buf, false)

/-- The fields of a capabilities datagram, written over a zeroed buffer. -/
def capabilitiesFields (appId gameTokenId : Int64) (flags : Nat) (seq : UInt8) : List Field :=
  [(Off.TYPE, [CLIENT_CAPABILITIES]), (Off.APP_ID, i64Bytes appId.toInt),
    (Off.CONTAINS_AUTH, [1]), (HEADER_SIZE, leBytes 4 flags),
    (HEADER_SIZE + 4 + Hmac.TAG_SIZE, i64Bytes gameTokenId.toInt),
    (CAPABILITIES_SIZE - 1, [seq])]

/-- `buildCapabilities`: the signed datagram, `none` when signing fails. -/
def buildCapabilities (appId gameTokenId : Int64) (flags : Nat) (seq : UInt8) (token : Bytes) :
    Option Bytes :=
  let buf := writeFields (List.replicate CAPABILITIES_SIZE 0)
    (capabilitiesFields appId gameTokenId flags seq)
  (Hmac.spatialSign P (buf.take (HEADER_SIZE + 4)) token).map fun tag =>
    overwrite buf (HEADER_SIZE + 4) tag

end Finalize

end CksLoadtest.Wire
