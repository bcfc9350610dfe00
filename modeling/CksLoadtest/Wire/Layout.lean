import CksLoadtest.Wire.Fields
import CksLoadtest.Wire.Inbound
import CksLoadtest.Wire.Signed

/-!
# The layout of an actor update

One buffer, one template and any sequence of sends: what leaves is a function of the
template and of the last send, every field of it reads back at its offset, and it passes
the checks of the receiving side.
-/
namespace CksLoadtest.Wire

open Lib.Buffer

variable {K : Type*}

/-- What `initActorUpdateTemplateFmt` is called with. -/
structure TemplateArgs where
  uuid32 : Vector UInt8 32
  appId : Int64
  gameTokenId : Int64
  distance : UInt8
  decay : UInt8

/-- What `finalizeActorUpdateFmt` is called with, apart from the buffer. -/
structure UpdateArgs (K : Type*) where
  chunkX : Int64
  chunkY : Int64
  chunkZ : Int64
  pose : ActorPose K
  seq : UInt8
  token64 : Bytes

def template (fmt : PoseFormat) (t : TemplateArgs) : Bytes :=
  initActorUpdateTemplateFmt fmt t.uuid32.toList t.appId t.gameTokenId t.distance t.decay

section

variable (P : Platform K) (fmt : PoseFormat)

def finalize (buf : Bytes) (u : UpdateArgs K) : Bytes × Bool :=
  finalizeActorUpdateFmt P buf fmt u.chunkX.toInt u.chunkY.toInt u.chunkZ.toInt u.pose u.seq
    u.token64

/-- The buffer after a sequence of sends. -/
def finalizeAll (buf : Bytes) : List (UpdateArgs K) → Bytes
  | [] => buf
  | u :: us => finalizeAll (finalize P fmt buf u).1 us

/-- The fields of the template. -/
def TemplateArgs.fields (t : TemplateArgs) : List Field :=
  templateFields fmt t.uuid32.toList t.appId t.gameTokenId t.distance t.decay

/-- The fields of a send, without the tag. -/
def UpdateArgs.fields (u : UpdateArgs K) : List Field :=
  sendFields P fmt u.chunkX.toInt u.chunkY.toInt u.chunkZ.toInt u.pose u.seq

/-- A zeroed buffer with the fields of a template and of one send, not signed yet. -/
def unsignedMessage (t : TemplateArgs) (u : UpdateArgs K) : Bytes :=
  writeFields (List.replicate ACTOR_UPDATE_MAX_SIZE 0) (t.fields fmt ++ u.fields P fmt)

end

/-- The offsets and lengths of the template's fields. -/
def templateLayout : PoseFormat → List (Nat × Nat)
  | .ue5 => [(0, 1), (1, 8), (33, 1), (34, 1), (35, 1), (36, 32), (68, 1), (188, 8)]
  | .bwf => [(0, 1), (1, 8), (33, 1), (34, 1), (35, 1), (36, 32), (148, 8)]

/-- The offsets and lengths of a send's fields. -/
def sendLayout : PoseFormat → List (Nat × Nat)
  | .ue5 => [(9, 8), (17, 8), (25, 8), (76, 8), (84, 8), (92, 8), (100, 8), (108, 8), (116, 8),
      (124, 8), (132, 8), (140, 8), (196, 1)]
  | .bwf => [(9, 8), (17, 8), (25, 8), (68, 4), (72, 4), (76, 4), (80, 4), (84, 4), (88, 4),
      (92, 4), (96, 4), (100, 1), (101, 1), (104, 8), (156, 1)]

/-- The parts of the payload that no field covers, from the start of the payload. -/
def reservedGaps : PoseFormat → List (Nat × Nat)
  | .ue5 => [(1, 7), (80, 8)]
  | .bwf => [(34, 2), (44, 4)]

example (fmt : PoseFormat) :
    ((templateLayout fmt ++ sendLayout fmt ++ reservedGaps fmt).map Prod.snd).sum + Hmac.TAG_SIZE =
      actorUpdateSize fmt := by
  cases fmt <;> decide

section Layout

variable (P : Platform K) (fmt : PoseFormat) (t : TemplateArgs) (u : UpdateArgs K)

theorem shape_template : (t.fields fmt).map shape = templateLayout fmt := by
  cases fmt <;> simp [TemplateArgs.fields, templateFields, shape, templateLayout] <;> decide

theorem shape_send : (u.fields P fmt).map shape = sendLayout fmt := by
  cases fmt <;> simp [UpdateArgs.fields, sendFields, poseFields, shape, sendLayout] <;> decide

theorem shape_message :
    (t.fields fmt ++ u.fields P fmt).map shape = templateLayout fmt ++ sendLayout fmt := by
  rw [List.map_append, shape_template, shape_send]

theorem fields_apart : ((t.fields fmt ++ u.fields P fmt).map shape).Pairwise Apart := by
  rw [shape_message]
  cases fmt <;> decide

theorem template_fit : FieldsFit ACTOR_UPDATE_MAX_SIZE (t.fields fmt) :=
  templateFields_fit fmt _ _ _ _ _ Vector.length_toList

theorem send_fit : FieldsFit ACTOR_UPDATE_MAX_SIZE (u.fields P fmt) :=
  sendFields_fit P fmt _ _ _ _ _

theorem message_fit : FieldsFit ACTOR_UPDATE_MAX_SIZE (t.fields fmt ++ u.fields P fmt) :=
  (template_fit fmt t).append (send_fit P fmt u)

end Layout

/-- Two buffers with the same octets outside the HMAC field. -/
def AgreeOutsideTag (fmt : PoseFormat) (a b : Bytes) : Prop :=
  ∀ i, (i < actorUpdateHmacOffset fmt ∨ actorUpdateTokenIdOffset fmt ≤ i) → a[i]? = b[i]?

theorem AgreeOutsideTag.take {fmt : PoseFormat} {a b : Bytes} (h : AgreeOutsideTag fmt a b) :
    a.take (actorUpdateHmacOffset fmt) = b.take (actorUpdateHmacOffset fmt) := by
  have hs : slice a 0 (actorUpdateHmacOffset fmt) = slice b 0 (actorUpdateHmacOffset fmt) :=
    slice_congr fun i _ hi => h i (.inl (by omega))
  simpa [slice] using hs

section Runs

variable {P : Platform K} {fmt : PoseFormat} {buf tag : Bytes}

theorem finalize_of_tag {u : UpdateArgs K}
    (h : Hmac.spatialSign P ((writeFields buf (u.fields P fmt)).take (actorUpdateHmacOffset fmt))
      u.token64 = some tag) :
    finalize P fmt buf u =
      (overwrite (writeFields buf (u.fields P fmt)) (actorUpdateHmacOffset fmt) tag, true) := by
  unfold UpdateArgs.fields at h ⊢
  unfold finalize finalizeActorUpdateFmt
  dsimp only
  rw [h]

theorem finalize_of_none {u : UpdateArgs K}
    (h : Hmac.spatialSign P ((writeFields buf (u.fields P fmt)).take (actorUpdateHmacOffset fmt))
      u.token64 = none) :
    finalize P fmt buf u = (writeFields buf (u.fields P fmt), false) := by
  unfold UpdateArgs.fields at h ⊢
  unfold finalize finalizeActorUpdateFmt
  dsimp only
  rw [h]

variable (P) (fmt)

theorem length_patched (hlen : buf.length = ACTOR_UPDATE_MAX_SIZE) (u : UpdateArgs K) :
    (writeFields buf (u.fields P fmt)).length = ACTOR_UPDATE_MAX_SIZE :=
  (length_writeFields (hlen ▸ send_fit P fmt u)).trans hlen

theorem tag_fits :
    actorUpdateHmacOffset fmt + Hmac.TAG_SIZE ≤ ACTOR_UPDATE_MAX_SIZE := by
  cases fmt <;> decide

/-- Outside the HMAC field a send writes its fields and nothing else. -/
theorem finalize_outside (hlen : buf.length = ACTOR_UPDATE_MAX_SIZE) (u : UpdateArgs K) :
    (finalize P fmt buf u).1.length = ACTOR_UPDATE_MAX_SIZE ∧
      AgreeOutsideTag fmt (finalize P fmt buf u).1 (writeFields buf (u.fields P fmt)) := by
  have hl := length_patched P fmt hlen u
  have hroom := tag_fits fmt
  cases h : Hmac.spatialSign P ((writeFields buf (u.fields P fmt)).take
      (actorUpdateHmacOffset fmt)) u.token64 with
  | none =>
    rw [finalize_of_none h]
    exact ⟨hl, fun _ _ => rfl⟩
  | some tag =>
    have htag := (Hmac.spatialSign_eq_some h).2
    rw [finalize_of_tag h]
    refine ⟨(length_overwrite (by omega)).trans hl, fun i hi => ?_⟩
    have hout : (if actorUpdateHmacOffset fmt ≤ i then tag[i - actorUpdateHmacOffset fmt]?
        else none) = none := by
      split
      · have : actorUpdateTokenIdOffset fmt = actorUpdateHmacOffset fmt + Hmac.TAG_SIZE := rfl
        exact List.getElem?_eq_none (by omega)
      · rfl
    rw [getElem?_overwrite (by omega), hout, Option.none_or]

/-- **No residue of one send.** After the next one has written its fields, the buffer is
as if it had not happened, the HMAC field apart. -/
theorem finalize_residue (hlen : buf.length = ACTOR_UPDATE_MAX_SIZE) (u v : UpdateArgs K) :
    AgreeOutsideTag fmt (writeFields (finalize P fmt buf u).1 (v.fields P fmt))
      (writeFields buf (v.fields P fmt)) := by
  intro i hi
  obtain ⟨hl, hout⟩ := finalize_outside P fmt hlen u
  have hsame : (octetsAt (u.fields P fmt) i).isSome = (octetsAt (v.fields P fmt) i).isSome :=
    isSome_octetsAt_congr ((shape_send P fmt u).trans (shape_send P fmt v).symm) i
  rw [getElem?_writeFields (hl ▸ send_fit P fmt v), hout i hi,
    getElem?_writeFields (hlen ▸ send_fit P fmt u), getElem?_writeFields (hlen ▸ send_fit P fmt v),
    octetsAt_or_of_isSome fun h => hsame ▸ h]

theorem finalizeAll_residue (hlen : buf.length = ACTOR_UPDATE_MAX_SIZE)
    (us : List (UpdateArgs K)) (v : UpdateArgs K) :
    (finalizeAll P fmt buf us).length = ACTOR_UPDATE_MAX_SIZE ∧
      AgreeOutsideTag fmt (writeFields (finalizeAll P fmt buf us) (v.fields P fmt))
        (writeFields buf (v.fields P fmt)) := by
  induction us generalizing buf with
  | nil => exact ⟨hlen, fun _ _ => rfl⟩
  | cons u us ih =>
    obtain ⟨hl, hrest⟩ := ih (finalize_outside P fmt hlen u).1
    exact ⟨hl, fun i hi => (hrest i hi).trans (finalize_residue P fmt hlen u v i hi)⟩

end Runs

/-- Every field of a template and of a send, at its offset in what leaves. -/
structure LaidOut (P : Platform K) (fmt : PoseFormat) (t : TemplateArgs) (u : UpdateArgs K)
    (m : Bytes) : Prop where
  length : m.length = actorUpdateSize fmt
  type : slice m Off.TYPE 1 = [ACTOR_UPDATE_REQUEST_2]
  appId : readI64 (slice m Off.APP_ID 8) = t.appId.toInt
  chunkX : readI64 (slice m Off.CHUNK_X 8) = u.chunkX.toInt
  chunkY : readI64 (slice m Off.CHUNK_Y 8) = u.chunkY.toInt
  chunkZ : readI64 (slice m Off.CHUNK_Z 8) = u.chunkZ.toInt
  distance : slice m Off.DISTANCE 1 = [t.distance]
  decay : slice m Off.DECAY 1 = [t.decay]
  containsAuth : slice m Off.CONTAINS_AUTH 1 = [1]
  uuid : slice m Off.UUID 32 = t.uuid32.toList
  version : fmt = .ue5 → slice m Off.PAYLOAD 1 = [2]
  pose : ∀ f ∈ poseFields P u.pose fmt, slice m (Off.PAYLOAD + f.1) f.2.length = f.2
  reserved : ∀ g ∈ reservedGaps fmt, slice m (Off.PAYLOAD + g.1) g.2 = List.replicate g.2 0
  tokenId : readI64 (slice m (actorUpdateTokenIdOffset fmt) 8) = t.gameTokenId.toInt
  seq : slice m (actorUpdateSeqOffset fmt) 1 = [u.seq]

section Reading

variable {P : Platform K} {fmt : PoseFormat} {t : TemplateArgs} {u : UpdateArgs K} {a : Bytes}

theorem layout_inside (fmt : PoseFormat) : ∀ s ∈ templateLayout fmt ++ sendLayout fmt,
    s.1 + s.2 ≤ actorUpdateSize fmt ∧ Apart (actorUpdateHmacOffset fmt, Hmac.TAG_SIZE) s := by
  cases fmt <;> decide

theorem slice_sent {o n : Nat} (h : AgreeOutsideTag fmt a (unsignedMessage P fmt t u))
    (hin : o + n ≤ actorUpdateSize fmt)
    (hap : Apart (actorUpdateHmacOffset fmt, Hmac.TAG_SIZE) (o, n)) :
    slice (a.take (actorUpdateSize fmt)) o n = slice (unsignedMessage P fmt t u) o n := by
  have htag : actorUpdateTokenIdOffset fmt = actorUpdateHmacOffset fmt + Hmac.TAG_SIZE := rfl
  rw [slice_take hin]
  exact slice_congr fun i hi hn => h i (by unfold Apart at hap; omega)

theorem field_sent (h : AgreeOutsideTag fmt a (unsignedMessage P fmt t u)) {f : Field}
    (hf : f ∈ t.fields fmt ++ u.fields P fmt) :
    slice (a.take (actorUpdateSize fmt)) f.1 f.2.length = f.2 := by
  obtain ⟨hin, hap⟩ := layout_inside fmt (shape f)
    (shape_message P fmt t u ▸ List.mem_map_of_mem hf)
  refine (slice_sent h hin hap).trans ?_
  exact slice_writeFields_of_mem (by rw [List.length_replicate]; exact message_fit P fmt t u)
    (fields_apart P fmt t u) hf

theorem gap_sent (h : AgreeOutsideTag fmt a (unsignedMessage P fmt t u)) {g : Nat × Nat}
    (hg : g ∈ reservedGaps fmt) :
    slice (a.take (actorUpdateSize fmt)) (Off.PAYLOAD + g.1) g.2 = List.replicate g.2 0 := by
  have hgaps : ∀ fmt, ∀ g ∈ reservedGaps fmt,
      Off.PAYLOAD + g.1 + g.2 ≤ actorUpdateSize fmt ∧
      Off.PAYLOAD + g.1 + g.2 ≤ ACTOR_UPDATE_MAX_SIZE ∧
      Apart (actorUpdateHmacOffset fmt, Hmac.TAG_SIZE) (Off.PAYLOAD + g.1, g.2) ∧
      ∀ s ∈ templateLayout fmt ++ sendLayout fmt, Apart (Off.PAYLOAD + g.1, g.2) s := by
    intro fmt
    cases fmt <;> decide
  obtain ⟨hin, hmax, hap, hno⟩ := hgaps fmt g hg
  rw [slice_sent h hin hap]
  unfold unsignedMessage
  rw [slice_writeFields (by rw [List.length_replicate]; exact message_fit P fmt t u)
    (fieldsAvoid_of_shape (shape_message P fmt t u) hno)]
  unfold slice
  rw [List.drop_replicate, List.take_replicate, Nat.min_eq_left (by omega)]

theorem int64_sent (h : AgreeOutsideTag fmt a (unsignedMessage P fmt t u)) {o : Nat} {x : Int64}
    (hf : (o, i64Bytes x.toInt) ∈ t.fields fmt ++ u.fields P fmt) :
    readI64 (slice (a.take (actorUpdateSize fmt)) o 8) = x.toInt := by
  have hread := field_sent h hf
  rw [length_i64Bytes] at hread
  rw [hread, readI64_i64Bytes]

theorem laidOut (h : AgreeOutsideTag fmt a (unsignedMessage P fmt t u))
    (hlen : a.length = ACTOR_UPDATE_MAX_SIZE) :
    LaidOut P fmt t u (a.take (actorUpdateSize fmt)) := by
  have hsize : actorUpdateSize fmt ≤ ACTOR_UPDATE_MAX_SIZE := by cases fmt <;> decide
  have hstatic : ∀ f ∈ [(Off.TYPE, [ACTOR_UPDATE_REQUEST_2]), (Off.APP_ID, i64Bytes t.appId.toInt),
      (Off.DISTANCE, [t.distance]), (Off.DECAY, [t.decay]), (Off.CONTAINS_AUTH, [1]),
      (Off.UUID, t.uuid32.toList)], f ∈ t.fields fmt ++ u.fields P fmt :=
    fun f hf => List.mem_append_left _ (List.mem_append_left _ (List.mem_append_left _ hf))
  have htail : (actorUpdateTokenIdOffset fmt, i64Bytes t.gameTokenId.toInt) ∈
      t.fields fmt ++ u.fields P fmt :=
    List.mem_append_left _ (List.mem_append_right _ (.head _))
  have hchunk : ∀ f ∈ [(Off.CHUNK_X, i64Bytes u.chunkX.toInt),
      (Off.CHUNK_Y, i64Bytes u.chunkY.toInt), (Off.CHUNK_Z, i64Bytes u.chunkZ.toInt)],
      f ∈ t.fields fmt ++ u.fields P fmt :=
    fun f hf => List.mem_append_right _ (List.mem_append_left _ (List.mem_append_left _ hf))
  have hpose : ∀ f ∈ poseFields P u.pose fmt,
      (Off.PAYLOAD + f.1, f.2) ∈ t.fields fmt ++ u.fields P fmt :=
    fun f hf => List.mem_append_right _ (List.mem_append_left _ (List.mem_append_right _
      (List.mem_map.mpr ⟨f, hf, rfl⟩)))
  have hseq : (actorUpdateSeqOffset fmt, [u.seq]) ∈ t.fields fmt ++ u.fields P fmt :=
    List.mem_append_right _ (List.mem_append_right _ (.head _))
  have huuid := field_sent h (hstatic (Off.UUID, t.uuid32.toList) (by simp))
  rw [Vector.length_toList] at huuid
  exact
    { length := by rw [List.length_take]; omega
      type := field_sent h (hstatic (Off.TYPE, [_]) (by simp))
      appId := int64_sent h (hstatic (Off.APP_ID, _) (by simp))
      chunkX := int64_sent h (hchunk (Off.CHUNK_X, _) (by simp))
      chunkY := int64_sent h (hchunk (Off.CHUNK_Y, _) (by simp))
      chunkZ := int64_sent h (hchunk (Off.CHUNK_Z, _) (by simp))
      distance := field_sent h (hstatic (Off.DISTANCE, [_]) (by simp))
      decay := field_sent h (hstatic (Off.DECAY, [_]) (by simp))
      containsAuth := field_sent h (hstatic (Off.CONTAINS_AUTH, [_]) (by simp))
      uuid := huuid
      version := by
        rintro rfl
        refine field_sent h (List.mem_append_left _ (List.mem_append_left _
          (List.mem_append_right _ (?_ : (HEADER_SIZE, [(2 : UInt8)]) ∈ [(HEADER_SIZE, [2])]))))
        exact .head _
      pose := fun f hf => field_sent h (hpose f hf)
      reserved := fun g hg => gap_sent h hg
      tokenId := int64_sent h htail
      seq := field_sent h hseq }

end Reading

namespace LaidOut

variable {P : Platform K} {fmt : PoseFormat} {t : TemplateArgs} {u : UpdateArgs K} {m : Bytes}

theorem isSpatial (h : LaidOut P fmt t u m) : Wire.isSpatial m = true := by
  have htype := h.type
  cases m with
  | nil => cases htype
  | cons b m =>
    obtain rfl : b = ACTOR_UPDATE_REQUEST_2 := (List.cons.inj htype).1
    show decide (ACTOR_UPDATE_REQUEST_2 &&& SPATIAL_TYPE_BIT ≠ 0) = true
    decide

/-- The tail read from the end is the tail written from the front. -/
theorem notificationEpochMs (h : LaidOut P fmt t u m) :
    Wire.notificationEpochMs m = some t.gameTokenId.toInt := by
  have hoff : actorUpdateSize fmt - TAIL_NO_HMAC = actorUpdateTokenIdOffset fmt := by
    cases fmt <;> decide
  have hlong : ¬ m.length < HEADER_SIZE + TAIL_NO_HMAC := by
    rw [h.length]
    cases fmt <;> decide
  unfold Wire.notificationEpochMs
  rw [if_neg hlong, if_neg (not_not_intro h.isSpatial), h.length, hoff, h.tokenId]

theorem verifyNotification (h : LaidOut P fmt t u m) {token : Bytes}
    (htag : Hmac.spatialSign P (m.take (actorUpdateHmacOffset fmt)) token =
      some (slice m (actorUpdateHmacOffset fmt) Hmac.TAG_SIZE)) :
    Wire.verifyNotification P m token = true := by
  have hoff : actorUpdateSize fmt - TAIL_WITH_HMAC = actorUpdateHmacOffset fmt := by
    cases fmt <;> decide
  have hauth : ¬ (m.length ≤ Off.CONTAINS_AUTH ∨ ¬ Wire.isSpatial m) := by
    rw [h.length, h.isSpatial]
    cases fmt <;> decide
  have hlong : ¬ m.length < HEADER_SIZE + TAIL_WITH_HMAC := by
    rw [h.length]
    cases fmt <;> decide
  unfold Wire.verifyNotification
  rw [if_neg hauth, if_neg (by rw [h.containsAuth]; decide), if_neg hlong]
  dsimp only
  rw [h.length, hoff, htag]
  exact decide_eq_true rfl

end LaidOut

section Sent

variable (P : Platform K) (fmt : PoseFormat) (t : TemplateArgs)

theorem length_templateArgs : (template fmt t).length = ACTOR_UPDATE_MAX_SIZE :=
  length_template fmt _ _ _ _ _ Vector.length_toList

/-- The first send on a fresh template. -/
theorem patched_template (u : UpdateArgs K) :
    writeFields (template fmt t) (u.fields P fmt) = unsignedMessage P fmt t u :=
  (writeFields_append _ _ _).symm

/-- **What a send leaves**, whatever was sent before it. -/
theorem finalize_sent (us : List (UpdateArgs K)) (u : UpdateArgs K) :
    let out := finalize P fmt (finalizeAll P fmt (template fmt t) us) u
    out.1.length = ACTOR_UPDATE_MAX_SIZE ∧
      AgreeOutsideTag fmt out.1 (unsignedMessage P fmt t u) ∧
      match Hmac.spatialSign P ((unsignedMessage P fmt t u).take (actorUpdateHmacOffset fmt))
        u.token64 with
      | some tag =>
        out = (overwrite (unsignedMessage P fmt t u) (actorUpdateHmacOffset fmt) tag, true)
      | none => out.2 = false := by
  obtain ⟨hlen, hagree⟩ := finalizeAll_residue P fmt (length_templateArgs fmt t) us u
  obtain ⟨hl, hout⟩ := finalize_outside P fmt hlen u
  rw [patched_template] at hagree
  refine ⟨hl, fun i hi => (hout i hi).trans (hagree i hi), ?_⟩
  rw [← hagree.take]
  split
  · rename_i tag htag
    have htl := (Hmac.spatialSign_eq_some htag).2
    have hroom := tag_fits fmt
    have hpatched := length_patched P fmt hlen u
    have hfresh : (unsignedMessage P fmt t u).length = ACTOR_UPDATE_MAX_SIZE :=
      patched_template P fmt t u ▸ length_patched P fmt (length_templateArgs fmt t) u
    rw [finalize_of_tag htag]
    refine Prod.ext (List.ext_getElem? fun i => ?_) rfl
    dsimp only
    rw [getElem?_overwrite (by omega), getElem?_overwrite (by omega)]
    by_cases hi : i < actorUpdateHmacOffset fmt ∨ actorUpdateTokenIdOffset fmt ≤ i
    · rw [hagree i hi]
    · have : actorUpdateTokenIdOffset fmt = actorUpdateHmacOffset fmt + Hmac.TAG_SIZE := rfl
      rw [if_pos (by omega), List.getElem?_eq_getElem (by omega), Option.some_or, Option.some_or]
  · rename_i hnone
    rw [finalize_of_none hnone]

/-- **Layout.** After any sequence of sends on one buffer, the octets of the last one are
laid out by the template and that send, and they are those of the send on a fresh template:
all of them when the send was signed, and all but the HMAC field in any case. The receiving
side reads the token id and accepts what was signed; a send is signed exactly if HMAC
answers 32 octets. -/
theorem finalizeActorUpdateFmt_layout (us : List (UpdateArgs K)) (u : UpdateArgs K) :
    let out := finalize P fmt (finalizeAll P fmt (template fmt t) us) u
    let fresh := finalize P fmt (template fmt t) u
    let m := out.1.take (actorUpdateSize fmt)
    let key := Hmac.tokenOctets P u.token64
    LaidOut P fmt t u m ∧ notificationEpochMs m = some t.gameTokenId.toInt ∧
      out.2 = fresh.2 ∧ AgreeOutsideTag fmt out.1 fresh.1 ∧
      (out.2 = true → out.1 = fresh.1 ∧ verifyNotification P m u.token64 = true) ∧
      (out.2 = true ↔ ∃ tag,
        P.hmacSha256 key (m.take (actorUpdateHmacOffset fmt) ++ key) = some tag ∧
          tag.length = Hmac.TAG_SIZE) := by
  intro out
  obtain ⟨hlen, hagree, hout⟩ := finalize_sent P fmt t us u
  obtain ⟨-, hagree', hfresh⟩ := finalize_sent P fmt t [] u
  rw [finalizeAll] at hagree' hfresh
  have hlaid := laidOut hagree hlen
  have hfront : (out.1.take (actorUpdateSize fmt)).take (actorUpdateHmacOffset fmt) =
      (unsignedMessage P fmt t u).take (actorUpdateHmacOffset fmt) := by
    rw [List.take_take, Nat.min_eq_left (by cases fmt <;> decide), hagree.take]
  have hfit : ((unsignedMessage P fmt t u).take (actorUpdateHmacOffset fmt)).length ≤ 2048 := by
    rw [List.length_take]
    cases fmt <;> exact Nat.le_trans (Nat.min_le_left ..) (by decide)
  intro fresh m key
  refine ⟨hlaid, hlaid.notificationEpochMs, ?_⟩
  cases hsign : Hmac.spatialSign P ((unsignedMessage P fmt t u).take (actorUpdateHmacOffset fmt))
      u.token64 with
  | none =>
    rw [hsign] at hout hfresh
    refine ⟨hout.trans hfresh.symm, fun i hi => (hagree i hi).trans (hagree' i hi).symm, ?_, ?_⟩
    · exact fun h => absurd (hout.symm.trans h) Bool.false_ne_true
    · refine iff_of_false (fun h => absurd (hout.symm.trans h) Bool.false_ne_true) ?_
      rintro ⟨tag, htag⟩
      rw [hfront, ← Hmac.spatialSign_eq_some_iff hfit, hsign] at htag
      cases htag
  | some tag =>
    rw [hsign] at hout hfresh
    have hflag : out.2 = true := congrArg Prod.snd hout
    refine ⟨congrArg Prod.snd (hout.trans hfresh.symm),
      fun i hi => (hagree i hi).trans (hagree' i hi).symm, fun _ => ⟨?_, ?_⟩, ?_⟩
    · exact congrArg Prod.fst (hout.trans hfresh.symm)
    · have htl := (Hmac.spatialSign_eq_some hsign).2
      have hfresh : (unsignedMessage P fmt t u).length = ACTOR_UPDATE_MAX_SIZE :=
        patched_template P fmt t u ▸ length_patched P fmt (length_templateArgs fmt t) u
      have hroom := tag_fits fmt
      refine hlaid.verifyNotification ?_
      rw [hfront, hsign, slice_take (by cases fmt <;> decide), congrArg Prod.fst hout, ← htl,
        slice_overwrite_same (by omega)]
    · refine iff_of_true hflag ⟨tag, ?_⟩
      rw [hfront]
      exact Hmac.spatialSign_eq_some hsign

end Sent

end CksLoadtest.Wire
