import CksLoadtest.Wire.Encode

/-!
# What a signed datagram carries

Both outgoing layouts end in an HMAC, the token id and a sequence octet. A datagram
is signed for a token when its last 41 octets say so.
-/
namespace CksLoadtest.Wire

open Lib.Buffer

variable {K : Type*} {P : Platform K}

/-- Where the HMAC of a signed datagram begins. -/
def hmacOffset (bytes : Bytes) : Nat := bytes.length - TAIL_WITH_HMAC

/-- The HMAC field is `HMAC(token, prefix || token)`, and the slot behind it holds the
token id. -/
structure SignedFor (P : Platform K) (gameTokenId : Int64) (token bytes : Bytes) : Prop where
  long : HEADER_SIZE + TAIL_WITH_HMAC ≤ bytes.length
  id : slice bytes (hmacOffset bytes + Hmac.TAG_SIZE) 8 = i64Bytes gameTokenId.toInt
  hmac : P.hmacSha256 token (bytes.take (hmacOffset bytes) ++ token) =
    some (slice bytes (hmacOffset bytes) Hmac.TAG_SIZE)

/-- Writing a tag in front of the token id signs the datagram. -/
theorem signedFor_overwrite {buf token tag : Bytes} {off : Nat} {id : Int64}
    (hlen : buf.length = off + TAIL_WITH_HMAC) (hoff : HEADER_SIZE ≤ off)
    (hid : slice buf (off + Hmac.TAG_SIZE) 8 = i64Bytes id.toInt)
    (htoken : token.length = Hmac.TOKEN_OCTETS)
    (htag : Hmac.spatialSign P (buf.take off) token = some tag) :
    SignedFor P id token (overwrite buf off tag) := by
  obtain ⟨hmac, htl⟩ := Hmac.spatialSign_eq_some htag
  rw [Hmac.tokenOctets_of_length P htoken] at hmac
  have htail : TAIL_WITH_HMAC = 41 := rfl
  have hsize : Hmac.TAG_SIZE = 32 := rfl
  have hl : (overwrite buf off tag).length = off + TAIL_WITH_HMAC := by
    rw [length_overwrite (by omega), hlen]
  have ho : hmacOffset (overwrite buf off tag) = off := by
    unfold hmacOffset
    omega
  refine ⟨by omega, ?_, ?_⟩
  · rw [ho, slice_overwrite_disjoint (by omega) (.inr (by omega)), hid]
  · rw [ho, take_overwrite (by omega) (Nat.le_refl _), hmac, ← htl, slice_overwrite_same (by omega)]

section Template

variable (fmt : PoseFormat) (uuid : Bytes) (appId gameTokenId : Int64) (distance decay : UInt8)

theorem templateFields_fit (hu : uuid.length = 32) :
    FieldsFit ACTOR_UPDATE_MAX_SIZE
      (templateFields fmt uuid appId gameTokenId distance decay) := by
  unfold FieldsFit templateFields
  cases fmt <;> simp [hu] <;> decide

theorem length_template (hu : uuid.length = 32) :
    (initActorUpdateTemplateFmt fmt uuid appId gameTokenId distance decay).length =
      ACTOR_UPDATE_MAX_SIZE := by
  have hfit := templateFields_fit fmt uuid appId gameTokenId distance decay hu
  unfold initActorUpdateTemplateFmt
  rw [length_writeFields (by rwa [List.length_replicate]), List.length_replicate]

/-- The template holds the token id it was built for. -/
theorem template_tokenId (hu : uuid.length = 32) :
    slice (initActorUpdateTemplateFmt fmt uuid appId gameTokenId distance decay)
      (actorUpdateTokenIdOffset fmt) 8 = i64Bytes gameTokenId.toInt := by
  have hfit := templateFields_fit fmt uuid appId gameTokenId distance decay hu
  unfold templateFields at hfit
  have hlen : (List.replicate ACTOR_UPDATE_MAX_SIZE (0 : UInt8)).length =
      ACTOR_UPDATE_MAX_SIZE := List.length_replicate
  rw [← length_i64Bytes gameTokenId.toInt]
  unfold initActorUpdateTemplateFmt templateFields
  refine slice_writeFields_append ?_ ?_ ?_ ?_
  · rw [hlen]
    exact fun f hf => hfit f (List.mem_append_left _ hf)
  · exact fun f hf => absurd hf List.not_mem_nil
  · rw [hlen]
    exact hfit _ (List.mem_append_right _ (List.mem_singleton.mpr rfl))
  · exact fun f hf => absurd hf List.not_mem_nil

end Template

section Sends

variable (P) (fmt : PoseFormat) (x y z : Int) (p : ActorPose K) (seq : UInt8)

theorem sendFields_fit : FieldsFit ACTOR_UPDATE_MAX_SIZE (sendFields P fmt x y z p seq) := by
  unfold FieldsFit sendFields poseFields
  cases fmt <;> simp <;> decide

/-- The fields a send patches avoid the token id. -/
theorem sendFields_avoid :
    FieldsAvoid (actorUpdateTokenIdOffset fmt) 8 (sendFields P fmt x y z p seq) := by
  unfold FieldsAvoid sendFields poseFields
  cases fmt <;> simp <;> decide

/-- **A send keeps the token id of the template**, and signs when it says so. -/
theorem finalize_spec {buf : Bytes} (token : Bytes) (hlen : buf.length = ACTOR_UPDATE_MAX_SIZE) :
    let out := finalizeActorUpdateFmt P buf fmt x y z p seq token
    out.1.length = ACTOR_UPDATE_MAX_SIZE ∧
      slice out.1 (actorUpdateTokenIdOffset fmt) 8 =
        slice buf (actorUpdateTokenIdOffset fmt) 8 ∧
      (out.2 = true → token.length = Hmac.TOKEN_OCTETS → ∀ id : Int64,
        slice buf (actorUpdateTokenIdOffset fmt) 8 = i64Bytes id.toInt →
        SignedFor P id token (out.1.take (actorUpdateSize fmt))) := by
  have hfit := sendFields_fit P fmt x y z p seq
  have hl : (writeFields buf (sendFields P fmt x y z p seq)).length = buf.length :=
    length_writeFields (hlen ▸ hfit)
  have hs : slice (writeFields buf (sendFields P fmt x y z p seq))
      (actorUpdateTokenIdOffset fmt) 8 = slice buf (actorUpdateTokenIdOffset fmt) 8 :=
    slice_writeFields (hlen ▸ hfit) (sendFields_avoid P fmt x y z p seq)
  have hbound : actorUpdateSize fmt ≤ ACTOR_UPDATE_MAX_SIZE ∧
      actorUpdateHmacOffset fmt + TAIL_WITH_HMAC = actorUpdateSize fmt ∧
      actorUpdateTokenIdOffset fmt + 8 ≤ actorUpdateSize fmt ∧
      HEADER_SIZE ≤ actorUpdateHmacOffset fmt := by cases fmt <;> decide
  have htail : TAIL_WITH_HMAC = 41 := rfl
  have hsize : Hmac.TAG_SIZE = 32 := rfl
  have hidoff : actorUpdateTokenIdOffset fmt = actorUpdateHmacOffset fmt + Hmac.TAG_SIZE := rfl
  unfold finalizeActorUpdateFmt
  dsimp only
  generalize writeFields buf (sendFields P fmt x y z p seq) = b at hl hs
  split
  · rename_i tag htag
    have htl := (Hmac.spatialSign_eq_some htag).2
    refine ⟨by rw [length_overwrite (by omega), hl, hlen], ?_, ?_⟩
    · rw [slice_overwrite_disjoint (by omega) (.inr (by omega)), hs]
    · intro _ htoken id hid
      -- the tag lies inside the part that is sent
      rw [take_overwrite_of_le (by omega) (by omega)]
      refine signedFor_overwrite ?_ hbound.2.2.2 ?_ htoken ?_
      · rw [List.length_take]
        omega
      · rw [← hidoff, slice_take (by omega), hs, hid]
      · rwa [List.take_take, Nat.min_eq_left (by omega)]
  · exact ⟨hl.trans hlen, hs, fun h => absurd h Bool.false_ne_true⟩

end Sends

theorem capabilitiesFields_fit (appId gameTokenId : Int64) (flags : Nat) (seq : UInt8) :
    FieldsFit CAPABILITIES_SIZE (capabilitiesFields appId gameTokenId flags seq) := by
  unfold FieldsFit capabilitiesFields
  simp
  decide

/-- A capabilities datagram is signed for the credentials it was built with. -/
theorem buildCapabilities_spec {appId id : Int64} {flags : Nat} {seq : UInt8}
    {token bytes : Bytes}
    (h : buildCapabilities P appId id flags seq token = some bytes)
    (htoken : token.length = Hmac.TOKEN_OCTETS) : SignedFor P id token bytes := by
  unfold buildCapabilities at h
  obtain ⟨tag, htag, rfl⟩ := Option.map_eq_some_iff.mp h
  have hlen : (List.replicate CAPABILITIES_SIZE (0 : UInt8)).length = CAPABILITIES_SIZE :=
    List.length_replicate
  have hfit : FieldsFit (List.replicate CAPABILITIES_SIZE (0 : UInt8)).length
      (([(Off.TYPE, [CLIENT_CAPABILITIES]), (Off.APP_ID, i64Bytes appId.toInt),
          (Off.CONTAINS_AUTH, [1]), (HEADER_SIZE, leBytes 4 flags)] : List Field) ++
        (HEADER_SIZE + 4 + Hmac.TAG_SIZE, i64Bytes id.toInt) ::
          [(CAPABILITIES_SIZE - 1, [seq])]) :=
    hlen ▸ capabilitiesFields_fit appId id flags seq
  have hslot := slice_writeFields_append (fun f hf => hfit f (List.mem_append_left _ hf))
    (fun f hf => hfit f (List.mem_append_right _ (List.mem_cons_of_mem _ hf)))
    (hfit _ (List.mem_append_right _ (List.mem_cons_self ..))) (by
      intro f hf
      obtain rfl := List.mem_singleton.mp hf
      rw [length_i64Bytes]
      left
      show HEADER_SIZE + 4 + Hmac.TAG_SIZE + 8 ≤ CAPABILITIES_SIZE - 1
      decide)
  rw [length_i64Bytes] at hslot
  exact signedFor_overwrite ((length_writeFields hfit).trans hlen) (by decide) hslot htoken htag

section Last

variable {buf : Bytes} {fs : List Field} {n : Nat} {x : UInt8}

theorem getLast?_take (h : slice buf n 1 = [x]) : (buf.take (n + 1)).getLast? = some x := by
  have hdrop : (buf.drop n).take 1 = [x] := h
  rw [List.take_add, hdrop, List.getLast?_concat]

/-- The field written last reads back. -/
theorem slice_writeFields_last (hfit : FieldsFit buf.length (fs ++ [(n, [x])])) :
    slice (writeFields buf (fs ++ [(n, [x])])) n 1 = [x] :=
  slice_writeFields_append (fun f hf => hfit f (List.mem_append_left _ hf))
    (fun _ hf => absurd hf List.not_mem_nil)
    (hfit _ (List.mem_append_right _ (List.mem_singleton.mpr rfl)))
    (fun _ hf => absurd hf List.not_mem_nil)

theorem capabilitiesFields_snoc (appId id : Int64) (flags : Nat) (seq : UInt8) :
    ∃ fs, capabilitiesFields appId id flags seq = fs ++ [(CAPABILITIES_SIZE - 1, [seq])] :=
  ⟨[(Off.TYPE, [CLIENT_CAPABILITIES]), (Off.APP_ID, i64Bytes appId.toInt),
    (Off.CONTAINS_AUTH, [1]), (HEADER_SIZE, leBytes 4 flags),
    (HEADER_SIZE + 4 + Hmac.TAG_SIZE, i64Bytes id.toInt)], rfl⟩

/-- A capabilities datagram ends with its sequence number. -/
theorem buildCapabilities_last {appId id : Int64} {flags : Nat} {seq : UInt8} {token bytes : Bytes}
    (h : buildCapabilities P appId id flags seq token = some bytes) :
    bytes.getLast? = some seq := by
  unfold buildCapabilities at h
  obtain ⟨tag, htag, rfl⟩ := Option.map_eq_some_iff.mp h
  have htl := (Hmac.spatialSign_eq_some htag).2
  have hlen : (List.replicate CAPABILITIES_SIZE (0 : UInt8)).length = CAPABILITIES_SIZE :=
    List.length_replicate
  have hfit := capabilitiesFields_fit appId id flags seq
  obtain ⟨fs, hfs⟩ := capabilitiesFields_snoc appId id flags seq
  rw [← hlen, hfs] at hfit
  have hl : (writeFields (List.replicate CAPABILITIES_SIZE 0)
      (fs ++ [(CAPABILITIES_SIZE - 1, [seq])])).length = CAPABILITIES_SIZE :=
    (length_writeFields hfit).trans hlen
  have hroom : HEADER_SIZE + 4 + tag.length ≤ CAPABILITIES_SIZE - 1 := by
    rw [htl]
    decide
  have hslice : slice (overwrite (writeFields (List.replicate CAPABILITIES_SIZE 0)
      (fs ++ [(CAPABILITIES_SIZE - 1, [seq])])) (HEADER_SIZE + 4) tag) (CAPABILITIES_SIZE - 1) 1 =
      [seq] := by
    rw [slice_overwrite_disjoint (by omega) (.inr hroom)]
    exact slice_writeFields_last hfit
  have hlast := getLast?_take hslice
  rw [hfs]
  rwa [List.take_of_length_le] at hlast
  rw [length_overwrite (by omega), hl]
  decide

/-- So does an actor update. -/
theorem finalize_last (fmt : PoseFormat) (x y z : Int) (p : ActorPose K) (seq : UInt8)
    (token : Bytes) (hlen : buf.length = ACTOR_UPDATE_MAX_SIZE) :
    ((finalizeActorUpdateFmt P buf fmt x y z p seq token).1.take (actorUpdateSize fmt)).getLast? =
      some seq := by
  have hfit : FieldsFit buf.length (sendFields P fmt x y z p seq) :=
    hlen ▸ sendFields_fit P fmt x y z p seq
  have hl : (writeFields buf (sendFields P fmt x y z p seq)).length = ACTOR_UPDATE_MAX_SIZE :=
    (length_writeFields hfit).trans hlen
  have hslice : slice (writeFields buf (sendFields P fmt x y z p seq))
      (actorUpdateSeqOffset fmt) 1 = [seq] := slice_writeFields_last hfit
  have hroom : actorUpdateHmacOffset fmt + Hmac.TAG_SIZE ≤ actorUpdateSeqOffset fmt ∧
      actorUpdateSeqOffset fmt ≤ ACTOR_UPDATE_MAX_SIZE := by cases fmt <;> decide
  refine getLast?_take (n := actorUpdateSeqOffset fmt) ?_
  unfold finalizeActorUpdateFmt
  dsimp only
  generalize writeFields buf (sendFields P fmt x y z p seq) = b at hl hslice
  split
  · rename_i tag htag
    have htl := (Hmac.spatialSign_eq_some htag).2
    rw [slice_overwrite_disjoint (by omega) (.inr (by omega)), hslice]
  · exact hslice

end Last

end CksLoadtest.Wire
