import CksLoadtest.Lib.Checked
import CksLoadtest.Wire.Inbound

/-!
# The inbound functions with every access checked

The parser and the verifiers once more, as they walk through memory: each read names its
offset, each subtraction can underflow, and the bound of `spatialSign` is a fault. None of
it happens on a datagram of the size the socket is read with, and the results are those of
the functions on octet lists.
-/
namespace CksLoadtest.Wire

open Lib Lib.Buffer

namespace Guarded

variable {K : Type*} (P : Platform K) (data : Bytes) (m : View) (token : Bytes)

/-- `InboundView::type`. -/
def type : Checked UInt8 := if 0 < m.len then m.octet data 0 else .ok 0

/-- `spatialSign` over the first `prefixLen` octets of a view. -/
def spatialSign (prefixLen : Nat) : Checked (Option Bytes) :=
  if 2048 + Hmac.TOKEN_OCTETS < prefixLen + Hmac.TOKEN_OCTETS then .error .tooLong
  else do
    let pre ← m.octets data 0 prefixLen
    let key ← Checked.octets token 0 Hmac.TOKEN_OCTETS
    match P.hmacSha256 key (pre ++ key) with
    | some tag => .ok (if tag.length = Hmac.TAG_SIZE then some tag else none)
    | none => .ok none

/-- `tagEquals` against the octets of a view from an offset on. -/
def tagEquals (expected : Bytes) (off : Nat) : Checked Bool := do
  let tag ← m.octets data off Hmac.TAG_SIZE
  .ok (expected = tag)

def verifySignedBundle : Checked Bool :=
  if data.length ≤ Hmac.TAG_SIZE + 1 then .ok false
  else do
    let t ← (View.whole data).octet data 0
    if t ≠ MESSAGE_BUNDLE_SIGNED then .ok false
    else do
      let signedLen ← Checked.subSize data.length Hmac.TAG_SIZE
      match ← spatialSign P data (View.whole data) token signedLen with
      | some expected => tagEquals data (View.whole data) expected signedLen
      | none => .ok false

def verifyNotification : Checked Bool :=
  if m.len ≤ Off.CONTAINS_AUTH then .ok true
  else do
    let t ← type data m
    if t &&& SPATIAL_TYPE_BIT = 0 then .ok true
    else do
      let containsAuth ← m.octet data Off.CONTAINS_AUTH
      if containsAuth = 0 then .ok true
      else if m.len < HEADER_SIZE + TAIL_WITH_HMAC then .ok false
      else do
        let prefixLen ← Checked.subSize m.len TAIL_WITH_HMAC
        match ← spatialSign P data m token prefixLen with
        | some expected => tagEquals data m expected prefixLen
        | none => .ok false

def notificationEpochMs : Checked (Option Int) :=
  if m.len < HEADER_SIZE + TAIL_NO_HMAC then .ok none
  else do
    let t ← type data m
    if t &&& SPATIAL_TYPE_BIT = 0 then .ok none
    else do
      let off ← Checked.subSize m.len TAIL_NO_HMAC
      let slot ← m.octets data off 8
      .ok (some (readI64 slot))

/-- The member loop of `forEachMessage`, with the views it delivers. -/
def walkMembers (len offset : Nat) : Checked (List View × Bool) :=
  if offset < len then
    if len < offset + 2 then .ok ([], false)
    else do
      let lenField ← Checked.octets data offset 2
      let msgLen := leNat lenField
      if len < offset + 2 + msgLen then .ok ([], false)
      else do
        let next ← walkMembers len (offset + 2 + msgLen)
        .ok (⟨offset + 2, msgLen⟩ :: next.1, next.2)
  else .ok ([], true)
termination_by len - offset

def forEachMessage : Checked (List View × Bool) :=
  if data.length = 0 then .ok ([], false)
  else do
    let t ← Checked.octet data 0
    if t = MESSAGE_BUNDLE_SIGNED then
      if data.length ≤ Hmac.TAG_SIZE + 1 then .ok ([], false)
      else do
        let len ← Checked.subSize data.length Hmac.TAG_SIZE
        walkMembers data len 1
    else if t ≠ MESSAGE_BUNDLE then .ok ([View.whole data], true)
    else walkMembers data data.length 1

section Safe

variable {P data m token}

theorem type_ok (hm : m.Inside data) : type data m = .ok (Wire.type (m.bytes data)) := by
  unfold type
  split
  · rename_i hlen
    obtain ⟨b, hb, hread⟩ := View.octet_ok hm hlen
    rw [hread]
    cases h : m.bytes data with
    | nil => rw [h] at hb; cases hb
    | cons c rest =>
      rw [h] at hb
      exact congrArg _ (Option.some.inj hb).symm
  · have hnil : m.bytes data = [] := by
      rw [← List.length_eq_zero_iff, View.length_bytes hm]
      omega
    rw [hnil]
    rfl

theorem spatialSign_ok {prefixLen : Nat} (hm : m.Inside data) (hp : prefixLen ≤ m.len)
    (hmax : prefixLen ≤ 2048) (htoken : token.length = Hmac.TOKEN_OCTETS) :
    spatialSign P data m token prefixLen =
      .ok (Hmac.spatialSign P ((m.bytes data).take prefixLen) token) := by
  have hpre : ((m.bytes data).take prefixLen).length = prefixLen := by
    rw [List.length_take, View.length_bytes hm]
    omega
  have hkey : slice token 0 Hmac.TOKEN_OCTETS = Hmac.tokenOctets P token := by
    rw [Hmac.tokenOctets_of_length P htoken, ← htoken]
    exact List.take_length ..
  have hslice : slice (m.bytes data) 0 prefixLen = (m.bytes data).take prefixLen := rfl
  unfold spatialSign Hmac.spatialSign
  rw [if_neg (by omega), View.octets_ok hm (by omega), Checked.ok_bind,
    Checked.octets_ok (by omega), Checked.ok_bind, hkey, hslice]
  dsimp only
  rw [hpre, if_neg (by omega)]
  cases P.hmacSha256 (Hmac.tokenOctets P token)
    ((m.bytes data).take prefixLen ++ Hmac.tokenOctets P token) <;> rfl

theorem tagEquals_ok (hm : m.Inside data) {expected : Bytes} {off : Nat}
    (hoff : off + Hmac.TAG_SIZE ≤ m.len) : tagEquals data m expected off =
      .ok (decide (expected = slice (m.bytes data) off Hmac.TAG_SIZE)) := by
  unfold tagEquals
  rw [View.octets_ok hm hoff, Checked.ok_bind]

example : tagEquals [30, 1] (View.whole [30, 1]) [1] 1 = .error .outside := by decide

theorem verifySignedBundle_ok (hlen : data.length ≤ 2048)
    (htoken : token.length = Hmac.TOKEN_OCTETS) :
    verifySignedBundle P data token = .ok (Wire.verifySignedBundle P data token) := by
  have hw := View.whole_inside data
  have hsize : Hmac.TAG_SIZE = 32 := rfl
  unfold verifySignedBundle Wire.verifySignedBundle
  by_cases hshort : data.length ≤ Hmac.TAG_SIZE + 1
  · rw [if_pos hshort, if_pos (.inl hshort)]
  · have htype : (View.whole data).octet data 0 = .ok (Wire.type data) := by
      have hread := type_ok hw
      unfold type at hread
      rwa [if_pos (show 0 < (View.whole data).len from show 0 < data.length by omega),
        View.bytes_whole] at hread
    have htail : slice data (data.length - Hmac.TAG_SIZE) Hmac.TAG_SIZE =
        data.drop (data.length - Hmac.TAG_SIZE) := by
      unfold slice
      rw [List.take_of_length_le (by rw [List.length_drop]; omega)]
    have hfront : data.length - Hmac.TAG_SIZE ≤ (View.whole data).len := Nat.sub_le ..
    rw [if_neg hshort, htype, Checked.ok_bind]
    by_cases ht : Wire.type data = MESSAGE_BUNDLE_SIGNED
    · rw [if_neg (not_not_intro ht), Checked.subSize_ok (by omega), Checked.ok_bind,
        spatialSign_ok hw hfront (by omega) htoken, Checked.ok_bind, View.bytes_whole,
        if_neg (not_or.mpr ⟨hshort, not_not_intro ht⟩)]
      cases Hmac.spatialSign P (data.take (data.length - Hmac.TAG_SIZE)) token with
      | none => rfl
      | some expected =>
        dsimp only
        rw [tagEquals_ok hw (show _ ≤ data.length by omega), View.bytes_whole, htail]
    · rw [if_pos ht, if_pos (.inr ht)]

theorem isSpatial_iff (bs : Bytes) :
    Wire.isSpatial bs = true ↔ ¬ Wire.type bs &&& SPATIAL_TYPE_BIT = 0 := decide_eq_true_iff

theorem verifyNotification_ok (hm : m.Inside data) (hlen : m.len ≤ 2048)
    (htoken : token.length = Hmac.TOKEN_OCTETS) : verifyNotification P data m token =
      .ok (Wire.verifyNotification P (m.bytes data) token) := by
  have hbytes := View.length_bytes hm
  have hauth : Off.CONTAINS_AUTH = 35 := rfl
  have htail : TAIL_WITH_HMAC = 41 := rfl
  have hsize : Hmac.TAG_SIZE = 32 := rfl
  unfold verifyNotification Wire.verifyNotification
  rw [hbytes]
  by_cases hshort : m.len ≤ Off.CONTAINS_AUTH
  · rw [if_pos hshort, if_pos (.inl hshort)]
  · rw [if_neg hshort, type_ok hm, Checked.ok_bind]
    by_cases ht : Wire.type (m.bytes data) &&& SPATIAL_TYPE_BIT = 0
    · rw [if_pos ht, if_pos (.inr fun h => (isSpatial_iff _).mp h ht)]
    · obtain ⟨b, hb, hread⟩ := View.octet_ok hm (show Off.CONTAINS_AUTH < m.len by omega)
      have hslice : slice (m.bytes data) Off.CONTAINS_AUTH 1 = [b] := by
        unfold slice
        rw [List.take_one, List.head?_drop, hb]
        rfl
      rw [if_neg ht, hread, Checked.ok_bind, hslice,
        if_neg (not_or.mpr ⟨hshort, not_not_intro ((isSpatial_iff _).mpr ht)⟩)]
      by_cases h0 : b = 0
      · rw [if_pos h0, if_pos (by rw [h0])]
      · rw [if_neg h0, if_neg fun h => h0 (List.cons.inj h).1]
        split
        · rfl
        · rw [Checked.subSize_ok (by omega), Checked.ok_bind,
            spatialSign_ok hm (Nat.sub_le ..) (by omega) htoken, Checked.ok_bind]
          dsimp only
          cases Hmac.spatialSign P ((m.bytes data).take (m.len - TAIL_WITH_HMAC)) token with
          | none => rfl
          | some expected =>
            exact tagEquals_ok hm (show m.len - TAIL_WITH_HMAC + Hmac.TAG_SIZE ≤ m.len by omega)

theorem notificationEpochMs_ok (hm : m.Inside data) :
    notificationEpochMs data m = .ok (Wire.notificationEpochMs (m.bytes data)) := by
  have hbytes := View.length_bytes hm
  have htail : TAIL_NO_HMAC = 9 := rfl
  unfold notificationEpochMs Wire.notificationEpochMs
  rw [hbytes]
  split
  · rfl
  · rw [type_ok hm, Checked.ok_bind]
    by_cases ht : Wire.type (m.bytes data) &&& SPATIAL_TYPE_BIT = 0
    · rw [if_pos ht, if_pos fun h => (isSpatial_iff _).mp h ht]
    · rw [if_neg ht, if_neg (not_not_intro ((isSpatial_iff _).mpr ht)),
        Checked.subSize_ok (by omega), Checked.ok_bind, View.octets_ok hm (by omega),
        Checked.ok_bind]

/-- **The member loop stays inside.** It delivers what the loop on octets does. -/
theorem walkMembers_ok (data : Bytes) (len offset : Nat) (hlen : len ≤ data.length)
    (hoff : offset ≤ len) :
    ∃ vs, walkMembers data len offset =
        .ok (vs, (Wire.walkMembers ((data.take len).drop offset)).2) ∧
      vs.map (View.bytes data) = (Wire.walkMembers ((data.take len).drop offset)).1 ∧
      ∀ v ∈ vs, v.off + v.len ≤ len := by
  induction hn : len - offset using Nat.strongRecOn generalizing offset with
  | _ n ih =>
    subst hn
    have hlength : ((data.take len).drop offset).length = len - offset := by
      rw [List.length_drop, List.length_take, Nat.min_eq_left hlen]
    have htake :
        ((data.take len).drop offset).take 2 = (slice data offset 2).take (len - offset) := by
      unfold slice
      rw [List.drop_take, List.take_take, List.take_take, Nat.min_comm]
    have hdrop : ((data.take len).drop offset).drop 2 = (data.take len).drop (offset + 2) := by
      rw [List.drop_drop]
    rw [walkMembers]
    match hs : (data.take len).drop offset with
    | [] =>
      rw [hs, List.length_nil] at hlength
      rw [if_neg (by omega), Wire.walkMembers]
      exact ⟨[], rfl, rfl, fun v hv => absurd hv List.not_mem_nil⟩
    | [_] =>
      rw [hs, List.length_singleton] at hlength
      rw [if_pos (by omega), if_pos (by omega), Wire.walkMembers]
      exact ⟨[], rfl, rfl, fun v hv => absurd hv List.not_mem_nil⟩
    | a :: b :: rest =>
      rw [hs, List.length_cons, List.length_cons] at hlength
      have hfield : slice data offset 2 = [a, b] := by
        rw [hs] at htake
        rw [← List.take_of_length_le (l := slice data offset 2) (i := len - offset), ← htake]
        · rfl
        · unfold slice
          rw [List.length_take]
          omega
      have hrest : rest = (data.take len).drop (offset + 2) := by
        rw [← hdrop, hs]
        rfl
      rw [if_pos (by omega), if_neg (by omega), Checked.octets_ok (by omega), Checked.ok_bind,
        hfield, Wire.walkMembers]
      dsimp only
      by_cases hcut : len < offset + 2 + leNat [a, b]
      · rw [if_pos hcut, if_pos (by omega)]
        exact ⟨[], rfl, rfl, fun v hv => absurd hv List.not_mem_nil⟩
      · have hnext : rest.drop (leNat [a, b]) =
            (data.take len).drop (offset + 2 + leNat [a, b]) := by
          rw [hrest, List.drop_drop]
        have hmember : rest.take (leNat [a, b]) =
            View.bytes data ⟨offset + 2, leNat [a, b]⟩ := by
          unfold View.bytes
          rw [hrest, ← slice_take (show offset + 2 + leNat [a, b] ≤ len by omega)]
          rfl
        obtain ⟨vs, hwalk, hvs, hin⟩ := ih _ (by omega) (offset + 2 + leNat [a, b]) (by omega) rfl
        rw [if_neg hcut, if_neg (by omega), hwalk, Checked.ok_bind, hnext, hmember]
        refine ⟨_, rfl, ?_, ?_⟩
        · rw [List.map_cons, hvs]
        · rintro v (_ | ⟨_, hv⟩)
          · show offset + 2 + leNat [a, b] ≤ len
            omega
          · exact hin v hv

/-- **Every member lies inside its datagram.** -/
theorem forEachMessage_ok (data : Bytes) :
    ∃ vs, forEachMessage data = .ok (vs, (Wire.forEachMessage data).2) ∧
      vs.map (View.bytes data) = (Wire.forEachMessage data).1 ∧ ∀ v ∈ vs, v.Inside data := by
  unfold forEachMessage
  match data with
  | [] => exact ⟨[], rfl, rfl, fun v hv => absurd hv List.not_mem_nil⟩
  | t :: body =>
    have hlen : (t :: body).length = body.length + 1 := rfl
    have hsize : Hmac.TAG_SIZE = 32 := rfl
    rw [if_neg (by omega), Checked.octet_ok (b := t) rfl, Checked.ok_bind, Wire.forEachMessage]
    by_cases hsigned : t = MESSAGE_BUNDLE_SIGNED
    · rw [if_pos hsigned, if_pos hsigned]
      by_cases hshort : (t :: body).length ≤ Hmac.TAG_SIZE + 1
      · rw [if_pos hshort, if_pos hshort]
        exact ⟨[], rfl, rfl, fun v hv => absurd hv List.not_mem_nil⟩
      · obtain ⟨vs, hwalk, hvs, hin⟩ := walkMembers_ok (t :: body)
          ((t :: body).length - Hmac.TAG_SIZE) 1 (Nat.sub_le ..) (by omega)
        have hbody : ((t :: body).take ((t :: body).length - Hmac.TAG_SIZE)).drop 1 =
            body.take (body.length - Hmac.TAG_SIZE) := by
          rw [show (t :: body).length - Hmac.TAG_SIZE = body.length - Hmac.TAG_SIZE + 1 by omega]
          rfl
        rw [hbody] at hwalk hvs
        rw [if_neg hshort, if_neg hshort, Checked.subSize_ok (by omega), Checked.ok_bind]
        exact ⟨vs, hwalk, hvs, fun v hv => Nat.le_trans (hin v hv) (Nat.sub_le ..)⟩
    · rw [if_neg hsigned, if_neg hsigned]
      by_cases hbundle : t = MESSAGE_BUNDLE
      · obtain ⟨vs, hwalk, hvs, hin⟩ := walkMembers_ok (t :: body) (t :: body).length 1
          (Nat.le_refl _) (by omega)
        have hbody : ((t :: body).take (t :: body).length).drop 1 = body := by
          rw [List.take_length]
          rfl
        rw [hbody] at hwalk hvs
        rw [if_neg (not_not_intro hbundle), if_pos hbundle]
        exact ⟨vs, hwalk, hvs, hin⟩
      · rw [if_pos hbundle, if_neg hbundle]
        refine ⟨_, rfl, ?_, ?_⟩
        · rw [List.map_singleton, View.bytes_whole]
        · rintro v (_ | ⟨_, hv⟩)
          · exact View.whole_inside _
          · cases hv

end Safe

end Guarded

section Failures

variable {K : Type*} {P : Platform K} {token : Bytes}

/-- The comparison of a tag with the one `spatialSign` answers. -/
theorem tag_refused_iff {pre tag : Bytes} (hpre : pre.length ≤ 2048)
    (htag : tag.length = Hmac.TAG_SIZE) (htoken : token.length = Hmac.TOKEN_OCTETS) :
    (match Hmac.spatialSign P pre token with
      | some expected => decide (expected = tag)
      | none => false) = false ↔ P.hmacSha256 token (pre ++ token) ≠ some tag := by
  have hiff : Hmac.spatialSign P pre token = some tag ↔
      P.hmacSha256 (Hmac.tokenOctets P token) (pre ++ Hmac.tokenOctets P token) = some tag ∧
        tag.length = Hmac.TAG_SIZE := Hmac.spatialSign_eq_some_iff hpre
  rw [Hmac.tokenOctets_of_length P htoken] at hiff
  have hanswer : Hmac.spatialSign P pre token = some tag ↔
      P.hmacSha256 token (pre ++ token) = some tag := hiff.trans (and_iff_left htag)
  rw [ne_eq, ← hanswer]
  cases Hmac.spatialSign P pre token with
  | none => simp
  | some expected => simp

/-- A signed bundle is refused for a missing tag or for a wrong one. -/
theorem verifySignedBundle_eq_false {data : Bytes} (hlen : data.length ≤ 2048)
    (htype : type data = MESSAGE_BUNDLE_SIGNED) (htoken : token.length = Hmac.TOKEN_OCTETS) :
    verifySignedBundle P data token = false ↔ data.length ≤ Hmac.TAG_SIZE + 1 ∨
      P.hmacSha256 token (data.take (data.length - Hmac.TAG_SIZE) ++ token) ≠
        some (data.drop (data.length - Hmac.TAG_SIZE)) := by
  unfold verifySignedBundle
  by_cases hshort : data.length ≤ Hmac.TAG_SIZE + 1
  · rw [if_pos (.inl hshort)]
    exact iff_of_true rfl (.inl hshort)
  · rw [if_neg (not_or.mpr ⟨hshort, not_not_intro htype⟩)]
    refine Iff.trans (tag_refused_iff ?_ ?_ htoken) (or_iff_right hshort).symm
    · rw [List.length_take]
      omega
    · rw [List.length_drop]
      omega

/-- A member is refused if it says that it is signed, and the tag is missing or wrong. -/
theorem verifyNotification_eq_false {m : Bytes} (hlen : m.length ≤ 2048)
    (htoken : token.length = Hmac.TOKEN_OCTETS) :
    verifyNotification P m token = false ↔
      (Off.CONTAINS_AUTH < m.length ∧ isSpatial m = true ∧ slice m Off.CONTAINS_AUTH 1 ≠ [0]) ∧
      (m.length < HEADER_SIZE + TAIL_WITH_HMAC ∨
        P.hmacSha256 token (m.take (m.length - TAIL_WITH_HMAC) ++ token) ≠
          some (slice m (m.length - TAIL_WITH_HMAC) Hmac.TAG_SIZE)) := by
  have htail : TAIL_WITH_HMAC = 41 := rfl
  have hsize : Hmac.TAG_SIZE = 32 := rfl
  unfold verifyNotification
  by_cases hplain : m.length ≤ Off.CONTAINS_AUTH ∨ ¬ isSpatial m
  · rw [if_pos hplain]
    refine iff_of_false Bool.false_ne_true.symm fun h => ?_
    exact hplain.elim (Nat.not_le.mpr h.1.1) (not_not_intro h.1.2.1)
  · rw [if_neg hplain]
    rw [not_or, not_not, Nat.not_le] at hplain
    by_cases h0 : slice m Off.CONTAINS_AUTH 1 = [0]
    · rw [if_pos h0]
      exact iff_of_false Bool.false_ne_true.symm fun h => h.1.2.2 h0
    · rw [if_neg h0]
      refine Iff.trans ?_ (and_iff_right ⟨hplain.1, hplain.2, h0⟩).symm
      by_cases hshort : m.length < HEADER_SIZE + TAIL_WITH_HMAC
      · rw [if_pos hshort]
        exact iff_of_true rfl (.inl hshort)
      · rw [if_neg hshort]
        refine Iff.trans (tag_refused_iff ?_ ?_ htoken) (or_iff_right hshort).symm
        · rw [List.length_take]
          omega
        · unfold slice
          rw [List.length_take, List.length_drop]
          omega

end Failures

end CksLoadtest.Wire
