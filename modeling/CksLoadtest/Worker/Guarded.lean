import Mathlib.Algebra.Field.Rat
import CksLoadtest.Wire.Guarded
import CksLoadtest.Worker.Sends

/-!
# A received datagram with every access checked

`handleDatagram` over the checked parser and verifiers: for a datagram that fits the
receive buffer and a token of 64 octets nothing faults, whatever the client's state, and
the outcome is that of the function on octet lists.
-/
namespace CksLoadtest.Worker

open Lib Lib.Buffer

namespace Guarded

variable {K : Type*}

section

variable (P : Platform K) (cfg : Config K) (nowMs : Int) (data : Bytes) (m : View)

/-- The branch of a GENERIC_ERROR_MESSAGE member. -/
def handleError (t : Readings) (c : SimClient K) : Checked (Out K) :=
  if 3 ≤ m.len then
    (m.octet data 2).bind fun code =>
      let classified := classifyRefusal cfg t code c
      .ok (after [.errorCode code]
        (andThen classified.1 fun d => reactToError cfg code (logError classified.2 d)))
  else .ok (c, [])

/-- The latency of a notification. -/
def latency : Checked (List (Effect K)) :=
  (Wire.Guarded.notificationEpochMs data m).bind fun
    | some epoch =>
      if 0 < epoch then (Checked.subInt64 nowMs epoch).bind fun ms => .ok [.latency ms]
      else .ok []
    | none => .ok []

/-- The branch of a member with the spatial bit. -/
def handleSpatial (type : UInt8) (c : SimClient K) : Checked (Out K) :=
  (if cfg.verifyServerHmac then Wire.Guarded.verifyNotification P data m c.creds.appToken
    else .ok true).bind fun verified =>
  if ¬ verified then .ok (c, [.count .rxHmacFailures 1])
  else
    let counter : Counter :=
      if type = Wire.ACTOR_UPDATE_NOTIFICATION_2 then .rxActorNotifications else .rxOtherSpatial
    (latency nowMs data m).bind fun measured => .ok (c, .count counter 1 :: measured)

/-- The callback of `handleDatagram` on one member. -/
def handleMember (signedBundle : Bool) (t : Readings) (c : SimClient K) : Checked (Out K) :=
  (Wire.Guarded.type data m).bind fun type =>
  (if type = Wire.GENERIC_ERROR_MESSAGE then
    (handleError cfg data m t c).bind fun o => .ok (after [.count .rxErrorMessages 1] o)
  else if type = Wire.COMMAND_RECONNECT then
    .ok (after [.count .rxReconnectCommands 1] (suspendClient .reassign c))
  else if type &&& Wire.SPATIAL_TYPE_BIT ≠ 0 then handleSpatial P cfg nowMs data m type c
  else .ok (c, [])).bind fun o =>
  .ok (after (if signedBundle then [.count .rxSignedMembers 1] else []) o)

end

variable (P : Platform K) (cfg : Config K) (nowMs : Int) (data : Bytes)

def handleMembers (signedBundle : Bool) (t : Nat → Readings) :
    List View → SimClient K → Checked (Out K)
  | [], c => .ok (c, [])
  | m :: ms, c =>
    (handleMember P cfg nowMs data m signedBundle (t 0) c).bind fun o =>
    (handleMembers signedBundle (fun k => t (k + 1)) ms o.1).bind fun rest =>
    .ok (after o.2 rest)

def handleDatagram [Field K] (rxNs : Int) (t : Nat → Readings) (c : SimClient K) :
    Checked (Out K) :=
  let counted : List (Effect K) := [.count .rxDatagrams 1, .count .rxBytes data.length]
  let c := { c with lastRxTime := steadySeconds rxNs }
  if data.length = 0 then .ok (c, counted)
  else
    (Checked.octet data 0).bind fun type =>
    let signedBundle : Bool := type = Wire.MESSAGE_BUNDLE_SIGNED
    let bundles : List (Effect K) :=
      if type = Wire.MESSAGE_BUNDLE then [.count .rxBundles 1]
      else if signedBundle then [.count .rxSignedBundles 1] else []
    (if signedBundle then Wire.Guarded.verifySignedBundle P data c.creds.appToken
      else .ok true).bind fun verified =>
    if ¬ verified then .ok (c, counted ++ bundles ++ [.count .rxHmacFailures 1])
    else
      (Wire.Guarded.forEachMessage data).bind fun walk =>
      (handleMembers P cfg nowMs data signedBundle t walk.1 c).bind fun o =>
      .ok (after (counted ++ bundles) (andThen o (endDatagram walk.2)))

section Safe

variable {P : Platform K} {cfg : Config K} {data : Bytes} {m : View} {nowMs : Int}

theorem handleError_ok (hm : m.Inside data) (t : Readings) (c : SimClient K) :
    handleError cfg data m t c = .ok (Worker.handleError cfg t (m.bytes data) c) := by
  have hlen := View.length_bytes hm
  unfold handleError
  match hb : m.bytes data with
  | [] | [_] | [_, _] =>
    rw [hb] at hlen
    rw [if_neg (by rw [← hlen]; simp)]
    rfl
  | x :: y :: code :: rest =>
    rw [hb] at hlen
    obtain ⟨b, hread, hok⟩ := View.octet_ok hm (i := 2) (by rw [← hlen]; simp)
    rw [hb] at hread
    obtain rfl : code = b := Option.some.inj hread
    rw [if_pos (by rw [← hlen]; simp), hok]
    rfl

/-- The epoch is positive where it is subtracted, so the difference fits. -/
theorem latency_ok (hm : m.Inside data) (hclock : 0 ≤ nowMs) (hmax : nowMs < 2 ^ 63) :
    latency (K := K) nowMs data m = .ok (match Wire.notificationEpochMs (m.bytes data) with
      | some epoch => if 0 < epoch then [.latency (nowMs - epoch)] else []
      | none => []) := by
  have hbound : ∀ epoch, Wire.notificationEpochMs (m.bytes data) = some epoch →
      epoch < 2 ^ 63 := by
    intro epoch h
    unfold Wire.notificationEpochMs at h
    split at h
    · cases h
    · split at h
      · cases h
      · obtain rfl := Option.some.inj h
        exact Int.lt_of_lt_of_le (Int.bmod_lt (by decide)) (by decide)
  unfold latency
  rw [Wire.Guarded.notificationEpochMs_ok hm, Checked.bind_ok]
  cases h : Wire.notificationEpochMs (m.bytes data) with
  | none => rfl
  | some epoch =>
    dsimp only
    split
    · rename_i hpos
      rw [Checked.subInt64_ok hclock hmax (Int.le_of_lt hpos) (hbound epoch h), Checked.bind_ok]
    · rfl

theorem handleSpatial_ok (hlen : data.length ≤ 2048) (hm : m.Inside data) (hclock : 0 ≤ nowMs)
    (hmax : nowMs < 2 ^ 63) {c : SimClient K}
    (htoken : c.creds.appToken.length = Hmac.TOKEN_OCTETS) :
    handleSpatial P cfg nowMs data m (Wire.type (m.bytes data)) c =
      .ok (Worker.handleSpatial P cfg nowMs (m.bytes data) c) := by
  unfold View.Inside at hm
  have hverified : (if cfg.verifyServerHmac then
        Wire.Guarded.verifyNotification P data m c.creds.appToken
      else .ok true) = .ok (if cfg.verifyServerHmac then
        Wire.verifyNotification P (m.bytes data) c.creds.appToken else true) := by
    rw [Wire.Guarded.verifyNotification_ok hm (by omega) htoken]
    split <;> rfl
  unfold handleSpatial Worker.handleSpatial
  rw [hverified, Checked.bind_ok, latency_ok hm hclock hmax]
  cases cfg.verifyServerHmac with
  | false => rfl
  | true =>
    cases Wire.verifyNotification P (m.bytes data) c.creds.appToken with
    | false => rfl
    | true => rfl

theorem handleMember_ok (hlen : data.length ≤ 2048) (hm : m.Inside data) (hclock : 0 ≤ nowMs)
    (hmax : nowMs < 2 ^ 63) (signedBundle : Bool) (t : Readings) {c : SimClient K}
    (htoken : c.creds.appToken.length = Hmac.TOKEN_OCTETS) :
    handleMember P cfg nowMs data m signedBundle t c =
      .ok (Worker.handleMember P cfg signedBundle nowMs t (m.bytes data) c) := by
  unfold handleMember Worker.handleMember
  rw [Wire.Guarded.type_ok hm, Checked.bind_ok, handleError_ok hm, Checked.bind_ok,
    handleSpatial_ok hlen hm hclock hmax htoken]
  split
  · rfl
  · split
    · rfl
    · by_cases hs : Wire.type (m.bytes data) &&& Wire.SPATIAL_TYPE_BIT = 0
      · rw [if_neg (not_not_intro hs), if_neg fun h => (Wire.Guarded.isSpatial_iff _).mp h hs]
        rfl
      · rw [if_pos hs, if_pos ((Wire.Guarded.isSpatial_iff _).mpr hs)]
        rfl

theorem handleMembers_ok (hlen : data.length ≤ 2048) (hclock : 0 ≤ nowMs)
    (hmax : nowMs < 2 ^ 63) (signedBundle : Bool) (t : Nat → Readings) {vs : List View}
    (hvs : ∀ v ∈ vs, v.Inside data) {c : SimClient K}
    (htoken : c.creds.appToken.length = Hmac.TOKEN_OCTETS) :
    handleMembers P cfg nowMs data signedBundle t vs c =
      .ok (Worker.handleMembers P cfg signedBundle nowMs t (vs.map (View.bytes data)) c) := by
  induction vs generalizing c t with
  | nil => rfl
  | cons v vs ih =>
    have hcreds :=
      (handleMember_suspends P cfg signedBundle nowMs (t 0) (v.bytes data) c).creds
    rw [handleMembers, handleMember_ok hlen (hvs v (.head _)) hclock hmax signedBundle (t 0) htoken,
      Checked.bind_ok, ih (fun k => t (k + 1)) (fun u hu => hvs u (.tail _ hu)) (hcreds ▸ htoken)]
    rfl

/-- **Nothing faults.** -/
theorem handleDatagram_ok [Field K] (hlen : data.length ≤ 2048) (hclock : 0 ≤ nowMs)
    (hmax : nowMs < 2 ^ 63) (rxNs : Int) (t : Nat → Readings) {c : SimClient K}
    (htoken : c.creds.appToken.length = Hmac.TOKEN_OCTETS) :
    handleDatagram P cfg nowMs data rxNs t c =
      .ok (Worker.handleDatagram P cfg rxNs nowMs t data c) := by
  obtain ⟨vs, hwalk, hvs, hin⟩ := Wire.Guarded.forEachMessage_ok data
  have hmembers : handleMembers P cfg nowMs data
      (decide (Wire.type data = Wire.MESSAGE_BUNDLE_SIGNED)) t vs
      { c with lastRxTime := steadySeconds rxNs } = .ok (Worker.handleMembers P cfg
        (decide (Wire.type data = Wire.MESSAGE_BUNDLE_SIGNED)) nowMs t (vs.map (View.bytes data))
        { c with lastRxTime := steadySeconds rxNs }) :=
    handleMembers_ok hlen hclock hmax _ t hin htoken
  have hverified := Wire.Guarded.verifySignedBundle_ok (P := P) hlen htoken
  rw [hvs] at hmembers
  unfold handleDatagram Worker.handleDatagram beginDatagram
  match data with
  | [] => rfl
  | b :: body =>
    rw [if_neg (List.length_cons ▸ Nat.succ_ne_zero _), Checked.octet_ok (b := b) rfl,
      Checked.bind_ok]
    dsimp only
    have htype : Wire.type (b :: body) = b := rfl
    rw [htype] at hmembers ⊢
    rw [if_neg (List.cons_ne_nil _ _), hverified, hwalk]
    by_cases hs : b = Wire.MESSAGE_BUNDLE_SIGNED
    · rw [decide_eq_true hs] at hmembers ⊢
      cases Wire.verifySignedBundle P (b :: body) c.creds.appToken with
      | false => rfl
      | true =>
        rw [if_pos rfl, Checked.bind_ok, Checked.bind_ok, hmembers, Checked.bind_ok]
        rfl
    · rw [decide_eq_false hs] at hmembers ⊢
      rw [if_neg Bool.false_ne_true, Checked.bind_ok, Checked.bind_ok, hmembers, Checked.bind_ok]
      rfl

end Safe

/-- **Untrusted input.** For a datagram that fits the receive buffer, a token of 64 octets
and a local clock that is not negative, no read of the parser, of the verifiers, of the
latency or of the whole handler leaves the datagram or the member, nothing underflows, the
bound of `spatialSign` is not reached and the latency fits. A verification fails exactly for
a missing tag or for one that HMAC does not answer. -/
theorem received_inside [Field K] (P : Platform K) {data token : Bytes} (nowMs : Int64)
    (hlen : data.length ≤ 2048) (htoken : token.length = Hmac.TOKEN_OCTETS)
    (hclock : 0 ≤ nowMs.toInt) :
    Wire.Guarded.verifySignedBundle P data token = .ok (Wire.verifySignedBundle P data token) ∧
    (∃ vs, Wire.Guarded.forEachMessage data = .ok (vs, (Wire.forEachMessage data).2) ∧
      vs.map (View.bytes data) = (Wire.forEachMessage data).1 ∧
      ∀ v ∈ vs, v.Inside data ∧
        Wire.Guarded.verifyNotification P data v token =
          .ok (Wire.verifyNotification P (v.bytes data) token) ∧
        Wire.Guarded.notificationEpochMs data v =
          .ok (Wire.notificationEpochMs (v.bytes data))) ∧
    (∀ (cfg : Config K) (rxNs : Int) (t : Nat → Readings) (c : SimClient K),
      c.creds.appToken = token →
      handleDatagram P cfg nowMs.toInt data rxNs t c =
        .ok (Worker.handleDatagram P cfg rxNs nowMs.toInt t data c)) ∧
    (Wire.type data = Wire.MESSAGE_BUNDLE_SIGNED →
      (Wire.verifySignedBundle P data token = false ↔ data.length ≤ Hmac.TAG_SIZE + 1 ∨
        P.hmacSha256 token (data.take (data.length - Hmac.TAG_SIZE) ++ token) ≠
          some (data.drop (data.length - Hmac.TAG_SIZE)))) ∧
    ∀ m ∈ (Wire.forEachMessage data).1, Wire.verifyNotification P m token = false ↔
      (Wire.Off.CONTAINS_AUTH < m.length ∧ Wire.isSpatial m = true ∧
        slice m Wire.Off.CONTAINS_AUTH 1 ≠ [0]) ∧
      (m.length < Wire.HEADER_SIZE + Wire.TAIL_WITH_HMAC ∨
        P.hmacSha256 token (m.take (m.length - Wire.TAIL_WITH_HMAC) ++ token) ≠
          some (slice m (m.length - Wire.TAIL_WITH_HMAC) Hmac.TAG_SIZE)) := by
  obtain ⟨vs, hwalk, hvs, hin⟩ := Wire.Guarded.forEachMessage_ok data
  have hfits : ∀ v ∈ vs, v.len ≤ 2048 := fun v hv => by
    have hv := hin v hv
    unfold View.Inside at hv
    omega
  refine ⟨Wire.Guarded.verifySignedBundle_ok hlen htoken, ⟨vs, hwalk, hvs, fun v hv => ?_⟩,
    fun cfg rxNs t c hc => ?_, fun htype => ?_, fun m hm => ?_⟩
  · exact ⟨hin v hv, Wire.Guarded.verifyNotification_ok (hin v hv) (hfits v hv) htoken,
      Wire.Guarded.notificationEpochMs_ok (hin v hv)⟩
  · exact handleDatagram_ok hlen hclock nowMs.toInt_lt rxNs t (hc ▸ htoken)
  · exact Wire.verifySignedBundle_eq_false hlen htype htoken
  · rw [← hvs] at hm
    obtain ⟨v, hv, rfl⟩ := List.mem_map.mp hm
    exact Wire.verifyNotification_eq_false ((View.length_bytes (hin v hv)).trans_le (hfits v hv))
      htoken

namespace Sample

def platform : Platform ℚ where
  hmacSha256 _ _ := none
  behindToken _ _ := 0
  f64 _ := .replicate 8 0
  f32 _ := .replicate 4 0
  sqrt x := x
  atan2 _ _ := 0
  inetPton _ := none

def config : Config ℚ := { walkSpeed := -1, chunkSizeUnits := -1 }

def client : SimClient ℚ := SimClient.fresh { appToken := List.replicate 64 97 } 0

/-- A bundle with an empty member, a member of one octet and one that is cut. -/
def cut : Bytes := [Wire.MESSAGE_BUNDLE, 0, 0, 1, 0, 128, 9, 0, 3]

end Sample

theorem cut_bundle_inside :
    handleDatagram Sample.platform Sample.config 5 Sample.cut 0 (fun _ => ⟨0, 0⟩) Sample.client =
      .ok (Worker.handleDatagram Sample.platform Sample.config 0 5 (fun _ => ⟨0, 0⟩) Sample.cut
        Sample.client) :=
  (received_inside Sample.platform 5 (by decide) (by decide) (by decide)).2.2.1
    Sample.config 0 _ Sample.client rfl

end Guarded

end CksLoadtest.Worker
