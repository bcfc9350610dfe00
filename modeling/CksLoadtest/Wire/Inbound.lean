import CksLoadtest.Wire.Encode

/-!
# Inbound datagrams

The walk over a bundle's members and the checks on signed bundles and
notifications. The callback of `forEachMessage` cannot influence the walk, so the
walk is a function from the datagram to the delivered members and its result.
-/
namespace CksLoadtest.Wire

open Lib.Buffer

def MESSAGE_BUNDLE : UInt8 := 2
def GENERIC_ERROR_MESSAGE : UInt8 := 3
def COMMAND_RECONNECT : UInt8 := 22
def MESSAGE_BUNDLE_SIGNED : UInt8 := 30
def ACTOR_UPDATE_NOTIFICATION_2 : UInt8 := 130
def SPATIAL_TYPE_BIT : UInt8 := 0x80

def ERR_INVALID_TOKEN : UInt8 := 5
def ERR_UNAUTHORIZED : UInt8 := 7
def ERR_USER_NOT_AUTHENTICATED : UInt8 := 20
def ERR_TOKEN_EXPIRED : UInt8 := 32

/-- `InboundView::type`: the first octet, 0 for an empty message. -/
def type : Bytes → UInt8
  | [] => 0
  | b :: _ => b

/-- `InboundView::type() & SPATIAL_TYPE_BIT`. -/
def isSpatial (m : Bytes) : Bool := type m &&& SPATIAL_TYPE_BIT ≠ 0

/-- The member loop of `forEachMessage`: `[2B len LE][msg]` until the data ends. A
cut length field or member ends it with `false`. -/
def walkMembers : Bytes → List Bytes × Bool
  | [] => ([], true)
  | [_] => ([], false)
  | a :: b :: rest =>
    let msgLen := leNat [a, b]
    if rest.length < msgLen then ([], false)
    else
      let next := walkMembers (rest.drop msgLen)
      (rest.take msgLen :: next.1, next.2)
termination_by data => data.length
decreasing_by simp only [List.length_drop, List.length_cons]; omega

/-- The delivered members, in order, and the returned flag. -/
def forEachMessage (data : Bytes) : List Bytes × Bool :=
  match data with
  | [] => ([], false)
  | t :: body =>
    if t = MESSAGE_BUNDLE_SIGNED then
      if data.length ≤ Hmac.TAG_SIZE + 1 then ([], false)
      else walkMembers (body.take (body.length - Hmac.TAG_SIZE))
    else if t = MESSAGE_BUNDLE then walkMembers body
    else ([data], true)

section Verify

variable {K : Type*} (P : Platform K)

/-- `verifySignedBundle`: the last 32 octets are the tag over all before them. -/
def verifySignedBundle (data token : Bytes) : Bool :=
  if data.length ≤ Hmac.TAG_SIZE + 1 ∨ type data ≠ MESSAGE_BUNDLE_SIGNED then false
  else
    match Hmac.spatialSign P (data.take (data.length - Hmac.TAG_SIZE)) token with
    | some expected => expected = data.drop (data.length - Hmac.TAG_SIZE)
    | none => false

/-- `verifyNotification`: an unsigned or short message has nothing to verify. -/
def verifyNotification (m token : Bytes) : Bool :=
  if m.length ≤ Off.CONTAINS_AUTH ∨ ¬ isSpatial m then true
  else if slice m Off.CONTAINS_AUTH 1 = [0] then true
  else if m.length < HEADER_SIZE + TAIL_WITH_HMAC then false
  else
    let prefixLen := m.length - TAIL_WITH_HMAC
    match Hmac.spatialSign P (m.take prefixLen) token with
    | some expected => expected = slice m prefixLen Hmac.TAG_SIZE
    | none => false

end Verify

/-- `notificationEpochMs`: the server's milliseconds in the tail of a notification. -/
def notificationEpochMs (m : Bytes) : Option Int :=
  if m.length < HEADER_SIZE + TAIL_NO_HMAC then none
  else if ¬ isSpatial m then none
  else some (readI64 (slice m (m.length - TAIL_NO_HMAC) 8))

end CksLoadtest.Wire
