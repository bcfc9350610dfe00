import CksLoadtest.Wire.Inbound
import CksLoadtest.Worker.Lifecycle

/-!
# Received datagrams and due sends

`handleDatagram` is cut where its callback is: the part before the members, one
function for a member, and the tally of a malformed bundle after the last one.
`sendDueUpdates` is one function for a client. Clock readings, random draws and
the results of `send` are inputs.
-/
namespace CksLoadtest

open Lib.Buffer

namespace Worker

variable {K : Type*} [Field K]

def FIRST_CONTACT_GRACE_MS : Int := 2000

/-- Token-level failures. -/
def isTokenError (code : UInt8) : Bool :=
  code = Wire.ERR_INVALID_TOKEN || code = Wire.ERR_TOKEN_EXPIRED ||
    code = Wire.ERR_USER_NOT_AUTHENTICATED

/-- The two steady-clock readings an UNAUTHORIZED member is classified with. -/
structure Readings where
  contact : Int
  reload : Int
  deriving DecidableEq

def leftPermWindow (cfg : Config K) (c : SimClient K) : Bool :=
  cfg.permWindowRadiusChunks < |c.chunk.x - c.permWindowCenter.x| ||
    cfg.permWindowRadiusChunks < |c.chunk.y - c.permWindowCenter.y| ||
    cfg.permWindowRadiusChunks < |c.chunk.z - c.permWindowCenter.z|

/-- Whether a refusal is an expected one: the lazy load right after an assignment,
or the reload of a permission window the client has left. -/
def classifyRefusal (cfg : Config K) (t : Readings) (code : UInt8) (c : SimClient K) :
    Out K × Bool :=
  if code = Wire.ERR_UNAUTHORIZED ∧ c.activatedAt ≠ 0 ∧
      t.contact - c.activatedAt < FIRST_CONTACT_GRACE_MS * 1000000 then
    ((c, [.count .unauthorizedFirstContact 1]), true)
  else if code = Wire.ERR_UNAUTHORIZED ∧ c.permWindowValid then
    let sameEpisode : Bool :=
      c.permReloadAt ≠ 0 && t.reload - c.permReloadAt < cfg.permReloadGraceMs * 1000000
    if sameEpisode || leftPermWindow cfg c then
      let recentred :=
        if sameEpisode then c else { c with permWindowCenter := c.chunk, permReloadAt := t.reload }
      ((recentred, [.count .unauthorizedWindowReload 1]), true)
    else ((c, []), false)
  else ((c, []), false)

/-- What a refusal asks for: a fresh token, or a fresh assignment after a steady
stream of UNAUTHORIZED. -/
def reactToError (cfg : Config K) (code : UInt8) (c : SimClient K) : Out K :=
  if isTokenError code ∧ ¬ c.refreshRequested then
    suspendClient .refresh { c with refreshRequested := true }
  else if code = Wire.ERR_UNAUTHORIZED then
    let n := c.unauthorizedCount + 1
    if 5 * cfg.updateHz ≤ n then suspendClient .reassign { c with unauthorizedCount := 0 }
    else ({ c with unauthorizedCount := n }, [])
  else (c, [])

/-- The first unexpected error of a client is logged. -/
def logError (expected : Bool) (c : SimClient K) : SimClient K :=
  if ¬ c.errorLogged ∧ ¬ expected then { c with errorLogged := true } else c

/-- The branch of a GENERIC_ERROR_MESSAGE member; a short one carries no code. -/
def handleError (cfg : Config K) (t : Readings) (m : Bytes) (c : SimClient K) : Out K :=
  match m with
  | _ :: _ :: code :: _ =>
    let classified := classifyRefusal cfg t code c
    after [.errorCode code]
      (andThen classified.1 fun d => reactToError cfg code (logError classified.2 d))
  | _ => (c, [])

/-- The branch of a member with the spatial bit. -/
def handleSpatial (P : Platform K) (cfg : Config K) (nowMs : Int) (m : Bytes)
    (c : SimClient K) : Out K :=
  if cfg.verifyServerHmac ∧ ¬ Wire.verifyNotification P m c.creds.appToken then
    (c, [.count .rxHmacFailures 1])
  else
    let counter : Counter :=
      if Wire.type m = Wire.ACTOR_UPDATE_NOTIFICATION_2 then .rxActorNotifications
      else .rxOtherSpatial
    let latency : List (Effect K) :=
      match Wire.notificationEpochMs m with
      | some epoch => if 0 < epoch then [.latency (nowMs - epoch)] else []
      | none => []
    (c, .count counter 1 :: latency)

/-- The callback of `handleDatagram` on one member. -/
def handleMember (P : Platform K) (cfg : Config K) (signedBundle : Bool) (nowMs : Int)
    (t : Readings) (m : Bytes) (c : SimClient K) : Out K :=
  after (if signedBundle then [.count .rxSignedMembers 1] else [])
    (if Wire.type m = Wire.GENERIC_ERROR_MESSAGE then
      after [.count .rxErrorMessages 1] (handleError cfg t m c)
    else if Wire.type m = Wire.COMMAND_RECONNECT then
      after [.count .rxReconnectCommands 1] (suspendClient .reassign c)
    else if Wire.isSpatial m then handleSpatial P cfg nowMs m c
    else (c, []))

/-- A datagram whose members are being handled. -/
structure Walk where
  signedBundle : Bool
  nowMs : Int
  members : List Bytes
  ok : Bool
  deriving DecidableEq

/-- `handleDatagram` up to its member loop; no walk follows an empty datagram or a
signed bundle that does not verify. -/
def beginDatagram (P : Platform K) (rxNs nowMs : Int) (data : Bytes) (c : SimClient K) :
    Out K × Option Walk :=
  let counted : List (Effect K) := [.count .rxDatagrams 1, .count .rxBytes data.length]
  let c := { c with lastRxTime := steadySeconds rxNs }
  if data = [] then ((c, counted), none)
  else
    let signedBundle : Bool := Wire.type data = Wire.MESSAGE_BUNDLE_SIGNED
    let bundles : List (Effect K) :=
      if Wire.type data = Wire.MESSAGE_BUNDLE then [.count .rxBundles 1]
      else if signedBundle then [.count .rxSignedBundles 1] else []
    if signedBundle ∧ ¬ Wire.verifySignedBundle P data c.creds.appToken then
      ((c, counted ++ bundles ++ [.count .rxHmacFailures 1]), none)
    else
      let (members, ok) := Wire.forEachMessage data
      ((c, counted ++ bundles), some ⟨signedBundle, nowMs, members, ok⟩)

def endDatagram (ok : Bool) (c : SimClient K) : Out K :=
  (c, if ok then [] else [.count .rxMalformed 1])

/-- The member loop: one pair of clock readings for each member. -/
def handleMembers (P : Platform K) (cfg : Config K) (signedBundle : Bool) (nowMs : Int)
    (t : Nat → Readings) : List Bytes → SimClient K → Out K
  | [], c => (c, [])
  | m :: ms, c =>
    andThen (handleMember P cfg signedBundle nowMs (t 0) m c)
      (handleMembers P cfg signedBundle nowMs (fun k => t (k + 1)) ms)

/-- `handleDatagram` as a whole. -/
def handleDatagram (P : Platform K) (cfg : Config K) (rxNs nowMs : Int) (t : Nat → Readings)
    (data : Bytes) (c : SimClient K) : Out K :=
  let begun := beginDatagram P rxNs nowMs data c
  match begun.2 with
  | none => begun.1
  | some w =>
    andThen begun.1 fun d =>
      andThen (handleMembers P cfg w.signedBundle w.nowMs t w.members d) (endDatagram w.ok)

section Send

variable [LinearOrder K] [FloorRing K]

/-- What the outside answers during one client's turn in `sendDueUpdates`. -/
structure SendInputs (K : Type*) where
  sysNow : Int
  epochMs : Int
  draws : SimClient.Draws K
  capsSent : Bool
  sent : Bool

/-- Move the pacing clock on by one interval, without a burst after a stall. -/
def paceSend (cfg : Config K) (nowSec : K) (c : SimClient K) : SimClient K :=
  let interval : K := 1 / (cfg.updateHz : K)
  let next := c.lastSendTime + interval
  { c with lastSendTime := if interval < nowSec - next then nowSec else next }

/-- The proactive refresh: requested once when inside the lead window. -/
def requestRefresh (cfg : Config K) (sysNow : Int) (c : SimClient K) : Out K :=
  if ¬ c.refreshRequested ∧
      c.creds.tokenExpiresAt ≤ sysNow + cfg.tokenRefreshLeadSec * 1000000000 then
    ({ c with refreshRequested := true }, [.push false .refresh c.creds])
  else (c, [])

/-- CLIENT_CAPABILITIES; the sequence number moves on even when signing fails. -/
def advertise (P : Platform K) (cfg : Config K) (nowSec : K) (sent : Bool) (c : SimClient K) :
    Out K :=
  if cfg.clientCaps ∧ (cfg.capsIntervalSec : K) ≤ nowSec - c.lastCapsTime then
    let d := { c with lastCapsTime := nowSec, sequence := c.sequence + 1 }
    match Wire.buildCapabilities P cfg.appId c.creds.gameTokenId Wire.CAP_BUNDLE_SIGNED
        c.sequence c.creds.appToken with
    | some bytes => (d, .send d bytes :: if sent then [.count .txCapabilities 1] else [])
    | none => (d, [])
  else (c, [])

/-- Walk, build, send; a client is moved after about three seconds of failures. -/
def transmit (P : Platform K) (cfg : Config K) (nowSec : K) (i : SendInputs K)
    (c : SimClient K) : Out K :=
  let built := (c.updateWalk P cfg i.draws nowSec).buildUpdate P cfg i.epochMs
  let c := built.1
  if ¬ built.2 then (c, [.count .txSendErrors 1])
  else
    let msgSize := SimClient.messageSize cfg
    let sending : List (Effect K) := [.send c (c.message.take msgSize)]
    if i.sent then
      ({ c with consecutiveSendErrors := 0 },
        sending ++ [.count .txPackets 1, .count .txBytes msgSize])
    else
      let n := c.consecutiveSendErrors + 1
      after (sending ++ [.count .txSendErrors 1])
        (if 3 * cfg.updateHz ≤ n then suspendClient .reassign { c with consecutiveSendErrors := 0 }
         else ({ c with consecutiveSendErrors := n }, []))

/-- The loop body of `sendDueUpdates`. -/
def sendDueUpdate (P : Platform K) (cfg : Config K) (nowSec : K) (i : SendInputs K)
    (c : SimClient K) : Out K :=
  if c.state ≠ .active then (c, [])
  else if 0 < cfg.rxSilentReassignSec ∧
      (cfg.rxSilentReassignSec : K) < nowSec - c.lastRxTime then
    after [.count .rxSilentReassigns 1] (suspendClient .reassign c)
  else if nowSec - c.lastSendTime < 1 / (cfg.updateHz : K) then (c, [])
  else
    andThen (requestRefresh cfg i.sysNow (paceSend cfg nowSec c)) fun d =>
      andThen (advertise P cfg nowSec i.capsSent d) (transmit P cfg nowSec i)

end Send

end Worker

end CksLoadtest
