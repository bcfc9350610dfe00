import Mathlib.Data.List.Basic
import Mathlib.Data.Vector.Basic
import CksLoadtest.Lib.Numerals

/-!
# Counters and snapshots

`Stats` is the block of counters all threads write, `CounterSnap` a snapshot of
them. The 64-bit counters are naturals: no statement about them holds across a
wrap. Subtraction of naturals is the saturating one of `satSub`.
-/
namespace CksLoadtest

def LATENCY_BUCKETS : Nat := 23

/-- Exclusive upper bounds of the finite latency buckets; the last bucket is open. -/
def kLatencyBounds : List Nat :=
  [1, 2, 3, 4, 5, 7, 10, 15, 20, 25, 30, 40, 50, 75, 100, 150, 200, 250, 400, 600, 1000, 2000]

/-- `kLatencyBounds[i]`. -/
def latencyBound (i : Nat) : Nat := (kLatencyBounds[i]?).getD 0

/-- An error code is a cell of `errorCodes`. The modules that read a cell name its bound. -/
theorem code_lt (c : Fin 256) : (c : Nat) < 256 := c.isLt

theorem unauthorized_lt : ((7 : Fin 256) : Nat) < 256 := code_lt 7

structure CounterSnap where
  txPackets : Nat := 0
  txBytes : Nat := 0
  txSendErrors : Nat := 0
  rxDatagrams : Nat := 0
  rxBytes : Nat := 0
  rxBundles : Nat := 0
  rxSignedBundles : Nat := 0
  rxSignedMembers : Nat := 0
  txCapabilities : Nat := 0
  rxActorNotifications : Nat := 0
  rxOtherSpatial : Nat := 0
  rxErrorMessages : Nat := 0
  rxReconnectCommands : Nat := 0
  rxSilentReassigns : Nat := 0
  rcvbufSetFailures : Nat := 0
  rxHmacFailures : Nat := 0
  rxMalformed : Nat := 0
  tokenRefreshes : Nat := 0
  refreshesKeptServer : Nat := 0
  reassignments : Nat := 0
  controlFailures : Nat := 0
  unauthorizedFirstContact : Nat := 0
  unauthorizedWindowReload : Nat := 0
  latencySamples : Nat := 0
  latencySumMs : Nat := 0
  latencyMaxMs : Nat := 0
  latencyHist : Vector Nat LATENCY_BUCKETS := .replicate _ 0
  errorCodes : Vector Nat 256 := .replicate _ 0
  signInReused : Int := 0
  signInMintedBefore : Int := 0
  signInMintedDuring : Int := 0
  deriving DecidableEq

def saturatingIntSub (a b : Int) : Int :=
  let d := a - b
  if d < 0 then 0 else if 2000000000 < d then 2000000000 else d

namespace CounterSnap

/-- `CounterSnap::minus`: the maximum is the caller's to overwrite. -/
def minus (now origin : CounterSnap) : CounterSnap where
  txPackets := now.txPackets - origin.txPackets
  txBytes := now.txBytes - origin.txBytes
  txSendErrors := now.txSendErrors - origin.txSendErrors
  rxDatagrams := now.rxDatagrams - origin.rxDatagrams
  rxBytes := now.rxBytes - origin.rxBytes
  rxBundles := now.rxBundles - origin.rxBundles
  rxSignedBundles := now.rxSignedBundles - origin.rxSignedBundles
  rxSignedMembers := now.rxSignedMembers - origin.rxSignedMembers
  txCapabilities := now.txCapabilities - origin.txCapabilities
  rxActorNotifications := now.rxActorNotifications - origin.rxActorNotifications
  rxOtherSpatial := now.rxOtherSpatial - origin.rxOtherSpatial
  rxErrorMessages := now.rxErrorMessages - origin.rxErrorMessages
  rxReconnectCommands := now.rxReconnectCommands - origin.rxReconnectCommands
  rxSilentReassigns := now.rxSilentReassigns - origin.rxSilentReassigns
  rcvbufSetFailures := now.rcvbufSetFailures - origin.rcvbufSetFailures
  rxHmacFailures := now.rxHmacFailures - origin.rxHmacFailures
  rxMalformed := now.rxMalformed - origin.rxMalformed
  tokenRefreshes := now.tokenRefreshes - origin.tokenRefreshes
  refreshesKeptServer := now.refreshesKeptServer - origin.refreshesKeptServer
  reassignments := now.reassignments - origin.reassignments
  controlFailures := now.controlFailures - origin.controlFailures
  unauthorizedFirstContact := now.unauthorizedFirstContact - origin.unauthorizedFirstContact
  unauthorizedWindowReload := now.unauthorizedWindowReload - origin.unauthorizedWindowReload
  latencySamples := now.latencySamples - origin.latencySamples
  latencySumMs := now.latencySumMs - origin.latencySumMs
  latencyMaxMs := now.latencyMaxMs
  latencyHist := now.latencyHist.zipWith (· - ·) origin.latencyHist
  errorCodes := now.errorCodes.zipWith (· - ·) origin.errorCodes
  signInReused := saturatingIntSub now.signInReused origin.signInReused
  signInMintedBefore := saturatingIntSub now.signInMintedBefore origin.signInMintedBefore
  signInMintedDuring := saturatingIntSub now.signInMintedDuring origin.signInMintedDuring

def plus (a b : CounterSnap) : CounterSnap where
  txPackets := a.txPackets + b.txPackets
  txBytes := a.txBytes + b.txBytes
  txSendErrors := a.txSendErrors + b.txSendErrors
  rxDatagrams := a.rxDatagrams + b.rxDatagrams
  rxBytes := a.rxBytes + b.rxBytes
  rxBundles := a.rxBundles + b.rxBundles
  rxSignedBundles := a.rxSignedBundles + b.rxSignedBundles
  rxSignedMembers := a.rxSignedMembers + b.rxSignedMembers
  txCapabilities := a.txCapabilities + b.txCapabilities
  rxActorNotifications := a.rxActorNotifications + b.rxActorNotifications
  rxOtherSpatial := a.rxOtherSpatial + b.rxOtherSpatial
  rxErrorMessages := a.rxErrorMessages + b.rxErrorMessages
  rxReconnectCommands := a.rxReconnectCommands + b.rxReconnectCommands
  rxSilentReassigns := a.rxSilentReassigns + b.rxSilentReassigns
  rcvbufSetFailures := a.rcvbufSetFailures + b.rcvbufSetFailures
  rxHmacFailures := a.rxHmacFailures + b.rxHmacFailures
  rxMalformed := a.rxMalformed + b.rxMalformed
  tokenRefreshes := a.tokenRefreshes + b.tokenRefreshes
  refreshesKeptServer := a.refreshesKeptServer + b.refreshesKeptServer
  reassignments := a.reassignments + b.reassignments
  controlFailures := a.controlFailures + b.controlFailures
  unauthorizedFirstContact := a.unauthorizedFirstContact + b.unauthorizedFirstContact
  unauthorizedWindowReload := a.unauthorizedWindowReload + b.unauthorizedWindowReload
  latencySamples := a.latencySamples + b.latencySamples
  latencySumMs := a.latencySumMs + b.latencySumMs
  latencyMaxMs := max a.latencyMaxMs b.latencyMaxMs
  latencyHist := a.latencyHist.zipWith (· + ·) b.latencyHist
  errorCodes := a.errorCodes.zipWith (· + ·) b.errorCodes
  signInReused := a.signInReused + b.signInReused
  signInMintedBefore := a.signInMintedBefore + b.signInMintedBefore
  signInMintedDuring := a.signInMintedDuring + b.signInMintedDuring

end CounterSnap

/-- The event counters of `Stats` that only ever grow by `fetch_add`. -/
inductive Counter where
  | txPackets | txBytes | txSendErrors | rxDatagrams | rxBytes | rxBundles | rxSignedBundles
  | rxSignedMembers | txCapabilities | rxActorNotifications | rxOtherSpatial | rxErrorMessages
  | rxReconnectCommands | rxSilentReassigns | rcvbufSetFailures | rxHmacFailures | rxMalformed
  | tokenRefreshes | refreshesKeptServer | reassignments | controlFailures
  | unauthorizedFirstContact | unauthorizedWindowReload
  deriving DecidableEq, Repr

/-- A snapshot's value of an event counter. -/
def CounterSnap.count (s : CounterSnap) : Counter → Nat
  | .txPackets => s.txPackets
  | .txBytes => s.txBytes
  | .txSendErrors => s.txSendErrors
  | .rxDatagrams => s.rxDatagrams
  | .rxBytes => s.rxBytes
  | .rxBundles => s.rxBundles
  | .rxSignedBundles => s.rxSignedBundles
  | .rxSignedMembers => s.rxSignedMembers
  | .txCapabilities => s.txCapabilities
  | .rxActorNotifications => s.rxActorNotifications
  | .rxOtherSpatial => s.rxOtherSpatial
  | .rxErrorMessages => s.rxErrorMessages
  | .rxReconnectCommands => s.rxReconnectCommands
  | .rxSilentReassigns => s.rxSilentReassigns
  | .rcvbufSetFailures => s.rcvbufSetFailures
  | .rxHmacFailures => s.rxHmacFailures
  | .rxMalformed => s.rxMalformed
  | .tokenRefreshes => s.tokenRefreshes
  | .refreshesKeptServer => s.refreshesKeptServer
  | .reassignments => s.reassignments
  | .controlFailures => s.controlFailures
  | .unauthorizedFirstContact => s.unauthorizedFirstContact
  | .unauthorizedWindowReload => s.unauthorizedWindowReload

/-- Rates of the last completed reporter interval. -/
structure IntervalRates (K : Type*) where
  dtSec : K
  epochSec : Nat
  txPps : K
  txBps : K
  rxDps : K
  rxBps : K
  rxNotifPs : K
  avgLatencyMs : K
  deriving DecidableEq

structure Stats where
  txPackets : Nat := 0
  txBytes : Nat := 0
  txSendErrors : Nat := 0
  rxDatagrams : Nat := 0
  rxBytes : Nat := 0
  rxBundles : Nat := 0
  rxSignedBundles : Nat := 0
  rxSignedMembers : Nat := 0
  txCapabilities : Nat := 0
  rxActorNotifications : Nat := 0
  rxOtherSpatial : Nat := 0
  rxErrorMessages : Nat := 0
  rxReconnectCommands : Nat := 0
  rxSilentReassigns : Nat := 0
  rcvbufSetFailures : Nat := 0
  rxHmacFailures : Nat := 0
  rxMalformed : Nat := 0
  errorCodes : Vector Nat 256 := .replicate _ 0
  unauthorizedFirstContact : Nat := 0
  unauthorizedWindowReload : Nat := 0
  latencySamples : Nat := 0
  latencySumMs : Nat := 0
  latencyMaxMs : Nat := 0
  latencyHist : Vector Nat LATENCY_BUCKETS := .replicate _ 0
  windowLatencyMaxMs : Nat := 0
  activeClients : Int := 0
  suspendedClients : Int := 0
  tokenRefreshes : Nat := 0
  refreshesKeptServer : Nat := 0
  reassignments : Nat := 0
  controlFailures : Nat := 0
  windowOrigin : CounterSnap := {}
  rungId : String := ""
  windowOpenEpochSec : Nat := 0
  windowOpenSteady : Int := 0
  signInReused : Int := 0
  signInMintedBefore : Int := 0
  signInMintedDuring : Int := 0
  deriving DecidableEq

namespace Stats

/-- `fetch_add` on one of the event counters. -/
def fetchAdd (s : Stats) (n : Nat) : Counter → Stats
  | .txPackets => { s with txPackets := s.txPackets + n }
  | .txBytes => { s with txBytes := s.txBytes + n }
  | .txSendErrors => { s with txSendErrors := s.txSendErrors + n }
  | .rxDatagrams => { s with rxDatagrams := s.rxDatagrams + n }
  | .rxBytes => { s with rxBytes := s.rxBytes + n }
  | .rxBundles => { s with rxBundles := s.rxBundles + n }
  | .rxSignedBundles => { s with rxSignedBundles := s.rxSignedBundles + n }
  | .rxSignedMembers => { s with rxSignedMembers := s.rxSignedMembers + n }
  | .txCapabilities => { s with txCapabilities := s.txCapabilities + n }
  | .rxActorNotifications => { s with rxActorNotifications := s.rxActorNotifications + n }
  | .rxOtherSpatial => { s with rxOtherSpatial := s.rxOtherSpatial + n }
  | .rxErrorMessages => { s with rxErrorMessages := s.rxErrorMessages + n }
  | .rxReconnectCommands => { s with rxReconnectCommands := s.rxReconnectCommands + n }
  | .rxSilentReassigns => { s with rxSilentReassigns := s.rxSilentReassigns + n }
  | .rcvbufSetFailures => { s with rcvbufSetFailures := s.rcvbufSetFailures + n }
  | .rxHmacFailures => { s with rxHmacFailures := s.rxHmacFailures + n }
  | .rxMalformed => { s with rxMalformed := s.rxMalformed + n }
  | .tokenRefreshes => { s with tokenRefreshes := s.tokenRefreshes + n }
  | .refreshesKeptServer => { s with refreshesKeptServer := s.refreshesKeptServer + n }
  | .reassignments => { s with reassignments := s.reassignments + n }
  | .controlFailures => { s with controlFailures := s.controlFailures + n }
  | .unauthorizedFirstContact =>
    { s with unauthorizedFirstContact := s.unauthorizedFirstContact + n }
  | .unauthorizedWindowReload =>
    { s with unauthorizedWindowReload := s.unauthorizedWindowReload + n }

def codeIndex (code : UInt8) : Fin 256 := ⟨code.toNat, code.toNat_lt⟩

/-- `errorCodes[code].fetch_add(n)`; a code is one octet of the message. -/
def addErrorCode (s : Stats) (code : UInt8) (n : Nat) : Stats :=
  let c := codeIndex code
  { s with errorCodes := s.errorCodes.set c (s.errorCodes[c] + n) }

/-- The linear search of `recordLatencyMs`: the first bound above the sample. -/
def bucketOf (ms : Nat) : Fin LATENCY_BUCKETS :=
  ⟨kLatencyBounds.findIdx (fun b => ms < b), Nat.lt_succ_of_le List.findIdx_le_length⟩

/-- `recordLatencyMs`: a negative estimate counts as 0. -/
def recordLatencyMs (s : Stats) (ms : Int) : Stats :=
  let v := ms.toNat
  let bucket := bucketOf v
  { s with
    latencySamples := s.latencySamples + 1
    latencySumMs := s.latencySumMs + v
    latencyMaxMs := max s.latencyMaxMs v
    windowLatencyMaxMs := max s.windowLatencyMaxMs v
    latencyHist := s.latencyHist.set bucket (s.latencyHist[bucket] + 1) }

def loadLifetime (s : Stats) : CounterSnap where
  txPackets := s.txPackets
  txBytes := s.txBytes
  txSendErrors := s.txSendErrors
  rxDatagrams := s.rxDatagrams
  rxBytes := s.rxBytes
  rxBundles := s.rxBundles
  rxSignedBundles := s.rxSignedBundles
  rxSignedMembers := s.rxSignedMembers
  txCapabilities := s.txCapabilities
  rxActorNotifications := s.rxActorNotifications
  rxOtherSpatial := s.rxOtherSpatial
  rxErrorMessages := s.rxErrorMessages
  rxReconnectCommands := s.rxReconnectCommands
  rxSilentReassigns := s.rxSilentReassigns
  rcvbufSetFailures := s.rcvbufSetFailures
  rxHmacFailures := s.rxHmacFailures
  rxMalformed := s.rxMalformed
  tokenRefreshes := s.tokenRefreshes
  refreshesKeptServer := s.refreshesKeptServer
  reassignments := s.reassignments
  controlFailures := s.controlFailures
  unauthorizedFirstContact := s.unauthorizedFirstContact
  unauthorizedWindowReload := s.unauthorizedWindowReload
  latencySamples := s.latencySamples
  latencySumMs := s.latencySumMs
  latencyMaxMs := s.latencyMaxMs
  latencyHist := s.latencyHist
  errorCodes := s.errorCodes
  signInReused := s.signInReused
  signInMintedBefore := s.signInMintedBefore
  signInMintedDuring := s.signInMintedDuring

/-- The locked section of `markWindow`, with the lifetime snapshot it was handed. -/
def openWindow (s : Stats) (now : CounterSnap) (id : String) (epochSec : Nat) (steady : Int) :
    Stats :=
  { s with
    windowOrigin := now
    rungId := id
    windowOpenEpochSec := epochSec
    windowOpenSteady := steady
    windowLatencyMaxMs := 0 }

def markWindow (s : Stats) (id : String) (epochSec : Nat) (steady : Int) : Stats :=
  s.openWindow s.loadLifetime id epochSec steady

/-- The locked section of `loadWindow`, with the lifetime snapshot it was handed. -/
def windowSince (s : Stats) (now : CounterSnap) : CounterSnap :=
  { CounterSnap.minus now s.windowOrigin with latencyMaxMs := s.windowLatencyMaxMs }

def loadWindow (s : Stats) : CounterSnap := s.windowSince s.loadLifetime

end Stats

end CksLoadtest
