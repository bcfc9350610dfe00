import CksLoadtest.Client.SimClient
import CksLoadtest.Stats.Counters

/-!
# Suspension, updates and activation

The worker's functions on one client. Each returns the client it leaves and the
effects it has outside the client, in program order: atomic increments, requests
pushed to the control queue, sockets, and what is handed to `send`.
-/
namespace CksLoadtest

open Lib.Buffer

/-- `ControlRequest::Kind`. -/
inductive Kind where
  | reassign
  | refresh
  deriving DecidableEq, Repr

/-- The part of `ClientUpdate` that concerns the client itself. -/
structure Update where
  failed : Bool := false
  creds : ClientCredentials
  deriving DecidableEq

inductive Effect (K : Type*) where
  | count (c : Counter) (n : Nat)
  | errorCode (code : UInt8)
  | latency (ms : Int)
  | activeClients (d : Int)
  | suspendedClients (d : Int)
  | socketOpened
  | socketClosed
  /-- A request; `suspension` tells `suspendClient` from the proactive refresh. -/
  | push (suspension : Bool) (kind : Kind) (creds : ClientCredentials)
  /-- `send(client.fd, bytes)`, with the client as it is at the call. -/
  | send (client : SimClient K) (bytes : Bytes)

namespace Worker

variable {K : Type*} [Field K]

/-- A function on one client, with its effects. -/
abbrev Out (K : Type*) := SimClient K × List (Effect K)

/-- Prepend effects that happened before. -/
def after (es : List (Effect K)) (o : Out K) : Out K := (o.1, es ++ o.2)

/-- Run the next function on the client the first one left. -/
def andThen (o : Out K) (f : SimClient K → Out K) : Out K := after o.2 (f o.1)

/-- What the operating system answers while a socket is opened. -/
structure OpenOutcome where
  socket : Bool
  rcvbuf : Bool
  connect : Bool
  epoll : Bool
  deriving DecidableEq

/-- `openSocket`: a descriptor that cannot be used is closed again. -/
def openSocket (P : Platform K) (cfg : Config K) (o : OpenOutcome) (c : SimClient K) :
    Out K × Bool :=
  if ¬ o.socket then ((c, []), false)
  else
    match P.inetPton c.creds.serverIp4 with
    | none => ((c, [.socketOpened, .socketClosed]), false)
    | some addr =>
      let rcvbuf : List (Effect K) :=
        if 0 < cfg.socketRcvbufBytes ∧ ¬ o.rcvbuf then [.count .rcvbufSetFailures 1] else []
      if ¬ o.connect ∨ ¬ o.epoll then ((c, .socketOpened :: rcvbuf ++ [.socketClosed]), false)
      else (({ c with fd := some ⟨addr, c.creds.serverPort⟩ }, .socketOpened :: rcvbuf), true)

def closeSocket (c : SimClient K) : Out K :=
  if c.fd.isSome then ({ c with fd := none }, [.socketClosed]) else (c, [])

/-- `suspendClient`: nothing happens to a client that is already suspended. -/
def suspendClient (kind : Kind) (c : SimClient K) : Out K :=
  if c.state = .suspended then (c, [])
  else
    let closed := closeSocket c
    let gauge : List (Effect K) := if c.state = .active then [.activeClients (-1)] else []
    ({ closed.1 with state := .suspended },
      closed.2 ++ gauge ++ [.suspendedClients 1, .push true kind c.creds])

section

variable [LinearOrder K] [FloorRing K]

/-- The loop body of `applyPendingUpdates`. A failed update changes nothing. -/
def applyUpdate (cfg : Config K) (u : Update) (c : SimClient K) : Out K :=
  if u.failed then (c, [])
  else
    let tokenChanged := u.creds.gameTokenId ≠ c.creds.gameTokenId
    let wasSuspended := c.state = .suspended
    let c := { c with creds := u.creds, refreshRequested := false }
    let c := if tokenChanged then c.rebuildTemplate cfg else c
    if wasSuspended then
      ({ c with state := .waiting, activateAt := c.creds.udpReadyAt }, [.suspendedClients (-1)])
    else if c.state = .active then
      let closed := closeSocket c
      ({ closed.1 with state := .waiting, activateAt := c.creds.udpReadyAt },
        closed.2 ++ [.activeClients (-1)])
    else (c, [])

/-- The simulation state a due client starts or resumes with. -/
def resume (P : Platform K) (cfg : Config K) (now : Int) (nowSec : K) (r : SimClient.Draws K)
    (c : SimClient K) : SimClient K :=
  let c :=
    if c.uuid.head? = some 0 then c.initSimulation P cfg r nowSec
    else { c with lastMoveTime := nowSec, lastSendTime := nowSec, lastCapsTime := -1000000000 }
  { c with
    lastRxTime := nowSec
    activatedAt := now
    permWindowCenter := c.chunk
    permWindowValid := true }

/-- The loop body of `activateDueClients`. -/
def activateDueClient (P : Platform K) (cfg : Config K) (now : Int) (nowSec : K)
    (r : SimClient.Draws K) (o : OpenOutcome) (c : SimClient K) : Out K :=
  if c.state ≠ .waiting then (c, [])
  else if now < c.activateAt ∨ now < c.creds.udpReadyAt then (c, [])
  else
    let opened := openSocket P cfg o (resume P cfg now nowSec r c)
    if opened.2 then
      ({ opened.1.1 with state := .active }, opened.1.2 ++ [.activeClients 1])
    else andThen opened.1 (suspendClient .reassign)

end

end Worker

end CksLoadtest
