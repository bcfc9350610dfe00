import Mathlib.Data.List.Infix
import CksLoadtest.Client.SimClient

/-!
# The control thread's API calls

`refreshToken` and `assignServer` change the credentials they are given, also when
they throw half-way, so each returns the credentials it leaves beside its result.
The API's replies and the steady clock are inputs: a reply for every attempt.
-/
namespace CksLoadtest

open Lib.Buffer

structure GraphQLError where
  message : String := ""
  code : String := ""
  transport : Bool := false
  deriving DecidableEq

/-- Retry transport-level failures, three attempts in all; a GraphQL-level error is
returned at once. -/
def requestWithRetry {α : Type*} (reply : Nat → Except GraphQLError α) :
    Except GraphQLError α :=
  match reply 0 with
  | .ok a => .ok a
  | .error e =>
    if ¬ e.transport then .error e
    else
      match reply 1 with
      | .ok a => .ok a
      | .error e => if ¬ e.transport then .error e else reply 2

/-- What a call throws: a GraphQL error, or a reply that does not decode. -/
inductive Thrown where
  | graphql (e : GraphQLError)
  | decode
  deriving DecidableEq

/-- A server in a reply; `none` where `get<>()` throws. -/
structure ServerReply where
  ip4 : Option String := none
  clientPort : Option Int := none
  deriving DecidableEq

/-- The `refreshAppToken` object; `none` where decoding a field throws, and for an
`authorizedServer` that is absent or null. -/
structure RefreshReply where
  token : Option Bytes := none
  gameTokenId : Option Int64 := none
  expiresAt : Option Int := none
  authorizedServer : Option ServerReply := none
  deriving DecidableEq

/-- The outside of one `refreshToken` call. -/
structure RefreshApi where
  current : Nat → Except GraphQLError RefreshReply
  legacy : Nat → Except GraphQLError RefreshReply
  now : Int

/-- The outside of one `assignServer` call. -/
structure AssignApi where
  assign : Nat → Except GraphQLError ServerReply
  now : Int

namespace Provisioner

variable {K : Type*} (cfg : Config K)

/-- Earliest UDP time after an assignment at `now`. -/
def settled (now : Int) : Int := now + cfg.sessionSettleMs * 1000000

/-- `c.serverIp4 = …; c.serverPort = …; c.udpReadyAt = …`, statement by statement. -/
def placeOn (now : Int) (server : ServerReply) (c : ClientCredentials) :
    ClientCredentials × Except Thrown Unit :=
  match server.ip4 with
  | none => (c, .error .decode)
  | some ip4 =>
    let c := { c with serverIp4 := ip4 }
    match server.clientPort with
    | none => (c, .error .decode)
    | some port =>
      ({ c with serverPort := UInt16.ofInt port, udpReadyAt := settled cfg now }, .ok ())

def assignServer (api : AssignApi) (c : ClientCredentials) :
    ClientCredentials × Except Thrown Unit :=
  match requestWithRetry api.assign with
  | .error e => (c, .error (.graphql e))
  | .ok server => placeOn cfg api.now server c

/-- The tail of `refreshToken`: take the fresh token; `true` when the API authorized
it on the server the client is on. -/
def installRefresh (now : Int) (fresh : RefreshReply) (c : ClientCredentials) :
    ClientCredentials × Except Thrown Bool :=
  match fresh.token with
  | none => (c, .error .decode)
  | some token =>
    let c := { c with appToken := token }
    match fresh.gameTokenId with
    | none => (c, .error .decode)
    | some id =>
      let c := { c with gameTokenId := id }
      match fresh.expiresAt with
      | none => (c, .error .decode)
      | some expires =>
        let c := { c with tokenExpiresAt := expires }
        match fresh.authorizedServer with
        | none => (c, .ok false)
        | some server =>
          let placed := placeOn cfg now server c
          (placed.1, placed.2.map fun _ => true)

/-- Whether an error says that the API does not know `currentServer`. -/
def predatesCurrentServer (e : GraphQLError) : Bool :=
  !e.transport && decide ("currentServer".toList <:+: e.message.toList)

/-- `refreshToken`, with `legacyRefresh_` before and after the call. -/
def refreshToken (legacyRefresh : Bool) (api : RefreshApi) (c : ClientCredentials) :
    Bool × ClientCredentials × Except Thrown Bool :=
  let old (legacyRefresh : Bool) : Bool × ClientCredentials × Except Thrown Bool :=
    match requestWithRetry api.legacy with
    | .error e => (legacyRefresh, c, .error (.graphql e))
    | .ok fresh => (legacyRefresh, installRefresh cfg api.now fresh c)
  if ¬ legacyRefresh ∧ c.serverIp4 ≠ "" then
    match requestWithRetry api.current with
    | .ok fresh => (legacyRefresh, installRefresh cfg api.now fresh c)
    | .error e =>
      if predatesCurrentServer e then old true else (legacyRefresh, c, .error (.graphql e))
  else old legacyRefresh

/-- The pair a datagram is signed with. -/
def tokenPair (c : ClientCredentials) : Int64 × Bytes := (c.gameTokenId, c.appToken)

theorem placeOn_index (now : Int) (server : ServerReply) (c : ClientCredentials) :
    (placeOn cfg now server c).1.index = c.index := by
  unfold placeOn
  cases server.ip4 with
  | none => rfl
  | some ip4 => cases server.clientPort <;> rfl

theorem placeOn_tokenPair (now : Int) (server : ServerReply) (c : ClientCredentials) :
    tokenPair (placeOn cfg now server c).1 = tokenPair c := by
  unfold placeOn
  cases server.ip4 with
  | none => rfl
  | some ip4 => cases server.clientPort <;> rfl

theorem installRefresh_index (now : Int) (fresh : RefreshReply) (c : ClientCredentials) :
    (installRefresh cfg now fresh c).1.index = c.index := by
  unfold installRefresh
  cases fresh.token with
  | none => rfl
  | some token =>
    cases fresh.gameTokenId with
    | none => rfl
    | some id =>
      cases fresh.expiresAt with
      | none => rfl
      | some expires =>
        cases fresh.authorizedServer with
        | none => rfl
        | some server => exact placeOn_index cfg now server _

/-- No call changes the global index of the client it works for. -/
theorem refreshToken_index (legacyRefresh : Bool) (api : RefreshApi) (c : ClientCredentials) :
    (refreshToken cfg legacyRefresh api c).2.1.index = c.index := by
  have old : ∀ l : Bool, (match requestWithRetry api.legacy with
      | .error e => (l, c, Except.error (Thrown.graphql e))
      | .ok fresh => (l, installRefresh cfg api.now fresh c)).2.1.index = c.index := by
    intro l
    cases requestWithRetry api.legacy with
    | error e => rfl
    | ok fresh => exact installRefresh_index cfg _ fresh c
  unfold refreshToken
  dsimp only
  split
  · cases requestWithRetry api.current with
    | ok fresh => exact installRefresh_index cfg _ fresh c
    | error e =>
      dsimp only
      split
      · exact old true
      · rfl
  · exact old legacyRefresh

theorem assignServer_index (api : AssignApi) (c : ClientCredentials) :
    (assignServer cfg api c).1.index = c.index := by
  unfold assignServer
  cases requestWithRetry api.assign with
  | error e => rfl
  | ok server => exact placeOn_index cfg _ server c

/-- A placement leaves the token and its id alone. -/
theorem assignServer_tokenPair (api : AssignApi) (c : ClientCredentials) :
    tokenPair (assignServer cfg api c).1 = tokenPair c := by
  unfold assignServer
  cases requestWithRetry api.assign with
  | error e => rfl
  | ok server => exact placeOn_tokenPair cfg _ server c

end Provisioner

end CksLoadtest
