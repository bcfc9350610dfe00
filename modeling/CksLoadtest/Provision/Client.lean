import CksLoadtest.Provision.Roster

/-!
# Provisioning one client

The calls of `Provisioner` on the management API, with every operation they send. The
replies are inputs; what a reply lacks is what decoding it throws on.
-/
namespace CksLoadtest

open Lib.Buffer

/-- The GraphQL documents the harness sends. -/
inductive Operation where
  | login
  | register
  | mint
  | consents
  | bootstrap
  | assign
  | refresh
  | legacyRefresh
  | setReplayLogging
  | readReplayLogging
  deriving DecidableEq, Repr

/-- The documents whose variables hold a password. -/
def Operation.usesPassword : Operation → Bool
  | .login | .register => true
  | _ => false

/-- How often `requestWithRetry` sends. -/
def attempts {α : Type*} (reply : Nat → Except GraphQLError α) : Nat :=
  match reply 0 with
  | .ok _ => 1
  | .error e =>
    if ¬ e.transport then 1
    else
      match reply 1 with
      | .ok _ => 2
      | .error e => if ¬ e.transport then 2 else 3

/-- One `requestWithRetry`: what it sends, and its result. -/
def request {α : Type*} (op : Operation) (reply : Nat → Except GraphQLError α) :
    List Operation × Except GraphQLError α :=
  (List.replicate (attempts reply) op, requestWithRetry reply)

/-- The three calls of `signIn`; a token is `none` where decoding it throws. -/
structure SignInApi where
  login : Nat → Except GraphQLError (Option String)
  register : Nat → Except GraphQLError (Option String)
  loginAgain : Nat → Except GraphQLError (Option String)

/-- The `mintAppToken` object. -/
structure MintReply where
  token : Option Bytes := none
  gameTokenId : Option Int64 := none
  expiresAt : Option Int := none
  gameApiUrl : Option String := none
  deriving DecidableEq

structure MintApi where
  mint : Nat → Except GraphQLError MintReply
  consents : Nat → Except GraphQLError Unit
  mintAgain : Nat → Except GraphQLError MintReply

/-- The outside of one client's provisioning. -/
structure ClientApi where
  signIn : SignInApi
  mint : MintApi
  bootstrap : Nat → Except GraphQLError Unit
  assign : AssignApi

/-- The outside of reading or setting the app's replay logging; a login without a token
is one that does not decode. -/
structure ReplayApi where
  login : Nat → Except GraphQLError (Option String)
  read : Nat → Except GraphQLError (Option Bool)
  setLogin : Nat → Except GraphQLError (Option String)
  set : Nat → Except GraphQLError (Option Bool)

/-- A client's provisioning: what was sent, the counter of `SignInTally` it moved, and
the credentials or what was thrown. -/
structure ClientOutcome where
  sent : List Operation
  reused : Bool := false
  minted : Bool := false
  result : Except Thrown ClientCredentials

namespace Provisioner

variable {K : Type*} (cfg : Config K)

/-- `signIn`: login, else register, else login once more. -/
def signIn (api : SignInApi) (email : String) : List Operation × Except Thrown String :=
  let first := request .login api.login
  match first.2 with
  | .ok token => (first.1, Roster.get token)
  | .error e =>
    if e.transport then (first.1, .error (.graphql e))
    else
      let second := request .register api.register
      match second.2 with
      | .ok token => (first.1 ++ second.1, Roster.get token)
      | .error e =>
        if e.transport then (first.1 ++ second.1, .error (.graphql e))
        else
          let third := request .login api.loginAgain
          (first.1 ++ second.1 ++ third.1,
            match third.2 with
            | .ok token => Roster.get token
            | .error e =>
              if e.transport then .error (.graphql e)
              else
                .error (.graphql
                  { message := "cannot sign in as '" ++ email ++
                      "': the account exists but this password is rejected (" ++ e.message ++
                      "). Derived load-test accounts must be password accounts created by " ++
                      "this tool; pick a different LT_EMAIL_PATTERN or fix LT_PASSWORD."
                    code := e.code }))

/-- LT_GAME_API_URL, where it is set, goes before what the API or the roster names. -/
def gameApiUrlOr (named : String) : String :=
  if cfg.gameApiUrl ≠ "" then cfg.gameApiUrl else named

/-- The tail of `mintAppToken`, statement by statement. -/
def installMint (mint : MintReply) (c : ClientCredentials) : Except Thrown ClientCredentials := do
  let token ← Roster.get mint.token
  let id ← Roster.get mint.gameTokenId
  let expiresAt ← Roster.get mint.expiresAt
  let url := gameApiUrlOr cfg (mint.gameApiUrl.getD c.gameApiUrl)
  if url = "" then
    Roster.refuse ("mintAppToken returned no gameApiUrl for app " ++ toString cfg.appId ++
      " and LT_GAME_API_URL is not set. Set LT_GAME_API_URL to your app's Game API base URL.")
  else if token.length ≠ Hmac.TOKEN_OCTETS then
    Roster.refuse ("unexpected app token length " ++ toString token.length ++
      " (expected 64 characters)")
  else
    return { c with appToken := token, gameTokenId := id, tokenExpiresAt := expiresAt,
                    gameApiUrl := url }

/-- The mint, once more after a refusal that asks for consents. -/
def requestMint (api : MintApi) : List Operation × Except GraphQLError MintReply :=
  let first := request .mint api.mint
  match first.2 with
  | .ok mint => (first.1, .ok mint)
  | .error e =>
    if e.transport ∨ e.code ≠ "LEGAL_ACCEPTANCE_REQUIRED" then (first.1, .error e)
    else
      let consented := request .consents api.consents
      match consented.2 with
      | .error e => (first.1 ++ consented.1, .error e)
      | .ok () =>
        let again := request .mint api.mintAgain
        (first.1 ++ consented.1 ++ again.1, again.2)

def mintAppToken (api : MintApi) (c : ClientCredentials) :
    List Operation × Except Thrown ClientCredentials :=
  let minted := requestMint api
  (minted.1,
    match minted.2 with
    | .ok mint => installMint cfg mint c
    | .error e =>
      if ¬ e.transport ∧ e.code = "FORBIDDEN" then
        .error (.graphql
          { message := "mintAppToken(appId=" ++ toString cfg.appId ++ ") was FORBIDDEN for '" ++
              c.email ++ "'. The load tester does not manage entitlements: grant the derived " ++
              "load-test accounts access to the app (they follow your LT_EMAIL_PATTERN) " ++
              "before running."
            code := e.code })
      else .error (.graphql e))

/-- `bootstrapGameClient`, then `assignServer`. -/
def connect (bootstrap : Nat → Except GraphQLError Unit) (assign : AssignApi)
    (c : ClientCredentials) : List Operation × Except Thrown ClientCredentials :=
  let booted := request .bootstrap bootstrap
  match booted.2 with
  | .error e => (booted.1, .error (.graphql e))
  | .ok () =>
    let placed := assignServer cfg assign c
    (booted.1 ++ List.replicate (attempts assign.assign) .assign, placed.2.map fun _ => placed.1)

/-- The end of a client's turn that has a session: mint, bootstrap, assign. -/
def provisionSession (api : ClientApi) (c : ClientCredentials) :
    List Operation × Except Thrown ClientCredentials :=
  let minted := mintAppToken cfg api.mint c
  match minted.2 with
  | .error e => (minted.1, .error e)
  | .ok c =>
    let connected := connect cfg api.bootstrap api.assign c
    (minted.1 ++ connected.1, connected.2)

/-- The `try` block of `provisionRange`'s thread function, for one global index. -/
def provisionClient (r : Roster) (api : ClientApi) (global : Int) : ClientOutcome :=
  let email := cfg.derivedEmail global
  let c : ClientCredentials := { index := global, email := email }
  match if r.kindAppToken then r.rosterAppToken global email else .ok none with
  | .error e => { sent := [], result := .error e }
  | .ok (some pre) =>
    let url := gameApiUrlOr cfg r.gameApiUrl
    if url = "" then
      { sent := []
        result := Roster.refuse ("an app-token roster names no gameApiUrl and LT_GAME_API_URL " ++
          "is not set; the harness needs the app's datacenter origin to place clients.") }
    else
      let connected := connect cfg api.bootstrap api.assign
        { c with appToken := pre.token, gameTokenId := pre.gameTokenId,
                 tokenExpiresAt := pre.expiresAt, gameApiUrl := url }
      { sent := connected.1, reused := true, result := connected.2 }
  | .ok none =>
    match r.rosterSession global email with
    | .error e => { sent := [], result := .error e }
    | .ok session =>
      if session ≠ "" then
        let done := provisionSession cfg api { c with sessionToken := session }
        { sent := done.1, reused := true, result := done.2 }
      else
        let signed := signIn api.signIn email
        match signed.2 with
        | .error e => { sent := signed.1, result := .error e }
        | .ok token =>
          let done := provisionSession cfg api { c with sessionToken := token }
          { sent := signed.1 ++ done.1, minted := true, result := done.2 }

/-- `readReplayLogging`: it signs in as the base account in every mode. -/
def readReplayLogging (api : ReplayApi) : List Operation × Option Bool :=
  let login := request .login api.login
  match login.2 with
  | .ok (some _) =>
    let app := request .readReplayLogging api.read
    (login.1 ++ app.1, match app.2 with
      | .ok on => on
      | .error _ => none)
  | _ => (login.1, none)

/-- `setReplayLogging`; `false` when it throws. -/
def setReplayLogging (on : Bool) (api : ReplayApi) : List Operation × Bool :=
  let login := request .login api.setLogin
  match login.2 with
  | .ok (some _) =>
    let set := request .setReplayLogging api.set
    (login.1 ++ set.1, match set.2 with
      | .ok answer => answer = some on
      | .error _ => false)
  | _ => (login.1, false)

/-- The assignment named a server, and the client is on it. -/
def Placed (api : AssignApi) (c : ClientCredentials) : Prop :=
  ∃ server port, requestWithRetry api.assign = .ok server ∧ server.ip4 = some c.serverIp4 ∧
    server.clientPort = some port ∧ c.serverPort = UInt16.ofInt port ∧
      c.udpReadyAt = settled cfg api.now

/-- The client has an app token: the roster's, or one minted for it. -/
def HasAppToken (r : Roster) (api : ClientApi) (c : ClientCredentials) : Prop :=
  (∃ pre, r.kindAppToken = true ∧ r.rosterAppToken c.index c.email = .ok (some pre) ∧
      c.appToken = pre.token ∧ c.gameTokenId = pre.gameTokenId ∧
        c.tokenExpiresAt = pre.expiresAt) ∨
    ∃ mint, (requestMint api.mint).2 = .ok mint ∧ mint.token = some c.appToken ∧
      mint.gameTokenId = some c.gameTokenId ∧ mint.expiresAt = some c.tokenExpiresAt ∧
        c.appToken.length = Hmac.TOKEN_OCTETS

/-- The client of a global index went through all stages with the replies it got. -/
structure Staged (r : Roster) (api : ClientApi) (global : Int) (c : ClientCredentials) :
    Prop where
  index : c.index = global
  email : c.email = cfg.derivedEmail global
  appToken : HasAppToken r api c
  bootstrapped : (request .bootstrap api.bootstrap).2 = .ok ()
  placed : Placed cfg api.assign c

/-- Placing a client keeps everything else of it. -/
theorem connect_ok {bootstrap : Nat → Except GraphQLError Unit} {assign : AssignApi}
    {c d : ClientCredentials} (h : (connect cfg bootstrap assign c).2 = .ok d) :
    (request .bootstrap bootstrap).2 = .ok () ∧ Placed cfg assign d ∧
      d = { c with
        serverIp4 := d.serverIp4, serverPort := d.serverPort, udpReadyAt := d.udpReadyAt } := by
  unfold connect at h
  dsimp only at h
  split at h
  · cases h
  · rename_i hboot
    refine ⟨hboot, ?_⟩
    unfold assignServer at h
    cases hreq : requestWithRetry assign.assign with
    | error e =>
      simp only [hreq] at h
      cases h
    | ok server =>
      simp only [hreq, placeOn] at h
      cases hip : server.ip4 with
      | none =>
        simp only [hip] at h
        cases h
      | some ip4 =>
        cases hport : server.clientPort with
        | none =>
          simp only [hip, hport] at h
          cases h
        | some port =>
          simp only [hip, hport] at h
          obtain rfl := Except.ok.inj h
          exact ⟨⟨server, port, hreq, hip, hport, rfl, rfl⟩, rfl⟩

theorem installMint_ok {mint : MintReply} {c d : ClientCredentials}
    (h : installMint cfg mint c = .ok d) :
    mint.token = some d.appToken ∧ mint.gameTokenId = some d.gameTokenId ∧
      mint.expiresAt = some d.tokenExpiresAt ∧ d.appToken.length = Hmac.TOKEN_OCTETS ∧
        d.index = c.index ∧ d.email = c.email := by
  unfold installMint at h
  rcases mint with ⟨token, id, expiresAt, url⟩
  cases token with
  | none => cases h
  | some token =>
    cases id with
    | none => cases h
    | some id =>
      cases expiresAt with
      | none => cases h
      | some expiresAt =>
        simp only [Roster.get, bind, Except.bind, pure, Except.pure] at h
        split at h
        · cases h
        · split at h
          · cases h
          · rename_i hlen
            obtain rfl := Except.ok.inj h
            exact ⟨rfl, rfl, rfl, not_not.mp hlen, rfl, rfl⟩

/-- A client with a session mints its token, and is placed. -/
theorem provisionSession_ok (r : Roster) {api : ClientApi} {c d : ClientCredentials}
    {global : Int} (hindex : c.index = global) (hemail : c.email = cfg.derivedEmail global)
    (h : (provisionSession cfg api c).2 = .ok d) : Staged cfg r api global d := by
  unfold provisionSession at h
  dsimp only at h
  split at h
  · cases h
  · rename_i c' hm
    obtain ⟨hboot, hplaced, hkept⟩ := connect_ok cfg h
    unfold mintAppToken at hm
    dsimp only at hm
    split at hm
    · rename_i mint hmint
      obtain ⟨htoken, hid, hexpires, hlen, hi, he⟩ := installMint_ok cfg hm
      rw [hkept]
      refine ⟨hi.trans hindex, he.trans hemail, .inr ⟨mint, hmint, htoken, hid, hexpires, hlen⟩,
        hboot, ?_⟩
      exact hkept ▸ hplaced
    · split at hm <;> cases hm

/-- **A provisioned client** went through all stages. -/
theorem provisionClient_ok (r : Roster) (api : ClientApi) {global : Int} {c : ClientCredentials}
    (h : (provisionClient cfg r api global).result = .ok c) : Staged cfg r api global c := by
  unfold provisionClient at h
  dsimp only at h
  split at h
  · cases h
  · rename_i pre hpre
    split at h
    · cases h
    · obtain ⟨hboot, hplaced, hkept⟩ := connect_ok cfg h
      split at hpre
      · rename_i hkind
        rw [hkept]
        exact ⟨rfl, rfl, .inl ⟨pre, hkind, hpre, rfl, rfl, rfl⟩, hboot, hkept ▸ hplaced⟩
      · cases hpre
  · split at h
    · cases h
    · split at h
      · exact provisionSession_ok cfg r rfl rfl h
      · split at h
        · cases h
        · exact provisionSession_ok cfg r rfl rfl h

/-- A provisioned client has the index it was provisioned for. -/
theorem provisionClient_index (r : Roster) (api : ClientApi) {global : Int}
    {c : ClientCredentials} (h : (provisionClient cfg r api global).result = .ok c) :
    c.index = global :=
  (provisionClient_ok cfg r api h).index

end Provisioner

end CksLoadtest
