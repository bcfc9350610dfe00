import Mathlib.Algebra.Field.Defs
import Mathlib.Data.Fintype.Basic
import CksLoadtest.Lib.Json
import CksLoadtest.Stats.Counters

/-!
# Snapshots as JSON

`CounterSnap::toJson` and `fromJson`, and the blob `buildStatsJson` makes of a host's
snapshot. `double` values live in `K` and are exact; integers are not narrowed, since no
statement about them holds across a wrap.
-/
namespace CksLoadtest

open Lib

def errorCodeName (code : Nat) : String :=
  match code with
  | 5 => "INVALID_TOKEN"
  | 6 => "APP_NOT_FOUND"
  | 7 => "UNAUTHORIZED"
  | 13 => "GAME_TOKEN_WRONG_SIZE"
  | 15 => "INVALID_REQUEST"
  | 18 => "INVALID_APP_ID"
  | 20 => "USER_NOT_AUTHENTICATED"
  | 32 => "TOKEN_EXPIRED"
  | _ => "UNKNOWN"

def bucketLabel (i : Nat) : String :=
  if i = 0 then "<" ++ toString (latencyBound 0) ++ "ms"
  else if LATENCY_BUCKETS - 1 ≤ i then ">=" ++ toString (latencyBound (LATENCY_BUCKETS - 2)) ++ "ms"
  else "<" ++ toString (latencyBound i) ++ "ms"

variable {K : Type*} [Field K] [LinearOrder K]

/-- The loop of `percentileMs` over the buckets left, each with its upper bound. -/
def percentileLoop (target : K) : Nat → Nat → List (Nat × Nat) → K
  | _, lo, [] => lo
  | cum, lo, (n, hi) :: rest =>
    if target ≤ ((cum + n : Nat) : K) ∨ rest.isEmpty then
      if n = 0 then hi
      else
        let frac := (target - cum) / n
        let frac := if frac < 0 then 0 else frac
        let frac := if 1 < frac then 1 else frac
        lo + frac * ((hi : K) - lo)
    else percentileLoop target (cum + n) hi rest

/-- Upper bound of a bucket; the open one is taken twice as wide as the last bound. -/
def bucketHigh (i : Nat) : Nat :=
  if i < LATENCY_BUCKETS - 1 then latencyBound i else latencyBound (LATENCY_BUCKETS - 2) * 2

def percentileMs (snap : CounterSnap) (p : K) : K :=
  if snap.latencySamples = 0 then 0
  else
    let p := if p < 0 then 0 else p
    let p := if 1 < p then 1 else p
    let target := p * snap.latencySamples
    let target := if target < 1 then 1 else target
    percentileLoop target 0 0
      ((List.finRange LATENCY_BUCKETS).map fun (i : Fin _) =>
        (getElem snap.latencyHist i i.isLt, bucketHigh i))

section ToJson

variable (K)

def latencyJson (s : CounterSnap) : Json K :=
  .obj
    [("samples", .int s.latencySamples),
     ("sum_ms", .int s.latencySumMs),
     ("avg_ms",
      .real (if s.latencySamples ≠ 0 then (s.latencySumMs : K) / s.latencySamples else 0)),
     ("max_ms", .int s.latencyMaxMs),
     ("p50_ms", .real (percentileMs s (50 / 100 : K))),
     ("p95_ms", .real (percentileMs s (95 / 100 : K))),
     ("p99_ms", .real (percentileMs s (99 / 100 : K))),
     ("hist", .arr ((List.finRange LATENCY_BUCKETS).map fun (i : Fin _) =>
        .obj
          [("le_ms", if i.val < LATENCY_BUCKETS - 1 then .int (latencyBound i) else .null),
           ("n", .int (getElem s.latencyHist i i.isLt)),
           ("label", .str (bucketLabel i))]))]

/-- A row of `by_code`. -/
def errorRow (s : CounterSnap) (c : Fin 256) : Json K :=
  .obj [("code", .int c.val), ("name", .str (errorCodeName c)),
    ("n", .int (getElem s.errorCodes c (code_lt c)))]

def errorsJson (s : CounterSnap) : Json K :=
  let unauth := getElem s.errorCodes (7 : Fin 256) unauthorized_lt
  .obj
    [("by_code", .arr (((List.finRange 256).filter fun c =>
        getElem s.errorCodes c (code_lt c) ≠ 0).map (errorRow K s))),
     ("unauthorized_first_contact", .int s.unauthorizedFirstContact),
     ("unauthorized_window_reload", .int s.unauthorizedWindowReload),
     ("unauthorized_unexplained",
      .int ((unauth - s.unauthorizedFirstContact - s.unauthorizedWindowReload : Nat)))]

/-- `CounterSnap::toJson`. -/
def CounterSnap.toJson (s : CounterSnap) : Json K :=
  .obj
    [("tx_packets", .int s.txPackets),
     ("tx_bytes", .int s.txBytes),
     ("tx_send_errors", .int s.txSendErrors),
     ("rx_datagrams", .int s.rxDatagrams),
     ("rx_bytes", .int s.rxBytes),
     ("rx_bundles", .int s.rxBundles),
     ("rx_signed_bundles", .int s.rxSignedBundles),
     ("rx_signed_members", .int s.rxSignedMembers),
     ("tx_capabilities", .int s.txCapabilities),
     ("rx_actor_notifications", .int s.rxActorNotifications),
     ("rx_other_spatial", .int s.rxOtherSpatial),
     ("rx_error_messages", .int s.rxErrorMessages),
     ("rx_reconnect_commands", .int s.rxReconnectCommands),
     ("rx_silent_reassigns", .int s.rxSilentReassigns),
     ("rcvbuf_set_failures", .int s.rcvbufSetFailures),
     ("rx_hmac_failures", .int s.rxHmacFailures),
     ("rx_malformed", .int s.rxMalformed),
     ("token_refreshes", .int s.tokenRefreshes),
     ("refreshes_kept_server", .int s.refreshesKeptServer),
     ("reassignments", .int s.reassignments),
     ("control_failures", .int s.controlFailures),
     ("latency", latencyJson K s),
     ("errors", errorsJson K s),
     ("sign_in",
      .obj
        [("reused", .int s.signInReused),
         ("minted_before", .int s.signInMintedBefore),
         ("minted_during", .int s.signInMintedDuring)])]

end ToJson

/-- `jInt`. -/
def jInt (j : Json K) (key : String) : Int :=
  match j.field? key with
  | some (.int n) => n
  | _ => 0

section FromJson

variable [FloorRing K]

/-- `jU64`. -/
def jU64 (j : Json K) (key : String) : Nat := ((j.field? key).bind Json.asU64?).getD 0

/-- One turn of `fromJson`'s loop over `by_code`. -/
def readErrorRow (codes : Vector Nat 256) (row : Json K) : Vector Nat 256 :=
  let code := jInt row "code"
  if h : 0 ≤ code ∧ code < 256 then
    codes.set (⟨code.toNat, by omega⟩ : Fin 256) (jU64 row "n")
  else codes

/-- `CounterSnap::fromJson`. What is absent, or not of the kind looked for, reads as 0. -/
def CounterSnap.fromJson (j : Json K) : CounterSnap :=
  let latency := j.objField "latency"
  let hist := latency.arrField "hist"
  let errors := j.objField "errors"
  let signIn := j.objField "sign_in"
  { txPackets := jU64 j "tx_packets"
    txBytes := jU64 j "tx_bytes"
    txSendErrors := jU64 j "tx_send_errors"
    rxDatagrams := jU64 j "rx_datagrams"
    rxBytes := jU64 j "rx_bytes"
    rxBundles := jU64 j "rx_bundles"
    rxSignedBundles := jU64 j "rx_signed_bundles"
    rxSignedMembers := jU64 j "rx_signed_members"
    txCapabilities := jU64 j "tx_capabilities"
    rxActorNotifications := jU64 j "rx_actor_notifications"
    rxOtherSpatial := jU64 j "rx_other_spatial"
    rxErrorMessages := jU64 j "rx_error_messages"
    rxReconnectCommands := jU64 j "rx_reconnect_commands"
    rxSilentReassigns := jU64 j "rx_silent_reassigns"
    rcvbufSetFailures := jU64 j "rcvbuf_set_failures"
    rxHmacFailures := jU64 j "rx_hmac_failures"
    rxMalformed := jU64 j "rx_malformed"
    tokenRefreshes := jU64 j "token_refreshes"
    refreshesKeptServer := jU64 j "refreshes_kept_server"
    reassignments := jU64 j "reassignments"
    controlFailures := jU64 j "control_failures"
    unauthorizedFirstContact := jU64 errors "unauthorized_first_contact"
    unauthorizedWindowReload := jU64 errors "unauthorized_window_reload"
    latencySamples := jU64 latency "samples"
    latencySumMs := jU64 latency "sum_ms"
    latencyMaxMs := jU64 latency "max_ms"
    latencyHist := .ofFn fun i => ((hist[i.val]?).map fun b => jU64 b "n").getD 0
    errorCodes := (errors.arrField "by_code").foldl readErrorRow (.replicate _ 0)
    signInReused := jInt signIn "reused"
    signInMintedBefore := jInt signIn "minted_before"
    signInMintedDuring := jInt signIn "minted_during" }

end FromJson

/-- What the HTTP snapshot stamps that lives on the harness, not in `Stats`. -/
structure SnapshotMeta (K : Type*) where
  instanceId : String := ""
  indexBase : Int := 0
  used : Int := 0
  limit : Int := 0
  busy : Bool := false
  addError : String := ""
  rungId : String := ""
  windowOpenEpochSec : Nat := 0
  windowDurationSec : K
  activeClients : Int := 0
  suspendedClients : Int := 0
  replayLogging : String := ""
  replayLoggingRequested : String := ""
  replayLoggingAtEnd : String := ""

def buildStatsJson (snapshot : SnapshotMeta K) (lifetime window : CounterSnap)
    (interval : IntervalRates K) : Json K :=
  .obj
    [("instance_id", .str snapshot.instanceId),
     ("index_base", .int snapshot.indexBase),
     ("used", .int snapshot.used),
     ("limit", .int snapshot.limit),
     ("busy", .bool snapshot.busy),
     ("add_error", .str snapshot.addError),
     ("rung_id", .str snapshot.rungId),
     ("replay_logging", .str snapshot.replayLogging),
     ("replay_logging_requested", .str snapshot.replayLoggingRequested),
     ("replay_logging_at_end", .str snapshot.replayLoggingAtEnd),
     ("gauges",
      .obj
        [("active", .int snapshot.activeClients), ("suspended", .int snapshot.suspendedClients)]),
     ("lifetime", lifetime.toJson K),
     ("window",
      .obj
        [("id", .str snapshot.rungId),
         ("open_epoch_sec", .int snapshot.windowOpenEpochSec),
         ("duration_sec", .real snapshot.windowDurationSec),
         ("counters", window.toJson K)]),
     ("interval",
      .obj
        [("dt_sec", .real interval.dtSec),
         ("epoch_sec", .int interval.epochSec),
         ("tx_pps", .real interval.txPps),
         ("tx_bps", .real interval.txBps),
         ("rx_dps", .real interval.rxDps),
         ("rx_bps", .real interval.rxBps),
         ("rx_notif_ps", .real interval.rxNotifPs),
         ("avg_latency_ms", .real interval.avgLatencyMs)])]

section RoundTrip

variable [FloorRing K]

theorem asU64?_int (n : Nat) : Json.asU64? (.int n : Json K) = some n := by
  simp [Json.asU64?]

namespace CounterSnap

theorem latencyHist_read (s : CounterSnap) :
    (Vector.ofFn fun i : Fin LATENCY_BUCKETS =>
      ((((latencyJson K s).arrField "hist")[i.val]?).map fun b => jU64 b "n").getD 0) =
      s.latencyHist := by
  ext i hi
  simp [latencyJson, Json.arrField, Json.field?, List.lookup_cons, jU64, asU64?_int]

theorem readErrorRow_errorRow (s : CounterSnap) (codes : Vector Nat 256) (c : Fin 256) :
    readErrorRow codes (errorRow K s c) =
      codes.set c (getElem s.errorCodes c (code_lt c)) (code_lt c) := by
  have hcode : jInt (errorRow K s c) "code" = c.val := by
    simp [jInt, errorRow, Json.field?]
  have hn : jU64 (errorRow K s c) "n" = getElem s.errorCodes c (code_lt c) := by
    simp [jU64, errorRow, Json.field?, List.lookup_cons, asU64?_int]
  unfold readErrorRow
  simp [hcode, hn]

theorem foldl_readErrorRow (s : CounterSnap) (rows : List (Fin 256)) (codes : Vector Nat 256)
    (c : Fin 256) :
    getElem ((rows.map (errorRow K s)).foldl readErrorRow codes) c (code_lt c) =
      if c ∈ rows then getElem s.errorCodes c (code_lt c) else getElem codes c (code_lt c) := by
  induction rows generalizing codes with
  | nil => simp
  | cons d rows ih =>
    rw [List.map_cons, List.foldl_cons, ih, readErrorRow_errorRow]
    by_cases hc : c ∈ rows
    · simp [hc]
    · by_cases hd : c = d
      · simp [hd]
      · simp [hc, hd, Fin.val_inj, Ne.symm hd]

theorem errorCodes_read (s : CounterSnap) :
    ((errorsJson K s).arrField "by_code").foldl readErrorRow (.replicate _ 0) = s.errorCodes := by
  have hrows : (errorsJson K s).arrField "by_code" =
      ((List.finRange 256).filter fun c : Fin 256 =>
        getElem s.errorCodes c (code_lt c) ≠ 0).map (errorRow K s) := by
    simp [errorsJson, Json.arrField, Json.field?]
  rw [hrows]
  ext i hi
  have hc := foldl_readErrorRow (K := K) s
    ((List.finRange 256).filter fun c : Fin 256 => getElem s.errorCodes c (code_lt c) ≠ 0)
    (.replicate _ 0) ⟨i, hi⟩
  refine hc.trans ?_
  by_cases h0 : s.errorCodes[i] = 0 <;> simp [h0]

/-- **Round trip**: a snapshot is read back from its JSON. -/
theorem fromJson_toJson (s : CounterSnap) : fromJson (s.toJson K) = s := by
  have hlatency : (s.toJson K).objField "latency" = latencyJson K s := by
    simp [toJson, Json.objField, Json.field?, List.lookup_cons, latencyJson]
  have herrors : (s.toJson K).objField "errors" = errorsJson K s := by
    simp [toJson, Json.objField, Json.field?, List.lookup_cons, errorsJson]
  unfold fromJson
  dsimp only
  rw [hlatency, herrors, latencyHist_read, errorCodes_read]
  cases s
  simp [toJson, jU64, jInt, Json.objField, Json.field?, List.lookup_cons, asU64?_int, latencyJson,
    errorsJson]

/-- No counter is lost between the encoder and the decoder. -/
theorem fromJson_leftInverse : Function.LeftInverse (fromJson (K := K)) (toJson K) :=
  fromJson_toJson

end CounterSnap

end RoundTrip

end CksLoadtest
