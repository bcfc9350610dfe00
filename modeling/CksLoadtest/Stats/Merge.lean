import Mathlib.Algebra.Group.WithOne.Defs
import Mathlib.Algebra.BigOperators.Group.List.Basic
import Mathlib.Algebra.Order.Group.Defs
import CksLoadtest.Stats.Json

/-!
# The fleet merge

`mergeFleetStats` over the blobs of the hosts. `none` is the exception a member of an
unexpected kind throws; the time of the merge is an input.
-/
namespace CksLoadtest

open Lib

/-- The locals of `mergeFleetStats`. -/
structure FleetMerge (K : Type*) where
  life : CounterSnap := {}
  win : CounterSnap := {}
  iv : IntervalRates K
  fleet : SnapshotMeta K
  first : Bool := true
  disagree : String := ""

namespace FleetMerge

/-- `agree`: one app, so every host should name the same value. -/
def agree (first : Bool) (field value : String) : String :=
  if first then value else if value ≠ field then "mixed" else field

/-- The earliest open; a host that reports 0 is skipped. -/
def earliest (opened next : Nat) : Nat :=
  if next ≠ 0 ∧ (opened = 0 ∨ next < opened) then next else opened

variable {K : Type*} [Field K] [LinearOrder K] [FloorRing K]

/-- A host's window, and its counters. -/
def window (m : FleetMerge K) (h : Json K) : Option (FleetMerge K × CounterSnap) :=
  match h.field? "window" with
  | some (.obj fields) =>
    let w : Json K := .obj fields
    (w.value? some "counters" (.obj [])).bind fun counters =>
    (h.strOr? "rung_id" "").bind fun rungId =>
    (w.strOr? "id" rungId).bind fun rid =>
    (w.value? Json.asReal? "duration_sec" 0).bind fun duration =>
    (w.value? Json.asU64? "open_epoch_sec" 0).map fun opened =>
      ({ m with
          fleet := { m.fleet with
            rungId := if m.first then rid else m.fleet.rungId
            windowDurationSec := max m.fleet.windowDurationSec duration
            windowOpenEpochSec := earliest m.fleet.windowOpenEpochSec opened }
          disagree := if ¬ m.first ∧ rid ≠ m.fleet.rungId then "rung_id" else m.disagree },
        .fromJson counters)
  | _ => some (m, {})

def gauges (m : FleetMerge K) (h : Json K) : Option (FleetMerge K) :=
  match h.field? "gauges" with
  | some g =>
    (g.value? Json.asInt? "active" 0).bind fun active =>
    (g.value? Json.asInt? "suspended" 0).map fun suspended =>
      { m with fleet := { m.fleet with
          activeClients := m.fleet.activeClients + active
          suspendedClients := m.fleet.suspendedClients + suspended } }
  | none => some m

/-- The rates are summed. The latency average is not: the fleet's is in the histogram. -/
def rates (m : FleetMerge K) (h : Json K) : Option (FleetMerge K) :=
  match h.field? "interval" with
  | some (.obj fields) =>
    let i : Json K := .obj fields
    (i.value? Json.asReal? "dt_sec" 0).bind fun dtSec =>
    (i.value? Json.asReal? "tx_pps" 0).bind fun txPps =>
    (i.value? Json.asReal? "tx_bps" 0).bind fun txBps =>
    (i.value? Json.asReal? "rx_dps" 0).bind fun rxDps =>
    (i.value? Json.asReal? "rx_bps" 0).bind fun rxBps =>
    (i.value? Json.asReal? "rx_notif_ps" 0).map fun rxNotifPs =>
      { m with iv := { m.iv with
          dtSec := max m.iv.dtSec dtSec
          txPps := m.iv.txPps + txPps
          txBps := m.iv.txBps + txBps
          rxDps := m.iv.rxDps + rxDps
          rxBps := m.iv.rxBps + rxBps
          rxNotifPs := m.iv.rxNotifPs + rxNotifPs } }
  | _ => some m

/-- One turn of the loop over the hosts. -/
def host (m : FleetMerge K) (h : Json K) : Option (FleetMerge K) :=
  (h.value? some "lifetime" (.obj [])).bind fun lifetime =>
  (m.window h).bind fun (m, W) =>
  let L := CounterSnap.fromJson lifetime
  let m := { m with
    life := if m.first then L else .plus m.life L
    win := if m.first then W else .plus m.win W }
  (h.value? Json.asInt? "used" 0).bind fun used =>
  (h.value? Json.asInt? "limit" 0).bind fun limit =>
  let m := { m with fleet := { m.fleet with
    used := m.fleet.used + used
    limit := m.fleet.limit + limit } }
  (m.gauges h).bind fun m =>
  (m.rates h).bind fun m =>
  (h.value? Json.asBool? "busy" false).bind fun busy =>
  (h.strOr? "replay_logging" "").bind fun replayLogging =>
  (h.strOr? "replay_logging_requested" "").bind fun requested =>
  (h.strOr? "replay_logging_at_end" "").map fun atEnd =>
    { m with
      fleet := { m.fleet with
        busy := m.fleet.busy || busy
        replayLogging := agree m.first m.fleet.replayLogging replayLogging
        replayLoggingRequested := agree m.first m.fleet.replayLoggingRequested requested
        replayLoggingAtEnd := agree m.first m.fleet.replayLoggingAtEnd atEnd }
      first := false }

def init : FleetMerge K where
  iv := ⟨0, 0, 0, 0, 0, 0, 0, 0⟩
  fleet := { windowDurationSec := 0 }

/-- What is returned after the loop. -/
def json (nowSec hosts : Nat) (m : FleetMerge K) : Json K :=
  let out := (buildStatsJson { m.fleet with instanceId := "fleet" } m.life m.win
    { m.iv with epochSec := nowSec }).set "hosts" (.int hosts)
  if m.disagree ≠ "" then out.set "warning" (.str ("hosts disagree on " ++ m.disagree)) else out

end FleetMerge

def mergeFleetStats {K : Type*} [Field K] [LinearOrder K] [FloorRing K] (nowSec : Nat)
    (hosts : List (Json K)) : Option (Json K) :=
  (hosts.foldlM FleetMerge.host .init).map (FleetMerge.json nowSec hosts.length)

/-- The arguments of `buildStatsJson`. -/
structure HostBlob (K : Type*) where
  snapshot : SnapshotMeta K
  lifetime : CounterSnap
  window : CounterSnap
  interval : IntervalRates K

section Carries

variable {K : Type*} [Field K] [LinearOrder K]

def HostBlob.json (b : HostBlob K) : Json K :=
  buildStatsJson b.snapshot b.lifetime b.window b.interval

/-- A document with the members of a blob, but for those a merge adds. -/
structure Carries (h : Json K) (b : HostBlob K) : Prop where
  isObj : h.IsObj
  field : ∀ key, key ≠ "hosts" → key ≠ "warning" → h.field? key = b.json.field? key

theorem HostBlob.carries (b : HostBlob K) : Carries b.json b := ⟨⟨_, rfl⟩, fun _ _ _ => rfl⟩

namespace FleetMerge

/-- The blob a merge makes, before it is marked as one. -/
def blob (nowSec : Nat) (m : FleetMerge K) : HostBlob K where
  snapshot := { m.fleet with instanceId := "fleet" }
  lifetime := m.life
  window := m.win
  interval := { m.iv with epochSec := nowSec }

theorem json_carries (nowSec hosts : Nat) (m : FleetMerge K) :
    Carries (m.json nowSec hosts) (m.blob nowSec) := by
  have hb := (m.blob nowSec).carries
  have hout : Carries ((m.blob nowSec).json.set "hosts" (.int hosts)) (m.blob nowSec) :=
    ⟨hb.isObj.set _ _, fun key hh hw => Json.field?_set_of_ne hh _⟩
  unfold json
  dsimp only
  split
  · refine ⟨hout.isObj.set _ _, fun key hh hw => ?_⟩
    rw [Json.field?_set_of_ne hw]
    exact hout.field key hh hw
  · exact hout

theorem json_warning (nowSec hosts : Nat) (m : FleetMerge K) :
    ((m.json nowSec hosts).field? "warning").isSome = true ↔ m.disagree ≠ "" := by
  have hb := ((m.blob nowSec).carries.isObj.set "hosts" (.int hosts))
  unfold json
  dsimp only
  split
  · rename_i hd
    exact iff_of_true (congrArg Option.isSome (Json.field?_set hb _ _)) hd
  · rename_i hd
    refine iff_of_false ?_ hd
    rw [Json.field?_set_of_ne (by decide)]
    simp [buildStatsJson, Json.field?, List.lookup_cons]

/-- The locals after a turn for a blob. -/
def absorb (m : FleetMerge K) (b : HostBlob K) : FleetMerge K where
  life := if m.first then b.lifetime else .plus m.life b.lifetime
  win := if m.first then b.window else .plus m.win b.window
  iv :=
    { m.iv with
      dtSec := max m.iv.dtSec b.interval.dtSec
      txPps := m.iv.txPps + b.interval.txPps
      txBps := m.iv.txBps + b.interval.txBps
      rxDps := m.iv.rxDps + b.interval.rxDps
      rxBps := m.iv.rxBps + b.interval.rxBps
      rxNotifPs := m.iv.rxNotifPs + b.interval.rxNotifPs }
  fleet :=
    { m.fleet with
      used := m.fleet.used + b.snapshot.used
      limit := m.fleet.limit + b.snapshot.limit
      busy := m.fleet.busy || b.snapshot.busy
      rungId := if m.first then b.snapshot.rungId else m.fleet.rungId
      windowOpenEpochSec := earliest m.fleet.windowOpenEpochSec b.snapshot.windowOpenEpochSec
      windowDurationSec := max m.fleet.windowDurationSec b.snapshot.windowDurationSec
      activeClients := m.fleet.activeClients + b.snapshot.activeClients
      suspendedClients := m.fleet.suspendedClients + b.snapshot.suspendedClients
      replayLogging := agree m.first m.fleet.replayLogging b.snapshot.replayLogging
      replayLoggingRequested :=
        agree m.first m.fleet.replayLoggingRequested b.snapshot.replayLoggingRequested
      replayLoggingAtEnd := agree m.first m.fleet.replayLoggingAtEnd b.snapshot.replayLoggingAtEnd }
  first := false
  disagree :=
    if ¬ m.first ∧ b.snapshot.rungId ≠ m.fleet.rungId then "rung_id" else m.disagree

variable [FloorRing K]

theorem window_carries (m : FleetMerge K) {h : Json K} {b : HostBlob K} (hc : Carries h b) :
    m.window h = some
      ({ m with
          fleet := { m.fleet with
            rungId := if m.first then b.snapshot.rungId else m.fleet.rungId
            windowDurationSec := max m.fleet.windowDurationSec b.snapshot.windowDurationSec
            windowOpenEpochSec :=
              earliest m.fleet.windowOpenEpochSec b.snapshot.windowOpenEpochSec }
          disagree :=
            if ¬ m.first ∧ b.snapshot.rungId ≠ m.fleet.rungId then "rung_id" else m.disagree },
        b.window) := by
  have hwindow : h.field? "window" = some (.obj
      [("id", .str b.snapshot.rungId), ("open_epoch_sec", .int b.snapshot.windowOpenEpochSec),
       ("duration_sec", .real b.snapshot.windowDurationSec), ("counters", b.window.toJson K)]) :=
    hc.field "window" (by decide) (by decide)
  have hrung : h.field? "rung_id" = some (.str b.snapshot.rungId) :=
    hc.field "rung_id" (by decide) (by decide)
  have hrungId : h.strOr? "rung_id" "" = some b.snapshot.rungId := by
    simp only [Json.strOr?, Json.value?_eq hc.isObj, hrung, Json.asStr?]
  simp only [window, hwindow, hrungId]
  simp [Json.strOr?, Json.value?, List.lookup_cons, Json.asStr?, Json.asReal?, asU64?_int,
    CounterSnap.fromJson_toJson]

theorem gauges_carries (m : FleetMerge K) {h : Json K} {b : HostBlob K} (hc : Carries h b) :
    m.gauges h = some { m with fleet := { m.fleet with
      activeClients := m.fleet.activeClients + b.snapshot.activeClients
      suspendedClients := m.fleet.suspendedClients + b.snapshot.suspendedClients } } := by
  have hgauges : h.field? "gauges" = some (.obj
      [("active", .int b.snapshot.activeClients),
       ("suspended", .int b.snapshot.suspendedClients)]) :=
    hc.field "gauges" (by decide) (by decide)
  simp [gauges, hgauges, Json.value?, List.lookup_cons, Json.asInt?]

omit [FloorRing K] in
theorem rates_carries (m : FleetMerge K) {h : Json K} {b : HostBlob K} (hc : Carries h b) :
    m.rates h = some { m with iv := { m.iv with
      dtSec := max m.iv.dtSec b.interval.dtSec
      txPps := m.iv.txPps + b.interval.txPps
      txBps := m.iv.txBps + b.interval.txBps
      rxDps := m.iv.rxDps + b.interval.rxDps
      rxBps := m.iv.rxBps + b.interval.rxBps
      rxNotifPs := m.iv.rxNotifPs + b.interval.rxNotifPs } } := by
  have hinterval : h.field? "interval" = some (.obj
      [("dt_sec", .real b.interval.dtSec), ("epoch_sec", .int b.interval.epochSec),
       ("tx_pps", .real b.interval.txPps), ("tx_bps", .real b.interval.txBps),
       ("rx_dps", .real b.interval.rxDps), ("rx_bps", .real b.interval.rxBps),
       ("rx_notif_ps", .real b.interval.rxNotifPs),
       ("avg_latency_ms", .real b.interval.avgLatencyMs)]) :=
    hc.field "interval" (by decide) (by decide)
  simp [rates, hinterval, Json.value?, List.lookup_cons, Json.asReal?]

/-- **One turn** of the merge for a blob, or for a merged one. -/
theorem host_carries (m : FleetMerge K) {h : Json K} {b : HostBlob K} (hc : Carries h b) :
    m.host h = some (m.absorb b) := by
  have hlifetime : h.field? "lifetime" = some (b.lifetime.toJson K) :=
    hc.field "lifetime" (by decide) (by decide)
  have hused : h.field? "used" = some (.int b.snapshot.used) :=
    hc.field "used" (by decide) (by decide)
  have hlimit : h.field? "limit" = some (.int b.snapshot.limit) :=
    hc.field "limit" (by decide) (by decide)
  have hbusy : h.field? "busy" = some (.bool b.snapshot.busy) :=
    hc.field "busy" (by decide) (by decide)
  have hreplay : h.field? "replay_logging" = some (.str b.snapshot.replayLogging) :=
    hc.field "replay_logging" (by decide) (by decide)
  have hrequested : h.field? "replay_logging_requested" =
      some (.str b.snapshot.replayLoggingRequested) :=
    hc.field "replay_logging_requested" (by decide) (by decide)
  have hatEnd : h.field? "replay_logging_at_end" = some (.str b.snapshot.replayLoggingAtEnd) :=
    hc.field "replay_logging_at_end" (by decide) (by decide)
  simp only [host, Json.strOr?, Json.value?_eq hc.isObj, hlifetime, hused, hlimit, hbusy, hreplay,
    hrequested, hatEnd, window_carries _ hc, gauges_carries _ hc, rates_carries _ hc,
    Option.bind_some, Option.map_some, Json.asInt?, Json.asBool?, Json.asStr?,
    CounterSnap.fromJson_toJson]
  rfl

end FleetMerge

end Carries

end CksLoadtest
