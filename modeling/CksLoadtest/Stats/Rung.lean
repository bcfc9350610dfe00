import Mathlib.Data.Fintype.Basic
import CksLoadtest.Lib.Transition
import CksLoadtest.Lib.Versions
import CksLoadtest.Stats.Merge

/-!
# Opening rungs and reading them

`openRung`, `statsJson`, `closeRung` and the reporter's step, with one event for each
mutex-protected section and each atomic access, any number of HTTP threads and the one
reporter. `marks` is the history of `markWindow`, each with the latencies recorded since; a
reader keeps which of its entries each part of its blob was read from. Arguments are evaluated
in the order they are written.
-/
namespace CksLoadtest

open Lib Lib.Transition

namespace Stats

/-- The accesses of `loadLifetime`, in order; the last one is its locked section. -/
def loads : List (Stats → CounterSnap → CounterSnap) :=
  [fun s c => { c with txPackets := s.txPackets },
   fun s c => { c with txBytes := s.txBytes },
   fun s c => { c with txSendErrors := s.txSendErrors },
   fun s c => { c with rxDatagrams := s.rxDatagrams },
   fun s c => { c with rxBytes := s.rxBytes },
   fun s c => { c with rxBundles := s.rxBundles },
   fun s c => { c with rxSignedBundles := s.rxSignedBundles },
   fun s c => { c with rxSignedMembers := s.rxSignedMembers },
   fun s c => { c with txCapabilities := s.txCapabilities },
   fun s c => { c with rxActorNotifications := s.rxActorNotifications },
   fun s c => { c with rxOtherSpatial := s.rxOtherSpatial },
   fun s c => { c with rxErrorMessages := s.rxErrorMessages },
   fun s c => { c with rxReconnectCommands := s.rxReconnectCommands },
   fun s c => { c with rxSilentReassigns := s.rxSilentReassigns },
   fun s c => { c with rcvbufSetFailures := s.rcvbufSetFailures },
   fun s c => { c with rxHmacFailures := s.rxHmacFailures },
   fun s c => { c with rxMalformed := s.rxMalformed },
   fun s c => { c with tokenRefreshes := s.tokenRefreshes },
   fun s c => { c with refreshesKeptServer := s.refreshesKeptServer },
   fun s c => { c with reassignments := s.reassignments },
   fun s c => { c with controlFailures := s.controlFailures },
   fun s c => { c with unauthorizedFirstContact := s.unauthorizedFirstContact },
   fun s c => { c with unauthorizedWindowReload := s.unauthorizedWindowReload },
   fun s c => { c with latencySamples := s.latencySamples },
   fun s c => { c with latencySumMs := s.latencySumMs },
   fun s c => { c with latencyMaxMs := s.latencyMaxMs }] ++
  ((List.finRange LATENCY_BUCKETS).map fun (i : Fin _) s c =>
    { c with latencyHist := c.latencyHist.set i (getElem s.latencyHist i i.isLt) i.isLt }) ++
  ((List.finRange 256).map fun (i : Fin _) s c =>
    { c with errorCodes := c.errorCodes.set i (getElem s.errorCodes i (code_lt i)) (code_lt i) }) ++
  [fun s c =>
    { c with
      signInReused := s.signInReused
      signInMintedBefore := s.signInMintedBefore
      signInMintedDuring := s.signInMintedDuring }]

theorem foldl_set {n : Nat} (l : List (Fin n)) (v w : Vector Nat n) (j : Fin n) :
    getElem (l.foldl (fun w (i : Fin _) => w.set i (getElem v i i.isLt) i.isLt) w) j j.isLt =
      if j ∈ l then getElem v j j.isLt else getElem w j j.isLt := by
  induction l generalizing w with
  | nil => simp
  | cons i l ih =>
    rw [List.foldl_cons, ih]
    by_cases hj : j ∈ l
    · simp [hj]
    · by_cases hi : j = i
      · simp [hi]
      · simp [hj, hi, Fin.val_inj, Ne.symm hi]

theorem foldl_set_finRange {n : Nat} (v w : Vector Nat n) :
    (List.finRange n).foldl (fun w (i : Fin _) => w.set i (getElem v i i.isLt) i.isLt) w = v := by
  ext j hj
  simpa using foldl_set (List.finRange n) v w ⟨j, hj⟩

theorem foldl_latencyHist (s : Stats) (l : List (Fin LATENCY_BUCKETS)) (c : CounterSnap) :
    l.foldl (fun c (i : Fin _) =>
        { c with
          latencyHist := c.latencyHist.set i (getElem s.latencyHist i i.isLt) i.isLt }) c =
      { c with
        latencyHist := l.foldl (fun w (i : Fin _) =>
          w.set i (getElem s.latencyHist i i.isLt) i.isLt) c.latencyHist } := by
  induction l generalizing c with
  | nil => rfl
  | cons i l ih => rw [List.foldl_cons, ih, List.foldl_cons]

theorem foldl_errorCodes (s : Stats) (l : List (Fin 256)) (c : CounterSnap) :
    l.foldl (fun c (i : Fin _) =>
        { c with
          errorCodes := c.errorCodes.set i (getElem s.errorCodes i (code_lt i)) (code_lt i) }) c =
      { c with
        errorCodes := l.foldl (fun w (i : Fin _) =>
          w.set i (getElem s.errorCodes i (code_lt i)) (code_lt i)) c.errorCodes } := by
  induction l generalizing c with
  | nil => rfl
  | cons i l ih => rw [List.foldl_cons, ih, List.foldl_cons]

/-- Performed at one moment, the accesses are the snapshot of that moment. -/
theorem foldl_loads (s : Stats) : loads.foldl (fun c f => f s c) {} = s.loadLifetime := by
  simp only [loads, List.foldl_append, List.foldl_map, foldl_latencyHist, foldl_errorCodes,
    foldl_set_finRange, List.foldl_cons, List.foldl_nil]
  rfl

/-- The other threads' atomic accesses. `recordLatencyMs` is five of them. -/
inductive Atom where
  | fetchAdd (c : Counter) (n : Nat)
  | addErrorCode (code : UInt8) (n : Nat)
  | latencySample
  | latencySum (ms : Nat)
  | latencyMax (ms : Nat)
  | windowLatencyMax (ms : Nat)
  | latencyBucket (i : Fin LATENCY_BUCKETS)
  | activeClients (d : Int)
  | suspendedClients (d : Int)

def Atom.apply (s : Stats) : Atom → Stats
  | .fetchAdd c n => s.fetchAdd n c
  | .addErrorCode code n => s.addErrorCode code n
  | .latencySample => { s with latencySamples := s.latencySamples + 1 }
  | .latencySum ms => { s with latencySumMs := s.latencySumMs + ms }
  | .latencyMax ms => { s with latencyMaxMs := max s.latencyMaxMs ms }
  | .windowLatencyMax ms => { s with windowLatencyMaxMs := max s.windowLatencyMaxMs ms }
  | .latencyBucket i =>
    { s with latencyHist := s.latencyHist.set i (getElem s.latencyHist i i.isLt + 1) i.isLt }
  | .activeClients d => { s with activeClients := s.activeClients + d }
  | .suspendedClients d => { s with suspendedClients := s.suspendedClients + d }

theorem recordLatencyMs_atoms (s : Stats) (ms : Int) :
    [Atom.latencySample, .latencySum ms.toNat, .latencyMax ms.toNat, .windowLatencyMax ms.toNat,
      .latencyBucket (bucketOf ms.toNat)].foldl Atom.apply s = s.recordLatencyMs ms := by
  simp only [List.foldl_cons, List.foldl_nil, Atom.apply, recordLatencyMs]

end Stats

/-- What a clock reading gives. -/
structure Clock where
  steady : Int
  epochSec : Nat

/-- An access of a thread that puts a blob together. -/
inductive Access where
  /-- The section of `statsJson` on the harness's own lock. -/
  | harness
  | rungId
  | windowOpenEpochSec
  | windowDurationSec
  | activeClients
  | suspendedClients
  /-- A load of the lifetime snapshot, or of the one `loadWindow` starts with. -/
  | lifetime (k : Nat)
  | now (k : Nat)
  /-- The locked section of `loadWindow`. -/
  | window
  | interval
  | setInterval
  deriving DecidableEq

inductive ReaderKind where
  | statsJson
  | closeRung
  | reporter
  deriving DecidableEq

def loadLifetime : List Access := (List.range Stats.loads.length).map .lifetime

def loadWindow : List Access := (List.range Stats.loads.length).map .now ++ [.window]

/-- What a reader does, access by access. -/
def ReaderKind.program : ReaderKind → List Access
  | .statsJson | .closeRung =>
    [.harness, .rungId, .windowOpenEpochSec, .windowDurationSec, .activeClients,
      .suspendedClients] ++ loadLifetime ++ loadWindow ++ [.interval]
  | .reporter =>
    loadLifetime ++ [.setInterval, .activeClients, .suspendedClients] ++ loadWindow ++
      [.rungId, .windowOpenEpochSec, .windowDurationSec]

/-- What a blob takes from `markWindow`. -/
inductive Part where
  | rungId
  | openEpochSec
  | window
  deriving DecidableEq

instance : Fintype Part := ⟨{.rungId, .openEpochSec, .window}, fun p => by cases p <;> simp⟩

/-- The accesses that read a part. -/
def Part.access : Part → Access
  | .rungId => .rungId
  | .openEpochSec => .windowOpenEpochSec
  | .window => .window

/-- A thread that puts a blob together: what is left to do, its locals, and the entry of the
history each part was read from. -/
structure Reader (K : Type*) where
  kind : ReaderKind
  todo : List Access
  blob : HostBlob K
  now : CounterSnap := {}
  steady : Int := 0
  versions : Versions Part := {}
  /-- How many latencies its mark had seen when the window was read. -/
  seen : Nat := 0

/-- One `markWindow`, and the latencies that went into `windowLatencyMaxMs` since. -/
structure Mark where
  id : String
  epochSec : Nat
  origin : CounterSnap
  latencies : List Nat := []

def Mark.record (m : Mark) : Stats.Atom → Mark
  | .windowLatencyMax ms => { m with latencies := m.latencies ++ [ms] }
  | _ => m

inductive OpenPhase where
  | check
  /-- `markWindow` has made so many accesses of its `loadLifetime`. -/
  | load (k : Nat) (now : CounterSnap)

structure Opener where
  id : String
  phase : OpenPhase

structure Rungs (K : Type*) where
  stats : Stats
  interval : IntervalRates K
  /-- The fields under the harness's own lock. -/
  harness : SnapshotMeta K
  /-- The reporter's previous snapshot and its time. -/
  prev : CounterSnap
  prevSteady : Int
  marks : List Mark
  openers : List Opener := []
  readers : List (Reader K) := []
  emitted : List (Reader K) := []

inductive RungEvent (K : Type*) where
  | atom (a : Stats.Atom)
  | setSignIn (reused mintedBefore mintedDuring : Int)
  | harness (h : SnapshotMeta K)
  | openRung (id : String)
  | openStep (i : Nat) (clock : Clock)
  | read (kind : ReaderKind)
  | readStep (i : Nat) (clock : Clock)

variable {K : Type*} [Field K] [LinearOrder K]

/-- The rates of one reporter interval. -/
def StatsReporter.rates (cur prev : CounterSnap) (dt : K) (epochSec : Nat) : IntervalRates K :=
  let dt := if dt ≤ 0 then 1 else dt
  let samples := cur.latencySamples - prev.latencySamples
  { dtSec := dt
    epochSec := epochSec
    txPps := ((cur.txPackets - prev.txPackets : Nat) : K) / dt
    txBps := ((cur.txBytes - prev.txBytes : Nat) : K) / dt
    rxDps := ((cur.rxDatagrams - prev.rxDatagrams : Nat) : K) / dt
    rxBps := ((cur.rxBytes - prev.rxBytes : Nat) : K) / dt
    rxNotifPs := ((cur.rxActorNotifications - prev.rxActorNotifications : Nat) : K) / dt
    avgLatencyMs :=
      if samples = 0 then 0 else ((cur.latencySumMs - prev.latencySumMs : Nat) : K) / samples }

/-- `windowDurationSec`. -/
def Stats.durationSec (s : Stats) (steady : Int) : K :=
  if s.windowOpenSteady = 0 then 0 else ((steady - s.windowOpenSteady : Int) : K) / 1000000000

namespace Rungs

/-- The entry of the history that is current. -/
def current (s : Rungs K) : Nat := s.marks.length - 1

/-- How many latencies the current mark has seen. -/
def seen (s : Rungs K) : Nat := (s.marks[s.current]?.map (·.latencies.length)).getD 0

def snapshot (r : Reader K) (m : SnapshotMeta K) : Reader K :=
  { r with blob := { r.blob with snapshot := m } }

/-- What an access leaves in the locals. -/
def access (s : Rungs K) (clock : Clock) (r : Reader K) : Access → Reader K
  | .harness =>
    snapshot r { r.blob.snapshot with
      instanceId := s.harness.instanceId
      indexBase := s.harness.indexBase
      used := s.harness.used
      limit := s.harness.limit
      busy := s.harness.busy
      addError := s.harness.addError
      replayLogging := s.harness.replayLogging
      replayLoggingRequested := s.harness.replayLoggingRequested
      replayLoggingAtEnd := s.harness.replayLoggingAtEnd }
  | .rungId =>
    { snapshot r { r.blob.snapshot with rungId := s.stats.rungId } with
      versions := r.versions.take .rungId s.current }
  | .windowOpenEpochSec =>
    { snapshot r { r.blob.snapshot with windowOpenEpochSec := s.stats.windowOpenEpochSec } with
      versions := r.versions.take .openEpochSec s.current }
  | .windowDurationSec =>
    snapshot r { r.blob.snapshot with windowDurationSec := s.stats.durationSec clock.steady }
  | .activeClients => snapshot r { r.blob.snapshot with activeClients := s.stats.activeClients }
  | .suspendedClients =>
    snapshot r { r.blob.snapshot with suspendedClients := s.stats.suspendedClients }
  | .lifetime k =>
    match Stats.loads[k]? with
    | some f => { r with blob := { r.blob with lifetime := f s.stats r.blob.lifetime } }
    | none => r
  | .now k =>
    match Stats.loads[k]? with
    | some f => { r with now := f s.stats r.now }
    | none => r
  | .window =>
    { r with
      blob := { r.blob with window := s.stats.windowSince r.now }
      versions := r.versions.take .window s.current
      seen := s.seen }
  | .interval => { r with blob := { r.blob with interval := s.interval } }
  | .setInterval =>
    { r with
      blob := { r.blob with
        interval := StatsReporter.rates r.blob.lifetime s.prev
          (((clock.steady - s.prevSteady : Int) : K) / 1000000000) clock.epochSec }
      steady := clock.steady }

def readStep (s : Rungs K) (i : Nat) (clock : Clock) : Option (Rungs K) :=
  match s.readers[i]? with
  | none => none
  | some r =>
    match r.todo with
    | [] =>
      some { s with
        prev := if r.kind = .reporter then r.blob.lifetime else s.prev
        prevSteady := if r.kind = .reporter then r.steady else s.prevSteady
        readers := s.readers.eraseIdx i
        emitted := s.emitted ++ [r] }
    | a :: todo =>
      let r' := s.access clock r a
      some { s with
        interval := if a = .setInterval then r'.blob.interval else s.interval
        readers := s.readers.set i { r' with todo := todo } }

/-- The locked section of `markWindow`. -/
def mark (s : Rungs K) (id : String) (now : CounterSnap) (clock : Clock) : Rungs K :=
  { s with
    stats := s.stats.openWindow now id clock.epochSec clock.steady
    marks := s.marks ++ [⟨id, clock.epochSec, now, []⟩]
    readers := s.readers.map fun r => { r with versions := r.versions.replaced } }

def openStep (s : Rungs K) (i : Nat) (clock : Clock) : Option (Rungs K) :=
  match s.openers[i]? with
  | none => none
  | some ⟨id, .check⟩ =>
    if s.harness.busy then some { s with openers := s.openers.eraseIdx i }
    else some { s with openers := s.openers.set i ⟨id, .load 0 {}⟩ }
  | some ⟨id, .load k now⟩ =>
    match Stats.loads[k]? with
    | some f => some { s with openers := s.openers.set i ⟨id, .load (k + 1) (f s.stats now)⟩ }
    | none => some { s.mark id now clock with openers := s.openers.eraseIdx i }

def step (s : Rungs K) : RungEvent K → Option (Rungs K)
  | .atom a =>
    some { s with
      stats := a.apply s.stats
      marks := s.marks.modify s.current (·.record a) }
  | .setSignIn reused mintedBefore mintedDuring =>
    some { s with stats := { s.stats with
      signInReused := reused
      signInMintedBefore := mintedBefore
      signInMintedDuring := mintedDuring } }
  | .harness h => some { s with harness := h }
  | .openRung id =>
    if id = "" then some s else some { s with openers := s.openers ++ [⟨id, .check⟩] }
  | .openStep i clock => s.openStep i clock
  | .read kind =>
    if kind = .reporter ∧ s.readers.any (·.kind = .reporter) then none
    else
      some { s with readers := s.readers ++
        [{ kind := kind
           todo := kind.program
           blob :=
            { snapshot := { windowDurationSec := 0 }
              lifetime := {}
              window := {}
              interval := ⟨0, 0, 0, 0, 0, 0, 0, 0⟩ } }] }
  | .readStep i clock => s.readStep i clock

/-- `start` has marked its own window before any of the threads runs. -/
structure Started (s : Rungs K) : Prop where
  marked : ∃ (stats : Stats) (epochSec : Nat) (steady : Int),
    s.stats = stats.markWindow "" epochSec steady ∧
      s.marks = [⟨"", epochSec, stats.loadLifetime, []⟩]
  openers : s.openers = []
  readers : s.readers = []
  emitted : s.emitted = []

variable (K) in
def system : System (Rungs K) (RungEvent K) := .ofPartial Started step

end Rungs

end CksLoadtest
