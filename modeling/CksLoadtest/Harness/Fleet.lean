import Mathlib.Data.Rat.Floor
import CksLoadtest.Lib.Transition
import CksLoadtest.Provision.Range

/-!
# Start slice and hot-adds

`Harness` from its start to its stop, as far as clients are concerned: the main thread,
any number of add threads, the HTTP requests and the signal, with one event for each
mutex-protected section, each step of a provisioning thread and each client handed to a
worker. The control server is up between the end of `start` and `ControlServer::stop`.
-/
namespace CksLoadtest.Harness

open Lib Lib.Transition

/-- Which part of the process sent an operation. -/
inductive Origin where
  | replayLogging
  | provisioning
  | control
  deriving DecidableEq, Repr

inductive AddPhase where
  | provisioning (r : Range)
  /-- `provisionRange` returned nothing. -/
  | failed
  | distributing (todo : List ClientCredentials)

/-- An add thread between `requestAdd` and the end of `runAdd`. -/
structure Add where
  count : Int
  globalStart : Int
  phase : AddPhase

inductive MainPhase where
  | notStarted
  /-- `start` has returned false. -/
  | refused
  | provisioning (r : Range)
  | distributing (todo : List ClientCredentials)
  | running
  /-- The control server is down. -/
  | stopping

instance : (m : MainPhase) → Decidable (m = .running)
  | .running => isTrue rfl
  | .notStarted | .refused | .provisioning _ | .distributing _ | .stopping =>
    isFalse MainPhase.noConfusion

structure Fleet where
  provisioner : Option Roster := none
  main : MainPhase := .notStarted
  stop : Bool := false
  used : Int := 0
  busy : Bool := false
  addError : String := ""
  adds : List Add := []
  endObserved : Bool := false
  /-- The calls of `addClient`, with the worker, in order. -/
  given : List (Int × ClientCredentials) := []
  sent : List (Origin × Operation) := []

/-- The calls of the control loop. -/
inductive ControlCall where
  | refresh
  | legacyRefresh
  | assign
  deriving DecidableEq, Repr

def ControlCall.operation : ControlCall → Operation
  | .refresh => .refresh
  | .legacyRefresh => .legacyRefresh
  | .assign => .assign

inductive Event (K : Type*) where
  | start (file : RosterFile K) (api : ReplayApi)
  | startStep (e : RangeEvent)
  | startJoin
  | startGive
  | requestAdd (count : Int)
  | addStep (k : Nat) (e : RangeEvent)
  | addJoin (k : Nat)
  | addGive (k : Nat)
  | addEnd (k : Nat)
  | control (call : ControlCall)
  | signal
  | observeEnd (api : ReplayApi)
  | httpStop

namespace Fleet

variable {K : Type*} [Ring K] [LinearOrder K] [FloorRing K]
  (parseIso8601Utc : String → Int) (cfg : Config K)

def log (s : Fleet) (origin : Origin) (ops : List Operation) : Fleet :=
  { s with sent := s.sent ++ ops.map fun op => (origin, op) }

/-- The worker `distribute` picks for a client. -/
def workerOf (c : ClientCredentials) : Int :=
  let w := c.index.tmod cfg.threads
  if w < 0 then 0 else w

/-- One turn of the loop in `distribute`. -/
def give (s : Fleet) (c : ClientCredentials) : Fleet :=
  { s with given := s.given ++ [(workerOf cfg c, c)] }

/-- `start`, up to the start of `provisionAll`'s threads. -/
def start (s : Fleet) (file : RosterFile K) (api : ReplayApi) : Fleet :=
  match Roster.load parseIso8601Utc cfg file with
  | .error _ => { s with main := .refused }
  | .ok roster =>
    let s := { s with provisioner := some roster }
    let set : List Operation × Bool :=
      if cfg.replayLogging = "leave" then ([], true)
      else Provisioner.setReplayLogging (cfg.replayLogging = "on") api
    let s := s.log .replayLogging set.1
    if ¬ set.2 then { s with main := .refused }
    else
      let s := s.log .replayLogging (Provisioner.readReplayLogging api).1
      if 0 < cfg.clients then
        match Range.start cfg roster cfg.indexBase cfg.clients with
        | none => { s with main := .refused }
        | some r => { s with main := .provisioning r }
      else { s with main := .running }

/-- The answer of `requestAdd`; empty for an accepted request. -/
def requestAddError (s : Fleet) (count : Int) : String :=
  if count < 1 then "count must be >= 1"
  else if s.busy then "busy: an add is already running"
  else if cfg.indexLimit < int32 (s.used + count) then
    "add would exceed LT_INDEX_LIMIT (" ++ toString cfg.indexLimit ++ "); used=" ++ toString s.used
  else ""

/-- An accepted request: the range is reserved, and the add thread started. -/
def acceptAdd (s : Fleet) (roster : Roster) (count : Int) : Fleet :=
  let globalStart := int32 (cfg.indexBase + s.used)
  let phase : AddPhase :=
    match Range.start cfg roster globalStart count with
    | some r => .provisioning r
    | none => .failed
  { s with busy := true, addError := "", adds := s.adds ++ [⟨count, globalStart, phase⟩] }

def setAdd (s : Fleet) (k : Nat) (a : Add) : Fleet := { s with adds := s.adds.set k a }

/-- The last section of `runAdd`. -/
def endAdd (s : Fleet) (k : Nat) (a : Add) : Option Fleet :=
  match a.phase with
  | .failed =>
    some { s with
      busy := false
      addError := if s.stop then "add aborted" else "provisioning failed (see logs)"
      adds := s.adds.eraseIdx k }
  | .distributing [] =>
    some { s with
      used := int32 (s.used + a.count)
      busy := false
      addError := ""
      adds := s.adds.eraseIdx k }
  | _ => none

def step (s : Fleet) : Event K → Option Fleet
  | .start file api =>
    match s.main with
    | .notStarted => some (s.start parseIso8601Utc cfg file api)
    | _ => none
  | .startStep e =>
    match s.main, s.provisioner with
    | .provisioning r, some roster =>
      (r.step cfg roster s.stop e).map fun next =>
        { s with main := .provisioning next.1 }.log .provisioning next.2
    | _, _ => none
  | .startJoin =>
    match s.main with
    | .provisioning r =>
      if r.joined then
        let creds := r.result s.stop
        if creds = [] then some { s with main := .refused }
        else some { s with used := creds.length, main := .distributing creds }
      else none
    | _ => none
  | .startGive =>
    match s.main with
    | .distributing [] => some { s with main := .running }
    | .distributing (c :: todo) => some ({ s with main := .distributing todo }.give cfg c)
    | _ => none
  | .requestAdd count =>
    match s.main, s.provisioner with
    | .running, some roster =>
      if s.requestAddError cfg count = "" then some (s.acceptAdd cfg roster count) else some s
    | _, _ => none
  | .addStep k e =>
    match s.adds[k]?, s.provisioner with
    | some ⟨count, globalStart, .provisioning r⟩, some roster =>
      (r.step cfg roster s.stop e).map fun next =>
        (s.setAdd k ⟨count, globalStart, .provisioning next.1⟩).log .provisioning next.2
    | _, _ => none
  | .addJoin k =>
    match s.adds[k]? with
    | some ⟨count, globalStart, .provisioning r⟩ =>
      if r.joined then
        let creds := r.result s.stop
        let phase : AddPhase := if creds = [] then .failed else .distributing creds
        some (s.setAdd k ⟨count, globalStart, phase⟩)
      else none
    | _ => none
  | .addGive k =>
    match s.adds[k]? with
    | some ⟨count, globalStart, .distributing (c :: todo)⟩ =>
      some ((s.setAdd k ⟨count, globalStart, .distributing todo⟩).give cfg c)
    | _ => none
  | .addEnd k =>
    match s.adds[k]? with
    | some a => s.endAdd k a
    | none => none
  | .control call =>
    match s.main with
    | .running | .stopping => some (s.log .control [call.operation])
    | _ => none
  | .signal => some { s with stop := true }
  | .observeEnd api =>
    match s.main with
    | .running | .stopping =>
      if s.endObserved then some s
      else
        some ({ s with endObserved := true }.log .replayLogging
          (Provisioner.readReplayLogging api).1)
    | _ => none
  | .httpStop =>
    match s.main with
    | .running => some { s with main := .stopping }
    | _ => none

theorem log_log (s : Fleet) (o : Origin) (ops more : List Operation) :
    (s.log o ops).log o more = s.log o (ops ++ more) := by
  simp [log]

/-- What `start` does: refuse the roster, or report the replay logging and go on. -/
theorem start_cases (s : Fleet) (file : RosterFile K) (api : ReplayApi) :
    (∃ thrown, Roster.load parseIso8601Utc cfg file = .error thrown ∧
      s.start parseIso8601Utc cfg file api = { s with main := .refused }) ∨
    ∃ roster main ops, Roster.load parseIso8601Utc cfg file = .ok roster ∧
      s.start parseIso8601Utc cfg file api =
        { s with provisioner := some roster, main := main }.log .replayLogging ops ∧
      (cfg.replayLogging = "leave" → ops = (Provisioner.readReplayLogging api).1) ∧
      (main = .refused ∨ main = .running ∨ ∃ r, main = .provisioning r ∧
        Range.start cfg roster cfg.indexBase cfg.clients = some r) := by
  unfold start
  cases Roster.load parseIso8601Utc cfg file with
  | error thrown => exact .inl ⟨thrown, rfl, rfl⟩
  | ok roster =>
    right
    refine ⟨roster, ?_⟩
    have hset : cfg.replayLogging = "leave" → (if cfg.replayLogging = "leave" then ([], true)
        else Provisioner.setReplayLogging (cfg.replayLogging = "on") api) = ([], true) :=
      fun hleave => if_pos hleave
    dsimp only
    generalize (if cfg.replayLogging = "leave" then (([], true) : List Operation × Bool)
      else Provisioner.setReplayLogging (cfg.replayLogging = "on") api) = set at hset
    split
    · rename_i hfailed
      refine ⟨.refused, set.1, rfl, rfl, fun hleave => ?_, .inl rfl⟩
      rw [hset hleave] at hfailed
      exact absurd rfl hfailed
    · have hops : cfg.replayLogging = "leave" →
          set.1 ++ (Provisioner.readReplayLogging api).1 = (Provisioner.readReplayLogging api).1 :=
        fun hleave => by rw [hset hleave]; rfl
      rw [log_log]
      split
      · cases hr : Range.start cfg roster cfg.indexBase cfg.clients with
        | none => exact ⟨.refused, _, rfl, rfl, hops, .inl rfl⟩
        | some r => exact ⟨.provisioning r, _, rfl, rfl, hops, .inr (.inr ⟨r, rfl, rfl⟩)⟩
      · exact ⟨.running, _, rfl, rfl, hops, .inr (.inl rfl)⟩

/-- What a step can do, with what it asks for. -/
inductive Steps (s : Fleet) : Event K → Fleet → Prop
  | start {file : RosterFile K} {api : ReplayApi} (hm : s.main = .notStarted) :
      Steps s (.start file api) (s.start parseIso8601Utc cfg file api)
  | startStep {e : RangeEvent} {r r' : Range} {roster : Roster} {ops : List Operation}
      (hm : s.main = .provisioning r) (hroster : s.provisioner = some roster)
      (hr : r.step cfg roster s.stop e = some (r', ops)) :
      Steps s (.startStep e) ({ s with main := .provisioning r' }.log .provisioning ops)
  | startFailed {r : Range} (hm : s.main = .provisioning r) (hj : r.joined = true)
      (hempty : r.result s.stop = []) : Steps s .startJoin { s with main := .refused }
  | startJoined {r : Range} (hm : s.main = .provisioning r) (hj : r.joined = true)
      (hne : r.result s.stop ≠ []) :
      Steps s .startJoin
        { s with
          used := (r.result s.stop).length
          main := .distributing (r.result s.stop) }
  | startDone (hm : s.main = .distributing []) : Steps s .startGive { s with main := .running }
  | startGive {c : ClientCredentials} {todo : List ClientCredentials}
      (hm : s.main = .distributing (c :: todo)) :
      Steps s .startGive ({ s with main := .distributing todo }.give cfg c)
  | addRefused {count : Int} (hm : s.main = .running) : Steps s (.requestAdd count) s
  | addAccepted {count : Int} {roster : Roster} (hm : s.main = .running)
      (hroster : s.provisioner = some roster) (he : s.requestAddError cfg count = "") :
      Steps s (.requestAdd count) (s.acceptAdd cfg roster count)
  | addStep {k : Nat} {e : RangeEvent} {count globalStart : Int} {r r' : Range} {roster : Roster}
      {ops : List Operation} (hk : s.adds[k]? = some ⟨count, globalStart, .provisioning r⟩)
      (hroster : s.provisioner = some roster)
      (hr : r.step cfg roster s.stop e = some (r', ops)) :
      Steps s (.addStep k e)
        ((s.setAdd k ⟨count, globalStart, .provisioning r'⟩).log .provisioning ops)
  | addJoin {k : Nat} {count globalStart : Int} {r : Range}
      (hk : s.adds[k]? = some ⟨count, globalStart, .provisioning r⟩) (hj : r.joined = true) :
      Steps s (.addJoin k)
        (s.setAdd k ⟨count, globalStart,
          if r.result s.stop = [] then .failed else .distributing (r.result s.stop)⟩)
  | addGive {k : Nat} {count globalStart : Int} {c : ClientCredentials}
      {todo : List ClientCredentials}
      (hk : s.adds[k]? = some ⟨count, globalStart, .distributing (c :: todo)⟩) :
      Steps s (.addGive k) ((s.setAdd k ⟨count, globalStart, .distributing todo⟩).give cfg c)
  | addEnd {k : Nat} {a : Add} {s' : Fleet} (hk : s.adds[k]? = some a)
      (hend : s.endAdd k a = some s') : Steps s (.addEnd k) s'
  | control {call : ControlCall} (hm : s.main = .running ∨ s.main = .stopping) :
      Steps s (.control call) (s.log .control [call.operation])
  | signal : Steps s .signal { s with stop := true }
  | endSeen {api : ReplayApi} (hm : s.main = .running ∨ s.main = .stopping) :
      Steps s (.observeEnd api) s
  | observeEnd {api : ReplayApi} (hm : s.main = .running ∨ s.main = .stopping) :
      Steps s (.observeEnd api)
        ({ s with endObserved := true }.log .replayLogging (Provisioner.readReplayLogging api).1)
  | httpStop (hm : s.main = .running) : Steps s .httpStop { s with main := .stopping }

/-- **What a step can do.** -/
theorem step_cases {s s' : Fleet} {e : Event K} (hs : s.step parseIso8601Utc cfg e = some s') :
    Steps parseIso8601Utc cfg s e s' := by
  cases e with
  | start file api =>
    simp only [step] at hs
    split at hs <;> cases hs
    exact .start ‹_›
  | startStep e =>
    simp only [step] at hs
    split at hs
    · obtain ⟨⟨r', ops⟩, hr, rfl⟩ := Option.map_eq_some_iff.mp hs
      exact .startStep ‹_› ‹_› hr
    · cases hs
  | startJoin =>
    simp only [step] at hs
    split at hs
    · split at hs
      · split at hs <;> cases hs
        · exact .startFailed ‹_› ‹_› ‹_›
        · exact .startJoined ‹_› ‹_› ‹_›
      · cases hs
    · cases hs
  | startGive =>
    simp only [step] at hs
    split at hs <;> cases hs
    · exact .startDone ‹_›
    · exact .startGive ‹_›
  | requestAdd count =>
    simp only [step] at hs
    split at hs
    · split at hs <;> cases hs
      · exact .addAccepted ‹_› ‹_› ‹_›
      · exact .addRefused ‹_›
    · cases hs
  | addStep k e =>
    simp only [step] at hs
    split at hs
    · obtain ⟨⟨r', ops⟩, hr, rfl⟩ := Option.map_eq_some_iff.mp hs
      exact .addStep ‹_› ‹_› hr
    · cases hs
  | addJoin k =>
    simp only [step] at hs
    split at hs
    · split at hs <;> cases hs
      exact .addJoin ‹_› ‹_›
    · cases hs
  | addGive k =>
    simp only [step] at hs
    split at hs <;> cases hs
    exact .addGive ‹_›
  | addEnd k =>
    simp only [step] at hs
    split at hs
    · exact .addEnd ‹_› hs
    · cases hs
  | control call =>
    simp only [step] at hs
    split at hs <;> cases hs
    · exact .control (.inl ‹_›)
    · exact .control (.inr ‹_›)
  | signal =>
    obtain rfl := Option.some.inj hs
    exact .signal
  | observeEnd api =>
    simp only [step] at hs
    split at hs
    · split at hs <;> cases hs
      · exact .endSeen (.inl ‹_›)
      · exact .observeEnd (.inl ‹_›)
    · split at hs <;> cases hs
      · exact .endSeen (.inr ‹_›)
      · exact .observeEnd (.inr ‹_›)
    · cases hs
  | httpStop =>
    simp only [step] at hs
    split at hs <;> cases hs
    exact .httpStop ‹_›

/-- The last section of an add takes it off the list; otherwise it writes the answer. -/
theorem endAdd_erases {s s' : Fleet} {k : Nat} {a : Add} (h : s.endAdd k a = some s') :
    s'.main = s.main ∧ s'.adds = s.adds.eraseIdx k ∧ s'.provisioner = s.provisioner ∧
      s'.stop = s.stop ∧ s'.given = s.given ∧ s'.sent = s.sent := by
  unfold endAdd at h
  split at h <;> cases h
  · exact ⟨rfl, rfl, rfl, rfl, rfl, rfl⟩
  · exact ⟨rfl, rfl, rfl, rfl, rfl, rfl⟩

end Fleet

/-- A process with its configuration. -/
def system {K : Type*} [Ring K] [LinearOrder K] [FloorRing K] (parseIso8601Utc : String → Int)
    (cfg : Config K) : System Fleet (Event K) :=
  .ofPartial (fun s => s = {}) (Fleet.step parseIso8601Utc cfg)

/-! A process that can be executed: one worker, accounts that exist, and no roster. -/
namespace Sample

def config : Config ℚ :=
  { walkSpeed := -1, chunkSizeUnits := -1, email := "bot@example.com", password := "password",
    managementApiUrl := "https://api.example.com", gameApiUrl := "https://game.example.com",
    appId := 1, clients := 1, indexLimit := 2, provisionConcurrency := 1 }

def client : ClientApi where
  signIn :=
    { login := fun _ => .ok (some "session")
      register := fun _ => .error {}
      loginAgain := fun _ => .error {} }
  mint :=
    { mint := fun _ => .ok
        { token := some (List.replicate Hmac.TOKEN_OCTETS 97), gameTokenId := some 1,
          expiresAt := some 1000000000000000000 }
      consents := fun _ => .error {}
      mintAgain := fun _ => .error {} }
  bootstrap _ := .ok ()
  assign :=
    { assign := fun _ => .ok { ip4 := some "10.0.0.1", clientPort := some 7000 }
      now := 1 }

def replay : ReplayApi where
  login _ := .ok (some "session")
  read _ := .ok (some false)
  setLogin _ := .error {}
  set _ := .error {}

/-- One thread provisions `n` clients and finds no further one. -/
def provisions (api : ClientApi) : Nat → List RangeEvent
  | 0 => [.claim 0, .check 0]
  | n + 1 => .claim 0 :: .check 0 :: .provision 0 api :: provisions api n

/-- The initial load of `n` clients. -/
def loads (file : RosterFile ℚ) (n : Nat) : List (Event ℚ) :=
  .start file replay :: (provisions client n).map .startStep ++
    .startJoin :: List.replicate (n + 1) .startGive

end Sample

end CksLoadtest.Harness
