import CksLoadtest.Control.Api
import CksLoadtest.Worker.Lifecycle

/-!
# The control loop's request

One turn of `controlLoop`, cut at its API calls: a popped request is refreshed when
it asks for that, placed, and answered. Fields called history are read by no step.
-/
namespace CksLoadtest

/-- A queued request. -/
structure ControlRequest (n : Nat) where
  workerIndex : Fin n
  clientIndex : Nat
  kind : Kind
  creds : ClientCredentials
  /-- History: pushed by `suspendClient`, not by the proactive refresh. -/
  suspension : Bool
  /-- History: the position among all requests ever pushed. -/
  ticket : Nat
  deriving DecidableEq

/-- A request of client `i` of worker `w`. -/
def ControlRequest.IsFor {n : Nat} (w : Fin n) (i : Nat) (r : ControlRequest n) : Prop :=
  r.workerIndex = w ∧ r.clientIndex = i

instance {n : Nat} (w : Fin n) (i : Nat) (r : ControlRequest n) : Decidable (r.IsFor w i) := by
  unfold ControlRequest.IsFor
  infer_instance

/-- An answered request on its way to the worker. -/
structure ClientUpdate (n : Nat) extends Update where
  /-- History: the request this answers. -/
  request : ControlRequest n
  /-- History: `refreshToken` returned for it. -/
  refreshed : Bool
  deriving DecidableEq

/-- `update.clientIndex = req.clientIndex`. -/
def ClientUpdate.clientIndex {n : Nat} (u : ClientUpdate n) : Nat := u.request.clientIndex

/-- An update applied to a slot, with the index of the client found there. -/
structure Applied (n : Nat) where
  worker : Fin n
  slot : Nat
  index : Int
  update : ClientUpdate n
  deriving DecidableEq

/-- A `refreshToken` call that returned, and the pair it returned. -/
structure Refreshed (n : Nat) where
  worker : Fin n
  slot : Nat
  pair : Int64 × Lib.Buffer.Bytes
  deriving DecidableEq

/-- Where the control thread stands in a turn. -/
inductive Phase where
  | refreshing
  | placing (attempt : Nat)
  | finished (failed : Bool)
  deriving DecidableEq

/-- The request being processed: `req` and `update` of the loop body. -/
structure Job (n : Nat) where
  request : ControlRequest n
  creds : ClientCredentials
  phase : Phase
  previousIp4 : String
  previousPort : UInt16
  /-- History: `refreshToken` returned for it. -/
  refreshed : Bool
  deriving DecidableEq

namespace Job

variable {K : Type*} {n : Nat} (cfg : Config K)

/-- The turn begins: only a REFRESH calls `refreshToken`. -/
def start (r : ControlRequest n) : Job n where
  request := r
  creds := r.creds
  phase := if r.kind = .refresh then .refreshing else .placing 1
  previousIp4 := r.creds.serverIp4
  previousPort := r.creds.serverPort
  refreshed := false

/-- `refreshToken` and what follows it up to the placement loop. -/
def refresh (legacyRefresh : Bool) (api : RefreshApi) (j : Job n) :
    Bool × Job n × List Counter :=
  let (legacy, creds, result) := Provisioner.refreshToken cfg legacyRefresh api j.creds
  match result with
  | .error _ =>
    (legacy, { j with creds := creds, phase := .finished true }, [.controlFailures])
  | .ok keptServer =>
    (legacy,
      { j with
        creds := creds
        phase := if keptServer then .finished false else .placing 1
        previousIp4 := creds.serverIp4
        previousPort := creds.serverPort
        refreshed := true },
      .tokenRefreshes :: if keptServer then [.refreshesKeptServer] else [])

/-- One attempt of the placement loop; the fifteenth failure, and any failure after
the shutdown, is given up on. -/
def place (isShutdown : Bool) (attempt : Nat) (api : AssignApi) (j : Job n) :
    Job n × List Counter :=
  let (creds, result) := Provisioner.assignServer cfg api j.creds
  match result with
  | .ok () =>
    let moved : Bool := creds.serverIp4 ≠ j.previousIp4 ∨ creds.serverPort ≠ j.previousPort
    ({ j with creds := creds, phase := .finished false },
      if j.request.kind ≠ .refresh ∨ moved then [.reassignments] else [])
  | .error _ =>
    if 15 ≤ attempt ∨ isShutdown then
      ({ j with creds := creds, phase := .finished true }, [.controlFailures])
    else ({ j with creds := creds, phase := .placing (attempt + 1) }, [])

/-- The update `postUpdate` delivers. -/
def update (failed : Bool) (j : Job n) : ClientUpdate n where
  failed := failed
  creds := j.creds
  request := j.request
  refreshed := j.refreshed

/-- The turn's own calls left to make, at most. -/
def callsLeft (j : Job n) : Nat :=
  match j.phase with
  | .refreshing => 17
  | .placing attempt => 16 - attempt + 1
  | .finished _ => 1

@[simp] theorem start_request (r : ControlRequest n) : (start r).request = r := rfl
@[simp] theorem start_creds (r : ControlRequest n) : (start r).creds = r.creds := rfl
@[simp] theorem start_refreshed (r : ControlRequest n) : (start r).refreshed = false := rfl
@[simp] theorem update_request (failed : Bool) (j : Job n) :
    (j.update failed).request = j.request := rfl

/-- **What a refresh can do**: it returns and the job carries the new pair, or it
throws and the job is given up with no call to its credit. -/
theorem refresh_cases (legacyRefresh : Bool) (api : RefreshApi) (j : Job n) :
    ∃ creds, creds.index = j.creds.index ∧
      ((∃ kept : Bool, (j.refresh cfg legacyRefresh api).2.1 =
          { j with
            creds := creds
            phase := if kept then .finished false else .placing 1
            previousIp4 := creds.serverIp4
            previousPort := creds.serverPort
            refreshed := true }) ∨
        (j.refresh cfg legacyRefresh api).2.1 =
          { j with creds := creds, phase := .finished true }) := by
  refine ⟨_, Provisioner.refreshToken_index cfg legacyRefresh api j.creds, ?_⟩
  unfold refresh
  rcases hr : Provisioner.refreshToken cfg legacyRefresh api j.creds with ⟨legacy, creds, result⟩
  cases result with
  | error e => exact .inr rfl
  | ok kept => exact .inl ⟨kept, rfl⟩

theorem place_phase (isShutdown : Bool) (attempt : Nat) (api : AssignApi) (j : Job n) :
    (j.place cfg isShutdown attempt api).1.phase =
      match (Provisioner.assignServer cfg api j.creds).2 with
      | .ok _ => .finished false
      | .error _ =>
        if 15 ≤ attempt ∨ isShutdown then .finished true else .placing (attempt + 1) := by
  unfold place
  rcases Provisioner.assignServer cfg api j.creds with ⟨creds, result⟩
  cases result with
  | ok u => rfl
  | error e =>
    dsimp only
    split <;> rfl

/-- **What a placement attempt can do**: succeed, be given up on, or be repeated. The
token pair and the index stay. -/
theorem place_cases (isShutdown : Bool) (attempt : Nat) (api : AssignApi) (j : Job n) :
    ∃ creds, creds.index = j.creds.index ∧
      Provisioner.tokenPair creds = Provisioner.tokenPair j.creds ∧
      ((j.place cfg isShutdown attempt api).1 =
          { j with creds := creds, phase := .finished false } ∨
        (j.place cfg isShutdown attempt api).1 =
          { j with creds := creds, phase := .finished true } ∨
        (attempt < 15 ∧ (j.place cfg isShutdown attempt api).1 =
          { j with creds := creds, phase := .placing (attempt + 1) })) := by
  refine ⟨_, Provisioner.assignServer_index cfg api j.creds,
    Provisioner.assignServer_tokenPair cfg api j.creds, ?_⟩
  unfold place
  rcases hr : Provisioner.assignServer cfg api j.creds with ⟨creds, result⟩
  cases result with
  | ok u => exact .inl rfl
  | error e =>
    dsimp only
    split
    · exact .inr (.inl rfl)
    · rename_i hl
      rw [not_or] at hl
      exact .inr (.inr ⟨by omega, rfl⟩)

end Job

end CksLoadtest
