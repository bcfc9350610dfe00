import Mathlib.Data.List.Basic
import Mathlib.Algebra.Field.Defs
import Mathlib.Algebra.Order.Ring.Defs
import Mathlib.Algebra.Order.Floor.Defs
import CksLoadtest.Lib.Numerals

/-!
# Runtime configuration and its validation

`Config` carries the options the modelled code reads, with the defaults of the
header; a C `int` is an integer here and every place where its 32 bits matter
wraps explicitly. `validate` runs the checks in the order of the source and
answers the first message, the empty string when there is none; `none` stands
for the exception `std::stoi` throws on a malformed port. `double` options live in
an ordered field `K`.
-/
namespace CksLoadtest

/-- Two's complement value of an integer in a 32-bit `int`. -/
def int32 (x : Int) : Int := x.bmod (2 ^ 32)

theorem int32_of_fits {x : Int} (hl : -2 ^ 31 ≤ x) (hu : x < 2 ^ 31) : int32 x = x := by
  unfold int32
  exact Int.bmod_eq_of_le (by omega) (by omega)

theorem int32_le {x : Int} (h : 0 ≤ x) : int32 x ≤ x := by
  rcases lt_or_ge x (2 ^ 31) with hlt | hge
  · rw [int32_of_fits (by omega) hlt]
  · unfold int32
    have hbound := Int.bmod_lt (x := x) (m := 2 ^ 32) (by decide)
    omega

/-- Two's complement value of an integer in an `int64_t`. -/
def int64 (x : Int) : Int := x.bmod (2 ^ 64)

theorem int64_of_fits {x : Int} (hl : -2 ^ 63 ≤ x) (hu : x < 2 ^ 63) : int64 x = x := by
  unfold int64
  exact Int.bmod_eq_of_le (by omega) (by omega)

/-- `std::isspace` in the C locale. -/
def isSpace (c : Char) : Bool :=
  c = ' ' || c = '\t' || c = '\n' || c = '\x0b' || c = '\x0c' || c = '\r'

/-- `strtoll` in base 10: blanks, a sign, then the longest run of digits. -/
def parseInteger (s : List Char) : Option Int :=
  let s := s.dropWhile isSpace
  let (neg, ds) := match s with
    | '-' :: t => (true, t)
    | '+' :: t => (false, t)
    | t => (false, t)
  let digits := ds.takeWhile Char.isDigit
  if digits = [] then none
  else
    let n : Int := digits.foldl (fun a d => a * 10 + (d.toNat - 48 : Int)) 0
    some (if neg then -n else n)

/-- `std::stoi`. -/
def stoi (s : List Char) : Option Int :=
  (parseInteger s).filter fun v => -2 ^ 31 ≤ v && v < 2 ^ 31

/-- `std::stoll`. -/
def stoll (s : List Char) : Option Int64 :=
  ((parseInteger s).filter fun v => -2 ^ 63 ≤ v && v < 2 ^ 63).map Int64.ofInt

/-- `trim`: no blank, tab, CR or LF at either end. -/
def trim (s : List Char) : List Char :=
  let blank : Char → Bool := fun c => c = ' ' || c = '\t' || c = '\r' || c = '\n'
  ((s.dropWhile blank).reverse.dropWhile blank).reverse

/-- Parsed `LT_CONTROL_BIND`. -/
structure ControlBind where
  host : List Char := "127.0.0.1".toList
  port : Int := 9109
  loopback : Bool := true
  wildcard : Bool := false
  disabled : Bool := false

/-- The common tail of `parseControlBind`: default host and flags. -/
def ControlBind.finish (host : List Char) (port : Int) : ControlBind :=
  let host := if host = [] then "0.0.0.0".toList else host
  { host := host
    port := port
    wildcard := host = "0.0.0.0".toList || host = "*".toList || host = "::".toList
    loopback := host = "127.0.0.1".toList || host = "::1".toList || host = "localhost".toList }

def parseControlBind (spec : List Char) : Option ControlBind :=
  let s := trim spec
  if s = [] ∨ s = "off".toList ∨ s = "none".toList ∨ s = "disabled".toList then
    some { disabled := true }
  else
    match s with
    | '[' :: t =>
      match t.dropWhile (· ≠ ']') with
      -- no closing bracket: returned before the flags are set
      | [] => some { host := s }
      | _ :: rest =>
        let host := t.takeWhile (· ≠ ']')
        match rest with
        | ':' :: p => (stoi p).map fun port => ControlBind.finish host port
        | _ => some (ControlBind.finish host 9109)
    | _ =>
      match s.reverse.dropWhile (· ≠ ':') with
      | [] => some (ControlBind.finish s 9109)
      | _ :: revHost =>
        (stoi (s.reverse.takeWhile (· ≠ ':')).reverse).map fun port =>
          ControlBind.finish revHost.reverse port

structure Config (K : Type*) where
  email : String := ""
  password : String := ""
  provisioningToken : String := ""
  managementApiUrl : String := ""
  gameApiUrl : String := ""
  appId : Int64 := 0
  clients : Int := 10
  threads : Int := 1
  updateHz : Int := 10
  walkSpeed : K
  spawnRadiusChunks : Int := 8
  distance : Int := 8
  poseFormat : String := "ue5"
  chunkSizeUnits : K
  volumeChunks : Int := 0
  replayLogging : String := "leave"
  sparseRangeChunks : Int := 0
  sparseGroup : Int := 1
  volumeBaseUp : Int := 0
  permWindowRadiusChunks : Int := 8
  permReloadGraceMs : Int := 5000
  decay : Int := 1
  instanceId : String := ""
  indexBase : Int := 0
  indexLimit : Int := -1
  indexWidth : Int := 4
  controlBind : String := "127.0.0.1:9109"
  controlToken : String := ""
  statsDir : String := ""
  rampBatchSize : Int := 10
  rampIntervalMs : Int := 1000
  rxSilentReassignSec : Int := 0
  provisionConcurrency : Int := 4
  emailPattern : String := "{local}+lt-{index}@{domain}"
  rosterFile : String := ""
  rosterRequired : Bool := false
  verifyServerHmac : Bool := false
  socketRcvbufBytes : Int := 0
  clientCaps : Bool := true
  capsIntervalSec : Int := 15
  sessionSettleMs : Int := 1500
  tokenRefreshLeadSec : Int := 120

namespace Config

variable {K : Type*} (cfg : Config K)

def isSparse : Bool := 0 < cfg.sparseRangeChunks

def isBwf : Bool := cfg.poseFormat = "bwf"

/-- A password is waived when a required roster covers every client. -/
def needsPassword : Bool := cfg.rosterFile = "" || !cfg.rosterRequired

def parsedBind : Option ControlBind := parseControlBind cfg.controlBind.toList

/-- Chunk edge in position units, resolved per pose format when unset. -/
def effectiveChunkSize [Field K] [LinearOrder K] : K :=
  if 0 < cfg.chunkSizeUnits then cfg.chunkSizeUnits else if cfg.isBwf then 16 else 1600

def effectiveWalkSpeed [Field K] [LinearOrder K] : K :=
  if 0 < cfg.walkSpeed then cfg.walkSpeed else if cfg.isBwf then 4 else 150

/-- One check of `validate`: when it refuses, and the message it answers then. -/
structure Check where
  fails : Bool
  message : String
  stated : message ≠ "" := by simp

def firstError : List Check → String
  | [] => ""
  | c :: cs => if c.fails then c.message else firstError cs

def passwordChecks : List Check :=
  if cfg.needsPassword then
    [.mk (cfg.password = "" && cfg.rosterFile = "") "missing LT_PASSWORD / --password",
     .mk (cfg.password = "" && cfg.rosterFile ≠ "")
      ("missing LT_PASSWORD / --password: the roster may not cover every client and the rest " ++
        "must sign in. Set LT_ROSTER_REQUIRED=1 to refuse a short roster instead."),
     .mk (cfg.password.utf8ByteSize < 8) "LT_PASSWORD must be at least 8 characters (API minimum)"]
  else []

def emailChecks : List Check :=
  [.mk (cfg.email = "") "missing LT_EMAIL / --email",
   .mk (!cfg.email.toList.contains '@') "LT_EMAIL must be a full email address"]

def rangeChecks : List Check :=
  [.mk (cfg.managementApiUrl = "") "missing LT_MANAGEMENT_API_URL / --management-api-url",
   .mk (cfg.appId ≤ 0) "missing/invalid LT_APP_ID / --app-id",
   .mk (cfg.clients < 0) "LT_CLIENTS must be >= 0",
   .mk (cfg.threads < 1) "LT_THREADS must be >= 1",
   .mk (cfg.updateHz < 1 || 1000 < cfg.updateHz) "LT_UPDATE_HZ must be in [1, 1000]",
   .mk (cfg.distance < 0 || 255 < cfg.distance) "LT_DISTANCE must be in [0, 255]",
   .mk (cfg.poseFormat ≠ "ue5" && cfg.poseFormat ≠ "bwf") "LT_POSE_FORMAT must be 'ue5' or 'bwf'",
   .mk (cfg.volumeChunks < 0 || 64 < cfg.volumeChunks) "LT_VOLUME_CHUNKS must be in [0, 64]",
   .mk (cfg.replayLogging ≠ "on" && cfg.replayLogging ≠ "off" && cfg.replayLogging ≠ "leave")
     "LT_REPLAY_LOGGING must be 'on', 'off' or 'leave'",
   .mk (cfg.sparseRangeChunks < 0 || 1000000000 < cfg.sparseRangeChunks)
     "LT_SPARSE_RANGE_CHUNKS must be in [0, 1e9]",
   .mk (0 < cfg.sparseRangeChunks && 0 < cfg.volumeChunks)
     "LT_SPARSE_RANGE_CHUNKS and LT_VOLUME_CHUNKS are exclusive population shapes",
   .mk (cfg.sparseGroup < 1) "LT_SPARSE_GROUP must be >= 1",
   .mk (cfg.spawnRadiusChunks < 0) "LT_SPAWN_RADIUS_CHUNKS must be >= 0",
   .mk (cfg.permWindowRadiusChunks < 0) "LT_PERMISSION_WINDOW_RADIUS_CHUNKS must be >= 0",
   .mk (cfg.permReloadGraceMs < 0) "LT_PERMISSION_RELOAD_GRACE_MS must be >= 0",
   .mk (cfg.decay < 0 || 5 < cfg.decay) "LT_DECAY must be in [0, 5]",
   .mk (cfg.provisionConcurrency < 1) "LT_PROVISION_CONCURRENCY must be >= 1",
   .mk (cfg.rampBatchSize < 1) "LT_RAMP_BATCH_SIZE must be >= 1",
   .mk (cfg.rxSilentReassignSec < 0) "LT_RX_SILENT_REASSIGN_SEC must be >= 0",
   .mk (cfg.socketRcvbufBytes < 0) "LT_SOCKET_RCVBUF_BYTES must be >= 0",
   .mk (cfg.indexBase < 0) "LT_INDEX_BASE must be >= 0",
   .mk (cfg.indexWidth < 1 || 16 < cfg.indexWidth) "LT_INDEX_WIDTH must be in [1, 16]",
   .mk (cfg.indexLimit < 0) "LT_INDEX_LIMIT must be >= 0",
   .mk (cfg.indexLimit < cfg.clients) "LT_INDEX_LIMIT must be >= LT_CLIENTS"]

def fieldChecks : List Check := cfg.emailChecks ++ (cfg.passwordChecks ++ cfg.rangeChecks)

def bindChecks (bind : ControlBind) : List Check :=
  (if bind.disabled then []
   else
    [.mk (bind.port < 1 || 65535 < bind.port) "LT_CONTROL_BIND port out of range",
     .mk (!bind.loopback && cfg.controlToken = "")
       ("LT_CONTROL_TOKEN is required when LT_CONTROL_BIND is not loopback (a fleet bind " ++
         "without a token would accept unauthenticated adds)")]) ++
  [.mk (cfg.clients = 0 && bind.disabled)
    ("LT_CLIENTS is 0 and the control port is off: nothing would run. Set LT_CLIENTS > 0 or " ++
      "enable LT_CONTROL_BIND so an agent can add clients")]

def validate : Option String :=
  let err := firstError cfg.fieldChecks
  if err ≠ "" then some err
  else cfg.parsedBind.map fun bind => firstError (cfg.bindChecks bind)

/-- The configurations the process runs with. -/
def Accepted : Prop := cfg.validate = some ""

theorem firstError_eq_empty (cs : List Check) :
    firstError cs = "" ↔ ∀ c ∈ cs, c.fails = false := by
  induction cs with
  | nil => simp [firstError]
  | cons c cs ih =>
    rw [firstError, List.forall_mem_cons, ← ih]
    cases hf : c.fails <;> simp [c.stated]

/-- An accepted configuration passes every field check. -/
theorem Accepted.passes {cfg : Config K} (h : cfg.Accepted) :
    ∀ c ∈ cfg.fieldChecks, c.fails = false := by
  rw [← firstError_eq_empty]
  by_contra hne
  simp only [Accepted, validate, ne_eq, hne, not_false_eq_true, if_true, Option.some.injEq] at h

end Config

end CksLoadtest
