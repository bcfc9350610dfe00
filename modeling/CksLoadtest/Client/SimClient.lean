import Mathlib.Algebra.Order.Floor.Defs
import CksLoadtest.Config
import CksLoadtest.Wire.Encode

/-!
# One simulated client

The client record, its movement and its prebuilt message. Arithmetic on `double`s
is exact arithmetic in an ordered field `K`; clock readings are nanoseconds, and
`steadySeconds` is a reading in seconds. Random draws are inputs.
-/
namespace CksLoadtest

open Lib.Buffer

/-- Everything a simulated client needs to talk to a Buddy server. -/
structure ClientCredentials where
  index : Int := 0
  email : String := ""
  sessionToken : String := ""
  appToken : Bytes := []
  gameTokenId : Int64 := 0
  gameApiUrl : String := ""
  tokenExpiresAt : Int := 0
  serverIp4 : String := ""
  serverPort : UInt16 := 0
  udpReadyAt : Int := 0
  deriving DecidableEq

/-- `SimClient::State`. -/
inductive State where
  | waiting
  | active
  | suspended
  deriving DecidableEq, Repr

/-- The peer `connect()` pinned an open socket to. -/
structure Peer where
  addr : UInt32
  port : UInt16
  deriving DecidableEq

structure Vec (K : Type*) where
  x : K
  y : K
  z : K
  deriving DecidableEq

namespace Vec

variable {K : Type*}

/-- The first horizontal world axis; UE5 is Z-up, BWF is Y-up. -/
def h1 (v : Vec K) : K := v.x
def h2 (bwf : Bool) (v : Vec K) : K := if bwf then v.z else v.y
def up (bwf : Bool) (v : Vec K) : K := if bwf then v.y else v.z

/-- The world vector with the given horizontal and vertical coordinates. -/
def ofAxes (bwf : Bool) (h1 h2 up : K) : Vec K := if bwf then ⟨h1, up, h2⟩ else ⟨h1, h2, up⟩

@[simp] theorem h1_ofAxes (bwf : Bool) (a b c : K) : (ofAxes bwf a b c).h1 = a := by
  cases bwf <;> rfl
@[simp] theorem h2_ofAxes (bwf : Bool) (a b c : K) : (ofAxes bwf a b c).h2 bwf = b := by
  cases bwf <;> rfl
@[simp] theorem up_ofAxes (bwf : Bool) (a b c : K) : (ofAxes bwf a b c).up bwf = c := by
  cases bwf <;> rfl

end Vec

/-- A steady-clock reading in seconds. -/
def steadySeconds {K : Type*} [Field K] (ns : Int) : K := (ns : K) / 1000000000

structure SimClient (K : Type*) where
  creds : ClientCredentials
  state : State := .waiting
  activateAt : Int := 0
  /-- `none` is the closed descriptor `-1`. -/
  fd : Option Peer := none
  world : Vec K
  dir : Vec K
  chunk : Vec Int := ⟨0, 0, 0⟩
  sparseC1 : Int := 0
  sparseC2 : Int := 0
  pos : Vec K
  vel : Vec K
  rotYawDeg : K
  reaimAt : K
  uuid : Bytes := List.replicate 32 0
  sequence : UInt8 := 0
  lastSendTime : K
  lastCapsTime : K
  lastMoveTime : K
  lastRxTime : K
  refreshRequested : Bool := false
  consecutiveSendErrors : Int := 0
  errorLogged : Bool := false
  unauthorizedCount : Int := 0
  activatedAt : Int := 0
  permWindowCenter : Vec Int := ⟨0, 0, 0⟩
  permWindowValid : Bool := false
  permReloadAt : Int := 0
  message : Bytes := List.replicate Wire.ACTOR_UPDATE_MAX_SIZE 0

namespace SimClient

variable {K : Type*} [Field K]

/-- A client as `applyPendingClients` default-constructs it. -/
def fresh (creds : ClientCredentials) (activateAt : Int) : SimClient K where
  creds := creds
  activateAt := activateAt
  world := ⟨0, 0, 0⟩
  dir := ⟨1, 0, 0⟩
  pos := ⟨0, 0, 0⟩
  vel := ⟨0, 0, 0⟩
  rotYawDeg := 0
  reaimAt := 0
  lastSendTime := 0
  lastCapsTime := -1000000000
  lastMoveTime := 0
  lastRxTime := 0

/-- The random draws of one `initSimulation` or one re-aim. Rejected direction
draws are not part of it: the loop keeps the first one that is long enough. -/
structure Draws (K : Type*) where
  jitter1 : K
  jitter2 : K
  jitterUp : K
  chunk1 : Int
  chunk2 : Int
  direction : Vec K
  reaim : K
  uuidA : UInt64
  uuidB : UInt64
  offset : K

def poseFormat (cfg : Config K) : Wire.PoseFormat := if cfg.isBwf then .bwf else .ue5

/-- Sixteen upper-case hex digits, most significant first. -/
def hexDigits (x : UInt64) : Bytes :=
  (List.range 16).map fun i =>
    let d := x.toNat / 16 ^ (15 - i) % 16
    UInt8.ofNat (if d < 10 then 48 + d else 55 + d)

def generateUuid (a b : UInt64) : Bytes := hexDigits a ++ hexDigits b

section Movement

variable [LinearOrder K] [FloorRing K] (P : Platform K) (cfg : Config K)

/-- Unit direction on the horizontal plane. -/
def randomizeDirection (d : Vec K) : Vec K :=
  let len := P.sqrt (d.x * d.x + d.y * d.y)
  Vec.ofAxes cfg.isBwf (d.x / len) (d.y / len) 0

/-- Unit direction in space. -/
def randomizeDirection3D (d : Vec K) : Vec K :=
  let len := P.sqrt (d.x * d.x + d.y * d.y + d.z * d.z)
  ⟨d.x / len, d.y / len, d.z / len⟩

def cubeMinHorizontal : Int := -cfg.volumeChunks.tdiv 2

def placeInCube (index : Int) (r : Draws K) : Vec K :=
  let n := cfg.volumeChunks
  let slots := n * n * n
  let raw := (index.tmod slots + slots).tmod slots
  let idx := (raw * (1 + n + n * n)).tmod slots
  let i1 := idx.tmod n
  let iup := (idx.tdiv n).tmod n
  let i2 := (idx.tdiv (n * n)).tmod n
  let size := cfg.effectiveChunkSize
  Vec.ofAxes cfg.isBwf ((((cubeMinHorizontal cfg + i1 : Int) : K) + r.jitter1) * size)
    ((((cubeMinHorizontal cfg + i2 : Int) : K) + r.jitter2) * size)
    ((((cfg.volumeBaseUp + iup : Int) : K) + r.jitterUp) * size)

/-- splitmix64. -/
def mix64 (x : UInt64) : UInt64 :=
  let x := x + 0x9E3779B97F4A7C15
  let x := (x ^^^ (x >>> 30)) * 0xBF58476D1CE4E5B9
  let x := (x ^^^ (x >>> 27)) * 0x94D049BB133111EB
  x ^^^ (x >>> 31)

/-- The chunk a global index owns on the two horizontal axes. -/
def sparseChunkFor (index : Int) : Int × Int :=
  let toU64 (x : Int) : UInt64 := UInt64.ofNat (x % 2 ^ 64).toNat
  let span := toU64 (2 * cfg.sparseRangeChunks + 1)
  let slot := toU64 (index.tdiv (max 1 cfg.sparseGroup))
  let h1 := mix64 (slot * 2 + 1)
  let h2 := mix64 (slot * 2 + 2)
  (((h1 % span).toNat : Int) - cfg.sparseRangeChunks,
    ((h2 % span).toNat : Int) - cfg.sparseRangeChunks)

def walkHeight : K := if cfg.isBwf then 20 else 0

/-- World position to chunk coordinates and the pose position of the profile. -/
def projectPose (c : SimClient K) : SimClient K :=
  let size := cfg.effectiveChunkSize
  let chunk : Vec Int := ⟨⌊c.world.x / size⌋, ⌊c.world.y / size⌋, ⌊c.world.z / size⌋⟩
  { c with
    chunk := chunk
    pos :=
      if cfg.isBwf then c.world
      else
        ⟨c.world.x - (chunk.x : K) * size, c.world.y - (chunk.y : K) * size,
          if 0 < cfg.volumeChunks then c.world.z - (chunk.z : K) * size else -60⟩ }

/-- Rebuild the static message fields and advertise again at once. -/
def rebuildTemplate (c : SimClient K) : SimClient K :=
  { c with
    lastCapsTime := -1000000000
    message := Wire.initActorUpdateTemplateFmt (poseFormat cfg) c.uuid cfg.appId
      c.creds.gameTokenId (UInt8.ofNat (cfg.distance % 256).toNat)
      (UInt8.ofNat (cfg.decay % 256).toNat) }

/-- The spawn of `initSimulation`, by population shape. -/
def spawn (r : Draws K) (nowSec : K) (c : SimClient K) : SimClient K :=
  let size := cfg.effectiveChunkSize
  if cfg.isSparse then
    let (c1, c2) := sparseChunkFor cfg c.creds.index
    { c with
      sparseC1 := c1
      sparseC2 := c2
      world := Vec.ofAxes cfg.isBwf (((c1 : K) + r.jitter1) * size)
        (((c2 : K) + r.jitter2) * size) (walkHeight cfg)
      dir := randomizeDirection P cfg r.direction }
  else if 0 < cfg.volumeChunks then
    { c with
      world := placeInCube cfg c.creds.index r
      dir := randomizeDirection3D P r.direction
      reaimAt := nowSec + r.reaim }
  else
    { c with
      world := Vec.ofAxes cfg.isBwf ((r.chunk1 : K) * size) ((r.chunk2 : K) * size)
        (walkHeight cfg)
      dir := randomizeDirection P cfg r.direction }

def initSimulation (r : Draws K) (nowSec : K) (c : SimClient K) : SimClient K :=
  let c := spawn P cfg r nowSec c
  let interval : K := 1 / (cfg.updateHz : K)
  let c := { c with
    uuid := generateUuid r.uuidA r.uuidB
    lastMoveTime := nowSec
    lastSendTime := nowSec - interval + r.offset * interval
    sequence := 0 }
  projectPose cfg (rebuildTemplate cfg c)

/-- Reflect at both edges, then clamp: a step may be longer than the box. -/
def bounce (v d lo hi : K) : K × K :=
  let (v, d) := if v < lo then (lo + (lo - v), |d|) else (v, d)
  let (v, d) := if hi < v then (hi - (v - hi), -|d|) else (v, d)
  let v := if v < lo then lo else v
  let v := if hi < v then hi else v
  (v, d)

/-- Direction of travel as velocity and yaw, from the direction before and after. -/
def setVelocity (speed : K) (c : SimClient K) : SimClient K :=
  { c with
    vel := ⟨c.dir.x * speed, c.dir.y * speed, c.dir.z * speed⟩
    rotYawDeg := P.atan2 (c.dir.h2 cfg.isBwf) c.dir.h1 * (180 / (314159265358979 / 10 ^ 14)) }

def walkSparse (dt : K) (c : SimClient K) : SimClient K :=
  let bwf := cfg.isBwf
  let size := cfg.effectiveChunkSize
  let speed := cfg.effectiveWalkSpeed
  let lo1 : K := (c.sparseC1 : K) * size
  let lo2 : K := (c.sparseC2 : K) * size
  let (v1, d1) := bounce (c.world.h1 + c.dir.h1 * dt * speed) c.dir.h1 lo1 (lo1 + size)
  let (v2, d2) := bounce (c.world.h2 bwf + c.dir.h2 bwf * dt * speed) (c.dir.h2 bwf) lo2
    (lo2 + size)
  setVelocity P cfg speed
    { c with
      world := Vec.ofAxes bwf v1 v2 (c.world.up bwf)
      dir := Vec.ofAxes bwf d1 d2 (c.dir.up bwf) }

def walkCube (r : Draws K) (nowSec dt : K) (c : SimClient K) : SimClient K :=
  let bwf := cfg.isBwf
  let size := cfg.effectiveChunkSize
  let speed := cfg.effectiveWalkSpeed
  let hmin : K := (cubeMinHorizontal cfg : K) * size
  let hmax := hmin + (cfg.volumeChunks : K) * size
  let umin : K := (cfg.volumeBaseUp : K) * size
  let umax := umin + (cfg.volumeChunks : K) * size
  let (v1, d1) := bounce (c.world.h1 + c.dir.h1 * dt * speed) c.dir.h1 hmin hmax
  let (v2, d2) := bounce (c.world.h2 bwf + c.dir.h2 bwf * dt * speed) (c.dir.h2 bwf) hmin hmax
  let (v3, d3) := bounce (c.world.up bwf + c.dir.up bwf * dt * speed) (c.dir.up bwf) umin umax
  let c := { c with world := Vec.ofAxes bwf v1 v2 v3, dir := Vec.ofAxes bwf d1 d2 d3 }
  let c := if c.reaimAt ≤ nowSec then
      { c with dir := randomizeDirection3D P r.direction, reaimAt := nowSec + r.reaim }
    else c
  setVelocity P cfg speed c

def walk2D (dt : K) (c : SimClient K) : SimClient K :=
  let bwf := cfg.isBwf
  let size := cfg.effectiveChunkSize
  let speed := cfg.effectiveWalkSpeed
  let v1 := c.world.h1 + c.dir.h1 * dt * speed
  let v2 := c.world.h2 bwf + c.dir.h2 bwf * dt * speed
  let c := setVelocity P cfg speed { c with world := Vec.ofAxes bwf v1 v2 (c.world.up bwf) }
  -- velocity and yaw are those before the turn
  if cfg.spawnRadiusChunks < |⌊v1 / size⌋| ∨ cfg.spawnRadiusChunks < |⌊v2 / size⌋| then
    { c with dir := Vec.ofAxes bwf (-c.dir.h1) (-c.dir.h2 bwf) (c.dir.up bwf) }
  else c

def updateWalk (r : Draws K) (nowSec : K) (c : SimClient K) : SimClient K :=
  let dt := nowSec - c.lastMoveTime
  let c := { c with lastMoveTime := nowSec }
  if dt ≤ 0 then c
  else
    projectPose cfg
      (if cfg.isSparse then walkSparse P cfg dt c
       else if 0 < cfg.volumeChunks then walkCube P cfg r nowSec dt c
       else walk2D P cfg dt c)

/-- Patch the dynamic fields and sign again; `sequence++` happens in any case. -/
def buildUpdate (epochMs : Int) (c : SimClient K) : SimClient K × Bool :=
  let pose : Wire.ActorPose K :=
    { posX := c.pos.x, posY := c.pos.y, posZ := c.pos.z
      velX := c.vel.x, velY := c.vel.y, velZ := c.vel.z
      pitch := 0
      yaw := if cfg.isBwf then P.atan2 c.dir.x c.dir.z else 0
      roll := if cfg.isBwf then 0 else c.rotYawDeg
      grounded := false
      updatedAtMs := if cfg.isBwf then (epochMs : K) else 0 }
  let (message, ok) := Wire.finalizeActorUpdateFmt P c.message (poseFormat cfg) c.chunk.x
    c.chunk.y c.chunk.z pose c.sequence c.creds.appToken
  ({ c with message := message, sequence := c.sequence + 1 }, ok)

def messageSize : Nat := Wire.actorUpdateSize (poseFormat cfg)

/-- `c` where `d` is, moving as `d` does. -/
def moveTo (c d : SimClient K) : SimClient K :=
  { c with
    world := d.world
    dir := d.dir
    chunk := d.chunk
    sparseC1 := d.sparseC1
    sparseC2 := d.sparseC2
    pos := d.pos
    vel := d.vel
    rotYawDeg := d.rotYawDeg
    reaimAt := d.reaimAt
    lastMoveTime := d.lastMoveTime }

omit [FloorRing K] in
/-- A spawn only places the client. -/
theorem spawn_moveTo (r : Draws K) (nowSec : K) (c : SimClient K) :
    spawn P cfg r nowSec c = c.moveTo (spawn P cfg r nowSec c) := by
  unfold spawn
  split
  · rfl
  · split
    · rfl
    · rfl

/-- A walk only moves the client. -/
theorem updateWalk_moveTo (r : Draws K) (nowSec : K) (c : SimClient K) :
    updateWalk P cfg r nowSec c = c.moveTo (updateWalk P cfg r nowSec c) := by
  have hproject {d : SimClient K} (h : d = c.moveTo d) :
      projectPose cfg d = c.moveTo (projectPose cfg d) := by
    rw [h]
    rfl
  unfold updateWalk
  dsimp only
  split
  · rfl
  · refine hproject ?_
    split
    · rfl
    · split
      · unfold walkCube
        dsimp only
        split
        · rfl
        · rfl
      · unfold walk2D
        dsimp only
        split
        · rfl
        · rfl

end Movement

end SimClient

end CksLoadtest
