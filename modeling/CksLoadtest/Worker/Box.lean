import CksLoadtest.Worker.Traffic

/-!
# What the permission box can touch

The model of the server's permission box is a part of the client record and two settings.
Every worker function leaves, with any box and any settings, the same client but for the
box and the log flag, and the same effects but for the tally of reloads.
-/
namespace CksLoadtest

open Lib.Buffer

variable {K : Type*}

/-- The settings of the permission box replaced. -/
def Config.withBoxModel (cfg : Config K) (radius graceMs : Int) : Config K :=
  { cfg with permWindowRadiusChunks := radius, permReloadGraceMs := graceMs }

/-- What the classification of refusals writes in the client record. -/
structure SimClient.Box where
  center : Vec Int
  reloadAt : Int
  errorLogged : Bool

namespace SimClient

def withBox (c : SimClient K) (b : Box) : SimClient K :=
  { c with permWindowCenter := b.center, permReloadAt := b.reloadAt, errorLogged := b.errorLogged }

/-- The client without its box. -/
def unboxed (c : SimClient K) : SimClient K := c.withBox ⟨⟨0, 0, 0⟩, 0, false⟩

theorem exists_withBox {c d : SimClient K} (h : d.unboxed = c.unboxed) : ∃ b, d = c.withBox b := by
  refine ⟨⟨d.permWindowCenter, d.permReloadAt, d.errorLogged⟩, ?_⟩
  cases c
  cases d
  simp_all [unboxed, withBox]

theorem ite_withBox {p : Prop} [Decidable p] {b : Box} {c d c' d' : SimClient K}
    (hc : c' = c.withBox b) (hd : d' = d.withBox b) :
    (if p then c' else d') = (if p then c else d).withBox b := by
  split
  exacts [hc, hd]

end SimClient

/-- What is left of an effect when the reloads are not counted. -/
def Effect.unboxed : Effect K → Option (Effect K)
  | .count .unauthorizedWindowReload _ => none
  | .send client bytes => some (.send client.unboxed bytes)
  | e => some e

namespace Worker

/-- A result without the box. -/
def seen (o : Out K) : Out K := (o.1.unboxed, o.2.filterMap Effect.unboxed)

theorem seen_after {o o' : Out K} {es es' : List (Effect K)}
    (he : es'.filterMap Effect.unboxed = es.filterMap Effect.unboxed) (ho : seen o' = seen o) :
    seen (after es' o') = seen (after es o) := by
  obtain ⟨hclient, heffects⟩ := Prod.mk.inj ho
  simp only [seen, after, List.filterMap_append, hclient, heffects, he]

/-- The two functions differ in nothing but the box, whatever box they are given. -/
def Respects (f f' : SimClient K → Out K) : Prop := ∀ c b, seen (f' (c.withBox b)) = seen (f c)

theorem seen_andThen {o o' : Out K} {f f' : SimClient K → Out K} (ho : seen o' = seen o)
    (hf : ∀ b, seen (f' (o.1.withBox b)) = seen (f o.1)) :
    seen (andThen o' f') = seen (andThen o f) := by
  obtain ⟨hclient, heffects⟩ := Prod.mk.inj ho
  obtain ⟨b, hb⟩ := SimClient.exists_withBox hclient
  obtain ⟨hnext, hmore⟩ := Prod.mk.inj (hf b)
  simp only [seen, andThen, after, List.filterMap_append, hb, hnext, hmore, heffects]

namespace Respects

variable {f f' g g' : SimClient K → Out K}

theorem andThen (hf : Respects f f') (hg : Respects g g') :
    Respects (fun c => Worker.andThen (f c) g) (fun c => Worker.andThen (f' c) g') :=
  fun c b => seen_andThen (hf c b) fun b' => hg (f c).1 b'

theorem after (es : List (Effect K)) (hf : Respects f f') :
    Respects (fun c => Worker.after es (f c)) (fun c => Worker.after es (f' c)) :=
  fun c b => seen_after rfl (hf c b)

/-- First functions that differ in the box alone. -/
theorem comp {h k : SimClient K → SimClient K} (hf : Respects f f')
    (hh : ∀ c b, ∃ b', k (c.withBox b) = (h c).withBox b') :
    Respects (fun c => f (h c)) (fun c => f' (k c)) := by
  intro c b
  obtain ⟨b', hb'⟩ := hh c b
  exact (congrArg (fun d => seen (f' d)) hb').trans (hf (h c) b')

/-- Then a change of the client that does not look at the box, and more effects. -/
theorem map {h : SimClient K → SimClient K} {es : List (Effect K)} (hf : Respects f f')
    (hh : ∀ c b, ∃ b', h (c.withBox b) = (h c).withBox b') :
    Respects (fun c => (h (f c).1, (f c).2 ++ es)) (fun c => (h (f' c).1, (f' c).2 ++ es)) := by
  intro c b
  obtain ⟨hclient, heffects⟩ := Prod.mk.inj (hf c b)
  obtain ⟨b', hb'⟩ := SimClient.exists_withBox hclient
  obtain ⟨b'', hb''⟩ := hh (f c).1 b'
  simp only [seen, List.filterMap_append, hb', hb'', heffects]
  rfl

theorem ite {p : SimClient K → Prop} [DecidablePred p] (hp : ∀ c b, p (c.withBox b) ↔ p c)
    (hf : Respects f f') (hg : Respects g g') :
    Respects (fun c => if p c then f c else g c) (fun c => if p c then f' c else g' c) := by
  intro c b
  simp only [hp]
  split
  exacts [hf c b, hg c b]

end Respects

theorem closeSocket_respects : Respects (K := K) closeSocket closeSocket := by
  unfold closeSocket
  exact .ite (fun _ _ => Iff.rfl) (fun _ _ => rfl) fun _ _ => rfl

theorem suspendClient_respects (kind : Kind) :
    Respects (K := K) (suspendClient kind) (suspendClient kind) := by
  unfold suspendClient
  refine .ite (fun _ _ => Iff.rfl) (fun _ _ => rfl) fun c b => ?_
  obtain ⟨hclient, heffects⟩ := Prod.mk.inj (closeSocket_respects c b)
  obtain ⟨b', hb'⟩ := SimClient.exists_withBox hclient
  simp only [seen, List.filterMap_append, heffects, hb']
  rfl

section Refusals

variable (cfg : Config K) (r g : Int) (code : UInt8)

/-- Only the box, the tally of reloads and the verdict depend on the box. -/
theorem classifyRefusal_respects (t : Readings) :
    Respects (fun c => (classifyRefusal cfg t code c).1)
      (fun c => (classifyRefusal (cfg.withBoxModel r g) t code c).1) := by
  -- with the reloads not counted, every branch after the first leaves the same
  have hrest : ∀ (cfg : Config K) (c : SimClient K),
      seen (classifyRefusal cfg t code c).1 =
        if code = Wire.ERR_UNAUTHORIZED ∧ c.activatedAt ≠ 0 ∧
            t.contact - c.activatedAt < FIRST_CONTACT_GRACE_MS * 1000000 then
          (c.unboxed, [.count .unauthorizedFirstContact 1])
        else (c.unboxed, []) := by
    intro cfg c
    unfold classifyRefusal
    split
    · rfl
    · split
      · dsimp only
        split
        · dsimp only
          split <;> rfl
        · rfl
      · rfl
  intro c b
  rw [hrest, hrest]
  rfl

theorem logError_unboxed (expected : Bool) (c : SimClient K) :
    (logError expected c).unboxed = c.unboxed := by
  unfold logError
  split <;> rfl

theorem reactToError_respects :
    Respects (reactToError cfg code) (reactToError (cfg.withBoxModel r g) code) := by
  unfold reactToError
  refine .ite (fun _ _ => Iff.rfl) ?_ (.ite (fun _ _ => Iff.rfl) ?_ fun _ _ => rfl)
  · exact (suspendClient_respects .refresh).comp fun _ b => ⟨b, rfl⟩
  · exact .ite (fun _ _ => Iff.rfl)
      ((suspendClient_respects .reassign).comp fun _ b => ⟨b, rfl⟩) fun _ _ => rfl

theorem handleError_respects (t : Readings) (m : Bytes) :
    Respects (handleError cfg t m) (handleError (cfg.withBoxModel r g) t m) := by
  match m with
  | [] | [_] | [_, _] => exact fun _ _ => rfl
  | _ :: _ :: code :: _ =>
    refine .after [.errorCode code] fun c b =>
      seen_andThen (classifyRefusal_respects cfg r g code t c b) fun b' => ?_
    -- the verdict may differ, and then the log flag does
    have hlogged : ∀ (v v' : Bool) (d : SimClient K),
        (logError v' (d.withBox b')).unboxed = (logError v d).unboxed :=
      fun v v' d => (logError_unboxed v' _).trans (logError_unboxed v d).symm
    obtain ⟨b'', hb''⟩ := SimClient.exists_withBox (hlogged (classifyRefusal cfg t code c).2
      (classifyRefusal (cfg.withBoxModel r g) t code (c.withBox b)).2
      (classifyRefusal cfg t code c).1.1)
    exact (congrArg (fun d => seen (reactToError (cfg.withBoxModel r g) code d)) hb'').trans
      (reactToError_respects cfg r g code _ b'')

end Refusals

section Datagrams

variable (P : Platform K) (cfg : Config K) (r g : Int)

theorem handleSpatial_respects (nowMs : Int) (m : Bytes) :
    Respects (handleSpatial P cfg nowMs m) (handleSpatial P (cfg.withBoxModel r g) nowMs m) := by
  unfold handleSpatial
  exact .ite (fun _ _ => Iff.rfl) (fun _ _ => rfl) fun _ _ => rfl

theorem handleMember_respects (signedBundle : Bool) (nowMs : Int) (t : Readings) (m : Bytes) :
    Respects (handleMember P cfg signedBundle nowMs t m)
      (handleMember P (cfg.withBoxModel r g) signedBundle nowMs t m) := by
  unfold handleMember
  refine .after _ (.ite (fun _ _ => Iff.rfl) (.after _ (handleError_respects cfg r g t m)) ?_)
  refine .ite (fun _ _ => Iff.rfl) (.after _ (suspendClient_respects .reassign)) ?_
  exact .ite (fun _ _ => Iff.rfl) (handleSpatial_respects P cfg r g nowMs m) fun _ _ => rfl

/-- What precedes the members of a datagram does not look at the box. -/
theorem beginDatagram_respects [Field K] (rxNs nowMs : Int) (data : Bytes) (c : SimClient K)
    (b : SimClient.Box) :
    seen (beginDatagram P rxNs nowMs data (c.withBox b)).1 =
        seen (beginDatagram P rxNs nowMs data c).1 ∧
      (beginDatagram P rxNs nowMs data (c.withBox b)).2 =
        (beginDatagram P rxNs nowMs data c).2 := by
  have htoken : (c.withBox b).creds = c.creds := rfl
  unfold beginDatagram
  simp only [htoken]
  split
  · exact ⟨rfl, rfl⟩
  · split <;> exact ⟨rfl, rfl⟩

end Datagrams

section Turns

variable [Field K] [LinearOrder K] [FloorRing K] (P : Platform K) (cfg : Config K) (r g : Int)

omit [FloorRing K] in
/-- The walk in the cube reads none of the box's options. -/
theorem walkCube_withBox (draws : SimClient.Draws K) (nowSec dt : K) (c : SimClient K)
    (b : SimClient.Box) :
    (c.withBox b).walkCube P (cfg.withBoxModel r g) draws nowSec dt =
      (c.walkCube P cfg draws nowSec dt).withBox b := by
  have hset : ∀ (speed : K) (d : SimClient K),
      (d.withBox b).setVelocity P (cfg.withBoxModel r g) speed =
        (d.setVelocity P cfg speed).withBox b := fun _ _ => rfl
  have hbwf : (cfg.withBoxModel r g).isBwf = cfg.isBwf := rfl
  have hsize : (cfg.withBoxModel r g).effectiveChunkSize = cfg.effectiveChunkSize := rfl
  have hspeed : (cfg.withBoxModel r g).effectiveWalkSpeed = cfg.effectiveWalkSpeed := rfl
  have hmin : SimClient.cubeMinHorizontal (cfg.withBoxModel r g) =
    SimClient.cubeMinHorizontal cfg := rfl
  have hvolume : (cfg.withBoxModel r g).volumeChunks = cfg.volumeChunks := rfl
  have hup : (cfg.withBoxModel r g).volumeBaseUp = cfg.volumeBaseUp := rfl
  have hworld : (c.withBox b).world = c.world := rfl
  have hdir : (c.withBox b).dir = c.dir := rfl
  unfold SimClient.walkCube
  simp only [hbwf, hsize, hspeed, hmin, hvolume, hup, hworld, hdir]
  rw [← hset]
  congr 1
  exact SimClient.ite_withBox rfl rfl

theorem projectPose_withBox (c : SimClient K) (b : SimClient.Box) :
    (c.withBox b).projectPose (cfg.withBoxModel r g) = (c.projectPose cfg).withBox b :=
  rfl

omit [FloorRing K] in
theorem walkSparse_withBox (dt : K) (c : SimClient K) (b : SimClient.Box) :
    (c.withBox b).walkSparse P (cfg.withBoxModel r g) dt = (c.walkSparse P cfg dt).withBox b := by
  have hset : ∀ (speed : K) (d : SimClient K),
      (d.withBox b).setVelocity P (cfg.withBoxModel r g) speed =
        (d.setVelocity P cfg speed).withBox b := fun _ _ => rfl
  have hbwf : (cfg.withBoxModel r g).isBwf = cfg.isBwf := rfl
  have hsize : (cfg.withBoxModel r g).effectiveChunkSize = cfg.effectiveChunkSize := rfl
  have hspeed : (cfg.withBoxModel r g).effectiveWalkSpeed = cfg.effectiveWalkSpeed := rfl
  have hworld : (c.withBox b).world = c.world := rfl
  have hdir : (c.withBox b).dir = c.dir := rfl
  have hc1 : (c.withBox b).sparseC1 = c.sparseC1 := rfl
  have hc2 : (c.withBox b).sparseC2 = c.sparseC2 := rfl
  unfold SimClient.walkSparse
  simp only [hbwf, hsize, hspeed, hworld, hdir, hc1, hc2]
  rw [← hset]
  rfl

theorem walk2D_withBox (dt : K) (c : SimClient K) (b : SimClient.Box) :
    (c.withBox b).walk2D P (cfg.withBoxModel r g) dt = (c.walk2D P cfg dt).withBox b :=
  SimClient.ite_withBox rfl rfl

theorem updateWalk_withBox (draws : SimClient.Draws K) (nowSec : K) (c : SimClient K)
    (b : SimClient.Box) :
    (c.withBox b).updateWalk P (cfg.withBoxModel r g) draws nowSec =
      (c.updateWalk P cfg draws nowSec).withBox b := by
  have hwalk : ∀ (dt : K) (d : SimClient K),
      (if (cfg.withBoxModel r g).isSparse then
          (d.withBox b).walkSparse P (cfg.withBoxModel r g) dt
        else if 0 < (cfg.withBoxModel r g).volumeChunks then
          (d.withBox b).walkCube P (cfg.withBoxModel r g) draws nowSec dt
        else (d.withBox b).walk2D P (cfg.withBoxModel r g) dt) =
      (if cfg.isSparse then d.walkSparse P cfg dt
        else if 0 < cfg.volumeChunks then d.walkCube P cfg draws nowSec dt
        else d.walk2D P cfg dt).withBox b := fun dt d =>
    SimClient.ite_withBox (walkSparse_withBox P cfg r g dt d b)
      (SimClient.ite_withBox (walkCube_withBox P cfg r g draws nowSec dt d b)
        (walk2D_withBox P cfg r g dt d b))
  have hmoved : { c.withBox b with lastMoveTime := nowSec } =
      SimClient.withBox { c with lastMoveTime := nowSec } b := rfl
  have hlast : (c.withBox b).lastMoveTime = c.lastMoveTime := rfl
  unfold SimClient.updateWalk
  dsimp only
  rw [hmoved, hlast, hwalk, projectPose_withBox]
  exact SimClient.ite_withBox rfl rfl

omit [LinearOrder K] [FloorRing K] in
theorem rebuildTemplate_withBox (c : SimClient K) (b : SimClient.Box) :
    (c.withBox b).rebuildTemplate (cfg.withBoxModel r g) = (c.rebuildTemplate cfg).withBox b := by
  have hpose : SimClient.poseFormat (cfg.withBoxModel r g) = SimClient.poseFormat cfg := rfl
  have hdistance : (cfg.withBoxModel r g).distance = cfg.distance := rfl
  have hdecay : (cfg.withBoxModel r g).decay = cfg.decay := rfl
  have happ : (cfg.withBoxModel r g).appId = cfg.appId := rfl
  unfold SimClient.rebuildTemplate SimClient.withBox
  rw [hpose, hdistance, hdecay, happ]

omit [FloorRing K] in
theorem spawn_withBox (draws : SimClient.Draws K) (nowSec : K) (c : SimClient K)
    (b : SimClient.Box) :
    (c.withBox b).spawn P (cfg.withBoxModel r g) draws nowSec =
      (c.spawn P cfg draws nowSec).withBox b :=
  SimClient.ite_withBox rfl (SimClient.ite_withBox rfl rfl)

theorem initSimulation_withBox (draws : SimClient.Draws K) (nowSec : K) (c : SimClient K)
    (b : SimClient.Box) :
    (c.withBox b).initSimulation P (cfg.withBoxModel r g) draws nowSec =
      (c.initSimulation P cfg draws nowSec).withBox b := by
  have hhz : (cfg.withBoxModel r g).updateHz = cfg.updateHz := rfl
  unfold SimClient.initSimulation
  dsimp only
  rw [spawn_withBox, hhz, ← projectPose_withBox cfg r g, ← rebuildTemplate_withBox cfg r g]
  rfl

/-- Activation centres the box, and does not look at it. -/
theorem resume_withBox (now : Int) (nowSec : K) (draws : SimClient.Draws K) (c : SimClient K)
    (b : SimClient.Box) : ∃ b', resume P (cfg.withBoxModel r g) now nowSec draws (c.withBox b) =
      (resume P cfg now nowSec draws c).withBox b' := by
  have hclient : ∀ d d' : SimClient K, d' = d.withBox b → ∃ b',
      { d' with
        lastRxTime := nowSec
        activatedAt := now
        permWindowCenter := d'.chunk
        permWindowValid := true } =
      SimClient.withBox { d with
        lastRxTime := nowSec
        activatedAt := now
        permWindowCenter := d.chunk
        permWindowValid := true } b' := by
    rintro d _ rfl
    exact ⟨{ b with center := d.chunk }, rfl⟩
  exact hclient _ _ (SimClient.ite_withBox (initSimulation_withBox P cfg r g draws nowSec c b) rfl)

/-- The part of `applyUpdate` that puts the new credentials in place. -/
def install (cfg : Config K) (u : Update) (c : SimClient K) : SimClient K :=
  if u.creds.gameTokenId ≠ c.creds.gameTokenId then
    SimClient.rebuildTemplate cfg { c with creds := u.creds, refreshRequested := false }
  else { c with creds := u.creds, refreshRequested := false }

/-- The part of `applyUpdate` after that. -/
def settle (wasSuspended : Prop) [Decidable wasSuspended] (c : SimClient K) : Out K :=
  if wasSuspended then
    ({ c with state := .waiting, activateAt := c.creds.udpReadyAt }, [.suspendedClients (-1)])
  else if c.state = .active then
    ({ (closeSocket c).1 with state := .waiting, activateAt := c.creds.udpReadyAt },
      (closeSocket c).2 ++ [.activeClients (-1)])
  else (c, [])

omit [LinearOrder K] [FloorRing K] in
theorem applyUpdate_eq (u : Update) (c : SimClient K) : applyUpdate cfg u c =
    if u.failed then (c, []) else settle (c.state = .suspended) (install cfg u c) := rfl

omit [Field K] [LinearOrder K] [FloorRing K] in
theorem settle_respects (wasSuspended : Prop) [Decidable wasSuspended] :
    Respects (K := K) (settle wasSuspended) (settle wasSuspended) := by
  unfold settle
  refine .ite (p := fun _ => wasSuspended) (fun _ _ => Iff.rfl) (fun _ _ => rfl) ?_
  refine .ite (fun _ _ => Iff.rfl) (fun c b => ?_) fun _ _ => rfl
  obtain ⟨hclient, heffects⟩ := Prod.mk.inj (closeSocket_respects c b)
  obtain ⟨b', hb'⟩ := SimClient.exists_withBox hclient
  simp only [seen, List.filterMap_append, heffects, hb']
  rfl

omit [LinearOrder K] [FloorRing K] in
theorem applyUpdate_respects (u : Update) :
    Respects (applyUpdate cfg u) (applyUpdate (cfg.withBoxModel r g) u) := by
  intro c b
  have hstate : (c.withBox b).state = c.state := rfl
  have hinstall : install (cfg.withBoxModel r g) u (c.withBox b) = (install cfg u c).withBox b :=
    SimClient.ite_withBox
      (rebuildTemplate_withBox cfg r g { c with creds := u.creds, refreshRequested := false } b) rfl
  rw [applyUpdate_eq, applyUpdate_eq, hstate, hinstall]
  split
  · rfl
  · exact settle_respects _ _ b

omit [Field K] [LinearOrder K] [FloorRing K] in
/-- Opening a socket does not look at the box. -/
theorem openSocket_respects (o : OpenOutcome) (c : SimClient K) (b : SimClient.Box) :
    seen (openSocket P (cfg.withBoxModel r g) o (c.withBox b)).1 = seen (openSocket P cfg o c).1 ∧
      (openSocket P (cfg.withBoxModel r g) o (c.withBox b)).2 = (openSocket P cfg o c).2 := by
  have hcreds : (c.withBox b).creds = c.creds := rfl
  have hrcvbuf : (cfg.withBoxModel r g).socketRcvbufBytes = cfg.socketRcvbufBytes := rfl
  unfold openSocket
  rw [hcreds, hrcvbuf]
  split
  · exact ⟨rfl, rfl⟩
  · split
    · exact ⟨rfl, rfl⟩
    · dsimp only
      split <;> exact ⟨rfl, rfl⟩

theorem activateDueClient_respects (now : Int) (nowSec : K) (draws : SimClient.Draws K)
    (o : OpenOutcome) :
    Respects (activateDueClient P cfg now nowSec draws o)
      (activateDueClient P (cfg.withBoxModel r g) now nowSec draws o) := by
  have hopen : Respects (fun c => (openSocket P cfg o c).1)
      (fun c => (openSocket P (cfg.withBoxModel r g) o c).1) :=
    fun c b => (openSocket_respects P cfg r g o c b).1
  -- what comes after the pose is drawn again
  have hconnect : Respects
      (fun c =>
        if (openSocket P cfg o c).2 then
          ({ (openSocket P cfg o c).1.1 with state := .active },
            (openSocket P cfg o c).1.2 ++ [.activeClients 1])
        else andThen (openSocket P cfg o c).1 (suspendClient .reassign))
      (fun c =>
        if (openSocket P (cfg.withBoxModel r g) o c).2 then
          ({ (openSocket P (cfg.withBoxModel r g) o c).1.1 with state := .active },
            (openSocket P (cfg.withBoxModel r g) o c).1.2 ++ [.activeClients 1])
        else andThen (openSocket P (cfg.withBoxModel r g) o c).1 (suspendClient .reassign)) := by
    intro c b
    dsimp only
    rw [(openSocket_respects P cfg r g o c b).2]
    split
    · exact hopen.map (h := fun c => { c with state := .active }) (fun _ b => ⟨b, rfl⟩) c b
    · exact hopen.andThen (suspendClient_respects .reassign) c b
  unfold activateDueClient
  refine .ite (fun _ _ => Iff.rfl) (fun _ _ => rfl)
    (.ite (fun _ _ => Iff.rfl) (fun _ _ => rfl) ?_)
  exact hconnect.comp fun c b => resume_withBox P cfg r g now nowSec draws c b

omit [LinearOrder K] [FloorRing K] in
theorem buildUpdate_withBox (epochMs : Int) (c : SimClient K) (b : SimClient.Box) :
    (c.withBox b).buildUpdate P (cfg.withBoxModel r g) epochMs =
      ((c.buildUpdate P cfg epochMs).1.withBox b, (c.buildUpdate P cfg epochMs).2) := by
  have hpose : SimClient.poseFormat (cfg.withBoxModel r g) = SimClient.poseFormat cfg := rfl
  have hbwf : (cfg.withBoxModel r g).isBwf = cfg.isBwf := rfl
  unfold SimClient.buildUpdate
  rw [hpose, hbwf]
  rfl

theorem transmit_respects (nowSec : K) (i : SendInputs K) :
    Respects (transmit P cfg nowSec i) (transmit P (cfg.withBoxModel r g) nowSec i) := by
  intro c b
  have hsize : SimClient.messageSize (cfg.withBoxModel r g) = SimClient.messageSize cfg := rfl
  have hhz : (cfg.withBoxModel r g).updateHz = cfg.updateHz := rfl
  unfold transmit
  rw [updateWalk_withBox, buildUpdate_withBox, hsize, hhz]
  generalize (c.updateWalk P cfg i.draws nowSec).buildUpdate P cfg i.epochMs = built
  dsimp only
  split
  · rfl
  · split
    · rfl
    · refine seen_after rfl ?_
      have hfails : Respects (K := K)
          (fun c =>
            if 3 * cfg.updateHz ≤ c.consecutiveSendErrors + 1 then
              suspendClient .reassign { c with consecutiveSendErrors := 0 }
            else ({ c with consecutiveSendErrors := c.consecutiveSendErrors + 1 }, []))
          (fun c =>
            if 3 * cfg.updateHz ≤ c.consecutiveSendErrors + 1 then
              suspendClient .reassign { c with consecutiveSendErrors := 0 }
            else ({ c with consecutiveSendErrors := c.consecutiveSendErrors + 1 }, [])) :=
        .ite (fun _ _ => Iff.rfl)
          ((suspendClient_respects .reassign).comp fun _ b => ⟨b, rfl⟩) fun _ _ => rfl
      exact hfails built.1 b

theorem sendDueUpdate_respects (nowSec : K) (i : SendInputs K) :
    Respects (sendDueUpdate P cfg nowSec i)
      (sendDueUpdate P (cfg.withBoxModel r g) nowSec i) := by
  have hlead : (cfg.withBoxModel r g).tokenRefreshLeadSec = cfg.tokenRefreshLeadSec := rfl
  have hcaps : (cfg.withBoxModel r g).capsIntervalSec = cfg.capsIntervalSec := rfl
  unfold sendDueUpdate
  refine .ite (fun _ _ => Iff.rfl) (fun _ _ => rfl) ?_
  refine .ite (fun _ _ => Iff.rfl) (.after _ (suspendClient_respects .reassign)) ?_
  refine .ite (fun _ _ => Iff.rfl) (fun _ _ => rfl) ?_
  refine .andThen (.comp (h := paceSend cfg nowSec)
    (k := paceSend (cfg.withBoxModel r g) nowSec) ?_ fun _ b => ⟨b, rfl⟩)
    (.andThen ?_ (transmit_respects P cfg r g nowSec i))
  · intro c b
    have hcreds : (c.withBox b).creds = c.creds := rfl
    have hflag : (c.withBox b).refreshRequested = c.refreshRequested := rfl
    unfold requestRefresh
    rw [hlead, hcreds, hflag]
    split <;> rfl
  · intro c b
    have hcreds : (c.withBox b).creds = c.creds := rfl
    have happ : (cfg.withBoxModel r g).appId = cfg.appId := rfl
    have hcapsOn : (cfg.withBoxModel r g).clientCaps = cfg.clientCaps := rfl
    have hlast : (c.withBox b).lastCapsTime = c.lastCapsTime := rfl
    have hseq : (c.withBox b).sequence = c.sequence := rfl
    unfold advertise
    rw [hcaps, hcreds, happ, hcapsOn, hlast, hseq]
    split
    · dsimp only
      split
      · split <;> rfl
      · rfl
    · rfl

end Turns

end Worker

end CksLoadtest
