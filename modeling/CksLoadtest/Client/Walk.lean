import CksLoadtest.Client.Bounce

/-!
# The 2D walk

A client of the flat population walks along one line and turns around whenever a step ends
outside the spawn square. It stays within one step of the square as long as no step that
starts outside ends outside on the same side: such a step turns it away from the square.
-/
namespace CksLoadtest.SimClient

variable {K : Type*} [Field K] [LinearOrder K] [FloorRing K]

section Square

variable (cfg : Config K)

/-- The chunk of a coordinate is one of the spawn square's. -/
def InSpan (v : K) : Prop := |chunkOf cfg v| ≤ cfg.spawnRadiusChunks

/-- On both horizontal axes the client is inside the spawn square. -/
def InSquare (v : Vec K) : Prop := InSpan cfg v.h1 ∧ InSpan cfg (v.h2 cfg.isBwf)

/-- Two coordinates outside the span on the same side of it. -/
def SameSide (v w : K) : Prop :=
  (chunkOf cfg v < -cfg.spawnRadiusChunks ∧ chunkOf cfg w < -cfg.spawnRadiusChunks) ∨
    (cfg.spawnRadiusChunks < chunkOf cfg v ∧ cfg.spawnRadiusChunks < chunkOf cfg w)

/-- The coordinate is within `S` of the chunks of the square. -/
def NearSpan (S v : K) : Prop :=
  v ∈ Set.Icc (-(cfg.spawnRadiusChunks : K) * cfg.effectiveChunkSize - S)
    (((cfg.spawnRadiusChunks : K) + 1) * cfg.effectiveChunkSize + S)

def NearSquare (S : K) (c : SimClient K) : Prop :=
  NearSpan cfg S c.world.h1 ∧ NearSpan cfg S (c.world.h2 cfg.isBwf)

instance (S : K) (c : SimClient K) : Decidable (NearSquare cfg S c) := by
  unfold NearSquare NearSpan
  exact inferInstance

variable [IsStrictOrderedRing K] {cfg}

theorem chunkOf_mono {v w : K} (h : v ≤ w) : chunkOf cfg v ≤ chunkOf cfg w :=
  Int.floor_le_floor (div_le_div_of_nonneg_right h (effectiveChunkSize_pos cfg).le)

theorem inSpan_near {v : K} (h : InSpan cfg v) : NearSpan cfg 0 v := by
  have hpos := effectiveChunkSize_pos cfg
  obtain ⟨hl, hu⟩ := (chunkOf_eq_iff cfg).mp (rfl : chunkOf cfg v = _)
  obtain ⟨hmin, hmax⟩ := abs_le.mp h
  have hmin' : -(cfg.spawnRadiusChunks : K) ≤ (chunkOf cfg v : K) := by exact_mod_cast hmin
  have hmax' : (chunkOf cfg v : K) ≤ (cfg.spawnRadiusChunks : K) := by exact_mod_cast hmax
  constructor
  · rw [sub_zero]
    exact (mul_le_mul_of_nonneg_right hmin' hpos.le).trans hl
  · rw [add_zero]
    exact hu.le.trans (mul_le_mul_of_nonneg_right (by linarith) hpos.le)

/-- A coordinate at most `S` from one inside is near the square. -/
theorem nearSpan_of_le {S v w : K} (h : InSpan cfg w) (hd : |v - w| ≤ S) : NearSpan cfg S v := by
  obtain ⟨hl, hu⟩ := inSpan_near h
  obtain ⟨hdl, hdu⟩ := abs_le.mp hd
  exact ⟨by linarith, by linarith⟩

/-- **Outside between outside and inside**: a point of a line outside the span, before one
inside it, is on the side the line comes from. -/
theorem sameSide_of_between {v d τ ℓ : K} (hin : InSpan cfg (v + d * τ))
    (hℓ : 0 ≤ ℓ) (hτ : ℓ ≤ τ) (hout : ¬ InSpan cfg (v + d * ℓ)) : SameSide cfg v (v + d * ℓ) := by
  obtain ⟨hmin, hmax⟩ := abs_le.mp hin
  unfold InSpan at hout
  rw [abs_le, not_and_or, not_le, not_le] at hout
  rcases le_total 0 d with hd | hd
  · have hfront : chunkOf cfg v ≤ chunkOf cfg (v + d * ℓ) :=
      chunkOf_mono (le_add_of_nonneg_right (mul_nonneg hd hℓ))
    have hback : chunkOf cfg (v + d * ℓ) ≤ chunkOf cfg (v + d * τ) :=
      chunkOf_mono (by linarith [mul_le_mul_of_nonneg_left hτ hd])
    have hlow := hout.resolve_right (by omega)
    exact .inl ⟨by omega, hlow⟩
  · have hfront : chunkOf cfg (v + d * ℓ) ≤ chunkOf cfg v :=
      chunkOf_mono (by linarith [mul_nonpos_of_nonpos_of_nonneg hd hℓ])
    have hback : chunkOf cfg (v + d * τ) ≤ chunkOf cfg (v + d * ℓ) :=
      chunkOf_mono (by linarith [mul_le_mul_of_nonpos_left hτ hd])
    have hhigh := hout.resolve_left (by omega)
    exact .inr ⟨by omega, hhigh⟩

end Square

section Line

/-- The point a way `τ` ahead. -/
def ahead (bwf : Bool) (c : SimClient K) (τ : K) : Vec K :=
  Vec.ofAxes bwf (c.world.h1 + c.dir.h1 * τ) (c.world.h2 bwf + c.dir.h2 bwf * τ) (c.world.up bwf)

/-- Not longer than 1 on either horizontal axis. -/
def UnitAxes (bwf : Bool) (d : Vec K) : Prop := |d.h1| ≤ 1 ∧ |d.h2 bwf| ≤ 1

/-- The walk is inside, or turned towards a point inside at most `S` away. -/
structure Turned (cfg : Config K) (S : K) (c : SimClient K) : Prop where
  unit : UnitAxes cfg.isBwf c.dir
  back : ∃ τ ∈ Set.Icc 0 S, InSquare cfg (ahead cfg.isBwf c τ)

/-- No axis of the step to `nowSec` starts and ends outside on the same side. -/
def StepReturns (cfg : Config K) (nowSec : K) (c : SimClient K) : Prop :=
  let dt := nowSec - c.lastMoveTime
  let next := ahead cfg.isBwf c (dt * cfg.effectiveWalkSpeed)
  dt ≤ 0 ∨ (¬ SameSide cfg c.world.h1 next.h1 ∧
    ¬ SameSide cfg (c.world.h2 cfg.isBwf) (next.h2 cfg.isBwf))

/-- The step to `nowSec` is at most `S` long. -/
def StepWithin (cfg : Config K) (S nowSec : K) (c : SimClient K) : Prop :=
  (nowSec - c.lastMoveTime) * cfg.effectiveWalkSpeed ≤ S

instance (cfg : Config K) (nowSec : K) (c : SimClient K) :
    Decidable (StepReturns cfg nowSec c) := by
  unfold StepReturns SameSide
  exact inferInstance

instance (cfg : Config K) (S nowSec : K) (c : SimClient K) :
    Decidable (StepWithin cfg S nowSec c) := by
  unfold StepWithin
  exact inferInstance

variable {cfg : Config K} {P : Platform K}

variable (cfg P) in
theorem walk2D_world (dt : K) (c : SimClient K) :
    (walk2D P cfg dt c).world = ahead cfg.isBwf c (dt * cfg.effectiveWalkSpeed) := by
  unfold walk2D setVelocity ahead
  dsimp only
  rw [← mul_assoc, ← mul_assoc]
  split <;> rfl

variable (cfg P) in
/-- Outside the square the walk turns around. -/
theorem walk2D_dir (dt : K) (c : SimClient K) :
    (InSquare cfg (ahead cfg.isBwf c (dt * cfg.effectiveWalkSpeed)) ∧
      (walk2D P cfg dt c).dir = c.dir) ∨
    (¬ InSquare cfg (ahead cfg.isBwf c (dt * cfg.effectiveWalkSpeed)) ∧
      (walk2D P cfg dt c).dir =
        Vec.ofAxes cfg.isBwf (-c.dir.h1) (-c.dir.h2 cfg.isBwf) (c.dir.up cfg.isBwf)) := by
  unfold walk2D setVelocity ahead InSquare InSpan chunkOf
  dsimp only
  rw [Vec.h1_ofAxes, Vec.h2_ofAxes, ← mul_assoc, ← mul_assoc, ← not_lt, ← not_lt, ← not_or]
  split
  · rename_i hout
    exact .inr ⟨not_not_intro hout, rfl⟩
  · rename_i hin
    exact .inl ⟨hin, rfl⟩

theorem updateWalk_flat (hs : cfg.isSparse = false) (hn : cfg.volumeChunks ≤ 0) {r : Draws K}
    {nowSec : K} {c : SimClient K} (h : ¬ nowSec - c.lastMoveTime ≤ 0) :
    updateWalk P cfg r nowSec c =
      projectPose cfg
        (walk2D P cfg (nowSec - c.lastMoveTime) { c with lastMoveTime := nowSec }) := by
  unfold updateWalk
  dsimp only
  rw [if_neg h, if_neg (Bool.eq_false_iff.mp hs), if_neg (not_lt.mpr hn)]

omit [LinearOrder K] [FloorRing K] in
theorem ahead_zero (bwf : Bool) (c : SimClient K) : ahead bwf c 0 = c.world := by
  unfold ahead
  rw [mul_zero, mul_zero, add_zero, add_zero, Vec.ofAxes_axes]

omit [LinearOrder K] [FloorRing K] in
/-- Turned around after a way `ℓ`, the walk passes the same points. -/
theorem ahead_turned {bwf : Bool} {c c' : SimClient K} {ℓ : K} (hw : c'.world = ahead bwf c ℓ)
    (hd : c'.dir = Vec.ofAxes bwf (-c.dir.h1) (-c.dir.h2 bwf) (c.dir.up bwf)) (τ : K) :
    ahead bwf c' (ℓ - τ) = ahead bwf c τ := by
  have hline (v d : K) : v + d * ℓ + -d * (ℓ - τ) = v + d * τ := by ring
  unfold ahead at hw ⊢
  rw [hw, hd, Vec.h1_ofAxes, Vec.h1_ofAxes, Vec.h2_ofAxes, Vec.h2_ofAxes, Vec.up_ofAxes, hline,
    hline]

variable [IsStrictOrderedRing K]

theorem Turned.near {S : K} {c : SimClient K} (h : Turned cfg S c) : NearSquare cfg S c := by
  obtain ⟨τ, ⟨h0, hS⟩, hin1, hin2⟩ := h.back
  have hshort {v d : K} (hd : |d| ≤ 1) : |v - (v + d * τ)| ≤ S := by
    calc |v - (v + d * τ)| = |d| * τ := by
          rw [sub_add_cancel_left, abs_neg, abs_mul, abs_of_nonneg h0]
      _ ≤ 1 * τ := mul_le_mul_of_nonneg_right hd h0
      _ ≤ S := by rwa [one_mul]
  unfold ahead at hin1 hin2
  rw [Vec.h1_ofAxes] at hin1
  rw [Vec.h2_ofAxes] at hin2
  exact ⟨nearSpan_of_le hin1 (hshort h.unit.1), nearSpan_of_le hin2 (hshort h.unit.2)⟩

theorem effectiveWalkSpeed_pos (cfg : Config K) : 0 < cfg.effectiveWalkSpeed := by
  unfold Config.effectiveWalkSpeed
  split
  · assumption
  · split <;> norm_num

/-- **One step.** -/
theorem updateWalk_turned (hs : cfg.isSparse = false) (hn : cfg.volumeChunks ≤ 0) {S : K}
    (hS : 0 ≤ S) (r : Draws K) {nowSec : K} {c : SimClient K} (h : Turned cfg S c)
    (hstep : StepWithin cfg S nowSec c) (hback : StepReturns cfg nowSec c) :
    Turned cfg S (updateWalk P cfg r nowSec c) := by
  by_cases hdt : nowSec - c.lastMoveTime ≤ 0
  · rw [updateWalk_still hdt]
    exact ⟨h.unit, h.back⟩
  have hpast := hback.resolve_left hdt
  rw [updateWalk_flat hs hn hdt]
  have hw := walk2D_world cfg P (nowSec - c.lastMoveTime)
    { c with lastMoveTime := nowSec }
  have hd := walk2D_dir cfg P (nowSec - c.lastMoveTime)
    { c with lastMoveTime := nowSec }
  unfold StepWithin at hstep
  have hℓ0 : 0 ≤ (nowSec - c.lastMoveTime) * cfg.effectiveWalkSpeed :=
    (mul_pos (not_le.mp hdt) (effectiveWalkSpeed_pos cfg)).le
  generalize walk2D P cfg (nowSec - c.lastMoveTime) { c with lastMoveTime := nowSec } = c'
    at hw hd ⊢
  generalize (nowSec - c.lastMoveTime) * cfg.effectiveWalkSpeed = ℓ at hpast hstep hw hd hℓ0
  replace hw : c'.world = ahead cfg.isBwf c ℓ := hw
  rcases hd with ⟨hin, hd⟩ | ⟨hout, hd⟩
  · refine ⟨show UnitAxes cfg.isBwf c'.dir from hd ▸ h.unit, 0, ⟨le_rfl, hS⟩, ?_⟩
    rw [ahead_zero]
    show InSquare cfg c'.world
    rw [hw]
    exact hin
  · have hunit : UnitAxes cfg.isBwf c'.dir := by
      unfold UnitAxes
      rw [hd, Vec.h1_ofAxes, Vec.h2_ofAxes, abs_neg, abs_neg]
      exact h.unit
    obtain ⟨τ, ⟨hτ0, hτS⟩, hin⟩ := h.back
    rcases le_or_gt τ ℓ with hle | hgt
    · refine ⟨hunit, ℓ - τ, ⟨by linarith, by linarith⟩, ?_⟩
      show InSquare cfg (ahead cfg.isBwf c' (ℓ - τ))
      rw [ahead_turned hw hd]
      exact hin
    · -- the step ends between the outside and the point inside
      refine absurd ?_ hout
      unfold InSquare ahead at hin ⊢
      unfold ahead at hpast
      rw [Vec.h1_ofAxes, Vec.h2_ofAxes] at hin hpast ⊢
      constructor
      · by_contra hfirst
        exact hpast.1 (sameSide_of_between hin.1 hℓ0 hgt.le hfirst)
      · by_contra hsecond
        exact hpast.2 (sameSide_of_between hin.2 hℓ0 hgt.le hsecond)

theorem walked_turned (hs : cfg.isSparse = false) (hn : cfg.volumeChunks ≤ 0) {S : K}
    (hS : 0 ≤ S) (calls : List (Draws K × K)) {c : SimClient K} (h : Turned cfg S c)
    (hgaps : EachStep cfg P (StepWithin cfg S) c calls)
    (hback : EachStep cfg P (StepReturns cfg) c calls) :
    ∀ c' ∈ walked cfg P c calls, Turned cfg S c' := by
  induction calls generalizing c with
  | nil => exact fun _ hmem => absurd hmem List.not_mem_nil
  | cons call calls ih =>
    obtain ⟨r, nowSec⟩ := call
    have hnext := updateWalk_turned (P := P) hs hn hS r h hgaps.1 hback.1
    rw [walked, List.forall_mem_cons]
    exact ⟨hnext, ih hnext hgaps.2 hback.2⟩

end Line

section Start

variable {cfg : Config K} {P : Platform K}

/-- What `sqrt` answers at `s`, in exact arithmetic. -/
def SquareRoot (P : Platform K) (s : K) : Prop := 0 ≤ P.sqrt s ∧ P.sqrt s * P.sqrt s = s

/-- The chunks and the direction `initSimulation` draws for the flat population. -/
structure StartDraws (cfg : Config K) (P : Platform K) (r : Draws K) : Prop where
  first : |r.chunk1| ≤ cfg.spawnRadiusChunks
  second : |r.chunk2| ≤ cfg.spawnRadiusChunks
  length : SquareRoot P (r.direction.x * r.direction.x + r.direction.y * r.direction.y)

variable [IsStrictOrderedRing K]

/-- A coordinate of a vector over its length. -/
theorem abs_div_length {x y l : K} (hl : 0 ≤ l) (h : l * l = x * x + y * y) : |x / l| ≤ 1 := by
  have hx : |x| ≤ l := abs_le_of_sq_le_sq (by nlinarith [mul_self_nonneg y]) hl
  rw [abs_div, abs_of_nonneg hl]
  exact div_le_one_of_le₀ hx hl

theorem initSimulation_turned (hs : cfg.isSparse = false) (hn : cfg.volumeChunks ≤ 0) {S : K}
    (hS : 0 ≤ S) {r : Draws K} (hr : StartDraws cfg P r) (nowSec : K) (c : SimClient K) :
    Turned cfg S (initSimulation P cfg r nowSec c) := by
  have hcorner {k : Int} (hk : |k| ≤ cfg.spawnRadiusChunks) :
      InSpan cfg ((k : K) * cfg.effectiveChunkSize) := by
    have hslot := chunkOf_slot cfg (k := k) (j := (0 : K)) le_rfl one_pos
    rw [add_zero] at hslot
    unfold InSpan
    rwa [hslot]
  have hspawn : spawn P cfg r nowSec c =
      { c with
        world := Vec.ofAxes cfg.isBwf ((r.chunk1 : K) * cfg.effectiveChunkSize)
          ((r.chunk2 : K) * cfg.effectiveChunkSize) (walkHeight cfg)
        dir := randomizeDirection P cfg r.direction } := by
    unfold spawn
    dsimp only
    rw [if_neg (Bool.eq_false_iff.mp hs), if_neg (not_lt.mpr hn)]
  obtain ⟨hl, hroot⟩ := hr.length
  refine ⟨?_, 0, ⟨le_rfl, hS⟩, ?_⟩
  · show UnitAxes cfg.isBwf (spawn P cfg r nowSec c).dir
    rw [hspawn]
    unfold UnitAxes randomizeDirection
    dsimp only
    rw [Vec.h1_ofAxes, Vec.h2_ofAxes]
    exact ⟨abs_div_length hl hroot, abs_div_length hl (hroot.trans (add_comm ..))⟩
  · rw [ahead_zero]
    show InSquare cfg (spawn P cfg r nowSec c).world
    rw [hspawn]
    unfold InSquare
    dsimp only
    rw [Vec.h1_ofAxes, Vec.h2_ofAxes]
    exact ⟨hcorner hr.first, hcorner hr.second⟩

/-- **Confinement.** From every start of the flat population, along any calls of `updateWalk`
whose steps are at most `S` long: while no step that starts outside the spawn square ends
outside it on the same side, the client is never more than `S` from the square on either
axis. -/
theorem flat_walk_near (hs : cfg.isSparse = false) (hn : cfg.volumeChunks ≤ 0) {S : K}
    (hS : 0 ≤ S) {r : Draws K} (hr : StartDraws cfg P r) (nowSec : K) (c : SimClient K)
    (calls : List (Draws K × K))
    (hgaps : EachStep cfg P (StepWithin cfg S) (initSimulation P cfg r nowSec c) calls)
    (hback : EachStep cfg P (StepReturns cfg) (initSimulation P cfg r nowSec c) calls) :
    ∀ c' ∈ initSimulation P cfg r nowSec c :: walked cfg P (initSimulation P cfg r nowSec c) calls,
      NearSquare cfg S c' := by
  have hstart := initSimulation_turned hs hn hS hr nowSec c
  rw [List.forall_mem_cons]
  exact ⟨hstart.near, fun c' hmem => (walked_turned hs hn hS calls hstart hgaps hback c' hmem).near⟩

end Start

namespace Sample

/-- The last chunk of the square, along the first axis. -/
def edgeDraws : Draws ℚ := { draws with chunk1 := 8 }

def edgeStart : SimClient ℚ := initSimulation platform config edgeDraws 0 (fresh {} 0)

theorem edgeDraws_start : StartDraws config platform edgeDraws := by
  refine ⟨by decide, by decide, ?_, ?_⟩ <;> decide +kernel

/-- Steps of at most 20 units, at the given times. -/
def at_times (times : List ℚ) : List (Draws ℚ × ℚ) := times.map fun t => (draws, t)

end Sample

/-- Out and back again in steps of 20 units. -/
theorem flat_walk_near_sample :
    StartDraws Sample.config Sample.platform Sample.edgeDraws ∧
      ∀ c' ∈ Sample.edgeStart ::
          walked Sample.config Sample.platform Sample.edgeStart (Sample.at_times [5, 10]),
        NearSquare Sample.config 20 c' := by
  refine ⟨Sample.edgeDraws_start,
    flat_walk_near rfl le_rfl (by norm_num) Sample.edgeDraws_start 0 (fresh {} 0) _ ?_ ?_⟩
  · decide +kernel
  · decide +kernel

/-- Out in a long step, a short one back, and the next long step leads away. -/
theorem flat_walk_drifts :
    Sample.config.Accepted ∧ StartDraws Sample.config Sample.platform Sample.edgeDraws ∧
      EachStep Sample.config Sample.platform (StepWithin Sample.config 20) Sample.edgeStart
        (Sample.at_times [5, 21 / 4, 41 / 4]) ∧
      ¬ ∀ c' ∈ walked Sample.config Sample.platform Sample.edgeStart
          (Sample.at_times [5, 21 / 4, 41 / 4]), NearSquare Sample.config 20 c' := by
  refine ⟨show Config.validate _ = _ by decide +kernel, Sample.edgeDraws_start, ?_, ?_⟩
  · decide +kernel
  · decide +kernel

end CksLoadtest.SimClient
