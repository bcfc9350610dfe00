import CksLoadtest.Client.Placement

/-!
# Bounded walks

A sparse client bounces inside its own chunk and a cube client inside the cube. The bounce
keeps the position in a closed interval, while the chunk of its upper end is the next one: a
client leaves its chunks exactly when a step lands on an upper edge, or on the point that the
lower edge reflects to it.
-/
namespace CksLoadtest.SimClient

open Lib.Radix

variable {K : Type*} [Field K] [LinearOrder K]

/-- A raw position that `bounce` does not take to the upper end. -/
def MissesEdge (lo hi v : K) : Prop := v ≠ hi ∧ v ≠ lo - (hi - lo)

instance (lo hi v : K) : Decidable (MissesEdge lo hi v) :=
  inferInstanceAs (Decidable (v ≠ hi ∧ v ≠ lo - (hi - lo)))

/-- One bounded axis of a walk: position, direction and the two edges. -/
structure Lane (K : Type*) where
  pos : K
  dir : K
  lo : K
  hi : K

section Bounce

variable [IsStrictOrderedRing K] {lo hi : K}

theorem bounce_below {v : K} (d : K) (h : lo ≤ hi) (hv : v < lo) :
    (bounce v d lo hi).1 =
      if hi < lo + (lo - v) then max lo (hi - (lo + (lo - v) - hi)) else lo + (lo - v) := by
  unfold bounce
  rw [if_pos hv]
  dsimp only
  by_cases hover : hi < lo + (lo - v)
  · rw [if_pos hover, if_pos hover]
    dsimp only
    by_cases hunder : hi - (lo + (lo - v) - hi) < lo
    · rw [if_pos hunder, if_neg (not_lt.mpr h), max_eq_left hunder.le]
    · rw [if_neg hunder, if_neg (by linarith), max_eq_right (not_lt.mp hunder)]
  · rw [if_neg hover, if_neg hover]
    dsimp only
    rw [if_neg (show ¬ lo + (lo - v) < lo by linarith), if_neg hover]

theorem bounce_above {v : K} (d : K) (h : lo ≤ hi) (hv : hi < v) :
    (bounce v d lo hi).1 = max lo (hi - (v - hi)) := by
  unfold bounce
  rw [if_neg (by linarith)]
  dsimp only
  rw [if_pos hv]
  dsimp only
  by_cases hunder : hi - (v - hi) < lo
  · rw [if_pos hunder, if_neg (not_lt.mpr h), max_eq_left hunder.le]
  · rw [if_neg hunder, if_neg (by linarith), max_eq_right (not_lt.mp hunder)]

omit [IsStrictOrderedRing K] in
theorem bounce_inside {v : K} (d : K) (hl : lo ≤ v) (hu : v ≤ hi) : (bounce v d lo hi).1 = v := by
  unfold bounce
  rw [if_neg (not_lt.mpr hl)]
  dsimp only
  rw [if_neg (not_lt.mpr hu)]
  dsimp only
  rw [if_neg (not_lt.mpr hl), if_neg (not_lt.mpr hu)]

/-- **The bounce confines** to the closed interval, however long the step. -/
theorem bounce_mem (v d : K) (h : lo < hi) : (bounce v d lo hi).1 ∈ Set.Icc lo hi := by
  rcases lt_or_ge v lo with hv | hl
  · rw [bounce_below d h.le hv]
    split
    · exact ⟨le_max_left .., max_le h.le (by linarith)⟩
    · exact ⟨by linarith, by linarith⟩
  · rcases lt_or_ge hi v with hv | hu
    · rw [bounce_above d h.le hv]
      exact ⟨le_max_left .., max_le h.le (by linarith)⟩
    · rw [bounce_inside d hl hu]
      exact ⟨hl, hu⟩

/-- **The upper end is reached** from itself and from its mirror point alone. -/
theorem bounce_lt_iff (v d : K) (h : lo < hi) :
    (bounce v d lo hi).1 < hi ↔ MissesEdge lo hi v := by
  unfold MissesEdge
  rcases lt_or_ge v lo with hv | hl
  · have hne : v ≠ hi := by
      intro heq
      linarith
    rw [bounce_below d h.le hv]
    split
    · have hfar : v ≠ lo - (hi - lo) := by
        intro heq
        linarith
      exact iff_of_true (max_lt h (by linarith)) ⟨hne, hfar⟩
    · constructor
      · intro hlt
        refine ⟨hne, fun heq => ?_⟩
        linarith
      · rintro ⟨-, hmirror⟩
        refine lt_of_le_of_ne (by linarith) fun heq => hmirror ?_
        linarith
  · have hmirror : v ≠ lo - (hi - lo) := by
      intro heq
      linarith
    rcases lt_or_ge hi v with hv | hu
    · rw [bounce_above d h.le hv]
      exact iff_of_true (max_lt h (by linarith)) ⟨hv.ne', hmirror⟩
    · rw [bounce_inside d hl hu]
      exact ⟨fun hlt => ⟨hlt.ne, hmirror⟩, fun hne => lt_of_le_of_ne hu hne.1⟩

end Bounce

section Walk

variable (cfg : Config K)

/-- The axes on which a walk is bounded, with their edges. -/
def lanes (c : SimClient K) : List (Lane K) :=
  let bwf := cfg.isBwf
  let size := cfg.effectiveChunkSize
  if cfg.isSparse then
    [⟨c.world.h1, c.dir.h1, (c.sparseC1 : K) * size, (c.sparseC1 : K) * size + size⟩,
      ⟨c.world.h2 bwf, c.dir.h2 bwf, (c.sparseC2 : K) * size, (c.sparseC2 : K) * size + size⟩]
  else
    let hmin : K := (cubeMinHorizontal cfg : K) * size
    let umin : K := (cfg.volumeBaseUp : K) * size
    [⟨c.world.h1, c.dir.h1, hmin, hmin + (cfg.volumeChunks : K) * size⟩,
      ⟨c.world.h2 bwf, c.dir.h2 bwf, hmin, hmin + (cfg.volumeChunks : K) * size⟩,
      ⟨c.world.up bwf, c.dir.up bwf, umin, umin + (cfg.volumeChunks : K) * size⟩]

/-- The step to `nowSec` lands on no upper edge and on no mirror point of one. -/
def StepMissesEdges (nowSec : K) (c : SimClient K) : Prop :=
  let dt := nowSec - c.lastMoveTime
  dt ≤ 0 ∨ ∀ l ∈ lanes cfg c, MissesEdge l.lo l.hi (l.pos + l.dir * dt * cfg.effectiveWalkSpeed)

instance (nowSec : K) (c : SimClient K) : Decidable (StepMissesEdges cfg nowSec c) :=
  inferInstanceAs (Decidable (_ ≤ _ ∨ ∀ l ∈ lanes cfg c, MissesEdge _ _ _))

/-- The projected chunk is the client's own. -/
def OwnChunk (c : SimClient K) : Prop :=
  if cfg.isSparse then c.chunk.h1 = c.sparseC1 ∧ c.chunk.h2 cfg.isBwf = c.sparseC2
  else c.chunk ∈ cubeChunks cfg

-- on `Int` as such: the order that the interval uses may not be found computable
instance (v : Vec Int) : Decidable (v ∈ cubeChunks cfg) :=
  let _ (a n x : Int) : Decidable (x ∈ Set.Ico a (a + n)) :=
    inferInstanceAs (Decidable (a ≤ x ∧ x < a + n))
  inferInstanceAs (Decidable (v.h1 ∈ Set.Ico _ _ ∧ v.h2 cfg.isBwf ∈ Set.Ico _ _ ∧
    v.up cfg.isBwf ∈ Set.Ico _ _))

instance (c : SimClient K) : Decidable (OwnChunk cfg c) :=
  inferInstanceAs (Decidable (if cfg.isSparse then _ else _))

variable [FloorRing K] (P : Platform K)

/-- The states after each of a sequence of `updateWalk` calls. -/
def walked (c : SimClient K) : List (Draws K × K) → List (SimClient K)
  | [] => []
  | (r, nowSec) :: calls =>
    updateWalk P cfg r nowSec c :: walked (updateWalk P cfg r nowSec c) calls

/-- Before each call of the sequence the condition holds of its time and the client. -/
def EachStep (Q : K → SimClient K → Prop) (c : SimClient K) : List (Draws K × K) → Prop
  | [] => True
  | (r, nowSec) :: calls => Q nowSec c ∧ EachStep Q (updateWalk P cfg r nowSec c) calls

instance instDecidableEachStep (Q : K → SimClient K → Prop) [∀ t c, Decidable (Q t c)]
    (c : SimClient K) (calls : List (Draws K × K)) : Decidable (EachStep cfg P Q c calls) :=
  match calls with
  | [] => isTrue trivial
  | (r, nowSec) :: calls =>
    have := instDecidableEachStep Q (updateWalk P cfg r nowSec c) calls
    inferInstanceAs (Decidable (Q nowSec c ∧ EachStep cfg P Q (updateWalk P cfg r nowSec c) calls))

/-- Every step of the sequence misses the edges. -/
def MissesEdges (c : SimClient K) (calls : List (Draws K × K)) : Prop :=
  EachStep cfg P (StepMissesEdges cfg) c calls

instance (c : SimClient K) (calls : List (Draws K × K)) :
    Decidable (MissesEdges cfg P c calls) :=
  inferInstanceAs (Decidable (EachStep cfg P (StepMissesEdges cfg) c calls))

section Step

variable {cfg} {P}

theorem updateWalk_still {r : Draws K} {nowSec : K} {c : SimClient K}
    (h : nowSec - c.lastMoveTime ≤ 0) :
    updateWalk P cfg r nowSec c = { c with lastMoveTime := nowSec } := if_pos h

theorem updateWalk_sparse (hs : cfg.isSparse = true) {r : Draws K} {nowSec : K} {c : SimClient K}
    (h : ¬ nowSec - c.lastMoveTime ≤ 0) :
    updateWalk P cfg r nowSec c =
      projectPose cfg
        (walkSparse P cfg (nowSec - c.lastMoveTime) { c with lastMoveTime := nowSec }) := by
  unfold updateWalk
  dsimp only
  rw [if_neg h, if_pos hs]

theorem updateWalk_cube (hs : cfg.isSparse = false) (hn : 0 < cfg.volumeChunks) {r : Draws K}
    {nowSec : K} {c : SimClient K} (h : ¬ nowSec - c.lastMoveTime ≤ 0) :
    updateWalk P cfg r nowSec c =
      projectPose cfg
        (walkCube P cfg r nowSec (nowSec - c.lastMoveTime) { c with lastMoveTime := nowSec }) := by
  unfold updateWalk
  dsimp only
  rw [if_neg h, if_neg (Bool.eq_false_iff.mp hs), if_pos hn]

omit [FloorRing K] in
theorem walkSparse_world (dt : K) (c : SimClient K) :
    (walkSparse P cfg dt c).world =
      let step (v d lo : K) : K :=
        (bounce (v + d * dt * cfg.effectiveWalkSpeed) d lo (lo + cfg.effectiveChunkSize)).1
      Vec.ofAxes cfg.isBwf
        (step c.world.h1 c.dir.h1 ((c.sparseC1 : K) * cfg.effectiveChunkSize))
        (step (c.world.h2 cfg.isBwf) (c.dir.h2 cfg.isBwf)
          ((c.sparseC2 : K) * cfg.effectiveChunkSize))
        (c.world.up cfg.isBwf) := rfl

omit [FloorRing K] in
/-- A re-aim turns the client and leaves it where it is. -/
theorem walkCube_world (r : Draws K) (nowSec dt : K) (c : SimClient K) :
    (walkCube P cfg r nowSec dt c).world =
      let step (v d lo hi : K) : K := (bounce (v + d * dt * cfg.effectiveWalkSpeed) d lo hi).1
      let hmin : K := (cubeMinHorizontal cfg : K) * cfg.effectiveChunkSize
      let umin : K := (cfg.volumeBaseUp : K) * cfg.effectiveChunkSize
      let edge : K := (cfg.volumeChunks : K) * cfg.effectiveChunkSize
      Vec.ofAxes cfg.isBwf (step c.world.h1 c.dir.h1 hmin (hmin + edge))
        (step (c.world.h2 cfg.isBwf) (c.dir.h2 cfg.isBwf) hmin (hmin + edge))
        (step (c.world.up cfg.isBwf) (c.dir.up cfg.isBwf) umin (umin + edge)) := by
  unfold walkCube setVelocity
  dsimp only
  split <;> rfl

variable [IsStrictOrderedRing K]

theorem chunkOf_mem_Ico {v : K} {a n : Int} :
    chunkOf cfg v ∈ Set.Ico a (a + n) ↔
      v ∈ Set.Ico ((a : K) * cfg.effectiveChunkSize)
        ((a : K) * cfg.effectiveChunkSize + (n : K) * cfg.effectiveChunkSize) := by
  have hpos := effectiveChunkSize_pos cfg
  rw [Set.mem_Ico, Set.mem_Ico, chunkOf, Int.le_floor, Int.floor_lt, le_div_iff₀ hpos,
    div_lt_iff₀ hpos, ← add_mul]
  push_cast
  rfl

/-- After a bounce between the edges of `n` columns the chunk is one of them unless the step
lands on the upper edge. -/
theorem chunkOf_bounce {a n : Int} (hn : 0 < n) {lo hi : K}
    (hlo : lo = (a : K) * cfg.effectiveChunkSize)
    (hhi : hi = lo + (n : K) * cfg.effectiveChunkSize) (v d : K) :
    chunkOf cfg (bounce v d lo hi).1 ∈ Set.Ico a (a + n) ↔ MissesEdge lo hi v := by
  have hlen : 0 < (n : K) * cfg.effectiveChunkSize :=
    mul_pos (Int.cast_pos.mpr hn) (effectiveChunkSize_pos cfg)
  have hlt : lo < hi := hhi ▸ lt_add_of_pos_right lo hlen
  rw [chunkOf_mem_Ico, ← bounce_lt_iff v d hlt, ← hlo, ← hhi]
  exact ⟨fun h => h.2, fun h => ⟨(bounce_mem v d hlt).1, h⟩⟩

theorem chunkOf_bounce_one {a : Int} {lo hi : K} (hlo : lo = (a : K) * cfg.effectiveChunkSize)
    (hhi : hi = lo + cfg.effectiveChunkSize) (v d : K) :
    chunkOf cfg (bounce v d lo hi).1 = a ↔ MissesEdge lo hi v := by
  have hone : hi = lo + ((1 : Int) : K) * cfg.effectiveChunkSize := by
    rw [hhi, Int.cast_one, one_mul]
  rw [← chunkOf_bounce one_pos hlo hone v d, Set.mem_Ico]
  omega

/-- **One step**: a moving client is in its own chunks exactly if the step misses the edges. -/
theorem updateWalk_own (hmode : cfg.isSparse = true ∨ 0 < cfg.volumeChunks) (r : Draws K)
    {nowSec : K} {c : SimClient K} (h : OwnChunk cfg c) :
    OwnChunk cfg (updateWalk P cfg r nowSec c) ↔ StepMissesEdges cfg nowSec c := by
  unfold StepMissesEdges
  by_cases hdt : nowSec - c.lastMoveTime ≤ 0
  · rw [updateWalk_still hdt]
    exact iff_of_true h (.inl hdt)
  · rw [or_iff_right hdt]
    cases hs : cfg.isSparse with
    | true =>
      rw [updateWalk_sparse hs hdt]
      unfold OwnChunk lanes
      rw [if_pos hs, if_pos hs, projectPose_h1, projectPose_h2, walkSparse_world]
      simp only [List.forall_mem_cons, List.not_mem_nil, false_imp_iff, implies_true, and_true]
      rw [Vec.h1_ofAxes, Vec.h2_ofAxes]
      exact and_congr (chunkOf_bounce_one rfl rfl ..) (chunkOf_bounce_one rfl rfl ..)
    | false =>
      have hn : 0 < cfg.volumeChunks := hmode.resolve_left (by rw [hs]; exact Bool.false_ne_true)
      rw [updateWalk_cube hs hn hdt]
      unfold OwnChunk lanes cubeChunks
      rw [if_neg (Bool.eq_false_iff.mp hs), if_neg (Bool.eq_false_iff.mp hs), Set.mem_ofPred_eq,
        projectPose_h1, projectPose_h2, projectPose_up, walkCube_world]
      dsimp only
      rw [Vec.h1_ofAxes, Vec.h2_ofAxes, Vec.up_ofAxes, chunkOf_bounce hn rfl rfl,
        chunkOf_bounce hn rfl rfl, chunkOf_bounce hn rfl rfl]
      simp only [List.forall_mem_cons, List.not_mem_nil, false_imp_iff, implies_true, and_true]

/-- **Whole runs.** -/
theorem walked_own (hmode : cfg.isSparse = true ∨ 0 < cfg.volumeChunks)
    (calls : List (Draws K × K)) {c : SimClient K} (h : OwnChunk cfg c) :
    (∀ c' ∈ walked cfg P c calls, OwnChunk cfg c') ↔ MissesEdges cfg P c calls := by
  induction calls generalizing c with
  | nil => exact iff_of_true (fun _ hmem => absurd hmem List.not_mem_nil) trivial
  | cons call calls ih =>
    obtain ⟨r, nowSec⟩ := call
    rw [walked, List.forall_mem_cons, MissesEdges, EachStep, updateWalk_own hmode r h]
    refine and_congr_right fun hmiss => ih ?_
    exact (updateWalk_own hmode r h).mpr hmiss

/-- The jitters `initSimulation` draws for a bounded population shape. -/
def StartJitters (cfg : Config K) (r : Draws K) : Prop :=
  if cfg.isSparse then
    r.jitter1 ∈ Set.Icc (1 / 10) (9 / 10) ∧ r.jitter2 ∈ Set.Icc (1 / 10) (9 / 10)
  else r.Jittered

theorem initSimulation_own (hmode : cfg.isSparse = true ∨ 0 < cfg.volumeChunks) {r : Draws K}
    (hr : StartJitters cfg r) (nowSec : K) (c : SimClient K) :
    OwnChunk cfg (initSimulation P cfg r nowSec c) := by
  unfold StartJitters at hr
  unfold OwnChunk
  cases hs : cfg.isSparse with
  | true =>
    rw [if_pos hs] at hr
    have hin {j : K} (hj : j ∈ Set.Icc (1 / 10 : K) (9 / 10)) : 0 ≤ j ∧ j < 1 :=
      ⟨le_trans (by norm_num) hj.1, lt_of_le_of_lt hj.2 (by norm_num)⟩
    unfold initSimulation spawn
    dsimp only
    rw [if_pos rfl, if_pos hs, projectPose_h1, projectPose_h2]
    unfold rebuildTemplate
    dsimp only
    rw [Vec.h1_ofAxes, Vec.h2_ofAxes]
    exact ⟨chunkOf_slot cfg (hin hr.1).1 (hin hr.1).2, chunkOf_slot cfg (hin hr.2).1 (hin hr.2).2⟩
  | false =>
    rw [hs, if_neg Bool.false_ne_true] at hr
    have hn : 0 < cfg.volumeChunks := hmode.resolve_left (by rw [hs]; exact Bool.false_ne_true)
    rw [if_neg Bool.false_ne_true, initSimulation_cubeChunk cfg P hs hn, cubeChunk_eq cfg hn hr]
    exact (bijOn_columnChunk cfg).mapsTo (digits_mem hn _)

/-- **When a bounded walk keeps its chunks.** From every start of `initSimulation`, along any
calls of `updateWalk`, with any directions and times: the client is in its own chunks after each
of them exactly if no step lands on an upper edge or on its mirror point. -/
theorem bounded_walk_iff (hmode : cfg.isSparse = true ∨ 0 < cfg.volumeChunks) {r : Draws K}
    (hr : StartJitters cfg r) (nowSec : K) (c : SimClient K)
    (calls : List (Draws K × K)) :
    let start := initSimulation P cfg r nowSec c
    (∀ c' ∈ walked cfg P start calls, OwnChunk cfg c') ↔ MissesEdges cfg P start calls :=
  walked_own hmode calls (initSimulation_own hmode hr nowSec c)

end Step

end Walk

namespace Sample

def platform : Platform ℚ where
  hmacSha256 _ _ := some (List.replicate Hmac.TAG_SIZE 0)
  behindToken _ _ := 0
  f64 _ := .replicate 8 0
  f32 _ := .replicate 4 0
  -- as the square root on the directions drawn below
  sqrt x := x
  atan2 _ _ := 0
  inetPton _ := some 0

/-- A fleet in the other profile's units: chunks of 16, four units a second. -/
def config : Config ℚ :=
  { walkSpeed := -1, chunkSizeUnits := -1, poseFormat := "bwf"
    email := "bots@studio.example", password := "hunter22"
    managementApiUrl := "https://api.example", appId := 7, clients := 1, indexLimit := 1 }

/-- Mid-chunk, along the first axis. -/
def draws : Draws ℚ := ⟨1 / 2, 1 / 2, 1 / 2, 0, 0, ⟨1, 0, 0⟩, 4, 0, 0, 0⟩

def sparse : Config ℚ := { config with sparseRangeChunks := 1000 }

def start (cfg : Config ℚ) : SimClient ℚ := initSimulation platform cfg draws 0 (fresh {} 0)

theorem half_mem {a b : ℚ} (ha : a ≤ 1 / 2) (hb : 1 / 2 ≤ b) : (1 / 2 : ℚ) ∈ Set.Icc a b := ⟨ha, hb⟩

theorem draws_sparse : StartJitters sparse draws :=
  ⟨half_mem (by norm_num) (by norm_num), half_mem (by norm_num) (by norm_num)⟩

end Sample

/-- Steps of one second and of a half miss the edges, and keep the sparse client inside. -/
theorem bounded_walk_inside :
    MissesEdges Sample.sparse Sample.platform (Sample.start Sample.sparse)
        [(Sample.draws, 1), (Sample.draws, 3 / 2)] ∧
      ∀ c' ∈ walked Sample.sparse Sample.platform (Sample.start Sample.sparse)
        [(Sample.draws, 1), (Sample.draws, 3 / 2)], OwnChunk Sample.sparse c' := by
  have hmiss : MissesEdges Sample.sparse Sample.platform (Sample.start Sample.sparse)
      [(Sample.draws, 1), (Sample.draws, 3 / 2)] := by
    decide +kernel
  exact ⟨hmiss,
    (bounded_walk_iff (.inl (by decide)) Sample.draws_sparse 0 (fresh {} 0) _).mpr hmiss⟩

/-- A step of two seconds ends on the upper edge, in the next chunk. -/
theorem bounded_walk_leaves :
    Sample.sparse.Accepted ∧ StartJitters Sample.sparse Sample.draws ∧
      ¬ ∀ c' ∈ walked Sample.sparse Sample.platform (Sample.start Sample.sparse)
        [(Sample.draws, 2)], OwnChunk Sample.sparse c' :=
  ⟨show Config.validate _ = _ by decide +kernel, Sample.draws_sparse, by decide +kernel⟩

end CksLoadtest.SimClient
