import Mathlib.Algebra.Order.Floor.Ring
import Mathlib.Data.Rat.Floor
import Mathlib.Tactic.NormNum
import CksLoadtest.Client.SimClient
import CksLoadtest.Lib.Radix

/-!
# Chunks of a position and the cube

`projectPose` cuts each world axis at the multiples of the chunk size. `placeInCube` spreads
the global index over the columns of the cube by a permutation and a mixed-radix split, so
that a whole cycle of indices fills it.
-/
namespace CksLoadtest

open Lib.Radix

namespace Vec

variable {K : Type*}

@[simp] theorem ofAxes_axes (bwf : Bool) (v : Vec K) :
    ofAxes bwf v.h1 (v.h2 bwf) (v.up bwf) = v := by
  cases bwf <;> rfl

end Vec

namespace SimClient

variable {K : Type*} [Field K] [LinearOrder K]

section Projection

variable (cfg : Config K)

theorem effectiveChunkSize_pos [IsStrictOrderedRing K] : 0 < cfg.effectiveChunkSize := by
  unfold Config.effectiveChunkSize
  split
  · assumption
  · split <;> norm_num

variable [FloorRing K]

/-- The chunk a coordinate lies in. -/
def chunkOf (v : K) : Int := ⌊v / cfg.effectiveChunkSize⌋

theorem projectPose_h1 (c : SimClient K) :
    (projectPose cfg c).chunk.h1 = chunkOf cfg c.world.h1 := rfl

theorem projectPose_h2 (c : SimClient K) (bwf : Bool) :
    (projectPose cfg c).chunk.h2 bwf = chunkOf cfg (c.world.h2 bwf) := by
  cases bwf <;> rfl

theorem projectPose_up (c : SimClient K) (bwf : Bool) :
    (projectPose cfg c).chunk.up bwf = chunkOf cfg (c.world.up bwf) := by
  cases bwf <;> rfl

variable [IsStrictOrderedRing K]

theorem chunkOf_eq_iff {v : K} {k : Int} :
    chunkOf cfg v = k ↔
      (k : K) * cfg.effectiveChunkSize ≤ v ∧ v < ((k : K) + 1) * cfg.effectiveChunkSize := by
  rw [chunkOf, Int.floor_eq_iff, le_div_iff₀ (effectiveChunkSize_pos cfg),
    div_lt_iff₀ (effectiveChunkSize_pos cfg)]

/-- A jittered slot is floored back to its chunk. -/
theorem chunkOf_slot {k : Int} {j : K} (h0 : 0 ≤ j) (h1 : j < 1) :
    chunkOf cfg (((k : K) + j) * cfg.effectiveChunkSize) = k := by
  have hpos := effectiveChunkSize_pos cfg
  rw [chunkOf_eq_iff]
  constructor
  · exact mul_le_mul_of_nonneg_right (by linarith) hpos.le
  · exact mul_lt_mul_of_pos_right (by linarith) hpos

end Projection

section Cube

variable (cfg : Config K)

/-- The chunks of the cube: `volumeChunks` columns on each axis, around the origin on the
horizontal axes and standing on `volumeBaseUp`. -/
def cubeChunks : Set (Vec Int) :=
  {v | v.h1 ∈ Set.Ico (cubeMinHorizontal cfg) (cubeMinHorizontal cfg + cfg.volumeChunks) ∧
    v.h2 cfg.isBwf ∈ Set.Ico (cubeMinHorizontal cfg) (cubeMinHorizontal cfg + cfg.volumeChunks) ∧
    v.up cfg.isBwf ∈ Set.Ico cfg.volumeBaseUp (cfg.volumeBaseUp + cfg.volumeChunks)}

/-- The chunk in the given columns, in the order of the split: first horizontal axis,
vertical, second horizontal. -/
def columnChunk (d : Int × Int × Int) : Vec Int :=
  Vec.ofAxes cfg.isBwf (cubeMinHorizontal cfg + d.1) (cubeMinHorizontal cfg + d.2.2)
    (cfg.volumeBaseUp + d.2.1)

omit [Field K] [LinearOrder K] in
theorem bijOn_columnChunk :
    Set.BijOn (columnChunk cfg) (Digits cfg.volumeChunks) (cubeChunks cfg) := by
  refine ⟨?_, ?_, ?_⟩
  · rintro d ⟨h1, h2, h3⟩
    simp only [cubeChunks, columnChunk, Set.mem_ofPred_eq, Vec.h1_ofAxes, Vec.h2_ofAxes,
      Vec.up_ofAxes, Set.mem_Ico] at h1 h2 h3 ⊢
    omega
  · intro d _ e _ hde
    have h1 := congrArg Vec.h1 hde
    have h2 := congrArg (Vec.h2 cfg.isBwf) hde
    have h3 := congrArg (Vec.up cfg.isBwf) hde
    simp only [columnChunk, Vec.h1_ofAxes, Vec.h2_ofAxes, Vec.up_ofAxes, add_right_inj] at h1 h2 h3
    exact Prod.ext h1 (Prod.ext h3 h2)
  · rintro v ⟨h1, h2, h3⟩
    refine ⟨(v.h1 - cubeMinHorizontal cfg, v.up cfg.isBwf - cfg.volumeBaseUp,
      v.h2 cfg.isBwf - cubeMinHorizontal cfg), ?_, ?_⟩
    · simp only [Digits, Set.mem_ofPred_eq, Set.mem_Ico] at h1 h2 h3 ⊢
      omega
    · simp only [columnChunk, add_sub_cancel, Vec.ofAxes_axes]

/-- The jitters of a placement keep clear of the chunk's edges. -/
structure Draws.Jittered (r : Draws K) : Prop where
  first : r.jitter1 ∈ Set.Icc (1 / 20) (19 / 20)
  second : r.jitter2 ∈ Set.Icc (1 / 20) (19 / 20)
  vertical : r.jitterUp ∈ Set.Icc (1 / 20) (19 / 20)

/-- The remainder with the sign of the dividend, made the residue. -/
theorem tmod_wrap {s : Int} (hs : 0 < s) (i : Int) : (i.tmod s + s).tmod s = i % s := by
  have hlow : 0 ≤ i.tmod s + s := by
    have := Int.lt_tmod_of_pos i hs
    omega
  rw [Int.tmod_eq_emod_of_nonneg hlow, Int.add_emod_right]
  exact Int.emod_eq_emod_iff_emod_sub_eq_zero.mpr
    (Int.emod_eq_zero_of_dvd ⟨-(i.tdiv s), by have := Int.mul_tdiv_add_tmod i s; linarith⟩)

theorem placeInCube_world (hn : 1 ≤ cfg.volumeChunks) (index : Int) (r : Draws K) :
    let n := cfg.volumeChunks
    let d := digits n (index * (1 + n + n * n) % (n * n * n))
    placeInCube cfg index r =
      Vec.ofAxes cfg.isBwf
        ((((cubeMinHorizontal cfg + d.1 : Int) : K) + r.jitter1) * cfg.effectiveChunkSize)
        ((((cubeMinHorizontal cfg + d.2.2 : Int) : K) + r.jitter2) * cfg.effectiveChunkSize)
        ((((cfg.volumeBaseUp + d.2.1 : Int) : K) + r.jitterUp) * cfg.effectiveChunkSize) := by
  intro n d
  have hs : 0 < n * n * n := by positivity
  have hraw : 0 ≤ index % (n * n * n) := Int.emod_nonneg _ hs.ne'
  have hprod : 0 ≤ index % (n * n * n) * (1 + n + n * n) := by positivity
  have hidx : (((index.tmod (n * n * n) + n * n * n).tmod (n * n * n)) * (1 + n + n * n)).tmod
      (n * n * n) = index * (1 + n + n * n) % (n * n * n) := by
    rw [tmod_wrap hs, Int.tmod_eq_emod_of_nonneg hprod]
    exact (Int.mod_modEq index (n * n * n)).mul_right _
  have hpos : 0 ≤ index * (1 + n + n * n) % (n * n * n) := Int.emod_nonneg _ hs.ne'
  unfold placeInCube
  dsimp only
  rw [hidx, Int.tmod_eq_emod_of_nonneg hpos, Int.tdiv_eq_ediv_of_nonneg hpos,
    Int.tdiv_eq_ediv_of_nonneg hpos,
    Int.tmod_eq_emod_of_nonneg (Int.ediv_nonneg hpos (le_trans zero_le_one hn)),
    Int.tmod_eq_emod_of_nonneg (Int.ediv_nonneg hpos (by positivity))]
  rfl

variable [FloorRing K]

/-- The chunk a client is placed in. -/
def cubeChunk (r : Draws K) (c : SimClient K) : Vec Int :=
  (projectPose cfg { c with world := placeInCube cfg c.creds.index r }).chunk

theorem initSimulation_cubeChunk (P : Platform K) (hs : cfg.isSparse = false)
    (hn : 0 < cfg.volumeChunks) (r : Draws K) (nowSec : K) (c : SimClient K) :
    (initSimulation P cfg r nowSec c).chunk = cubeChunk cfg r c := by
  unfold initSimulation spawn
  dsimp only
  rw [if_neg (Bool.eq_false_iff.mp hs), if_pos hn]
  rfl

variable [IsStrictOrderedRing K]

/-- Placement and projection come back to the columns of the split. -/
theorem cubeChunk_eq (hn : 1 ≤ cfg.volumeChunks) {r : Draws K} (hr : r.Jittered)
    (c : SimClient K) :
    let n := cfg.volumeChunks
    cubeChunk cfg r c =
      columnChunk cfg (digits n (c.creds.index * (1 + n + n * n) % (n * n * n))) := by
  intro n
  have hin {j : K} (hj : j ∈ Set.Icc (1 / 20 : K) (19 / 20)) : 0 ≤ j ∧ j < 1 :=
    ⟨le_trans (by norm_num) hj.1, lt_of_le_of_lt hj.2 (by norm_num)⟩
  have hworld := placeInCube_world cfg hn c.creds.index r
  dsimp only at hworld
  rw [← Vec.ofAxes_axes cfg.isBwf (cubeChunk cfg r c)]
  unfold cubeChunk columnChunk
  rw [projectPose_h1, projectPose_h2, projectPose_up, hworld]
  dsimp only
  rw [Vec.h1_ofAxes, Vec.h2_ofAxes, Vec.up_ofAxes,
    chunkOf_slot cfg (hin hr.first).1 (hin hr.first).2,
    chunkOf_slot cfg (hin hr.second).1 (hin hr.second).2,
    chunkOf_slot cfg (hin hr.vertical).1 (hin hr.vertical).2]

/-- **A cycle of indices fills the cube.** The clients of `n³` consecutive global indices,
wherever they start, take each chunk of the cube once, and the first `n` slots of a cycle stand
on its diagonal. -/
theorem cube_filled (hn : 1 ≤ cfg.volumeChunks) (c : Int → SimClient K)
    (hc : ∀ i, (c i).creds.index = i) (r : Int → Draws K) (hr : ∀ i, (r i).Jittered) :
    let n := cfg.volumeChunks
    (∀ g, Set.BijOn (fun i => cubeChunk cfg (r i) (c i)) (Set.Ico g (g + n * n * n))
      (cubeChunks cfg)) ∧
    ∀ i, ∀ s ∈ Set.Ico 0 n, i % (n * n * n) = s →
      cubeChunk cfg (r i) (c i) =
        Vec.ofAxes cfg.isBwf (cubeMinHorizontal cfg + s) (cubeMinHorizontal cfg + s)
          (cfg.volumeBaseUp + s) := by
  intro n
  have hs : 0 < n * n * n := by positivity
  have hplace (i : Int) : cubeChunk cfg (r i) (c i) =
      columnChunk cfg (digits n (i * (1 + n + n * n) % (n * n * n))) := by
    have h := cubeChunk_eq cfg hn (hr i) (c i)
    rwa [hc i] at h
  constructor
  · intro g
    have hchain := (bijOn_columnChunk cfg).comp ((bijOn_digits (show 0 < n from hn)).comp
      (bijOn_mul_emod hs (spread_unit n) g))
    exact hchain.congr fun i _ => (hplace i).symm
  · intro i s hmem hslot
    have hdiag := digits_diagonal (show 0 < n from hn) hmem
    have hidx : i * (1 + n + n * n) % (n * n * n) = s * (1 + n + n * n) % (n * n * n) :=
      hslot ▸ ((Int.mod_modEq i (n * n * n)).mul_right _).symm
    rw [hplace, hidx, hdiag]
    rfl

/-- A cube edge of 8 with the other axes convention and clients at mid-chunk. -/
theorem cube_filled_sample :
    let cfg : Config ℚ :=
      { walkSpeed := -1, chunkSizeUnits := -1, poseFormat := "bwf", volumeChunks := 8 }
    let c : Int → SimClient ℚ := fun i => fresh { index := i } 0
    let r : Int → Draws ℚ := fun _ => ⟨1 / 2, 1 / 2, 1 / 2, 0, 0, ⟨1, 0, 0⟩, 4, 0, 0, 0⟩
    (∀ g, Set.BijOn (fun i => cubeChunk cfg (r i) (c i)) (Set.Ico g (g + 8 * 8 * 8))
      (cubeChunks cfg)) ∧
    ∀ i, ∀ s ∈ Set.Ico 0 8, i % (8 * 8 * 8) = s →
      cubeChunk cfg (r i) (c i) =
        Vec.ofAxes cfg.isBwf (cubeMinHorizontal cfg + s) (cubeMinHorizontal cfg + s)
          (cfg.volumeBaseUp + s) :=
  cube_filled _ (by decide) _ (fun _ => rfl) _ fun _ =>
    have half : (1 / 2 : ℚ) ∈ Set.Icc (1 / 20 : ℚ) (19 / 20) := by constructor <;> norm_num
    ⟨half, half, half⟩

end Cube

end SimClient

end CksLoadtest
