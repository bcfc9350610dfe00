import Mathlib.Algebra.BigOperators.Ring.Finset
import Mathlib.Algebra.Order.Field.Rat
import Mathlib.Algebra.Order.Floor.Semiring
import Mathlib.Data.Rat.Floor
import Mathlib.Data.List.FinRange
import CksLoadtest.Lib.Quantile
import CksLoadtest.Stats.Json

/-!
# Percentiles of a snapshot

`percentileMs` walks the latency buckets. On a snapshot whose samples are all in its buckets
the walk computes the quantile of the histogram: both clamps of the fraction are idle.
-/
namespace CksLoadtest

open Lib

namespace CounterSnap

/-- The buckets hold every sample. -/
def HistogramComplete (s : CounterSnap) : Prop :=
  s.latencySamples =
    ((List.finRange LATENCY_BUCKETS).map fun (i : Fin _) => getElem s.latencyHist i i.isLt).sum

/-- The bucket of every sample, in increasing order of the samples. -/
def samplesInOrder (s : CounterSnap) : List (Fin LATENCY_BUCKETS) :=
  members (fun (i : Fin _) => getElem s.latencyHist i i.isLt) (List.finRange LATENCY_BUCKETS)

theorem samplesInOrder_sorted (s : CounterSnap) : s.samplesInOrder.Pairwise (· ≤ ·) :=
  pairwise_members _ (List.pairwise_lt_finRange _)

theorem samplesInOrder_count (s : CounterSnap) (i : Fin LATENCY_BUCKETS) :
    s.samplesInOrder.count i = getElem s.latencyHist i i.isLt :=
  count_members _ (List.nodup_finRange _) (List.mem_finRange i)

theorem HistogramComplete.plus {a b : CounterSnap} (ha : a.HistogramComplete)
    (hb : b.HistogramComplete) : (plus a b).HistogramComplete := by
  have hhist : ∀ i : Fin LATENCY_BUCKETS,
      getElem (CounterSnap.plus a b).latencyHist i i.isLt =
        getElem a.latencyHist i i.isLt + getElem b.latencyHist i i.isLt := by
    intro i
    simp [CounterSnap.plus]
  unfold HistogramComplete at *
  simp only [hhist, List.sum_map_add]
  exact congrArg₂ (· + ·) ha hb

end CounterSnap

/-- Where a bucket begins. -/
def bucketLow (i : Nat) : Nat := if i = 0 then 0 else bucketHigh (i - 1)

theorem bucketHigh_ascending :
    (0 :: (List.finRange LATENCY_BUCKETS).map fun (i : Fin _) => bucketHigh i).IsChain (· < ·) := by
  decide

theorem bucketHigh_strictMono {i j : Fin LATENCY_BUCKETS} (h : i < j) :
    bucketHigh i ≤ bucketLow j := by
  revert i j
  decide

variable {K : Type*} [Field K] [LinearOrder K]

variable (K) in
def CounterSnap.cell (s : CounterSnap) (i : Fin LATENCY_BUCKETS) : K × K :=
  ((getElem s.latencyHist i i.isLt : K), (bucketHigh i : K))

variable (K) in
/-- The histogram `percentileMs` walks. -/
def CounterSnap.cells (s : CounterSnap) : List (K × K) :=
  (List.finRange LATENCY_BUCKETS).map (s.cell K)

/-- The target of `percentileMs`, after its three clamps. -/
def percentileTarget (s : CounterSnap) (p : K) : K :=
  max 1 (min 1 (max 0 p) * s.latencySamples)

theorem percentileMs_eq_loop {s : CounterSnap} (hpos : 0 < s.latencySamples) (p : K) :
    percentileMs s p = percentileLoop (percentileTarget s p) 0 0
      ((List.finRange LATENCY_BUCKETS).map fun (i : Fin _) =>
        (getElem s.latencyHist i i.isLt, bucketHigh i)) := by
  have hlow : (if p < 0 then 0 else p) = max 0 p := by
    split
    · exact (max_eq_left (le_of_lt ‹_›)).symm
    · exact (max_eq_right (not_lt.mp ‹_›)).symm
  have hhigh : ∀ q : K, (if 1 < q then 1 else q) = min 1 q := by
    intro q
    split
    · exact (min_eq_left (le_of_lt ‹_›)).symm
    · exact (min_eq_right (not_lt.mp ‹_›)).symm
  have hone : ∀ t : K, (if t < 1 then 1 else t) = max 1 t := by
    intro t
    split
    · exact (max_eq_left (le_of_lt ‹_›)).symm
    · exact (max_eq_right (not_lt.mp ‹_›)).symm
  simp only [percentileMs, if_neg hpos.ne', hlow, hhigh, hone, percentileTarget]

variable [IsStrictOrderedRing K]

/-- **The loop computes the quantile.** Neither clamp of the fraction does anything, and the
last bucket is entered only when it holds the target. -/
theorem percentileLoop_eq_quantile {target : K} {cum lo : Nat} {buckets : List (Nat × Nat)}
    (hcum : (cum : K) < target)
    (hle : target ≤ ((cum + (buckets.map Prod.fst).sum : Nat) : K)) :
    percentileLoop target cum lo buckets =
      quantile (target - cum) (lo : K) (buckets.map fun b => ((b.1 : K), (b.2 : K))) := by
  induction buckets generalizing cum lo with
  | nil =>
    rw [List.map_nil, List.sum_nil, add_zero] at hle
    exact absurd hcum (not_lt.mpr hle)
  | cons bucket rest ih =>
    obtain ⟨n, hi⟩ := bucket
    rw [List.map_cons, List.sum_cons, ← add_assoc] at hle
    rw [percentileLoop, List.map_cons, quantile]
    have hreach : target - cum ≤ (n : K) ↔ target ≤ ((cum + n : Nat) : K) := by
      rw [sub_le_iff_le_add', Nat.cast_add]
    by_cases hn : target ≤ ((cum + n : Nat) : K)
    · have hpos : 0 < target - cum := sub_pos.mpr hcum
      have hcount : (0 : K) < n := hpos.trans_le (hreach.mpr hn)
      have hne : n ≠ 0 := Nat.cast_ne_zero.mp hcount.ne'
      have hfrac : ¬ (target - cum) / n < 0 := not_lt.mpr (div_pos hpos hcount).le
      have hfrac' : ¬ 1 < (target - cum) / n :=
        not_lt.mpr ((div_le_one hcount).mpr (hreach.mpr hn))
      rw [if_pos (.inl hn), if_neg hne, if_pos (hreach.mpr hn)]
      simp only [if_neg hfrac, if_neg hfrac']
    · have hrest : rest ≠ [] := by
        rintro rfl
        exact hn (by simpa using hle)
      have hlast : ¬ (target ≤ ((cum + n : Nat) : K) ∨ rest.isEmpty) := by
        rintro (h | h)
        · exact hn h
        · exact hrest (List.isEmpty_iff.mp h)
      rw [if_neg hlast, if_neg (mt hreach.mp hn), ih (not_le.mp hn) hle, Nat.cast_add, sub_sub]

theorem cells_ascending (s : CounterSnap) : Ascending (0 : K) (s.cells K) := by
  have hchain := (List.isChain_map (Nat.cast : Nat → K)).mpr
    (bucketHigh_ascending.imp fun _ _ h => Nat.cast_lt.mpr h)
  rw [ascending_iff]
  constructor
  · intro cell hcell
    obtain ⟨i, -, rfl⟩ := List.mem_map.mp hcell
    exact Nat.cast_nonneg _
  · simpa [CounterSnap.cells, CounterSnap.cell, Function.comp_def] using hchain

variable {s : CounterSnap}

omit [LinearOrder K] [IsStrictOrderedRing K] in
theorem weight_map_cells (l : List (Fin LATENCY_BUCKETS)) :
    weight (l.map (s.cell K)) =
      ((l.map fun (i : Fin _) => getElem s.latencyHist i i.isLt).sum : Nat) := by
  rw [Nat.cast_list_sum]
  simp [weight, CounterSnap.cell, Function.comp_def]

omit [LinearOrder K] [IsStrictOrderedRing K] in
theorem weight_cells (hsum : s.HistogramComplete) : weight (s.cells K) = s.latencySamples := by
  rw [hsum]
  exact weight_map_cells _

theorem percentileTarget_pos (p : K) : 0 < percentileTarget s p :=
  zero_lt_one.trans_le (le_max_left _ _)

theorem percentileTarget_le (hpos : 0 < s.latencySamples) (p : K) :
    percentileTarget s p ≤ s.latencySamples := by
  have hone : (1 : K) ≤ s.latencySamples := Nat.one_le_cast.mpr hpos
  apply max_le hone
  exact mul_le_of_le_one_left (zero_le_one.trans hone) (min_le_left _ _)

theorem percentileTarget_mono : Monotone (percentileTarget (K := K) s) := by
  intro p q hpq
  apply max_le_max le_rfl
  apply mul_le_mul_of_nonneg_right _ (Nat.cast_nonneg _)
  exact min_le_min le_rfl (max_le_max le_rfl hpq)

/-- A negative `p` is as good as none: the target is one sample. -/
theorem percentileTarget_of_le {p : K} (hp : p ≤ 1) :
    percentileTarget s p = max 1 (p * s.latencySamples) := by
  have hsamples : (0 : K) ≤ s.latencySamples := Nat.cast_nonneg _
  unfold percentileTarget
  rcases le_total 0 p with h0 | h0
  · rw [max_eq_right h0, min_eq_right hp]
  · have hneg : p * s.latencySamples ≤ 0 := mul_nonpos_of_nonpos_of_nonneg h0 hsamples
    rw [max_eq_left h0, min_eq_right zero_le_one, zero_mul, max_eq_left zero_le_one,
      max_eq_left (hneg.trans zero_le_one)]

theorem percentileTarget_of_ge {p : K} (hp : 1 ≤ p) :
    percentileTarget s p = percentileTarget s (1 : K) := by
  unfold percentileTarget
  rw [max_eq_right (zero_le_one.trans hp), max_eq_right zero_le_one, min_eq_left hp, min_self]

/-- `percentileMs` is the quantile of the histogram at its target. -/
theorem percentileMs_eq_quantile (hpos : 0 < s.latencySamples) (hsum : s.HistogramComplete)
    (p : K) : percentileMs s p = quantile (percentileTarget s p) 0 (s.cells K) := by
  have hle : percentileTarget s p ≤ ((0 + (((List.finRange LATENCY_BUCKETS).map
      fun (i : Fin _) => (getElem s.latencyHist i i.isLt, bucketHigh i)).map
        Prod.fst).sum : Nat) : K) := by
    rw [List.map_map, Function.comp_def, ← hsum, zero_add]
    exact percentileTarget_le hpos p
  rw [percentileMs_eq_loop hpos,
    percentileLoop_eq_quantile (by simpa using percentileTarget_pos p) hle, Nat.cast_zero,
    sub_zero, List.map_map]
  rfl

/-- **Percentiles ascend.** -/
theorem percentileMs_mono (hpos : 0 < s.latencySamples) (hsum : s.HistogramComplete) :
    Monotone (percentileMs (K := K) s) := by
  intro p q hpq
  rw [percentileMs_eq_quantile hpos hsum, percentileMs_eq_quantile hpos hsum]
  apply quantile_mono (cells_ascending s) (percentileTarget_pos p) (percentileTarget_mono hpq)
  rw [weight_cells hsum]
  exact percentileTarget_le hpos q

omit [LinearOrder K] [IsStrictOrderedRing K] in
theorem lastEdge_map_cells (lo : Nat) (l : List (Fin LATENCY_BUCKETS)) :
    lastEdge (lo : K) (l.map (s.cell K)) =
      ((l.map fun (i : Fin _) => bucketHigh i).getLastD lo : Nat) := by
  induction l generalizing lo with
  | nil => rfl
  | cons i l ih =>
    rw [List.map_cons, CounterSnap.cell, lastEdge, ih, List.map_cons, List.getLastD_cons]

theorem bucketLow_eq_last (i : Fin LATENCY_BUCKETS) :
    (((List.finRange LATENCY_BUCKETS).take i).map fun (j : Fin _) => bucketHigh j).getLastD 0 =
      bucketLow i := by
  revert i
  decide

theorem take_finRange {n : Nat} {pre post : List (Fin n)} {i : Fin n}
    (h : List.finRange n = pre ++ i :: post) : pre = (List.finRange n).take i := by
  have hlen : pre.length < (List.finRange n).length := by simp [h]
  have hi : (List.finRange n)[pre.length] = i := by simp [h]
  have hval : i.val = pre.length := by
    rw [← hi, List.getElem_finRange]
    rfl
  rw [h, hval, List.take_left]

/-- A target lies in the bucket of the sample whose rank it rounds up to. -/
theorem quantile_mem_bucket [FloorSemiring K] {t : K} (ht : 0 < t) {i : Fin LATENCY_BUCKETS}
    (hi : s.samplesInOrder[⌈t⌉₊ - 1]? = some i) :
    (bucketLow i : K) < quantile t 0 (s.cells K) ∧ quantile t 0 (s.cells K) ≤ bucketHigh i := by
  obtain ⟨pre, post, hl, hlow, hhigh⟩ := members_getElem? _ hi
  have hceil : 0 < ⌈t⌉₊ := Nat.ceil_pos.mpr ht
  have hcells : s.cells K = pre.map (s.cell K) ++ s.cell K i :: post.map (s.cell K) := by
    rw [CounterSnap.cells, hl, List.map_append, List.map_cons]
  have hbegin : lastEdge (0 : K) (pre.map (s.cell K)) = bucketLow i := by
    rw [← Nat.cast_zero, lastEdge_map_cells, take_finRange hl, bucketLow_eq_last]
  have hpre : weight (pre.map (s.cell K)) < t := by
    rw [weight_map_cells, ← Nat.lt_ceil]
    omega
  have hreach : t ≤ weight (pre.map (s.cell K)) + getElem s.latencyHist i i.isLt := by
    rw [weight_map_cells, ← Nat.cast_add, ← Nat.ceil_le]
    omega
  rw [← hbegin, hcells]
  exact quantile_mem_cell (hcells ▸ cells_ascending s) hpre hreach

/-- There is a sample of every rank a target can have. -/
theorem exists_sample [FloorSemiring K] (hpos : 0 < s.latencySamples)
    (hsum : s.HistogramComplete) (p : K) :
    ∃ i, s.samplesInOrder[⌈percentileTarget s p⌉₊ - 1]? = some i := by
  have hceil : 0 < ⌈percentileTarget s p⌉₊ := Nat.ceil_pos.mpr (percentileTarget_pos p)
  have hle : ⌈percentileTarget s p⌉₊ ≤ s.latencySamples :=
    Nat.ceil_le.mpr (percentileTarget_le hpos p)
  have hlen : s.samplesInOrder.length = s.latencySamples := by
    rw [CounterSnap.samplesInOrder, length_members]
    exact hsum.symm
  have hin : ⌈percentileTarget s p⌉₊ - 1 < s.samplesInOrder.length := by omega
  exact ⟨_, List.getElem?_eq_getElem hin⟩

/-- The bucket of a sample is not empty, so no other bucket that is can hold its percentile. -/
theorem not_in_empty {k : Nat} {v : K} {i j : Fin LATENCY_BUCKETS}
    (hi : s.samplesInOrder[k]? = some i) (hlow : (bucketLow i : K) < v) (hhigh : v ≤ bucketHigh i)
    (hj : getElem s.latencyHist j j.isLt = 0) : ¬ ((bucketLow j : K) < v ∧ v < bucketHigh j) := by
  rintro ⟨hl, hh⟩
  have hcount : getElem s.latencyHist i i.isLt ≠ 0 :=
    ((mem_members _).mp (List.mem_of_getElem? hi)).2
  rcases lt_trichotomy i j with h | h | h
  · have hedge : (bucketHigh i : K) ≤ bucketLow j := Nat.cast_le.mpr (bucketHigh_strictMono h)
    exact absurd (hl.trans_le hhigh) (not_lt.mpr hedge)
  · exact hcount (h ▸ hj)
  · have hedge : (bucketHigh j : K) ≤ bucketLow i := Nat.cast_le.mpr (bucketHigh_strictMono h)
    exact absurd (hlow.trans hh) (not_lt.mpr hedge)

theorem percentileMs_of_ge (hpos : 0 < s.latencySamples) (hsum : s.HistogramComplete) {p : K}
    (hp : 1 ≤ p) : percentileMs s p = percentileMs s (1 : K) := by
  rw [percentileMs_eq_quantile hpos hsum, percentileMs_eq_quantile hpos hsum,
    percentileTarget_of_ge hp]

/-- **A percentile lies in the bucket of its sample.** It ascends with `p`; up to `p = 1` it is
between the edges of the bucket that holds the sample of its rank, above that it stays; it is
never inside an empty bucket. -/
theorem percentileMs_locates [FloorSemiring K] (hpos : 0 < s.latencySamples)
    (hsum : s.HistogramComplete) :
    Monotone (percentileMs (K := K) s) ∧
      (∀ p : K, p ≤ 1 → ∃ i,
        s.samplesInOrder[⌈max 1 (p * s.latencySamples)⌉₊ - 1]? = some i ∧
          (bucketLow i : K) < percentileMs s p ∧ percentileMs s p ≤ bucketHigh i) ∧
      (∀ p : K, 1 ≤ p → percentileMs s p = percentileMs s (1 : K)) ∧
      ∀ (p : K) (j : Fin LATENCY_BUCKETS), getElem s.latencyHist j j.isLt = 0 →
        ¬ ((bucketLow j : K) < percentileMs s p ∧ percentileMs s p < bucketHigh j) := by
  have hlocate : ∀ p : K, ∃ i, s.samplesInOrder[⌈percentileTarget s p⌉₊ - 1]? = some i ∧
      (bucketLow i : K) < percentileMs s p ∧ percentileMs s p ≤ bucketHigh i := by
    intro p
    obtain ⟨i, hi⟩ := exists_sample hpos hsum p
    rw [percentileMs_eq_quantile hpos hsum]
    exact ⟨i, hi, quantile_mem_bucket (percentileTarget_pos p) hi⟩
  refine ⟨percentileMs_mono hpos hsum, ?_, fun p => percentileMs_of_ge hpos hsum, ?_⟩
  · intro p hp
    rw [← percentileTarget_of_le hp]
    exact hlocate p
  · intro p j hj
    obtain ⟨i, hi, hlow, hhigh⟩ := hlocate p
    exact not_in_empty hi hlow hhigh hj

/-- Two quick samples, none in between, one in the open bucket. -/
def spreadSnap : CounterSnap :=
  { latencySamples := 3, latencyHist := ((Vector.replicate 23 0).set 0 2).set 22 1 }

theorem percentileMs_locates_spread :
    Monotone (percentileMs (K := ℚ) spreadSnap) ∧
      (∀ p : ℚ, p ≤ 1 → ∃ i,
        spreadSnap.samplesInOrder[⌈max 1 (p * spreadSnap.latencySamples)⌉₊ - 1]? = some i ∧
          (bucketLow i : ℚ) < percentileMs spreadSnap p ∧
            percentileMs spreadSnap p ≤ bucketHigh i) ∧
      (∀ p : ℚ, 1 ≤ p → percentileMs spreadSnap p = percentileMs spreadSnap (1 : ℚ)) ∧
      ∀ (p : ℚ) (j : Fin LATENCY_BUCKETS), getElem spreadSnap.latencyHist j j.isLt = 0 →
        ¬ ((bucketLow j : ℚ) < percentileMs spreadSnap p ∧
          percentileMs spreadSnap p < bucketHigh j) :=
  percentileMs_locates (by decide) (by unfold CounterSnap.HistogramComplete; decide)

/-- The open bucket is taken to end at twice its lower edge. -/
example : percentileMs spreadSnap (1 : ℚ) = 4000 := by decide +kernel

omit [LinearOrder K] [IsStrictOrderedRing K] in
theorem cells_plus (a b : CounterSnap) : (CounterSnap.plus a b).cells K =
    (List.finRange LATENCY_BUCKETS).map fun (i : Fin _) =>
      ((getElem a.latencyHist i i.isLt : K) + (getElem b.latencyHist i i.isLt : K),
        (bucketHigh i : K)) := by
  apply List.map_congr_left
  intro i _
  simp [CounterSnap.cell, CounterSnap.plus]

theorem samples_pos {p : K} (h : 1 ≤ p * s.latencySamples) : 0 < s.latencySamples := by
  by_contra h0
  rw [Nat.eq_zero_of_not_pos h0, Nat.cast_zero, mul_zero] at h
  exact absurd h (not_le.mpr zero_lt_one)

theorem percentileTarget_of_one_le {p : K} (hp : p ≤ 1) (h : 1 ≤ p * s.latencySamples) :
    percentileTarget s p = p * s.latencySamples := by
  rw [percentileTarget_of_le hp, max_eq_right h]

theorem target_le_weight (hsum : s.HistogramComplete) {p : K} (hp : p ≤ 1)
    (h : 1 ≤ p * s.latencySamples) : p * s.latencySamples ≤ weight (s.cells K) := by
  rw [weight_cells hsum, ← percentileTarget_of_one_le hp h]
  exact percentileTarget_le (samples_pos h) p

/-- **A fleet percentile never leaves the range of its hosts' percentiles.** -/
theorem percentileMs_plus_mem {a b : CounterSnap} (ha : a.HistogramComplete)
    (hb : b.HistogramComplete) {p : K} (hp : p ≤ 1) (hpa : 1 ≤ p * a.latencySamples)
    (hpb : 1 ≤ p * b.latencySamples) :
    min (percentileMs a p) (percentileMs b p) ≤ percentileMs (CounterSnap.plus a b) p ∧
      percentileMs (CounterSnap.plus a b) p ≤ max (percentileMs a p) (percentileMs b p) := by
  have hsplit : p * ((CounterSnap.plus a b).latencySamples : K) =
      p * a.latencySamples + p * b.latencySamples := by
    rw [← mul_add, ← Nat.cast_add]
    rfl
  have hpab : 1 ≤ p * ((CounterSnap.plus a b).latencySamples : K) := by
    rw [hsplit]
    linarith
  rw [percentileMs_eq_quantile (samples_pos hpa) ha, percentileMs_eq_quantile (samples_pos hpb) hb,
    percentileMs_eq_quantile (samples_pos hpab) (ha.plus hb), percentileTarget_of_one_le hp hpa,
    percentileTarget_of_one_le hp hpb, percentileTarget_of_one_le hp hpab, hsplit, cells_plus]
  apply quantile_add_mem (cells_ascending a) (cells_ascending b)
  · exact zero_lt_one.trans_le hpa
  · exact zero_lt_one.trans_le hpb
  · exact target_le_weight ha hp hpa
  · exact target_le_weight hb hp hpb

def slowSnap : CounterSnap :=
  { latencySamples := 4, latencyHist := (Vector.replicate 23 0).set 10 4 }

theorem percentileMs_plus_mem_median :
    min (percentileMs spreadSnap (1 / 2 : ℚ)) (percentileMs slowSnap (1 / 2 : ℚ)) ≤
        percentileMs (CounterSnap.plus spreadSnap slowSnap) (1 / 2 : ℚ) ∧
      percentileMs (CounterSnap.plus spreadSnap slowSnap) (1 / 2 : ℚ) ≤
        max (percentileMs spreadSnap (1 / 2 : ℚ)) (percentileMs slowSnap (1 / 2 : ℚ)) :=
  percentileMs_plus_mem (by unfold CounterSnap.HistogramComplete; decide)
    (by unfold CounterSnap.HistogramComplete; decide) (by decide +kernel) (by decide +kernel)
    (by decide +kernel)

end CksLoadtest
