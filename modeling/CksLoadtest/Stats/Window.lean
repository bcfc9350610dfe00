import Mathlib.Algebra.BigOperators.Fin
import Mathlib.Algebra.BigOperators.Group.List.Basic
import CksLoadtest.Stats.Counters

/-!
# What a window counts

Whole operations on a `Stats`, one after another, and the window that `loadWindow` answers:
what was added since the last `markWindow`.
-/
namespace CksLoadtest

/-- An operation on a `Stats`. -/
inductive StatsOp where
  | fetchAdd (c : Counter) (n : Nat)
  | addErrorCode (code : UInt8) (n : Nat)
  | recordLatencyMs (ms : Int)
  | markWindow (id : String) (epochSec : Nat) (steady : Int)

namespace StatsOp

def apply (s : Stats) : StatsOp → Stats
  | .fetchAdd c n => s.fetchAdd n c
  | .addErrorCode code n => s.addErrorCode code n
  | .recordLatencyMs ms => s.recordLatencyMs ms
  | .markWindow id epochSec steady => s.markWindow id epochSec steady

def run (s : Stats) (ops : List StatsOp) : Stats := ops.foldl apply s

def isMark : StatsOp → Bool
  | .markWindow .. => true
  | _ => false

/-- The operations after the last `markWindow`, or all of them. -/
def sinceMark (ops : List StatsOp) : List StatsOp :=
  (ops.reverse.takeWhile fun op => !op.isMark).reverse

/-- What an operation adds to an event counter. -/
def added (c : Counter) : StatsOp → Nat
  | .fetchAdd c' n => if c = c' then n else 0
  | _ => 0

def addedCode (code : Fin 256) : StatsOp → Nat
  | .addErrorCode code' n => if code = Stats.codeIndex code' then n else 0
  | _ => 0

/-- The latency an operation records; a negative estimate counts as 0. -/
def sample? : StatsOp → Option Nat
  | .recordLatencyMs ms => some ms.toNat
  | _ => none

def samples (ops : List StatsOp) : List Nat := ops.filterMap sample?

end StatsOp

/-- A latency lies between the bounds of a bucket. The last bucket is open. -/
def InBucket (i : Fin LATENCY_BUCKETS) (v : Nat) : Prop :=
  (0 < i.val → latencyBound (i.val - 1) ≤ v) ∧
    (i.val < LATENCY_BUCKETS - 1 → v < latencyBound i.val)

instance (i : Fin LATENCY_BUCKETS) (v : Nat) : Decidable (InBucket i v) :=
  inferInstanceAs (Decidable (_ ∧ _))

/-- The linear search over increasing bounds. -/
theorem findIdx_lt_iff {l : List Nat} (hl : l.Pairwise (· ≤ ·)) {v i : Nat} (hi : i ≤ l.length) :
    l.findIdx (fun b => v < b) = i ↔
      (0 < i → (l[i - 1]?).getD 0 ≤ v) ∧ (i < l.length → v < (l[i]?).getD 0) := by
  -- below a bound that the sample has reached, it has reached all
  have hbelow : (∀ j (hj : j < l.length), j < i → l[j] ≤ v) ↔ (0 < i → (l[i - 1]?).getD 0 ≤ v) := by
    constructor
    · intro h hpos
      rw [List.getElem?_eq_getElem (by omega)]
      exact h (i - 1) (by omega) (by omega)
    · intro h j hj hji
      have hlast := h (by omega)
      rw [List.getElem?_eq_getElem (by omega)] at hlast
      rcases Nat.lt_or_eq_of_le (Nat.le_sub_one_of_lt hji) with hlt | rfl
      · exact (List.pairwise_iff_getElem.mp hl j (i - 1) hj (by omega) hlt).trans hlast
      · exact hlast
  rw [← hbelow]
  rcases Nat.lt_or_eq_of_le hi with hlt | rfl
  · rw [List.findIdx_eq hlt, List.getElem?_eq_getElem hlt]
    simp only [decide_eq_true_eq, decide_eq_false_iff_not, not_lt]
    constructor
    · rintro ⟨hv, hb⟩
      exact ⟨fun j _ hji => hb j hji, fun _ => hv⟩
    · rintro ⟨hb, hv⟩
      exact ⟨hv hlt, fun j hji => hb j (hji.trans hlt) hji⟩
  · rw [List.findIdx_eq_length]
    simp only [lt_irrefl, false_imp_iff, and_true, decide_eq_false_iff_not, not_lt]
    exact ⟨fun h j hj _ => h _ (List.getElem_mem hj), fun h x hx => by
      obtain ⟨j, hj, rfl⟩ := List.getElem_of_mem hx
      exact h j hj hj⟩

theorem bucketOf_eq_iff (v : Nat) (i : Fin LATENCY_BUCKETS) :
    Stats.bucketOf v = i ↔ InBucket i v := by
  have hsorted : kLatencyBounds.Pairwise (· ≤ ·) := by decide
  rw [Fin.ext_iff]
  exact findIdx_lt_iff hsorted (Nat.le_of_lt_succ i.isLt)

namespace Stats

/-- The counters are those of the window's origin and what was added since. -/
structure Since (s : Stats) (ops : List StatsOp) : Prop where
  count : ∀ c, s.loadLifetime.count c = s.windowOrigin.count c + (ops.map (StatsOp.added c)).sum
  errorCodes : ∀ c : Fin 256, s.errorCodes[c] =
    s.windowOrigin.errorCodes[c] + (ops.map (StatsOp.addedCode c)).sum
  latencyHist : ∀ i : Fin LATENCY_BUCKETS, s.latencyHist[i] =
    s.windowOrigin.latencyHist[i] + (StatsOp.samples ops).countP fun v => InBucket i v
  latencySamples : s.latencySamples = s.windowOrigin.latencySamples + (StatsOp.samples ops).length
  latencySumMs : s.latencySumMs = s.windowOrigin.latencySumMs + (StatsOp.samples ops).sum
  windowMax : s.windowLatencyMaxMs = (StatsOp.samples ops).foldr max 0

theorem count_fetchAdd (s : Stats) (n : Nat) (c c' : Counter) :
    (s.fetchAdd n c').loadLifetime.count c = s.loadLifetime.count c + if c = c' then n else 0 := by
  cases c' <;> cases c <;> rfl

/-- One slot of an array of counters is bumped. -/
theorem getElem_set_add {n : Nat} (v : Vector Nat n) (i j : Fin n) (k : Nat) :
    (v.set i (v[i] + k))[j] = v[j] + if j = i then k else 0 := by
  by_cases h : j = i
  · subst h
    simp
  · simp [h, Fin.val_inj, Ne.symm h]

theorem samples_snoc (ops : List StatsOp) (op : StatsOp) :
    StatsOp.samples (ops ++ [op]) = StatsOp.samples ops ++ op.sample?.toList := by
  unfold StatsOp.samples
  rw [List.filterMap_append]
  cases h : op.sample? <;> simp [h]

theorem foldr_max_snoc (l : List Nat) (v : Nat) :
    (l ++ [v]).foldr max 0 = max (l.foldr max 0) v := by
  induction l with
  | nil => simp
  | cons a l ih => rw [List.cons_append, List.foldr_cons, List.foldr_cons, ih, max_assoc]

/-- What an event counter leaves alone. -/
theorem fetchAdd_frame (s : Stats) (n : Nat) (c : Counter) :
    (s.fetchAdd n c).windowOrigin = s.windowOrigin ∧ (s.fetchAdd n c).errorCodes = s.errorCodes ∧
      (s.fetchAdd n c).latencyHist = s.latencyHist ∧
      (s.fetchAdd n c).latencySamples = s.latencySamples ∧
      (s.fetchAdd n c).latencySumMs = s.latencySumMs ∧
      (s.fetchAdd n c).windowLatencyMaxMs = s.windowLatencyMaxMs := by
  cases c <;> exact ⟨rfl, rfl, rfl, rfl, rfl, rfl⟩

theorem sum_snoc (f : StatsOp → Nat) (ops : List StatsOp) (op : StatsOp) :
    ((ops ++ [op]).map f).sum = (ops.map f).sum + f op := by
  rw [List.map_append, List.sum_append]
  rfl

/-- **One operation** adds to the open window. -/
theorem Since.apply {s : Stats} {ops : List StatsOp} (h : Since s ops) {op : StatsOp}
    (hop : op.isMark = false) : Since (op.apply s) (ops ++ [op]) := by
  cases op with
  | markWindow => cases hop
  | fetchAdd c n =>
    obtain ⟨horigin, hcodes, hhist, hsamples, hsum, hmax⟩ := fetchAdd_frame s n c
    have hnone : StatsOp.samples (ops ++ [.fetchAdd c n]) = StatsOp.samples ops :=
      (samples_snoc ops _).trans (List.append_nil _)
    refine ⟨fun c' => ?_, fun code => ?_, fun i => ?_, ?_, ?_, ?_⟩
    · show (s.fetchAdd n c).loadLifetime.count c' = (s.fetchAdd n c).windowOrigin.count c' + _
      rw [count_fetchAdd, horigin, sum_snoc, h.count, Nat.add_assoc]
      rfl
    · show (s.fetchAdd n c).errorCodes[code] = (s.fetchAdd n c).windowOrigin.errorCodes[code] + _
      simp only [hcodes, horigin, sum_snoc]
      exact h.errorCodes code
    · show (s.fetchAdd n c).latencyHist[i] = (s.fetchAdd n c).windowOrigin.latencyHist[i] + _
      simp only [hhist, horigin, hnone]
      exact h.latencyHist i
    · show (s.fetchAdd n c).latencySamples = (s.fetchAdd n c).windowOrigin.latencySamples + _
      rw [hsamples, horigin, hnone]
      exact h.latencySamples
    · show (s.fetchAdd n c).latencySumMs = (s.fetchAdd n c).windowOrigin.latencySumMs + _
      rw [hsum, horigin, hnone]
      exact h.latencySumMs
    · show (s.fetchAdd n c).windowLatencyMaxMs = _
      rw [hmax, hnone]
      exact h.windowMax
  | addErrorCode code n =>
    have hnone : StatsOp.samples (ops ++ [.addErrorCode code n]) = StatsOp.samples ops :=
      (samples_snoc ops _).trans (List.append_nil _)
    refine ⟨fun c => ?_, fun code' => ?_, fun i => ?_, ?_, ?_, ?_⟩
    · rw [sum_snoc]
      exact (h.count c).trans (by cases c <;> rfl)
    · rw [sum_snoc, ← Nat.add_assoc]
      show (s.errorCodes.set (codeIndex code) (s.errorCodes[codeIndex code] + n))[code'] =
        s.windowOrigin.errorCodes[code'] + _ + _
      rw [← h.errorCodes code']
      exact getElem_set_add s.errorCodes (codeIndex code) code' n
    · rw [hnone]
      exact h.latencyHist i
    · rw [hnone]
      exact h.latencySamples
    · rw [hnone]
      exact h.latencySumMs
    · rw [hnone]
      exact h.windowMax
  | recordLatencyMs ms =>
    have hsnoc :
        StatsOp.samples (ops ++ [.recordLatencyMs ms]) = StatsOp.samples ops ++ [ms.toNat] :=
      samples_snoc ops _
    refine ⟨fun c => ?_, fun code => ?_, fun i => ?_, ?_, ?_, ?_⟩
    · rw [sum_snoc]
      exact (h.count c).trans (by cases c <;> rfl)
    · rw [sum_snoc]
      exact h.errorCodes code
    · rw [hsnoc, List.countP_append, ← Nat.add_assoc]
      show (s.latencyHist.set (bucketOf ms.toNat) (s.latencyHist[bucketOf ms.toNat] + 1))[i] =
        s.windowOrigin.latencyHist[i] + _ + _
      rw [← h.latencyHist i, List.countP_singleton]
      refine (getElem_set_add s.latencyHist (bucketOf ms.toNat) i 1).trans ?_
      have hiff : i = bucketOf ms.toNat ↔ InBucket i ms.toNat :=
        eq_comm.trans (bucketOf_eq_iff ms.toNat i)
      simp only [hiff, decide_eq_true_eq]
    · rw [hsnoc, List.length_append, ← Nat.add_assoc]
      exact congrArg (· + 1) h.latencySamples
    · rw [hsnoc, List.sum_append, List.sum_singleton, ← Nat.add_assoc]
      exact congrArg (· + ms.toNat) h.latencySumMs
    · rw [hsnoc, foldr_max_snoc]
      exact congrArg (max · ms.toNat) h.windowMax

/-- `markWindow` opens an empty window. -/
theorem Since.mark (s : Stats) (id : String) (epochSec : Nat) (steady : Int) :
    Since (s.markWindow id epochSec steady) [] where
  count _ := rfl
  errorCodes _ := rfl
  latencyHist _ := rfl
  latencySamples := rfl
  latencySumMs := rfl
  windowMax := rfl

end Stats

namespace StatsOp

theorem sinceMark_snoc (ops : List StatsOp) (op : StatsOp) :
    sinceMark (ops ++ [op]) = if op.isMark then [] else sinceMark ops ++ [op] := by
  unfold sinceMark
  rw [List.reverse_append, List.reverse_singleton, List.singleton_append, List.takeWhile_cons]
  cases op.isMark <;> simp

theorem run_snoc (s : Stats) (ops : List StatsOp) (op : StatsOp) :
    run s (ops ++ [op]) = op.apply (run s ops) := by
  unfold run
  rw [List.foldl_append]
  rfl

/-- **A whole run**: the open window holds what was added since the last mark. -/
theorem run_since (ops : List StatsOp) : (run {} ops).Since (sinceMark ops) := by
  induction ops using List.reverseRecOn with
  | nil =>
    refine ⟨fun c => ?_, fun code => ?_, fun i => ?_, rfl, rfl, rfl⟩
    · cases c <;> rfl
    · simp [run, sinceMark]
    · simp [run, sinceMark, samples]
  | append_singleton ops op ih =>
    rw [run_snoc, sinceMark_snoc]
    cases hop : op.isMark with
    | true =>
      cases op with
      | markWindow id epochSec steady => exact Stats.Since.mark _ id epochSec steady
      | _ => cases hop
    | false => exact ih.apply hop

/-- Without a mark in the last part, what is counted is the rest of the window and it. -/
theorem sinceMark_append {ops more : List StatsOp} (h : ∀ op ∈ more, op.isMark = false) :
    sinceMark (ops ++ more) = sinceMark ops ++ more := by
  induction more using List.reverseRecOn with
  | nil => simp
  | append_singleton more op ih =>
    rw [← List.append_assoc, sinceMark_snoc, h op (by simp), if_neg Bool.false_ne_true,
      ih fun o ho => h o (by simp [ho]), List.append_assoc]

end StatsOp

/-- Every element falls into one class. -/
theorem sum_countP_class {n : Nat} (f : Nat → Fin n) (l : List Nat) :
    ∑ i : Fin n, l.countP (fun v => f v = i) = l.length := by
  induction l with
  | nil => simp
  | cons v l ih =>
    simp only [List.countP_cons, decide_eq_true_eq, Finset.sum_add_distrib, ih, List.length_cons]
    rw [Finset.sum_ite_eq, if_pos (Finset.mem_univ _)]

/-- A snapshot that counts exactly the given operations. -/
structure CounterSnap.Counts (w : CounterSnap) (ops : List StatsOp) : Prop where
  count : ∀ c, w.count c = (ops.map (StatsOp.added c)).sum
  errorCodes : ∀ c : Fin 256, w.errorCodes[c] = (ops.map (StatsOp.addedCode c)).sum
  latencyHist : ∀ i : Fin LATENCY_BUCKETS,
    w.latencyHist[i] = (StatsOp.samples ops).countP fun v => InBucket i v
  latencySamples : w.latencySamples = ∑ i : Fin LATENCY_BUCKETS, w.latencyHist[i]
  latencySumMs : w.latencySumMs = (StatsOp.samples ops).sum
  latencyMaxMs : w.latencyMaxMs = (StatsOp.samples ops).foldr max 0

theorem Stats.Since.counts {s : Stats} {ops : List StatsOp} (h : s.Since ops) :
    s.loadWindow.Counts ops := by
  have hhist : ∀ i : Fin LATENCY_BUCKETS,
      s.loadWindow.latencyHist[i] = (StatsOp.samples ops).countP fun v => InBucket i v := by
    intro i
    have hsub : s.loadWindow.latencyHist[i] = s.latencyHist[i] - s.windowOrigin.latencyHist[i] := by
      simp [Stats.loadWindow, Stats.windowSince, CounterSnap.minus, Stats.loadLifetime]
    rw [hsub, h.latencyHist, Nat.add_sub_cancel_left]
  refine ⟨fun c => ?_, fun c => ?_, hhist, ?_, ?_, h.windowMax⟩
  · have hsub : s.loadWindow.count c = s.loadLifetime.count c - s.windowOrigin.count c := by
      cases c <;> rfl
    rw [hsub, h.count, Nat.add_sub_cancel_left]
  · have hsub : s.loadWindow.errorCodes[c] = s.errorCodes[c] - s.windowOrigin.errorCodes[c] := by
      simp [Stats.loadWindow, Stats.windowSince, CounterSnap.minus, Stats.loadLifetime]
    rw [hsub, h.errorCodes, Nat.add_sub_cancel_left]
  · show s.latencySamples - s.windowOrigin.latencySamples = _
    rw [h.latencySamples, Nat.add_sub_cancel_left]
    have hclass : ∀ i : Fin LATENCY_BUCKETS,
        s.loadWindow.latencyHist[i] =
          (StatsOp.samples ops).countP fun v => Stats.bucketOf v = i := by
      intro i
      rw [hhist i]
      exact List.countP_congr fun v _ => by simp only [bucketOf_eq_iff]
    rw [Finset.sum_congr rfl fun i _ => hclass i, sum_countP_class]
  · show s.latencySumMs - s.windowOrigin.latencySumMs = _
    rw [h.latencySumMs, Nat.add_sub_cancel_left]

/-- Two windows that add up to a third. -/
structure CounterSnap.AddUp (v w both : CounterSnap) : Prop where
  count : ∀ c, both.count c = v.count c + w.count c
  errorCodes : ∀ c : Fin 256, both.errorCodes[c] = v.errorCodes[c] + w.errorCodes[c]
  latencyHist : ∀ i : Fin LATENCY_BUCKETS,
    both.latencyHist[i] = v.latencyHist[i] + w.latencyHist[i]
  latencySamples : both.latencySamples = v.latencySamples + w.latencySamples
  latencySumMs : both.latencySumMs = v.latencySumMs + w.latencySumMs

theorem CounterSnap.Counts.append {v w both : CounterSnap} {a b : List StatsOp} (hv : v.Counts a)
    (hw : w.Counts b) (h : both.Counts (a ++ b)) : AddUp v w both := by
  have hhist : ∀ i : Fin LATENCY_BUCKETS,
      both.latencyHist[i] = v.latencyHist[i] + w.latencyHist[i] := by
    intro i
    rw [h.latencyHist, hv.latencyHist, hw.latencyHist, StatsOp.samples, List.filterMap_append,
      List.countP_append]
    rfl
  refine ⟨fun c => ?_, fun c => ?_, hhist, ?_, ?_⟩
  · rw [h.count, hv.count, hw.count, List.map_append, List.sum_append]
  · rw [h.errorCodes, hv.errorCodes, hw.errorCodes, List.map_append, List.sum_append]
  · rw [h.latencySamples, hv.latencySamples, hw.latencySamples, ← Finset.sum_add_distrib]
    exact Finset.sum_congr rfl fun i _ => hhist i
  · rw [h.latencySumMs, hv.latencySumMs, hw.latencySumMs, StatsOp.samples, List.filterMap_append,
      List.sum_append]
    rfl

/-- **The window.** After any sequence of operations `loadWindow` answers exactly what they
added since the last `markWindow`; consecutive windows add up to the one that spans both. -/
theorem loadWindow_counts (ops : List StatsOp) :
    (StatsOp.run {} ops).loadWindow.Counts (StatsOp.sinceMark ops) ∧
    ∀ (mark : StatsOp) (more : List StatsOp), mark.isMark = true →
      (∀ op ∈ more, op.isMark = false) →
        CounterSnap.AddUp (StatsOp.run {} ops).loadWindow
          (StatsOp.run {} (ops ++ mark :: more)).loadWindow
          (StatsOp.run {} (ops ++ more)).loadWindow := by
  have hall : ∀ ops, (StatsOp.run {} ops).loadWindow.Counts (StatsOp.sinceMark ops) :=
    fun ops => (StatsOp.run_since ops).counts
  refine ⟨hall ops, fun mark more hmark hmore => ?_⟩
  have hafter : StatsOp.sinceMark (ops ++ mark :: more) = more := by
    rw [List.append_cons, StatsOp.sinceMark_append hmore, StatsOp.sinceMark_snoc, if_pos hmark,
      List.nil_append]
  have hboth : StatsOp.sinceMark (ops ++ more) = StatsOp.sinceMark ops ++ more :=
    StatsOp.sinceMark_append hmore
  exact (hall ops).append (hafter ▸ hall (ops ++ mark :: more)) (hboth ▸ hall (ops ++ more))

/-- A negative estimate, then a window of its own. -/
theorem loadWindow_counts_two_windows :
    CounterSnap.AddUp
      (StatsOp.run {} [.fetchAdd .txPackets 2, .recordLatencyMs (-7)]).loadWindow
      (StatsOp.run {} [.fetchAdd .txPackets 2, .recordLatencyMs (-7), .markWindow "r1" 5 5,
        .recordLatencyMs 2000]).loadWindow
      (StatsOp.run {} [.fetchAdd .txPackets 2, .recordLatencyMs (-7),
        .recordLatencyMs 2000]).loadWindow :=
  (loadWindow_counts [.fetchAdd .txPackets 2, .recordLatencyMs (-7)]).2 (.markWindow "r1" 5 5)
    [.recordLatencyMs 2000] rfl (by simp [StatsOp.isMark])

end CksLoadtest
