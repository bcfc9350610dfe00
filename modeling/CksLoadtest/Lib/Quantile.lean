import Mathlib.Algebra.Order.Field.Basic
import Mathlib.Algebra.BigOperators.Group.List.Basic
import Mathlib.Tactic.Linarith
import Mathlib.Tactic.Positivity
import Mathlib.Tactic.Ring

/-!
# Quantiles of a histogram

A histogram is a list of cells, each with its weight and its upper edge; a cell begins where
the one before it ends. Inside a cell the weight is spread evenly, so the cumulative weight is
a piecewise linear curve with a plateau over every empty cell. `quantile` is the generalised
inverse of that curve: everything said of it follows from `quantile_le_iff`.
-/
namespace CksLoadtest.Lib

section Curve

variable {K : Type*} [Field K] [LinearOrder K]

/-- The share of the cell from `lo` to `hi` that lies below `x`. -/
def ramp (lo hi x : K) : K := max 0 (min 1 ((x - lo) / (hi - lo)))

/-- The weight below `x` of the cells that begin at `lo`. -/
def cumulative (lo : K) : List (K × K) → K → K
  | [], _ => 0
  | (w, hi) :: rest, x => w * ramp lo hi x + cumulative hi rest x

/-- Where the weight `t` is reached. -/
def quantile (t lo : K) : List (K × K) → K
  | [] => lo
  | (w, hi) :: rest => if t ≤ w then lo + t / w * (hi - lo) else quantile (t - w) hi rest

/-- Weights are not negative and edges ascend. -/
def Ascending (lo : K) : List (K × K) → Prop
  | [] => True
  | (w, hi) :: rest => 0 ≤ w ∧ lo < hi ∧ Ascending hi rest

def weight (cells : List (K × K)) : K := (cells.map Prod.fst).sum

/-- Where the cells end. -/
def lastEdge (lo : K) : List (K × K) → K
  | [] => lo
  | (_, hi) :: rest => lastEdge hi rest

omit [LinearOrder K] in
@[simp] theorem weight_nil : weight ([] : List (K × K)) = 0 := rfl

omit [LinearOrder K] in
@[simp] theorem weight_cons (w hi : K) (rest : List (K × K)) :
    weight ((w, hi) :: rest) = w + weight rest := List.sum_cons

variable {lo hi w t x : K} {cells : List (K × K)}

theorem ramp_nonneg : 0 ≤ ramp lo hi x := le_max_left _ _

theorem Ascending.append {pre post : List (K × K)} (h : Ascending lo (pre ++ post)) :
    Ascending (lastEdge lo pre) post := by
  induction pre generalizing lo with
  | nil => exact h
  | cons cell pre ih => exact ih h.2.2

theorem Ascending.left {pre post : List (K × K)} (h : Ascending lo (pre ++ post)) :
    Ascending lo pre := by
  induction pre generalizing lo with
  | nil => trivial
  | cons cell pre ih => exact ⟨h.1, h.2.1, ih h.2.2⟩

variable [IsStrictOrderedRing K]

theorem ramp_le_one : ramp lo hi x ≤ 1 := max_le zero_le_one (min_le_left _ _)

theorem ramp_of_le (h : lo < hi) (hx : x ≤ lo) : ramp lo hi x = 0 := by
  have hneg : (x - lo) / (hi - lo) ≤ 0 :=
    div_nonpos_of_nonpos_of_nonneg (sub_nonpos.mpr hx) (sub_pos.mpr h).le
  exact max_eq_left ((min_le_right _ _).trans hneg)

theorem ramp_of_ge (h : lo < hi) (hx : hi ≤ x) : ramp lo hi x = 1 := by
  have hone : 1 ≤ (x - lo) / (hi - lo) := by
    rw [le_div_iff₀ (sub_pos.mpr h), one_mul]
    exact sub_le_sub_right hx lo
  rw [ramp, min_eq_left hone]
  exact max_eq_right zero_le_one

theorem ramp_of_mem (h : lo < hi) (hl : lo ≤ x) (hx : x ≤ hi) :
    ramp lo hi x = (x - lo) / (hi - lo) := by
  have hle : (x - lo) / (hi - lo) ≤ 1 := by
    rw [div_le_one (sub_pos.mpr h)]
    exact sub_le_sub_right hx lo
  have hnonneg : 0 ≤ (x - lo) / (hi - lo) := div_nonneg (sub_nonneg.mpr hl) (sub_pos.mpr h).le
  rw [ramp, min_eq_right hle, max_eq_right hnonneg]

theorem cumulative_nonneg (h : Ascending lo cells) : 0 ≤ cumulative lo cells x := by
  induction cells generalizing lo with
  | nil => exact le_rfl
  | cons cell rest ih =>
    obtain ⟨w, hi⟩ := cell
    obtain ⟨hw, -, hrest⟩ := h
    exact add_nonneg (mul_nonneg hw ramp_nonneg) (ih hrest)

/-- Nothing lies below the first edge. -/
theorem cumulative_of_le (h : Ascending lo cells) (hx : x ≤ lo) : cumulative lo cells x = 0 := by
  induction cells generalizing lo with
  | nil => rfl
  | cons cell rest ih =>
    obtain ⟨w, hi⟩ := cell
    obtain ⟨-, hlt, hrest⟩ := h
    rw [cumulative, ramp_of_le hlt hx, ih hrest (hx.trans hlt.le), mul_zero, add_zero]

/-- Inside the first cell, only that cell counts. -/
theorem cumulative_cons_of_le {rest : List (K × K)} (h : Ascending lo ((w, hi) :: rest))
    (hx : x ≤ hi) : cumulative lo ((w, hi) :: rest) x = w * ramp lo hi x := by
  rw [cumulative, cumulative_of_le h.2.2 hx, add_zero]

theorem cumulative_cons_of_ge {rest : List (K × K)} (h : Ascending lo ((w, hi) :: rest))
    (hx : hi ≤ x) : cumulative lo ((w, hi) :: rest) x = w + cumulative hi rest x := by
  rw [cumulative, ramp_of_ge h.2.1 hx, mul_one]

/-- A quantile lies behind the edge its cells begin at. -/
theorem lt_quantile (h : Ascending lo cells) (ht : 0 < t) (hle : t ≤ weight cells) :
    lo < quantile t lo cells := by
  induction cells generalizing lo t with
  | nil => exact absurd (ht.trans_le hle) (lt_irrefl 0)
  | cons cell rest ih =>
    obtain ⟨w, hi⟩ := cell
    obtain ⟨-, hlt, hrest⟩ := h
    rw [weight_cons] at hle
    rw [quantile]
    by_cases htw : t ≤ w
    · rw [if_pos htw]
      have hshare : 0 < t / w := div_pos ht (ht.trans_le htw)
      have hstep := mul_pos hshare (sub_pos.mpr hlt)
      linarith
    · rw [if_neg htw]
      have hpos : 0 < t - w := sub_pos.mpr (not_le.mp htw)
      exact hlt.trans (ih hrest hpos (sub_le_iff_le_add'.mpr hle))

/-- A quantile reached in the first cell does not pass its end. -/
theorem quantile_cons_le {rest : List (K × K)} (h : lo < hi) (ht : 0 < t) (htw : t ≤ w) :
    quantile t lo ((w, hi) :: rest) ≤ hi := by
  rw [quantile, if_pos htw]
  have hshare : t / w ≤ 1 := (div_le_one (ht.trans_le htw)).mpr htw
  have hstep := mul_le_of_le_one_left (sub_pos.mpr h).le hshare
  linarith

/-- Inside the first cell, the quantile and the line of that cell are inverse. -/
theorem line_le_iff (h : lo < hi) (ht : 0 < t) (htw : t ≤ w) :
    lo + t / w * (hi - lo) ≤ x ↔ t ≤ w * ((x - lo) / (hi - lo)) := by
  have hwidth : 0 < hi - lo := sub_pos.mpr h
  have hw : 0 < w := ht.trans_le htw
  calc lo + t / w * (hi - lo) ≤ x
      ↔ t / w * (hi - lo) ≤ x - lo := le_sub_iff_add_le'.symm
    _ ↔ t / w ≤ (x - lo) / (hi - lo) := (le_div_iff₀ hwidth).symm
    _ ↔ t ≤ (x - lo) / (hi - lo) * w := div_le_iff₀ hw
    _ ↔ t ≤ w * ((x - lo) / (hi - lo)) := by rw [mul_comm]

/-- **The quantile is the generalised inverse of the cumulative curve.** -/
theorem quantile_le_iff (h : Ascending lo cells) (ht : 0 < t) (hle : t ≤ weight cells) :
    quantile t lo cells ≤ x ↔ t ≤ cumulative lo cells x := by
  induction cells generalizing lo t with
  | nil => exact absurd (ht.trans_le hle) (lt_irrefl 0)
  | cons cell rest ih =>
    obtain ⟨w, hi⟩ := cell
    have hlt : lo < hi := h.2.1
    rw [weight_cons] at hle
    by_cases htw : t ≤ w
    · rcases le_total hi x with hx | hx
      · -- the whole cell is below `x`, and it is enough
        have hcum := cumulative_nonneg (x := x) h.2.2
        rw [cumulative_cons_of_ge h hx]
        exact iff_of_true ((quantile_cons_le hlt ht htw).trans hx) (by linarith)
      rcases le_total lo x with hl | hl
      · rw [cumulative_cons_of_le h hx, ramp_of_mem hlt hl hx, quantile, if_pos htw]
        exact line_le_iff hlt ht htw
      · have hq : lo < quantile t lo ((w, hi) :: rest) := lt_quantile h ht (by simpa using hle)
        rw [cumulative_of_le h hl]
        exact iff_of_false (not_le.mpr (hl.trans_lt hq)) (not_le.mpr ht)
    · have hpos : 0 < t - w := sub_pos.mpr (not_le.mp htw)
      have hrest : t - w ≤ weight rest := sub_le_iff_le_add'.mpr hle
      have ih := ih h.2.2 hpos hrest
      rw [quantile, if_neg htw, ih]
      rcases le_total hi x with hx | hx
      · rw [cumulative_cons_of_ge h hx]
        exact sub_le_iff_le_add'
      · -- short of the next cell there is at most `w`
        have hshare : w * ramp lo hi x ≤ w := mul_le_of_le_one_right h.1 ramp_le_one
        rw [cumulative_cons_of_le h hx, cumulative_of_le h.2.2 hx]
        exact iff_of_false (not_le.mpr hpos) (by linarith)

theorem quantile_mono (h : Ascending lo cells) {t t' : K} (ht : 0 < t) (htt : t ≤ t')
    (hle : t' ≤ weight cells) : quantile t lo cells ≤ quantile t' lo cells := by
  rw [quantile_le_iff h ht (htt.trans hle)]
  have hreach := (quantile_le_iff h (ht.trans_le htt) hle).mp le_rfl
  exact htt.trans hreach

section Sum

variable {ι : Type*} (l : List ι) (f g edge : ι → K)

omit [IsStrictOrderedRing K] in
/-- Histograms over the same edges add up to one whose curve is the sum of theirs. -/
theorem cumulative_add (lo x : K) :
    cumulative lo (l.map fun i => (f i + g i, edge i)) x =
      cumulative lo (l.map fun i => (f i, edge i)) x +
        cumulative lo (l.map fun i => (g i, edge i)) x := by
  induction l generalizing lo with
  | nil => exact (add_zero 0).symm
  | cons i l ih =>
    simp only [List.map_cons, cumulative, ih]
    ring

omit [LinearOrder K] [IsStrictOrderedRing K] in
theorem weight_add :
    weight (l.map fun i => (f i + g i, edge i)) =
      weight (l.map fun i => (f i, edge i)) + weight (l.map fun i => (g i, edge i)) := by
  induction l with
  | nil => exact (add_zero 0).symm
  | cons i l ih =>
    simp only [List.map_cons, weight_cons, ih]
    ring

variable {l f g edge}

theorem ascending_add (hf : Ascending lo (l.map fun i => (f i, edge i)))
    (hg : Ascending lo (l.map fun i => (g i, edge i))) :
    Ascending lo (l.map fun i => (f i + g i, edge i)) := by
  induction l generalizing lo with
  | nil => trivial
  | cons i l ih => exact ⟨add_nonneg hf.1 hg.1, hf.2.1, ih hf.2.2 hg.2.2⟩

/-- **A quantile of a sum is between the quantiles of its parts.** -/
theorem quantile_add_mem {s t : K} (hf : Ascending lo (l.map fun i => (f i, edge i)))
    (hg : Ascending lo (l.map fun i => (g i, edge i))) (hs : 0 < s) (ht : 0 < t)
    (hsf : s ≤ weight (l.map fun i => (f i, edge i)))
    (htg : t ≤ weight (l.map fun i => (g i, edge i))) :
    min (quantile s lo (l.map fun i => (f i, edge i)))
        (quantile t lo (l.map fun i => (g i, edge i))) ≤
        quantile (s + t) lo (l.map fun i => (f i + g i, edge i)) ∧
      quantile (s + t) lo (l.map fun i => (f i + g i, edge i)) ≤
        max (quantile s lo (l.map fun i => (f i, edge i)))
          (quantile t lo (l.map fun i => (g i, edge i))) := by
  have hsum := ascending_add hf hg
  have hst : 0 < s + t := add_pos hs ht
  have hle : s + t ≤ weight (l.map fun i => (f i + g i, edge i)) := by
    rw [weight_add]
    exact add_le_add hsf htg
  have hinv := fun x => quantile_le_iff (x := x) hsum hst hle
  constructor
  · -- below both quantiles neither part has reached its share
    by_contra hlt
    obtain ⟨hqf, hqg⟩ := lt_min_iff.mp (not_le.mp hlt)
    rw [← not_le, quantile_le_iff hf hs hsf, not_le] at hqf
    rw [← not_le, quantile_le_iff hg ht htg, not_le] at hqg
    have hreach := (hinv _).mp le_rfl
    rw [cumulative_add] at hreach
    exact absurd (add_lt_add hqf hqg) (not_lt.mpr hreach)
  · rw [hinv, cumulative_add]
    apply add_le_add
    · exact (quantile_le_iff hf hs hsf).mp (le_max_left _ _)
    · exact (quantile_le_iff hg ht htg).mp (le_max_right _ _)

end Sum

theorem weight_nonneg (h : Ascending lo cells) : 0 ≤ weight cells := by
  induction cells generalizing lo with
  | nil => exact le_rfl
  | cons cell rest ih => exact add_nonneg h.1 (ih h.2.2)

/-- The cells that hold less than `t` are skipped. -/
theorem quantile_append {pre post : List (K × K)} (h : Ascending lo (pre ++ post))
    (ht : weight pre < t) :
    quantile t lo (pre ++ post) = quantile (t - weight pre) (lastEdge lo pre) post := by
  induction pre generalizing lo t with
  | nil => simp [lastEdge]
  | cons cell pre ih =>
    obtain ⟨w, hi⟩ := cell
    have hrest : 0 ≤ weight pre := weight_nonneg (Ascending.left h).2.2
    rw [weight_cons] at ht
    have htw : ¬ t ≤ w := by linarith
    rw [List.cons_append, quantile, if_neg htw, ih h.2.2 (by linarith), weight_cons, lastEdge]
    congr 1
    ring

/-- **A quantile lies in the cell that reaches it.** -/
theorem quantile_mem_cell {pre post : List (K × K)} (h : Ascending lo (pre ++ (w, hi) :: post))
    (ht : weight pre < t) (htw : t ≤ weight pre + w) :
    lastEdge lo pre < quantile t lo (pre ++ (w, hi) :: post) ∧
      quantile t lo (pre ++ (w, hi) :: post) ≤ hi := by
  have hcell := h.append
  have hpost : 0 ≤ weight post := weight_nonneg hcell.2.2
  have hpos : 0 < t - weight pre := sub_pos.mpr ht
  have hle : t - weight pre ≤ w := sub_le_iff_le_add'.mpr htw
  rw [quantile_append h ht]
  constructor
  · apply lt_quantile hcell hpos
    rw [weight_cons]
    linarith
  · exact quantile_cons_le hcell.2.1 hpos hle

omit [IsStrictOrderedRing K] in
theorem ascending_iff : Ascending lo cells ↔
    (∀ cell ∈ cells, 0 ≤ cell.1) ∧ (lo :: cells.map Prod.snd).IsChain (· < ·) := by
  induction cells generalizing lo with
  | nil => simp [Ascending]
  | cons cell rest ih =>
    rw [Ascending, ih, List.forall_mem_cons, List.map_cons, List.isChain_cons_cons]
    tauto

end Curve

section Ranks

variable {ι : Type*} (n : ι → Nat)

/-- The members of a histogram with `n i` of them in cell `i`, cell by cell. -/
def members (l : List ι) : List ι := l.flatMap fun i => List.replicate (n i) i

theorem members_cons (i : ι) (l : List ι) :
    members n (i :: l) = List.replicate (n i) i ++ members n l := List.flatMap_cons

theorem length_members (l : List ι) : (members n l).length = (l.map n).sum := by
  simp [members, List.length_flatMap]

/-- The member at a position lies in the cell where the counts pass it. -/
theorem members_getElem? {l : List ι} {k : Nat} {i : ι} (h : (members n l)[k]? = some i) :
    ∃ pre post, l = pre ++ i :: post ∧ (pre.map n).sum ≤ k ∧ k < (pre.map n).sum + n i := by
  induction l generalizing k with
  | nil => simp [members] at h
  | cons j l ih =>
    rw [members_cons, List.getElem?_append, List.length_replicate] at h
    by_cases hk : k < n j
    · rw [if_pos hk, List.getElem?_replicate, if_pos hk, Option.some.injEq] at h
      subst h
      exact ⟨[], l, rfl, Nat.zero_le k, by simpa using hk⟩
    · rw [if_neg hk] at h
      obtain ⟨pre, post, rfl, hlow, hhigh⟩ := ih h
      refine ⟨j :: pre, post, rfl, ?_, ?_⟩
      · rw [List.map_cons, List.sum_cons]
        omega
      · rw [List.map_cons, List.sum_cons]
        omega

theorem mem_members {l : List ι} {i : ι} : i ∈ members n l ↔ i ∈ l ∧ n i ≠ 0 := by
  simp only [members, List.mem_flatMap, List.mem_replicate]
  constructor
  · rintro ⟨j, hj, hn, rfl⟩
    exact ⟨hj, hn⟩
  · rintro ⟨hi, hn⟩
    exact ⟨i, hi, hn, rfl⟩

theorem count_members [DecidableEq ι] {l : List ι} (hl : l.Nodup) {i : ι} (hi : i ∈ l) :
    (members n l).count i = n i := by
  induction l with
  | nil => cases hi
  | cons j l ih =>
    obtain ⟨hj, hl⟩ := List.nodup_cons.mp hl
    rw [members_cons, List.count_append, List.count_replicate]
    by_cases hij : j = i
    · subst hij
      have hrest : j ∉ members n l := fun h => hj ((mem_members n).mp h).1
      rw [List.count_eq_zero_of_not_mem hrest, beq_self_eq_true, if_pos rfl, add_zero]
    · have hil : i ∈ l := (List.mem_cons.mp hi).resolve_left (Ne.symm hij)
      rw [ih hl hil, beq_false_of_ne hij, if_neg Bool.false_ne_true, zero_add]

theorem pairwise_members [Preorder ι] {l : List ι} (hl : l.Pairwise (· < ·)) :
    (members n l).Pairwise (· ≤ ·) := by
  induction l with
  | nil => exact List.Pairwise.nil
  | cons j l ih =>
    obtain ⟨hj, hl⟩ := List.pairwise_cons.mp hl
    rw [members_cons, List.pairwise_append]
    refine ⟨List.pairwise_replicate.mpr (.inr le_rfl), ih hl, ?_⟩
    intro a ha b hb
    rw [List.eq_of_mem_replicate ha]
    exact (hj b ((mem_members n).mp hb).1).le

end Ranks

end CksLoadtest.Lib
