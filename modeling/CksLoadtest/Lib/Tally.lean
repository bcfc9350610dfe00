import Mathlib.Algebra.BigOperators.Group.Finset.Basic
import Mathlib.Algebra.Order.BigOperators.Group.Finset
import Mathlib.Data.Fintype.BigOperators
import Mathlib.Data.Int.Order.Basic

/-!
# Tallies under interleaving

Threads perform lists of operations, one operation at a time and in any order of the threads.
What the operations of a list add up to is there when all of them were performed; a list that
never spends what it has not earned keeps a balance non-negative whatever the others do.
-/
namespace CksLoadtest.Lib.Tally

variable {α ι : Type*}

/-- What a list of operations adds up to. -/
def total (w : α → ℤ) : List α → ℤ
  | [] => 0
  | a :: l => w a + total w l

@[simp] theorem total_nil (w : α → ℤ) : total w [] = 0 := rfl

@[simp] theorem total_cons (w : α → ℤ) (a : α) (l : List α) :
    total w (a :: l) = w a + total w l := rfl

@[simp] theorem total_append (w : α → ℤ) (l l' : List α) :
    total w (l ++ l') = total w l + total w l' := by
  induction l with
  | nil => exact (zero_add _).symm
  | cons a l ih => rw [List.cons_append, total_cons, total_cons, ih, add_assoc]

theorem total_eq_zero {w : α → ℤ} {l : List α} (h : ∀ a ∈ l, w a = 0) : total w l = 0 := by
  induction l with
  | nil => rfl
  | cons a l ih =>
    have hrest := ih fun b hb => h b (List.mem_cons_of_mem _ hb)
    rw [total_cons, h a (List.mem_cons_self ..), hrest, zero_add]

theorem total_nonpos {w : α → ℤ} {l : List α} (h : ∀ a ∈ l, w a ≤ 0) : total w l ≤ 0 := by
  induction l with
  | nil => exact le_refl 0
  | cons a l ih =>
    rw [List.forall_mem_cons] at h
    exact add_nonpos h.1 (ih h.2)

/-- What every operation adds its weight to, a list adds its total to. -/
theorem foldl_total {σ : Type*} {f : σ → α → σ} {w : α → ℤ} (read : σ → ℤ)
    (h : ∀ s a, read (f s a) = read s + w a) (l : List α) (s : σ) :
    read (l.foldl f s) = read s + total w l := by
  induction l generalizing s with
  | nil => exact (add_zero _).symm
  | cons a l ih => rw [List.foldl_cons, ih, h, total_cons, add_assoc]

/-- With so much in hand at the beginning, the balance is never negative. -/
def Safe (gain : α → ℤ) : ℤ → List α → Prop
  | credit, [] => 0 ≤ credit
  | credit, a :: l => 0 ≤ credit ∧ Safe gain (credit + gain a) l

variable {gain : α → ℤ} {credit : ℤ} {a : α} {l l' : List α}

theorem Safe.nonneg (h : Safe gain credit l) : 0 ≤ credit := by
  cases l with
  | nil => exact h
  | cons a l => exact h.1

/-- More in hand does no harm. -/
theorem Safe.mono {credit' : ℤ} (h : Safe gain credit l) (hle : credit ≤ credit') :
    Safe gain credit' l := by
  induction l generalizing credit credit' with
  | nil => exact le_trans h hle
  | cons a l ih => exact ⟨h.1.trans hle, ih h.2 (by omega)⟩

theorem Safe.append (h : Safe gain credit l) (h' : Safe gain 0 l') :
    Safe gain credit (l ++ l') := by
  induction l generalizing credit with
  | nil => exact h'.mono h
  | cons a l ih => exact ⟨h.1, ih h.2⟩

/-- A list that only earns. -/
theorem safe_of_nonneg (hc : 0 ≤ credit) (h : ∀ a ∈ l, 0 ≤ gain a) : Safe gain credit l := by
  induction l generalizing credit with
  | nil => exact hc
  | cons a l ih =>
    have ha := h a (List.mem_cons_self ..)
    exact ⟨hc, ih (by omega) fun b hb => h b (List.mem_cons_of_mem _ hb)⟩

/-- What is sorted by a key is counted key by key. -/
theorem sum_countP_key {n : ℕ} (key : α → ℕ) (p : α → Bool) {l : List α}
    (h : ∀ a ∈ l, key a < n) :
    ∑ t : Fin n, l.countP (fun a => key a = t ∧ p a) = l.countP p := by
  induction l with
  | nil => exact Finset.sum_eq_zero fun _ _ => rfl
  | cons a l ih =>
    have hrest := ih fun b hb => h b (List.mem_cons_of_mem _ hb)
    have hkey := h a (List.mem_cons_self ..)
    have hone : ∑ t : Fin n, (if key a = t ∧ p a then 1 else 0) = if p a then 1 else 0 := by
      rw [Finset.sum_eq_single ⟨key a, hkey⟩]
      · exact if_congr (and_iff_right rfl) rfl rfl
      · intro t _ ht
        exact if_neg fun hk => ht (Fin.ext hk.1.symm)
      · intro hout
        exact absurd (Finset.mem_univ _) hout
    simp only [List.countP_cons, decide_eq_true_eq, Finset.sum_add_distrib]
    omega

/-- A list is counted position by position. -/
theorem countP_slots (l : List α) (p : α → Bool) :
    (List.range l.length).countP (fun i => l[i]?.any p) = l.countP p := by
  induction l with
  | nil => rfl
  | cons a l ih =>
    rw [List.length_cons, List.range_succ_eq_map, List.countP_cons, List.countP_map,
      List.countP_cons, ← ih]
    rfl

/-- Where a list counts at a position, the other one does. -/
theorem countP_le_of_slots {β : Type*} {l : List α} {l' : List β} {p : α → Bool} {q : β → Bool}
    (h : ∀ (i : ℕ) a, l[i]? = some a → p a = true → ∃ b, l'[i]? = some b ∧ q b = true) :
    l.countP p ≤ l'.countP q := by
  have hmem (i : ℕ) (hi : l[i]?.any p = true) : l'[i]?.any q = true := by
    obtain ⟨a, ha, hp⟩ := (Option.any_eq_true _ _).mp hi
    obtain ⟨b, hb, hq⟩ := h i a ha hp
    exact (Option.any_eq_true _ _).mpr ⟨b, hb, hq⟩
  have hsub : ((List.range l.length).filter fun i => l[i]?.any p) ⊆
      (List.range l'.length).filter fun i => l'[i]?.any q := by
    intro i hi
    have hnext := hmem i (List.mem_filter.mp hi).2
    obtain ⟨b, hb, -⟩ := (Option.any_eq_true _ _).mp hnext
    have hlt := (List.getElem?_eq_some_iff.mp hb).1
    exact List.mem_filter.mpr ⟨List.mem_range.mpr hlt, hnext⟩
  rw [← countP_slots l, ← countP_slots l', List.countP_eq_length_filter,
    List.countP_eq_length_filter]
  exact (List.subperm_of_subset (List.nodup_range.filter _) hsub).length_le

section Threads

variable [Fintype ι]

/-- What was added so far and what the threads still have to add make up the whole. -/
def Settles (w : α → ℤ) (todo : ι → List α) (seen whole : ℤ) : Prop :=
  whole = seen + ∑ t, total w (todo t)

/-- What the threads have in hand is part of the balance, and enough for each of them. -/
def Covered (gain : α → ℤ) (todo : ι → List α) (balance : ℤ) : Prop :=
  ∃ credit : ι → ℤ, ∑ t, credit t ≤ balance ∧ ∀ t, Safe gain (credit t) (todo t)

variable {w : α → ℤ} {todo : ι → List α} {seen whole balance : ℤ} {t : ι}

theorem settles_idle (w : α → ℤ) (seen : ℤ) : Settles w (fun _ : ι => []) seen seen := by
  unfold Settles
  rw [Finset.sum_eq_zero fun t _ => total_nil w, add_zero]

/-- Between the lists nothing is missing. -/
theorem Settles.done (h : Settles w todo seen whole) (hd : ∀ t, todo t = []) : whole = seen := by
  unfold Settles at h
  rw [h, Finset.sum_eq_zero fun t _ => by rw [hd t, total_nil], add_zero]

theorem covered_idle (gain : α → ℤ) : Covered gain (fun _ : ι => []) 0 :=
  ⟨fun _ => 0, (Finset.sum_const_zero).le, fun _ => le_refl 0⟩

/-- **No balance is ever negative.** -/
theorem Covered.nonneg (h : Covered gain todo balance) : 0 ≤ balance := by
  obtain ⟨credit, hsum, hsafe⟩ := h
  exact (Finset.sum_nonneg fun t _ => (hsafe t).nonneg).trans hsum

variable [DecidableEq ι]

theorem sum_update {β : Type*} (f : β → ℤ) (x : ι → β) (t : ι) (b : β) :
    ∑ i, f (Function.update x t b i) = ∑ i, f (x i) - f (x t) + f b := by
  have hold := Finset.add_sum_erase Finset.univ (fun i => f (x i)) (Finset.mem_univ t)
  have hnew := Finset.add_sum_erase Finset.univ (fun i => f (Function.update x t b i))
    (Finset.mem_univ t)
  have hrest : ∑ i ∈ Finset.univ.erase t, f (Function.update x t b i) =
      ∑ i ∈ Finset.univ.erase t, f (x i) :=
    Finset.sum_congr rfl fun i hi => by rw [Function.update_of_ne (Finset.ne_of_mem_erase hi)]
  rw [Function.update_self] at hnew
  omega

/-- A thread takes on a list. -/
theorem Settles.begin (h : Settles w todo seen whole) (ht : todo t = []) (l : List α) :
    Settles w (Function.update todo t l) seen (whole + total w l) := by
  unfold Settles at *
  rw [sum_update, ht, total_nil]
  omega

/-- A thread performs its next operation. -/
theorem Settles.act (h : Settles w todo seen whole) (ht : todo t = a :: l) :
    Settles w (Function.update todo t l) (seen + w a) whole := by
  unfold Settles at *
  rw [sum_update, ht, total_cons]
  omega

theorem Covered.begin (h : Covered gain todo balance) (ht : todo t = []) (hl : Safe gain 0 l) :
    Covered gain (Function.update todo t l) balance := by
  obtain ⟨credit, hsum, hsafe⟩ := h
  refine ⟨credit, hsum, fun i => ?_⟩
  by_cases hi : i = t
  · subst hi
    rw [Function.update_self]
    exact hl.mono (hsafe i).nonneg
  · rw [Function.update_of_ne hi]
    exact hsafe i

theorem Covered.act (h : Covered gain todo balance) (ht : todo t = a :: l) :
    Covered gain (Function.update todo t l) (balance + gain a) := by
  obtain ⟨credit, hsum, hsafe⟩ := h
  have hnext := hsafe t
  rw [ht] at hnext
  refine ⟨Function.update credit t (credit t + gain a), ?_, fun i => ?_⟩
  · have hupdate := sum_update id credit t (credit t + gain a)
    simp only [id] at hupdate
    omega
  · by_cases hi : i = t
    · subst hi
      rw [Function.update_self, Function.update_self]
      exact hnext.2
    · rw [Function.update_of_ne hi, Function.update_of_ne hi]
      exact hsafe i

end Threads

end CksLoadtest.Lib.Tally
