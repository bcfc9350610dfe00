import Mathlib.Algebra.Group.WithOne.Defs
import Mathlib.Algebra.BigOperators.Group.List.Basic

/-!
# Totals of non-empty lists

In a commutative semigroup a non-empty list has a total, whatever the order and the
grouping in which it is added up. An empty list has none.
-/
namespace CksLoadtest.Lib

variable {S : Type*} [AddCommSemigroup S]

/-- The sum of a list, with a zero for the empty one. -/
def totalOf (l : List S) : WithZero S := (l.map ((↑) : S → WithZero S)).sum

/-- A list adds up to an element. -/
def IsTotal (l : List S) (s : S) : Prop := totalOf l = s

theorem totalOf_cons (a : S) (l : List S) : totalOf (a :: l) = a + totalOf l := by
  rw [totalOf, List.map_cons, List.sum_cons]
  rfl

theorem IsTotal.unique {l : List S} {s t : S} (hs : IsTotal l s) (ht : IsTotal l t) : s = t :=
  WithZero.coe_inj.mp (hs.symm.trans ht)

theorem IsTotal.perm {l l' : List S} {s : S} (h : IsTotal l s) (hp : l.Perm l') : IsTotal l' s :=
  (hp.map _).sum_eq.symm.trans h

theorem IsTotal.single (a : S) : IsTotal [a] a :=
  (totalOf_cons a []).trans (add_zero _)

theorem IsTotal.cons {l : List S} {s : S} (h : IsTotal l s) (a : S) : IsTotal (a :: l) (a + s) := by
  unfold IsTotal
  rw [totalOf_cons, h]
  rfl

theorem not_isTotal_nil (s : S) : ¬ IsTotal ([] : List S) s := fun h => WithZero.zero_ne_coe h

/-- What holds of one element and is kept by adding another holds of a total. -/
theorem IsTotal.rec_on {P : List S → S → Prop} (single : ∀ a, P [a] a)
    (cons : ∀ a l s, IsTotal l s → P l s → P (a :: l) (a + s)) {l : List S} {s : S}
    (h : IsTotal l s) : P l s := by
  induction l generalizing s with
  | nil => exact absurd h (not_isTotal_nil s)
  | cons a l ih =>
    cases l with
    | nil =>
      obtain rfl := (IsTotal.single a).unique h
      exact single a
    | cons b l =>
      have hne : totalOf (b :: l) ≠ 0 := by
        rw [totalOf_cons]
        cases totalOf l with
        | zero => exact WithZero.coe_ne_zero
        | coe t => exact WithZero.coe_ne_zero (a := b + t)
      obtain ⟨t, ht⟩ := WithZero.ne_zero_iff_exists.mp hne
      have htotal : IsTotal (b :: l) t := ht.symm
      obtain rfl := (htotal.cons a).unique h
      exact cons a (b :: l) t htotal (ih htotal)

/-- Adding up from the left. -/
theorem IsTotal.foldl (a : S) (l : List S) : IsTotal (a :: l) (l.foldl (· + ·) a) := by
  induction l generalizing a with
  | nil => exact .single a
  | cons b l ih =>
    have hab : totalOf (a :: b :: l) = totalOf ((a + b) :: l) := by
      rw [totalOf_cons, totalOf_cons, totalOf_cons, ← add_assoc]
      rfl
    exact hab.trans (ih (a + b))

/-- **Regrouping**: the totals of groups add up to the total of all. -/
theorem IsTotal.flatten {groups : List (List S)} {totals : List S} {s : S}
    (hg : List.Forall₂ IsTotal groups totals) (h : IsTotal totals s) :
    IsTotal groups.flatten s := by
  have hsum : totalOf groups.flatten = totalOf totals := by
    clear h
    induction hg with
    | nil => rfl
    | cons h _ ih =>
      rw [List.flatten_cons, totalOf, List.map_append, List.sum_append, totalOf_cons, ← ih]
      exact congrArg (· + _) h
  exact hsum.trans h

/-- An additive reading of a total is the sum of the readings. -/
theorem IsTotal.map_sum {M : Type*} [AddCommMonoid M] {φ : S → M}
    (hφ : ∀ a b, φ (a + b) = φ a + φ b) {l : List S} {s : S} (h : IsTotal l s) :
    φ s = (l.map φ).sum := by
  refine h.rec_on (P := fun l s => φ s = (l.map φ).sum) (fun a => by simp) ?_
  intro a l s _ ih
  rw [hφ, ih, List.map_cons, List.sum_cons]

end CksLoadtest.Lib
