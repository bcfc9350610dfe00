import Mathlib.Algebra.Order.Ring.Int
import Mathlib.Data.Int.ConditionallyCompleteOrder
import Mathlib.Data.Int.ModEq
import Mathlib.Data.Set.Function
import Mathlib.Order.Interval.Set.Defs
import Mathlib.Tactic.Linarith
import Mathlib.Tactic.LinearCombination
import Mathlib.Tactic.Positivity
import Mathlib.Tactic.Ring

/-!
# Spreading a window of integers over a cube

Multiplication by a unit permutes the residues, seen from any window of consecutive
integers, and the numbers below `n³` are the triples of digits in base `n`.
-/
namespace CksLoadtest.Lib.Radix

/-- **A unit permutes the residues**, wherever the window of representatives starts. -/
theorem bijOn_mul_emod {a b m : Int} (hm : 0 < m) (hab : a * b ≡ 1 [ZMOD m]) (g : Int) :
    Set.BijOn (fun x => x * a % m) (Set.Ico g (g + m)) (Set.Ico 0 m) := by
  refine ⟨fun x _ => ⟨Int.emod_nonneg _ hm.ne', Int.emod_lt_of_pos _ hm⟩, ?_, ?_⟩
  · intro x hx y hy hxy
    have hcancel (z : Int) : z * a * b ≡ z [ZMOD m] := by
      calc z * a * b = z * (a * b) := mul_assoc ..
        _ ≡ z * 1 [ZMOD m] := hab.mul_left z
        _ = z := mul_one z
    have hmod : x ≡ y [ZMOD m] :=
      (hcancel x).symm.trans
        (((show x * a ≡ y * a [ZMOD m] from hxy).mul_right b).trans (hcancel y))
    obtain ⟨k, hk⟩ := hmod.symm.dvd
    obtain ⟨hgx, hxg⟩ := hx
    obtain ⟨hgy, hyg⟩ := hy
    -- two members of the window differ by less than `m`
    have hlow : -1 < k := by
      by_contra hneg
      have := mul_le_mul_of_nonneg_left (show k ≤ -1 by omega) hm.le
      omega
    have hhigh : k < 1 := by
      by_contra hpos
      have := mul_le_mul_of_nonneg_left (show 1 ≤ k by omega) hm.le
      omega
    obtain rfl : k = 0 := by omega
    omega
  · rintro y ⟨hy0, hym⟩
    refine ⟨g + (y * b - g) % m, ⟨?_, ?_⟩, ?_⟩
    · have := Int.emod_nonneg (y * b - g) hm.ne'
      omega
    · have := Int.emod_lt_of_pos (y * b - g) hm
      omega
    · have hrep : g + (y * b - g) % m ≡ y * b [ZMOD m] := by
        calc g + (y * b - g) % m ≡ g + (y * b - g) [ZMOD m] := (Int.mod_modEq _ _).add_left g
          _ = y * b := by ring
      have hback : (g + (y * b - g) % m) * a ≡ y [ZMOD m] := by
        calc (g + (y * b - g) % m) * a ≡ y * b * a [ZMOD m] := hrep.mul_right a
          _ = y * (a * b) := by ring
          _ ≡ y * 1 [ZMOD m] := hab.mul_left y
          _ = y := mul_one y
      exact (show _ % m = y % m from hback).trans (Int.emod_eq_of_lt hy0 hym)

/-- `1 + n + n²` is inverse to `1 - n` modulo `n³`. -/
theorem spread_unit (n : Int) : (1 + n + n * n) * (1 - n) ≡ 1 [ZMOD n * n * n] := by
  refine (Int.modEq_iff_dvd.mpr ⟨1, ?_⟩)
  ring

/-- The digits of a number in base `n`, the lowest first. -/
def digits (n x : Int) : Int × Int × Int := (x % n, x / n % n, x / (n * n) % n)

/-- The triples of digits in base `n`. -/
def Digits (n : Int) : Set (Int × Int × Int) :=
  {d | d.1 ∈ Set.Ico 0 n ∧ d.2.1 ∈ Set.Ico 0 n ∧ d.2.2 ∈ Set.Ico 0 n}

section Digits

variable {n : Int}

theorem digits_mem (hn : 0 < n) (x : Int) : digits n x ∈ Digits n :=
  have hd (y : Int) : y % n ∈ Set.Ico 0 n := ⟨Int.emod_nonneg y hn.ne', Int.emod_lt_of_pos y hn⟩
  ⟨hd _, hd _, hd _⟩

/-- The digits read back from the number they stand for. -/
theorem digits_eval (hn : 0 < n) {d : Int × Int × Int} (hd : d ∈ Digits n) :
    digits n (d.1 + n * (d.2.1 + n * d.2.2)) = d := by
  obtain ⟨d₁, d₂, d₃⟩ := d
  obtain ⟨⟨h₁, h₁'⟩, ⟨h₂, h₂'⟩, ⟨h₃, h₃'⟩⟩ := hd
  have hlow : (d₁ + n * (d₂ + n * d₃)) / n = d₂ + n * d₃ := by
    rw [Int.add_mul_ediv_left _ _ hn.ne', Int.ediv_eq_zero_of_lt h₁ h₁', zero_add]
  have hmid : (d₂ + n * d₃) / n = d₃ := by
    rw [Int.add_mul_ediv_left _ _ hn.ne', Int.ediv_eq_zero_of_lt h₂ h₂', zero_add]
  unfold digits
  dsimp only
  rw [← Int.ediv_ediv_of_nonneg hn.le, hlow, hmid, Int.add_mul_emod_self_left,
    Int.add_mul_emod_self_left, Int.emod_eq_of_lt h₁ h₁', Int.emod_eq_of_lt h₂ h₂',
    Int.emod_eq_of_lt h₃ h₃']

/-- A number below `n³` is the value of its digits. -/
theorem eval_digits (hn : 0 < n) {x : Int} (hx : x ∈ Set.Ico 0 (n * n * n)) :
    (digits n x).1 + n * ((digits n x).2.1 + n * (digits n x).2.2) = x := by
  have htop : x / n / n % n = x / n / n := by
    refine Int.emod_eq_of_lt (Int.ediv_nonneg (Int.ediv_nonneg hx.1 hn.le) hn.le) ?_
    exact Int.ediv_lt_of_lt_mul hn (Int.ediv_lt_of_lt_mul hn hx.2)
  unfold digits
  dsimp only
  rw [← Int.ediv_ediv_of_nonneg hn.le, htop, Int.emod_add_mul_ediv, Int.emod_add_mul_ediv]

/-- **Mixed radix**: the numbers below `n³` are the triples of digits. -/
theorem bijOn_digits (hn : 0 < n) :
    Set.BijOn (digits n) (Set.Ico 0 (n * n * n)) (Digits n) := by
  refine ⟨fun x _ => digits_mem hn x, fun x hx y hy hxy => ?_, fun d hd => ?_⟩
  · rw [← eval_digits hn hx, ← eval_digits hn hy, hxy]
  · refine ⟨d.1 + n * (d.2.1 + n * d.2.2), ⟨?_, ?_⟩, digits_eval hn hd⟩
    · obtain ⟨⟨h₁, -⟩, ⟨h₂, -⟩, ⟨h₃, -⟩⟩ := hd
      positivity
    · obtain ⟨⟨-, h₁⟩, ⟨-, h₂⟩, ⟨-, h₃⟩⟩ := hd
      have htop : n * (d.2.2 + 1) ≤ n * n := mul_le_mul_of_nonneg_left h₃ hn.le
      have hmid : n * (d.2.1 + n * d.2.2 + 1) ≤ n * (n * n) :=
        mul_le_mul_of_nonneg_left (by linarith) hn.le
      linarith

/-- The first `n` numbers spread along the diagonal. -/
theorem digits_diagonal (hn : 0 < n) {r : Int} (hr : r ∈ Set.Ico 0 n) :
    digits n (r * (1 + n + n * n) % (n * n * n)) = (r, r, r) := by
  have hd : (r, r, r) ∈ Digits n := ⟨hr, hr, hr⟩
  have hlt := (bijOn_digits hn).2.2 hd
  obtain ⟨x, hx, hxd⟩ := hlt
  have hval := eval_digits hn hx
  rw [hxd] at hval
  have hxr : r * (1 + n + n * n) = x := by linear_combination hval
  rw [hxr, Int.emod_eq_of_lt hx.1 hx.2, hxd]

end Digits

end CksLoadtest.Lib.Radix
