import Mathlib.Data.Int.CardIntervalMod

/-!
# Runs of consecutive integers

The integers from a base on, as a list, and how many of them a round robin gives to each
of `t` parties.
-/
namespace CksLoadtest.Lib

def consecutive (base : Int) (n : Nat) : List Int := (List.range n).map fun (k : Nat) => base + k

@[simp] theorem consecutive_zero (base : Int) : consecutive base 0 = [] := rfl

@[simp] theorem length_consecutive (base : Int) (n : Nat) : (consecutive base n).length = n := by
  rw [consecutive, List.length_map, List.length_range]

theorem mem_consecutive {base i : Int} {n : Nat} :
    i ∈ consecutive base n ↔ base ≤ i ∧ i < base + n := by
  rw [consecutive, List.mem_map]
  constructor
  · rintro ⟨k, hk, rfl⟩
    rw [List.mem_range] at hk
    omega
  · rintro ⟨hl, hu⟩
    refine ⟨(i - base).toNat, ?_, ?_⟩
    · rw [List.mem_range]
      omega
    · omega

theorem nodup_consecutive (base : Int) (n : Nat) : (consecutive base n).Nodup := by
  refine List.Nodup.map ?_ List.nodup_range
  intro j k hjk
  exact Int.ofNat.inj (Int.add_left_cancel hjk)

theorem consecutive_add (base : Int) (m n : Nat) :
    consecutive base (m + n) = consecutive base m ++ consecutive (base + m) n := by
  rw [consecutive, consecutive, consecutive, List.range_add, List.map_append, List.map_map]
  congr 1
  refine List.map_congr_left fun k _ => ?_
  show base + ((m + k : Nat) : Int) = base + m + k
  omega

/-- The offsets from the base with a given residue are one class modulo `t`. -/
theorem residue_iff (base : Int) {t w : Int} (ht : 0 < t) (hw : 0 ≤ w ∧ w < t) (k : Nat) :
    (base + k) % t = w ↔ k ≡ ((w - base) % t).toNat [MOD t.toNat] := by
  have hv : (((w - base) % t).toNat : Int) = (w - base) % t :=
    Int.toNat_of_nonneg (Int.emod_nonneg _ (by omega))
  have htn : (t.toNat : Int) = t := by omega
  rw [← Int.natCast_modEq_iff, hv, htn]
  constructor
  · intro h
    calc (k : Int) = base + k - base := by omega
      _ ≡ (base + k) % t - base [ZMOD t] := (Int.mod_modEq _ _).symm.sub_right base
      _ = w - base := by rw [h]
      _ ≡ (w - base) % t [ZMOD t] := (Int.mod_modEq _ _).symm
  · intro h
    calc (base + k) % t = (base + (w - base) % t) % t := h.add_left base
      _ = (base + (w - base)) % t := (Int.mod_modEq (w - base) t).add_left base
      _ = w % t := by rw [add_sub_cancel]
      _ = w := Int.emod_eq_of_lt hw.1 hw.2

/-- **Round robin**: of `n` consecutive integers every residue gets its share, rounded
down or up. -/
theorem countP_residue (base : Int) (n : Nat) {t w : Int} (ht : 0 < t) (hw : 0 ≤ w ∧ w < t) :
    ∃ d ≤ 1, (consecutive base n).countP (fun i => i % t = w) = n / t.toNat + d := by
  have hcount : (consecutive base n).countP (fun i => i % t = w) =
      n.count (· ≡ ((w - base) % t).toNat [MOD t.toNat]) := by
    rw [consecutive, List.countP_map, Nat.count]
    refine List.countP_congr fun k _ => ?_
    show decide ((base + k) % t = w) = true ↔ _
    rw [decide_eq_true_iff, decide_eq_true_iff]
    exact residue_iff base ht hw k
  rw [hcount, Nat.count_modEq_card n (by omega)]
  split
  · exact ⟨1, le_refl _, rfl⟩
  · exact ⟨0, Nat.zero_le _, rfl⟩

end CksLoadtest.Lib
