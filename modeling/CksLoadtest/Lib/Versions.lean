import Mathlib.Data.Fintype.Basic
import Mathlib.Logic.Function.Basic

/-!
# Reading the parts of a value that is replaced as a whole

A value with parts `ι` is replaced as a whole now and then, which makes its next version.
A thread reads the parts one at a time. `torn` records that a replacement happened between
its first part and its last one; the parts are of one version iff it did not.
-/
namespace CksLoadtest.Lib

/-- The version each part was read at, for the parts already read. -/
structure Versions (ι : Type*) where
  read : ι → Option Nat := fun _ => none
  torn : Bool := false

namespace Versions

variable {ι : Type*}

/-- Some part is read, and some part is not. -/
def Between (p : Versions ι) : Prop :=
  (∃ i, (p.read i).isSome = true) ∧ ∃ i, (p.read i).isSome = false

instance [Fintype ι] (p : Versions ι) : Decidable p.Between := by
  unfold Between; infer_instance

/-- All parts are of one version. -/
def Whole (p : Versions ι) : Prop := ∃ m, ∀ i, p.read i = some m

/-- A part is read while `cur` is the version. -/
def take [DecidableEq ι] (p : Versions ι) (i : ι) (cur : Nat) : Versions ι :=
  { p with read := Function.update p.read i (some cur) }

/-- The value is replaced. -/
def replaced [Fintype ι] (p : Versions ι) : Versions ι :=
  { p with torn := p.torn || decide p.Between }

@[simp] theorem take_torn [DecidableEq ι] (p : Versions ι) (i : ι) (cur : Nat) :
    (p.take i cur).torn = p.torn := rfl

@[simp] theorem replaced_read [Fintype ι] (p : Versions ι) : p.replaced.read = p.read := rfl

theorem replaced_torn_of_not_between [Fintype ι] {p : Versions ι} (h : ¬ p.Between) :
    p.replaced.torn = p.torn := by
  simp [replaced, h]

/-- What holds of a thread's parts while `cur` is the version. -/
structure Inv (cur : Nat) (p : Versions ι) : Prop where
  le : ∀ i m, p.read i = some m → m ≤ cur
  /-- A thread that is not torn has read one version, and it is still the version while a
  part is missing. -/
  whole : p.torn = false → ∀ i m, p.read i = some m →
    (∀ j k, p.read j = some k → k = m) ∧ (∀ j, p.read j = none → m = cur)
  /-- A torn thread has read two versions, or an old one with a part missing. -/
  torn : p.torn = true → ∃ i m, p.read i = some m ∧
    ((∃ j k, p.read j = some k ∧ k ≠ m) ∨ ∃ j, p.read j = none ∧ m < cur)

theorem Inv.empty (cur : Nat) : Inv cur ({} : Versions ι) where
  le _ _ h := nomatch h
  whole _ _ _ h := nomatch h
  torn h := nomatch h

theorem Inv.take [DecidableEq ι] {cur : Nat} {p : Versions ι} (h : Inv cur p) {i : ι}
    (hi : p.read i = none) : Inv cur (p.take i cur) := by
  have hread : ∀ j, (p.take i cur).read j = if j = i then some cur else p.read j :=
    fun j => Function.update_apply ..
  refine ⟨fun j m hj => ?_, fun ht j m hj => ?_, fun ht => ?_⟩
  · rw [hread] at hj
    split at hj
    · exact (Option.some.inj hj).ge
    · exact h.le j m hj
  · -- with part `i` missing, every part read so far is of the current version
    have hcur : ∀ k n, (p.take i cur).read k = some n → n = cur := by
      intro k n hk
      rw [hread] at hk
      split at hk
      · exact (Option.some.inj hk).symm
      · exact (h.whole ht k n hk).2 i hi
    exact ⟨fun k n hk => (hcur k n hk).trans (hcur j m hj).symm, fun _ _ => hcur j m hj⟩
  · obtain ⟨j, m, hj, hrest⟩ := h.torn ht
    have hji : j ≠ i := by rintro rfl; simp [hi] at hj
    refine ⟨j, m, by rw [hread, if_neg hji, hj], .inl ?_⟩
    rcases hrest with ⟨k, n, hk, hne⟩ | ⟨_, _, hlt⟩
    · have hki : k ≠ i := by rintro rfl; simp [hi] at hk
      exact ⟨k, n, by rw [hread, if_neg hki, hk], hne⟩
    · exact ⟨i, cur, by rw [hread, if_pos rfl], hlt.ne'⟩

theorem Inv.replaced [Fintype ι] {cur : Nat} {p : Versions ι} (h : Inv cur p) :
    Inv (cur + 1) p.replaced := by
  refine ⟨fun i m hi => (h.le i m hi).trans cur.le_succ, fun ht i m hi => ?_, fun ht => ?_⟩
  · obtain ⟨ht, hb⟩ := Bool.or_eq_false_iff.mp ht
    refine ⟨(h.whole ht i m hi).1, fun j hj => ?_⟩
    have hb : p.Between := ⟨⟨i, Option.isSome_iff_exists.mpr ⟨m, hi⟩⟩, j, by simp_all⟩
    simp_all
  · cases htorn : p.torn with
    | true =>
      obtain ⟨i, m, hi, hrest⟩ := h.torn htorn
      exact ⟨i, m, hi, hrest.imp_right fun ⟨j, hj, hlt⟩ => ⟨j, hj, hlt.trans cur.lt_succ_self⟩⟩
    | false =>
      have hb : p.Between := by simpa [Versions.replaced, htorn] using ht
      obtain ⟨⟨i, hi⟩, j, hj⟩ := hb
      obtain ⟨m, hi⟩ := Option.isSome_iff_exists.mp hi
      exact ⟨i, m, hi, .inr ⟨j, by simpa using hj, Nat.lt_succ_of_le (h.le i m hi)⟩⟩

/-- **Torn reads.** Once every part is read, the parts are of one version exactly if the
value was not replaced between the first of them and the last. -/
theorem Inv.whole_iff [Nonempty ι] {cur : Nat} {p : Versions ι} (h : Inv cur p)
    (hall : ∀ i, (p.read i).isSome = true) : p.Whole ↔ p.torn = false := by
  constructor
  · rintro ⟨m, hm⟩
    by_contra ht
    obtain ⟨i, k, hi, hrest⟩ := h.torn (by simpa using ht)
    rcases hrest with ⟨j, n, hj, hne⟩ | ⟨j, hj, -⟩
    · rw [hm] at hi hj
      exact hne ((Option.some.inj hj).symm.trans (Option.some.inj hi))
    · simp [hm] at hj
  · intro ht
    obtain ⟨i⟩ := ‹Nonempty ι›
    obtain ⟨m, hi⟩ := Option.isSome_iff_exists.mp (hall i)
    refine ⟨m, fun j => ?_⟩
    obtain ⟨k, hj⟩ := Option.isSome_iff_exists.mp (hall j)
    rw [hj, (h.whole ht i m hi).1 j k hj]

end Versions

end CksLoadtest.Lib
