import Mathlib.Data.List.Basic
import Mathlib.Logic.Function.Basic

/-!
# A map filled by a loop

Every item of a list may write one key of a map, and a later write replaces an earlier one.
What the map has at a key is the last write there.
-/
namespace CksLoadtest.Lib

variable {α κ β : Type*} [DecidableEq κ]

/-- What one item does to the map. -/
def put (m : κ → Option β) : Option (κ × β) → κ → Option β
  | none => m
  | some (k, v) => Function.update m k (some v)

/-- What an item writes at a key. -/
def writesAt (write : α → Option (κ × β)) (k : κ) (x : α) : Option β :=
  (write x).bind fun w => if w.1 = k then some w.2 else none

/-- The last write at a key. -/
def lastWrite (write : α → Option (κ × β)) (k : κ) : List α → Option β
  | [] => none
  | x :: xs => (lastWrite write k xs).or (writesAt write k x)

variable {write : α → Option (κ × β)} {k : κ}

theorem writesAt_eq_some {x : α} {v : β} : writesAt write k x = some v ↔ write x = some (k, v) := by
  unfold writesAt
  cases write x with
  | none => simp
  | some w =>
    obtain ⟨k', v'⟩ := w
    simp

theorem put_apply (m : κ → Option β) (x : α) :
    put m (write x) k = (writesAt write k x).or (m k) := by
  unfold writesAt
  cases write x with
  | none => rfl
  | some w =>
    obtain ⟨k', v⟩ := w
    by_cases hk : k' = k
    · subst hk
      simp [put]
    · simp [put, hk, Function.update_of_ne (Ne.symm hk)]

theorem lastWrite_append (xs ys : List α) :
    lastWrite write k (xs ++ ys) = (lastWrite write k ys).or (lastWrite write k xs) := by
  induction xs with
  | nil => simp [lastWrite]
  | cons x xs ih => rw [List.cons_append, lastWrite, ih, lastWrite, Option.or_assoc]

theorem lastWrite_eq_none {xs : List α} :
    lastWrite write k xs = none ↔ ∀ x ∈ xs, writesAt write k x = none := by
  induction xs with
  | nil => simp [lastWrite]
  | cons x xs ih => simp [lastWrite, ih, and_comm]

/-- **The last write.** It is made by an item after which no item writes the key. -/
theorem lastWrite_eq_some {xs : List α} {v : β} :
    lastWrite write k xs = some v ↔ ∃ earlier x later, xs = earlier ++ x :: later ∧
      write x = some (k, v) ∧ ∀ y ∈ later, writesAt write k y = none := by
  constructor
  · intro h
    induction xs with
    | nil => simp [lastWrite] at h
    | cons x xs ih =>
      rw [lastWrite] at h
      cases hx : lastWrite write k xs with
      | none =>
        rw [hx, Option.none_or] at h
        exact ⟨[], x, xs, rfl, writesAt_eq_some.mp h, lastWrite_eq_none.mp hx⟩
      | some w =>
        rw [hx, Option.some_or, Option.some.injEq] at h
        obtain ⟨earlier, y, later, rfl, hy, hlater⟩ := ih (h ▸ hx)
        exact ⟨x :: earlier, y, later, rfl, hy, hlater⟩
  · rintro ⟨earlier, x, later, rfl, hx, hlater⟩
    rw [lastWrite_append, lastWrite, lastWrite_eq_none.mpr hlater, writesAt_eq_some.mpr hx]
    rfl

end CksLoadtest.Lib
