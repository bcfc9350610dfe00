import Mathlib.Algebra.GroupWithZero.Nat
import Mathlib.Data.Nat.Cast.Defs

/-!
# Numerals

A numeral of a field, and an index of a finite type, carry a bound with them. The bounds
are instances here, so that all modules that write a numeral name one proof.
-/
namespace CksLoadtest.Lib.Numerals

instance atLeastTwo_10 : Nat.AtLeastTwo 10 := ⟨by decide⟩

instance atLeastTwo_50 : Nat.AtLeastTwo 50 := ⟨by decide⟩

instance atLeastTwo_95 : Nat.AtLeastTwo 95 := ⟨by decide⟩

instance atLeastTwo_99 : Nat.AtLeastTwo 99 := ⟨by decide⟩

instance atLeastTwo_100 : Nat.AtLeastTwo 100 := ⟨by decide⟩

instance atLeastTwo_1000000000 : Nat.AtLeastTwo 1000000000 := ⟨by decide⟩

instance neZero_1 : NeZero (1 : Nat) := ⟨by decide⟩

instance neZero_256 : NeZero (256 : Nat) := ⟨by decide⟩

end CksLoadtest.Lib.Numerals
