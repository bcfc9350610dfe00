import Mathlib.Algebra.Group.Int.Defs
import Mathlib.Algebra.Group.Nat.Defs
import Mathlib.Data.List.Basic

/-!
# Fixed byte buffers

A buffer is a list of octets that is only ever overwritten in place: `overwrite`
is a `memcpy` into it and `slice` reads a field back. The laws below are what
layout arguments need: a field reads back as written, and a write leaves every
disjoint field alone.
-/
namespace CksLoadtest.Lib.Buffer

abbrev Bytes := List UInt8

/-- `memcpy(buf + off, bs, bs.length)`. -/
def overwrite (buf : Bytes) (off : Nat) (bs : Bytes) : Bytes :=
  buf.take off ++ bs ++ buf.drop (off + bs.length)

def slice (buf : Bytes) (off n : Nat) : Bytes := (buf.drop off).take n

/-- The low `w` octets of `v`, least significant first. -/
def leBytes (w : Nat) (v : Nat) : Bytes :=
  match w with
  | 0 => []
  | w + 1 => UInt8.ofNat v :: leBytes w (v / 256)

/-- The number a little-endian field holds. -/
def leNat : Bytes → Nat
  | [] => 0
  | b :: bs => b.toNat + 256 * leNat bs

@[simp] theorem length_leBytes (w v : Nat) : (leBytes w v).length = w := by
  induction w generalizing v with
  | zero => rfl
  | succ w ih => simp [leBytes, ih]

theorem leNat_leBytes (w v : Nat) : leNat (leBytes w v) = v % 256 ^ w := by
  induction w generalizing v with
  | zero => simp [leBytes, leNat, Nat.mod_one]
  | succ w ih =>
    rw [leBytes, leNat, ih, Nat.pow_succ', Nat.mod_mul]
    simp

theorem leNat_lt (bs : Bytes) : leNat bs < 256 ^ bs.length := by
  induction bs with
  | nil => simp [leNat]
  | cons b bs ih =>
    have hb := b.toNat_lt
    rw [leNat, List.length_cons, Nat.pow_succ]
    omega

theorem leBytes_leNat (bs : Bytes) : leBytes bs.length (leNat bs) = bs := by
  induction bs with
  | nil => rfl
  | cons b bs ih =>
    have hdiv : (b.toNat + 256 * leNat bs) / 256 = leNat bs := by
      have := b.toNat_lt
      omega
    rw [List.length_cons, leNat, leBytes, hdiv, ih, UInt8.ofNat_add, UInt8.ofNat_mul]
    simp

@[simp] theorem length_overwrite {buf : Bytes} {off : Nat} {bs : Bytes}
    (h : off + bs.length ≤ buf.length) : (overwrite buf off bs).length = buf.length := by
  simp only [overwrite, List.length_append, List.length_take, List.length_drop]
  omega

/-- A field reads back exactly what was last written to it. -/
theorem slice_overwrite_same {buf : Bytes} {off : Nat} {bs : Bytes} (h : off ≤ buf.length) :
    slice (overwrite buf off bs) off bs.length = bs := by
  have hl : (buf.take off).length = off := by rw [List.length_take]; omega
  rw [slice, overwrite, List.append_assoc, List.drop_left' hl, List.take_left' rfl]

theorem slice_overwrite_of_le {buf : Bytes} {off o n : Nat} {bs : Bytes} (h : off ≤ buf.length)
    (hd : o + n ≤ off) : slice (overwrite buf off bs) o n = slice buf o n := by
  have hl : (buf.take off).length = off := by rw [List.length_take]; omega
  rw [slice, overwrite, List.append_assoc, List.drop_append_of_le_length (by omega),
    List.take_append_of_le_length (by rw [List.length_drop]; omega), List.drop_take,
    List.take_take, Nat.min_eq_left (by omega), slice]

theorem slice_overwrite_of_ge {buf : Bytes} {off o n : Nat} {bs : Bytes} (h : off ≤ buf.length)
    (hd : off + bs.length ≤ o) : slice (overwrite buf off bs) o n = slice buf o n := by
  have hl : (buf.take off ++ bs).length = off + bs.length := by
    rw [List.length_append, List.length_take]; omega
  obtain ⟨k, rfl⟩ := Nat.exists_eq_add_of_le hd
  rw [slice, overwrite, ← hl, List.drop_length_add_append, List.drop_drop, hl, slice]

/-- A write leaves every disjoint field alone. -/
theorem slice_overwrite_disjoint {buf : Bytes} {off o n : Nat} {bs : Bytes}
    (h : off ≤ buf.length) (hd : o + n ≤ off ∨ off + bs.length ≤ o) :
    slice (overwrite buf off bs) o n = slice buf o n :=
  hd.elim (slice_overwrite_of_le h) (slice_overwrite_of_ge h)

theorem take_overwrite {buf : Bytes} {off n : Nat} {bs : Bytes} (h : off ≤ buf.length)
    (hn : n ≤ off) : (overwrite buf off bs).take n = buf.take n := by
  have hs : slice (overwrite buf off bs) 0 n = slice buf 0 n := slice_overwrite_of_le h (by omega)
  simpa [slice] using hs

theorem slice_take {buf : Bytes} {m o n : Nat} (h : o + n ≤ m) :
    slice (buf.take m) o n = slice buf o n := by
  unfold slice
  rw [List.drop_take, List.take_take, Nat.min_eq_left (by omega)]

/-- A write that lies in the first `n` octets commutes with cutting there. -/
theorem take_overwrite_of_le {buf : Bytes} {off n : Nat} {bs : Bytes} (h : off + bs.length ≤ n)
    (hn : n ≤ buf.length) : (overwrite buf off bs).take n = overwrite (buf.take n) off bs := by
  have hl : (buf.take off ++ bs).length = off + bs.length := by
    rw [List.length_append, List.length_take]; omega
  unfold overwrite
  rw [List.take_append, List.take_of_length_le (by omega), hl, List.take_take,
    Nat.min_eq_left (by omega), List.drop_take]

/-- What a position holds after a write. -/
theorem getElem?_overwrite {buf : Bytes} {off : Nat} {bs : Bytes}
    (h : off + bs.length ≤ buf.length) (i : Nat) :
    (overwrite buf off bs)[i]? = (if off ≤ i then bs[i - off]? else none).or buf[i]? := by
  have hl : (buf.take off).length = off := by rw [List.length_take]; omega
  unfold overwrite
  rw [List.append_assoc]
  split
  · rename_i hi
    rw [List.getElem?_append_right (by omega), hl]
    by_cases hin : i - off < bs.length
    · rw [List.getElem?_append_left hin, List.getElem?_eq_getElem hin, Option.some_or]
    · have hnone : bs[i - off]? = none := List.getElem?_eq_none (by omega)
      rw [List.getElem?_append_right (by omega), List.getElem?_drop, hnone,
        Option.none_or]
      congr 1
      omega
  · rw [List.getElem?_append_left (by omega), List.getElem?_take_of_lt (by omega), Option.none_or]

theorem slice_congr {a b : Bytes} {o n : Nat}
    (h : ∀ i, o ≤ i → i < o + n → a[i]? = b[i]?) : slice a o n = slice b o n := by
  apply List.ext_getElem?
  intro i
  unfold slice
  rw [List.getElem?_take, List.getElem?_take, List.getElem?_drop, List.getElem?_drop]
  split
  · exact h _ (Nat.le_add_right ..) (by omega)
  · rfl

end CksLoadtest.Lib.Buffer
