import CksLoadtest.Lib.Buffer

/-!
# Checked reads

Reads and subtractions as code without bounds checks makes them: what would be undefined
or wrong is a fault here. A part of a buffer that is handed on is a view, and a read
through it has to stay inside the view.
-/
namespace CksLoadtest.Lib

open Buffer

inductive Fault where
  /-- A read outside a buffer, or outside a view. -/
  | outside
  /-- A `size_t` difference below zero. -/
  | underflow
  /-- More octets than a local buffer holds. -/
  | tooLong
  /-- An `int64_t` difference that does not fit. -/
  | overflow
  deriving DecidableEq, Repr

abbrev Checked (α : Type*) := Except Fault α

universe u

namespace Checked

@[simp] theorem ok_bind {α β : Type u} (a : α) (f : α → Checked β) :
    ((Except.ok a : Checked α) >>= f) = f a := rfl

@[simp] theorem bind_ok {α β : Type*} (a : α) (f : α → Checked β) :
    Except.bind (.ok a) f = f a := rfl

/-- Read `n` octets from an offset on. -/
def octets (data : Bytes) (off n : Nat) : Checked Bytes :=
  if off + n ≤ data.length then .ok (slice data off n) else .error .outside

def octet (data : Bytes) (i : Nat) : Checked UInt8 :=
  match data[i]? with
  | some b => .ok b
  | none => .error .outside

/-- `a - b` on `size_t`. -/
def subSize (a b : Nat) : Checked Nat := if b ≤ a then .ok (a - b) else .error .underflow

/-- `a - b` on `int64_t`. -/
def subInt64 (a b : Int) : Checked Int :=
  if -2 ^ 63 ≤ a - b ∧ a - b < 2 ^ 63 then .ok (a - b) else .error .overflow

theorem octets_ok {data : Bytes} {off n : Nat} (h : off + n ≤ data.length) :
    octets data off n = .ok (slice data off n) := if_pos h

theorem octet_ok {data : Bytes} {i : Nat} {b : UInt8} (h : data[i]? = some b) :
    octet data i = .ok b := by
  unfold octet
  rw [h]

theorem subSize_ok {a b : Nat} (h : b ≤ a) : subSize a b = .ok (a - b) := if_pos h

theorem subInt64_ok {a b : Int} (ha : 0 ≤ a) (ha' : a < 2 ^ 63) (hb : 0 ≤ b) (hb' : b < 2 ^ 63) :
    subInt64 a b = .ok (a - b) := if_pos (by omega)

end Checked

/-- A pointer into a buffer, and a length. -/
structure View where
  off : Nat
  len : Nat
  deriving DecidableEq, Repr

namespace View

variable (data : Bytes) (m : View)

/-- The buffer as a whole. -/
def whole : View := ⟨0, data.length⟩

def Inside : Prop := m.off + m.len ≤ data.length

/-- What a view shows. -/
def bytes : Bytes := slice data m.off m.len

/-- Read through a view. -/
def octets (i n : Nat) : Checked Bytes :=
  if i + n ≤ m.len then Checked.octets data (m.off + i) n else .error .outside

def octet (i : Nat) : Checked UInt8 :=
  if i < m.len then Checked.octet data (m.off + i) else .error .outside

theorem whole_inside : (whole data).Inside data := Nat.le_of_eq (Nat.zero_add _)

@[simp] theorem bytes_whole : (whole data).bytes data = data := by
  unfold bytes whole slice
  exact List.take_length ..

variable {data m}

theorem length_bytes (h : m.Inside data) : (m.bytes data).length = m.len := by
  unfold Inside at h
  unfold bytes slice
  rw [List.length_take, List.length_drop]
  omega

theorem getElem?_bytes {i : Nat} (hi : i < m.len) : (m.bytes data)[i]? = data[m.off + i]? := by
  unfold bytes slice
  rw [List.getElem?_take_of_lt hi, List.getElem?_drop]

theorem octets_ok (h : m.Inside data) {i n : Nat} (hi : i + n ≤ m.len) :
    m.octets data i n = .ok (slice (m.bytes data) i n) := by
  unfold Inside at h
  unfold octets
  rw [if_pos hi, Checked.octets_ok (by omega)]
  unfold bytes slice
  rw [List.drop_take, List.drop_drop, List.take_take, Nat.min_eq_left (by omega)]

theorem octet_ok (h : m.Inside data) {i : Nat} (hi : i < m.len) :
    ∃ b, (m.bytes data)[i]? = some b ∧ m.octet data i = .ok b := by
  unfold Inside at h
  have hin : m.off + i < data.length := by omega
  refine ⟨data[m.off + i], ?_, ?_⟩
  · rw [getElem?_bytes hi, List.getElem?_eq_getElem hin]
  · unfold octet
    rw [if_pos hi, Checked.octet_ok (List.getElem?_eq_getElem hin)]

end View

end CksLoadtest.Lib
