import CksLoadtest.Wire.Encode

/-!
# Fields written one after the other

What a position of a buffer holds after a list of field writes: the octet of the last
field over it, or what was there before. Which positions the fields reach depends on
their offsets and lengths only, so a second list of the same shape leaves nothing of the
first, and fields that lie apart all read back.
-/
namespace CksLoadtest.Wire

open Lib.Buffer

/-- The offset and the length of a field. -/
def shape (f : Field) : Nat × Nat := (f.1, f.2.length)

def octetAt (f : Field) (i : Nat) : Option UInt8 := if f.1 ≤ i then f.2[i - f.1]? else none

/-- The octet of the last field over a position. -/
def octetsAt : List Field → Nat → Option UInt8
  | [], _ => none
  | f :: fs, i => (octetsAt fs i).or (octetAt f i)

/-- Two fields have no position in common. -/
def Apart (s t : Nat × Nat) : Prop := s.1 + s.2 ≤ t.1 ∨ t.1 + t.2 ≤ s.1

instance (s t : Nat × Nat) : Decidable (Apart s t) := inferInstanceAs (Decidable (_ ∨ _))

variable {buf : Bytes} {fs gs : List Field} {i n : Nat}

theorem writeFields_append (buf : Bytes) (fs gs : List Field) :
    writeFields buf (fs ++ gs) = writeFields (writeFields buf fs) gs := by
  induction fs generalizing buf with
  | nil => rfl
  | cons f fs ih => exact ih _

theorem FieldsFit.append (hf : FieldsFit n fs) (hg : FieldsFit n gs) : FieldsFit n (fs ++ gs) :=
  fun f h => (List.mem_append.mp h).elim (hf f) (hg f)

/-- **What a position holds.** -/
theorem getElem?_writeFields (h : FieldsFit buf.length fs) (i : Nat) :
    (writeFields buf fs)[i]? = (octetsAt fs i).or buf[i]? := by
  induction fs generalizing buf with
  | nil => rw [writeFields, octetsAt, Option.none_or]
  | cons f fs ih =>
    have hf := h f (List.mem_cons_self ..)
    have hrest : FieldsFit (overwrite buf f.1 f.2).length fs := by
      rw [length_overwrite hf]
      exact fun g hg => h g (List.mem_cons_of_mem f hg)
    rw [writeFields, ih hrest, getElem?_overwrite hf, octetsAt, octetAt, Option.or_assoc]

theorem fieldsAvoid_of_shape {ls : List (Nat × Nat)} {o : Nat} (hs : fs.map shape = ls)
    (h : ∀ s ∈ ls, Apart (o, n) s) : FieldsAvoid o n fs := by
  subst hs
  exact fun f hf => h (shape f) (List.mem_map_of_mem hf)

theorem isSome_octetAt (f : Field) (i : Nat) :
    (octetAt f i).isSome = (decide (f.1 ≤ i) && decide (i < f.1 + f.2.length)) := by
  unfold octetAt
  by_cases hi : f.1 ≤ i
  · rw [if_pos hi, decide_eq_true hi, Bool.true_and, Bool.eq_iff_iff, isSome_getElem?,
      decide_eq_true_iff]
    omega
  · rw [if_neg hi, decide_eq_false hi]
    rfl

/-- The positions that are written depend on the shape only. -/
theorem isSome_octetsAt_congr (h : fs.map shape = gs.map shape) (i : Nat) :
    (octetsAt fs i).isSome = (octetsAt gs i).isSome := by
  induction fs generalizing gs with
  | nil =>
    obtain rfl := List.map_eq_nil_iff.mp h.symm
    rfl
  | cons f fs ih =>
    cases gs with
    | nil => cases h
    | cons g gs =>
      rw [List.map_cons, List.map_cons, List.cons.injEq] at h
      obtain ⟨hoff, hlen⟩ := Prod.mk.inj h.1
      rw [octetsAt, octetsAt, Option.isSome_or, Option.isSome_or, ih h.2, isSome_octetAt,
        isSome_octetAt, hoff, hlen]

/-- A position that the later fields reach holds nothing of the earlier ones. -/
theorem octetsAt_or_of_isSome {x : Option UInt8} (h : x.isSome → (octetsAt gs i).isSome)
    (y : Option UInt8) : (octetsAt gs i).or (x.or y) = (octetsAt gs i).or y := by
  cases hg : octetsAt gs i with
  | some b => rfl
  | none =>
    cases x with
    | none => rfl
    | some a =>
      rw [hg] at h
      exact absurd (h rfl) Bool.false_ne_true

/-- **Fields that lie apart read back**, in whatever order they are written. -/
theorem slice_writeFields_of_mem (hfit : FieldsFit buf.length fs)
    (hp : (fs.map shape).Pairwise Apart) {f : Field} (hf : f ∈ fs) :
    slice (writeFields buf fs) f.1 f.2.length = f.2 := by
  obtain ⟨before, later, rfl⟩ := List.append_of_mem hf
  rw [List.map_append, List.pairwise_append, List.map_cons, List.pairwise_cons] at hp
  refine slice_writeFields_append (fun g hg => hfit g (List.mem_append_left _ hg))
    (fun g hg => hfit g (List.mem_append_right _ (List.mem_cons_of_mem _ hg))) (hfit f hf) ?_
  exact fun g hg => hp.2.1.1 (shape g) (List.mem_map_of_mem hg)

end CksLoadtest.Wire
