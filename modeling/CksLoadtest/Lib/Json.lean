import Mathlib.Algebra.Order.Floor.Ring

/-!
# JSON documents

Documents and the accessors a reader is written with: `none` is the exception an
accessor throws. Integers are kept apart from the other numbers, which live in `R`.
-/
namespace CksLoadtest.Lib

inductive Json (R : Type*) where
  | null
  | bool (b : Bool)
  | int (n : Int)
  | real (x : R)
  | str (s : String)
  | arr (xs : List (Json R))
  | obj (fields : List (String × Json R))

namespace Json

variable {R : Type*}

/-- The member of an object; a value of another kind has none. -/
def field? (key : String) : Json R → Option (Json R)
  | .obj fields => fields.lookup key
  | _ => none

def contains (j : Json R) (key : String) : Bool := (j.field? key).isSome

def isStr : Json R → Bool
  | .str _ => true
  | _ => false

/-- `get<std::string>()`. -/
def asStr? : Json R → Option String
  | .str s => some s
  | _ => none

/-- A member that is a string; `none` when it is absent or of another kind. -/
def strField? (j : Json R) (key : String) : Option String := (j.field? key).bind asStr?

/-- `value(key, default)`: only an object has members with defaults. -/
def value? {α : Type*} (get : Json R → Option α) (j : Json R) (key : String) (default : α) :
    Option α :=
  match j with
  | .obj fields =>
    match fields.lookup key with
    | some v => get v
    | none => some default
  | _ => none

def strOr? (j : Json R) (key default : String) : Option String := j.value? asStr? key default

/-- `get<bool>()`. -/
def asBool? : Json R → Option Bool
  | .bool b => some b
  | _ => none

/-- `get<double>()`. -/
def asReal? [Ring R] : Json R → Option R
  | .int n => some n
  | .real x => some x
  | _ => none

/-- A member that is an object; an empty one when it is absent or of another kind. -/
def objField (j : Json R) (key : String) : Json R :=
  match j.field? key with
  | some (.obj fields) => .obj fields
  | _ => .obj []

/-- A member that is an array; an empty one when it is absent or of another kind. -/
def arrField (j : Json R) (key : String) : List (Json R) :=
  match j.field? key with
  | some (.arr xs) => xs
  | _ => []

/-- `j[key] = v` on an object. -/
def set (j : Json R) (key : String) (v : Json R) : Json R :=
  match j with
  | .obj fields => .obj ((key, v) :: fields.filter fun f => f.1 ≠ key)
  | j => j

/-- What a range-based loop visits. -/
def elements : Json R → List (Json R)
  | .null => []
  | .arr xs => xs
  | .obj fields => fields.map Prod.snd
  | j => [j]

/-- The value is an object. -/
def IsObj (j : Json R) : Prop := ∃ fields, j = .obj fields

theorem value?_eq {j : Json R} (h : j.IsObj) {α : Type*} (get : Json R → Option α) (key : String)
    (default : α) :
    j.value? get key default =
      match j.field? key with
      | some v => get v
      | none => some default := by
  obtain ⟨fields, rfl⟩ := h
  rfl

theorem IsObj.set {j : Json R} (h : j.IsObj) (key : String) (v : Json R) : (j.set key v).IsObj := by
  obtain ⟨fields, rfl⟩ := h
  exact ⟨_, rfl⟩

theorem field?_set {j : Json R} (h : j.IsObj) (key : String) (v : Json R) :
    (j.set key v).field? key = some v := by
  obtain ⟨fields, rfl⟩ := h
  exact List.lookup_cons_self (α := String)

theorem lookup_filter_of_ne {fields : List (String × Json R)} {key k : String} (h : k ≠ key) :
    (fields.filter fun f => f.1 ≠ key).lookup k = fields.lookup k := by
  induction fields with
  | nil => rfl
  | cons f fields ih =>
    obtain ⟨name, value⟩ := f
    by_cases hf : name = key
    · have hk : (k == name) = false := by
        rw [hf]
        exact beq_false_of_ne h
      rw [List.filter_cons_of_neg (by simpa using hf), ih]
      simp only [List.lookup_cons, hk]
    · rw [List.filter_cons_of_pos (by simpa using hf)]
      simp only [List.lookup_cons]
      cases k == name with
      | true => rfl
      | false => exact ih

theorem field?_set_of_ne {j : Json R} {key k : String} (h : k ≠ key) (v : Json R) :
    (j.set key v).field? k = j.field? k := by
  cases j with
  | obj fields =>
    have hk : (k == key) = false := beq_false_of_ne h
    show List.lookup k ((key, v) :: _) = _
    simp only [List.lookup_cons, hk]
    exact lookup_filter_of_ne h
  | _ => rfl

section Numbers

variable [Ring R] [LinearOrder R] [FloorRing R]

/-- A double is truncated towards zero. -/
def truncate (x : R) : Int := if 0 ≤ x then ⌊x⌋ else ⌈x⌉

/-- `get<T>()` of an integer type, before it is narrowed. -/
def asInt? : Json R → Option Int
  | .int n => some n
  | .real x => some (truncate x)
  | .bool b => some (if b then 1 else 0)
  | _ => none

/-- `get<uint64_t>()`; a negative integer is converted, and a double that does not fit is
undefined in the source. -/
def asU64? : Json R → Option Nat
  | .int n => some (if 0 ≤ n then n else n + 2 ^ 64).toNat
  | .real x => some (truncate x).toNat
  | _ => none

end Numbers

end Json

end CksLoadtest.Lib
