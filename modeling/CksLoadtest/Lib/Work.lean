import CksLoadtest.Lib.Transition

/-!
# Bounded work

Some events of a run are work. When every one of them takes something off what is left, and other
events add no more to it than they are granted, a run holds no more work than was left at its
beginning and was granted in it.
-/
namespace CksLoadtest.Lib.Work

open Transition

variable {σ ε : Type*} {f : σ → ε → Option σ} {left : σ → Nat} {work : ε → Bool}
  {granted : σ → ε → Nat}

/-- What the events of a run are granted together, up to the first that is refused. -/
def allowance (f : σ → ε → Option σ) (granted : σ → ε → Nat) : σ → List ε → Nat
  | _, [] => 0
  | s, e :: es => granted s e + (f s e).elim 0 fun s' => allowance f granted s' es

/-- **Work rule.** -/
theorem exec_work {I : σ → Prop} (hI : ∀ s e s', I s → f s e = some s' → I s')
    (hstep : ∀ s e s', I s → f s e = some s' →
      (if work e then 1 else 0) + left s' ≤ left s + granted s e)
    {es : List ε} {s t : σ} (h : I s) (hr : System.exec f s es = some t) :
    es.countP work + left t ≤ left s + allowance f granted s es := by
  induction es generalizing s with
  | nil =>
    obtain rfl := Option.some.inj hr
    rw [List.countP_nil, allowance]
    omega
  | cons e es ih =>
    obtain ⟨s', hs, hr⟩ := Option.bind_eq_some_iff.mp hr
    have hrest := ih (hI s e s' h hs) hr
    have hfirst := hstep s e s' h hs
    rw [allowance, hs, Option.elim_some, List.countP_cons]
    omega

theorem allowance_none (f : σ → ε → Option σ) (s : σ) (es : List ε) :
    allowance f (fun _ _ => 0) s es = 0 := by
  induction es generalizing s with
  | nil => rfl
  | cons e es ih =>
    rw [allowance, Nat.zero_add]
    cases f s e with
    | none => rfl
    | some s' => exact ih s'

end CksLoadtest.Lib.Work
