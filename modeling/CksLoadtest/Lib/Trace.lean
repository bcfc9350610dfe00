import CksLoadtest.Lib.Transition

/-!
# What a run shows

Every step of a run shows some entries; its trace is all of them in order. A relation between
a state and the trace so far that every step keeps holds at the end of every run. Properties of
a trace look at each entry and the entries before it.
-/
namespace CksLoadtest.Lib.Trace

open Transition

section Runs

variable {σ ε α : Type*} {f : σ → ε → Option σ} {shows : σ → ε → List α}

/-- What a run shows, up to the first event that is refused. -/
def trace (f : σ → ε → Option σ) (shows : σ → ε → List α) : σ → List ε → List α
  | _, [] => []
  | s, e :: es => shows s e ++ (f s e).elim [] fun s' => trace f shows s' es

/-- **Trace rule.** -/
theorem exec_trace {I : σ → List α → Prop}
    (hstep : ∀ s l e s', I s l → f s e = some s' → I s' (l ++ shows s e)) {es : List ε} {s t : σ}
    {l : List α} (h : I s l) (hr : System.exec f s es = some t) :
    I t (l ++ trace f shows s es) := by
  induction es generalizing s l with
  | nil =>
    obtain rfl := Option.some.inj hr
    rwa [trace, List.append_nil]
  | cons e es ih =>
    obtain ⟨s', hs, hr⟩ := Option.bind_eq_some_iff.mp hr
    rw [trace, hs, Option.elim_some, ← List.append_assoc]
    exact ih (hstep s l e s' h hs) hr

end Runs

section Entries

variable {α : Type*} {Q R : List α → α → Prop} {l : List α}

/-- Every entry has the property against the entries before it. -/
def Each (Q : List α → α → Prop) (l : List α) : Prop := ∀ pre x, pre ++ [x] <+: l → Q pre x

theorem Each.nil : Each Q [] := by
  intro pre x h
  exact absurd (List.prefix_nil.mp h)
    (List.append_ne_nil_of_right_ne_nil pre (List.cons_ne_nil x []))

theorem Each.concat {x : α} (h : Each Q l) (hx : Q l x) : Each Q (l ++ [x]) := by
  intro pre y hpre
  rcases List.prefix_concat_iff.mp hpre with heq | hpre
  · obtain ⟨rfl, hxy⟩ := List.append_inj' heq rfl
    obtain rfl := List.singleton_inj.mp hxy
    exact hx
  · exact h pre y hpre

end Entries

end CksLoadtest.Lib.Trace
