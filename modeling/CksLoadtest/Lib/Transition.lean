import Mathlib.Logic.Function.Basic

/-!
# Event-driven transition systems

A system is a set of initial states and a step relation labelled with events. A
*guarded* run only takes steps whose pre-state and event satisfy a given condition;
the unguarded runs are the case of the trivial condition. A system given by a
partial step function can be executed.
-/
namespace CksLoadtest.Lib.Transition

universe u v

structure System (σ : Type u) (ε : Type v) where
  init : σ → Prop
  step : σ → ε → σ → Prop

namespace System

variable {σ : Type u} {ε : Type v} (M : System σ ε)

/-- States reachable by runs all of whose steps meet the condition `G`. -/
inductive GReach (G : σ → ε → Prop) : σ → Prop
  | init {s : σ} : M.init s → GReach G s
  | step {s s' : σ} {e : ε} : GReach G s → G s e → M.step s e s' → GReach G s'

/-- Reachability without a condition on the steps. -/
def Reach (s : σ) : Prop := M.GReach (fun _ _ => True) s

/-- A finite path of guarded steps between two states. -/
inductive GPath (G : σ → ε → Prop) : σ → σ → Prop
  | refl (s : σ) : GPath G s s
  | step {s t u : σ} {e : ε} : G s e → M.step s e t → GPath G t u → GPath G s u

variable {M}

theorem GPath.single {G : σ → ε → Prop} {s t : σ} {e : ε} (hg : G s e) (h : M.step s e t) :
    M.GPath G s t :=
  .step hg h (.refl t)

theorem GPath.trans {G : σ → ε → Prop} {s t u : σ} (h : M.GPath G s t) (k : M.GPath G t u) :
    M.GPath G s u := by
  induction h with
  | refl => exact k
  | step hg hs _ ih => exact .step hg hs (ih k)

theorem GReach.path {G : σ → ε → Prop} {s t : σ} (h : M.GReach G s) (p : M.GPath G s t) :
    M.GReach G t := by
  induction p with
  | refl => exact h
  | step hg hs _ ih => exact ih (.step h hg hs)

theorem GReach.mono {G H : σ → ε → Prop} (hGH : ∀ s e, G s e → H s e) {s : σ}
    (h : M.GReach G s) : M.GReach H s := by
  induction h with
  | init h0 => exact .init h0
  | step _ hg hs ih => exact .step ih (hGH _ _ hg) hs

theorem GReach.reach {G : σ → ε → Prop} {s : σ} (h : M.GReach G s) : M.Reach s :=
  h.mono fun _ _ _ => trivial

theorem Reach.init {s : σ} (h : M.init s) : M.Reach s := GReach.init h

theorem Reach.step {s s' : σ} {e : ε} (h : M.Reach s) (hs : M.step s e s') : M.Reach s' :=
  GReach.step h trivial hs

/-- **Invariant rule.** What holds initially and is kept by every step that
meets the condition holds in every state such runs reach. -/
theorem GReach.inv {G : σ → ε → Prop} {I : σ → Prop} (h0 : ∀ s, M.init s → I s)
    (hstep : ∀ s e s', M.GReach G s → I s → G s e → M.step s e s' → I s') {s : σ}
    (h : M.GReach G s) : I s := by
  induction h with
  | init hi => exact h0 _ hi
  | step hr hg hs ih => exact hstep _ _ _ hr ih hg hs

/-- The invariant rule for unconditional runs. -/
theorem Reach.inv {I : σ → Prop} (h0 : ∀ s, M.init s → I s)
    (hstep : ∀ s e s', M.Reach s → I s → M.step s e s' → I s') {s : σ} (h : M.Reach s) : I s :=
  GReach.inv (G := fun _ _ => True) h0 (fun s e s' hr hi _ hs => hstep s e s' hr hi hs) h

section Simulation

variable {τ : Type*} {μ : Type*} (A : System τ μ)

/-- **Simulation of a component.** `view` shows the component's abstract state,
`none` before the component exists. When every guarded concrete step either
creates the component in an abstract initial state or is matched by a guarded
abstract path, the views along guarded concrete runs are reachable by guarded
abstract runs, so abstract invariants hold of them. -/
theorem GReach.simulate {G : σ → ε → Prop} {H : τ → μ → Prop} (view : σ → Option τ)
    (h0 : ∀ s v, M.init s → view s = some v → A.init v)
    (hsim : ∀ s e s' v', M.GReach G s → G s e → M.step s e s' → view s' = some v' →
      (view s = none ∧ A.init v') ∨ ∃ v, view s = some v ∧ A.GPath H v v')
    {s : σ} (h : M.GReach G s) : ∀ v, view s = some v → A.GReach H v := by
  induction h with
  | init hi => exact fun v hv => .init (h0 _ v hi hv)
  | step hr hg hs ih =>
    intro v' hv'
    rcases hsim _ _ _ v' hr hg hs hv' with ⟨_, hi⟩ | ⟨v, hv, hp⟩
    · exact .init hi
    · exact (ih v hv).path hp

end Simulation

section Execution

/-- The system of a partial step function. -/
def ofPartial (init : σ → Prop) (f : σ → ε → Option σ) : System σ ε where
  init := init
  step s e s' := f s e = some s'

/-- Execute a list of events, stopping with `none` at the first refused one. -/
def exec (f : σ → ε → Option σ) : σ → List ε → Option σ
  | s, [] => some s
  | s, e :: es => (f s e).bind fun s' => exec f s' es

variable {init : σ → Prop} {f : σ → ε → Option σ}

/-- **Unwinding.** Two step functions that take states which look alike to states which look
alike, do so along every list of events. -/
theorem exec_unwind {τ : Type*} {f g : σ → ε → Option σ} (look : σ → τ)
    (h : ∀ s t e, look s = look t → (f s e).map look = (g t e).map look) (es : List ε) {s t : σ}
    (hst : look s = look t) : (exec f s es).map look = (exec g t es).map look := by
  induction es generalizing s t with
  | nil => exact congrArg some hst
  | cons e es ih =>
    have hstep := h s t e hst
    simp only [exec]
    cases hf : f s e with
    | none => cases hg : g t e <;> simp_all
    | some s' =>
      cases hg : g t e with
      | none => simp_all
      | some t' =>
        rw [hf, hg] at hstep
        exact ih (Option.some.inj hstep)

/-- Refuse the steps that do not pass a check. -/
def checked (g : σ → ε → Bool) (f : σ → ε → Option σ) (s : σ) (e : ε) : Option σ :=
  if g s e then f s e else none

/-- A checked execution is a guarded path. -/
theorem GPath.exec {G : σ → ε → Prop} {g : σ → ε → Bool} (hg : ∀ s e, g s e = true → G s e)
    {s t : σ} {es : List ε} (hr : exec (checked g f) s es = some t) :
    (ofPartial init f).GPath G s t := by
  induction es generalizing s with
  | nil =>
    obtain rfl := Option.some.inj hr
    exact .refl s
  | cons e es ih =>
    obtain ⟨s', hs, hr⟩ := Option.bind_eq_some_iff.mp hr
    obtain ⟨hc, hs⟩ := Option.ite_none_right_eq_some.mp hs
    exact .step (hg s e hc) hs (ih hr)

/-- A checked execution from a reachable state ends in a state that guarded runs
reach. -/
theorem GReach.exec {G : σ → ε → Prop} {g : σ → ε → Bool} (hg : ∀ s e, g s e = true → G s e)
    {s t : σ} {es : List ε} (h : (ofPartial init f).GReach G s)
    (hr : exec (checked g f) s es = some t) : (ofPartial init f).GReach G t :=
  h.path (.exec hg hr)

/-- An execution from a reachable state ends in a reachable state. -/
theorem Reach.exec {s t : σ} {es : List ε} (h : (ofPartial init f).Reach s)
    (hr : exec f s es = some t) : (ofPartial init f).Reach t :=
  GReach.exec (g := fun _ _ => true) (fun _ _ _ => trivial) h
    (by rwa [show checked (fun _ _ => true) f = f from rfl])

end Execution

end System

end CksLoadtest.Lib.Transition
