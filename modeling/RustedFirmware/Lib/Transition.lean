import Mathlib.Logic.Relation

set_option autoImplicit false

/-! Labelled transition systems and their reachable states.

    A component is given by a step relation `step s a s'` over states `σ` and labels `α` (the
    call, the core and the arguments of one atomic step). A state is reachable from `s₀` when
    some finite run of steps leads to it; a property of all reachable states is proved by the
    invariant rule: it holds of `s₀` and every step keeps it. -/

namespace Transition

variable {σ α : Type}

/-- One step with some label. -/
def Step (step : σ → α → σ → Prop) (s s' : σ) : Prop := ∃ a, step s a s'

/-- `s` is reachable from `s₀` in zero or more steps. -/
def Reachable (step : σ → α → σ → Prop) (s₀ s : σ) : Prop :=
  Relation.ReflTransGen (Step step) s₀ s

namespace Reachable

variable {step : σ → α → σ → Prop}

theorem refl (s : σ) : Reachable step s s := Relation.ReflTransGen.refl

theorem tail {s₀ s s' : σ} {a : α} (h : Reachable step s₀ s) (h' : step s a s') :
    Reachable step s₀ s' :=
  Relation.ReflTransGen.tail h ⟨a, h'⟩

theorem head {s₀ s s' : σ} {a : α} (h : step s₀ a s) (h' : Reachable step s s') :
    Reachable step s₀ s' :=
  Relation.ReflTransGen.head ⟨a, h⟩ h'

/-- The invariant rule: a property that holds initially and that every step keeps holds of
    every reachable state. -/
theorem invariant {I : σ → Prop} {s₀ s : σ} (h : Reachable step s₀ s) (h₀ : I s₀)
    (hstep : ∀ s a s', I s → step s a s' → I s') : I s := by
  induction h with
  | refl => exact h₀
  | tail _ hst ih =>
    obtain ⟨a, ha⟩ := hst
    exact hstep _ a _ ih ha

end Reachable

end Transition
