import Mathlib.Logic.Relation

/-! Transition systems: the states a step relation reaches from its initial
ones, and the induction that carries an invariant along every run. -/
namespace MegaNet.Transition

variable {σ : Type} {init : σ → Prop} {step : σ → σ → Prop}

/-- The states reached from an initial one by finitely many steps. -/
inductive Reachable (init : σ → Prop) (step : σ → σ → Prop) : σ → Prop where
  | start {s : σ} (begun : init s) : Reachable init step s
  | next {s s' : σ} (before : Reachable init step s) (taken : step s s') : Reachable init step s'

/-- What holds at the start and survives each step from a reachable state
holds in every reachable state. -/
theorem Reachable.invariant {motive : σ → Prop} (base : ∀ s, init s → motive s)
    (preserved : ∀ s s', Reachable init step s → motive s → step s s' → motive s')
    {s : σ} (reached : Reachable init step s) : motive s := by
  induction reached with
  | start begun => exact base _ begun
  | next before taken ih => exact preserved _ _ before ih taken

/-- A path of one part of a state, each of whose steps is one of the whole, goes
from reachable states to reachable ones. -/
theorem Reachable.along {τ : Type} {part : τ → τ → Prop} (whole : τ → σ) {x y : τ}
    (reached : Reachable init step (whole x)) (path : Relation.ReflTransGen part x y)
    (lift : ∀ x y, part x y → step (whole x) (whole y)) : Reachable init step (whole y) := by
  induction path with
  | refl => exact reached
  | tail _ taken ih => exact ih.next (lift _ _ taken)

end MegaNet.Transition
