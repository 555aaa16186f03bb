import Mathlib.Data.Nat.Basic

/-! Time in periods of varying length, one after another: where each begins, and
in which of them a moment lies. -/
namespace MegaNet.Periods

variable {f g : Nat → Nat} {k k' r r' n m : Nat}

/-- Where period `k` begins. -/
def start (f : Nat → Nat) : Nat → Nat
  | 0 => 0
  | k + 1 => start f k + f k

/-- Moment `n` is `r` into period `k`. -/
structure At (f : Nat → Nat) (n k r : Nat) : Prop where
  sum : start f k + r = n
  within : r < f k

theorem start_mono (le : k ≤ k') : start f k ≤ start f k' := by
  induction le with
  | refl => exact Nat.le_refl _
  | step _ ih => exact Nat.le_trans ih (Nat.le_add_right _ _)

/-- A moment is in one period only, at one place. -/
theorem At.unique (here : At f n k r) (there : At f n k' r') : k = k' ∧ r = r' := by
  obtain ⟨sum, within⟩ := here
  obtain ⟨sum', within'⟩ := there
  obtain before | same | later := Nat.lt_trichotomy k k'
  · have ends : start f k + f k ≤ start f k' := start_mono before
    omega
  · subst same
    exact ⟨rfl, by omega⟩
  · have ends : start f k' + f k' ≤ start f k := start_mono later
    omega

/-- A moment in a period before period `most` is before that. -/
theorem At.before (here : At f n k r) {most : Nat} (lt : k < most) : n < start f most := by
  obtain ⟨sum, within⟩ := here
  have ends : start f k + f k ≤ start f most := start_mono lt
  omega

end MegaNet.Periods
