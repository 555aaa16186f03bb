import Mathlib.Data.Nat.Basic

/-! A timer that tries again after every `period`, a bounded number of times,
and is looked at now and then: how long it can last before it gives up. -/
namespace MegaNet.RetryTimer

variable {period most gap elapsed : Nat}

/-- How often was tried, and how long ago the last time. -/
structure Timer where
  tries : Nat
  age : Nat

/-- A look at the timer, `gap` after the last: nothing is due, or it tries
again, or it has tried often enough. -/
def tick (period most gap : Nat) (t : Timer) : Option Timer :=
  if t.age + gap < period then some { t with age := t.age + gap }
  else if t.tries < most then some ⟨t.tries + 1, 0⟩
  else none

/-- Every try but the last took less than two periods. -/
structure Spent (period most : Nat) (t : Timer) (elapsed : Nat) : Prop where
  tried : 1 ≤ t.tries ∧ t.tries ≤ most
  young : t.age < period
  spent : elapsed + 2 * period ≤ 2 * period * t.tries + t.age

theorem spent_start (some_ : 0 < period) (once : 1 ≤ most) : Spent period most ⟨1, 0⟩ 0 :=
  ⟨⟨Nat.le_refl 1, once⟩, some_, by simp⟩

/-- Looked at once in a period at least, a timer that goes on has spent its
tries that way. -/
theorem Spent.tick {t t' : Timer} (spent : Spent period most t elapsed) (soon : gap ≤ period)
    (goes : tick period most gap t = some t') : Spent period most t' (elapsed + gap) := by
  obtain ⟨tried, young, sum⟩ := spent
  unfold RetryTimer.tick at goes
  split at goes
  · obtain rfl := Option.some.inj goes
    exact ⟨tried, ‹_›, by dsimp only; omega⟩
  split at goes
  · obtain rfl := Option.some.inj goes
    have more : 2 * period * (t.tries + 1) = 2 * period * t.tries + 2 * period := Nat.mul_succ ..
    exact ⟨⟨by dsimp only; omega, ‹_›⟩, by dsimp only; omega, by dsimp only; omega⟩
  · cases goes

/-- So it gives up within two periods for each try. -/
theorem Spent.bound {t : Timer} (spent : Spent period most t elapsed) : elapsed + period <
    2 * period * most := by
  obtain ⟨tried, young, sum⟩ := spent
  have most_ : 2 * period * t.tries ≤ 2 * period * most := Nat.mul_le_mul_left _ tried.2
  omega

/-! ## When it tries -/

variable {times : List Nat} {last now found : Nat}

/-- Tries, the latest first, each a period after the one before at least. -/
def Spaced (period : Nat) (times : List Nat) : Prop :=
  times.Pairwise fun later earlier => earlier + period ≤ later

theorem Spaced.cons (spaced : Spaced period (last :: times)) (due : last + period ≤ now) :
    Spaced period (now :: last :: times) := by
  refine List.Pairwise.cons (fun earlier member => ?_) spaced
  obtain rfl | before := List.mem_cons.mp member
  · exact due
  · have := List.rel_of_pairwise_cons spaced before
    omega

/-- Tries that are spaced and not too many, one more than the period was found
over at least. -/
structure Paced (period most : Nat) (times : List Nat) (found : Nat) : Prop where
  few : times.length ≤ most
  spaced : Spaced period times
  tried : found < times.length

theorem paced_start (once : 1 ≤ most) (now : Nat) : Paced period most [now] 0 :=
  ⟨once, List.pairwise_singleton _ _, Nat.zero_lt_one⟩

/-- A try, the period found over or not. -/
theorem Paced.tries {found' : Nat} (paced : Paced period most (last :: times) found)
    (due : last + period ≤ now)
    (more : (last :: times).length < most) (one : found' ≤ found + 1) :
    Paced period most (now :: last :: times) found' := by
  refine ⟨more, paced.spaced.cons due, ?_⟩
  have tried := paced.tried
  rw [List.length_cons]
  omega

/-- So before it gives up the period is found over fewer times than it tries. -/
theorem Paced.found_lt (paced : Paced period most times found) : found < most :=
  Nat.lt_of_lt_of_le paced.tried paced.few

end MegaNet.RetryTimer
