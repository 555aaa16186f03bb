import Mathlib.Tactic.Common

/-! Loops without a bound, as what one turn does: the run of a loop that is left,
the variant that makes it end, and the same loop with a number of turns to go. -/
namespace MegaNet.WhileLoop

variable {α β : Type}

/-- What a turn of a loop comes to: another, or leaving it. -/
inductive Turn (α β : Type) where
  | next (a : α)
  | done (b : β)

/-- The turn, and then whatever makes up the rest. -/
def Turn.then_ (rest : α → β) : Turn α β → β
  | .next a => rest a
  | .done b => b

/-- The loop with so many turns to go: nothing where they run out. -/
def loop (turn : α → Turn α β) : Nat → α → Option β
  | 0, _ => none
  | fuel + 1, a =>
    match turn a with
    | .next a' => loop turn fuel a'
    | .done b => some b

variable {turn : α → Turn α β} {a : α} {b b' : β} {turns turns' : List (α × α)}
  {inv : α → Prop} {size : α → Nat}

/-- The loop is left with `b`, after so many turns, each from one state to the next. -/
inductive Runs (turn : α → Turn α β) : α → List (α × α) → β → Prop where
  | done {a : α} {b : β} (leaves : turn a = .done b) : Runs turn a [] b
  | next {a a' : α} {turns : List (α × α)} {b : β} (goes : turn a = .next a')
      (rest : Runs turn a' turns b) :
      Runs turn a ((a, a') :: turns) b

theorem Runs.unique (here : Runs turn a turns b) (there : Runs turn a turns' b') : turns' = turns ∧
    b' = b := by
  induction here generalizing turns' with
  | done leaves =>
    cases there with
    | done leaves' =>
      cases leaves.symm.trans leaves'
      exact ⟨rfl, rfl⟩
    | next goes => cases leaves.symm.trans goes
  | next goes _ ih =>
    cases there with
    | done leaves => cases goes.symm.trans leaves
    | next goes' rest =>
      cases goes.symm.trans goes'
      obtain ⟨rfl, rfl⟩ := ih rest
      exact ⟨rfl, rfl⟩

/-- A loop whose turns keep an invariant and make something less is left. -/
theorem Runs.of_variant (keeps : ∀ a a', inv a → turn a = .next a' → inv a' ∧ size a' < size a)
    (start : inv a) :
    ∃ turns b, Runs turn a turns b ∧ turns.length ≤ size a := by
  induction bound : size a using Nat.strongRecOn generalizing a with
  | ind n ih =>
    subst bound
    cases leaves : turn a with
    | done b => exact ⟨[], b, .done leaves, Nat.zero_le _⟩
    | next a' =>
      obtain ⟨kept, less⟩ := keeps a a' start leaves
      obtain ⟨turns, b, runs, few⟩ := ih (size a') less kept rfl
      exact ⟨_, b, .next leaves runs, Nat.lt_of_le_of_lt few less⟩

/-- The invariant holds at every turn, and at the one that leaves. -/
theorem Runs.invariant (keeps : ∀ a a', inv a → turn a = .next a' → inv a') (runs : Runs turn a turns b)
    (start : inv a) :
    (∀ step ∈ turns, inv step.1 ∧ turn step.1 = .next step.2) ∧ ∃ last, inv last ∧
      turn last = .done b := by
  induction runs with
  | done leaves => exact ⟨fun _ none => absurd none List.not_mem_nil, _, start, leaves⟩
  | next goes _ ih =>
    obtain ⟨all, last⟩ := ih (keeps _ _ start goes)
    refine ⟨?_, last⟩
    intro step member
    rcases List.mem_cons.mp member with rfl | later
    · exact ⟨start, goes⟩
    · exact all step later

/-- With as many turns to go as the variant allows, the loop that counts them
is the loop. -/
theorem Runs.counted {f : Nat → α → β}
    (zero : ∀ a b, size a = 0 → turn a = .done b → f 0 a = b)
    (succ : ∀ fuel a, f (fuel + 1) a = (turn a).then_ (f fuel))
    (keeps : ∀ a a', inv a → turn a = .next a' → inv a' ∧ size a' < size a)
    (runs : Runs turn a turns b) (start : inv a) {n : Nat} (enough : size a ≤ n) : f n a = b := by
  induction runs generalizing n with
  | done leaves =>
    cases n with
    | zero => exact zero _ _ (Nat.le_zero.mp enough) leaves
    | succ n => rw [succ, leaves, Turn.then_]
  | next goes _ ih =>
    obtain ⟨kept, less⟩ := keeps _ _ start goes
    cases n with
    | zero => omega
    | succ n =>
      rw [succ, goes, Turn.then_]
      apply ih kept
      omega

/-- More turns to go than the run makes are enough. -/
theorem Runs.loop (runs : Runs turn a turns b) {n : Nat} (enough : turns.length < n) :
    loop turn n a = some b := by
  induction runs generalizing n with
  | done leaves =>
    cases n with
    | zero => exact absurd enough (Nat.not_lt_zero _)
    | succ n => rw [WhileLoop.loop, leaves]
  | next goes _ ih =>
    cases n with
    | zero => exact absurd enough (Nat.not_lt_zero _)
    | succ n =>
      rw [WhileLoop.loop, goes]
      exact ih (Nat.lt_of_succ_lt_succ enough)

end MegaNet.WhileLoop
