import MegaNet.Transition
import Mathlib.Logic.Function.Basic

/-! Any number of machines on a network that loses, repeats, delays and reorders
what they send: a machine moves by what has been sent so far, and what it then
holds is traced to the records of the machines. -/
namespace MegaNet.Network
open Transition

variable {ι H F K : Type}

/-- The machines, each in its state. -/
abbrev Sys (ι H : Type) := ι → H

/-- Some machine has sent it. It may arrive from now on, anywhere and any number of
times, or never. -/
def Taken (sent : H → F → Prop) (sys : Sys ι H) (frame : F) : Prop := ∃ g, sent (sys g) frame

/-- One of the machines moves. -/
inductive Step [DecidableEq ι] (sent : H → F → Prop) (moves : (F → Prop) → H → H → Prop)
    (sys : Sys ι H) :
    Sys ι H → Prop where
  | moves (g : ι) {h : H} (step : moves (Taken sent sys) (sys g) h) : Step sent moves sys
      (Function.update sys g h)

def Run [DecidableEq ι] (sent : H → F → Prop) (moves : (F → Prop) → H → H → Prop) (begun : H → Prop) :
    Sys ι H → Prop :=
  Reachable (fun sys => ∀ g, begun (sys g)) (Step sent moves)

/-- It is in the records of some machine. -/
def Known (log : H → K → Prop) (sys : Sys ι H) (k : K) : Prop := ∃ g, log (sys g) k

variable {sent : H → F → Prop} {moves : (F → Prop) → H → H → Prop} {begun : H → Prop}
  {log : H → K → Prop}

section
variable [DecidableEq ι] {sys : Sys ι H} {g : ι} {h : H}

/-- What is known stays so as a machine adds to its records. -/
theorem known_update (more : ∀ k, log (sys g) k → log h k) (k : K) (known : Known log sys k) :
    Known log (Function.update sys g h) k := by
  obtain ⟨g', there⟩ := known
  refine ⟨g', ?_⟩
  by_cases same : g' = g
  · subst same
    rw [Function.update_self]
    exact more k there
  · rwa [Function.update_of_ne same]

/-- What holds of every machine by what is known at the start, and survives a move
by what machines of which it holds have sent, holds in every state of every run. -/
theorem Run.traced (log : H → K → Prop) (holds : (K → Prop) → H → Prop) (run : Run sent moves begun sys)
    (start : ∀ known h, begun h → (∀ k, log h k → known k) → holds known h)
    (mono : ∀ known known' h, (∀ k, known k → known' k) → holds known h → holds known' h)
    (grows : ∀ taken h h', moves taken h h' → ∀ k, log h k → log h' k)
    (keeps : ∀ known taken h h', moves taken h h' → holds known h → (∀ k, log h' k → known k) →
      (∀ frame, taken frame → ∃ peer, holds known peer ∧ (∀ k, log peer k → known k) ∧ sent peer frame) →
        holds known h') (g : ι) : holds (Known log sys) (sys g) := by
  refine Reachable.invariant (motive := fun sys => ∀ g, holds (Known log sys) (sys g)) ?_ ?_ run g
  · exact fun sys began g => start _ _ (began g) fun k here => ⟨g, here⟩
  · rintro sys _ _ all step
    cases step with
    | moves g step =>
      have more := known_update (grows _ _ _ step)
      intro g'
      by_cases same : g' = g
      · subst same
        rw [Function.update_self]
        refine keeps _ _ _ _ step (mono _ _ _ more (all g'))
          (fun k here => ⟨g', ?_⟩) fun frame took => ?_
        · rwa [Function.update_self]
        · obtain ⟨peer, sent_⟩ := took
          exact ⟨sys peer, mono _ _ _ more (all peer), fun k there => more k ⟨peer, there⟩, sent_⟩
      · rw [Function.update_of_ne same]
        exact mono _ _ _ more (all g')

end

/-! ## Two machines -/

def pair (a b : H) : Sys Bool H := fun g => if g then b else a

theorem first_moves {a a' b : H} (run : Run sent moves begun (pair a b))
    (step : moves (Taken sent (pair a b)) a a') :
    Run sent moves begun (pair a' b) := by
  have moved : Function.update (pair a b) false a' = pair a' b := by
    funext g
    cases g <;> rfl
  rw [← moved]
  exact run.next (.moves false step)

theorem second_moves {a b b' : H} (run : Run sent moves begun (pair a b))
    (step : moves (Taken sent (pair a b)) b b') :
    Run sent moves begun (pair a b') := by
  have moved : Function.update (pair a b) true b' = pair a b' := by
    funext g
    cases g <;> rfl
  rw [← moved]
  exact run.next (.moves true step)

end MegaNet.Network
