import Mathlib.Data.List.Basic

/-! A mailbox for one item. What arrives while it is empty waits there until it
is asked for, what arrives while it is full is lost: over any history the items
handed out, in order, and the one that still waits are those admitted. -/
namespace MegaNet.Mailbox

inductive Event (α : Type) where
  | arrives (item : α)
  | asked
  | idle

variable {α : Type} {slot : Option α}

/-- What waits after an event. -/
def next (slot : Option α) : Event α → Option α
  | .arrives item => slot.or (some item)
  | .asked => none
  | .idle => slot

/-- The item an event puts in. -/
def admitted (slot : Option α) : Event α → Option α
  | .arrives item => if slot.isSome then none else some item
  | .asked | .idle => none

/-- The item it hands out. -/
def handedOut (slot : Option α) : Event α → Option α
  | .asked => slot
  | .arrives _ | .idle => none

/-- What waits at the end of a history. -/
def waiting : Option α → List (Event α) → Option α := List.foldl next

def allAdmitted : Option α → List (Event α) → List α
  | _, [] => []
  | slot, event :: rest => (admitted slot event).toList ++ allAdmitted (next slot event) rest

def allHandedOut : Option α → List (Event α) → List α
  | _, [] => []
  | slot, event :: rest => (handedOut slot event).toList ++ allHandedOut (next slot event) rest

theorem event_conserves (slot : Option α) (event : Event α) :
    slot.toList ++ (admitted slot event).toList = (handedOut slot event).toList ++
      (next slot event).toList := by
  cases event <;> cases slot <;> rfl

/-- Nothing is lost of what is admitted, and nothing else handed out. -/
theorem conserves (slot : Option α) (events : List (Event α)) :
    slot.toList ++ allAdmitted slot events = allHandedOut slot events ++
      (waiting slot events).toList := by
  induction events generalizing slot with
  | nil => simp [allAdmitted, allHandedOut, waiting]
  | cons event rest ih =>
    rw [allAdmitted, allHandedOut, ← List.append_assoc, event_conserves, List.append_assoc,
      ih, List.append_assoc]
    rfl

end MegaNet.Mailbox
