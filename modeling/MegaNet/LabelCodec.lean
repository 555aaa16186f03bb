import Mathlib.Data.List.Basic

/-! A name as a sequence of labels: written each behind its length byte, a zero
byte at the end, and read back. -/
namespace MegaNet.LabelCodec

variable {label : List UInt8} {labels : List (List UInt8)}

/-- The labels as they are written. -/
def encode : List (List UInt8) → List UInt8
  | [] => [0]
  | label :: labels => UInt8.ofNat label.length :: label ++ encode labels

/-- Labels read up to the zero byte, and what follows it; each length byte takes
a turn. -/
def decodeFrom : Nat → List UInt8 → Option (List (List UInt8) × List UInt8)
  | 0, _ => none
  | _ + 1, [] => none
  | turns + 1, n :: rest =>
    if n = 0 then some ([], rest)
    else if n.toNat ≤ rest.length then
      (decodeFrom turns (rest.drop n.toNat)).map fun (labels, after) =>
        (rest.take n.toNat :: labels, after)
    else none

def decode (bytes : List UInt8) : Option (List (List UInt8) × List UInt8) :=
  decodeFrom bytes.length bytes

/-- A length byte can tell how long the label is, and it is none that ends the
name. -/
def Fits (label : List UInt8) : Prop := label ≠ [] ∧ label.length < 256

theorem Fits.length_byte (fits : Fits label) : (UInt8.ofNat label.length).toNat = label.length := by
  rw [UInt8.toNat_ofNat']
  exact Nat.mod_eq_of_lt fits.2

theorem Fits.more (fits : Fits label) : UInt8.ofNat label.length ≠ 0 := by
  intro zero
  have none_ := fits.length_byte
  rw [zero] at none_
  exact fits.1 (List.length_eq_zero_iff.mp none_.symm)

theorem length_lt_encode (labels : List (List UInt8)) : labels.length < (encode labels).length := by
  induction labels with
  | nil => exact Nat.zero_lt_one
  | cons label labels ih =>
    unfold encode
    simp only [List.length_cons, List.length_append]
    omega

/-- Enough turns read back what was written. -/
theorem decodeFrom_encode (fits : ∀ l ∈ labels, Fits l) (rest : List UInt8) (turns : Nat)
    (enough : labels.length < turns) : decodeFrom turns (encode labels ++ rest) =
      some (labels, rest) := by
  induction labels generalizing turns with
  | nil =>
    obtain ⟨turns, rfl⟩ : ∃ n, turns = n + 1 := ⟨turns - 1, by omega⟩
    rfl
  | cons label labels ih =>
    obtain ⟨turns, rfl⟩ : ∃ n, turns = n + 1 := ⟨turns - 1, by omega⟩
    have here := fits label List.mem_cons_self
    have others := ih (fun l member => fits l (List.mem_cons_of_mem _ member)) turns
      (by simpa using enough)
    unfold encode decodeFrom
    rw [List.cons_append, List.cons_append, List.append_assoc]
    dsimp only
    rw [if_neg here.more, here.length_byte, if_pos (by simp), List.drop_left, List.take_left, others]
    rfl

theorem decode_encode (fits : ∀ l ∈ labels, Fits l) (rest : List UInt8) :
    decode (encode labels ++ rest) = some (labels, rest) := by
  apply decodeFrom_encode fits
  have := length_lt_encode labels
  rw [List.length_append]
  omega

/-! ## Splitting a name -/

/-- No label of a name is longer than the name. -/
theorem length_le_of_mem_splitOn {α : Type} [BEq α] {sep : α} {name label : List α}
    (member : label ∈ name.splitOn sep) :
    label.length ≤ name.length := by
  induction name generalizing label with
  | nil =>
    rw [List.splitOn_nil] at member
    exact Nat.le_of_eq (congrArg List.length (List.mem_singleton.mp member))
  | cons c rest ih =>
    rw [List.splitOn_cons_eq_if_modifyHead] at member
    rw [List.length_cons]
    split at member
    · obtain rfl | later := List.mem_cons.mp member
      · exact Nat.zero_le _
      · exact Nat.le_succ_of_le (ih later)
    · cases split : rest.splitOn sep with
      | nil => exact absurd split (List.splitOn_ne_nil sep rest)
      | cons first others =>
        rw [split] at member ih
        obtain rfl | later := List.mem_cons.mp member
        · exact Nat.succ_le_succ (ih List.mem_cons_self)
        · exact Nat.le_succ_of_le (ih (List.mem_cons_of_mem _ later))

end MegaNet.LabelCodec
