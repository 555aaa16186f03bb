import Mathlib.Data.List.Basic
import Mathlib.Data.Nat.Basic

/-! Circular buffers laid out in an addressed store: a ring of `size` cells
from `base`, read and written through positions that wrap. A window is what a
run of cells holds, in order; a deposit overwrites a run of cells. Positions
are natural numbers, so a position and its remainder name the same cell. -/
namespace MegaNet.CircularBuffer

variable {α : Type} {store other : Nat → α} {base size pos len : Nat} {items : List α}

/-- The address of the cell `i` places after `pos`. -/
def cell (base size pos i : Nat) : Nat := base + (pos + i) % size

/-- The `len` cells from `pos` on, in ring order. -/
def window (store : Nat → α) (base size pos len : Nat) : List α :=
  (List.range len).map fun i => store (cell base size pos i)

/-- The store with `items` laid into the ring from `pos` on. -/
def deposit (store : Nat → α) (base size pos : Nat) (items : List α) : Nat → α := fun address =>
  if base ≤ address ∧ address < base + size then
    (items[(address - base + size - pos % size) % size]?).getD (store address)
  else store address

private theorem wrap_once {p i : Nat} (inside : p < size) (short : i ≤ size) :
    (p + i) % size = if p + i < size then p + i else p + i - size := by
  split
  · exact Nat.mod_eq_of_lt ‹_›
  · rw [Nat.mod_eq_sub_mod (by omega), Nat.mod_eq_of_lt (by omega)]

theorem cell_inside (positive : 0 < size) (i : Nat) :
    base ≤ cell base size pos i ∧ cell base size pos i < base + size := by
  have := Nat.mod_lt (pos + i) positive
  unfold cell
  omega

@[simp] theorem cell_mod (i : Nat) : cell base size (pos % size) i = cell base size pos i := by
  simp [cell]

theorem cell_add (i j : Nat) : cell base size (pos + i) j = cell base size pos (i + j) := by
  simp [cell, Nat.add_assoc]

/-- The offset from `pos` recovered from a cell's address. -/
private theorem offset_of_cell {i : Nat} (short : i < size) :
    (cell base size pos i - base + size - pos % size) % size = i := by
  have inside : pos % size < size := Nat.mod_lt pos (by omega)
  have shape : (pos + i) % size = (pos % size + i) % size := by simp
  unfold cell
  rw [shape, wrap_once inside (by omega)]
  split
  · rw [show base + (pos % size + i) - base + size - pos % size = i + size by omega]
    simp [Nat.mod_eq_of_lt short]
  · rw [show base + (pos % size + i - size) - base + size - pos % size = i by omega]
    exact Nat.mod_eq_of_lt short

theorem deposit_cell {i : Nat} (short : i < size) :
    deposit store base size pos items (cell base size pos i) =
      (items[i]?).getD (store (cell base size pos i)) := by
  have inside : base ≤ cell base size pos i ∧ cell base size pos i < base + size :=
    cell_inside (by omega) i
  simp only [deposit, inside, and_self, if_true, offset_of_cell short]

theorem deposit_outside {address : Nat} (outside : address < base ∨ base + size ≤ address) :
    deposit store base size pos items address = store address := by
  have : ¬ (base ≤ address ∧ address < base + size) := by omega
  simp [deposit, this]

/-- Every address of the ring is a cell, counted from any position. -/
theorem cell_surjective (pos : Nat) {address : Nat} (inside : base ≤ address ∧ address < base + size) :
    ∃ i < size, cell base size pos i = address := by
  have start : pos % size < size := Nat.mod_lt pos (by omega)
  refine ⟨(address - base + size - pos % size) % size, Nat.mod_lt _ (by omega), ?_⟩
  have turns := Nat.mod_add_div pos size
  rw [cell, Nat.add_mod_mod, show pos + (address - base + size - pos % size) =
      address - base + size * (pos / size + 1) by rw [Nat.mul_add]; omega,
    Nat.add_mul_mod_self_left, Nat.mod_eq_of_lt (by omega)]
  omega

@[simp] theorem deposit_nil : deposit store base size pos [] = store := by
  funext address
  simp [deposit]

@[simp] theorem deposit_mod : deposit store base size (pos % size) items =
    deposit store base size pos items := by
  funext address
  simp [deposit]

/-- A store that differs from another only by holding `items` from `pos` on
is that deposit. -/
theorem deposit_unique {written : Nat → α}
    (outside : ∀ address, address < base ∨ base + size ≤ address → written address = store address)
    (held : ∀ i < size, written (cell base size pos i) =
      (items[i]?).getD (store (cell base size pos i))) :
    written = deposit store base size pos items := by
  funext address
  by_cases inside : base ≤ address ∧ address < base + size
  · obtain ⟨i, short, rfl⟩ := cell_surjective pos inside
    rw [held i short, deposit_cell short]
  · rw [outside address (by omega), deposit_outside (by omega)]

@[simp] theorem window_length : (window store base size pos len).length = len := by
  simp [window]

@[simp] theorem window_zero : window store base size pos 0 = [] := rfl

@[simp] theorem window_mod : window store base size (pos % size) len =
    window store base size pos len := by
  simp [window]

theorem window_getElem? {i : Nat} (short : i < len) :
    (window store base size pos len)[i]? = some (store (cell base size pos i)) := by
  simp [window, short]

/-- A window splits at any point into the window before and the window after. -/
theorem window_append (front back : Nat) :
    window store base size pos (front + back) =
      window store base size pos front ++ window store base size (pos + front) back := by
  simp [window, List.range_add, cell_add]

/-- Moving a window's start forward drops its first items. -/
theorem window_drop {front : Nat} (within : front ≤ len) :
    (window store base size pos len).drop front =
      window store base size (pos + front) (len - front) := by
  obtain ⟨back, rfl⟩ := Nat.exists_eq_add_of_le within
  rw [window_append, List.drop_left' window_length, Nat.add_sub_cancel_left]

theorem window_take {front : Nat} (within : front ≤ len) :
    (window store base size pos len).take front = window store base size pos front := by
  obtain ⟨back, rfl⟩ := Nat.exists_eq_add_of_le within
  rw [window_append, List.take_left' window_length]

/-- A part of a window is a part of its contents. -/
theorem window_slice {skip count : Nat} (within : skip + count ≤ len) :
    window store base size (pos + skip) count =
      ((window store base size pos len).drop skip).take count := by
  rw [window_drop (by omega), window_take (by omega)]

/-- A window depends only on the cells of its ring. -/
theorem window_congr (positive : 0 < size)
    (same : ∀ address, base ≤ address → address < base + size → store address = other address) :
    window store base size pos len = window other base size pos len := by
  apply List.map_congr_left
  intro i _
  obtain ⟨lower, upper⟩ : base ≤ cell base size pos i ∧ cell base size pos i < base + size :=
    cell_inside positive i
  exact same _ lower upper

/-- What was deposited is what the window from there reads. -/
theorem window_deposit (fits : items.length ≤ size) :
    window (deposit store base size pos items) base size pos items.length = items := by
  apply List.ext_getElem?
  intro i
  by_cases short : i < items.length
  · rw [window_getElem? short, deposit_cell (by omega), List.getElem?_eq_getElem short]
    rfl
  · simp [List.getElem?_eq_none (Nat.le_of_not_lt short), window]
    omega

/-- A deposit past the end of a window leaves the window as it was, as long
as both fit in the ring together. -/
theorem window_deposit_after (fits : len + items.length ≤ size) :
    window (deposit store base size (pos + len) items) base size pos len =
      window store base size pos len := by
  apply List.map_congr_left
  intro i member
  have short : i < len := List.mem_range.mp member
  -- Seen from the deposit, the window's cells are the last ones round the ring.
  have around : cell base size pos i = cell base size (pos + len) (i + size - len) := by
    rw [cell_add, show len + (i + size - len) = i + size by omega]
    simp [cell, ← Nat.add_assoc]
  rw [around, deposit_cell (by omega), List.getElem?_eq_none (by omega)]
  rfl

/-- Appending to a queue held in a ring. -/
theorem window_deposit_append (fits : len + items.length ≤ size) :
    window (deposit store base size (pos + len) items) base size pos (len + items.length) =
      window store base size pos len ++ items := by
  rw [window_append, window_deposit_after fits, window_deposit (by omega)]

end MegaNet.CircularBuffer
