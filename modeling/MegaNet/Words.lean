import Mathlib.Data.UInt

/-! 16-bit words as the numbers they stand for: where a sum does not wrap, where
a difference does not go below zero, and positions in a ring. -/
namespace MegaNet.Words

variable {a b size : UInt16}

theorem eq_zero_of_toNat (none : a.toNat = 0) : a = 0 := by
  rw [← UInt16.toNat_inj]
  exact none

/-- The length of data that a word can hold. -/
theorem len_toNat {data : List UInt8} (short : data.length ≤ 65535) :
    (UInt16.ofNat data.length).toNat = data.length := by
  rw [UInt16.toNat_ofNat']
  omega

/-- A difference that does not go below zero is the difference of the numbers. -/
theorem toNat_less (le : b.toNat ≤ a.toNat) : (a - b).toNat = a.toNat - b.toNat :=
  UInt16.toNat_sub_of_le _ _ (UInt16.le_iff_toNat_le.mpr le)

/-- A sum that does not wrap is the sum of the numbers. -/
theorem toNat_more (fits : a.toNat + b.toNat < 2 ^ 16) : (a + b).toNat = a.toNat + b.toNat := by
  rw [UInt16.toNat_add]
  exact Nat.mod_eq_of_lt fits

/-- A word that is a step of so many further on. -/
theorem toNat_ahead (n : Nat) (fits : a.toNat + n < 2 ^ 16) :
    (a + UInt16.ofNat n).toNat = a.toNat + n := by
  rw [UInt16.toNat_add, UInt16.toNat_ofNat']
  omega

/-- Moving on in a ring. -/
theorem toNat_turn (fits : a.toNat + b.toNat < 2 ^ 16) :
    ((a + b) % size).toNat = (a.toNat + b.toNat) % size.toNat := by
  rw [UInt16.toNat_mod, toNat_more fits]

theorem toNat_back (n : Nat) (le : n ≤ a.toNat) : (a - UInt16.ofNat n).toNat = a.toNat - n := by
  have below := a.toNat_lt
  have same : (UInt16.ofNat n).toNat = n := UInt16.toNat_ofNat_of_lt' (Nat.lt_of_le_of_lt le below)
  rw [toNat_less (by omega), same]

/-- The ticks from one time to a later one. -/
theorem toNat_since {earlier later : Nat} (le : earlier ≤ later) :
    (UInt16.ofNat later - UInt16.ofNat earlier).toNat = (later - earlier) % 2 ^ 16 := by
  rw [UInt16.toNat_sub, UInt16.toNat_ofNat', UInt16.toNat_ofNat']
  omega

/-- What is not below a word is as long as it says. -/
theorem not_below (n : Nat) (fits : n < 2 ^ 16) : ¬ a < UInt16.ofNat n ↔ n ≤ a.toNat := by
  rw [UInt16.lt_iff_toNat_lt, UInt16.toNat_ofNat', not_lt, Nat.mod_eq_of_lt fits]

/-- Clamping one word by another is taking the minimum. -/
theorem toNat_clamp (a b : UInt16) : (if a > b then b else a).toNat = min a.toNat b.toNat := by
  by_cases beyond : a > b
  · have := UInt16.lt_iff_toNat_lt.mp beyond
    simp only [beyond, if_true]
    omega
  · have : ¬ b.toNat < a.toNat := fun less => beyond (UInt16.lt_iff_toNat_lt.mpr less)
    simp only [beyond, if_false]
    omega

end MegaNet.Words
