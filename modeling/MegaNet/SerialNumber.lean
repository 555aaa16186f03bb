import Mathlib.Data.UInt
import Mathlib.Data.Nat.ModEq

/-! Serial numbers: positions of an unbounded stream carried modulo `2^32`,
compared by the sign of their difference, and ticks carried modulo `2^16`,
compared by how much time has passed. A position is named by a base and an
unbounded offset; equality and order of offsets are recovered wherever the
offsets in play lie close enough together. -/
namespace MegaNet.SerialNumber

/-- `a` comes before `b`: their difference is negative as a signed word. -/
def precedes (a b : UInt32) : Bool := (a - b).toInt32 < 0

/-- `a` comes before `b` or is `b`. -/
def upTo (a b : UInt32) : Bool := (a - b).toInt32 ≤ 0

/-- The serial number `offset` places after `base`. -/
def place (base : UInt32) (offset : Nat) : UInt32 := base + UInt32.ofNat offset

private theorem toInt_toInt32 (a : UInt32) :
    a.toInt32.toInt = if a.toNat < 2 ^ 31 then (a.toNat : Int) else (a.toNat : Int) - 2 ^ 32 := by
  have bound := a.toNat_lt
  rw [← Int32.toInt_toBitVec, UInt32.toBitVec_toInt32, BitVec.toInt_eq_toNat_cond,
    UInt32.toNat_toBitVec]
  split <;> split <;> omega

theorem precedes_iff (a b : UInt32) : precedes a b = true ↔ 2 ^ 31 ≤ (a - b).toNat := by
  have bound := (a - b).toNat_lt
  simp only [precedes, decide_eq_true_eq, Int32.lt_iff_toInt_lt, toInt_toInt32]
  simp only [Int32.toInt_zero]
  split <;> omega

theorem upTo_iff (a b : UInt32) : upTo a b = true ↔ (a - b).toNat = 0 ∨ 2 ^ 31 ≤ (a - b).toNat := by
  have bound := (a - b).toNat_lt
  simp only [upTo, decide_eq_true_eq, Int32.le_iff_toInt_le, toInt_toInt32]
  simp only [Int32.toInt_zero]
  split <;> omega

/-- An acknowledgement that is neither old nor beyond what was sent lies in
the window between the two, at the distance the plain difference gives. -/
theorem between {low high mid : UInt32} (narrow : (high - low).toNat < 2 ^ 31)
    (fresh : upTo mid low = false) (covered : precedes high mid = false) :
    0 < (mid - low).toNat ∧ (mid - low).toNat ≤ (high - low).toNat := by
  rw [← Bool.not_eq_true, upTo_iff] at fresh
  rw [← Bool.not_eq_true, precedes_iff] at covered
  simp only [UInt32.toNat_sub] at *
  have := low.toNat_lt
  have := high.toNat_lt
  have := mid.toNat_lt
  omega

/-- A place is neither before a window nor past its end exactly when its
distance from the start is less than the window's width. -/
theorem inside_iff {low mark width : UInt32} (narrow : width.toNat < 2 ^ 31) :
    (precedes mark low || upTo (low + width) mark) = false ↔ (mark - low).toNat < width.toNat := by
  rw [← Bool.not_eq_true, Bool.or_eq_true, precedes_iff, upTo_iff]
  simp only [UInt32.toNat_sub, UInt32.toNat_add]
  have := low.toNat_lt
  have := mark.toNat_lt
  omega

@[simp] theorem place_zero (base : UInt32) : place base 0 = base := by
  simp [place]

theorem place_add (base : UInt32) (i j : Nat) : place base (i + j) = place base i + UInt32.ofNat j := by
  simp [place, UInt32.ofNat_add, UInt32.add_assoc]

theorem place_succ (base : UInt32) (i : Nat) : place base (i + 1) = place base i + 1 :=
  place_add base i 1

theorem place_place (base : UInt32) (i j : Nat) : place (place base i) j = place base (i + j) :=
  (place_add base i j).symm

/-- Two places are the same serial number exactly when their offsets agree
modulo the width. -/
theorem place_eq_iff {base : UInt32} {i j : Nat} :
    place base i = place base j ↔ i ≡ j [MOD 2 ^ 32] := by
  rw [place, place, UInt32.add_right_inj, ← UInt32.toNat_inj, UInt32.toNat_ofNat',
    UInt32.toNat_ofNat']
  rfl

theorem place_inj {base : UInt32} {i j : Nat} (left : i < 2 ^ 32) (right : j < 2 ^ 32)
    (same : place base i = place base j) : i = j := by
  have := place_eq_iff.mp same
  unfold Nat.ModEq at this
  omega

/-- Time passed adds up, until it would wrap. -/
theorem elapsed_add {since now later : UInt16}
    (short : (now - since).toNat + (later - now).toNat < 2 ^ 16) :
    (later - since).toNat = (now - since).toNat + (later - now).toNat := by
  simp only [UInt16.toNat_sub] at *
  have := now.toNat_lt
  have := since.toNat_lt
  have := later.toNat_lt
  omega

@[simp] theorem elapsed_self (now : UInt16) : (now - now).toNat = 0 := by
  simp

end MegaNet.SerialNumber
