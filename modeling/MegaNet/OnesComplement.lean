import Mathlib.Data.UInt

/-! Ones' complement sums: 16-bit addition with an end-around carry computes a
sum modulo `2^16 - 1`, with two words for zero, of which only a sum of nothing
but zeros is the word 0. And the number that bytes stand for as a row of
big-endian 16-bit words. -/
namespace MegaNet.OnesComplement

/-- Addition with an end-around carry. -/
def plus (a b : UInt16) : UInt16 := if a + b < b then a + b + 1 else a + b

/-- The word `s` is a ones' complement sum of numbers that add up to `n`. -/
structure Sums (s : UInt16) (n : Nat) : Prop where
  mod : s.toNat % 65535 = n % 65535
  zero : s = 0 ↔ n = 0

theorem toNat_eq_zero {s : UInt16} : s.toNat = 0 ↔ s = 0 := by
  rw [← UInt16.toNat_inj, UInt16.toNat_zero]

theorem Sums.nothing : Sums 0 0 := ⟨rfl, by simp⟩

theorem Sums.word (w : UInt16) : Sums w w.toNat := ⟨rfl, toNat_eq_zero.symm⟩

theorem plus_toNat (a b : UInt16) :
    (plus a b).toNat = if a.toNat + b.toNat < 65536 then a.toNat + b.toNat
    else a.toNat + b.toNat - 65535 := by
  have left := a.toNat_lt
  have right := b.toNat_lt
  unfold plus
  simp only [UInt16.lt_iff_toNat_lt, UInt16.toNat_add]
  split <;> split <;> simp only [UInt16.toNat_add, UInt16.toNat_one] <;> omega

theorem Sums.plus {a b : UInt16} {m n : Nat} (left : Sums a m) (right : Sums b n) :
    Sums (plus a b) (m + n) := by
  have below := a.toNat_lt
  have below' := b.toNat_lt
  have here := left.mod
  have there := right.mod
  have both := plus_toNat a b
  have nothing : a.toNat = 0 ↔ m = 0 := toNat_eq_zero.trans left.zero
  have nothing' : b.toNat = 0 ↔ n = 0 := toNat_eq_zero.trans right.zero
  refine ⟨?_, toNat_eq_zero.symm.trans ?_⟩ <;> split at both <;> omega

theorem complement_toNat (s : UInt16) : (~~~ s).toNat = 65535 - s.toNat := by
  have below := s.toNat_lt
  rw [UInt16.toNat_not, show UInt16.size = 65536 from rfl]

/-- The complement is 0 just for the sums that are a multiple of `2^16 - 1` and
not of zeros only. -/
theorem Sums.complement_zero {s : UInt16} {n : Nat} (sums : Sums s n) : ~~~ s = 0 ↔
    n % 65535 = 0 ∧ n ≠ 0 := by
  have below := s.toNat_lt
  have same := sums.mod
  have nothing : s.toNat = 0 ↔ n = 0 := toNat_eq_zero.trans sums.zero
  rw [← toNat_eq_zero, complement_toNat]
  omega

/-- Adding the complement of a sum makes it such a multiple. -/
theorem Sums.with_complement {s : UInt16} {n : Nat} (sums : Sums s n) :
    (n + (~~~ s).toNat) % 65535 = 0 ∧ n + (~~~ s).toNat ≠ 0 := by
  have below := s.toNat_lt
  have same := sums.mod
  have nothing : s.toNat = 0 ↔ n = 0 := toNat_eq_zero.trans sums.zero
  rw [complement_toNat]
  omega

/-- Of the two words for zero a sum is one, so it is one word only. -/
theorem Sums.unique {s s' : UInt16} {n : Nat} (sums : Sums s n) (sums' : Sums s' n) : s = s' := by
  have below := s.toNat_lt
  have below' := s'.toNat_lt
  have same := sums.mod
  have same' := sums'.mod
  have nothing : s.toNat = 0 ↔ n = 0 := toNat_eq_zero.trans sums.zero
  have nothing' : s'.toNat = 0 ↔ n = 0 := toNat_eq_zero.trans sums'.zero
  rw [← UInt16.toNat_inj]
  omega

/-! ## Bytes as words -/

/-- The sum of the big-endian words, an odd last byte padded with a zero. -/
def wordSum : List UInt8 → Nat
  | [] => 0
  | [b] => b.toNat * 256
  | b :: c :: rest => b.toNat * 256 + c.toNat + wordSum rest

theorem wordSum_append {front : List UInt8} (even : front.length % 2 = 0) (back : List UInt8) :
    wordSum (front ++ back) = wordSum front + wordSum back := by
  induction front using wordSum.induct with
  | case1 => simp [wordSum]
  | case2 b => simp at even
  | case3 b c rest ih =>
    have rest_even : rest.length % 2 = 0 := by
      simp only [List.length_cons] at even
      omega
    simp only [List.cons_append, wordSum, ih rest_even]
    omega

/-- A word's two bytes. -/
theorem wordSum_bytes (w : UInt16) (rest : List UInt8) :
    wordSum ((w >>> 8).toUInt8 :: w.toUInt8 :: rest) = w.toNat + wordSum rest := by
  have below := w.toNat_lt
  have high : (w >>> 8).toUInt8.toNat = w.toNat / 256 := by
    rw [UInt16.toNat_toUInt8, UInt16.toNat_shiftRight, Nat.shiftRight_eq_div_pow,
      show (2 : Nat) ^ (UInt16.toNat 8 % 16) = 256 from rfl]
    omega
  rw [wordSum, high, UInt16.toNat_toUInt8]
  omega

theorem wordSum_eq_zero {m : List UInt8} : wordSum m = 0 ↔ ∀ b ∈ m, b = 0 := by
  have zero : ∀ b : UInt8, b.toNat = 0 ↔ b = 0 := fun b => by rw [← UInt8.toNat_inj]; rfl
  induction m using wordSum.induct with
  | case1 => simp [wordSum]
  | case2 b =>
    rw [wordSum, Nat.mul_eq_zero, zero]
    simp
  | case3 b c rest ih =>
    have later : wordSum rest = 0 ↔ ∀ b ∈ rest, b = 0 := ih
    rw [wordSum, Nat.add_eq_zero_iff, Nat.add_eq_zero_iff, Nat.mul_eq_zero, zero, zero, later]
    simp [and_assoc]

theorem wordSum_le (m : List UInt8) : wordSum m ≤ 65535 * ((m.length + 1) / 2) := by
  induction m using wordSum.induct with
  | case1 => exact Nat.zero_le _
  | case2 b =>
    have := b.toNat_lt
    rw [wordSum, List.length_singleton]
    omega
  | case3 b c rest ih =>
    have high := b.toNat_lt
    have low := c.toNat_lt
    rw [wordSum, List.length_cons, List.length_cons]
    omega

/-- Another byte at one place counts as the high or as the low one of its word. -/
theorem wordSum_set (m : List UInt8) (i : Nat) (b : UInt8) (inside : i < m.length) :
    ∃ weight, (weight = 1 ∨ weight = 256) ∧ wordSum (m.set i b) + weight * m[i].toNat =
      wordSum m + weight * b.toNat := by
  induction m using wordSum.induct generalizing i with
  | case1 => cases inside
  | case2 c =>
    obtain rfl : i = 0 := Nat.lt_one_iff.mp inside
    refine ⟨256, Or.inr rfl, ?_⟩
    simp only [List.set_cons_zero, wordSum, List.getElem_cons_zero]
    omega
  | case3 c d rest ih =>
    obtain _ | _ | i := i
    · refine ⟨256, Or.inr rfl, ?_⟩
      simp only [List.set_cons_zero, wordSum, List.getElem_cons_zero]
      omega
    · refine ⟨1, Or.inl rfl, ?_⟩
      simp only [List.set_cons_succ, List.set_cons_zero, wordSum, List.getElem_cons_succ,
        List.getElem_cons_zero]
      omega
    · obtain ⟨weight, which, sum⟩ := ih i (by simpa using inside)
      refine ⟨weight, which, ?_⟩
      simp only [List.set_cons_succ, wordSum, List.getElem_cons_succ]
      omega

/-- So where a block balances, a block that differs in one byte does not. -/
theorem one_byte_unbalances {m : List UInt8} {i : Nat} {b : UInt8}
    (inside : i < m.length) (other : b ≠ m[i])
    (balanced : wordSum m % 65535 = 0) : wordSum (m.set i b) % 65535 ≠ 0 := by
  obtain ⟨weight, which, sum⟩ := wordSum_set m i b inside
  have new := b.toNat_lt
  have old := m[i].toNat_lt
  have differs : b.toNat ≠ m[i].toNat := fun same => other (UInt8.toNat_inj.mp same)
  obtain rfl | rfl := which <;> omega

/-! ## Summing in 32 bits -/

/-- The words of a block added up in 32 bits. -/
def sum32 : UInt32 → List UInt8 → UInt32
  | sum, [] => sum
  | sum, [b] => sum + (b.toUInt32 <<< 8)
  | sum, b :: c :: rest => sum32 (sum + (b.toUInt32 <<< 8 ||| c.toUInt32)) rest

/-- The carries added back until none is left; two turns are enough. -/
def foldFrom : Nat → UInt32 → UInt32
  | 0, sum => sum
  | turns + 1, sum =>
    if sum >>> 16 ≠ 0 then foldFrom turns ((sum &&& (0xffff : UInt32)) + (sum >>> 16)) else sum

def fold (sum : UInt32) : UInt16 := (foldFrom 2 sum).toUInt16

theorem word32_toNat (b c : UInt8) : (b.toUInt32 <<< 8 ||| c.toUInt32).toNat =
    b.toNat * 256 + c.toNat := by
  have high := b.toNat_lt
  have low := c.toNat_lt
  rw [UInt32.toNat_or, UInt32.toNat_shiftLeft, UInt8.toNat_toUInt32, UInt8.toNat_toUInt32,
    show UInt32.toNat 8 % 32 = 8 from rfl, Nat.shiftLeft_eq, Nat.mod_eq_of_lt (by omega), Nat.mul_comm,
    ← Nat.two_pow_add_eq_or_of_lt (by omega), Nat.mul_comm]

/-- No sum that fits is cut short. -/
theorem sum32_toNat (sum : UInt32) (m : List UInt8) (fits : sum.toNat + wordSum m < 2 ^ 32) :
    (sum32 sum m).toNat = sum.toNat + wordSum m := by
  induction m using wordSum.induct generalizing sum with
  | case1 => rfl
  | case2 b =>
    have last := word32_toNat b 0
    rw [show (0 : UInt8).toUInt32 = 0 from rfl, UInt32.or_zero, show UInt8.toNat 0 = 0 from rfl,
      Nat.add_zero] at last
    rw [wordSum] at fits ⊢
    unfold sum32
    rw [UInt32.toNat_add, last]
    exact Nat.mod_eq_of_lt fits
  | case3 b c rest ih =>
    rw [wordSum] at fits ⊢
    have first : (sum + (b.toUInt32 <<< 8 ||| c.toUInt32)).toNat = sum.toNat +
        (b.toNat * 256 + c.toNat) := by
      rw [UInt32.toNat_add, word32_toNat]
      omega
    unfold sum32
    rw [ih _ (by omega), first]
    omega

theorem carries_toNat (sum : UInt32) :
    ((sum &&& (0xffff : UInt32)) + (sum >>> 16)).toNat = sum.toNat % 65536 + sum.toNat / 65536 := by
  have below := sum.toNat_lt
  have low : (sum &&& (0xffff : UInt32)).toNat = sum.toNat % 65536 := by
    rw [UInt32.toNat_and, show UInt32.toNat 0xffff = 2 ^ 16 - 1 from rfl, Nat.and_two_pow_sub_one_eq_mod]
  have high : (sum >>> 16).toNat = sum.toNat / 65536 := by
    rw [UInt32.toNat_shiftRight]
    exact Nat.shiftRight_eq_div_pow _ 16
  rw [UInt32.toNat_add, low, high]
  omega

theorem no_carries {sum : UInt32} : sum >>> 16 = 0 ↔ sum.toNat < 65536 := by
  have high : (sum >>> 16).toNat = sum.toNat / 65536 := by
    rw [UInt32.toNat_shiftRight]
    exact Nat.shiftRight_eq_div_pow _ 16
  rw [← UInt32.toNat_inj, high, show UInt32.toNat 0 = 0 from rfl]
  omega

/-- Adding the carries back changes neither the remainder nor whether it is 0. -/
theorem foldFrom_keeps (turns : Nat) (sum : UInt32) :
    (foldFrom turns sum).toNat % 65535 = sum.toNat % 65535 ∧
      ((foldFrom turns sum).toNat = 0 ↔ sum.toNat = 0) := by
  induction turns generalizing sum with
  | zero => exact ⟨rfl, Iff.rfl⟩
  | succ turns ih =>
    unfold foldFrom
    split
    · obtain ⟨mod, zero⟩ := ih ((sum &&& (0xffff : UInt32)) + (sum >>> 16))
      rw [carries_toNat] at mod zero
      exact ⟨by omega, by omega⟩
    · exact ⟨rfl, Iff.rfl⟩

theorem foldFrom_done (sum : UInt32) : (foldFrom 2 sum).toNat < 65536 := by
  have below := sum.toNat_lt
  unfold foldFrom
  split
  · unfold foldFrom
    split
    · unfold foldFrom
      rw [carries_toNat, carries_toNat]
      omega
    · rename_i none_
      exact no_carries.mp (not_not.mp none_)
  · rename_i none_
    exact no_carries.mp (not_not.mp none_)

/-- A 32-bit sum, its carries added back, is a ones' complement sum. -/
theorem fold_sums (sum : UInt32) : Sums (fold sum) sum.toNat := by
  obtain ⟨mod, zero⟩ := foldFrom_keeps 2 sum
  have same : (fold sum).toNat = (foldFrom 2 sum).toNat := by
    unfold fold
    rw [UInt32.toNat_toUInt16]
    exact Nat.mod_eq_of_lt (foldFrom_done sum)
  exact ⟨by rw [same, mod], by rw [← toNat_eq_zero, same, zero]⟩

theorem fold_sum32 {m : List UInt8} (short : m.length ≤ 65547) : Sums
    (fold (sum32 0 m)) (wordSum m) := by
  have most := wordSum_le m
  have sums := fold_sums (sum32 0 m)
  rw [sum32_toNat 0 m (by rw [UInt32.toNat_zero]; omega), UInt32.toNat_zero, Nat.zero_add] at sums
  exact sums

end MegaNet.OnesComplement
