import MegaNet.Core.Wire
import MegaNet.OnesComplement
import MegaNet.Words

/-! What `mn_checksum.c` computes: the ones' complement sum of the big-endian
words, so that a block whose checksum field holds the complement of the rest
verifies. -/
namespace MegaNet.Checksums
open MegaNet.Core OnesComplement Words

/-! ## Words in bytes -/

theorem high_toNat (b : UInt8) : (b.toUInt16 <<< 8).toNat = 2 ^ 8 * b.toNat := by
  have below := b.toNat_lt
  rw [UInt16.toNat_shiftLeft, UInt8.toNat_toUInt16, show UInt16.toNat 8 % 16 = 8 from rfl,
    Nat.shiftLeft_eq]
  omega

theorem get16_toNat (m : List UInt8) (o : Nat) :
    (get16 m o).toNat = (byteAt m o).toNat * 256 + (byteAt m (o + 1)).toNat := by
  have low := (byteAt m (o + 1)).toNat_lt
  rw [get16, UInt16.toNat_or, high_toNat, UInt8.toNat_toUInt16, ← Nat.two_pow_add_eq_or_of_lt (by omega)]
  omega

/-- What `mn_put16` writes, `mn_get16` reads. -/
theorem get16_put16 (v : UInt16) (rest : List UInt8) : get16 (put16 v ++ rest) 0 = v := by
  have below := v.toNat_lt
  have high : (v >>> 8).toUInt8.toNat = v.toNat / 256 := by
    rw [UInt16.toNat_toUInt8, UInt16.toNat_shiftRight, Nat.shiftRight_eq_div_pow,
      show (2 : Nat) ^ (UInt16.toNat 8 % 16) = 256 from rfl]
    omega
  rw [← UInt16.toNat_inj, get16_toNat]
  show (v >>> 8).toUInt8.toNat * 256 + v.toUInt8.toNat = v.toNat
  rw [high, UInt16.toNat_toUInt8]
  omega

/-- `n` bytes from `o` on, zeros past the end. -/
def bytesAt (m : List UInt8) (o n : Nat) : List UInt8 := (List.range n).map fun i => byteAt m (o + i)

private theorem bytesAt_more (m : List UInt8) (o n : Nat) :
    bytesAt m o (n + 2) = byteAt m o :: byteAt m (o + 1) :: bytesAt m (o + 2) n := by
  simp only [bytesAt, List.range_succ_eq_map, List.map_cons, List.map_map, Nat.add_zero]
  congr 2
  refine List.map_congr_left fun i _ => ?_
  simp only [Function.comp_apply, Nat.succ_eq_add_one, show o + (i + 1 + 1) = o + 2 + i by omega]

private theorem bytesAt_last (m : List UInt8) (o n : Nat) : bytesAt m o (n + 1) = bytesAt m o n ++
    [byteAt m (o + n)] := by
  simp [bytesAt, List.range_succ]

private theorem bytesAt_length (m : List UInt8) (o n : Nat) : (bytesAt m o n).length = n := by
  simp [bytesAt]

theorem bytesAt_take (m : List UInt8) {n : Nat} (inside : n ≤ m.length) : bytesAt m 0 n = m.take n := by
  refine List.ext_getElem (by simp [bytesAt, inside]) fun i here _ => ?_
  have short : i < m.length := by
    simp only [bytesAt, List.length_map, List.length_range] at here
    omega
  simp [bytesAt, byteAt, short]

/-! ## The sum -/

private theorem addCarry_plus (a b : UInt16) : addCarry a b = plus a b := rfl

/-- The loop, from an even offset with `pairs` whole words ahead. -/
theorem sumWords_sums (data : List UInt8) (len : UInt16) (pairs : Nat) (fuel : Nat)
    (i sum : UInt16) (n : Nat)
    (enough : pairs ≤ fuel) (even : i.toNat % 2 = 0) (inside : i.toNat + 2 * pairs ≤ len.toNat)
    (last : len.toNat < i.toNat + 2 * pairs + 2) (sums : Sums sum n) :
    (sumWords data len fuel i sum).1.toNat = i.toNat + 2 * pairs ∧
      Sums (sumWords data len fuel i sum).2 (n + wordSum (bytesAt data i.toNat (2 * pairs))) := by
  have below := len.toNat_lt
  have step : (i + 1).toNat = i.toNat + 1 := toNat_ahead 1 (by omega)
  induction pairs generalizing fuel i sum n with
  | zero =>
    have stops : ¬ i + 1 < len := by
      rw [UInt16.lt_iff_toNat_lt, step]
      omega
    have same : sumWords data len fuel i sum = (i, sum) := by
      cases fuel with
      | zero => rfl
      | succ fuel => rw [sumWords, if_neg stops]
    rw [same]
    exact ⟨rfl, sums⟩
  | succ pairs ih =>
    obtain ⟨fuel, rfl⟩ : ∃ more, fuel = more + 1 := ⟨fuel - 1, by omega⟩
    have goes : i + 1 < len := by
      rw [UInt16.lt_iff_toNat_lt, step]
      omega
    have next : (i + 2).toNat = i.toNat + 2 := toNat_ahead 2 (by omega)
    have step' : (i + 2 + 1).toNat = (i + 2).toNat + 1 := toNat_ahead 1 (by omega)
    rw [sumWords, if_pos goes, addCarry_plus]
    have rest := ih fuel (i + 2) (plus sum (get16 data i.toNat))
      (n + (get16 data i.toNat).toNat) (by omega)
      (by omega) (by omega) (by omega) (sums.plus (Sums.word _)) step'
    refine ⟨by rw [rest.1, next]; omega, ?_⟩
    rw [show 2 * (pairs + 1) = 2 * pairs + 2 by omega, bytesAt_more, wordSum, ← get16_toNat,
      ← next, ← Nat.add_assoc]
    exact rest.2

/-- `sum16` is a ones' complement sum of the words. -/
theorem sum16_sums (data : List UInt8) (len : UInt16) : Sums (sum16 data len)
    (wordSum (bytesAt data 0 len.toNat)) := by
  have below := len.toNat_lt
  have loop := sumWords_sums data len (len.toNat / 2) len.toNat 0 0 0 (by omega) rfl
    (by rw [UInt16.toNat_zero]; omega) (by rw [UInt16.toNat_zero]; omega) Sums.nothing
  simp only [UInt16.toNat_zero, Nat.zero_add] at loop
  unfold sum16
  generalize sumWords data len len.toNat 0 0 = out at loop
  obtain ⟨i, sum⟩ := out
  obtain ⟨here, sums⟩ := loop
  dsimp only at here sums ⊢
  by_cases odd : i < len
  · rw [if_pos odd, addCarry_plus]
    rw [UInt16.lt_iff_toNat_lt] at odd
    have whole : (bytesAt data 0 (2 * (len.toNat / 2))).length % 2 = 0 := by
      rw [bytesAt_length]
      omega
    have value : ((byteAt data i.toNat).toUInt16 <<< 8).toNat = (byteAt data i.toNat).toNat * 256 := by
      rw [high_toNat]
      omega
    rw [show len.toNat = 2 * (len.toNat / 2) + 1 by omega, bytesAt_last,
      wordSum_append whole, Nat.zero_add,
      ← here, wordSum, ← value, here]
    exact sums.plus (Sums.word _)
  · rw [if_neg odd]
    rw [UInt16.lt_iff_toNat_lt] at odd
    rwa [show len.toNat = 2 * (len.toNat / 2) by omega]

/-! ## Filling in and verifying -/

/-- The bytes a checksum covers add up to a multiple of `2^16 - 1`, and are not
all zero. -/
def Verifies (n : Nat) : Prop := n % 65535 = 0 ∧ n ≠ 0

theorem checksumValid_iff (data : List UInt8) (len : UInt16) :
    mnChecksumValid data len = true ↔ Verifies (wordSum (bytesAt data 0 len.toNat)) := by
  rw [mnChecksumValid, beq_iff_eq]
  exact (sum16_sums data len).complement_zero

/-- What a pseudo-header adds. -/
def pseudoSum (src dst : Ip4) (proto : UInt8) (len : UInt16) : Nat :=
  wordSum (src.bytes ++ dst.bytes ++ [0, proto] ++ put16 len)

theorem pseudo_sums (src dst : Ip4) (proto : UInt8) (data : List UInt8) (len : UInt16) :
    ∃ s, mnChecksumPseudo src dst proto data len = ~~~ s ∧
      Sums s (wordSum (bytesAt data 0 len.toNat) + pseudoSum src dst proto len) :=
  ⟨_, rfl, (sum16_sums data len).plus (sum16_sums _ 12)⟩

theorem pseudo_zero_iff (src dst : Ip4) (proto : UInt8) (data : List UInt8) (len : UInt16) :
    mnChecksumPseudo src dst proto data len = 0 ↔
      Verifies (wordSum (bytesAt data 0 len.toNat) + pseudoSum src dst proto len) := by
  obtain ⟨s, same, sums⟩ := pseudo_sums src dst proto data len
  rw [same]
  exact sums.complement_zero

/-- A two-byte field at an even offset. -/
theorem wordSum_field (front : List UInt8) (even : front.length % 2 = 0) (v : UInt16)
    (back : List UInt8) :
    wordSum (front ++ (put16 v ++ back)) = wordSum front + (v.toNat + wordSum back) := by
  rw [wordSum_append even]
  exact congrArg (wordSum front + ·) (wordSum_bytes v back)

/-- What is blank but for the field, then filled in with its checksum, balances. -/
theorem checksum_balances {blank : List UInt8} {len : UInt16}
    (whole : blank.length = len.toNat) {filled : Nat}
    (fills : filled = wordSum blank + (mnChecksum blank len).toNat) : Verifies filled := by
  have sums := sum16_sums blank len
  rw [bytesAt_take blank (by omega), List.take_of_length_le (by omega)] at sums
  rw [fills]
  exact sums.with_complement

theorem pseudo_balances {blank : List UInt8} {len : UInt16}
    (whole : blank.length = len.toNat) (src dst : Ip4)
    (proto : UInt8) {filled : Nat}
    (fills : filled = wordSum blank + (mnChecksumPseudo src dst proto blank len).toNat) :
    Verifies (filled + pseudoSum src dst proto len) := by
  obtain ⟨s, same, sums⟩ := pseudo_sums src dst proto blank len
  rw [bytesAt_take blank (by omega), List.take_of_length_le (by omega)] at sums
  rw [fills, same, Nat.add_right_comm]
  exact sums.with_complement

end MegaNet.Checksums
