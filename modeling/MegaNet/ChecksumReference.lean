import MegaNet.ReadBounds

/-! `sum16` against the sum RFC 1071 describes, over blocks of every length: the
words added up in 32 bits and the carries folded in; and what a checksum is good
for, that no single changed byte goes unnoticed. -/
namespace MegaNet.ChecksumReference
open MegaNet.Core Checksums OnesComplement ReadBounds Words

variable {data : List UInt8}

/-- Of a whole block, `sum16` is a ones' complement sum of the words. -/
theorem whole_sums (short : data.length ≤ 65535) : Sums (sum16 data (UInt16.ofNat data.length))
    (wordSum data) := by
  have sums := sum16_sums data (UInt16.ofNat data.length)
  rw [len_toNat short, bytesAt_take data (Nat.le_refl _), List.take_length] at sums
  exact sums

/-- It is the 32-bit sum with its carries folded in. -/
theorem sum16_fold (short : data.length ≤ 65535) : sum16 data (UInt16.ofNat data.length) =
    fold (sum32 0 data) :=
  (whole_sums short).unique (fold_sum32 (by omega))

/-- Zero only for zeros, and else the remainder as a number from 1 on. -/
theorem sum16_remainder (short : data.length ≤ 65535) :
    ((∀ b ∈ data, b = 0) → sum16 data (UInt16.ofNat data.length) = 0) ∧
      ((∃ b ∈ data, b ≠ 0) → 1 ≤ (sum16 data (UInt16.ofNat data.length)).toNat ∧
        (sum16 data (UInt16.ofNat data.length)).toNat ≤ 65535 ∧
        (sum16 data (UInt16.ofNat data.length)).toNat % 65535 = wordSum data % 65535) := by
  have sums := whole_sums short
  constructor
  · exact fun zeros => sums.zero.mpr (wordSum_eq_zero.mpr zeros)
  · rintro ⟨b, member, more⟩
    have some_ : sum16 data (UInt16.ofNat data.length) ≠ 0 := fun zero =>
      more (wordSum_eq_zero.mp (sums.zero.mp zero) b member)
    have below := (sum16 data (UInt16.ofNat data.length)).toNat_lt
    refine ⟨Nat.pos_of_ne_zero fun zero => some_ (toNat_eq_zero.mp zero), by omega, sums.mod⟩

/-! ## The pseudo-header -/

/-- The bytes that stand before a segment for its checksum. -/
def pseudoHeader (src dst : Ip4) (proto : UInt8) (len : UInt16) : List UInt8 :=
  src.bytes ++ dst.bytes ++ [0, proto] ++ put16 len

private theorem pseudoHeader_length (src dst : Ip4) (proto : UInt8) (len : UInt16) :
    (pseudoHeader src dst proto len).length = 12 := rfl

/-- The checksum with a pseudo-header complements a sum of both. -/
theorem pseudo_whole (src dst : Ip4) (proto : UInt8) (short : data.length ≤ 65535) :
    ∃ s, mnChecksumPseudo src dst proto data (UInt16.ofNat data.length) = ~~~ s ∧
      Sums s (wordSum (pseudoHeader src dst proto (UInt16.ofNat data.length) ++ data)) := by
  obtain ⟨s, same, sums⟩ := pseudo_sums src dst proto data (UInt16.ofNat data.length)
  refine ⟨s, same, ?_⟩
  rw [len_toNat short, bytesAt_take data (Nat.le_refl _), List.take_length, Nat.add_comm] at sums
  have even : (pseudoHeader src dst proto (UInt16.ofNat data.length)).length % 2 = 0 := by
    rw [pseudoHeader_length]
  rw [wordSum_append even]
  exact sums

private theorem pseudo_fold (src dst : Ip4) (proto : UInt8) (short : data.length ≤ 65535) :
    mnChecksumPseudo src dst proto data (UInt16.ofNat data.length) =
      ~~~ fold (sum32 0 (pseudoHeader src dst proto (UInt16.ofNat data.length) ++ data)) := by
  obtain ⟨s, same, sums⟩ := pseudo_whole src dst proto short
  rw [same, sums.unique (fold_sum32 _)]
  rw [List.length_append, pseudoHeader_length]
  omega

/-- Where both together have a length, it is the checksum of both together. -/
theorem pseudo_checksum (src dst : Ip4) (proto : UInt8) (short : 12 + data.length ≤ 65535) :
    mnChecksumPseudo src dst proto data (UInt16.ofNat data.length) =
      mnChecksum (pseudoHeader src dst proto (UInt16.ofNat data.length) ++ data)
        (UInt16.ofNat (12 + data.length)) := by
  have length : (pseudoHeader src dst proto (UInt16.ofNat data.length) ++ data).length =
      12 + data.length := by
    rw [List.length_append, pseudoHeader_length]
  rw [pseudo_fold src dst proto (by omega), ← length, mnChecksum, sum16_fold (by omega)]

/-! ## Changed bytes -/

private theorem valid_balances (short : data.length ≤ 65535)
    (valid : mnChecksumValid data (UInt16.ofNat data.length) = true) :
    wordSum data % 65535 = 0 := by
  rw [checksumValid_iff, len_toNat short, bytesAt_take data (Nat.le_refl _), List.take_length] at valid
  exact valid.1

/-- A valid block with one byte changed is not valid. -/
theorem one_byte_rejected {i : Nat} {b : UInt8} (short : data.length ≤ 65535) (inside : i < data.length)
    (other : b ≠ data[i]) (valid : mnChecksumValid data (UInt16.ofNat data.length) = true) :
    mnChecksumValid (data.set i b) (UInt16.ofNat data.length) = false := by
  rw [← Bool.not_eq_true]
  intro again
  have same : (data.set i b).length = data.length := List.length_set
  rw [← same] at again
  have balances := valid_balances (by rwa [same]) again
  exact one_byte_unbalances inside other (valid_balances short valid) balances

/-- `sum16` ends on every block of up to 65535 bytes and reads nothing outside,
and it is the RFC 1071 sum of the block; the checksum with a pseudo-header is the
checksum of both in a row; and one changed byte makes a valid block invalid. -/
theorem checksum_rfc1071 (data : List UInt8) (short : data.length ≤ 65535) :
    sum16? data (UInt16.ofNat data.length) = some (sum16 data (UInt16.ofNat data.length)) ∧
      ((∀ b ∈ data, b = 0) → sum16 data (UInt16.ofNat data.length) = 0) ∧
      ((∃ b ∈ data, b ≠ 0) → 1 ≤ (sum16 data (UInt16.ofNat data.length)).toNat ∧
        (sum16 data (UInt16.ofNat data.length)).toNat ≤ 65535 ∧
        (sum16 data (UInt16.ofNat data.length)).toNat % 65535 = wordSum data % 65535) ∧
      sum16 data (UInt16.ofNat data.length) = fold (sum32 0 data) ∧
      (∀ src dst proto,
        mnChecksumPseudo src dst proto data (UInt16.ofNat data.length) =
          ~~~ fold (sum32 0 (pseudoHeader src dst proto (UInt16.ofNat data.length) ++ data)) ∧
        (12 + data.length ≤ 65535 → mnChecksumPseudo src dst proto data (UInt16.ofNat data.length) =
          mnChecksum (pseudoHeader src dst proto (UInt16.ofNat data.length) ++ data)
            (UInt16.ofNat (12 + data.length)))) ∧
      ∀ i b, (inside : i < data.length) → b ≠ data[i] →
        mnChecksumValid data (UInt16.ofNat data.length) = true →
        mnChecksumValid (data.set i b) (UInt16.ofNat data.length) = false := by
  obtain ⟨zeros, some_⟩ := sum16_remainder short
  refine ⟨sum16?_inside (Nat.le_of_eq (len_toNat short)), zeros, some_, sum16_fold short,
    fun src dst proto =>
    ⟨pseudo_fold src dst proto short, pseudo_checksum src dst proto⟩, fun i b inside other valid =>
    one_byte_rejected short inside other valid⟩

/-- The worked example of the RFC, its checksum behind it, and one byte of it
changed. -/
theorem checksum_rfc1071_example :
    sum16 [0x00, 0x01, 0xf2, 0x03, 0xf4, 0xf5, 0xf6, 0xf7] 8 = 0xddf2 ∧
      sum16 [0x00, 0x01, 0xf2, 0x03, 0xf4, 0xf5, 0xf6, 0xf7] 8 =
        fold (sum32 0 [0x00, 0x01, 0xf2, 0x03, 0xf4, 0xf5, 0xf6, 0xf7]) ∧
      mnChecksumValid [0x00, 0x01, 0xf2, 0x03, 0xf4, 0xf5, 0xf6, 0xf7, 0x22, 0x0e] 10 = false := by
  obtain ⟨_, _, _, same, _⟩ :=
    checksum_rfc1071 [0x00, 0x01, 0xf2, 0x03, 0xf4, 0xf5, 0xf6, 0xf7] (by decide)
  obtain ⟨_, _, _, _, _, rejects⟩ :=
    checksum_rfc1071 [0x00, 0x01, 0xf2, 0x03, 0xf4, 0xf5, 0xf6, 0xf7, 0x22, 0x0d] (by decide)
  exact ⟨by decide +kernel, same, rejects 9 0x0e (by decide) (by decide) (by decide +kernel)⟩

end MegaNet.ChecksumReference
