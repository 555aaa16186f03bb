import MegaNet.UdpDelivery

/-! Fragments. The stack reads neither the More Fragments flag nor the fragment
offset: a fragment is to it the whole packet that has the same other fields. -/
namespace MegaNet.Fragments
open MegaNet.Core OnesComplement Checksums UdpOutcomes UdpSockets UdpMailboxes UdpDelivery Transmissions

variable {m ip : List UInt8} {o k : Nat} {v : UInt16}

/-! ## A field written over -/

private theorem overwrite16_length : (overwrite16 m o v).length = m.length := by simp [overwrite16]

private theorem byteAt_overwrite16 (elsewhere : k ≠ o ∧ k ≠ o + 1) : byteAt
    (overwrite16 m o v) k = byteAt m k := by
  simp [byteAt, overwrite16, elsewhere.1.symm, elsewhere.2.symm]

private theorem get16_overwrite16 (apart : k + 1 < o ∨ o + 1 < k) : get16
    (overwrite16 m o v) k = get16 m k := by
  rw [get16, get16, byteAt_overwrite16 (by omega), byteAt_overwrite16 (by omega)]

private theorem get16_cleared : get16 (overwrite16 m o 0) o = 0 := by
  have high : byteAt (overwrite16 m o 0) o = 0 := by
    rw [byteAt, overwrite16, List.getD_eq_getElem?_getD, List.getElem?_set_ne (by omega),
      List.getElem?_set, if_pos rfl]
    split <;> rfl
  have low : byteAt (overwrite16 m o 0) (o + 1) = 0 := by
    rw [byteAt, overwrite16, List.getD_eq_getElem?_getD, List.getElem?_set, if_pos rfl]
    split <;> rfl
  rw [get16, high, low]
  rfl

private theorem drop_overwrite16 (past : o + 2 ≤ k) : (overwrite16 m o v).drop k = m.drop k := by
  rw [overwrite16, List.drop_set_of_lt (by omega), List.drop_set_of_lt (by omega)]

private theorem drop_before_overwrite16 (before : k ≤ o) : (overwrite16 m o v).drop k = overwrite16
    (m.drop k) (o - k) v := by
  rw [overwrite16, overwrite16, List.drop_set, if_neg (by omega), List.drop_set, if_neg (by omega)]
  congr 1
  omega

private theorem take_overwrite16 : (overwrite16 m o v).take k = overwrite16 (m.take k) o v := by
  rw [overwrite16, overwrite16, List.take_set, List.take_set]

private theorem byteAt_drop : byteAt (m.drop k) o = byteAt m (k + o) := by simp [byteAt]

private theorem get16_take (inside : o + 1 < k) : get16 (m.take k) o = get16 m o := by
  simp only [get16, byteAt, List.getD_eq_getElem?_getD, List.getElem?_take]
  rw [if_pos (by omega), if_pos (by omega)]

/-- What writing a word over does to the sum of the words. -/
theorem wordSum_overwrite16 (even : o % 2 = 0) (inside : o + 2 ≤ m.length) :
    wordSum (overwrite16 m o v) + (get16 m o).toNat = wordSum m + v.toNat := by
  obtain ⟨front, high, low, rest, rfl, rfl⟩ : ∃ front high low rest, m = front ++ high :: low :: rest ∧
      front.length = o := by
    refine ⟨m.take o, m[o], m[o + 1], m.drop (o + 2), ?_, List.length_take_of_le (by omega)⟩
    rw [List.getElem_cons_drop, List.getElem_cons_drop, List.take_append_drop]
  have written : overwrite16 (front ++ high :: low :: rest) front.length v =
      front ++ (v >>> 8).toUInt8 :: v.toUInt8 :: rest := by
    simp [overwrite16]
  have read : (get16 (front ++ high :: low :: rest) front.length).toNat =
      high.toNat * 256 + low.toNat := by
    rw [get16_toNat]
    simp [byteAt]
  rw [written, read, wordSum_append even, wordSum_append even, wordSum_bytes, wordSum]
  omega

private theorem get16_le_wordSum (even : o % 2 = 0) (inside : o + 2 ≤ m.length) :
    (get16 m o).toNat ≤ wordSum m := by
  have cleared := wordSum_overwrite16 (v := 0) even inside
  rw [UInt16.toNat_zero] at cleared
  omega

/-! ## The whole packet a fragment passes for -/

/-- More Fragments is set, or the offset is not zero. -/
def IsFragment (ip : List UInt8) : Prop := get16 ip 6 &&& 0x3fff ≠ 0

instance (ip : List UInt8) : Decidable (IsFragment ip) := inferInstanceAs (Decidable (_ ≠ _))

/-- The packet with the word of the fragment fields cleared and the header
checksum made up for it. -/
def unfragmented (ip : List UInt8) : List UInt8 :=
  overwrite16 (overwrite16 ip 6 0) 10 (plus (get16 ip 10) (get16 ip 6))

/-- The frame with its packet unfragmented. -/
def whole (f : RxFrame) : RxFrame where
  bytes := overwrite16 (overwrite16 f.bytes 20 0) 24 (plus (get16 f.bytes 24) (get16 f.bytes 20))
  fits := by
    rw [overwrite16_length, overwrite16_length]
    exact f.fits

private theorem whole_len (f : RxFrame) : (whole f).len = f.len := by
  simp only [RxFrame.len, whole, overwrite16_length]

private theorem whole_packet (f : RxFrame) : (whole f).bytes.drop 14 = unfragmented
    (f.bytes.drop 14) := by
  simp only [whole, unfragmented]
  rw [drop_before_overwrite16 (by omega), drop_before_overwrite16 (by omega)]
  simp only [get16, byteAt_drop]

private theorem whole_byte (f : RxFrame) (front : k < 20) : byteAt (whole f).bytes k =
    byteAt f.bytes k := by
  rw [whole, byteAt_overwrite16 (by omega), byteAt_overwrite16 (by omega)]

private theorem unfragmented_byte (elsewhere : k ≠ 6 ∧ k ≠ 7 ∧ k ≠ 10 ∧ k ≠ 11) :
    byteAt (unfragmented ip) k = byteAt ip k := by
  rw [unfragmented, byteAt_overwrite16 (by omega), byteAt_overwrite16 (by omega)]

private theorem unfragmented_is_not (ip : List UInt8) : ¬ IsFragment (unfragmented ip) := by
  have cleared : get16 (unfragmented ip) 6 = 0 := by
    rw [unfragmented, get16_overwrite16 (by omega), get16_cleared]
  rw [IsFragment, cleared]
  decide

private theorem unfragmented_hdrLen : mnIpv4HdrLen (unfragmented ip) = mnIpv4HdrLen ip := by
  rw [mnIpv4HdrLen, unfragmented_byte (by decide), mnIpv4HdrLen]

private theorem unfragmented_totalLen : mnIpv4TotalLen (unfragmented ip) = mnIpv4TotalLen ip := by
  simp only [mnIpv4TotalLen, get16]
  rw [unfragmented_byte (by decide), unfragmented_byte (by decide)]

private theorem unfragmented_payloadLen : mnIpv4PayloadLen (unfragmented ip) = mnIpv4PayloadLen ip := by
  rw [mnIpv4PayloadLen, mnIpv4PayloadLen, unfragmented_totalLen, unfragmented_hdrLen]

private theorem unfragmented_proto : mnIpv4Proto (unfragmented ip) = mnIpv4Proto ip :=
  unfragmented_byte (by decide)

private theorem unfragmented_id : get16 (unfragmented ip) 4 = get16 ip 4 := by
  simp only [get16]
  rw [unfragmented_byte (by decide), unfragmented_byte (by decide)]

private theorem unfragmented_ipAt (behind : 12 ≤ k) : ipAt (unfragmented ip) k = ipAt ip k := by
  simp only [ipAt]
  rw [unfragmented_byte (by omega), unfragmented_byte (by omega), unfragmented_byte (by omega),
    unfragmented_byte (by omega)]

private theorem unfragmented_src : mnIpv4Src (unfragmented ip) = mnIpv4Src ip :=
  unfragmented_ipAt (by decide)

private theorem unfragmented_dst : mnIpv4Dst (unfragmented ip) = mnIpv4Dst ip :=
  unfragmented_ipAt (by decide)

private theorem unfragmented_payload (header : ¬ mnIpv4HdrLen ip < 20) :
    mnIpv4Payload (unfragmented ip) =
    mnIpv4Payload ip := by
  rw [UInt8.lt_iff_toNat_lt, show UInt8.toNat 20 = 20 from rfl] at header
  rw [mnIpv4Payload, unfragmented_hdrLen, unfragmented, drop_overwrite16 (by omega),
    drop_overwrite16 (by omega)]
  rfl

/-- Both headers verify, or neither. -/
theorem unfragmented_verifies {len : UInt16} (header : 20 ≤ len.toNat) (inside : len.toNat ≤ ip.length) :
    mnChecksumValid (unfragmented ip) len = mnChecksumValid ip len := by
  have inside' : len.toNat ≤ (unfragmented ip).length := by
    rw [unfragmented, overwrite16_length, overwrite16_length]
    exact inside
  rw [Bool.eq_iff_iff, checksumValid_iff, checksumValid_iff, bytesAt_take _ inside,
    bytesAt_take _ inside',
    unfragmented, take_overwrite16, take_overwrite16]
  have size : (ip.take len.toNat).length = len.toNat := List.length_take_of_le inside
  have flags : get16 (ip.take len.toNat) 6 = get16 ip 6 := get16_take (by omega)
  have csum : get16 (ip.take len.toNat) 10 = get16 ip 10 := get16_take (by omega)
  generalize ip.take len.toNat = m at size flags csum
  rw [← flags, ← csum]
  have first : wordSum (overwrite16 m 6 0) + (get16 m 6).toNat = wordSum m + UInt16.toNat 0 :=
    wordSum_overwrite16 rfl (by omega)
  have second : wordSum (overwrite16 (overwrite16 m 6 0) 10 (plus (get16 m 10) (get16 m 6))) +
    (get16 m 10).toNat =
      wordSum (overwrite16 m 6 0) + (plus (get16 m 10) (get16 m 6)).toNat := by
    have step := @wordSum_overwrite16 (overwrite16 m 6 0) 10 (plus (get16 m 10) (get16 m 6)) rfl (by
      rw [overwrite16_length]
      omega)
    rwa [get16_overwrite16 (by omega)] at step
  have carried := plus_toNat (get16 m 10) (get16 m 6)
  have within : (get16 m 10).toNat ≤ wordSum (overwrite16 m 6 0) := by
    rw [← @get16_overwrite16 m 6 10 0 (by omega)]
    exact get16_le_wordSum rfl (by rw [overwrite16_length]; omega)
  rw [UInt16.toNat_zero] at first
  unfold Verifies
  split at carried <;> omega

private theorem unfragmented_valid {len : UInt16} (inside : len.toNat ≤ ip.length) :
    mnIpv4Valid (unfragmented ip) len = mnIpv4Valid ip len := by
  unfold mnIpv4Valid
  rw [unfragmented_byte (by decide), unfragmented_hdrLen, unfragmented_totalLen]
  by_cases header : mnIpv4HdrLen ip < 20 ∨ (mnIpv4HdrLen ip).toUInt16 > len
  · have short : (mnIpv4HdrLen ip < 20 || (mnIpv4HdrLen ip).toUInt16 > len : Bool) = true := by
      simpa using header
    simp only [short, Bool.not_true, Bool.and_false, Bool.false_and]
  · rw [not_or, UInt8.lt_iff_toNat_lt, show UInt8.toNat 20 = 20 from rfl, gt_iff_lt,
      UInt16.lt_iff_toNat_lt,
      UInt8.toNat_toUInt16] at header
    rw [unfragmented_verifies] <;> rw [UInt8.toNat_toUInt16] <;> omega

/-! ## What a fragment does -/

section
variable {st : Stack} {f : RxFrame}

private theorem whole_forUs (mac : Mac) : mnEtherIsForUs (whole f).bytes mac =
    mnEtherIsForUs f.bytes mac := by
  simp only [mnEtherIsForUs, macAt]
  repeat rw [whole_byte f (by omega)]

private theorem whole_type : mnEtherType (whole f).bytes = mnEtherType f.bytes := by
  simp only [mnEtherType, get16]
  rw [whole_byte f (by omega), whole_byte f (by omega)]

private theorem header_long {len : UInt16} (valid : mnIpv4Valid ip len = true) :
    ¬ mnIpv4HdrLen ip < 20 := by
  simp only [mnIpv4Valid, Bool.and_eq_true, Bool.not_eq_true', Bool.or_eq_false_iff,
    decide_eq_false_iff_not] at valid
  exact valid.1.1.2.1

private theorem whole_asked (net : MnNetFull) (long : ¬ f.len < 34)
    (valid : mnIpv4Valid (f.bytes.drop 14) (f.len - 14) = true) :
    mnIcmpIsEchoRequest (whole f).bytes f.len net.ip = mnIcmpIsEchoRequest f.bytes f.len net.ip := by
  unfold mnIcmpIsEchoRequest
  simp only [whole_packet, whole_type, unfragmented_valid (packet_inside long),
    unfragmented_proto, unfragmented_dst,
    unfragmented_payload (header_long valid), unfragmented_payloadLen]

private theorem whole_echoReply (net : MnNetFull)
    (valid : mnIpv4Valid (f.bytes.drop 14) (f.len - 14) = true) :
    echoReply net (whole f).bytes = echoReply net f.bytes := by
  have sender : macAt (whole f).bytes 6 = macAt f.bytes 6 := by
    simp only [macAt]
    repeat rw [whole_byte f (by omega)]
  simp only [echoReply, sender, whole_packet, unfragmented_src, unfragmented_id,
    unfragmented_payload (header_long valid), unfragmented_payloadLen]

private theorem unfragmented_deliverUdp (net : MnNetFull) (x : XMem) (header : ¬ mnIpv4HdrLen ip < 20) :
    deliverUdp net x (unfragmented ip) = deliverUdp net x ip := by
  unfold deliverUdp
  rw [unfragmented_payload header, unfragmented_src, unfragmented_dst, unfragmented_payloadLen]

private theorem unfragmented_tcpInput (st : Stack) (header : ¬ mnIpv4HdrLen ip < 20) :
    st.tcpInput (unfragmented ip) = st.tcpInput ip := by
  unfold Stack.tcpInput tcpAccepts
  rw [unfragmented_payload header, unfragmented_src, unfragmented_dst, unfragmented_payloadLen]

private theorem whole_ipInput (st : Stack) (f : RxFrame) : st.ipInput (whole f).bytes f.len =
    st.ipInput f.bytes f.len := by
  unfold Stack.ipInput
  by_cases long : f.len < 34
  · simp [long]
  · have accepts : ipAccepts st.net (unfragmented (f.bytes.drop 14)) = ipAccepts st.net
      (f.bytes.drop 14) := by
      rw [ipAccepts, unfragmented_dst, ipAccepts]
    simp only [whole_packet, unfragmented_valid (packet_inside long), accepts, unfragmented_proto]
    by_cases valid : mnIpv4Valid (f.bytes.drop 14) (f.len - 14) = true
    · rw [whole_asked st.net long valid, whole_echoReply st.net valid,
        unfragmented_deliverUdp _ _ (header_long valid),
        unfragmented_tcpInput _ (header_long valid)]
    · simp [valid]

/-- What no transport passes is counted, and nothing else is done about it. -/
theorem poll_untransported (type : mnEtherType f.bytes = MN_ETHERTYPE_IPV4)
    (nothing : ¬ Transported (f.bytes.drop 14)) : mnNetPoll st (some f) =
    { st with net := counted st.net } := by
  have notArp : ¬ mnEtherType f.bytes = MN_ETHERTYPE_ARP := by rw [type]; decide
  unfold mnNetPoll
  dsimp only
  rw [if_neg notArp, if_pos type]
  split
  · rfl
  unfold Stack.ipInput
  dsimp only
  split
  · rfl
  split
  · rename_i icmp
    split
    · rename_i asked
      simp only [mnIcmpIsEchoRequest, Bool.and_eq_true] at asked
      exact absurd (.icmp icmp asked.2) nothing
    · rfl
  split
  · rename_i udp
    have invalid : validUdp (f.bytes.drop 14) = false := by
      rw [Bool.eq_false_iff]
      exact fun valid => nothing (.udp udp valid)
    rw [validUdp] at invalid
    simp only [deliverUdp, invalid, Bool.not_false, if_true]
    rfl
  split
  · rename_i tcp
    have refused : tcpAccepts (f.bytes.drop 14) = false := by
      rw [Bool.eq_false_iff]
      exact fun accepted => nothing (.tcp tcp accepted)
    simp only [Stack.tcpInput, refused]
    cases st.tcp <;> rfl
  · rfl

/-- A fragment does what the whole packet does, and nothing at all unless the
bytes behind its header pass the checks of a transport. -/
theorem fragment_as_whole (st : Stack) (f : RxFrame) (type : mnEtherType f.bytes = MN_ETHERTYPE_IPV4) :
    ¬ IsFragment ((whole f).bytes.drop 14) ∧ mnNetPoll st (some f) = mnNetPoll st (some (whole f)) ∧
      (¬ Transported (f.bytes.drop 14) → mnNetPoll st (some f) = { st with net := counted st.net }) := by
  refine ⟨?_, ?_, poll_untransported type⟩
  · rw [whole_packet]
    exact unfragmented_is_not _
  · simp only [mnNetPoll, whole_len, whole_forUs, whole_type, type, whole_ipInput]
    rfl

end

/-- A fragment from the middle of a packet, whose bytes happen to be a datagram. -/
def middle : RxFrame where
  bytes :=
    [2, 0, 0, 0, 0, 1, 2, 0, 0, 0, 0, 2, 0x08, 0x00] ++
    [0x45, 0, 0, 29, 0, 0, 0x20, 0x01, 64, 17, 0x46, 0xcd, 10, 0, 0, 2, 10, 0, 0, 1] ++
    [0x03, 0xe8, 0x07, 0xd0, 0, 9, 0, 0, 7]
  fits := by simp

theorem fragment_as_whole_middle :
    ¬ IsFragment ((whole middle).bytes.drop 14) ∧
      mnNetPoll listening (some middle) = mnNetPoll listening (some (whole middle)) ∧
      (¬ Transported (middle.bytes.drop 14) →
        mnNetPoll listening (some middle) = { listening with net := counted listening.net }) :=
  fragment_as_whole listening middle rfl

/-- It is delivered, in a stack that can be. -/
theorem middle_delivered :
    Life listening ∧ IsFragment (middle.bytes.drop 14) ∧ (listening.net.sock 0).pending = false ∧
      ((mnNetPoll listening (some middle)).net.sock 0).pending = true ∧
      (mnNetUdpRecv (mnNetPoll listening (some middle)).net
        (mnNetPoll listening (some middle)).x 0 100).1.map (·.data) =
        some [7] :=
  ⟨listening_life, by decide, by decide, by decide +kernel, by decide +kernel⟩

end MegaNet.Fragments
