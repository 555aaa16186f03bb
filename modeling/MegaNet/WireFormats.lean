import MegaNet.Checksums

/-! Every builder agrees with its validator: what a receiver's checks and field
reads make of a frame the stack built, also with bytes added at its end. -/
namespace MegaNet.WireFormats
open MegaNet.Core OnesComplement Checksums

variable {src dst : Ip4} {proto : UInt8} {id csum len : UInt16} {payload pad rest : List UInt8}

/-! ## Ethernet and IPv4 -/

private theorem ipv4Header_length : (ipv4Header src dst proto len id csum).length = 20 := rfl

theorem ipv4_hdrLen : mnIpv4HdrLen (mnIpv4Build src dst proto len id ++ rest) = 20 := by
  have first : byteAt (mnIpv4Build src dst proto len id ++ rest) 0 = 0x45 := rfl
  rw [mnIpv4HdrLen, first]
  decide

theorem ipv4_totalLen : mnIpv4TotalLen (mnIpv4Build src dst proto len id ++ rest) = 20 + len :=
  get16_put16 (20 + len) []

theorem ipv4_src : mnIpv4Src (mnIpv4Build src dst proto len id ++ rest) = src := rfl

theorem ipv4_dst : mnIpv4Dst (mnIpv4Build src dst proto len id ++ rest) = dst := rfl

theorem ipv4_payload : mnIpv4Payload (mnIpv4Build src dst proto len id ++ rest) = rest := by
  rw [mnIpv4Payload, ipv4_hdrLen]
  exact List.drop_left' ipv4Header_length

theorem ipv4_payloadLen : mnIpv4PayloadLen (mnIpv4Build src dst proto len id ++ rest) = len := by
  rw [mnIpv4PayloadLen, ipv4_totalLen, ipv4_hdrLen, show UInt8.toUInt16 20 = 20 from rfl]
  grind

private theorem ipv4Header_sum (csum : UInt16) :
    wordSum (ipv4Header src dst proto len id csum) = wordSum
      (ipv4Header src dst proto len id 0) + csum.toNat := by
  have filled : ∀ c, wordSum (ipv4Header src dst proto len id c) = _ := fun c =>
    wordSum_field ([0x45, 0] ++ put16 (20 + len) ++ put16 id ++ put16 0x4000 ++ [64, proto])
      (by simp [put16]) c
      (src.bytes ++ dst.bytes)
  rw [filled, filled, UInt16.toNat_zero]
  omega

private theorem ipv4_verifies : mnChecksumValid (mnIpv4Build src dst proto len id ++ rest) 20 =
    true := by
  have header : bytesAt (mnIpv4Build src dst proto len id ++ rest) 0 20 =
    mnIpv4Build src dst proto len id := rfl
  rw [checksumValid_iff, show UInt16.toNat 20 = 20 from rfl, header]
  exact checksum_balances (show (ipv4Header src dst proto len id 0).length = _ from rfl)
    (ipv4Header_sum _)

/-- A built header is valid wherever the packet is there in full. -/
theorem ipv4_valid {available : UInt16} (whole : 20 + len.toNat ≤ available.toNat) :
    mnIpv4Valid (mnIpv4Build src dst proto len id ++ rest) available = true := by
  have below := available.toNat_lt
  have version : byteAt (mnIpv4Build src dst proto len id ++ rest) 0 >>> 4 = 4 := by
    rw [show byteAt (mnIpv4Build src dst proto len id ++ rest) 0 = 0x45 from rfl]
    decide
  have total : (20 + len).toNat = 20 + len.toNat := by
    rw [UInt16.toNat_add, show UInt16.toNat 20 = 20 from rfl]
    omega
  simp only [mnIpv4Valid, ipv4_hdrLen, ipv4_totalLen, version,
    show UInt8.toUInt16 20 = 20 from rfl, ipv4_verifies,
    UInt16.lt_iff_toNat_lt, total, show UInt16.toNat 20 = 20 from rfl, gt_iff_lt]
  simp
  omega

/-! ## UDP -/

section
variable {sport dport : UInt16}

theorem udp_sport : mnUdpSport (mnUdpBuild src dst sport dport payload ++ pad) = sport :=
  get16_put16 sport []

theorem udp_dport : mnUdpDport (mnUdpBuild src dst sport dport payload ++ pad) = dport :=
  get16_put16 dport []

theorem udpHeader_length : (udpHeader sport dport len csum).length = 8 := rfl

theorem udpBuild_length : (mnUdpBuild src dst sport dport payload).length = 8 + payload.length := by
  simp only [mnUdpBuild, List.length_append, udpHeader_length]

private theorem udp_length (short : 8 + payload.length < 65536) :
    (8 + UInt16.ofNat payload.length).toNat = 8 + payload.length := by
  rw [UInt16.toNat_add, UInt16.toNat_ofNat', show UInt16.toNat 8 = 8 from rfl]
  omega

private theorem udp_sum (csum : UInt16) : wordSum (udpHeader sport dport len csum ++ payload) =
    wordSum (udpHeader sport dport len 0 ++ payload) + csum.toNat := by
  have filled : ∀ c, wordSum (udpHeader sport dport len c ++ payload) = _ := fun c =>
    wordSum_field (put16 sport ++ put16 dport ++ put16 len) (by simp [put16]) c payload
  rw [filled, filled, UInt16.toNat_zero]
  omega

theorem udp_valid (short : 8 + payload.length < 65536) :
    mnUdpValid src dst (mnUdpBuild src dst sport dport payload ++ pad)
      (8 + UInt16.ofNat payload.length) = true := by
  have size := udp_length short
  set len := 8 + UInt16.ofNat payload.length with total
  have built : mnUdpBuild src dst sport dport payload =
      udpHeader sport dport len (udpChecksum src dst sport dport len payload) ++ payload := rfl
  have lengthField : get16 (mnUdpBuild src dst sport dport payload ++ pad) 4 = len := get16_put16 len []
  have checksumField : get16 (mnUdpBuild src dst sport dport payload ++ pad) 6 =
      udpChecksum src dst sport dport len payload := get16_put16 _ []
  have covered : bytesAt (mnUdpBuild src dst sport dport payload ++ pad) 0 len.toNat =
      mnUdpBuild src dst sport dport payload := by
    rw [bytesAt_take _ (by rw [List.length_append, udpBuild_length]; omega), List.take_left']
    rw [udpBuild_length, size]
  have verifies : mnChecksumPseudo src dst MN_IPPROTO_UDP
      (mnUdpBuild src dst sport dport payload ++ pad) len = 0 := by
    rw [pseudo_zero_iff, covered, built, udp_sum]
    have whole : (udpHeader sport dport len 0 ++ payload).length = len.toNat := by
      rw [List.length_append, udpHeader_length, size]
    have balances := pseudo_balances whole src dst MN_IPPROTO_UDP rfl
    unfold udpChecksum
    dsimp only
    split
    · -- 0 and `0xffff` are the same modulo `2^16 - 1`.
      rename_i zero
      rw [zero] at balances
      simp only [Verifies, UInt16.toNat_zero, show UInt16.toNat 0xffff = 65535 from rfl] at balances ⊢
      omega
    · exact balances
  have long : ¬ len < 8 := by
    rw [UInt16.lt_iff_toNat_lt, size, show UInt16.toNat 8 = 8 from rfl]
    omega
  simp [mnUdpValid, long, lengthField, verifies]

end

/-! ## TCP -/

section
variable {seg : TcpSeg}

/-- What the stack's own segments are like: options in whole words, and all of
it in one IPv4 packet. -/
structure Regular (seg : TcpSeg) : Prop where
  words : seg.opts.length % 4 = 0
  fits : 40 + seg.opts.length + seg.data.length < 65536

private theorem hlen_toNat (seg : TcpSeg) : seg.hlen.toNat = 20 + seg.opts.length := by
  have short := seg.optsFit
  rw [TcpSeg.hlen, UInt16.toNat_add, UInt16.toNat_ofNat', show UInt16.toNat 20 = 20 from rfl]
  omega

private theorem tcpHeader_length : (tcpHeader seg csum).length = 20 + seg.opts.length := by
  simp [tcpHeader, put16, put32]
  omega

theorem tcpBuild_length : (tcpBuild src dst seg).length = 20 + seg.opts.length + seg.data.length := by
  rw [tcpBuild, List.length_append, tcpHeader_length]

/-- The data offset a receiver takes from the header. -/
theorem tcp_offset (regular : Regular seg) (src dst : Ip4) (pad : List UInt8) :
    (byteAt (tcpBuild src dst seg ++ pad) 12 >>> 4).toNat * 4 = 20 + seg.opts.length := by
  have short := seg.optsFit
  have words := regular.words
  have written : byteAt (tcpBuild src dst seg ++ pad) 12 = ((seg.hlen / 4) <<< 4).toUInt8 := rfl
  have value : ((seg.hlen / 4) <<< 4).toNat = (20 + seg.opts.length) / 4 * 16 := by
    rw [UInt16.toNat_shiftLeft, UInt16.toNat_div, hlen_toNat,
      show UInt16.toNat 4 % 16 = 4 from rfl, Nat.shiftLeft_eq,
      show UInt16.toNat 4 = 4 from rfl]
    omega
  rw [written, UInt8.toNat_shiftRight, UInt16.toNat_toUInt8, value, show UInt8.toNat 4 % 8 = 4 from rfl,
    Nat.shiftRight_eq_div_pow]
  omega

private theorem tcp_sum (csum : UInt16) : wordSum (tcpHeader seg csum ++ seg.data) =
    wordSum (tcpHeader seg 0 ++ seg.data) + csum.toNat := by
  have filled : ∀ c, wordSum (tcpHeader seg c ++ seg.data) = _ := fun c =>
    (congrArg wordSum (by simp only [tcpHeader, List.append_assoc])).trans
    (wordSum_field (put16 seg.sport ++ put16 seg.dport ++ put32 seg.seq ++ put32 seg.ack ++
      [((seg.hlen / 4) <<< 4).toUInt8, seg.flags.byte] ++ put16 seg.wnd) (by simp [put16, put32]) c
        (put16 0 ++ seg.opts ++ seg.data))
  rw [filled, filled, UInt16.toNat_zero]
  omega

private theorem tcp_length (regular : Regular seg) : (seg.hlen + seg.dlen).toNat =
    20 + seg.opts.length + seg.data.length := by
  have fits := regular.fits
  rw [UInt16.toNat_add, hlen_toNat, TcpSeg.dlen, UInt16.toNat_ofNat']
  omega

/-- A segment the stack built passes the tests at the top of `mn_tcp_input`. -/
theorem tcp_accepts (regular : Regular seg) :
    tcpAccepts (mnIpv4Build src dst MN_IPPROTO_TCP (UInt16.ofNat (tcpBuild src dst seg).length) id ++
      (tcpBuild src dst seg ++ pad)) = true := by
  have fits := regular.fits
  have size := tcp_length regular
  have same : UInt16.ofNat (tcpBuild src dst seg).length = seg.hlen + seg.dlen := by
    rw [← UInt16.toNat_inj, size, tcpBuild_length, UInt16.toNat_ofNat']
    omega
  have covered : bytesAt (tcpBuild src dst seg ++ pad) 0 (seg.hlen + seg.dlen).toNat =
      tcpBuild src dst seg := by
    rw [bytesAt_take _ (by rw [List.length_append, tcpBuild_length]; omega), List.take_left']
    rw [tcpBuild_length, size]
  have verifies : mnChecksumPseudo src dst MN_IPPROTO_TCP (tcpBuild src dst seg ++ pad)
      (seg.hlen + seg.dlen) = 0 := by
    rw [pseudo_zero_iff, covered, tcpBuild, tcp_sum]
    refine pseudo_balances ?_ src dst MN_IPPROTO_TCP rfl
    rw [List.length_append, tcpHeader_length, size]
  have offset : (((byteAt (tcpBuild src dst seg ++ pad) 12 >>> 4) * 4).toUInt16).toNat =
      20 + seg.opts.length := by
    have read := tcp_offset regular src dst pad
    have short := seg.optsFit
    rw [UInt8.toNat_toUInt16, UInt8.toNat_mul, show UInt8.toNat 4 = 4 from rfl]
    omega
  simp only [tcpAccepts, ipv4_payload, ipv4_payloadLen, ipv4_src, ipv4_dst, same, verifies,
    UInt16.lt_iff_toNat_lt,
    size, offset, gt_iff_lt, show UInt16.toNat 20 = 20 from rfl]
  simp
  omega

end

/-! ## ICMP -/

theorem echo_length : (echoMessage csum rest).length = 4 + rest.length := by
  simp [echoMessage, put16]
  omega

private theorem echo_sum (csum : UInt16) : wordSum (echoMessage csum rest) = wordSum
    (echoMessage 0 rest) + csum.toNat := by
  have filled : ∀ c, wordSum (echoMessage c rest) = _ := fun c => wordSum_field [0, 0] rfl c rest
  rw [filled, filled, UInt16.toNat_zero]
  omega

theorem echo_verifies (short : 4 + rest.length < 65536) :
    mnChecksumValid
      (echoMessage (mnChecksum (echoMessage 0 rest) (4 + UInt16.ofNat rest.length)) rest ++ pad)
      (4 + UInt16.ofNat rest.length) = true := by
  have size : (4 + UInt16.ofNat rest.length).toNat = 4 + rest.length := by
    rw [UInt16.toNat_add, UInt16.toNat_ofNat', show UInt16.toNat 4 = 4 from rfl]
    omega
  rw [checksumValid_iff, bytesAt_take _ (by rw [List.length_append, echo_length]; omega),
    List.take_left']
  · refine checksum_balances ?_ (echo_sum _)
    rw [echo_length, size]
  · rw [echo_length, size]

/-! ## Whole frames -/

section
variable {dstMac srcMac : Mac}

theorem frame_length : (ipv4Frame dstMac srcMac src dst proto id payload).length =
    34 + payload.length := by
  simp only [ipv4Frame, mnIpv4Build, List.length_append, ipv4Header_length]
  rfl

theorem frame_type : mnEtherType (ipv4Frame dstMac srcMac src dst proto id payload ++ pad) =
    MN_ETHERTYPE_IPV4 :=
  get16_put16 MN_ETHERTYPE_IPV4 []

end

/-- An ARP frame is recognised for what it is. -/
theorem arp_opcode (dst src sha tha : Mac) (spa tpa : Ip4) (oper : UInt16) :
    mnArpOpcode (mnEtherBuild dst src MN_ETHERTYPE_ARP ++ fixedHeader oper ++
      arpAddresses sha spa tha tpa) 42 =
      oper := by
  generalize frame : mnEtherBuild dst src MN_ETHERTYPE_ARP ++ fixedHeader oper ++
    arpAddresses sha spa tha tpa = m
  have type : mnEtherType m = MN_ETHERTYPE_ARP := frame ▸ get16_put16 MN_ETHERTYPE_ARP []
  have htype : get16 m 14 = 1 := frame ▸ get16_put16 1 []
  have ptype : get16 m 16 = MN_ETHERTYPE_IPV4 := frame ▸ get16_put16 MN_ETHERTYPE_IPV4 []
  have hlen : byteAt m 18 = 6 := frame ▸ rfl
  have plen : byteAt m 19 = 4 := frame ▸ rfl
  have operation : get16 m 20 = oper := frame ▸ get16_put16 oper []
  simp [mnArpOpcode, isArp, type, htype, ptype, hlen, plen, operation]

theorem arp_request_length (sender : Mac) (senderIp target : Ip4) :
    (mnArpBuildRequest sender senderIp target).length = 42 := rfl

theorem arp_reply_length (requestMac ourMac : Mac) (requestIp ourIp : Ip4) :
    (mnArpBuildReply requestMac requestIp ourMac ourIp).length = 42 := rfl

/-! ## What a valid header says of the packet -/

/-- A valid header is inside the bytes there are, and so is the payload behind
it. -/
structure Laid (pkt : List UInt8) (available : UInt16) : Prop where
  header : 20 ≤ (mnIpv4HdrLen pkt).toNat
  total : (mnIpv4HdrLen pkt).toNat + (mnIpv4PayloadLen pkt).toNat = (mnIpv4TotalLen pkt).toNat
  inside : (mnIpv4TotalLen pkt).toNat ≤ available.toNat

theorem valid_laid {pkt : List UInt8} {available : UInt16} (valid : mnIpv4Valid pkt available = true) :
    Laid pkt available := by
  simp only [mnIpv4Valid, Bool.and_eq_true, Bool.not_eq_true', Bool.or_eq_false_iff,
    decide_eq_false_iff_not,
    UInt16.lt_iff_toNat_lt, UInt8.lt_iff_toNat_lt, gt_iff_lt, not_lt, UInt8.toNat_toUInt16] at valid
  obtain ⟨⟨⟨⟨_, _⟩, header, _⟩, covers, inside⟩, _⟩ := valid
  refine ⟨header, ?_, inside⟩
  rw [mnIpv4PayloadLen, UInt16.toNat_sub_of_le _ _
    (by rwa [UInt16.le_iff_toNat_le, UInt8.toNat_toUInt16]),
    UInt8.toNat_toUInt16]
  omega

end MegaNet.WireFormats
