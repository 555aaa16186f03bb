import MegaNet.TcpUnicast

/-! A segment on the wire is the segment read from it: what a host puts into a
frame reaches the dispatcher of another as it was, whatever follows it in the
frame. -/
namespace MegaNet.SegmentCodec
open MegaNet.Core Words TcpEmission TcpConnection UdpOutcomes UdpSockets Checksums WireFormats
  Transmissions TcpUnicast

variable {src dst : Ip4} {seg : TcpSeg} {pad : List UInt8} {st : Stack} {f : RxFrame}

/-! ## Fields -/

/-- Each byte lies below the bits of those before it. -/
theorem get32_toNat (m : List UInt8) (o : Nat) :
    (get32 m o).toNat = 2 ^ 24 * (byteAt m o).toNat + 2 ^ 16 * (byteAt m (o + 1)).toNat +
      2 ^ 8 * (byteAt m (o + 2)).toNat + (byteAt m (o + 3)).toNat := by
  have shifted (b : UInt8) (k : UInt32) (small : k.toNat ≤ 24) :
      (b.toUInt32 <<< k).toNat = 2 ^ k.toNat * b.toNat := by
    have below := b.toNat_lt
    have most : 2 ^ k.toNat ≤ 2 ^ 24 := Nat.pow_le_pow_right (by decide) small
    rw [UInt32.toNat_shiftLeft, UInt8.toNat_toUInt32, Nat.mod_eq_of_lt (show k.toNat < 32 by omega),
      Nat.shiftLeft_eq,
      Nat.mul_comm, Nat.mod_eq_of_lt]
    exact Nat.lt_of_le_of_lt (Nat.mul_le_mul_right _ most) (by omega)
  have b2 := (byteAt m (o + 1)).toNat_lt
  have b1 := (byteAt m (o + 2)).toNat_lt
  have b0 := (byteAt m (o + 3)).toNat_lt
  have first := Nat.two_pow_add_eq_or_of_lt (i := 24) (b := 2 ^ 16 * (byteAt m (o + 1)).toNat) (by omega)
    (byteAt m o).toNat
  have second := Nat.two_pow_add_eq_or_of_lt (i := 16) (b := 2 ^ 8 * (byteAt m (o + 2)).toNat) (by omega)
    (2 ^ 8 * (byteAt m o).toNat + (byteAt m (o + 1)).toNat)
  have third := Nat.two_pow_add_eq_or_of_lt (i := 8) (b := (byteAt m (o + 3)).toNat) (by omega)
    (2 ^ 16 * (byteAt m o).toNat + 2 ^ 8 * (byteAt m (o + 1)).toNat + (byteAt m (o + 2)).toNat)
  rw [get32, UInt32.toNat_or, UInt32.toNat_or, UInt32.toNat_or, shifted _ 24 (by decide),
    shifted _ 16 (by decide),
    shifted _ 8 (by decide), UInt8.toNat_toUInt32]
  simp only [UInt32.reduceToNat]
  rw [← first, show 2 ^ 24 * (byteAt m o).toNat + 2 ^ 16 * (byteAt m (o + 1)).toNat =
    2 ^ 16 * (2 ^ 8 * (byteAt m o).toNat + (byteAt m (o + 1)).toNat) by omega, ← second,
    show 2 ^ 16 * (2 ^ 8 * (byteAt m o).toNat + (byteAt m (o + 1)).toNat) + 2 ^ 8 *
      (byteAt m (o + 2)).toNat =
      2 ^ 8 * (2 ^ 16 * (byteAt m o).toNat + 2 ^ 8 * (byteAt m (o + 1)).toNat +
        (byteAt m (o + 2)).toNat) by omega,
    ← third]

/-- What `mn_put32` writes, `mn_get32` reads. -/
theorem get32_put32 (v : UInt32) (rest : List UInt8) : get32 (put32 v ++ rest) 0 = v := by
  have part (k : UInt32) (small : k.toNat < 32) : (v >>> k).toUInt8.toNat =
      v.toNat / 2 ^ k.toNat % 256 := by
    rw [UInt32.toNat_toUInt8, UInt32.toNat_shiftRight, Nat.mod_eq_of_lt small, Nat.shiftRight_eq_div_pow]
  have below := v.toNat_lt
  rw [← UInt32.toNat_inj, get32_toNat]
  show 2 ^ 24 * (v >>> 24).toUInt8.toNat + 2 ^ 16 * (v >>> 16).toUInt8.toNat + 2 ^ 8 *
    (v >>> 8).toUInt8.toNat +
    v.toUInt8.toNat = v.toNat
  rw [part 24 (by decide), part 16 (by decide), part 8 (by decide), UInt32.toNat_toUInt8]
  simp only [UInt32.reduceToNat]
  omega

private theorem flags_back (f : SegFlags) :
    ({ fin := f.byte &&& 0x01 != 0, syn := f.byte &&& 0x02 != 0, rst := f.byte &&& 0x04 != 0
       psh := f.byte &&& 0x08 != 0, ack := f.byte &&& 0x10 != 0 } : SegFlags) = f := by
  obtain ⟨fin, syn, rst, psh, ack⟩ := f
  cases fin <;> cases syn <;> cases rst <;> cases psh <;> cases ack <;> rfl

/-! ## The segment -/

/-- The header's options and what follows it are where the data offset says. -/
theorem tcp_parts (seg : TcpSeg) (csum : UInt16) : ∃ fixed, fixed.length = 20 ∧
    tcpHeader seg csum = fixed ++ seg.opts :=
  ⟨put16 seg.sport ++ put16 seg.dport ++ put32 seg.seq ++ put32 seg.ack ++
    [((seg.hlen / 4) <<< 4).toUInt8, seg.flags.byte] ++ put16 seg.wnd ++ put16 csum ++ put16 0, rfl, rfl⟩

/-- What `mn_tcp_input` parses is what `emit` or `send_rst` wrote. -/
theorem segment_back (regular : Regular seg) {len : UInt16}
    (size : len.toNat = (tcpBuild src dst seg).length) :
    tcpSegment (tcpBuild src dst seg ++ pad) len = seg := by
  have offset : (byteAt (tcpBuild src dst seg ++ pad) 12 >>> 4).toNat % 16 * 4 =
      20 + seg.opts.length := by
    have read := tcp_offset regular src dst pad
    have short := seg.optsFit
    omega
  have whole : (tcpBuild src dst seg ++ pad).take len.toNat = tcpBuild src dst seg := by
    rw [size, List.take_left]
  obtain ⟨fixed, twenty, header⟩ := tcp_parts seg
    (mnChecksumPseudo src dst MN_IPPROTO_TCP (tcpHeader seg 0 ++ seg.data) (seg.hlen + seg.dlen))
  have built : tcpBuild src dst seg = fixed ++ (seg.opts ++ seg.data) := by
    rw [tcpBuild, header, List.append_assoc]
  have options : ((tcpBuild src dst seg ++ pad).take (20 + seg.opts.length)).drop 20 = seg.opts := by
    rw [built, List.append_assoc, List.append_assoc, ← twenty,
      List.take_length_add_append, List.drop_left,
      List.take_left]
  have payload : (tcpBuild src dst seg).drop (20 + seg.opts.length) = seg.data := by
    rw [built, ← twenty, List.drop_length_add_append, List.drop_left]
  have flags : byteAt (tcpBuild src dst seg ++ pad) 13 = seg.flags.byte := rfl
  have ports : get16 (tcpBuild src dst seg ++ pad) 0 = seg.sport ∧
      get16 (tcpBuild src dst seg ++ pad) 2 = seg.dport :=
    ⟨get16_put16 seg.sport [], get16_put16 seg.dport []⟩
  have numbers : get32 (tcpBuild src dst seg ++ pad) 4 = seg.seq ∧
      get32 (tcpBuild src dst seg ++ pad) 8 = seg.ack :=
    ⟨get32_put32 seg.seq [], get32_put32 seg.ack []⟩
  have window : get16 (tcpBuild src dst seg ++ pad) 14 = seg.wnd := get16_put16 seg.wnd []
  simp only [tcpSegment, offset, whole, options, payload, flags, flags_back, ports, numbers, window]

/-! ## Arrivals -/

/-- A frame that gets as far as TCP is the input of its segment. -/
theorem poll_reached (reaches : Reaches st.net f) :
    mnNetPoll st (some f) =
      tcpAct { st with net := counted st.net } (.input (mnIpv4Src (f.bytes.drop 14)) (segmentIn f)) := by
  obtain ⟨⟨long, forUs⟩, type, ⟨header, valid⟩, admitted, proto, accepted⟩ := reaches
  have admitted' : ipAccepts { st.net with rxFrames := st.net.rxFrames + 1 } (f.bytes.drop 14) = true :=
    admitted
  simp only [mnNetPoll, Stack.ipInput, long, forUs, type, header, valid, admitted', proto,
    Stack.tcpInput, accepted,
    tcpAct, show MN_ETHERTYPE_IPV4 ≠
      MN_ETHERTYPE_ARP by decide, show MN_IPPROTO_TCP ≠ MN_IPPROTO_ICMP by decide,
    show MN_IPPROTO_TCP ≠ MN_IPPROTO_UDP by decide]
  cases st.tcp <;> rfl

/-- A frame of TCP that does not is only counted. -/
theorem poll_refused (astray : ¬ Reaches st.net f) (type : mnEtherType f.bytes = MN_ETHERTYPE_IPV4)
    (proto : mnIpv4Proto (f.bytes.drop 14) = MN_IPPROTO_TCP)
    (accepted : tcpAccepts (f.bytes.drop 14) = true) :
    mnNetPoll st (some f) = { st with net := counted st.net } := by
  unfold mnNetPoll Stack.ipInput
  simp only [type, proto, show MN_ETHERTYPE_IPV4 ≠ MN_ETHERTYPE_ARP by decide,
    show MN_IPPROTO_TCP ≠
      MN_IPPROTO_ICMP by decide, show MN_IPPROTO_TCP ≠ MN_IPPROTO_UDP by decide, if_false, if_true]
  split
  · rfl
  rename_i ours
  simp only [Bool.or_eq_true, decide_eq_true_eq, Bool.not_eq_true', not_or, Bool.not_eq_false] at ours
  split
  · rfl
  rename_i passes
  simp only [Bool.or_eq_true, decide_eq_true_eq, Bool.not_eq_true', not_or, Bool.not_eq_false] at passes
  exact absurd ⟨ours, type, passes.1, passes.2, proto, accepted⟩ astray

/-- The frame brings a segment, whatever follows it. -/
structure Brings (f : RxFrame) (src dst : Ip4) (seg : TcpSeg) : Prop where
  source : mnIpv4Src (f.bytes.drop 14) = src
  size : (mnIpv4PayloadLen (f.bytes.drop 14)).toNat = (tcpBuild src dst seg).length
  payload : ∃ pad, mnIpv4Payload (f.bytes.drop 14) = tcpBuild src dst seg ++ pad

/-- And what is read of it is that segment. -/
theorem Brings.segment (brings : Brings f src dst seg) (regular : Regular seg) : segmentIn f = seg := by
  obtain ⟨_, size, pad, payload⟩ := brings
  rw [segmentIn, payload, segment_back regular size]

section
variable {dstMac srcMac : Mac} {id : UInt16}

/-- The packet of a segment, as it is in its frame. -/
def segmentPacket (src dst : Ip4) (id : UInt16) (seg : TcpSeg) (pad : List UInt8) : List UInt8 :=
  mnIpv4Build src dst MN_IPPROTO_TCP (UInt16.ofNat (tcpBuild src dst seg).length) id ++
    (tcpBuild src dst seg ++ pad)

private theorem frame_packet (bytes : f.bytes = (Frame.tcp dstMac srcMac src dst id seg).bytes ++ pad) :
    f.bytes.drop 14 = segmentPacket src dst id seg pad := by
  rw [bytes]
  rfl

theorem frame_brings (short : Short seg)
    (bytes : f.bytes = (Frame.tcp dstMac srcMac src dst id seg).bytes ++ pad) :
    Brings f src dst seg := by
  have size := short.size
  have packet := frame_packet bytes
  refine ⟨by rw [packet]; rfl, ?_, pad, by rw [packet]; exact ipv4_payload⟩
  rw [packet, segmentPacket, ipv4_payloadLen, UInt16.toNat_ofNat', tcpBuild_length]
  omega

/-- Where a frame of ours gets as far as TCP. -/
theorem frame_reaches (short : Short seg) (net : MnNetFull)
    (bytes : f.bytes = (Frame.tcp dstMac srcMac src dst id seg).bytes ++ pad) :
    Reaches net f ↔
      (dstMac = net.nif.mac ∨ dstMac = mnEthBroadcast) ∧
        (dst = net.ip ∨ dst = limitedBcast ∨ net.ip = zeroIp) := by
  have small := short.size
  have packet := frame_packet bytes
  have size : f.len.toNat = 34 + (tcpBuild src dst seg).length + pad.length := by
    rw [rx_length, bytes, List.length_append, Frame.bytes, frame_length]
  have long : ¬ f.len < 34 ∧ ¬ f.len < 14 := by
    simp only [UInt16.lt_iff_toNat_lt, size, show UInt16.toNat 34 = 34 from rfl,
      show UInt16.toNat 14 = 14 from rfl]
    omega
  have forUs : mnEtherIsForUs f.bytes net.nif.mac = true ↔ dstMac = net.nif.mac ∨
      dstMac = mnEthBroadcast := by
    have target : macAt f.bytes 0 = dstMac := by
      rw [bytes]
      rfl
    rw [mnEtherIsForUs, target]
    simp
  have admits : ipAccepts net (f.bytes.drop 14) = true ↔ dst = net.ip ∨ dst = limitedBcast ∨
      net.ip = zeroIp := by
    rw [packet, ipAccepts, segmentPacket, ipv4_dst]
    simp [or_assoc]
  refine ⟨fun reaches => ⟨forUs.mp reaches.ours.2, admits.mp reaches.admitted⟩, ?_⟩
  rintro ⟨ours, here⟩
  refine ⟨⟨long.2, forUs.mpr ours⟩, by rw [bytes]; exact frame_type, ⟨long.1, ?_⟩, admits.mpr here,
    by rw [packet]; rfl,
    by rw [packet]; exact tcp_accepts short.regular⟩
  have back : (f.len - 14).toNat = f.len.toNat - 14 := toNat_back 14 (by omega)
  rw [packet]
  apply ipv4_valid
  rw [back, size, UInt16.toNat_ofNat', tcpBuild_length]
  omega

/-- What any act hands to the link is of the length it should be. -/
theorem act_speaks (order : Orderly st) (act : Act) :
    Hands (Spoken st.net.nif.mac st.net.ip Short MN_UDP_MAX_PAYLOAD) st.net.toMnNet
      (exec st act).net.toMnNet :=
  act_spoken order act fun _ _ _ _ _ fits => fits

/-- Whatever a stack is doing, each segment it hands to its link reaches TCP
exactly where its frame is for the host, and is there, whatever follows it in the
frame, the segment that was sent, from the address it was sent from. -/
theorem segments_heard_as_sent (life : Life st) (act : Act) {queued : Bool}
    (handed : (.tcp dstMac srcMac src dst id seg, queued) ∈ handedSince st.net.toMnNet
      (exec st act).net.toMnNet)
    (peer : Stack) (bytes : f.bytes = (Frame.tcp dstMac srcMac src dst id seg).bytes ++ pad) :
    mnNetPoll peer (some f) =
      if (dstMac = peer.net.nif.mac ∨ dstMac = mnEthBroadcast) ∧
          (dst = peer.net.ip ∨ dst = limitedBcast ∨ peer.net.ip = zeroIp) then
        tcpAct { peer with net := counted peer.net } (.input src seg)
      else { peer with net := counted peer.net } := by
  have spoken := (act_speaks life.orderly act).since _ handed
  have short : Short seg := by
    cases spoken with
    | tcp _ _ _ _ short => exact short
  have packet := frame_packet bytes
  have reaches := frame_reaches short peer.net bytes
  split
  · rename_i ours
    have brings := frame_brings short bytes
    rw [poll_reached (reaches.mpr ours), brings.source, brings.segment short.regular]
  · rename_i astray
    refine poll_refused (fun there => astray (reaches.mp there)) ?_ ?_ ?_
    · rw [bytes]
      exact frame_type
    · rw [packet]
      rfl
    · rw [packet]
      exact tcp_accepts short.regular

end

/-- A host with a socket that is free again. -/
def idle : Stack := exec serving (.tcp (.close 0))

private theorem mss_option_fits : ([2, 4, 5, 0xb4] : List UInt8).length ≤ 40 := Nat.le_of_ble_eq_true rfl

/-- The SYN it sends when it connects to everyone's port 80. -/
def broadcastSyn : TcpSeg where
  sport := 0xc004
  dport := 80
  seq := 0x10001
  ack := 0
  flags := { syn := true }
  wnd := 2048
  opts := [2, 4, 5, 0xb4]
  data := []
  optsFit := mss_option_fits
  dataFits := nothing_fits

/-- The frame it arrives in, with two bytes of padding. -/
def paddedSyn : RxFrame where
  bytes := (Frame.tcp mnEthBroadcast ⟨2, 0, 0, 0, 0, 1⟩
    ⟨10, 0, 0, 1⟩ limitedBcast 1 broadcastSyn).bytes ++ [0, 0]
  fits := by decide +kernel

theorem segments_heard_as_sent_padded :
    mnNetPoll serving (some paddedSyn) =
      tcpAct { serving with net := counted serving.net } (.input ⟨10, 0, 0, 1⟩ broadcastSyn) := by
  have handed :
    (.tcp mnEthBroadcast ⟨2, 0, 0, 0, 0, 1⟩ ⟨10, 0, 0, 1⟩ limitedBcast 1 broadcastSyn, true) ∈
      handedSince idle.net.toMnNet (exec idle (.tcp (.connect 0 limitedBcast 80 1))).net.toMnNet := by
    decide +kernel
  have heard := segments_heard_as_sent (serving_life.next ⟨_, rfl⟩)
    (.tcp (.connect 0 limitedBcast 80 1)) handed serving
    (show paddedSyn.bytes = _ ++ [0, 0] from rfl)
  rwa [if_pos (by decide)] at heard

end MegaNet.SegmentCodec
