import MegaNet.Transmissions

/-! Echo replies against the requests they answer: rebuilt at fixed offsets from
a message at any offset, with any padding behind it, they carry the same bytes,
back to where these came from. -/
namespace MegaNet.EchoReplies
open MegaNet.Core TcpEmission TcpConnection UdpOutcomes Checksums WireFormats Transmissions

variable {st : Stack} {f : RxFrame} {net : MnNetFull} {request : List UInt8}

/-! ## When a poll answers -/

private theorem deliverUdp_echoReplies (net : MnNetFull) (x : XMem) (ip : List UInt8) :
    (deliverUdp net x ip).1.echoReplies = net.echoReplies := by
  unfold deliverUdp
  dsimp only
  split
  · rfl
  · split
    · rfl
    · split <;> rfl

private theorem arpInput_echoReplies (net : MnNetFull) (frame : List UInt8) (len : UInt16) :
    (arpInput net frame len).echoReplies = net.echoReplies := by
  unfold arpInput
  split
  · rfl
  · split <;> rfl

private theorem tcpInput_echoReplies (st : Stack) (ip : List UInt8) : (st.tcpInput ip).net.echoReplies =
    st.net.echoReplies := by
  unfold Stack.tcpInput
  cases st.tcp with
  | none => rfl
  | some set =>
    dsimp only
    split <;> rfl

/-- The IPv4 case counts a reply only where it sends one. -/
theorem ipInput_answers {frame : List UInt8} {len : UInt16}
    (counts : (st.ipInput frame len).net.echoReplies ≠ st.net.echoReplies) :
    mnIcmpIsEchoRequest frame len st.net.ip = true ∧
      (st.ipInput frame len).net.toMnNet = (st.net.toMnNet.send (echoReply st.net frame)).2 := by
  unfold Stack.ipInput at counts ⊢
  dsimp only at counts ⊢
  split at counts
  · exact absurd rfl counts
  rename_i accepted
  rw [if_neg accepted]
  split at counts
  · rename_i icmp
    rw [if_pos icmp]
    split at counts
    · rename_i asked
      rw [if_pos asked]
      exact ⟨asked, rfl⟩
    · exact absurd rfl counts
  split at counts
  · exact absurd (deliverUdp_echoReplies ..) counts
  split at counts
  · exact absurd (tcpInput_echoReplies ..) counts
  · exact absurd rfl counts

private theorem poll_answers (counts : (mnNetPoll st (some f)).net.echoReplies ≠ st.net.echoReplies) :
    mnIcmpIsEchoRequest f.bytes f.len st.net.ip = true ∧
      (mnNetPoll st (some f)).net.toMnNet = (st.net.toMnNet.send (echoReply st.net f.bytes)).2 := by
  unfold mnNetPoll at counts ⊢
  dsimp only at counts ⊢
  split at counts
  · exact absurd rfl counts
  rename_i ours
  rw [if_neg ours]
  split at counts
  · exact absurd (arpInput_echoReplies ..) counts
  rename_i noArp
  rw [if_neg noArp]
  split at counts
  · rename_i ipv4
    rw [if_pos ipv4]
    have answers := @ipInput_answers { st with net := counted st.net } f.bytes f.len counts
    exact answers
  · exact absurd rfl counts

/-! ## The reply -/

/-- A frame as an echo reply to another, from the host with this layer. -/
structure Mirrors (net : MnNetFull) (request reply : List UInt8) : Prop where
  length : reply.length = 34 + (mnIpv4PayloadLen (request.drop 14)).toNat
  macs : macAt reply 0 = macAt request 6 ∧ macAt reply 6 = net.nif.mac
  type : mnEtherType reply = MN_ETHERTYPE_IPV4
  valid : mnIpv4Valid (reply.drop 14) (UInt16.ofNat (reply.drop 14).length) = true
  plain : mnIpv4HdrLen (reply.drop 14) = 20
  addresses : mnIpv4Src (reply.drop 14) = net.ip ∧
    mnIpv4Dst (reply.drop 14) = mnIpv4Src (request.drop 14)
  proto : mnIpv4Proto (reply.drop 14) = MN_IPPROTO_ICMP
  payload : mnIpv4PayloadLen (reply.drop 14) = mnIpv4PayloadLen (request.drop 14)
  kind : byteAt (mnIpv4Payload (reply.drop 14)) 0 = 0 ∧ byteAt (mnIpv4Payload (reply.drop 14)) 1 = 0
  rest : (mnIpv4Payload (reply.drop 14)).drop 4 =
    ((mnIpv4Payload (request.drop 14)).take (mnIpv4PayloadLen (request.drop 14)).toNat).drop 4
  checksum : mnChecksumValid (mnIpv4Payload (reply.drop 14)) (mnIpv4PayloadLen (reply.drop 14)) = true
  silent : ∀ ip, mnIcmpIsEchoRequest reply (UInt16.ofNat reply.length) ip = false

/-- A message of type 0 is no request, whoever reads it. -/
theorem reply_silent {frame : List UInt8} (kind : byteAt (mnIpv4Payload (frame.drop 14)) 0 = 0)
    (len : UInt16)
    (ip : Ip4) : mnIcmpIsEchoRequest frame len ip = false := by
  rw [← Bool.not_eq_true]
  intro asked
  simp only [mnIcmpIsEchoRequest, kind, Bool.and_eq_true, beq_iff_eq] at asked
  obtain ⟨⟨⟨_, request⟩, _⟩, _⟩ := asked
  cases request

section
variable {dstMac srcMac : Mac} {src dst : Ip4} {id : UInt16} {rest : List UInt8}

/-- Its message, behind the headers. -/
def replyMessage (rest : List UInt8) : List UInt8 :=
  echoMessage (mnChecksum (echoMessage 0 rest) (4 + UInt16.ofNat rest.length)) rest

private theorem reply_packet : (Frame.echoReply dstMac srcMac src dst id rest).bytes.drop 14 =
    mnIpv4Build src dst MN_IPPROTO_ICMP (UInt16.ofNat (4 + rest.length)) id ++ replyMessage rest := by
  have built : (Frame.echoReply dstMac srcMac src dst id rest).bytes =
    mnEtherBuild dstMac srcMac MN_ETHERTYPE_IPV4 ++
      (mnIpv4Build src dst MN_IPPROTO_ICMP (UInt16.ofNat (replyMessage rest).length) id ++
        replyMessage rest) := by
    simp only [Frame.bytes, ipv4Frame, replyMessage, List.append_assoc]
  have size : (replyMessage rest).length = 4 + rest.length := echo_length
  rw [built, size]
  exact List.drop_left' rfl

/-- A frame of this form mirrors a request with the same bytes from the fourth
of its message on. -/
theorem echoReply_mirrors {request : List UInt8}
    (whole : ((mnIpv4Payload (request.drop 14)).take
      (mnIpv4PayloadLen (request.drop 14)).toNat).drop 4 = rest)
    (size : (mnIpv4PayloadLen (request.drop 14)).toNat = 4 + rest.length)
    (fits : (mnIpv4PayloadLen (request.drop 14)).toNat ≤ 1484) (mac : dstMac = macAt request 6)
    (ours : srcMac = net.nif.mac ∧ src = net.ip) (back : dst = mnIpv4Src (request.drop 14)) :
    Mirrors net request (Frame.echoReply dstMac srcMac src dst id rest).bytes := by
  have packet : (Frame.echoReply dstMac srcMac src dst id rest).bytes.drop 14 = _ := reply_packet
  have count : UInt16.ofNat (4 + rest.length) = mnIpv4PayloadLen (request.drop 14) := by
    rw [← size, UInt16.ofNat_toNat]
  have message : (replyMessage rest).length = 4 + rest.length := echo_length
  have length : (Frame.echoReply dstMac srcMac src dst id rest).bytes.length = 34 +
      (4 + rest.length) := by
    rw [Frame.bytes, frame_length, echo_length]
  have inside : ((Frame.echoReply dstMac srcMac src dst id rest).bytes.drop 14).length = 20 +
      (4 + rest.length) := by
    rw [List.length_drop, length]
    omega
  have payload : mnIpv4Payload ((Frame.echoReply dstMac srcMac src dst id rest).bytes.drop 14) =
      replyMessage rest := by
    rw [packet, ipv4_payload]
  have kind : byteAt
      (mnIpv4Payload ((Frame.echoReply dstMac srcMac src dst id rest).bytes.drop 14)) 0 = 0 := by
    rw [payload]
    rfl
  have payloadLen : mnIpv4PayloadLen ((Frame.echoReply dstMac srcMac src dst id rest).bytes.drop 14) =
      mnIpv4PayloadLen (request.drop 14) := by
    rw [packet, ipv4_payloadLen, count]
  refine ⟨by rw [length, size], ⟨by rw [← mac]; rfl, by rw [← ours.1]; rfl⟩,
    get16_put16 MN_ETHERTYPE_IPV4 [], ?_, ?_,
    ⟨?_, ?_⟩, ?_, payloadLen, ⟨kind, by rw [payload]; rfl⟩, ?_, ?_, fun ip => reply_silent kind _ ip⟩
  · rw [packet]
    apply ipv4_valid
    rw [← packet, inside, count, UInt16.toNat_ofNat']
    omega
  · rw [packet, ipv4_hdrLen]
  · rw [packet, ipv4_src, ours.2]
  · rw [packet, ipv4_dst, back]
  · rw [packet]
    rfl
  · rw [payload, whole]
    rfl
  · have verifies : mnChecksumValid (replyMessage rest ++ []) (4 + UInt16.ofNat rest.length) = true :=
      echo_verifies (by omega)
    rw [List.append_nil] at verifies
    rw [payload, payloadLen, ← count, UInt16.ofNat_add]
    exact verifies

end

/-- A poll that answers a frame as an echo request sends one frame, the reply
`mn_icmp_build_echo_reply` builds, and that mirrors the request. -/
theorem echo_mirrors (st : Stack) (f : RxFrame)
    (answers : (mnNetPoll st (some f)).net.echoReplies ≠ st.net.echoReplies) :
    ∃ reply queued, handedSince st.net.toMnNet (mnNetPoll st (some f)).net.toMnNet = [(reply, queued)] ∧
      reply.bytes = mnIcmpBuildEchoReply f.bytes st.net.nif.mac st.net.ip ∧
        Mirrors st.net f.bytes reply.bytes := by
  obtain ⟨asked, sent⟩ := poll_answers answers
  obtain ⟨handed, _⟩ := send_spec st.net.toMnNet (echoReply st.net f.bytes)
  refine ⟨echoReply st.net f.bytes, _, by rw [sent]; exact handed_since handed,
    echoReply_bytes st.net asked, ?_⟩
  simp only [mnIcmpIsEchoRequest, Bool.and_eq_true, Bool.not_eq_true', decide_eq_false_iff_not,
    UInt16.lt_iff_toNat_lt,
    not_lt, show UInt16.toNat 42 = 42 from rfl, show UInt16.toNat 8 = 8 from rfl] at asked
  obtain ⟨⟨⟨⟨⟨⟨⟨⟨long, _⟩, valid⟩, _⟩, _⟩, size⟩, _⟩, _⟩, _⟩ := asked
  have header : ¬ f.len < 14 := (Words.not_below 14 (by decide)).mpr (by omega)
  have whole := payload_whole valid header
  refine echoReply_mirrors rfl ?_ (echo_fits valid header) rfl ⟨rfl, rfl⟩ rfl
  rw [List.length_drop, whole]
  omega

/-- A request with options in its header, three bytes of data, and padding to
the shortest frame Ethernet has. -/
def paddedRequest : RxFrame where
  bytes := [2, 0, 0, 0, 0, 1, 2, 0, 0, 0, 0, 2, 8, 0] ++
    [0x46, 0, 0, 0x23, 0xab, 0xcd, 0x40, 0, 0x40, 1, 0x78, 9, 0x0a, 0, 0, 2, 0x0a,
      0, 0, 1, 1, 1, 1, 0] ++
    [8, 0, 0x6f, 8, 0x12, 0x34, 0, 7, 0xaa, 0xbb, 0xcc] ++ List.replicate 11 0
  fits := by decide

theorem echo_mirrors_padded : ∃ reply queued,
    handedSince goodNet
      (mnNetPoll ⟨layerOver goodNet, none, fun _ => 0⟩ (some paddedRequest)).net.toMnNet =
      [(reply, queued)] ∧
    reply.bytes = mnIcmpBuildEchoReply paddedRequest.bytes goodNet.nif.mac goodNet.ip ∧
    Mirrors (layerOver goodNet) paddedRequest.bytes reply.bytes := by
  have answers : (mnNetPoll ⟨layerOver goodNet, none, fun _ => 0⟩ (some paddedRequest)).net.echoReplies ≠
      (layerOver goodNet).echoReplies := by decide +kernel
  exact echo_mirrors ⟨layerOver goodNet, none, fun _ => 0⟩ paddedRequest answers

end MegaNet.EchoReplies
