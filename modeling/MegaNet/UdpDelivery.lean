import MegaNet.Routing
import MegaNet.UdpMailboxes

/-! Two hosts: what one sends by UDP and what the other's sockets make of it,
for one address and for everyone. -/
namespace MegaNet.UdpDelivery
open MegaNet.Core Words TcpEmission TcpConnection Routing UdpOutcomes UdpSockets UdpMailboxes
  Transmissions WireFormats

variable {A : MnNetFull} {B : Stack} {i : Fin 4} {p sport : UInt16} {dst : Ip4} {payload : List UInt8}

/-! ## The frame -/

/-- The packet of a datagram, with what follows it in its frame. -/
def packetOf (src dst : Ip4) (id sport dport : UInt16) (payload pad : List UInt8) : List UInt8 :=
  mnIpv4Build src dst MN_IPPROTO_UDP (UInt16.ofNat (mnUdpBuild src dst sport dport payload).length) id ++
    (mnUdpBuild src dst sport dport payload ++ pad)

section
variable {src : Ip4} {id : UInt16} {pad : List UInt8} {dstMac srcMac : Mac} {f : RxFrame}

private theorem packet_payloadLen :
    mnIpv4PayloadLen (packetOf src dst id sport p payload pad) = 8 + UInt16.ofNat payload.length := by
  rw [packetOf, ipv4_payloadLen, udpBuild_length, UInt16.ofNat_add]
  rfl

private theorem packet_size (fits : payload.length ≤ MN_UDP_MAX_PAYLOAD) :
    (mnIpv4PayloadLen (packetOf src dst id sport p payload pad) - 8).toNat = payload.length := by
  rw [MN_UDP_MAX_PAYLOAD] at fits
  rw [packet_payloadLen, show 8 + UInt16.ofNat payload.length - 8 = UInt16.ofNat payload.length by grind,
    UInt16.toNat_ofNat']
  omega

/-- What is delivered of it, wherever it arrives. -/
theorem packet_arrived (fits : payload.length ≤ MN_UDP_MAX_PAYLOAD) :
    arrived (packetOf src dst id sport p payload pad) = ⟨payload, src, sport⟩ := by
  have content : (mnIpv4Payload (packetOf src dst id sport p payload pad)).drop 8 = payload ++ pad := by
    rw [packetOf, ipv4_payload, mnUdpBuild, List.append_assoc]
    exact List.drop_left' udpHeader_length
  have port : mnUdpSport (mnIpv4Payload (packetOf src dst id sport p payload pad)) = sport := by
    rw [packetOf, ipv4_payload, udp_sport]
  rw [arrived, packet_size fits, content, port, List.take_left]
  rfl

theorem packet_valid (fits : payload.length ≤ MN_UDP_MAX_PAYLOAD) :
    validUdp (packetOf src dst id sport p payload pad) = true ∧
      mnUdpDport (mnIpv4Payload (packetOf src dst id sport p payload pad)) = p := by
  rw [MN_UDP_MAX_PAYLOAD] at fits
  constructor
  · rw [validUdp, packet_payloadLen]
    simp only [packetOf, ipv4_src, ipv4_dst, ipv4_payload]
    exact udp_valid (by omega)
  · rw [packetOf, ipv4_payload, udp_dport]

/-- The frame of a datagram reaches `deliver_udp` just where its destination is
accepted. -/
theorem frame_delivered (fits : payload.length ≤ MN_UDP_MAX_PAYLOAD) {net : MnNetFull}
    (ours : dstMac = net.nif.mac ∨ dstMac = mnEthBroadcast)
    (bytes : f.bytes = (Frame.udp dstMac srcMac src dst id sport p payload).bytes ++ pad) :
    delivered net f =
      if dst = net.ip ∨ dst = limitedBcast ∨
        net.ip = zeroIp then some (packetOf src dst id sport p payload pad)
      else none := by
  rw [MN_UDP_MAX_PAYLOAD] at fits
  have packet : f.bytes.drop 14 = packetOf src dst id sport p payload pad := by rw [bytes]; rfl
  have size : f.len.toNat = 42 + payload.length + pad.length := by
    rw [rx_length, bytes, List.length_append, Frame.bytes, frame_length, udpBuild_length]
    omega
  have long : ¬ f.len < 34 ∧ ¬ f.len < 14 := by
    simp only [UInt16.lt_iff_toNat_lt, size, show UInt16.toNat 34 = 34 from rfl,
      show UInt16.toNat 14 = 14 from rfl]
    omega
  have whole : mnIpv4Valid (packetOf src dst id sport p payload pad) (f.len - 14) = true := by
    have back : (f.len - 14).toNat = f.len.toNat - 14 := toNat_back 14 (by omega)
    apply ipv4_valid
    rw [back, size, udpBuild_length, UInt16.toNat_ofNat']
    omega
  have forUs : mnEtherIsForUs f.bytes net.nif.mac = true := by
    have target : macAt f.bytes 0 = dstMac := by rw [bytes]; rfl
    rw [mnEtherIsForUs, target]
    simpa using ours
  have type : mnEtherType f.bytes = MN_ETHERTYPE_IPV4 := by
    rw [bytes]
    exact frame_type
  have proto : mnIpv4Proto (packetOf src dst id sport p payload pad) = MN_IPPROTO_UDP := rfl
  have accepts : ipAccepts net (packetOf src dst id sport p payload pad) = true ↔
      dst = net.ip ∨ dst = limitedBcast ∨ net.ip = zeroIp := by
    rw [ipAccepts, packetOf, ipv4_dst]
    simp [or_assoc]
  simp only [delivered, packet, long, whole, forUs, type, proto]
  by_cases here : dst = net.ip ∨ dst = limitedBcast ∨ net.ip = zeroIp
  · simp [here, accepts.mpr here]
  · have refused : ipAccepts net (packetOf src dst id sport p payload pad) = false := by
      simpa using fun accepted => here (accepts.mp accepted)
    simp [here, refused]

/-- And it comes to a socket where it fits. -/
theorem frame_arrival (fits : payload.length ≤ MN_UDP_MAX_PAYLOAD) (net : MnNetFull)
    (ours : dstMac = net.nif.mac ∨ dstMac = mnEthBroadcast)
    (bytes : f.bytes = (Frame.udp dstMac srcMac src dst id sport p payload).bytes ++ pad) :
    arrival net p f =
      if (dst = net.ip ∨ dst = limitedBcast ∨ net.ip = zeroIp) ∧ payload.length ≤ 576 then
        some (packetOf src dst id sport p payload pad)
      else none := by
  have valid : validUdp (packetOf src dst id sport p payload pad) = true := (packet_valid fits).1
  have port : mnUdpDport (mnIpv4Payload (packetOf src dst id sport p payload pad)) = p :=
    (packet_valid fits).2
  have size : mnIpv4PayloadLen (packetOf src dst id sport p payload pad) - 8 > MN_UDP_SOCK_BUF ↔
      ¬ payload.length ≤ 576 := by
    rw [← not_iff_not, fits_toNat, packet_size fits, not_not]
  rw [arrival, frame_delivered fits ours bytes]
  by_cases here : dst = net.ip ∨ dst = limitedBcast ∨ net.ip = zeroIp
  · by_cases room : payload.length ≤ 576 <;> simp [here, room, valid, port, size]
  · simp [here]

end

/-! ## A socket that waits for it -/

/-- What an empty socket that is open on a port has after a frame. -/
theorem received_after (session : Session B i p) (empty : (B.net.sock i).pending = false)
    (f : RxFrame) (cap : UInt16) :
    (mnNetUdpRecv (mnNetPoll B (some f)).net (mnNetPoll B (some f)).x (UInt8.ofNat i) cap).1 =
      (arrival B.net p f).map fun ip =>
        ⟨(arrived ip).payload.take cap.toNat, (arrived ip).srcIp, (arrived ip).srcPort⟩ := by
  obtain ⟨session', holds⟩ := session_poll session f
  have got := (session_receives session' (given i).2 cap).2.2
  have before : held B i = none := by simp [held, empty]
  rw [holds, before] at got
  simp only [receipt, if_pos (given i).2, event, brought] at got
  cases arrives : arrival B.net p f with
  | none =>
    rw [arrives] at got
    cases result : (mnNetUdpRecv (mnNetPoll B (some f)).net (mnNetPoll B (some f)).x
      (UInt8.ofNat i) cap).1 with
    | none => rfl
    | some r =>
      rw [result] at got
      cases got
  | some ip =>
    rw [arrives] at got
    cases result : (mnNetUdpRecv (mnNetPoll B (some f)).net (mnNetPoll B (some f)).x
      (UInt8.ofNat i) cap).1 with
    | none =>
      rw [result] at got
      cases got
    | some r =>
      rw [result] at got
      cases got with
      | cons same => exact congrArg some same

/-- In a reachable stack, a socket open on a port. -/
theorem Life.session (life : Life B) (open_ : (B.net.sock i).port = p) (used : p ≠ 0)
    (empty : (B.net.sock i).pending = false) : Session B i p :=
  ⟨life.orderly, open_, used, fun full => by rw [empty] at full; cases full⟩

/-! ## From one host to the other -/

/-- With the next hop known, the link is handed the datagram. -/
theorem sendUdp_hands {mac : Mac} (known : (mnNetTxBegin A.toMnNet dst).1 = .ok mac) (sport p : UInt16)
    (fits : payload.length ≤ MN_UDP_MAX_PAYLOAD) :
    ∃ queued, handedSince A.toMnNet (mnNetSendUdp A dst sport p payload).2.toMnNet =
      [(.udp mac A.nif.mac A.ip dst A.ipId sport p payload, queued)] := by
  have posting := sendUdp_posting A dst sport p payload
  generalize (mnNetSendUdp A dst sport p payload).2 = after at posting
  cases posting with
  | tooLong long => exact absurd fits (by omega)
  | asked _ unknown =>
    obtain ⟨resolves, _⟩ | ⟨_, begun⟩ := tx_begin_spec A.toMnNet dst
    · exact absurd resolves unknown
    · rw [begun] at known
      cases known
  | sent _ _ mac' begun queued _ handed =>
    obtain rfl : mac' = mac := Except.ok.inj (begun.symm.trans known)
    exact ⟨queued, handed_since handed⟩

/-- What one host sends to a port, to the other or to everyone, the other's open
and empty socket on the port receives, with the sender's address and port, and
whatever is added at the end of the frame. -/
theorem udp_round_trip (life : Life B) (open_ : (B.net.sock i).port = p) (used : p ≠ 0)
    (empty : (B.net.sock i).pending = false) (fits : payload.length ≤ 576)
    (towards : dst = limitedBcast ∨ dst = B.net.ip ∧
      (mnNetTxBegin A.toMnNet B.net.ip).1 = .ok B.net.nif.mac) (sport : UInt16) :
    ∃ frame queued, handedSince A.toMnNet (mnNetSendUdp A dst sport p payload).2.toMnNet =
      [(frame, queued)] ∧
      ∀ (f : RxFrame) pad, f.bytes = frame.bytes ++ pad → ∀ cap, payload.length ≤ cap.toNat →
        (mnNetUdpRecv (mnNetPoll B (some f)).net (mnNetPoll B (some f)).x (UInt8.ofNat i) cap).1 =
          some ⟨payload, A.ip, sport⟩ := by
  have short : payload.length ≤ MN_UDP_MAX_PAYLOAD := fits.trans (by decide)
  obtain ⟨mac, known, ours⟩ : ∃ mac, (mnNetTxBegin A.toMnNet dst).1 = .ok mac ∧
      (mac = B.net.nif.mac ∨ mac = mnEthBroadcast) := by
    obtain rfl | ⟨rfl, resolved⟩ := towards
    · exact ⟨_, congrArg Prod.fst (broadcast_begins (limited_broadcast _)), Or.inr rfl⟩
    · exact ⟨_, resolved, Or.inl rfl⟩
  obtain ⟨queued, handed⟩ := sendUdp_hands known sport p short
  refine ⟨_, queued, handed, fun f pad bytes cap room => ?_⟩
  have accepted : (dst = B.net.ip ∨ dst = limitedBcast ∨ B.net.ip = zeroIp) ∧ payload.length ≤ 576 := by
    obtain rfl | ⟨rfl, _⟩ := towards
    · exact ⟨Or.inr (Or.inl rfl), fits⟩
    · exact ⟨Or.inl rfl, fits⟩
  have arrives := frame_arrival short B.net ours bytes
  rw [if_pos accepted] at arrives
  rw [received_after (Life.session life open_ used empty) empty, arrives, Option.map_some,
    packet_arrived short,
    List.take_of_length_le room]

/-! ## For everyone -/

/-- What a host sends to an address it takes for a broadcast, a configured
host's open and empty socket receives exactly if that is the limited broadcast,
or the host's own address, and the payload fits its mailbox. -/
theorem broadcast_delivered_iff (life : Life B) (open_ : (B.net.sock i).port = p) (used : p ≠ 0)
    (empty : (B.net.sock i).pending = false) (configured : B.net.ip ≠ zeroIp)
    (broadcast : isBroadcast A.toMnNet dst = true) (fits : payload.length ≤ MN_UDP_MAX_PAYLOAD)
    (sport : UInt16) :
    ∃ frame queued, handedSince A.toMnNet (mnNetSendUdp A dst sport p payload).2.toMnNet =
      [(frame, queued)] ∧
      ∀ (f : RxFrame) pad, f.bytes = frame.bytes ++ pad → ∀ cap, payload.length ≤ cap.toNat →
        ((mnNetUdpRecv (mnNetPoll B (some f)).net (mnNetPoll B (some f)).x (UInt8.ofNat i) cap).1 =
            some ⟨payload, A.ip, sport⟩ ↔
          (dst = limitedBcast ∨ dst = B.net.ip) ∧ payload.length ≤ 576) := by
  obtain ⟨queued, handed⟩ := sendUdp_hands (congrArg Prod.fst (broadcast_begins broadcast)) sport p fits
  refine ⟨_, queued, handed, fun f pad bytes cap room => ?_⟩
  have arrives := frame_arrival fits B.net (Or.inr rfl) bytes
  rw [received_after (Life.session life open_ used empty) empty, arrives]
  by_cases accepted : (dst = limitedBcast ∨ dst = B.net.ip) ∧ payload.length ≤ 576
  · have there : (dst = B.net.ip ∨ dst = limitedBcast ∨ B.net.ip = zeroIp) ∧ payload.length ≤ 576 :=
      ⟨accepted.1.elim (fun all => Or.inr (Or.inl all)) Or.inl, accepted.2⟩
    rw [if_pos there, Option.map_some, packet_arrived fits, List.take_of_length_le room]
    exact ⟨fun _ => accepted, fun _ => rfl⟩
  · have nowhere : ¬ ((dst = B.net.ip ∨ dst = limitedBcast ∨ B.net.ip = zeroIp) ∧
      payload.length ≤ 576) := by
      rintro ⟨own | all | none_, size⟩
      · exact accepted ⟨Or.inr own, size⟩
      · exact accepted ⟨Or.inl all, size⟩
      · exact configured none_
    rw [if_neg nowhere]
    exact ⟨fun got => (by cases got), fun fine => absurd fine accepted⟩

/-! ## Two hosts on one subnet -/

/-- A host of the subnet 10.0.0.0/24. -/
def hostAt (last : UInt8) : Stack :=
  exec
    ⟨mnNetSetPool
      (mnNetInit (layerOver goodNet) { goodNet.nif with mac := ⟨2, 0, 0, 0, 0, last⟩ }) 0x800e000, none,
      fun _ => 0⟩
    (.configures ⟨10, 0, 0, last⟩ ⟨255, 255, 255, 0⟩ ⟨10, 0, 0, 254⟩)

private theorem hostAt_life (last : UInt8) : Life (hostAt last) :=
  .next (.start ⟨layerOver goodNet, { goodNet.nif with mac := ⟨2, 0, 0, 0, 0, last⟩ },
    0x800e000, rfl, by decide,
    Or.inl rfl⟩) ⟨.configures ⟨10, 0, 0, last⟩ ⟨255, 255, 255, 0⟩ ⟨10, 0, 0, 254⟩, rfl⟩

/-- A host with a socket on port 2000. -/
def listening : Stack := exec (hostAt 1) (.opens 2000)

theorem listening_life : Life listening := .next (hostAt_life 1) ⟨.opens 2000, rfl⟩

theorem udp_round_trip_everyone :
    ∃ frame queued, handedSince (hostAt 2).net.toMnNet
        (mnNetSendUdp (hostAt 2).net limitedBcast 1000 2000 [7]).2.toMnNet = [(frame, queued)] ∧
      ∀ (f : RxFrame) pad, f.bytes = frame.bytes ++ pad →
        ∀ cap, [(7 : UInt8)].length ≤ UInt16.toNat cap →
        (mnNetUdpRecv (mnNetPoll listening (some f)).net (mnNetPoll listening (some f)).x
          (UInt8.ofNat (0 : Fin 4)) cap).1 =
          some ⟨[7], (hostAt 2).net.ip, 1000⟩ :=
  udp_round_trip listening_life (by decide) (by decide) (by decide) (by decide) (Or.inl rfl) 1000

theorem broadcast_delivered_iff_everyone :
    ∃ frame queued, handedSince (hostAt 2).net.toMnNet
        (mnNetSendUdp (hostAt 2).net limitedBcast 1000 2000 [7]).2.toMnNet = [(frame, queued)] ∧
      ∀ (f : RxFrame) pad, f.bytes = frame.bytes ++ pad →
        ∀ cap, [(7 : UInt8)].length ≤ UInt16.toNat cap →
        ((mnNetUdpRecv (mnNetPoll listening (some f)).net (mnNetPoll listening (some f)).x
          (UInt8.ofNat (0 : Fin 4))
            cap).1 = some ⟨[7], (hostAt 2).net.ip, 1000⟩ ↔
          (limitedBcast = limitedBcast ∨ limitedBcast = listening.net.ip) ∧
            [(7 : UInt8)].length ≤ 576) :=
  broadcast_delivered_iff listening_life (by decide) (by decide) (by decide) (by decide)
    (limited_broadcast (hostAt 2).net.toMnNet) (by decide) 1000

/-- The directed broadcast of their subnet. -/
def directed : Ip4 := ⟨10, 0, 0, 255⟩

/-- What the second host sends to it. -/
def directedFrame : RxFrame where
  bytes := (Frame.udp mnEthBroadcast (hostAt 2).net.nif.mac
    (hostAt 2).net.ip directed 1 1000 2000 [7]).bytes
  fits := by decide

/-- The sender takes the address for a broadcast, the receiver drops the frame. -/
theorem directed_broadcast_dropped :
    Life listening ∧ Life (hostAt 2) ∧ listening.net.mask = (hostAt 2).net.mask ∧
      listening.net.ip ≠ (hostAt 2).net.ip ∧
      mnNetNextHop (hostAt 2).net.toMnNet listening.net.ip = listening.net.ip ∧
      isBroadcast (hostAt 2).net.toMnNet directed = true ∧
      (listening.net.sock 0).port = 2000 ∧ (listening.net.sock 0).pending = false ∧
      (handedSince (hostAt 2).net.toMnNet
        (mnNetSendUdp (hostAt 2).net directed 1000 2000 [7]).2.toMnNet).map
        (·.1.bytes) = [directedFrame.bytes] ∧
      (mnNetUdpRecv (mnNetPoll listening (some directedFrame)).net
        (mnNetPoll listening (some directedFrame)).x 0
        100).1.map (·.data) = none :=
  ⟨listening_life, hostAt_life 2, by decide, by decide, by decide, by decide, by decide, by decide,
    by decide +kernel, by decide +kernel⟩

end MegaNet.UdpDelivery
