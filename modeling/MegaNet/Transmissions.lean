import MegaNet.UdpSockets
import MegaNet.WireFormats

/-! Every frame the stack hands to its link, whatever it is doing: whose it is,
how long it can be, and that a receiver's checks pass it. -/
namespace MegaNet.Transmissions
open MegaNet.Core Words TcpEmission TcpSocketInvariant TcpOutcomes TcpConnection TcpSendStream
  TcpSetRuns TcpTurns TcpIsolation
  UdpOutcomes UdpSockets Checksums WireFormats

variable {st : Stack} {net before middle after : MnNet} {seg : TcpSeg} {room : Nat}

/-! ## What a frame of ours is -/

/-- A segment with its options in whole words that fits an Ethernet frame. -/
structure Short (seg : TcpSeg) : Prop where
  words : seg.opts.length % 4 = 0
  size : seg.opts.length + seg.data.length ≤ 1460

/-- A frame the host with these addresses builds, a segment being `good` and a
datagram having at most `room` bytes. -/
inductive Spoken (mac : Mac) (ip : Ip4) (good : TcpSeg → Prop) (room : Nat) : Frame → Prop where
  | arpRequest (target : Ip4) : Spoken mac ip good room (.arpRequest mac ip target)
  | arpReply (targetMac : Mac) (target : Ip4) : Spoken mac ip good room
      (.arpReply mac ip targetMac target)
  | tcp (dstMac : Mac) (dst : Ip4) (id : UInt16) (seg : TcpSeg) (fine : good seg) :
      Spoken mac ip good room (.tcp dstMac mac ip dst id seg)
  | udp (dstMac : Mac) (dst : Ip4) (id sport dport : UInt16) (payload : List UInt8)
      (fits : payload.length ≤ room) :
      Spoken mac ip good room (.udp dstMac mac ip dst id sport dport payload)
  | echoReply (dstMac : Mac) (dst : Ip4) (id : UInt16) (rest : List UInt8) (fits : rest.length ≤ 1480) :
      Spoken mac ip good room (.echoReply dstMac mac ip dst id rest)

/-- The link was handed frames that all satisfy `p`. -/
def Hands (p : Frame → Prop) (before after : MnNet) : Prop :=
  ∃ frames, Handed before after frames ∧ ∀ entry ∈ frames, p entry.1

/-- One state of a net follows another by transmitting frames of its own. -/
structure Speaks (good : TcpSeg → Prop) (room : Nat) (before after : MnNet) : Prop where
  mac : after.nif.mac = before.nif.mac
  ip : after.ip = before.ip
  record : Hands (Spoken before.nif.mac before.ip good room) before after

section
variable {p q : Frame → Prop}

theorem Hands.nothing (net : MnNet) : Hands p net net := ⟨[], Handed.refl net, by simp⟩

theorem Hands.one {frame : Frame} {queued : Bool} (handed : Handed before after [(frame, queued)])
    (fine : p frame) :
    Hands p before after := by
  refine ⟨_, handed, fun entry member => ?_⟩
  rw [List.mem_singleton.mp member]
  exact fine

theorem Hands.trans (first : Hands p before middle) (second : Hands p middle after) :
    Hands p before after := by
  obtain ⟨front, handed, fine⟩ := first
  obtain ⟨back, handed', fine'⟩ := second
  refine ⟨front ++ back, handed.trans handed', fun entry member => ?_⟩
  exact (List.mem_append.mp member).elim (fine entry) (fine' entry)

theorem Hands.mono (hands : Hands p before after) (weaker : ∀ frame, p frame → q frame) :
    Hands q before after := by
  obtain ⟨frames, handed, fine⟩ := hands
  exact ⟨frames, handed, fun entry member => weaker entry.1 (fine entry member)⟩

theorem Hands.since (hands : Hands p before after) : ∀ entry ∈ handedSince before after, p entry.1 := by
  obtain ⟨frames, handed, fine⟩ := hands
  rwa [handed_since handed]

end

section
variable {good : TcpSeg → Prop}

theorem Speaks.refl (net : MnNet) : Speaks good room net net := ⟨rfl, rfl, Hands.nothing net⟩

theorem Speaks.trans (first : Speaks good room before middle) (second : Speaks good room middle after) :
    Speaks good room before after := by
  have later := second.record
  rw [first.mac, first.ip] at later
  exact ⟨second.mac.trans first.mac, second.ip.trans first.ip, first.record.trans later⟩

private theorem speaks_chains : Chains (Speaks good room) := ⟨Speaks.refl, Speaks.trans⟩

theorem Spoken.strengthen {mac : Mac} {ip : Ip4} {frame : Frame}
    (spoken : Spoken mac ip (fun _ => True) room frame)
    (carried : ∀ seg, segmentOf frame = some seg → good seg) : Spoken mac ip good room frame := by
  cases spoken with
  | arpRequest target => exact .arpRequest target
  | arpReply targetMac target => exact .arpReply targetMac target
  | tcp dstMac dst id seg => exact .tcp dstMac dst id seg (carried seg rfl)
  | udp dstMac dst id sport dport payload fits => exact .udp dstMac dst id sport dport payload fits
  | echoReply dstMac dst id rest fits => exact .echoReply dstMac dst id rest fits

/-- The same record says which frames are the host's and what their segments are. -/
theorem Speaks.sends (speaks : Speaks (fun _ => True) room before after)
    (sends : Sends before after good) :
    Speaks good room before after := by
  obtain ⟨frames, handed, spoken⟩ := speaks.record
  obtain ⟨frames', handed', fine⟩ := sends
  obtain rfl := handed.unique handed'
  refine ⟨speaks.mac, speaks.ip, frames, handed, fun entry member => ?_⟩
  exact (spoken entry member).strengthen (fine entry member)

private theorem send_speaks {frame : Frame} (spoken : Spoken net.nif.mac net.ip good room frame) :
    Speaks good room net (net.send frame).2 := by
  obtain ⟨handed, same, _⟩ := send_spec net frame
  exact ⟨same.mac, same.ip, Hands.one handed spoken⟩

theorem emit_speaks {t : MnTcp} {x : XMem} {flags : SegFlags} {seq : UInt32}
    {off len : UInt16} {mss : Bool}
    (fine : good (buildSegment t x flags seq off len mss)) (net : MnNet) :
    Speaks good room net (emit t x net flags seq off len mss).2.2 := by
  have emission := emit_emission t x net flags seq off len mss
  generalize emit t x net flags seq off len mss = out at emission
  cases emission with
  | unresolved _ _ _ same handed => exact ⟨same.mac, same.ip, Hands.one handed (.arpRequest _)⟩
  | sent _ mac _ same handed => exact ⟨same.mac, same.ip, Hands.one handed (.tcp mac _ _ _ fine)⟩

end

/-! ## The sizes of segments -/

private theorem nothing_short {seg : TcpSeg} (opts : seg.opts = []) (data : seg.data = []) : Short seg :=
  ⟨by rw [opts]; rfl, by rw [opts, data]; decide⟩

private theorem bare_short (t : MnTcp) (x : XMem) (flags : SegFlags) (seq : UInt32) (mss : Bool) :
    Short (buildSegment t x flags seq 0 0 mss) := by
  have empty : (buildSegment t x flags seq 0 0 mss).data = [] := buildSegment_empty t x
  have options : (buildSegment t x flags seq 0 0 mss).opts = if mss then mssOption else [] := rfl
  constructor <;> simp only [empty, options] <;> cases mss <;> decide

private theorem data_short (t : MnTcp) (x : XMem) (seq : UInt32) (off : UInt16) {len : UInt16}
    (fits : len.toNat ≤ 1460) :
    Short (buildSegment t x dataFlags seq off len false) := by
  refine ⟨rfl, ?_⟩
  have size : (buildSegment t x dataFlags seq off len false).data.length = len.toNat :=
    ringRead_length ..
  rw [size]
  exact (Nat.zero_add len.toNat).trans_le fits

private theorem sendQueued_short {t : MnTcp} (mss : t.peerMss.toNat ≤ 1460) (x : XMem)
    (net : MnNet) (now : UInt16) :
    Sends net (sendQueued t x net now).2 Short := by
  have looped := sendLoop_rule (motive := fun u after => u.peerMss = t.peerMss ∧ Sends net after Short)
    x now (sendLimit t) (by
      rintro u after ⟨same, sends⟩ more open_
      have size := nextLength_spec more open_
      obtain ⟨edge, stat, emitted⟩ :=
        emit_socket u x after dataFlags u.sndNxt u.inflight (nextLength u (sendLimit t)) false
      refine ⟨?_, sends.trans (emit_sends after (data_short u x u.sndNxt u.inflight ?_))⟩
      · rw [emitted]
        split <;> exact same
      · rw [same] at size
        omega)
    t.sndLen.toNat t net ⟨rfl, Sends.nothing net _⟩
  exact looped.2

private theorem pollOne_short {t : MnTcp} (mss : t.peerMss.toNat ≤ 1460) (x : XMem)
    (net : MnNet) (now : UInt16) :
    Sends net (pollOne t x net now).2 Short := by
  apply pollOne_each
  · intro u _ _
    rw [resendSyn, sendSyn_net]
    exact emit_sends net (bare_short ..)
  · exact fun _ u flags seq _ _ => emit_sends net (bare_short u x flags seq false)
  · intro _ _
    have most := toNat_clamp t.inflight t.peerMss
    refine emit_sends net (data_short _ x _ 0 ?_)
    rw [oldest, most]
    omega
  · exact fun _ _ _ => sendQueued_short mss x net now

/-! ## TCP's segments -/

theorem sendSyn_speaks (t : MnTcp) (x : XMem) (net : MnNet) (flags : SegFlags) :
    Speaks Short room net (sendSyn t x net flags).2 := by
  rw [sendSyn_net]
  exact emit_speaks (bare_short ..) net

private theorem sendRst_speaks (net : MnNet) (src : Ip4) (seg : TcpSeg) : Speaks Short room net
    (sendRst net src seg) := by
  unfold sendRst
  dsimp only
  obtain ⟨_, mac, begun⟩ | ⟨_, begun⟩ := tx_begin_spec net src <;> rw [begun]
  · have speaks : Speaks Short room { net with ipId := net.ipId + 1 } _ :=
      send_speaks (.tcp mac src net.ipId (resetFor seg) (nothing_short rfl rfl))
    exact ⟨speaks.mac, speaks.ip, speaks.record⟩
  · exact send_speaks (.arpRequest _)

theorem pollOne_speaks {t : MnTcp} (mss : t.peerMss.toNat ≤ 1460) (x : XMem)
    (net : MnNet) (now : UInt16) :
    Speaks Short room net (pollOne t x net now).2 := by
  have ours : Speaks (fun _ => True) room net (pollOne t x net now).2 :=
    pollOne_chains speaks_chains (fun _ net _ _ _ _ _ => emit_speaks trivial net) t net now
  exact ours.sends (pollOne_short mss x net now)

/-- Whatever happens to a set whose sockets have lived. -/
theorem exec_speaks {w : World} (lived : Lived w) (net : MnNet) (event : Event) :
    Speaks Short room net (w.exec net event).2 := by
  refine exec_chains speaks_chains w net event (fun t member net now => ?_)
    (fun t => sendSyn_speaks t w.x net)
    (fun t => emit_speaks (bare_short ..) net) (sendRst_speaks net)
  obtain ⟨i, found⟩ := List.mem_iff_getElem?.mp member
  exact pollOne_speaks (Lived.sound lived found).1.mss w.x net now

/-! ## The network layer -/

private theorem sendUdp_speaks (net : MnNetFull) (dst : Ip4) (sport dport : UInt16)
    {payload : List UInt8}
    (inside : payload.length ≤ MN_UDP_MAX_PAYLOAD → payload.length ≤ room) :
    Speaks Short room net.toMnNet (mnNetSendUdp net dst sport dport payload).2.toMnNet := by
  have posting := sendUdp_posting net dst sport dport payload
  generalize (mnNetSendUdp net dst sport dport payload).2 = after at posting
  cases posting with
  | tooLong _ same =>
    rw [same]
    exact Speaks.refl _
  | asked _ _ _ routes handed => exact ⟨routes.mac, routes.ip, Hands.one handed (.arpRequest _)⟩
  | sent fits _ mac _ _ routes handed =>
    exact ⟨routes.mac, routes.ip, Hands.one handed
      (.udp mac dst net.ipId sport dport payload (inside fits))⟩

private theorem arpInput_speaks (net : MnNetFull) (frame : List UInt8) (len : UInt16) :
    Speaks Short room net.toMnNet (arpInput net frame len).toMnNet := by
  unfold arpInput
  split
  · exact ⟨rfl, rfl, Hands.nothing net.toMnNet⟩
  split
  · have speaks : Speaks Short room { net.toMnNet with
        arp := mnArpCacheLearn net.arp (mnArpSenderIp frame) (mnArpSenderMac frame) } _ :=
      send_speaks (.arpReply (mnArpSenderMac frame) (mnArpSenderIp frame))
    exact ⟨speaks.mac, speaks.ip, speaks.record⟩
  · exact Speaks.refl _

private theorem tcpInput_speaks (st : Stack) (ip : List UInt8) : Speaks Short room st.net.toMnNet
    (st.tcpInput ip).net.toMnNet := by
  unfold Stack.tcpInput
  cases st.tcp with
  | none => exact Speaks.refl _
  | some set =>
    dsimp only
    split
    · exact input_chains speaks_chains set _ _ _ (fun t => sendSyn_speaks t st.x _)
        (sendRst_speaks _ _ _)
    · exact Speaks.refl _

theorem rx_length (f : RxFrame) : f.len.toNat = f.bytes.length := by
  have fits := f.fits
  rw [RxFrame.len, UInt16.toNat_ofNat']
  omega

/-- The frame's length is the packet's, with the Ethernet header. -/
theorem packet_length {f : RxFrame} (long : ¬ f.len < 14) : (f.len - 14).toNat =
    (f.bytes.drop 14).length := by
  have back : (f.len - 14).toNat = f.len.toNat - 14 := toNat_back 14 ((not_below 14 (by decide)).mp long)
  rw [back, rx_length, List.length_drop]

theorem packet_inside {f : RxFrame} (long : ¬ f.len < 34) : (f.len - 14).toNat ≤
    (f.bytes.drop 14).length := by
  have enough := (not_below 34 (by decide)).mp long
  exact (packet_length ((not_below 14 (by decide)).mpr (by omega))).le

/-- The payload of a valid packet is all there. -/
theorem payload_whole {f : RxFrame} (valid : mnIpv4Valid (f.bytes.drop 14) (f.len - 14) = true)
    (long : ¬ f.len < 14) :
    ((mnIpv4Payload (f.bytes.drop 14)).take (mnIpv4PayloadLen (f.bytes.drop 14)).toNat).length =
      (mnIpv4PayloadLen (f.bytes.drop 14)).toNat := by
  have laid := valid_laid valid
  have total := laid.total
  have inside := laid.inside
  rw [packet_length long] at inside
  refine List.length_take_of_le ?_
  rw [mnIpv4Payload, List.length_drop]
  omega

/-- A packet that came whole is no longer than a frame has room for. -/
theorem echo_fits {f : RxFrame} (valid : mnIpv4Valid (f.bytes.drop 14) (f.len - 14) = true)
    (long : ¬ f.len < 14) :
    (mnIpv4PayloadLen (f.bytes.drop 14)).toNat ≤ 1484 := by
  have laid := valid_laid valid
  have fits := f.fits
  have header := laid.header
  have total := laid.total
  have inside := laid.inside
  rw [packet_length long, List.length_drop] at inside
  omega

/-- Type 0 over an echo request's type, and a checksum over the checksum. -/
theorem overwritten (kind high low : UInt8) (csum : UInt16) (rest : List UInt8) :
    overwrite16 ((kind :: 0 :: high :: low :: rest).set 0 0) 2 csum = echoMessage csum rest := rfl

private theorem overwritten_again (csum : UInt16) (rest : List UInt8) :
    overwrite16 (echoMessage 0 rest) 2 csum = echoMessage csum rest := rfl

private theorem four_bytes {m : List UInt8} (long : 4 ≤ m.length) : ∃ a b c d rest,
    m = a :: b :: c :: d :: rest := by
  rcases m with _ | ⟨a, _ | ⟨b, _ | ⟨c, _ | ⟨d, rest⟩⟩⟩⟩
  case cons.cons.cons.cons => exact ⟨a, b, c, d, rest, rfl⟩
  all_goals
    simp only [List.length_cons, List.length_nil] at long
    omega

/-- The reply to a request that passed the tests is the one
`mn_icmp_build_echo_reply` builds from its bytes. -/
theorem echoReply_bytes (net : MnNetFull) {f : RxFrame}
    (asked : mnIcmpIsEchoRequest f.bytes f.len net.ip = true) :
    (echoReply net f.bytes).bytes = mnIcmpBuildEchoReply f.bytes net.nif.mac net.ip := by
  simp only [mnIcmpIsEchoRequest, Bool.and_eq_true, Bool.not_eq_true',
    decide_eq_false_iff_not, beq_iff_eq,
    UInt16.lt_iff_toNat_lt, not_lt, show UInt16.toNat 42 = 42 from rfl,
      show UInt16.toNat 8 = 8 from rfl] at asked
  obtain ⟨⟨⟨⟨⟨⟨⟨⟨long, _⟩, valid⟩, _⟩, _⟩, size⟩, _⟩, code⟩, _⟩ := asked
  have whole := payload_whole valid ((not_below 14 (by decide)).mpr (by omega))
  obtain ⟨kind, second, high, low, rest, message⟩ :=
    four_bytes (show 4 ≤ List.length _ by rw [whole]; omega)
  have blank : second = 0 := by
    have head : byteAt
      ((mnIpv4Payload (f.bytes.drop 14)).take (mnIpv4PayloadLen (f.bytes.drop 14)).toNat) 1 =
        byteAt (mnIpv4Payload (f.bytes.drop 14)) 1 := by
      simp only [byteAt, List.getD_eq_getElem?_getD, List.getElem?_take]
      rw [if_pos (by omega)]
    rw [code, message] at head
    exact head
  have count : mnIpv4PayloadLen (f.bytes.drop 14) = UInt16.ofNat (4 + rest.length) := by
    rw [message] at whole
    simp only [List.length_cons] at whole
    rw [← UInt16.toNat_inj, ← whole, UInt16.toNat_ofNat']
    have := (mnIpv4PayloadLen (f.bytes.drop 14)).toNat_lt
    omega
  simp only [mnIcmpBuildEchoReply, echoReply, Frame.bytes, ipv4Frame, message, blank,
    overwritten, overwritten_again,
    echo_length, List.drop_succ_cons, List.drop_zero]
  rw [count, UInt16.ofNat_add]
  rfl

private theorem ipInput_speaks (st : Stack) (f : RxFrame) (long : ¬ f.len < 14) :
    Speaks Short room st.net.toMnNet (st.ipInput f.bytes f.len).net.toMnNet := by
  unfold Stack.ipInput
  dsimp only
  split
  · exact Speaks.refl _
  rename_i accepted
  simp only [Bool.or_eq_true, Bool.not_eq_true', not_or, Bool.not_eq_false, decide_eq_true_eq]
    at accepted
  split
  · split
    · refine send_speaks (.echoReply _ _ _ _ ?_)
      have fits := echo_fits accepted.1.2 long
      have taken := List.length_take_le (mnIpv4PayloadLen (f.bytes.drop 14)).toNat
        (mnIpv4Payload (f.bytes.drop 14))
      rw [List.length_drop]
      omega
    · exact Speaks.refl _
  split
  · dsimp only
    rw [deliverUdp_toMnNet]
    exact Speaks.refl _
  split
  · exact tcpInput_speaks st _
  · exact Speaks.refl _

private theorem poll_speaks (st : Stack) (frame : Option RxFrame) :
    Speaks Short room st.net.toMnNet (mnNetPoll st frame).net.toMnNet := by
  cases frame with
  | none => exact Speaks.refl _
  | some f =>
    unfold mnNetPoll
    dsimp only
    split
    · exact Speaks.refl _
    rename_i ours
    simp only [Bool.or_eq_true, Bool.not_eq_true', not_or, Bool.not_eq_false, decide_eq_true_eq] at ours
    split
    · exact arpInput_speaks (counted st.net) f.bytes f.len
    split
    · exact ipInput_speaks { st with net := counted st.net } f ours.1
    · exact Speaks.refl _

/-- Every act hands down frames of the host's own, under the addresses it has
when the act begins. -/
theorem act_spoken (order : Orderly st) (act : Act)
    (inside : ∀ dst sport dport payload, act = .sends dst sport dport payload →
      payload.length ≤ MN_UDP_MAX_PAYLOAD → payload.length ≤ room) :
    Hands (Spoken st.net.nif.mac st.net.ip Short room) st.net.toMnNet (exec st act).net.toMnNet := by
  have quiet : ∀ {net : MnNetFull}, net.toMnNet = st.net.toMnNet →
      Hands (Spoken st.net.nif.mac st.net.ip Short room) st.net.toMnNet net.toMnNet := by
    intro net same
    rw [same]
    exact Hands.nothing _
  cases act with
  | poll frame => exact (poll_speaks st frame).record
  | opens port => exact quiet (open_toMnNet st.net port)
  | closes s => exact quiet (close_toMnNet st.net s)
  | receives s cap => exact quiet (recv_toMnNet st.net st.x s cap)
  | sends dst sport dport payload =>
    exact (sendUdp_speaks st.net dst sport dport (inside _ _ _ _ rfl)).record
  | configures ip mask gw => exact Hands.nothing st.net.toMnNet
  | tcp event =>
    simp only [exec, tcpAct]
    cases attached : st.tcp with
    | none => exact quiet rfl
    | some set => exact (exec_speaks (order.tcp set attached).1 st.net.toMnNet event).record

/-! ## A receiver's checks -/

/-- What the protocol a packet is for makes of its payload: `mn_udp_valid`, the
tests at the top of `mn_tcp_input`, the checksum of ICMP. -/
inductive Transported (pkt : List UInt8) : Prop where
  | udp (proto : mnIpv4Proto pkt = MN_IPPROTO_UDP) (valid : validUdp pkt = true)
  | tcp (proto : mnIpv4Proto pkt = MN_IPPROTO_TCP) (accepted : tcpAccepts pkt = true)
  | icmp (proto : mnIpv4Proto pkt = MN_IPPROTO_ICMP)
      (valid : mnChecksumValid (mnIpv4Payload pkt) (mnIpv4PayloadLen pkt) = true)

/-- The packet is there with its whole length and nothing more, is ours, and
passes the checks of IPv4 and of its transport. -/
structure PacketPasses (ip : Ip4) (pkt : List UInt8) : Prop where
  valid : mnIpv4Valid pkt (UInt16.ofNat pkt.length) = true
  exactly : (mnIpv4TotalLen pkt).toNat = pkt.length
  source : mnIpv4Src pkt = ip
  transported : Transported pkt

/-- What the receiver of a frame from the host with these addresses finds: an
ARP request or reply from the host, or an IPv4 packet of its. -/
structure Passes (mac : Mac) (ip : Ip4) (frame : List UInt8) : Prop where
  length : 14 ≤ frame.length ∧ frame.length ≤ 1518
  source : macAt frame 6 = mac
  content :
    (mnArpOpcode frame (UInt16.ofNat frame.length) = MN_ARP_OP_REQUEST ∨
        mnArpOpcode frame (UInt16.ofNat frame.length) = MN_ARP_OP_REPLY) ∧
      mnArpSenderMac frame = mac ∧ mnArpSenderIp frame = ip ∨
    mnEtherType frame = MN_ETHERTYPE_IPV4 ∧ PacketPasses ip (frame.drop 14)

section
variable {dstMac srcMac : Mac} {src dst : Ip4} {proto : UInt8} {id : UInt16} {payload : List UInt8}

theorem frame_totalLen (fits : payload.length ≤ 1484) :
    (mnIpv4TotalLen ((ipv4Frame dstMac srcMac src dst proto id payload).drop 14)).toNat =
      20 + payload.length := by
  show (mnIpv4TotalLen (mnIpv4Build src dst proto (UInt16.ofNat payload.length) id ++ payload)).toNat = _
  rw [ipv4_totalLen, UInt16.toNat_add, UInt16.toNat_ofNat', show UInt16.toNat 20 = 20 from rfl]
  omega

/-- A packet built around what its transport accepts. -/
theorem ipv4Frame_passes (fits : payload.length ≤ 1484)
    (transported : Transported (mnIpv4Build src dst proto (UInt16.ofNat payload.length) id ++ payload)) :
    Passes srcMac src (ipv4Frame dstMac srcMac src dst proto id payload) := by
  have size : ((ipv4Frame dstMac srcMac src dst proto id payload).drop 14).length =
      20 + payload.length :=
    List.length_append
  have count : (UInt16.ofNat payload.length).toNat = payload.length := by
    rw [UInt16.toNat_ofNat']
    omega
  refine ⟨by rw [frame_length]; omega, rfl,
    Or.inr ⟨get16_put16 MN_ETHERTYPE_IPV4 [], ?_, ?_, rfl, transported⟩⟩
  · refine ipv4_valid ?_
    rw [count, size, UInt16.toNat_ofNat']
    omega
  · rw [frame_totalLen fits, size]

private theorem udp_transported {sport dport : UInt16} (fits : payload.length ≤ 1476) :
    Transported (mnIpv4Build src dst MN_IPPROTO_UDP
      (UInt16.ofNat (mnUdpBuild src dst sport dport payload).length) id ++
      mnUdpBuild src dst sport dport payload) := by
  refine .udp rfl ?_
  have valid : mnUdpValid src dst (mnUdpBuild src dst sport dport payload ++ [])
      (8 + UInt16.ofNat payload.length) = true := udp_valid (by omega)
  rw [List.append_nil] at valid
  rwa [validUdp, ipv4_payload, ipv4_payloadLen, ipv4_src, ipv4_dst, udpBuild_length, UInt16.ofNat_add]

private theorem tcp_transported {seg : TcpSeg} (regular : Regular seg) :
    Transported (mnIpv4Build src dst MN_IPPROTO_TCP (UInt16.ofNat (tcpBuild src dst seg).length) id ++
      tcpBuild src dst seg) := by
  have accepted : tcpAccepts
    (mnIpv4Build src dst MN_IPPROTO_TCP (UInt16.ofNat (tcpBuild src dst seg).length) id ++
      (tcpBuild src dst seg ++ [])) = true := tcp_accepts regular
  rw [List.append_nil] at accepted
  exact .tcp rfl accepted

private theorem echo_transported {rest : List UInt8} (fits : rest.length ≤ 1480) :
    let message := echoMessage (mnChecksum (echoMessage 0 rest) (4 + UInt16.ofNat rest.length)) rest
    Transported (mnIpv4Build src dst MN_IPPROTO_ICMP (UInt16.ofNat message.length) id ++ message) := by
  intro message
  refine .icmp rfl ?_
  have verifies : mnChecksumValid (message ++ []) (4 + UInt16.ofNat rest.length) = true :=
    echo_verifies (by omega)
  rw [List.append_nil] at verifies
  rw [ipv4_payload, ipv4_payloadLen, echo_length, UInt16.ofNat_add]
  exact verifies

end

theorem Short.regular (short : Short seg) : Regular seg := by
  have size := short.size
  exact ⟨short.words, by omega⟩

/-- A frame of the host's own passes. -/
theorem spoken_passes {mac : Mac} {ip : Ip4} {frame : Frame}
    (spoken : Spoken mac ip Short MN_UDP_MAX_PAYLOAD frame) :
    Passes mac ip frame.bytes := by
  cases spoken with
  | arpRequest target =>
    have length := arp_request_length mac ip target
    exact ⟨by rw [Frame.bytes, length]; decide, rfl, Or.inl ⟨Or.inl (arp_opcode ..), rfl, rfl⟩⟩
  | arpReply targetMac target =>
    have length := arp_reply_length targetMac mac target ip
    exact ⟨by rw [Frame.bytes, length]; decide, rfl, Or.inl ⟨Or.inr (arp_opcode ..), rfl, rfl⟩⟩
  | tcp dstMac dst id seg short =>
    have size := short.size
    exact ipv4Frame_passes (by rw [tcpBuild_length]; omega) (tcp_transported short.regular)
  | udp dstMac dst id sport dport payload fits =>
    rw [MN_UDP_MAX_PAYLOAD] at fits
    exact ipv4Frame_passes (by rw [udpBuild_length]; omega) (udp_transported fits)
  | echoReply dstMac dst id rest fits =>
    exact ipv4Frame_passes (by rw [echo_length]; omega) (echo_transported fits)

/-- In every run of the stack, whatever it does next, each frame it hands to
the link passes the checks of a receiver: it is an ARP request or reply, or an
IPv4 packet as long as the frame whose transport accepts it, and it comes from
the host's own addresses. -/
theorem transmissions_pass (life : Life st) (act : Act) :
    ∀ entry ∈ handedSince st.net.toMnNet (exec st act).net.toMnNet,
      Passes st.net.nif.mac st.net.ip entry.1.bytes :=
  fun entry member => spoken_passes
    ((act_spoken life.orderly act fun _ _ _ _ _ fits => fits).since entry member)

theorem transmissions_pass_broadcast :
    (handedSince freshStack.net.toMnNet
      (exec freshStack (.sends limitedBcast 68 67 [1, 2, 3])).net.toMnNet).length = 1 ∧
      ∀ entry ∈ handedSince freshStack.net.toMnNet
        (exec freshStack (.sends limitedBcast 68 67 [1, 2, 3])).net.toMnNet,
        Passes freshStack.net.nif.mac freshStack.net.ip entry.1.bytes :=
  ⟨by decide +kernel, transmissions_pass (.start freshStack_begun) (.sends limitedBcast 68 67 [1, 2, 3])⟩

end MegaNet.Transmissions
