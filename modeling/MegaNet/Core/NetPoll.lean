import MegaNet.Core.Udp
import MegaNet.Core.TcpSet

/-! The receive side of the network layer (`mn_net_poll`), with TCP as the
protocol that takes the IPv4 packets left over. -/
namespace MegaNet.Core

/-- A frame `nif->rx` copies into the buffer, of at most `MN_MAX_FRAME` bytes. -/
structure RxFrame where
  bytes : List UInt8
  fits : bytes.length ≤ 1518

def RxFrame.len (f : RxFrame) : UInt16 := UInt16.ofNat f.bytes.length

theorem options_fit (n : Nat) (seg : List UInt8) : ((seg.take (n % 16 * 4)).drop 20).length ≤ 40 := by
  have := List.length_take_le (n % 16 * 4) seg
  rw [List.length_drop]
  omega

theorem payload_fits (n : UInt16) (k : Nat) (seg : List UInt8) :
    ((seg.take n.toNat).drop k).length < 65536 := by
  have := List.length_take_le n.toNat seg
  have := n.toNat_lt
  rw [List.length_drop]
  omega

/-- The segment in the `slen` bytes of an IPv4 payload. -/
def tcpSegment (seg : List UInt8) (slen : UInt16) : TcpSeg where
  sport := get16 seg 0
  dport := get16 seg 2
  seq := get32 seg 4
  ack := get32 seg 8
  flags :=
    { fin := byteAt seg 13 &&& 0x01 != 0
      syn := byteAt seg 13 &&& 0x02 != 0
      rst := byteAt seg 13 &&& 0x04 != 0
      psh := byteAt seg 13 &&& 0x08 != 0
      ack := byteAt seg 13 &&& 0x10 != 0 }
  wnd := get16 seg 14
  opts := (seg.take ((byteAt seg 12 >>> 4).toNat % 16 * 4)).drop 20
  data := (seg.take slen.toNat).drop ((byteAt seg 12 >>> 4).toNat % 16 * 4)
  optsFit := options_fit _ _
  dataFits := payload_fits _ _ _

/-- The tests at the top of `mn_tcp_input`. -/
def tcpAccepts (ip : List UInt8) : Bool :=
  let seg := mnIpv4Payload ip
  let slen := mnIpv4PayloadLen ip
  let hlen := ((byteAt seg 12 >>> 4) * 4).toUInt16
  !(slen < 20) && mnChecksumPseudo (mnIpv4Src ip) (mnIpv4Dst ip) MN_IPPROTO_TCP seg slen == 0 &&
    !(hlen < 20 || hlen > slen)

/-- The network layer, the sockets behind its `tcp_input` if that is set, and
the pool. -/
structure Stack where
  net : MnNetFull
  tcp : Option MnTcpSet
  x : XMem

/-- `net->tcp_input`, which is `mn_tcp_input`. -/
def Stack.tcpInput (st : Stack) (ip : List UInt8) : Stack :=
  match st.tcp with
  | none => st
  | some set =>
    if tcpAccepts ip then
      let (set, x, net) := mnTcpInput set st.x st.net.toMnNet (mnIpv4Src ip)
        (tcpSegment (mnIpv4Payload ip) (mnIpv4PayloadLen ip))
      { net := { st.net with toMnNet := net }, tcp := some set, x }
    else st

/-- `send` as the receive side uses it. -/
def MnNetFull.reply (net : MnNetFull) (frame : Frame) : MnNetFull :=
  { net with toMnNet := (net.toMnNet.send frame).2 }

/-- The ARP case of `mn_net_poll`. -/
def arpInput (net : MnNetFull) (frame : List UInt8) (len : UInt16) : MnNetFull :=
  if mnArpOpcode frame len = MN_ARP_OP_REPLY then
    { net with
      arp := mnArpCacheLearn net.arp (mnArpSenderIp frame) (mnArpSenderMac frame)
      arpLearned := net.arpLearned + 1 }
  else if mnArpWantsUs frame len net.ip then
    let net := { net with arp := mnArpCacheLearn net.arp (mnArpSenderIp frame) (mnArpSenderMac frame) }
    let net := net.reply (.arpReply net.nif.mac net.ip (mnArpSenderMac frame) (mnArpSenderIp frame))
    { net with arpReplies := net.arpReplies + 1 }
  else net

/-- The reply `mn_icmp_build_echo_reply` builds. -/
def echoReply (net : MnNetFull) (frame : List UInt8) : Frame :=
  let ip := frame.drop 14
  .echoReply (macAt frame 6) net.nif.mac net.ip (mnIpv4Src ip) (get16 ip 4)
    (((mnIpv4Payload ip).take (mnIpv4PayloadLen ip).toNat).drop 4)

/-- A packet for us, for everyone, or any at all while we have no address. -/
def ipAccepts (net : MnNetFull) (ip : List UInt8) : Bool :=
  mnIpv4Dst ip == net.ip || mnIpv4Dst ip == limitedBcast || net.ip == zeroIp

/-- The IPv4 case of `mn_net_poll`. -/
def Stack.ipInput (st : Stack) (frame : List UInt8) (len : UInt16) : Stack :=
  let ip := frame.drop 14
  if len < 34 || !mnIpv4Valid ip (len - 14) || !ipAccepts st.net ip then st
  else if mnIpv4Proto ip = MN_IPPROTO_ICMP then
    if mnIcmpIsEchoRequest frame len st.net.ip then
      let net := st.net.reply (echoReply st.net frame)
      { st with net := { net with echoReplies := net.echoReplies + 1 } }
    else st
  else if mnIpv4Proto ip = MN_IPPROTO_UDP then
    let (net, x) := deliverUdp st.net st.x ip
    { st with net, x }
  else if mnIpv4Proto ip = MN_IPPROTO_TCP then st.tcpInput ip
  else st

/-- `mn_net_poll`, on the frame `nif->rx` has or has not. -/
def mnNetPoll (st : Stack) : Option RxFrame → Stack
  | none => st
  | some f =>
    let st := { st with net := { st.net with rxFrames := st.net.rxFrames + 1 } }
    if f.len < 14 || !mnEtherIsForUs f.bytes st.net.nif.mac then st
    else if mnEtherType f.bytes = MN_ETHERTYPE_ARP then { st with net := arpInput st.net f.bytes f.len }
    else if mnEtherType f.bytes = MN_ETHERTYPE_IPV4 then st.ipInput f.bytes f.len
    else st

end MegaNet.Core
