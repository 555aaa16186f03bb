import MegaNet.Core.Dhcp
import MegaNet.Core.Dns
import MegaNet.Core.NetPoll

/-! The routines that read received bytes, once more, over bytes whose end is
watched: a read past it gives `none`, and so does a loop that is not done when
its fuel is. Where a row of tests stops at the first that fails, all that they
look at is read. -/
namespace MegaNet.Core

/-! ## `mn_byteorder.h` -/

def byteAt? (m : List UInt8) (o : Nat) : Option UInt8 := m[o]?

/-- `mn_get16`. -/
def get16? (m : List UInt8) (o : Nat) : Option UInt16 := do
  let high ← byteAt? m o
  let low ← byteAt? m (o + 1)
  return high.toUInt16 <<< 8 ||| low.toUInt16

/-- `mn_get32`. -/
def get32? (m : List UInt8) (o : Nat) : Option UInt32 := do
  let b0 ← byteAt? m o
  let b1 ← byteAt? m (o + 1)
  let b2 ← byteAt? m (o + 2)
  let b3 ← byteAt? m (o + 3)
  return b0.toUInt32 <<< 24 ||| b1.toUInt32 <<< 16 ||| b2.toUInt32 <<< 8 ||| b3.toUInt32

def ipAt? (m : List UInt8) (o : Nat) : Option Ip4 := do
  return ⟨← byteAt? m o, ← byteAt? m (o + 1), ← byteAt? m (o + 2), ← byteAt? m (o + 3)⟩

def macAt? (m : List UInt8) (o : Nat) : Option Mac := do
  return ⟨← byteAt? m o, ← byteAt? m (o + 1), ← byteAt? m (o + 2), ← byteAt? m (o + 3),
    ← byteAt? m (o + 4),
    ← byteAt? m (o + 5)⟩

/-- `n` bytes from `o` on, read one by one. -/
def bytes? (m : List UInt8) (o : Nat) : Nat → Option (List UInt8)
  | 0 => some []
  | n + 1 => do
    let b ← byteAt? m o
    let rest ← bytes? m (o + 1) n
    return b :: rest

/-! ## `mn_checksum.c` -/

/-- The loop of `sum16`. -/
def sumWords? (data : List UInt8) (len : UInt16) : Nat → UInt16 → UInt16 → Option (UInt16 × UInt16)
  | 0, i, sum => if i + 1 < len then none else some (i, sum)
  | fuel + 1, i, sum =>
    if i + 1 < len then do
      let word ← get16? data i.toNat
      sumWords? data len fuel (i + 2) (addCarry sum word)
    else some (i, sum)

/-- `sum16`. -/
def sum16? (data : List UInt8) (len : UInt16) : Option UInt16 := do
  let (i, sum) ← sumWords? data len len.toNat 0 0
  if i < len then
    let last ← byteAt? data i.toNat
    return addCarry sum (last.toUInt16 <<< 8)
  else return sum

/-- `mn_checksum_valid`. -/
def mnChecksumValid? (data : List UInt8) (len : UInt16) : Option Bool := do
  return ~~~ (← sum16? data len) == 0

/-- `mn_checksum_pseudo`. -/
def mnChecksumPseudo? (src dst : Ip4) (proto : UInt8) (data : List UInt8)
    (len : UInt16) : Option UInt16 := do
  return ~~~ addCarry (← sum16? data len) (sum16 (src.bytes ++ dst.bytes ++ [0, proto] ++ put16 len) 12)

/-! ## `mn_ether.c` -/

def mnEtherType? (frame : List UInt8) : Option UInt16 := get16? frame 12

/-- `mn_ether_is_for_us`. -/
def mnEtherIsForUs? (frame : List UInt8) (mac : Mac) : Option Bool := do
  let dst ← macAt? frame 0
  return dst == mac || dst == mnEthBroadcast

/-! ## `mn_arp.c` -/

/-- `is_arp`. -/
def isArp? (frame : List UInt8) (len : UInt16) : Option Bool :=
  if len < 42 then some false
  else do
    return (← mnEtherType? frame) == MN_ETHERTYPE_ARP && (← get16? frame 14) == 1 &&
      (← get16? frame 16) == MN_ETHERTYPE_IPV4 && (← byteAt? frame 18) == 6 && (← byteAt? frame 19) == 4

/-- `mn_arp_opcode`. -/
def mnArpOpcode? (frame : List UInt8) (len : UInt16) : Option UInt16 := do
  if ← isArp? frame len then get16? frame 20 else return 0

/-- `mn_arp_wants_us`. -/
def mnArpWantsUs? (frame : List UInt8) (len : UInt16) (ip : Ip4) : Option Bool := do
  if (← mnArpOpcode? frame len) = MN_ARP_OP_REQUEST then return (← ipAt? frame 38) == ip
  else return false

/-- The ARP case of `mn_net_poll`. -/
def arpInput? (net : MnNetFull) (frame : List UInt8) (len : UInt16) : Option MnNetFull := do
  if (← mnArpOpcode? frame len) = MN_ARP_OP_REPLY then
    let ip ← ipAt? frame 28
    let mac ← macAt? frame 22
    return { net with arp := mnArpCacheLearn net.arp ip mac, arpLearned := net.arpLearned + 1 }
  else if ← mnArpWantsUs? frame len net.ip then
    let ip ← ipAt? frame 28
    let mac ← macAt? frame 22
    let net := { net with arp := mnArpCacheLearn net.arp ip mac }
    let net := net.reply (.arpReply net.nif.mac net.ip mac ip)
    return { net with arpReplies := net.arpReplies + 1 }
  else return net

/-! ## `mn_ipv4.c` -/

/-- `mn_ipv4_hdr_len`. -/
def mnIpv4HdrLen? (pkt : List UInt8) : Option UInt8 := do return ((← byteAt? pkt 0) &&& 0x0f) * 4

/-- `mn_ipv4_valid`. -/
def mnIpv4Valid? (pkt : List UInt8) (len : UInt16) : Option Bool :=
  if len < 20 then some false
  else do
    let first ← byteAt? pkt 0
    let hl ← mnIpv4HdrLen? pkt
    if !(first >>> 4 == 4) || (hl < 20 || hl.toUInt16 > len) then return false
    else
      let tl ← get16? pkt 2
      if tl < hl.toUInt16 || tl > len then return false else mnChecksumValid? pkt hl.toUInt16

/-- `mn_ipv4_payload`. -/
def mnIpv4Payload? (pkt : List UInt8) : Option (List UInt8) :=
  do return pkt.drop (← mnIpv4HdrLen? pkt).toNat

/-- `mn_ipv4_payload_len`. -/
def mnIpv4PayloadLen? (pkt : List UInt8) : Option UInt16 := do
  return (← get16? pkt 2) - (← mnIpv4HdrLen? pkt).toUInt16

/-- The gate of `mn_net_poll`. -/
def ipAccepts? (net : MnNetFull) (ip : List UInt8) : Option Bool := do
  let dst ← ipAt? ip 16
  return dst == net.ip || dst == limitedBcast || net.ip == zeroIp

/-! ## `mn_icmp.c` -/

/-- `mn_icmp_is_echo_request`. -/
def mnIcmpIsEchoRequest? (frame : List UInt8) (len : UInt16) (ip : Ip4) : Option Bool :=
  let pkt := frame.drop 14
  if len < 42 then some false
  else do
    let type ← mnEtherType? frame
    let valid ← mnIpv4Valid? pkt (len - 14)
    let proto ← byteAt? pkt 9
    let dst ← ipAt? pkt 16
    if !(type == MN_ETHERTYPE_IPV4 && valid && proto == MN_IPPROTO_ICMP && dst == ip) then return false
    else
      let icmp ← mnIpv4Payload? pkt
      let plen ← mnIpv4PayloadLen? pkt
      if plen < 8 then return false
      else
        return (← byteAt? icmp 0) == MN_ICMP_ECHO_REQUEST && (← byteAt? icmp 1) == 0 &&
          (← mnChecksumValid? icmp plen)

/-- What `mn_icmp_build_echo_reply` reads of the request. -/
def echoReply? (net : MnNetFull) (frame : List UInt8) : Option Frame := do
  let ip := frame.drop 14
  let mac ← macAt? frame 6
  let src ← ipAt? ip 12
  let id ← get16? ip 4
  let icmp ← mnIpv4Payload? ip
  let plen ← mnIpv4PayloadLen? ip
  let payload ← bytes? icmp 0 plen.toNat
  return .echoReply mac net.nif.mac net.ip src id (payload.drop 4)

/-! ## `mn_udp.c` and `deliver_udp` -/

/-- `mn_udp_valid`. -/
def mnUdpValid? (src dst : Ip4) (udp : List UInt8) (len : UInt16) : Option Bool :=
  if len < 8 then some false
  else do
    return (← get16? udp 4) == len &&
      ((← get16? udp 6) == 0 || (← mnChecksumPseudo? src dst MN_IPPROTO_UDP udp len) == 0)

/-- `deliver_udp`. -/
def deliverUdp? (net : MnNetFull) (x : XMem) (ip : List UInt8) : Option (MnNetFull × XMem) := do
  let udp ← mnIpv4Payload? ip
  let ulen ← mnIpv4PayloadLen? ip
  let src ← ipAt? ip 12
  let dst ← ipAt? ip 16
  if !(← mnUdpValid? src dst udp ulen) then return (net, x)
  else
    let dport ← get16? udp 2
    match socketOn net.sock dport with
    | none => return ({ net with udpDropped := net.udpDropped + 1 }, x)
    | some i =>
      let s := net.sock i
      let plen := ulen - 8
      if s.pending || plen > MN_UDP_SOCK_BUF then
        return ({ net with udpDropped := net.udpDropped + 1 }, x)
      else
        let payload ← bytes? udp 8 plen.toNat
        let sport ← get16? udp 0
        return ({ net.setSock i
          { s with len := plen, srcIp := src, srcPort := sport, pending := true } with
            udpRx := net.udpRx + 1 },
          mnXmemWrite x s.xseg s.xoff payload plen)

/-! ## `mn_tcp.c` -/

/-- The tests at the top of `mn_tcp_input`. -/
def tcpAccepts? (ip : List UInt8) : Option Bool := do
  let seg ← mnIpv4Payload? ip
  let slen ← mnIpv4PayloadLen? ip
  if slen < 20 then return false
  else
    let src ← ipAt? ip 12
    let dst ← ipAt? ip 16
    let csum ← mnChecksumPseudo? src dst MN_IPPROTO_TCP seg slen
    let hlen := (((← byteAt? seg 12) >>> 4) * 4).toUInt16
    return csum == 0 && !(hlen < 20 || hlen > slen)

/-- The header and all that may be read of the options and the payload. -/
def tcpSegment? (seg : List UInt8) (slen : UInt16) : Option TcpSeg := do
  let hlen := ((← byteAt? seg 12) >>> 4).toNat % 16 * 4
  let flags ← byteAt? seg 13
  let sport ← get16? seg 0
  let dport ← get16? seg 2
  let seq ← get32? seg 4
  let ack ← get32? seg 8
  let wnd ← get16? seg 14
  let opts ← bytes? seg 20 (hlen - 20)
  let data ← bytes? seg hlen (slen.toNat - hlen)
  if fit : opts.length ≤ 40 ∧ data.length < 65536 then
    return {
      sport, dport, seq, ack, wnd, opts, data
      flags :=
        { fin := flags &&& 0x01 != 0
          syn := flags &&& 0x02 != 0
          rst := flags &&& 0x04 != 0
          psh := flags &&& 0x08 != 0
          ack := flags &&& 0x10 != 0 }
      optsFit := fit.1
      dataFits := fit.2 }
  else none

/-- The loop of `take_mss`, by its offset into the segment. -/
def takeMssAt? (seg : List UInt8) (hlen : UInt16) : Nat → UInt16 → UInt16 → Option UInt16
  | 0, o, mss => if o + 1 < hlen then none else some mss
  | fuel + 1, o, mss =>
    if o + 1 < hlen then do
      let kind ← byteAt? seg o.toNat
      if kind = 0 then return mss
      else if kind = 1 then takeMssAt? seg hlen fuel (o + 1) mss
      else
        let length ← byteAt? seg (o + 1).toNat
        let mss ← if kind = 2 ∧ length = 4 ∧ o + 3 < hlen then get16? seg (o + 2).toNat else some mss
        if length < 2 then return mss else takeMssAt? seg hlen fuel (o + length.toUInt16) mss
    else some mss

/-- `mn_tcp_input`, from the network layer. -/
def Stack.tcpInput? (st : Stack) (ip : List UInt8) : Option Stack :=
  match st.tcp with
  | none => some st
  | some set => do
    if ← tcpAccepts? ip then
      let seg ← tcpSegment? (← mnIpv4Payload? ip) (← mnIpv4PayloadLen? ip)
      let src ← ipAt? ip 12
      let (set, x, net) := mnTcpInput set st.x st.net.toMnNet src seg
      return { net := { st.net with toMnNet := net }, tcp := some set, x }
    else return st

/-! ## `mn_net_poll` -/

/-- Its IPv4 case. -/
def Stack.ipInput? (st : Stack) (frame : List UInt8) (len : UInt16) : Option Stack :=
  let ip := frame.drop 14
  if len < 34 then some st
  else do
    if !(← mnIpv4Valid? ip (len - 14)) || !(← ipAccepts? st.net ip) then return st
    else
      let proto ← byteAt? ip 9
      if proto = MN_IPPROTO_ICMP then
        if ← mnIcmpIsEchoRequest? frame len st.net.ip then
          let net := st.net.reply (← echoReply? st.net frame)
          return { st with net := { net with echoReplies := net.echoReplies + 1 } }
        else return st
      else if proto = MN_IPPROTO_UDP then
        let (net, x) ← deliverUdp? st.net st.x ip
        return { st with net, x }
      else if proto = MN_IPPROTO_TCP then st.tcpInput? ip
      else return st

/-- `mn_net_poll`. -/
def mnNetPoll? (st : Stack) : Option RxFrame → Option Stack
  | none => some st
  | some f =>
    let st := { st with net := { st.net with rxFrames := st.net.rxFrames + 1 } }
    if f.len < 14 then some st
    else do
      if !(← mnEtherIsForUs? f.bytes st.net.nif.mac) then return st
      else
        let type ← mnEtherType? f.bytes
        if type = MN_ETHERTYPE_ARP then return { st with net := ← arpInput? st.net f.bytes f.len }
        else if type = MN_ETHERTYPE_IPV4 then st.ipInput? f.bytes f.len
        else return st

/-! ## `mn_dhcp.c` -/

namespace Dhcp

/-- One option, of which `olen` bytes at `o` are the data. -/
def Walked.take? (w : Walked) (m : List UInt8) (code : UInt8) (o : Nat) (olen : UInt8) :
    Option Walked := do
  if code = OPT_MSG_TYPE then
    if olen ≥ 1 then return { w with type := ← byteAt? m o } else return w
  else if code = OPT_OVERLOAD then
    if olen ≥ 1 then return { w with overload := ← byteAt? m o } else return w
  else if olen < 4 then return w
  else if code = OPT_MASK then return { w with d := { w.d with mask := ← ipAt? m o } }
  else if code = OPT_ROUTER then return { w with d := { w.d with gw := ← ipAt? m o } }
  else if code = OPT_DNS then return { w with d := { w.d with dns := ← ipAt? m o } }
  else if code = OPT_SERVER_ID then return { w with d := { w.d with serverId := ← ipAt? m o } }
  else if code = OPT_LEASE then return { w with d := { w.d with leaseS := ← get32? m o } }
  else return w

/-- The loop of `walk`. -/
def walkFrom? (m : List UInt8) (stop : UInt16) : Nat → UInt16 → Walked → Option Walked
  | 0, o, w => if o < stop then none else some w
  | fuel + 1, o, w =>
    if o < stop then do
      let code ← byteAt? m o.toNat
      if code = OPT_END then return w
      else if code = 0 then walkFrom? m stop fuel (o + 1) w
      else if o + 1 ≥ stop then return w
      else
        let olen ← byteAt? m (o + 1).toNat
        if o + 2 + olen.toUInt16 > stop then return w
        else
          let w ← w.take? m code (o + 2).toNat olen
          walkFrom? m stop fuel (o + 2 + olen.toUInt16) w
    else some w

/-- `walk`. -/
def walk? (m : List UInt8) (o stop : UInt16) (w : Walked) : Option Walked :=
  walkFrom? m stop stop.toNat o w

/-- The header tests of `parse`. -/
def isForUs? (d : MnDhcp) (mac : Mac) (m : List UInt8) : Option Bool :=
  if UInt16.ofNat m.length < HDR_LEN + 4 then some false
  else do
    let xid : Xid := ⟨← byteAt? m 4, ← byteAt? m 5, ← byteAt? m 6, ← byteAt? m 7⟩
    return (← byteAt? m 0) == OP_REPLY && xid == d.xid && (← macAt? m 28) == mac &&
      [← byteAt? m 236, ← byteAt? m 237, ← byteAt? m 238, ← byteAt? m 239] == cookie

/-- `parse`, with the address it hands to its caller. -/
def parse? (d : MnDhcp) (mac : Mac) (m : List UInt8) : Option ((UInt8 × MnDhcp) × Option Ip4) := do
  if ← isForUs? d mac m then
    let address ← ipAt? m 16
    let w ← walk? m (HDR_LEN + 4) (UInt16.ofNat m.length) { d }
    let w ← if w.overload &&& 1 ≠ 0 then walk? m OFF_FILE HDR_LEN w else some w
    let w ← if w.overload &&& 2 ≠ 0 then walk? m OFF_SNAME OFF_FILE w else some w
    return ((w.type, w.d), some address)
  else return ((0, d), none)

end Dhcp

/-! ## `mn_dns.c` -/

namespace Dns

/-- The loop of `skip_name`. -/
def skipNameFrom? (m : List UInt8) (len : UInt16) : Nat → UInt16 → Option UInt16
  | 0, o => if o < len then none else some 0
  | fuel + 1, o =>
    if o < len then do
      let n ← byteAt? m o.toNat
      if n = 0 then return o + 1
      else if n &&& 0xc0 = 0xc0 then return (if o + 2 ≤ len then o + 2 else 0)
      else skipNameFrom? m len fuel (o + 1 + n.toUInt16)
    else some 0

/-- `skip_name`. -/
def skipName? (m : List UInt8) (o len : UInt16) : Option UInt16 := skipNameFrom? m len len.toNat o

/-- One turn of the loop over the questions. -/
def question? (m : List UInt8) (len o : UInt16) : Option (Option UInt16) := do
  let o ← skipName? m o len
  return if o = 0 ∨ o + 4 > len then none else some (o + 4)

/-- One turn of the loop over the answers. -/
def record? (m : List UInt8) (len o : UInt16) : Option Record := do
  let o ← skipName? m o len
  if o = 0 ∨ o + 10 > len then return .malformed
  else
    let type ← get16? m o.toNat
    let cls ← get16? m (o.toNat + 2)
    let rdlen ← get16? m (o.toNat + 8)
    let o := o + 10
    if o + rdlen > len then return .malformed
    else if type = TYPE_A ∧ cls = CLASS_IN ∧ rdlen = 4 then return .answer (← ipAt? m o.toNat)
    else return .other (o + rdlen)

/-- `while (qd--)`. -/
def questions? (m : List UInt8) (len : UInt16) : Nat → UInt16 → Option (Option UInt16)
  | 0, o => some (some o)
  | qd + 1, o => do
    match ← question? m len o with
    | none => return none
    | some o => questions? m len qd o

/-- `while (an--)`. -/
def answers? (m : List UInt8) (len : UInt16) : Nat → UInt16 → Option (Option Ip4)
  | 0, _ => some none
  | an + 1, o => do
    match ← record? m len o with
    | .malformed => return none
    | .answer ip => return some ip
    | .other o => answers? m len an o

/-- `parse`. -/
def parse? (d : MnDns) (m : List UInt8) : Option (Bool × MnDns) :=
  let len := UInt16.ofNat m.length
  if len < HDR_LEN then some (false, d)
  else do
    if (← get16? m 0) ≠ d.id then return (false, d)
    else
      let flags ← get16? m 2
      if flags &&& FLAG_QR = 0 then return (false, d)
      else if flags &&& RCODE_MASK ≠ 0 then return (false, { d with state := .failed })
      else
        match ← questions? m len (← get16? m 4).toNat HDR_LEN with
        | none => return (false, d)
        | some o =>
          match ← answers? m len (← get16? m 6).toNat o with
          | none => return (false, d)
          | some ip => return (true, { d with ip })

end Dns

end MegaNet.Core
