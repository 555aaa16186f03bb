import MegaNet.Core.NetPoll

/-! Frames as the bytes `nif->tx` is handed: `mn_put16`, `mn_put32` and the
building half of `mn_ether.c`, `mn_arp.c`, `mn_ipv4.c`, `mn_icmp.c`, `mn_udp.c`
and `mn_tcp.c`. What a builder writes at a pointer is the list of bytes from
there on, a checksum field being filled in last. -/
namespace MegaNet.Core

/-- `mn_put32`. -/
def put32 (v : UInt32) : List UInt8 :=
  [(v >>> 24).toUInt8, (v >>> 16).toUInt8, (v >>> 8).toUInt8, v.toUInt8]

def Mac.bytes (m : Mac) : List UInt8 := [m.m0, m.m1, m.m2, m.m3, m.m4, m.m5]

/-- `mn_ether_build`. -/
def mnEtherBuild (dst src : Mac) (ethertype : UInt16) : List UInt8 :=
  dst.bytes ++ src.bytes ++ put16 ethertype

/-! ## `mn_arp.c` -/

/-- `fixed_header`. -/
def fixedHeader (oper : UInt16) : List UInt8 :=
  put16 1 ++ put16 MN_ETHERTYPE_IPV4 ++ [6, 4] ++ put16 oper

/-- The addresses after it: sender and target. -/
def arpAddresses (sha : Mac) (spa : Ip4) (tha : Mac) (tpa : Ip4) : List UInt8 :=
  sha.bytes ++ spa.bytes ++ tha.bytes ++ tpa.bytes

/-- `mn_arp_build_request`. -/
def mnArpBuildRequest (senderMac : Mac) (senderIp targetIp : Ip4) : List UInt8 :=
  mnEtherBuild mnEthBroadcast senderMac MN_ETHERTYPE_ARP ++ fixedHeader MN_ARP_OP_REQUEST ++
    arpAddresses senderMac senderIp ⟨0, 0, 0, 0, 0, 0⟩ targetIp

/-- `mn_arp_build_reply`, to the sender `request` names. -/
def mnArpBuildReply (requestMac : Mac) (requestIp : Ip4) (ourMac : Mac) (ourIp : Ip4) : List UInt8 :=
  mnEtherBuild requestMac ourMac MN_ETHERTYPE_ARP ++ fixedHeader MN_ARP_OP_REPLY ++
    arpAddresses ourMac ourIp requestMac requestIp

/-! ## `mn_ipv4.c` -/

def ipv4Header (src dst : Ip4) (proto : UInt8) (payloadLen id csum : UInt16) : List UInt8 :=
  [0x45, 0] ++ put16 (20 + payloadLen) ++ put16 id ++ put16 0x4000 ++ [64, proto] ++ put16 csum ++
    src.bytes ++ dst.bytes

/-- `mn_ipv4_build`. -/
def mnIpv4Build (src dst : Ip4) (proto : UInt8) (payloadLen id : UInt16) : List UInt8 :=
  ipv4Header src dst proto payloadLen id (mnChecksum (ipv4Header src dst proto payloadLen id 0) 20)

/-! ## `mn_udp.c` -/

def udpHeader (sport dport len csum : UInt16) : List UInt8 :=
  put16 sport ++ put16 dport ++ put16 len ++ put16 csum

/-- The checksum `mn_udp_build` stores: zero means there is none. -/
def udpChecksum (src dst : Ip4) (sport dport len : UInt16) (payload : List UInt8) : UInt16 :=
  let c := mnChecksumPseudo src dst MN_IPPROTO_UDP (udpHeader sport dport len 0 ++ payload) len
  if c = 0 then 0xffff else c

/-- `mn_udp_build`, with the payload behind the header. -/
def mnUdpBuild (src dst : Ip4) (sport dport : UInt16) (payload : List UInt8) : List UInt8 :=
  let len := 8 + UInt16.ofNat payload.length
  udpHeader sport dport len (udpChecksum src dst sport dport len payload) ++ payload

/-! ## `mn_tcp.c` -/

/-- The flag byte. -/
def SegFlags.byte (f : SegFlags) : UInt8 :=
  (if f.fin then 0x01 else 0) ||| (if f.syn then 0x02 else 0) ||| (if f.rst then 0x04 else 0) |||
    (if f.psh then 0x08 else 0) ||| (if f.ack then 0x10 else 0)

/-- `hlen` of a segment `emit` or `send_rst` builds. -/
def TcpSeg.hlen (seg : TcpSeg) : UInt16 := 20 + UInt16.ofNat seg.opts.length

def tcpHeader (seg : TcpSeg) (csum : UInt16) : List UInt8 :=
  put16 seg.sport ++ put16 seg.dport ++ put32 seg.seq ++ put32 seg.ack ++
    [((seg.hlen / 4) <<< 4).toUInt8, seg.flags.byte] ++ put16 seg.wnd ++
      put16 csum ++ put16 0 ++ seg.opts

/-- The segment as `emit` and `send_rst` write it. -/
def tcpBuild (src dst : Ip4) (seg : TcpSeg) : List UInt8 :=
  tcpHeader seg (mnChecksumPseudo src dst MN_IPPROTO_TCP (tcpHeader seg 0 ++ seg.data)
    (seg.hlen + seg.dlen)) ++
    seg.data

/-! ## `mn_icmp.c` -/

/-- A field of two bytes written over. -/
def overwrite16 (m : List UInt8) (o : Nat) (v : UInt16) : List UInt8 :=
  (m.set o (v >>> 8).toUInt8).set (o + 1) v.toUInt8

/-- `mn_icmp_build_echo_reply`: the payload again, its type changed and its
checksum redone. -/
def mnIcmpBuildEchoReply (request : List UInt8) (ourMac : Mac) (ourIp : Ip4) : List UInt8 :=
  let rip := request.drop 14
  let plen := mnIpv4PayloadLen rip
  let oicmp := overwrite16 (((mnIpv4Payload rip).take plen.toNat).set 0 0) 2 0
  mnEtherBuild (macAt request 6) ourMac MN_ETHERTYPE_IPV4 ++
    mnIpv4Build ourIp (mnIpv4Src rip) MN_IPPROTO_ICMP plen (get16 rip 4) ++
    overwrite16 oicmp 2 (mnChecksum oicmp plen)

/-- An echo reply of type 0 and code 0, `rest` being what follows the checksum. -/
def echoMessage (csum : UInt16) (rest : List UInt8) : List UInt8 := [0, 0] ++ put16 csum ++ rest

/-! ## Whole frames -/

/-- An IPv4 frame around a transport's bytes, as `mn_net_tx_send` completes it. -/
def ipv4Frame (dstMac srcMac : Mac) (src dst : Ip4) (proto : UInt8) (id : UInt16)
    (payload : List UInt8) :
    List UInt8 :=
  mnEtherBuild dstMac srcMac MN_ETHERTYPE_IPV4 ++
    mnIpv4Build src dst proto (UInt16.ofNat payload.length) id ++ payload

/-- What the link is handed. -/
def Frame.bytes : Frame → List UInt8
  | .arpRequest sender senderIp target => mnArpBuildRequest sender senderIp target
  | .arpReply sender senderIp targetMac target => mnArpBuildReply targetMac target sender senderIp
  | .tcp dstMac srcMac src dst id seg =>
    ipv4Frame dstMac srcMac src dst MN_IPPROTO_TCP id (tcpBuild src dst seg)
  | .udp dstMac srcMac src dst id sport dport payload =>
    ipv4Frame dstMac srcMac src dst MN_IPPROTO_UDP id (mnUdpBuild src dst sport dport payload)
  | .echoReply dstMac srcMac src dst id rest =>
    ipv4Frame dstMac srcMac src dst MN_IPPROTO_ICMP id
      (echoMessage (mnChecksum (echoMessage 0 rest) (4 + UInt16.ofNat rest.length)) rest)

end MegaNet.Core
