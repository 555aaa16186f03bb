import MegaNet.Core.Net

/-! Received packets as the bytes they are: `mn_byteorder.h`, `mn_checksum.c`
and the reading half of `mn_ether.c`, `mn_arp.c`, `mn_ipv4.c`, `mn_icmp.c` and
`mn_udp.c`. A pointer into the frame is the list from there on. -/
namespace MegaNet.Core

/-! ## `mn_byteorder.h` -/

def byteAt (m : List UInt8) (o : Nat) : UInt8 := m.getD o 0

/-- `mn_get16`. -/
def get16 (m : List UInt8) (o : Nat) : UInt16 :=
  (byteAt m o).toUInt16 <<< 8 ||| (byteAt m (o + 1)).toUInt16

/-- `mn_get32`. -/
def get32 (m : List UInt8) (o : Nat) : UInt32 :=
  (byteAt m o).toUInt32 <<< 24 ||| (byteAt m (o + 1)).toUInt32 <<< 16 |||
    (byteAt m (o + 2)).toUInt32 <<< 8 ||| (byteAt m (o + 3)).toUInt32

/-- `mn_put16`. -/
def put16 (v : UInt16) : List UInt8 := [(v >>> 8).toUInt8, v.toUInt8]

def ipAt (m : List UInt8) (o : Nat) : Ip4 :=
  ⟨byteAt m o, byteAt m (o + 1), byteAt m (o + 2), byteAt m (o + 3)⟩

def macAt (m : List UInt8) (o : Nat) : Mac :=
  ⟨byteAt m o, byteAt m (o + 1), byteAt m (o + 2), byteAt m (o + 3), byteAt m (o + 4), byteAt m (o + 5)⟩

/-! ## `mn_checksum.c` -/

/-- One addition of `sum16`, with its end-around carry. -/
def addCarry (sum word : UInt16) : UInt16 := if sum + word < word then sum + word + 1 else sum + word

/-- The loop of `sum16`; each turn adds two to `i`, so `len` turns are enough. -/
def sumWords (data : List UInt8) (len : UInt16) : Nat → UInt16 → UInt16 → UInt16 × UInt16
  | 0, i, sum => (i, sum)
  | fuel + 1, i, sum =>
    if i + 1 < len then sumWords data len fuel (i + 2) (addCarry sum (get16 data i.toNat)) else (i, sum)

/-- `sum16`. -/
def sum16 (data : List UInt8) (len : UInt16) : UInt16 :=
  let (i, sum) := sumWords data len len.toNat 0 0
  if i < len then addCarry sum ((byteAt data i.toNat).toUInt16 <<< 8) else sum

/-- `mn_checksum`. -/
def mnChecksum (data : List UInt8) (len : UInt16) : UInt16 := ~~~ sum16 data len

/-- `mn_checksum_valid`. -/
def mnChecksumValid (data : List UInt8) (len : UInt16) : Bool := ~~~ sum16 data len == 0

/-- `mn_checksum_pseudo`. -/
def mnChecksumPseudo (src dst : Ip4) (proto : UInt8) (data : List UInt8) (len : UInt16) : UInt16 :=
  ~~~ addCarry (sum16 data len) (sum16 (src.bytes ++ dst.bytes ++ [0, proto] ++ put16 len) 12)

/-! ## `mn_ether.c` -/

def MN_ETHERTYPE_IPV4 : UInt16 := 0x0800
def MN_ETHERTYPE_ARP : UInt16 := 0x0806

def mnEtherType (frame : List UInt8) : UInt16 := get16 frame 12

/-- `mn_ether_is_for_us`. -/
def mnEtherIsForUs (frame : List UInt8) (mac : Mac) : Bool :=
  macAt frame 0 == mac || macAt frame 0 == mnEthBroadcast

/-! ## `mn_arp.c` -/

def MN_ARP_OP_REQUEST : UInt16 := 1
def MN_ARP_OP_REPLY : UInt16 := 2

/-- `is_arp`. -/
def isArp (frame : List UInt8) (len : UInt16) : Bool :=
  !(len < 42) && mnEtherType frame == MN_ETHERTYPE_ARP && get16 frame 14 == 1 &&
    get16 frame 16 == MN_ETHERTYPE_IPV4 && byteAt frame 18 == 6 && byteAt frame 19 == 4

/-- `mn_arp_opcode`. -/
def mnArpOpcode (frame : List UInt8) (len : UInt16) : UInt16 :=
  if isArp frame len then get16 frame 20 else 0

/-- `mn_arp_wants_us`. -/
def mnArpWantsUs (frame : List UInt8) (len : UInt16) (ip : Ip4) : Bool :=
  mnArpOpcode frame len == MN_ARP_OP_REQUEST && ipAt frame 38 == ip

def mnArpSenderMac (frame : List UInt8) : Mac := macAt frame 22

def mnArpSenderIp (frame : List UInt8) : Ip4 := ipAt frame 28

def MN_ARP_CACHE : Nat := 4

/-- `mn_arp_cache_init`. -/
def mnArpCacheInit (c : MnArpCache) : MnArpCache :=
  { e := c.e.map fun e => { e with valid := false }, next := 0 }

/-- The slot a new address takes: a free one, else the next in turn. -/
def arpSlot (c : MnArpCache) : Nat × UInt8 :=
  match c.e.findIdx? fun e => !e.valid with
  | some i => (i, c.next)
  | none => (c.next.toNat, (c.next + 1) % 4)

/-- `mn_arp_cache_learn`. -/
def mnArpCacheLearn (c : MnArpCache) (ip : Ip4) (mac : Mac) : MnArpCache :=
  match c.e.findIdx? fun e => e.valid && e.ip == ip with
  | some i => { c with e := c.e.modify i fun e => { e with mac } }
  | none => { e := c.e.set (arpSlot c).1 ⟨ip, mac, true⟩, next := (arpSlot c).2 }

/-! ## `mn_ipv4.c` -/

def MN_IPPROTO_ICMP : UInt8 := 1
def MN_IPPROTO_TCP : UInt8 := 6
def MN_IPPROTO_UDP : UInt8 := 17

/-- `mn_ipv4_hdr_len`. -/
def mnIpv4HdrLen (pkt : List UInt8) : UInt8 := (byteAt pkt 0 &&& 0x0f) * 4

/-- `mn_ipv4_total_len`. -/
def mnIpv4TotalLen (pkt : List UInt8) : UInt16 := get16 pkt 2

/-- `mn_ipv4_valid`. -/
def mnIpv4Valid (pkt : List UInt8) (len : UInt16) : Bool :=
  !(len < 20) && byteAt pkt 0 >>> 4 == 4 &&
    !(mnIpv4HdrLen pkt < 20 || (mnIpv4HdrLen pkt).toUInt16 > len) &&
    !(mnIpv4TotalLen pkt < (mnIpv4HdrLen pkt).toUInt16 || mnIpv4TotalLen pkt > len) &&
    mnChecksumValid pkt (mnIpv4HdrLen pkt).toUInt16

def mnIpv4Proto (pkt : List UInt8) : UInt8 := byteAt pkt 9

def mnIpv4Src (pkt : List UInt8) : Ip4 := ipAt pkt 12

def mnIpv4Dst (pkt : List UInt8) : Ip4 := ipAt pkt 16

/-- `mn_ipv4_payload`. -/
def mnIpv4Payload (pkt : List UInt8) : List UInt8 := pkt.drop (mnIpv4HdrLen pkt).toNat

/-- `mn_ipv4_payload_len`. -/
def mnIpv4PayloadLen (pkt : List UInt8) : UInt16 := mnIpv4TotalLen pkt - (mnIpv4HdrLen pkt).toUInt16

/-! ## `mn_icmp.c` -/

def MN_ICMP_ECHO_REQUEST : UInt8 := 8

/-- `mn_icmp_is_echo_request`. -/
def mnIcmpIsEchoRequest (frame : List UInt8) (len : UInt16) (ip : Ip4) : Bool :=
  let pkt := frame.drop 14
  let icmp := mnIpv4Payload pkt
  let plen := mnIpv4PayloadLen pkt
  !(len < 42) && mnEtherType frame == MN_ETHERTYPE_IPV4 && mnIpv4Valid pkt (len - 14) &&
    mnIpv4Proto pkt == MN_IPPROTO_ICMP && mnIpv4Dst pkt == ip && !(plen < 8) &&
    byteAt icmp 0 == MN_ICMP_ECHO_REQUEST && byteAt icmp 1 == 0 && mnChecksumValid icmp plen

/-! ## `mn_udp.c` -/

/-- `mn_udp_valid`. -/
def mnUdpValid (src dst : Ip4) (udp : List UInt8) (len : UInt16) : Bool :=
  !(len < 8) && get16 udp 4 == len &&
    (get16 udp 6 == 0 || mnChecksumPseudo src dst MN_IPPROTO_UDP udp len == 0)

def mnUdpSport (udp : List UInt8) : UInt16 := get16 udp 0

def mnUdpDport (udp : List UInt8) : UInt16 := get16 udp 2

end MegaNet.Core
