import MegaNet.Core.Xmem

/-! The transmit side of the network layer (`mn_net.c`) and what it stands on:
the link (`mn_netif.h`) with its driver's answers as an arbitrary pattern, the
ARP cache's lookup, and the frames handed down. TCP segments appear parsed:
the header's fields, the option bytes and the payload. -/
namespace MegaNet.Core

/-- An IPv4 address, in network order. -/
structure Ip4 where
  b0 : UInt8
  b1 : UInt8
  b2 : UInt8
  b3 : UInt8
  deriving DecidableEq

def Ip4.bytes (ip : Ip4) : List UInt8 := [ip.b0, ip.b1, ip.b2, ip.b3]

/-- An Ethernet address. -/
structure Mac where
  m0 : UInt8
  m1 : UInt8
  m2 : UInt8
  m3 : UInt8
  m4 : UInt8
  m5 : UInt8
  deriving DecidableEq

/-- `mn_eth_broadcast`. -/
def mnEthBroadcast : Mac := ⟨0xff, 0xff, 0xff, 0xff, 0xff, 0xff⟩

/-- The flag bits of a TCP header that the stack reads or writes. -/
structure SegFlags where
  fin : Bool := false
  syn : Bool := false
  rst : Bool := false
  psh : Bool := false
  ack : Bool := false
  deriving DecidableEq

/-- A TCP segment. The header's length field leaves at most forty bytes of
options, the IPv4 length field less than `2^16` bytes of payload. -/
structure TcpSeg where
  sport : UInt16
  dport : UInt16
  seq : UInt32
  ack : UInt32
  flags : SegFlags
  wnd : UInt16
  opts : List UInt8
  data : List UInt8
  optsFit : opts.length ≤ 40
  dataFits : data.length < 65536
  deriving DecidableEq

/-- `dlen`: the payload's length as the input routine computes it. -/
def TcpSeg.dlen (seg : TcpSeg) : UInt16 := UInt16.ofNat seg.data.length

/-- What the stack hands to its link. -/
inductive Frame where
  | arpRequest (sender : Mac) (senderIp target : Ip4)
  | arpReply (sender : Mac) (senderIp : Ip4) (targetMac : Mac) (target : Ip4)
  | tcp (dstMac srcMac : Mac) (src dst : Ip4) (id : UInt16) (seg : TcpSeg)
  | udp (dstMac srcMac : Mac) (src dst : Ip4) (id sport dport : UInt16) (payload : List UInt8)
  | echoReply (dstMac srcMac : Mac) (src dst : Ip4) (id : UInt16) (rest : List UInt8)
  deriving DecidableEq

def MN_MAX_FRAME : UInt16 := 1518

/-- `mn_netif`. `accepts` answers for the driver: whether the frame handed to
it after `n` others was queued. `handed` records every frame with its answer. -/
structure MnNetif where
  mac : Mac
  accepts : Nat → Bool
  handed : List (Frame × Bool) := []

/-- `nif->tx`. -/
def MnNetif.tx (nif : MnNetif) (frame : Frame) : Bool × MnNetif :=
  let queued := nif.accepts nif.handed.length
  (queued, { nif with handed := nif.handed ++ [(frame, queued)] })

/-- `mn_arp_entry`. -/
structure MnArpEntry where
  ip : Ip4
  mac : Mac
  valid : Bool

/-- `mn_arp_cache`: its entries, `MN_ARP_CACHE` of them, and the next to go. -/
structure MnArpCache where
  e : List MnArpEntry
  next : UInt8

/-- `mn_arp_cache_lookup`. -/
def mnArpCacheLookup (c : MnArpCache) (ip : Ip4) : Option Mac :=
  (c.e.find? fun e => e.valid && e.ip == ip).map (·.mac)

/-- The fields of `mn_net` that transmitting reads and writes. -/
structure MnNet where
  nif : MnNetif
  ip : Ip4
  mask : Ip4
  gw : Ip4
  arp : MnArpCache
  ipId : UInt16
  txFailures : UInt16

/-- `MN_SEND_FAILED`, `MN_SEND_OK`, `MN_SEND_PENDING`. -/
inductive SendResult where
  | failed
  | ok
  | pending
  deriving DecidableEq

def limitedBcast : Ip4 := ⟨255, 255, 255, 255⟩

/-- `send`. -/
def MnNet.send (net : MnNet) (frame : Frame) : SendResult × MnNet :=
  let (queued, nif) := net.nif.tx frame
  if queued then (.ok, { net with nif })
  else (.failed, { net with nif, txFailures := net.txFailures + 1 })

/-- `is_broadcast`: the limited broadcast or the subnet's. -/
def isBroadcast (net : MnNet) (dst : Ip4) : Bool :=
  dst == limitedBcast || (dst.bytes.zip net.mask.bytes).all fun (d, m) => d ||| m == 0xff

/-- `mn_net_next_hop`. -/
def mnNetNextHop (net : MnNet) (dst : Ip4) : Ip4 :=
  if isBroadcast net dst then dst
  else if (dst.bytes.zip (net.mask.bytes.zip net.ip.bytes)).all fun (d, m, i) => d &&& m == i &&& m then
    dst
  else net.gw

/-- `mn_net_tx_begin`: the next hop's MAC, or why there is none; an unresolved
hop is asked for on the way. -/
def mnNetTxBegin (net : MnNet) (dst : Ip4) : Except SendResult Mac × MnNet :=
  let hop := mnNetNextHop net dst
  if isBroadcast net hop then (.ok mnEthBroadcast, net)
  else
    match mnArpCacheLookup net.arp hop with
    | some mac => (.ok mac, net)
    | none => (.error .pending, (net.send (.arpRequest net.nif.mac net.ip hop)).2)

/-- `mn_net_tx_send` for TCP, to the MAC `mn_net_tx_begin` resolved. -/
def mnNetTxSend (net : MnNet) (txMac : Mac) (dst : Ip4) (seg : TcpSeg) : SendResult × MnNet :=
  { net with ipId := net.ipId + 1 }.send (.tcp txMac net.nif.mac net.ip dst net.ipId seg)

/-- The frames handed down between two states of a net. -/
def handedSince (before after : MnNet) : List (Frame × Bool) :=
  after.nif.handed.drop before.nif.handed.length

/-- The next hop towards `dst` has a known MAC. -/
def MnNet.Resolves (net : MnNet) (dst : Ip4) : Prop :=
  isBroadcast net (mnNetNextHop net dst) = true ∨
    (mnArpCacheLookup net.arp (mnNetNextHop net dst)).isSome = true

/-- The link queues every frame it is handed. -/
def MnNet.Accepts (net : MnNet) : Prop := ∀ n, net.nif.accepts n = true

end MegaNet.Core
