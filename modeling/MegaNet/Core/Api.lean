import MegaNet.Core.Civil
import MegaNet.Core.Dhcp
import MegaNet.Core.Dns
import MegaNet.Core.NetPoll
import MegaNet.Core.Ntp
import MegaNet.Core.SharedMemory

/-! The calls of the ABI (`api.c`) over everything they stand on: the stack, its
clients, the clock, and the one memory in which the pool lies beside the caller's
blocks and buffers. What lies in the stack's own image (its structures, the
staging buffers) is apart from that memory. -/
namespace MegaNet.Core
open AddressSpace

/-- A 16-bit value of two bytes, the low one first. -/
def word (lo hi : UInt8) : UInt16 := lo.toUInt16 ||| hi.toUInt16 <<< 8

/-- A pointer of three bytes, the lowest first. -/
def pointer (lo mid hi : UInt8) : UInt32 := lo.toUInt32 ||| mid.toUInt32 <<< 8 ||| hi.toUInt32 <<< 16

/-- `put16` of `api.c`. -/
def bytes16 (v : UInt16) : List UInt8 := [v.toUInt8, (v >>> 8).toUInt8]

def bytes32 (v : UInt32) : List UInt8 :=
  [v.toUInt8, (v >>> 8).toUInt8, (v >>> 16).toUInt8, (v >>> 24).toUInt8]

/-- The registers of a call and of its answer. -/
structure Regs where
  a : UInt8
  x : UInt8
  y : UInt8
  z : UInt8
  deriving DecidableEq

/-- `arg_ptr`. -/
def Regs.argPtr (r : Regs) : UInt32 := pointer r.a r.x r.y

/-- The module's state, and the machine's memory. -/
structure Api where
  net : MnNetFull
  dhcp : Dhcp.MnDhcp
  dns : Dns.MnDns
  ntp : Ntp.MnNtp
  tcpset : MnTcpSet
  poolKind : UInt8
  poolBase : UInt32
  name : List UInt8
  ticks : UInt16
  lastFrame : UInt8
  blk : List UInt8
  m : PhysMem

/-- What a call finds in the hardware, and what it reports of the diagnostics and
of the message buffer, which no other call reads. -/
structure Inputs where
  frameCount : UInt8
  frame : Option RxFrame := none
  mac : Mac
  queued : Bool := true
  diagnostics : Fin 14 → UInt8 := fun _ => 0
  msgBuffer : Fin 300 → UInt8 := fun _ => 0

def MN_ABI_MAJOR : UInt8 := 0
def MN_ABI_MINOR : UInt8 := 2
def MN_ABI_TCP_SOCKETS : UInt8 := 8
def POOL_BANK5 : UInt32 := 0x50000

namespace Api

/-- `ret`. -/
def ret (a x y z : UInt8) (s : Api) : Regs × Api := (⟨a, x, y, z⟩, s)

/-- An answer in A alone. -/
def answer (a : UInt8) (s : Api) : Regs × Api := ret a 0 0 0 s

/-- An answer in Y and Z. -/
def retWord (a x : UInt8) (v : UInt16) (s : Api) : Regs × Api := ret a x v.toUInt8 (v >>> 8).toUInt8 s

/-- The first `n` bytes of `blk` fetched from `src`. -/
def fetch (s : Api) (src : UInt32) (n : Nat) : Api := { s with blk := run s.m src n ++ s.blk.drop n }

/-- Bytes stored in `blk`. -/
def fill (s : Api) (o : Nat) (bytes : List UInt8) : Api :=
  { s with blk := s.blk.take o ++ bytes ++ s.blk.drop (o + bytes.length) }

/-- Local bytes copied to `dst`. -/
def copyTo (s : Api) (dst : UInt32) (bytes : List UInt8) : Api := { s with m := put s.m dst bytes }

/-- `n` bytes of `blk` from `o` on copied to `dst`. -/
def writeBack (s : Api) (dst : UInt32) (o n : Nat) : Api := s.copyTo dst ((s.blk.drop o).take n)

/-- `blk_ptr`. -/
def blkPtr (s : Api) : UInt32 := pointer (byteAt s.blk 0) (byteAt s.blk 1) (byteAt s.blk 2)

def blkWord (s : Api) (o : Nat) : UInt16 := word (byteAt s.blk o) (byteAt s.blk (o + 1))

/-- A caller's count of bytes copied into local memory: a count of 0 copies
65536, past the end of it. -/
def fetchInto (s : Api) (src : UInt32) (count : UInt16) : Option (List UInt8) :=
  if count = 0 then none else some (run s.m src count.toNat)

/-- The stack over the memory as it is. -/
def stack (s : Api) : Stack := ⟨s.net, some s.tcpset, linear s.m⟩

/-- What the stack has become. -/
def withStack (s : Api) (st : Stack) : Api :=
  { s with net := st.net, tcpset := st.tcp.getD s.tcpset, m := fun a => st.x a.toNat }

def withNet (s : Api) (net : MnNet) : Api := { s with net := { s.net with toMnNet := net } }

/-- `sock_z`. -/
def sockZ (s : Api) (r : Regs) : Option MnTcp := s.tcpset.sock[r.z.toNat]?

def setSockZ (s : Api) (r : Regs) (t : MnTcp) : Api :=
  { s with tcpset := { s.tcpset with sock := s.tcpset.sock.set r.z.toNat t } }

/-- `tick`. -/
def tick (s : Api) (i : Inputs) : Api :=
  { s with ticks := s.ticks + (i.frameCount - s.lastFrame).toUInt16, lastFrame := i.frameCount }

end Api

/-! ## Codes -/

def TcpState.code : TcpState → UInt8
  | .closed => 0
  | .synSent => 1
  | .established => 2
  | .finWait1 => 3
  | .finWait2 => 4
  | .closeWait => 5
  | .closing => 6
  | .lastAck => 7
  | .timeWait => 8
  | .listen => 9
  | .synRcvd => 10

/-- `MN_TCP_F_*`. -/
def TcpFlags.code (f : TcpFlags) : UInt8 :=
  (if f.eof then 0x01 else 0) ||| (if f.reset then 0x02 else 0) ||| (if f.timeout then 0x04 else 0) |||
    (if f.refused then 0x08 else 0)

def SendResult.code : SendResult → UInt8
  | .failed => 0
  | .ok => 1
  | .pending => 2

def Dhcp.State.code : Dhcp.State → UInt8
  | .idle => 0
  | .selecting => 1
  | .requesting => 2
  | .bound => 3
  | .failed => 4

def Dhcp.Phase.code : Dhcp.Phase → UInt8
  | .bound => 0
  | .renewing => 1
  | .rebinding => 2

def Dns.State.code : Dns.State → UInt8
  | .idle => 0
  | .waiting => 1
  | .done => 2
  | .failed => 3

def Ntp.State.code : Ntp.State → UInt8
  | .idle => 0
  | .waiting => 1
  | .done => 2
  | .failed => 3

/-! ## The image's variables once they are zeroed -/

def zeroedTcp : MnTcp :=
  { state := .closed, flags := {}, index := 0
    remoteIp := zeroIp, remotePort := 0, localPort := 0
    iss := 0, sndUna := 0, sndNxt := 0, irs := 0, rcvNxt := 0, advEdge := 0
    sndWnd := 0, peerMss := 0, xseg := 0, rcvbuf := 0, sndbuf := 0
    sndHead := 0, sndLen := 0, inflight := 0, cwnd := 0, finQueued := false, finSent := false
    rcvHead := 0, rcvCount := 0, ackPending := false, synPending := false, txPending := false
    sentAt := 0, rto := 0, timewaitAt := 0, retries := 0
    statRxSeg := 0, statTxSeg := 0, statRetrans := 0, statOoo := 0 }

def zeroedNet (nif : MnNetif) : MnNetFull :=
  { nif, ip := zeroIp, mask := zeroIp, gw := zeroIp
    arp := ⟨List.replicate MN_ARP_CACHE ⟨zeroIp, ⟨0, 0, 0, 0, 0, 0⟩, false⟩, 0⟩
    ipId := 0, txFailures := 0
    sock := fun _ => ⟨0, false, zeroIp, 0, 0, 0, 0⟩
    rxFrames := 0, arpReplies := 0, arpLearned := 0, echoReplies := 0, udpRx := 0, udpDropped := 0 }

/-- Idle, without a socket. -/
def idleDhcp : Dhcp.MnDhcp :=
  { state := .idle, sock := 0xff, xid := ⟨0, 0, 0, 0⟩
    offeredIp := zeroIp, serverId := zeroIp, mask := zeroIp, gw := zeroIp, dns := zeroIp
    leaseS := 0, phase := .bound, ageM := 0, t1M := 0, t2M := 0, nextM := 0, leaseM := 0
    tickLast := 0, tickAcc := 0, secAcc := 0, sentAt := 0, tries := 0, pending := false }

def idleDns : Dns.MnDns :=
  { state := .idle, sock := 0xff, id := 0, port := 0, server := zeroIp, ip := zeroIp, name := []
    sentAt := 0, tries := 0, pending := false }

def idleNtp : Ntp.MnNtp :=
  { state := .idle, sock := 0xff, port := 0, server := zeroIp, seconds := 0
    sentAt := 0, tries := 0, pending := false }

/-! ## The calls -/

section
variable (s : Api) (r : Regs) (i : Inputs)
open Api

/-- `mn_api_init`. The link goes on from the frames it was handed before. -/
def mnApiInit : Regs × Api :=
  let nif : MnNetif := { s.net.nif with mac := i.mac }
  let net := mnNetInit (zeroedNet nif) nif
  answer 0
    { net := mnNetSetPool net (POOL_BANK5 + MN_ABI_TCP_SOCKETS.toUInt32 * MN_TCP_SOCKET_XMEM)
      dhcp := idleDhcp, dns := idleDns, ntp := idleNtp
      tcpset := mnTcpInit
        (List.replicate MN_ABI_TCP_SOCKETS.toNat zeroedTcp) MN_ABI_TCP_SOCKETS POOL_BANK5
      poolKind := 2, poolBase := POOL_BANK5
      name := List.replicate (Dns.MN_DNS_NAME_MAX + 1) 0
      ticks := 0, lastFrame := i.frameCount
      blk := List.replicate 40 0, m := s.m }

/-- `mn_api_version`. -/
def mnApiVersion : Regs × Api := ret MN_ABI_MAJOR MN_ABI_MINOR 0x4d 0x4e s

/-- `mn_api_get_mac`. -/
def mnApiGetMac : Regs × Api :=
  let mac := s.net.nif.mac
  answer 0 (s.copyTo r.argPtr [mac.m0, mac.m1, mac.m2, mac.m3, mac.m4, mac.m5])

/-- `mn_api_link_tx`, whose frame the link takes or not. -/
def mnApiLinkTx : Option (Regs × Api) :=
  let s := s.fetch r.argPtr 5
  let len := s.blkWord 3
  if len > MN_MAX_FRAME then some (answer 0 s)
  else (s.fetchInto s.blkPtr len).map fun _ => answer (if i.queued then 1 else 0) s

/-- `mn_api_link_rx`. A frame that is cut down to nothing is copied out whole. -/
def mnApiLinkRx : Option (Regs × Api) :=
  let s := s.fetch r.argPtr 5
  let cap := s.blkWord 3
  let cap := if cap > MN_MAX_FRAME then MN_MAX_FRAME else cap
  let back (s : Api) (n : UInt16) : Api := (s.fill 5 (bytes16 n)).writeBack (r.argPtr + 5) 5 2
  match i.frame with
  | none => some (answer 0 (back s 0))
  | some f =>
    let bytes := f.bytes.take cap.toNat
    if bytes.length = 0 then none
    else some (answer 1 (back (s.copyTo s.blkPtr bytes) (UInt16.ofNat bytes.length)))

/-- The part of `mn_api_poll` for the DHCP client, -/
def pollDhcp : Api :=
  if s.dhcp.state ≠ .idle ∧ s.dhcp.state ≠ .failed then
    let (dhcp, net) := Dhcp.mnDhcpPoll s.dhcp s.net (linear s.m) s.ticks
    { s with dhcp, net }
  else s

/-- for the resolver, -/
def pollDns : Api :=
  if s.dns.state = .waiting then
    let (dns, net) := Dns.mnDnsPoll s.dns s.net (linear s.m) s.ticks
    { s with dns, net }
  else s

/-- for the time client, -/
def pollNtp : Api :=
  if s.ntp.state = .waiting then
    let (ntp, net) := Ntp.mnNtpPoll s.ntp s.net (linear s.m) s.ticks
    { s with ntp, net }
  else s

/-- and for TCP. -/
def pollTcp : Api :=
  let (tcpset, net) := mnTcpPoll s.tcpset (linear s.m) s.net.toMnNet s.ticks
  { s.withNet net with tcpset }

/-- `mn_api_poll`. -/
def mnApiPoll : Regs × Api :=
  let s := (s.withStack (mnNetPoll s.stack i.frame)).tick i
  answer (if i.frame.isSome then 1 else 0) (pollTcp (pollNtp (pollDns (pollDhcp s))))

/-- A TCP entry on the socket in Z. An index past the end answers `0xff`. -/
def onSockZ (call : MnTcp → Regs × Api) : Regs × Api :=
  match s.sockZ r with
  | none => answer 0xff s
  | some t => call t

/-- `mn_api_tcp_connect`. -/
def mnApiTcpConnect : Regs × Api :=
  onSockZ s r fun t =>
    let s := (s.fetch r.argPtr 6).tick i
    let (started, t, net) :=
      mnTcpConnect t (linear s.m) s.net.toMnNet (ipAt s.blk 0) (s.blkWord 4) s.ticks
    answer (if started then 1 else 0) ((s.setSockZ r t).withNet net)

/-- `mn_api_tcp_listen`. -/
def mnApiTcpListen : Regs × Api :=
  onSockZ s r fun t =>
    let (listening, t) := mnTcpListen t (word r.a r.x)
    answer (if listening then 1 else 0) (s.setSockZ r t)

/-- `mn_api_tcp_state`. -/
def mnApiTcpState : Regs × Api :=
  onSockZ s r fun t => retWord t.state.code t.flags.code (mnTcpAvailable t) s

/-- `mn_api_tcp_peer`. -/
def mnApiTcpPeer : Regs × Api :=
  onSockZ s r fun t =>
    answer 1 ((s.fill 0 (t.remoteIp.bytes ++ bytes16 t.remotePort)).writeBack r.argPtr 0 6)

/-- `mn_api_tcp_info`. -/
def mnApiTcpInfo : Regs × Api :=
  retWord (UInt8.ofNat s.tcpset.sock.length) s.poolKind (s.poolBase >>> 12).toUInt16 s

/-- `mn_api_tcp_send`. An index past the end answers `0xffff`. -/
def mnApiTcpSend : Regs × Api :=
  match s.sockZ r with
  | none => ret 0xff 0xff 0 0 s
  | some t =>
    let s := s.fetch r.argPtr 5
    let (n, t, m) := m65Calls.mnTcpSendX t s.m s.blkPtr (s.blkWord 3)
    ret n.toUInt8 (n >>> 8).toUInt8 0 0 { s.setSockZ r t with m }

/-- `mn_api_tcp_recv`. -/
def mnApiTcpRecv : Regs × Api :=
  onSockZ s r fun t =>
    let s := s.fetch r.argPtr 5
    let (n, t, m) := m65Calls.mnTcpRecvX t s.m s.blkPtr (s.blkWord 3)
    let s := { s.setSockZ r t with m }
    answer (if n ≠ 0 then 1 else 0) ((s.fill 5 (bytes16 n)).writeBack (r.argPtr + 5) 5 2)

/-- `mn_api_tcp_close`. -/
def mnApiTcpClose : Regs × Api := onSockZ s r fun t => answer 0 (s.setSockZ r (mnTcpClose t))

/-- `mn_api_tcp_abort`. -/
def mnApiTcpAbort : Regs × Api :=
  onSockZ s r fun t =>
    let (t, net) := mnTcpAbort t (linear s.m) s.net.toMnNet
    answer 0 ((s.setSockZ r t).withNet net)

/-- `mn_api_udp_open`. -/
def mnApiUdpOpen : Regs × Api :=
  let (sock, net) := mnNetUdpOpen s.net (word r.a r.x)
  answer sock { s with net }

/-- `mn_api_udp_close`. An index past the end answers 0 here. -/
def mnApiUdpClose : Regs × Api :=
  answer 0 (if r.z.toNat < 4 then { s with net := mnNetUdpClose s.net r.z } else s)

/-- The port a UDP socket sends from, if it is one and is open. -/
def Api.openPort : Option UInt16 :=
  if inside : r.z.toNat < 4 then
    if (s.net.sock ⟨r.z.toNat, inside⟩).port = 0 then none
    else some (s.net.sock ⟨r.z.toNat, inside⟩).port
  else none

/-- `mn_api_udp_send`. -/
def mnApiUdpSend : Option (Regs × Api) :=
  match s.openPort r with
  | none => some (answer 0xff s)
  | some port =>
    let s := s.fetch r.argPtr 11
    let len := s.blkWord 9
    if len.toNat > MN_UDP_MAX_PAYLOAD then some (answer 0 s)
    else
      (s.fetchInto (pointer (byteAt s.blk 6) (byteAt s.blk 7) (byteAt s.blk 8)) len).map fun payload =>
        let (sent, net) := mnNetSendUdp s.net (ipAt s.blk 0) port (s.blkWord 4) payload
        answer sent.code { s with net }

/-- `mn_api_udp_recv`. -/
def mnApiUdpRecv : Regs × Api :=
  if r.z.toNat ≥ 4 then answer 0xff s
  else
    let s := s.fetch r.argPtr 5
    let cap := s.blkWord 3
    let cap := if cap > MN_MAX_FRAME then MN_MAX_FRAME else cap
    let (got, net) := mnNetUdpRecv s.net (linear s.m) r.z cap
    let s := { s with net }
    let back (s : Api) (len sport : UInt16) : Api :=
      ((s.fill 5 (bytes16 len)).fill 11 (bytes16 sport)).writeBack (r.argPtr + 5) 5 8
    match got with
    | none => answer 0 (back s 0 0)
    | some d =>
      let s := (s.fill 7 d.srcIp.bytes).copyTo s.blkPtr d.data
      answer 1 (back s (UInt16.ofNat d.data.length) d.srcPort)

/-- `mn_api_set_dns`. -/
def mnApiSetDns : Regs × Api := answer 0 { s with dhcp := { s.dhcp with dns := ⟨r.a, r.x, r.y, r.z⟩ } }

/-- `mn_api_dns_start`. -/
def mnApiDnsStart : Regs × Api :=
  let s := { s with name := run s.m r.argPtr Dns.MN_DNS_NAME_MAX ++ [0] }
  if s.dhcp.dns = zeroIp then answer 1 { s with dns := { s.dns with state := .failed } }
  else
    let s := s.tick i
    let (dns, net) := Dns.mnDnsStart s.dns s.net s.name s.dhcp.dns s.ticks
    answer 0 { s with dns, net }

/-- `mn_api_dns_state`. -/
def mnApiDnsState : Regs × Api := answer s.dns.state.code s

/-- `mn_api_dns_result`. -/
def mnApiDnsResult : Regs × Api := ret s.dns.ip.b0 s.dns.ip.b1 s.dns.ip.b2 s.dns.ip.b3 s

/-- `mn_api_ntp_start`. -/
def mnApiNtpStart : Regs × Api :=
  let s := s.tick i
  let (ntp, net) := Ntp.mnNtpStart s.ntp s.net ⟨r.a, r.x, r.y, r.z⟩ s.ticks
  answer 0 { s with ntp, net }

/-- `mn_api_ntp_state`. -/
def mnApiNtpState : Regs × Api := answer s.ntp.state.code s

/-- The bytes of `mn_civil` as the blocks have them. -/
def Ntp.MnCivil.block (c : Ntp.MnCivil) : List UInt8 :=
  bytes16 c.year ++ [c.month, c.day, c.hour, c.minute, c.second, c.weekday]

/-- `mn_api_ntp_result`. -/
def mnApiNtpResult : Option (Regs × Api) :=
  let s := s.fetch r.argPtr 2
  (Ntp.mnNtpCivil s.ntp.seconds (s.blkWord 0).toInt16).map fun c =>
    answer 0 ((s.fill 2 (bytes32 s.ntp.seconds ++ c.block)).writeBack (r.argPtr + 2) 2 12)

/-- `bcd`. -/
def bcd (v : UInt8) : UInt8 := (v / 10) <<< 4 ||| v % 10

/-- Where the clock's registers are. -/
def RTC : UInt32 := 0xFFD7110

/-- `mn_api_set_rtc`. -/
def mnApiSetRtc : Regs × Api :=
  let s := s.fetch r.argPtr 8
  answer 0 (s.copyTo RTC
    [bcd (byteAt s.blk 6), bcd (byteAt s.blk 5), bcd (byteAt s.blk 4) ||| 0x80, bcd (byteAt s.blk 3),
      bcd (byteAt s.blk 2), bcd (s.blkWord 0 % 100).toUInt8, bcd (byteAt s.blk 7)])

/-- `mn_api_dhcp_start`. -/
def mnApiDhcpStart : Regs × Api :=
  let s := s.tick i
  let (dhcp, net) := Dhcp.mnDhcpStart s.dhcp s.net s.ticks
  answer 0 { s with dhcp, net }

/-- `mn_api_dhcp_state`. -/
def mnApiDhcpState : Regs × Api :=
  retWord s.dhcp.state.code s.dhcp.phase.code (Dhcp.mnDhcpLeaseLeft s.dhcp) s

/-- `mn_api_get_dns`. -/
def mnApiGetDns : Regs × Api := answer 0 ((s.fill 0 s.dhcp.dns.bytes).writeBack r.argPtr 0 4)

/-- `mn_api_set_ip`. -/
def mnApiSetIp : Regs × Api :=
  let s := s.fetch r.argPtr 12
  answer 0 { s with net := mnNetSetIp s.net (ipAt s.blk 0) (ipAt s.blk 4) (ipAt s.blk 8) }

/-- `mn_api_get_ip`. -/
def mnApiGetIp : Regs × Api :=
  answer 0 ((s.fill 0 (s.net.ip.bytes ++ s.net.mask.bytes ++ s.net.gw.bytes)).writeBack r.argPtr 0 12)

def Dhcp.Xid.bytes (x : Dhcp.Xid) : List UInt8 := [x.x0, x.x1, x.x2, x.x3]

/-- The block of `mn_api_get_stats`. -/
def statsBlock : List UInt8 :=
  bytes16 s.net.rxFrames ++ bytes16 s.net.arpReplies ++ bytes16 s.net.echoReplies ++
    bytes16 s.net.txFailures ++
    bytes16 s.net.arpLearned ++ bytes16 s.net.udpRx ++ bytes16 s.net.udpDropped ++
    [s.dhcp.tries, if s.dhcp.pending then 1 else 0] ++ (List.ofFn i.diagnostics).take 10 ++
      s.dhcp.xid.bytes ++
    (List.ofFn i.diagnostics).drop 10 ++ bytes16 s.tcpset.rstSent

/-- `mn_api_get_stats`. -/
def mnApiGetStats : Regs × Api := answer 0 ((s.fill 0 (statsBlock s i)).writeBack r.argPtr 0 36)

/-- `mn_api_set_local_ip4`. -/
def mnApiSetLocalIp4 : Regs × Api :=
  answer 0 { s with net := mnNetSetIp s.net ⟨r.a, r.x, r.y, r.z⟩ s.net.mask s.net.gw }

/-- `mn_api_dhcp_last_msg`. -/
def mnApiDhcpLastMsg : Regs × Api := answer 0 (s.copyTo r.argPtr (List.ofFn i.msgBuffer))

end

/-! ## The table -/

inductive Entry where
  | init | version | getMac | linkTx | linkRx | poll | setIp | getIp | getStats | setLocalIp4
  | dhcpStart | dhcpState | getDns | setDns | dnsStart | dnsState | dnsResult
  | ntpStart | ntpState | ntpResult | setRtc | dhcpLastMsg
  | tcpConnect | tcpState | tcpSend | tcpRecv | tcpClose | tcpAbort | tcpListen | tcpPeer | tcpInfo
  | udpOpen | udpClose | udpSend | udpRecv
  deriving DecidableEq

/-- A call through the table: `none` where it would run past the end of local
memory. -/
def Api.exec (s : Api) (entry : Entry) (r : Regs) (i : Inputs) : Option (Regs × Api) :=
  match entry with
  | .init => some (mnApiInit s i)
  | .version => some (mnApiVersion s)
  | .getMac => some (mnApiGetMac s r)
  | .linkTx => mnApiLinkTx s r i
  | .linkRx => mnApiLinkRx s r i
  | .poll => some (mnApiPoll s i)
  | .setIp => some (mnApiSetIp s r)
  | .getIp => some (mnApiGetIp s r)
  | .getStats => some (mnApiGetStats s r i)
  | .setLocalIp4 => some (mnApiSetLocalIp4 s r)
  | .dhcpStart => some (mnApiDhcpStart s i)
  | .dhcpState => some (mnApiDhcpState s)
  | .getDns => some (mnApiGetDns s r)
  | .setDns => some (mnApiSetDns s r)
  | .dnsStart => some (mnApiDnsStart s r i)
  | .dnsState => some (mnApiDnsState s)
  | .dnsResult => some (mnApiDnsResult s)
  | .ntpStart => some (mnApiNtpStart s r i)
  | .ntpState => some (mnApiNtpState s)
  | .ntpResult => mnApiNtpResult s r
  | .setRtc => some (mnApiSetRtc s r)
  | .dhcpLastMsg => some (mnApiDhcpLastMsg s r i)
  | .tcpConnect => some (mnApiTcpConnect s r i)
  | .tcpState => some (mnApiTcpState s r)
  | .tcpSend => some (mnApiTcpSend s r)
  | .tcpRecv => some (mnApiTcpRecv s r)
  | .tcpClose => some (mnApiTcpClose s r)
  | .tcpAbort => some (mnApiTcpAbort s r)
  | .tcpListen => some (mnApiTcpListen s r)
  | .tcpPeer => some (mnApiTcpPeer s r)
  | .tcpInfo => some (mnApiTcpInfo s)
  | .udpOpen => some (mnApiUdpOpen s r)
  | .udpClose => some (mnApiUdpClose s r)
  | .udpSend => mnApiUdpSend s r
  | .udpRecv => some (mnApiUdpRecv s r)

/-- The table, entry N at `$2000 + 3N`. -/
def jumptable : List Entry :=
  [.init, .version, .getMac, .linkTx, .linkRx, .poll, .setIp, .getIp, .getStats, .setLocalIp4,
    .dhcpStart, .dhcpState, .getDns, .setDns, .dnsStart, .dnsState, .dnsResult,
    .ntpStart, .ntpState, .ntpResult, .setRtc, .dhcpLastMsg,
    .tcpConnect, .tcpState, .tcpSend, .tcpRecv, .tcpClose, .tcpAbort, .tcpListen, .tcpPeer, .tcpInfo,
    .udpOpen, .udpClose, .udpSend, .udpRecv]

end MegaNet.Core
