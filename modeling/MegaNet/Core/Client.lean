import MegaNet.Core.Api

/-! A C program's side of the ABI: the helpers of `meganet.h`, and the far call
they go through (`trampoline.S`). A pointer into a program in bank 0 has 16 bits;
`b` is where a helper's own parameter block lies. Of the far call the model has
what it does to memory: the map and the interrupt flag are back as they were when
it returns. -/
namespace MegaNet.Core
open AddressSpace

/-! ## Entry addresses -/

def MEGANET_LINK_TX : UInt16 := 0x2009
def MEGANET_LINK_RX : UInt16 := 0x200c
def MEGANET_POLL : UInt16 := 0x200f
def MEGANET_SET_IP : UInt16 := 0x2012
def MEGANET_GET_IP : UInt16 := 0x2015
def MEGANET_GET_STATS : UInt16 := 0x2018
def MEGANET_DHCP_START : UInt16 := 0x201e
def MEGANET_DHCP_STATE : UInt16 := 0x2021
def MEGANET_GET_DNS : UInt16 := 0x2024
def MEGANET_DNS_START : UInt16 := 0x202a
def MEGANET_DNS_STATE : UInt16 := 0x202d
def MEGANET_DNS_RESULT : UInt16 := 0x2030
def MEGANET_NTP_START : UInt16 := 0x2033
def MEGANET_NTP_STATE : UInt16 := 0x2036
def MEGANET_NTP_RESULT : UInt16 := 0x2039
def MEGANET_SET_RTC : UInt16 := 0x203c
def MEGANET_TCP_CONNECT : UInt16 := 0x2042
def MEGANET_TCP_STATE : UInt16 := 0x2045
def MEGANET_TCP_SEND : UInt16 := 0x2048
def MEGANET_TCP_RECV : UInt16 := 0x204b
def MEGANET_TCP_CLOSE : UInt16 := 0x204e
def MEGANET_TCP_ABORT : UInt16 := 0x2051
def MEGANET_TCP_LISTEN : UInt16 := 0x2054
def MEGANET_TCP_PEER : UInt16 := 0x2057
def MEGANET_TCP_INFO : UInt16 := 0x205a
def MEGANET_UDP_OPEN : UInt16 := 0x205d
def MEGANET_UDP_CLOSE : UInt16 := 0x2060
def MEGANET_UDP_SEND : UInt16 := 0x2063
def MEGANET_UDP_RECV : UInt16 := 0x2066

/-- The entry at an address, as mapped. -/
def entryAt (address : UInt16) : Option Entry :=
  if 0x2000 ≤ address ∧ (address - 0x2000) % 3 = 0 then jumptable[((address - 0x2000) / 3).toNat]?
  else none

/-! ## The far call -/

/-- `MEGANET_TR`. The mailbox begins the page. -/
def MEGANET_TR : UInt32 := 0x1600

/-- `jsr_target + 1`, which the call patches. -/
def JSR_OPERAND : UInt32 := 0x163c

/-- `meganet_tr_call`: to the entry in the mailbox, with its registers, and back
with the answer in it. -/
def meganetTrCall (s : Api) (i : Inputs) : Option Api :=
  let s := s.copyTo JSR_OPERAND [s.m MEGANET_TR, s.m (MEGANET_TR + 1)]
  (entryAt (word (s.m MEGANET_TR) (s.m (MEGANET_TR + 1)))).bind fun entry =>
    (s.exec entry ⟨s.m (MEGANET_TR + 2), s.m (MEGANET_TR + 3), s.m (MEGANET_TR + 4),
      s.m (MEGANET_TR + 5)⟩ i).map
      fun answer => answer.2.copyTo (MEGANET_TR + 6) [answer.1.a, answer.1.x, answer.1.y, answer.1.z]

section
variable (s : Api) (i : Inputs) (b : UInt16)

/-- `MEGANET_TR_RA`, `_RX`, `_RY`, `_RZ`. -/
def trResults : Regs :=
  ⟨s.m (MEGANET_TR + 6), s.m (MEGANET_TR + 7), s.m (MEGANET_TR + 8), s.m (MEGANET_TR + 9)⟩

/-- `meganet_call`. -/
def meganetCall (entry : UInt16) (a x y z : UInt8) : Option (UInt8 × Api) :=
  (meganetTrCall (s.copyTo MEGANET_TR [entry.toUInt8, (entry >>> 8).toUInt8, a, x, y, z]) i).map
    fun s => ((trResults s).a, s)

/-- `meganet_call_ptr`. -/
def meganetCallPtr (entry p : UInt16) : Option (UInt8 × Api) :=
  meganetCall s i entry p.toUInt8 (p >>> 8).toUInt8 0 0

/-- A call whose pointer comes with a socket in Z. -/
def callOnSock (entry : UInt16) (sock : UInt8) : Option (UInt8 × Api) :=
  meganetCall s i entry b.toUInt8 (b >>> 8).toUInt8 0 sock

/-- `meganet_ptr28`. -/
def meganetPtr28 (p : UInt16) : List UInt8 := [p.toUInt8, (p >>> 8).toUInt8, 0]

/-- A helper's block, as it is filled in. -/
def Api.local_ (block : List UInt8) : Api := s.copyTo b.toUInt32 block

/-- A word in it. -/
def localWord (o : UInt32) : UInt16 := word (s.m (b.toUInt32 + o)) (s.m (b.toUInt32 + o + 1))

/-- An address in it. -/
def localIp (o : UInt32) : Ip4 :=
  ⟨s.m (b.toUInt32 + o), s.m (b.toUInt32 + o + 1), s.m (b.toUInt32 + o + 2), s.m (b.toUInt32 + o + 3)⟩

/-! ## The helpers -/

/-- `meganet_link_tx`. -/
def meganetLinkTx (frame len : UInt16) : Option (UInt8 × Api) :=
  meganetCallPtr (s.local_ b (meganetPtr28 frame ++ bytes16 len)) i MEGANET_LINK_TX b

/-- `meganet_link_rx`, with what it finds in `len`. -/
def meganetLinkRx (buf cap : UInt16) : Option ((UInt8 × UInt16) × Api) :=
  (meganetCallPtr (s.local_ b (meganetPtr28 buf ++ bytes16 cap ++ [0, 0])) i MEGANET_LINK_RX b).map
    fun got => ((got.1, localWord got.2 b 5), got.2)

/-- `meganet_set_ip`, -/
def meganetSetIp (c : UInt16) : Option (UInt8 × Api) := meganetCallPtr s i MEGANET_SET_IP c

/-- `meganet_get_stats`, -/
def meganetGetStats (st : UInt16) : Option (UInt8 × Api) := meganetCallPtr s i MEGANET_GET_STATS st

/-- `meganet_get_ip`, -/
def meganetGetIp (c : UInt16) : Option (UInt8 × Api) := meganetCallPtr s i MEGANET_GET_IP c

/-- `meganet_get_dns`, -/
def meganetGetDns (dns4 : UInt16) : Option (UInt8 × Api) := meganetCallPtr s i MEGANET_GET_DNS dns4

/-- `meganet_dns_start`, -/
def meganetDnsStart (name : UInt16) : Option (UInt8 × Api) := meganetCallPtr s i MEGANET_DNS_START name

/-- `meganet_ntp_result`, -/
def meganetNtpResult (t : UInt16) : Option (UInt8 × Api) := meganetCallPtr s i MEGANET_NTP_RESULT t

/-- `meganet_set_rtc`. -/
def meganetSetRtc (r : UInt16) : Option (UInt8 × Api) := meganetCallPtr s i MEGANET_SET_RTC r

/-- `meganet_dhcp_start`, -/
def meganetDhcpStart : Option (UInt8 × Api) := meganetCall s i MEGANET_DHCP_START 0 0 0 0

/-- `meganet_dhcp_state`, -/
def meganetDhcpState : Option (UInt8 × Api) := meganetCall s i MEGANET_DHCP_STATE 0 0 0 0

/-- `meganet_dns_state`, -/
def meganetDnsState : Option (UInt8 × Api) := meganetCall s i MEGANET_DNS_STATE 0 0 0 0

/-- `meganet_ntp_state`, -/
def meganetNtpState : Option (UInt8 × Api) := meganetCall s i MEGANET_NTP_STATE 0 0 0 0

/-- `meganet_poll`. -/
def meganetPoll : Option (UInt8 × Api) := meganetCall s i MEGANET_POLL 0 0 0 0

/-- What a helper returns of a call that answers in X, and in Y and Z. -/
def withRest (got : Option (UInt8 × Api)) : Option ((UInt8 × UInt8 × UInt16) × Api) :=
  got.map fun got => ((got.1, (trResults got.2).x, word (trResults got.2).y (trResults got.2).z), got.2)

/-- `meganet_dhcp_status`: the state, the phase and what is left of the lease. -/
def meganetDhcpStatus : Option ((UInt8 × UInt8 × UInt16) × Api) :=
  withRest (meganetCall s i MEGANET_DHCP_STATE 0 0 0 0)

/-- `meganet_tcp_state_s`: the state, the flags and the bytes available. -/
def meganetTcpStateS (sock : UInt8) : Option ((UInt8 × UInt8 × UInt16) × Api) :=
  withRest (meganetCall s i MEGANET_TCP_STATE 0 0 0 sock)

/-- `meganet_tcp_info`: the sockets, and where their pool is. -/
def meganetTcpInfo : Option ((UInt8 × UInt8 × UInt16) × Api) :=
  withRest (meganetCall s i MEGANET_TCP_INFO 0 0 0 0)

/-- `meganet_dns_result`, into the four bytes at `ip4`. -/
def meganetDnsResult (ip4 : UInt16) : Option Api :=
  (meganetCall s i MEGANET_DNS_RESULT 0 0 0 0).map fun got =>
    let r := trResults got.2
    got.2.copyTo ip4.toUInt32 [r.a, r.x, r.y, r.z]

/-- `meganet_ntp_start`. -/
def meganetNtpStart (ip4 : UInt16) : Option (UInt8 × Api) :=
  meganetCall s i MEGANET_NTP_START (s.m ip4.toUInt32) (s.m (ip4.toUInt32 + 1)) (s.m (ip4.toUInt32 + 2))
    (s.m (ip4.toUInt32 + 3))

/-- `meganet_tcp_connect_s`. -/
def meganetTcpConnectS (sock : UInt8) (ip4 port : UInt16) : Option (UInt8 × Api) :=
  callOnSock (s.local_ b (run s.m ip4.toUInt32 4 ++ bytes16 port)) i b MEGANET_TCP_CONNECT sock

/-- `meganet_tcp_listen`. -/
def meganetTcpListen (sock : UInt8) (port : UInt16) : Option (UInt8 × Api) :=
  callOnSock s i port MEGANET_TCP_LISTEN sock

/-- `meganet_tcp_peer`: the address into the four bytes at `ip4`, and the port. -/
def meganetTcpPeer (sock : UInt8) (ip4 : UInt16) : Option (UInt16 × Api) :=
  (callOnSock s i b MEGANET_TCP_PEER sock).map fun got =>
    (localWord got.2 b 4, got.2.copyTo ip4.toUInt32 (localIp got.2 b 0).bytes)

/-- `meganet_tcp_send_s`. -/
def meganetTcpSendS (sock : UInt8) (data len : UInt16) : Option (UInt16 × Api) :=
  (callOnSock (s.local_ b (meganetPtr28 data ++ bytes16 len)) i b MEGANET_TCP_SEND sock).map fun got =>
    (word (trResults got.2).a (trResults got.2).x, got.2)

/-- `meganet_tcp_recv_s`. -/
def meganetTcpRecvS (sock : UInt8) (buf cap : UInt16) : Option (UInt16 × Api) :=
  (callOnSock
    (s.local_ b (meganetPtr28 buf ++ bytes16 cap ++ [0, 0])) i b MEGANET_TCP_RECV sock).map fun got =>
    (localWord got.2 b 5, got.2)

/-- `meganet_tcp_close_s`, -/
def meganetTcpCloseS (sock : UInt8) : Option (UInt8 × Api) :=
  meganetCall s i MEGANET_TCP_CLOSE 0 0 0 sock

/-- `meganet_tcp_abort_s`. -/
def meganetTcpAbortS (sock : UInt8) : Option (UInt8 × Api) :=
  meganetCall s i MEGANET_TCP_ABORT 0 0 0 sock

/-- `meganet_udp_open`. -/
def meganetUdpOpen (port : UInt16) : Option (UInt8 × Api) := callOnSock s i port MEGANET_UDP_OPEN 0

/-- `meganet_udp_close`. -/
def meganetUdpClose (sock : UInt8) : Option (UInt8 × Api) := meganetCall s i MEGANET_UDP_CLOSE 0 0 0 sock

/-- `meganet_udp_send`. -/
def meganetUdpSend (sock : UInt8) (ip4 port data len : UInt16) : Option (UInt8 × Api) :=
  callOnSock
    (s.local_ b (run s.m ip4.toUInt32 4 ++ bytes16 port ++ meganetPtr28 data ++ bytes16 len)) i b
    MEGANET_UDP_SEND sock

/-- `meganet_udp_recv`, with what it finds in `len`, `src_ip` and `src_port`. -/
def meganetUdpRecv (sock : UInt8) (buf cap : UInt16) : Option ((UInt8 × UInt16 × Ip4 × UInt16) × Api) :=
  (callOnSock (s.local_ b (meganetPtr28 buf ++ bytes16 cap)) i b MEGANET_UDP_RECV sock).map fun got =>
    ((got.1, localWord got.2 b 5, localIp got.2 b 7, localWord got.2 b 11), got.2)

end

end MegaNet.Core
