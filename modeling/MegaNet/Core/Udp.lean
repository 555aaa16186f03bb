import Mathlib.Data.Fintype.Fin
import MegaNet.Core.Packet

/-! The UDP side of the network layer (`mn_net.c`): sockets, each a port with
a mailbox for one datagram in the pool, and sending. -/
namespace MegaNet.Core

def MN_UDP_SOCK_BUF : UInt16 := 576

/-- `mn_udp_sock`. -/
structure MnUdpSock where
  port : UInt16
  pending : Bool
  srcIp : Ip4
  srcPort : UInt16
  len : UInt16
  xseg : UInt16
  xoff : UInt16

/-- A datagram with the addresses it is sent to. -/
structure Datagram where
  dst : Ip4
  sport : UInt16
  dport : UInt16
  payload : List UInt8
  deriving DecidableEq

/-- `mn_net`, its protocol handlers apart. `posted` records every datagram that
`mn_net_send_udp` was called with. -/
structure MnNetFull extends MnNet where
  sock : Fin 4 → MnUdpSock
  rxFrames : UInt16
  arpReplies : UInt16
  arpLearned : UInt16
  echoReplies : UInt16
  udpRx : UInt16
  udpDropped : UInt16
  posted : List Datagram := []

/-- `mn_net_set_ip`. -/
def mnNetSetIp (net : MnNetFull) (ip mask gw : Ip4) : MnNetFull := { net with ip, mask, gw }

/-- `mn_net_set_pool`. -/
def mnNetSetPool (net : MnNetFull) (base : UInt32) : MnNetFull :=
  { net with
    sock := fun i => { net.sock i with
      xseg := (base >>> 16).toUInt16
      xoff := (base + UInt32.ofNat i * MN_UDP_SOCK_BUF.toUInt32).toUInt16 } }

def zeroIp : Ip4 := ⟨0, 0, 0, 0⟩

/-- `mn_net_init` over the memory `net`. -/
def mnNetInit (net : MnNetFull) (nif : MnNetif) : MnNetFull :=
  mnNetSetPool
    { net with
      nif, ip := zeroIp, mask := zeroIp, gw := zeroIp
      arp := { e := net.arp.e.map fun e => { e with valid := false }, next := 0 }
      sock := fun i => { net.sock i with port := 0, pending := false }
      ipId := 1
      rxFrames := 0, arpReplies := 0, arpLearned := 0, echoReplies := 0, udpRx := 0, udpDropped := 0
      txFailures := 0 }
    (0x8000000 + 0xe000)

/-- The loop `for (i = 0; i < MN_UDP_SOCKETS; i++)` up to the first socket on a
port. -/
def socketOn (sock : Fin 4 → MnUdpSock) (port : UInt16) : Option (Fin 4) :=
  (List.finRange 4).find? fun i => (sock i).port == port

def MnNetFull.setSock (net : MnNetFull) (i : Fin 4) (s : MnUdpSock) : MnNetFull :=
  { net with sock := Function.update net.sock i s }

/-- `mn_net_udp_open`: the socket's number, or `0xff`. -/
def mnNetUdpOpen (net : MnNetFull) (port : UInt16) : UInt8 × MnNetFull :=
  match socketOn net.sock port with
  | some _ => (0xff, net)
  | none =>
    match socketOn net.sock 0 with
    | some i => (UInt8.ofNat i, net.setSock i { net.sock i with port, pending := false })
    | none => (0xff, net)

/-- `mn_net_udp_close`. -/
def mnNetUdpClose (net : MnNetFull) (s : UInt8) : MnNetFull :=
  if inside : s.toNat < 4 then
    net.setSock ⟨s.toNat, inside⟩ { net.sock ⟨s.toNat, inside⟩ with port := 0, pending := false }
  else net

/-- What `mn_net_udp_recv` hands out. -/
structure Received where
  data : List UInt8
  srcIp : Ip4
  srcPort : UInt16

/-- `mn_net_udp_recv`, into a buffer of `cap` bytes. -/
def mnNetUdpRecv (net : MnNetFull) (x : XMem) (s : UInt8) (cap : UInt16) : Option Received × MnNetFull :=
  if inside : s.toNat < 4 then
    let k := net.sock ⟨s.toNat, inside⟩
    if !k.pending then (none, net)
    else
      let n := if k.len > cap then cap else k.len
      (some ⟨mnXmemRead x k.xseg k.xoff n, k.srcIp, k.srcPort⟩,
        net.setSock ⟨s.toNat, inside⟩ { k with pending := false })
  else (none, net)

def MN_UDP_MAX_PAYLOAD : Nat := 1518 - 14 - 20 - 8

/-- `mn_net_send_udp`. -/
def mnNetSendUdp (net : MnNetFull) (dst : Ip4) (sport dport : UInt16) (payload : List UInt8) :
    SendResult × MnNetFull :=
  let net := { net with posted := net.posted ++ [⟨dst, sport, dport, payload⟩] }
  if payload.length > MN_UDP_MAX_PAYLOAD then (.failed, net)
  else
    match mnNetTxBegin net.toMnNet dst with
    | (.error why, tx) => (why, { net with toMnNet := tx })
    | (.ok mac, tx) =>
      let (r, tx) := { tx with ipId := tx.ipId + 1 }.send
        (.udp mac tx.nif.mac tx.ip dst tx.ipId sport dport payload)
      (r, { net with toMnNet := tx })

/-- `deliver_udp`: a valid datagram goes to the mailbox of the first socket on
its port, if that is empty. -/
def deliverUdp (net : MnNetFull) (x : XMem) (ip : List UInt8) : MnNetFull × XMem :=
  let udp := mnIpv4Payload ip
  let ulen := mnIpv4PayloadLen ip
  if !mnUdpValid (mnIpv4Src ip) (mnIpv4Dst ip) udp ulen then (net, x)
  else
    match socketOn net.sock (mnUdpDport udp) with
    | none => ({ net with udpDropped := net.udpDropped + 1 }, x)
    | some i =>
      let s := net.sock i
      let plen := ulen - 8
      if s.pending || plen > MN_UDP_SOCK_BUF then ({ net with udpDropped := net.udpDropped + 1 }, x)
      else
        ({ net.setSock i { s with
              len := plen, srcIp := mnIpv4Src ip, srcPort := mnUdpSport udp, pending := true } with
            udpRx := net.udpRx + 1 },
          mnXmemWrite x s.xseg s.xoff (udp.drop 8) plen)

end MegaNet.Core
