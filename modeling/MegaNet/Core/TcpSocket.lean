import MegaNet.Core.Net
import MegaNet.SerialNumber

/-! One TCP socket of `mn_tcp.c`: its state, the segment builder, and the calls
an application makes on it. A socket's rings live in the pool, so a call that
touches them takes the pool and returns it. -/
namespace MegaNet.Core
open SerialNumber

inductive TcpState where
  | closed
  | synSent
  | established
  | finWait1
  | finWait2
  | closeWait
  | closing
  | lastAck
  | timeWait
  | listen
  | synRcvd
  deriving DecidableEq

/-- `MN_TCP_F_*`, reported alongside the state. -/
structure TcpFlags where
  eof : Bool := false
  reset : Bool := false
  timeout : Bool := false
  refused : Bool := false
  deriving DecidableEq

def MN_TCP_RCVBUF : UInt16 := 4096
def MN_TCP_SNDBUF : UInt16 := 3072
def MN_TCP_SOCKET_XMEM : UInt32 := 7168
def MN_TCP_MSS : UInt16 := 1460
def MN_TCP_WINDOW_CAP : UInt16 := 2048
def RTO_INITIAL : UInt16 := 50
def RTO_MAX : UInt16 := 400
def MAX_RETRIES : UInt8 := 5
def TIME_WAIT_TICKS : UInt16 := 100
def WINUPDATE_GROW : UInt32 := 256
def CWND_MAX : UInt16 := 4

/-- `mn_tcp`. -/
structure MnTcp where
  state : TcpState
  flags : TcpFlags
  index : UInt8
  remoteIp : Ip4
  remotePort : UInt16
  localPort : UInt16
  iss : UInt32
  sndUna : UInt32
  sndNxt : UInt32
  irs : UInt32
  rcvNxt : UInt32
  advEdge : UInt32
  sndWnd : UInt16
  peerMss : UInt16
  xseg : UInt16
  rcvbuf : UInt16
  sndbuf : UInt16
  sndHead : UInt16
  sndLen : UInt16
  inflight : UInt16
  cwnd : UInt16
  finQueued : Bool
  finSent : Bool
  rcvHead : UInt16
  rcvCount : UInt16
  ackPending : Bool
  synPending : Bool
  txPending : Bool
  sentAt : UInt16
  rto : UInt16
  timewaitAt : UInt16
  retries : UInt8
  statRxSeg : UInt16
  statTxSeg : UInt16
  statRetrans : UInt16
  statOoo : UInt16

/-- `rcv_free`. -/
def rcvFree (t : MnTcp) : UInt16 := MN_TCP_RCVBUF - t.rcvCount

/-- `adv_window`. -/
def advWindow (t : MnTcp) : UInt16 :=
  if rcvFree t > MN_TCP_WINDOW_CAP then MN_TCP_WINDOW_CAP else rcvFree t

/-- The option bytes of our SYN: kind 2, length 4, `MN_TCP_MSS`. -/
def mssOption : List UInt8 := [2, 4, (MN_TCP_MSS >>> 8).toUInt8, MN_TCP_MSS.toUInt8]

/-- The segment `emit` builds: `len` bytes of the send ring from `off` past
its head. -/
def buildSegment (t : MnTcp) (x : XMem) (flags : SegFlags) (seq : UInt32) (off len : UInt16)
    (withMss : Bool) : TcpSeg where
  sport := t.localPort
  dport := t.remotePort
  seq := seq
  ack := if flags.ack then t.rcvNxt else 0
  flags := flags
  wnd := advWindow t
  opts := if withMss then mssOption else []
  data := ringRead x t.xseg t.sndbuf MN_TCP_SNDBUF ((t.sndHead + off) % MN_TCP_SNDBUF) len
  optsFit := by split <;> decide
  dataFits := by rw [ringRead_length]; exact len.toNat_lt

/-- `emit`: builds and sends one segment. -/
def emit (t : MnTcp) (x : XMem) (net : MnNet) (flags : SegFlags) (seq : UInt32) (off len : UInt16)
    (withMss : Bool) : SendResult × MnTcp × MnNet :=
  match mnNetTxBegin net t.remoteIp with
  | (.error why, net) => (why, t, net)
  | (.ok txMac, net) =>
    let (r, net) := mnNetTxSend net txMac t.remoteIp (buildSegment t x flags seq off len withMss)
    (r, { t with
      advEdge := if flags.ack then t.rcvNxt + (advWindow t).toUInt32 else t.advEdge
      statTxSeg := t.statTxSeg + 1 }, net)

/-- `send_rst`: the answer to a segment nobody owns. -/
def sendRst (net : MnNet) (src : Ip4) (seg : TcpSeg) : MnNet :=
  let oack := seg.seq + seg.dlen.toUInt32 + (if seg.flags.syn then 1 else 0) +
    (if seg.flags.fin then 1 else 0)
  match mnNetTxBegin net src with
  | (.error _, net) => net
  | (.ok txMac, net) =>
    (mnNetTxSend net txMac src
      { sport := seg.dport
        dport := seg.sport
        seq := if seg.flags.ack then seg.ack else 0
        ack := if seg.flags.ack then 0 else oack
        flags := { rst := true, ack := !seg.flags.ack }
        wnd := 0
        opts := []
        data := []
        optsFit := by decide
        dataFits := by decide }).2

/-- `reset_counters`. -/
def resetCounters (t : MnTcp) : MnTcp :=
  { t with
    flags := {}
    sndHead := 0, sndLen := 0, inflight := 0
    cwnd := 0
    rcvHead := 0, rcvCount := 0
    finQueued := false, finSent := false
    ackPending := false, synPending := false, txPending := false
    advEdge := 0
    sndWnd := 0
    peerMss := 536
    rto := RTO_INITIAL
    retries := 0 }

/-- `initial_seq`. -/
def initialSeq (net : MnNet) (now : UInt16) (index : UInt8) : UInt32 :=
  (now.toUInt32 <<< 16) ||| (net.nif.mac.m4.toUInt32 <<< 8) |||
    (net.nif.mac.m5 + index * 61).toUInt32

/-- The local port `mn_tcp_connect` takes. -/
def ephemeralPort (net : MnNet) (now : UInt16) (index : UInt8) : UInt16 :=
  49152 + ((now * 3 + net.nif.mac.m5.toUInt16 + index.toUInt16 * 37) &&& 0x0fff)

/-- Sends the handshake's segment; what the link did not take stays pending. -/
def sendSyn (t : MnTcp) (x : XMem) (net : MnNet) (flags : SegFlags) : MnTcp × MnNet :=
  let (r, t, net) := emit t x net flags t.iss 0 0 true
  ({ t with synPending := r ≠ .ok }, net)

/-- What `mn_tcp_connect` sets before the SYN goes out. -/
def startConnect (t : MnTcp) (net : MnNet) (ip : Ip4) (port now : UInt16) : MnTcp :=
  { resetCounters { t with
      remoteIp := ip
      remotePort := port
      localPort := ephemeralPort net now t.index
      iss := initialSeq net now t.index
      sndUna := initialSeq net now t.index
      sndNxt := initialSeq net now t.index + 1
      rcvNxt := 0 } with
    state := .synSent
    sentAt := now }

/-- `mn_tcp_connect`. -/
def mnTcpConnect (t : MnTcp) (x : XMem) (net : MnNet) (ip : Ip4) (port now : UInt16) :
    Bool × MnTcp × MnNet :=
  if t.state ≠ .closed then (false, t, net)
  else (true, sendSyn (startConnect t net ip port now) x net { syn := true })

/-- `mn_tcp_listen`. -/
def mnTcpListen (t : MnTcp) (port : UInt16) : Bool × MnTcp :=
  if t.state ≠ .closed ∨ port = 0 then (false, t)
  else (true, { resetCounters { t with localPort := port, remotePort := 0 } with state := .listen })

/-- `can_send`. -/
def canSend (t : MnTcp) : Bool :=
  (t.state == .established || t.state == .closeWait) && !t.finQueued

/-- How many of `len` bytes the send ring takes. -/
def sendRoom (t : MnTcp) (len : UInt16) : UInt16 :=
  if !canSend t then 0
  else if len > MN_TCP_SNDBUF - t.sndLen then MN_TCP_SNDBUF - t.sndLen else len

/-- `mn_tcp_send`: how many bytes were queued, the socket and the pool. -/
def mnTcpSend (t : MnTcp) (x : XMem) (data : List UInt8) (len : UInt16) : UInt16 × MnTcp × XMem :=
  let len := sendRoom t len
  if len = 0 then (0, t, x)
  else
    (len, { t with sndLen := t.sndLen + len, txPending := true },
      ringWrite x t.xseg t.sndbuf MN_TCP_SNDBUF ((t.sndHead + t.sndLen) % MN_TCP_SNDBUF) data len)

/-- `mn_tcp_send_x`. -/
def mnTcpSendX (t : MnTcp) (x : XMem) (ext : PhysMem) (src : UInt32) (len : UInt16) :
    UInt16 × MnTcp × XMem :=
  let len := sendRoom t len
  if len = 0 then (0, t, x)
  else
    (len, { t with sndLen := t.sndLen + len, txPending := true },
      ringWriteX x t.xseg t.sndbuf MN_TCP_SNDBUF ((t.sndHead + t.sndLen) % MN_TCP_SNDBUF) ext src len)

/-- `after_recv`: the right edge moved, so tell the peer once it has moved
enough, or if the window had closed entirely. -/
def afterRecv (t : MnTcp) (n : UInt16) : MnTcp :=
  let t := { t with rcvHead := (t.rcvHead + n) % MN_TCP_RCVBUF, rcvCount := t.rcvCount - n }
  if n ≠ 0 ∧ (t.state = .established ∨ t.state = .finWait1 ∨ t.state = .finWait2) then
    let edge := t.rcvNxt + (advWindow t).toUInt32
    if edge - t.advEdge ≥ WINUPDATE_GROW ∨ t.advEdge = t.rcvNxt then { t with ackPending := true } else t
  else t

/-- How many bytes a receive call with room for `cap` takes. -/
def recvCount (t : MnTcp) (cap : UInt16) : UInt16 := if t.rcvCount > cap then cap else t.rcvCount

/-- `mn_tcp_recv`: the bytes taken. -/
def mnTcpRecv (t : MnTcp) (x : XMem) (cap : UInt16) : List UInt8 × MnTcp :=
  let n := recvCount t cap
  (if n = 0 then [] else ringRead x t.xseg t.rcvbuf MN_TCP_RCVBUF t.rcvHead n, afterRecv t n)

/-- `mn_tcp_recv_x`: how many bytes went to the client's memory. -/
def mnTcpRecvX (t : MnTcp) (x : XMem) (ext : PhysMem) (dst : UInt32) (cap : UInt16) :
    UInt16 × MnTcp × PhysMem :=
  let n := recvCount t cap
  (n, afterRecv t n,
    if n = 0 then ext else ringReadX ext dst x t.xseg t.rcvbuf MN_TCP_RCVBUF t.rcvHead n)

/-- `mn_tcp_available`. -/
def mnTcpAvailable (t : MnTcp) : UInt16 := t.rcvCount

/-- `mn_tcp_close`. -/
def mnTcpClose (t : MnTcp) : MnTcp :=
  match t.state with
  | .established | .closeWait => { t with finQueued := true, txPending := true }
  | .synSent | .listen | .synRcvd => { t with state := .closed }
  | _ => t

/-- `mn_tcp_abort`. -/
def mnTcpAbort (t : MnTcp) (x : XMem) (net : MnNet) : MnTcp × MnNet :=
  let (t, net) :=
    if t.state ≠ .closed ∧ t.state ≠ .timeWait ∧ t.state ≠ .listen then
      (emit t x net { rst := true, ack := true } t.sndNxt 0 0 false).2
    else (t, net)
  ({ t with
    state := .closed
    sndHead := 0, sndLen := 0, inflight := 0
    finQueued := false, finSent := false
    ackPending := false, synPending := false, txPending := false }, net)

end MegaNet.Core
