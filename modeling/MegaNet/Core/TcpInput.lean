import MegaNet.Core.TcpSocket

/-! What a received segment does to the socket that owns it, and what a SYN
does to a listener (`mn_tcp.c`, `ring_put` to `segment_input`). -/
namespace MegaNet.Core
open SerialNumber

/-- `ring_put`: appends a payload to the receive ring, as much as fits. -/
def ringPut (t : MnTcp) (x : XMem) (data : List UInt8) (len : UInt16) : UInt16 × MnTcp × XMem :=
  let len := if len > rcvFree t then rcvFree t else len
  (len, { t with rcvCount := t.rcvCount + len },
    if len = 0 then x
    else ringWrite x t.xseg t.rcvbuf MN_TCP_RCVBUF ((t.rcvHead + t.rcvCount) % MN_TCP_RCVBUF) data len)

/-- How many bytes of the ring an acknowledgement that passed `handle_ack`'s
test retires: the FIN takes a sequence number but no byte. -/
def ackedBytes (t : MnTcp) (ack : UInt32) : UInt16 :=
  let acked := (ack - t.sndUna).toUInt16
  let acked := if t.finSent && ack == t.sndNxt then acked - 1 else acked
  if acked > t.inflight then t.inflight else acked

/-- `handle_ack`: the peer acknowledged up to `ack`, so retire sent data. -/
def handleAck (t : MnTcp) (ack : UInt32) (now : UInt16) : MnTcp :=
  if upTo ack t.sndUna || precedes t.sndNxt ack then t
  else
    let acked := ackedBytes t ack
    let t := { t with
      sndHead := (t.sndHead + acked) % MN_TCP_SNDBUF
      sndLen := t.sndLen - acked
      inflight := t.inflight - acked
      sndUna := ack
      retries := 0
      rto := RTO_INITIAL
      sentAt := now
      cwnd := if t.cwnd < t.peerMss * CWND_MAX then t.cwnd + t.peerMss else t.cwnd }
    if t.sndLen > t.inflight then { t with txPending := true } else t

/-- The walk of `take_mss` over the option bytes still ahead. Every turn
consumes at least one of them, so `fuel` is their number. -/
def takeMssFrom : Nat → List UInt8 → UInt16 → UInt16
  | fuel + 1, kind :: length :: rest, mss =>
    if kind = 0 then mss
    else if kind = 1 then takeMssFrom fuel (length :: rest) mss
    else
      let mss :=
        match rest with
        | high :: low :: _ =>
          if kind = 2 ∧ length = 4 then (high.toUInt16 <<< 8) ||| low.toUInt16 else mss
        | _ => mss
      if length < 2 then mss else takeMssFrom fuel (rest.drop (length.toNat - 2)) mss
  | _, _, mss => mss

/-- `take_mss`: the MSS option of a SYN, if offered. -/
def takeMss (t : MnTcp) (seg : TcpSeg) : MnTcp :=
  let mss := takeMssFrom seg.opts.length seg.opts t.peerMss
  { t with peerMss := if mss > MN_TCP_MSS then MN_TCP_MSS else mss }

/-- What `passive_open` sets before the SYN|ACK goes out. -/
def startPassive (t : MnTcp) (net : MnNet) (src : Ip4) (seg : TcpSeg) (now : UInt16) : MnTcp :=
  { takeMss { resetCounters { t with remoteIp := src, remotePort := seg.sport } with
      irs := seg.seq
      rcvNxt := seg.seq + 1
      iss := initialSeq net now t.index
      sndUna := initialSeq net now t.index
      sndNxt := initialSeq net now t.index + 1
      sndWnd := seg.wnd } seg with
    state := .synRcvd
    sentAt := now }

/-- `passive_open`: a SYN for a listening socket. -/
def passiveOpen (t : MnTcp) (x : XMem) (net : MnNet) (src : Ip4) (seg : TcpSeg) (now : UInt16) :
    MnTcp × MnNet :=
  sendSyn (startPassive t net src seg now) x net { syn := true, ack := true }

/-- A RST in `segment_input`. -/
def rstInput (t : MnTcp) (seg : TcpSeg) : MnTcp :=
  match t.state with
  | .synSent =>
    if seg.flags.ack ∧ seg.ack = t.sndNxt then
      { t with flags := { t.flags with refused := true, reset := true }, state := .closed }
    else t
  | .synRcvd => { t with state := .listen, flags := {} }
  | _ =>
    if precedes seg.seq t.rcvNxt || upTo (t.rcvNxt + (advWindow t).toUInt32) seg.seq then t
    else { t with flags := { t.flags with reset := true }, state := .closed }

/-- `segment_input` in SYN_SENT: only the SYN|ACK that answers our SYN counts. -/
def synSentInput (t : MnTcp) (seg : TcpSeg) : MnTcp :=
  if !seg.flags.syn ∨ !seg.flags.ack ∨ seg.ack ≠ t.sndNxt then t
  else
    let t := takeMss { t with
      irs := seg.seq
      rcvNxt := seg.seq + 1
      sndUna := seg.ack
      sndWnd := seg.wnd } seg
    { t with
      state := .established
      cwnd := t.peerMss * 2
      retries := 0
      rto := RTO_INITIAL
      ackPending := true }

/-- The payload of an in-order segment: the socket, the pool, and whether a
FIN at its end is reached. -/
def takeData (t : MnTcp) (x : XMem) (seg : TcpSeg) : MnTcp × XMem × Bool :=
  if seg.dlen = 0 then (t, x, seg.flags.fin)
  else if t.state = .established ∨ t.state = .finWait1 ∨ t.state = .finWait2 then
    let (i, t, x) := ringPut t x seg.data seg.dlen
    ({ t with rcvNxt := t.rcvNxt + i.toUInt32, ackPending := true }, x, seg.flags.fin && !(i < seg.dlen))
  else ({ t with ackPending := true }, x, seg.flags.fin)

/-- Where the peer's FIN takes each state. -/
def afterPeerFin : TcpState → TcpState
  | .established => .closeWait
  | .finWait1 => .closing
  | .finWait2 => .timeWait
  | state => state

/-- The peer's FIN, in order. -/
def takeFin (t : MnTcp) : MnTcp :=
  { t with
    rcvNxt := t.rcvNxt + 1
    flags := { t.flags with eof := true }
    ackPending := true
    state := afterPeerFin t.state }

/-- Where the acknowledgement of our FIN takes each state. -/
def afterFinAcked : TcpState → TcpState
  | .finWait1 => .finWait2
  | .closing => .timeWait
  | .lastAck => .closed
  | state => state

/-- Our FIN acknowledged? -/
def finAcked (t : MnTcp) : MnTcp :=
  if t.finSent ∧ t.sndUna = t.sndNxt then { t with state := afterFinAcked t.state } else t

/-- A segment that is not the next one is counted, and answered with what we
expect if it carries data or a FIN. -/
def outOfOrder (t : MnTcp) (seg : TcpSeg) : MnTcp :=
  if seg.dlen ≠ 0 ∨ seg.flags.fin then { t with statOoo := t.statOoo + 1, ackPending := true } else t

/-- The next segment: its acknowledgement, its window, its payload, its FIN. -/
def inOrder (t : MnTcp) (x : XMem) (seg : TcpSeg) (now : UInt16) : MnTcp × XMem :=
  let t := { handleAck t seg.ack now with sndWnd := seg.wnd }
  let (t, x, fin) := takeData t x seg
  (finAcked (if fin then takeFin t else t), x)

/-- `segment_input` once the connection is synchronized. Only in-order data is
taken. -/
def synchronizedInput (t : MnTcp) (x : XMem) (seg : TcpSeg) (now : UInt16) : MnTcp × XMem :=
  if !seg.flags.ack then (t, x)
  else if seg.seq ≠ t.rcvNxt then (handleAck (outOfOrder t seg) seg.ack now, x)
  else inOrder t x seg now

/-- `segment_input` in SYN_RCVD: the handshake's last ACK may carry data and
falls through. -/
def synRcvdInput (t : MnTcp) (x : XMem) (seg : TcpSeg) (now : UInt16) : MnTcp × XMem :=
  if seg.flags.syn then
    (if seg.seq + 1 = t.rcvNxt then { t with synPending := true } else t, x)
  else if !seg.flags.ack ∨ seg.ack ≠ t.sndNxt ∨ seg.seq ≠ t.rcvNxt then (t, x)
  else
    synchronizedInput { t with
      sndUna := seg.ack
      state := .established
      cwnd := t.peerMss * 2
      retries := 0
      rto := RTO_INITIAL } x seg now

/-- `segment_input`: one segment for the socket that owns it. -/
def segmentInput (t : MnTcp) (x : XMem) (seg : TcpSeg) (now : UInt16) : MnTcp × XMem :=
  let t := { t with statRxSeg := t.statRxSeg + 1 }
  if seg.flags.rst then (rstInput t seg, x)
  else
    match t.state with
    | .synSent => (synSentInput t seg, x)
    | .synRcvd => synRcvdInput t x seg now
    | _ => synchronizedInput t x seg now

end MegaNet.Core
