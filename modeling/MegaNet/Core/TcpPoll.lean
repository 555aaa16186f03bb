import MegaNet.Core.TcpSocket

/-! The timers and pending transmissions of one socket: `poll_one`, a branch
a definition. -/
namespace MegaNet.Core

def ackFlags : SegFlags := { ack := true }
def dataFlags : SegFlags := { ack := true, psh := true }
def finFlags : SegFlags := { ack := true, fin := true }

/-- `if (t->rto < RTO_MAX) t->rto = (uint16_t)(t->rto * 2)`. -/
def backoff (rto : UInt16) : UInt16 := if rto < RTO_MAX then rto * 2 else rto

/-- The SYN or SYN|ACK, again. -/
def resendSyn (t : MnTcp) (x : XMem) (net : MnNet) (now : UInt16) : MnTcp × MnNet :=
  sendSyn { t with sentAt := now } x net { syn := true, ack := t.state ≠ .synSent }

/-- `poll_one` in SYN_SENT and SYN_RCVD. -/
def pollHandshake (t : MnTcp) (x : XMem) (net : MnNet) (now : UInt16) : MnTcp × MnNet :=
  if t.synPending then resendSyn t x net now
  else if now - t.sentAt ≥ t.rto then
    let t := { t with retries := t.retries + 1 }
    if t.retries > MAX_RETRIES then
      if t.state = .synRcvd then ({ t with state := .listen, flags := {} }, net)
      else ({ t with flags := { t.flags with timeout := true }, state := .closed }, net)
    else resendSyn { t with statRetrans := t.statRetrans + 1, rto := backoff t.rto } x net now
  else (t, net)

/-- `poll_one` in TIME_WAIT. -/
def pollTimeWait (t : MnTcp) (x : XMem) (net : MnNet) (now : UInt16) : MnTcp × MnNet :=
  let (t, net) :=
    if t.ackPending then
      let (_, t, net) := emit { t with ackPending := false } x net ackFlags t.sndNxt 0 0 false
      ({ t with timewaitAt := now }, net)
    else (t, net)
  (if now - t.timewaitAt ≥ TIME_WAIT_TICKS then { t with state := .closed } else t, net)

/-- The retransmission timer's test. -/
def retransmitDue (t : MnTcp) (now : UInt16) : Bool :=
  (t.inflight ≠ 0 || t.finSent) && now - t.sentAt ≥ t.rto

/-- Retransmit: the oldest segment only, and the window back to one segment. -/
def retransmit (t : MnTcp) (x : XMem) (net : MnNet) (now : UInt16) : MnTcp × MnNet :=
  let t := { t with retries := t.retries + 1 }
  if t.retries > MAX_RETRIES then
    ({ t with flags := { t.flags with timeout := true }, state := .closed }, net)
  else
    let t := { t with
      statRetrans := t.statRetrans + 1, rto := backoff t.rto, sentAt := now, cwnd := t.peerMss }
    if t.inflight ≠ 0 then
      (emit t x net dataFlags t.sndUna 0 (if t.inflight > t.peerMss then t.peerMss else t.inflight)
        false).2
    else (emit t x net finFlags (t.sndNxt - 1) 0 0 false).2

/-- `limit`: the peer's window or our congestion window, whichever is less. -/
def sendLimit (t : MnTcp) : UInt16 := if t.sndWnd < t.cwnd then t.sndWnd else t.cwnd

/-- `n`: what the next segment of the send loop carries. -/
def nextLength (t : MnTcp) (limit : UInt16) : UInt16 :=
  let n := t.sndLen - t.inflight
  let n := if n > t.peerMss then t.peerMss else n
  if n > limit - t.inflight then limit - t.inflight else n

/-- The `while` loop of `poll_one`. Each turn that goes on puts at least one
more byte in flight, so `fuel` is the number of bytes queued. -/
def sendLoop (x : XMem) (now limit : UInt16) : Nat → MnTcp → MnNet → SendResult × MnTcp × MnNet
  | 0, t, net => (.ok, t, net)
  | fuel + 1, t, net =>
    if t.sndLen > t.inflight ∧ t.inflight < limit then
      let n := nextLength t limit
      let (r, t, net) := emit t x net dataFlags t.sndNxt t.inflight n false
      if r ≠ .ok then (r, t, net)
      else
        sendLoop x now limit fuel { t with
          sentAt := if t.inflight = 0 then now else t.sentAt
          inflight := t.inflight + n
          sndNxt := t.sndNxt + n.toUInt32
          ackPending := false } net
    else (.ok, t, net)

/-- Send queued data: as many segments as both windows allow. -/
def sendQueued (t : MnTcp) (x : XMem) (net : MnNet) (now : UInt16) : MnTcp × MnNet :=
  let (r, t, net) := sendLoop x now (sendLimit t) t.sndLen.toNat t net
  ({ t with txPending := t.sndLen > t.inflight || r == .pending }, net)

/-- Queued data all acknowledged and the application wants out: FIN. -/
def sendFin (t : MnTcp) (x : XMem) (net : MnNet) (now : UInt16) : MnTcp × MnNet :=
  let (r, t, net) := emit t x net finFlags t.sndNxt 0 0 false
  if r = .ok then
    ({ t with
      finSent := true
      sndNxt := t.sndNxt + 1
      sentAt := now
      ackPending := false
      state := if t.state = .closeWait then .lastAck else .finWait1 }, net)
  else (t, net)

/-- An acknowledgement on its own. -/
def sendAck (t : MnTcp) (x : XMem) (net : MnNet) : MnTcp × MnNet :=
  let (r, t, net) := emit t x net ackFlags t.sndNxt 0 0 false
  (if r ≠ .pending then { t with ackPending := false } else t, net)

/-- `poll_one`. -/
def pollOne (t : MnTcp) (x : XMem) (net : MnNet) (now : UInt16) : MnTcp × MnNet :=
  match t.state with
  | .closed | .listen => (t, net)
  | .synSent | .synRcvd => pollHandshake t x net now
  | .timeWait => pollTimeWait t x net now
  | _ =>
    if retransmitDue t now then retransmit t x net now
    else if t.txPending ∧ t.sndLen > t.inflight then sendQueued t x net now
    else if t.finQueued ∧ ¬ t.finSent ∧ t.inflight = 0 ∧ t.sndLen = 0 then sendFin t x net now
    else if t.ackPending then sendAck t x net
    else (t, net)

end MegaNet.Core
