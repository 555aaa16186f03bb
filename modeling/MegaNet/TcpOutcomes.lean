import MegaNet.Core.TcpPoll
import MegaNet.TcpEmission
import MegaNet.TcpSocketInvariant

/-! What each routine of `mn_tcp.c` can do to a socket, said once: the fields it
sets, the ones it leaves alone, and what it hands to the link. -/
namespace MegaNet.TcpOutcomes
open MegaNet.Core SerialNumber Words TcpEmission TcpSocketInvariant

/-! ## What is left alone -/

/-- What only opening a connection sets, and where the rings are. -/
structure Identity where
  index : UInt8
  remoteIp : Ip4
  remotePort : UInt16
  localPort : UInt16
  iss : UInt32
  xseg : UInt16
  rcvbuf : UInt16
  sndbuf : UInt16

def identity (t : MnTcp) : Identity :=
  ⟨t.index, t.remoteIp, t.remotePort, t.localPort, t.iss, t.xseg, t.rcvbuf, t.sndbuf⟩

/-- What emitting and polling leave alone besides: the receive side, and what
is queued and acknowledged. -/
structure Kept where
  identity : Identity
  irs : UInt32
  rcvNxt : UInt32
  rcvHead : UInt16
  rcvCount : UInt16
  sndUna : UInt32
  sndHead : UInt16
  sndLen : UInt16
  sndWnd : UInt16
  peerMss : UInt16
  finQueued : Bool

def kept (t : MnTcp) : Kept :=
  ⟨identity t, t.irs, t.rcvNxt, t.rcvHead, t.rcvCount, t.sndUna, t.sndHead, t.sndLen, t.sndWnd,
    t.peerMss, t.finQueued⟩

theorem kept_identity (same : kept t = kept u) : identity t = identity u :=
  congrArg Kept.identity same

/-- What a segment leaves alone besides, once the connection is synchronized. -/
structure Settled where
  identity : Identity
  irs : UInt32
  finQueued : Bool

def settled (t : MnTcp) : Settled := ⟨identity t, t.irs, t.finQueued⟩

/-- Where the rings are. -/
def rings (t : MnTcp) : UInt16 × UInt16 × UInt16 := (t.xseg, t.rcvbuf, t.sndbuf)

theorem identity_rings (same : identity t = identity u) : rings t = rings u := by
  simp only [identity, Identity.mk.injEq] at same
  simp [rings, same]

/-! ## Emitting -/

theorem sendSyn_socket (t : MnTcp) (x : XMem) (net : MnNet) (flags : SegFlags) :
    ∃ edge stat pending, (sendSyn t x net flags).1 =
      { t with advEdge := edge, statTxSeg := stat, synPending := pending } := by
  obtain ⟨edge, stat, same⟩ := emit_socket t x net flags t.iss 0 0 true
  unfold sendSyn
  dsimp only
  rw [same]
  exact ⟨edge, stat, _, rfl⟩

theorem sendSyn_net (t : MnTcp) (x : XMem) (net : MnNet) (flags : SegFlags) :
    (sendSyn t x net flags).2 = (emit t x net flags t.iss 0 0 true).2.2 := by
  unfold sendSyn
  dsimp only

theorem sendSyn_kept (t : MnTcp) (x : XMem) (net : MnNet) (flags : SegFlags) :
    kept (sendSyn t x net flags).1 = kept t := by
  obtain ⟨edge, stat, pending, same⟩ := sendSyn_socket t x net flags
  rw [same]
  rfl

/-! ## Segments -/

theorem ackedBytes_le (t : MnTcp) (ack : UInt32) : (ackedBytes t ack).toNat ≤ t.inflight.toNat := by
  simp only [ackedBytes, toNat_clamp]
  omega

/-- A socket after an acknowledgement up to `ack` retired `acked` bytes. -/
def retired (t : MnTcp) (ack : UInt32) (acked now : UInt16) : MnTcp :=
  { t with
    sndHead := (t.sndHead + acked) % MN_TCP_SNDBUF
    sndLen := t.sndLen - acked
    inflight := t.inflight - acked
    sndUna := ack
    retries := 0
    rto := RTO_INITIAL
    sentAt := now
    cwnd := if t.cwnd < t.peerMss * CWND_MAX then t.cwnd + t.peerMss else t.cwnd
    txPending := if t.sndLen - acked > t.inflight - acked then true else t.txPending }

/-- An acknowledgement is old, or of what was never sent, and ignored, or it
retires what it covers. -/
theorem handleAck_eq (t : MnTcp) (ack : UInt32) (now : UInt16) :
    handleAck t ack now =
      if upTo ack t.sndUna || precedes t.sndNxt ack then t else retired t ack
        (ackedBytes t ack) now := by
  unfold handleAck
  split
  · rfl
  · dsimp only [retired]
    split <;> simp_all

theorem handleAck_socket (t : MnTcp) (ack : UInt32) (now : UInt16) :
    handleAck t ack now = t ∨ ∃ acked, handleAck t ack now = retired t ack acked now := by
  rw [handleAck_eq]
  split
  · exact Or.inl rfl
  · exact Or.inr ⟨_, rfl⟩

theorem handleAck_state (t : MnTcp) (ack : UInt32) (now : UInt16) :
    (handleAck t ack now).state = t.state := by
  obtain same | ⟨acked, same⟩ := handleAck_socket t ack now <;> rw [same]
  rfl

theorem handleAck_settled (t : MnTcp) (ack : UInt32) (now : UInt16) :
    settled (handleAck t ack now) = settled t := by
  obtain same | ⟨acked, same⟩ := handleAck_socket t ack now <;> rw [same]
  rfl

/-- The MSS a SYN offers is taken up to ours. -/
theorem takeMss_socket (t : MnTcp) (seg : TcpSeg) :
    ∃ mss : UInt16, mss.toNat ≤ MN_TCP_MSS.toNat ∧ takeMss t seg = { t with peerMss := mss } := by
  refine ⟨_, ?_, rfl⟩
  rw [toNat_clamp]
  omega

theorem takeData_socket (t : MnTcp) (x : XMem) (seg : TcpSeg) :
    ∃ count next owed, (takeData t x seg).1 =
      { t with rcvCount := count, rcvNxt := next, ackPending := owed } := by
  unfold takeData
  split
  · exact ⟨_, _, _, rfl⟩
  split <;> exact ⟨_, _, _, rfl⟩

theorem takeData_state (t : MnTcp) (x : XMem) (seg : TcpSeg) : (takeData t x seg).1.state = t.state := by
  obtain ⟨count, next, owed, same⟩ := takeData_socket t x seg
  rw [same]

/-- A FIN is reached only in a segment that has one. -/
theorem takeData_fin (reached : (takeData t x seg).2.2 = true) : seg.flags.fin = true := by
  revert reached
  unfold takeData
  split
  · exact id
  split
  · intro fin
    simp only [Bool.and_eq_true] at fin
    exact fin.1
  · exact id

/-- How many bytes of an in-order payload are stored. -/
def taken (t : MnTcp) (seg : TcpSeg) : UInt16 :=
  if heardFin t.state then 0 else if seg.dlen > rcvFree t then rcvFree t else seg.dlen

theorem taken_le (t : MnTcp) (seg : TcpSeg) : (taken t seg).toNat ≤ seg.dlen.toNat := by
  unfold taken
  split
  · simp
  · rw [toNat_clamp]
    omega

theorem taken_congr (state : u.state = t.state) (count : u.rcvCount = t.rcvCount) (seg : TcpSeg) :
    taken u seg = taken t seg := by
  unfold taken rcvFree
  rw [state, count]

/-- A payload is stored as far as it fits and the peer has not finished, a FIN
is reached past all of it, and any payload is to be acknowledged. -/
theorem takeData_eq (sync : synchronized t.state = true) (x : XMem) (seg : TcpSeg) :
    (takeData t x seg).1 = { t with
        rcvCount := t.rcvCount + taken t seg
        rcvNxt := t.rcvNxt + (taken t seg).toUInt32
        ackPending := t.ackPending || seg.dlen ≠ 0 } ∧
      (takeData t x seg).2.2 = (seg.flags.fin && (heardFin t.state || taken t seg = seg.dlen)) ∧
      (taken t seg = 0 → (takeData t x seg).2.1 = x) := by
  have least := taken_le t seg
  unfold takeData
  by_cases empty : seg.dlen = 0
  · have none : taken t seg = 0 := eq_zero_of_toNat (by simpa [empty] using least)
    rw [if_pos empty, none]
    simp [empty]
  rw [if_neg empty]
  by_cases heard : heardFin t.state = true
  · have none : taken t seg = 0 := by simp [taken, heard]
    rw [if_neg (by rw [storing_iff sync, heard]; simp), none]
    simp [empty, heard]
  · rw [Bool.not_eq_true] at heard
    have stored : taken t seg = if seg.dlen > rcvFree t then rcvFree t else seg.dlen := by
      simp [taken, heard]
    have reached : taken t seg = seg.dlen ↔ ¬ taken t seg < seg.dlen := by
      rw [UInt16.lt_iff_toNat_lt, ← UInt16.toNat_inj]
      omega
    rw [if_pos ((storing_iff sync).mpr heard)]
    simp only [ringPut, ← stored, reached, heard]
    exact ⟨by simp [empty], by rw [Bool.false_or, decide_not], fun none => if_pos none⟩

theorem outOfOrder_socket (t : MnTcp) (seg : TcpSeg) :
    ∃ ooo owed, outOfOrder t seg = { t with statOoo := ooo, ackPending := owed } := by
  unfold outOfOrder
  split <;> exact ⟨_, _, rfl⟩

theorem finAcked_socket (t : MnTcp) :
    finAcked t = t ∨ finAcked t = { t with state := afterFinAcked t.state } := by
  unfold finAcked
  split
  · exact Or.inr rfl
  · exact Or.inl rfl

/-- The socket once the next segment's acknowledgement, window and payload are
taken, and not yet its FIN. -/
def received (t : MnTcp) (seg : TcpSeg) (now : UInt16) : MnTcp :=
  { handleAck t seg.ack now with
    sndWnd := seg.wnd
    rcvCount := t.rcvCount + taken t seg
    rcvNxt := t.rcvNxt + (taken t seg).toUInt32
    ackPending := t.ackPending || seg.dlen ≠ 0 }

/-- Its FIN is reached. -/
def reachesFin (t : MnTcp) (seg : TcpSeg) : Bool :=
  seg.flags.fin && (heardFin t.state || taken t seg = seg.dlen)

theorem inOrder_eq (sync : synchronized t.state = true) (x : XMem) (seg : TcpSeg) (now : UInt16) :
    (inOrder t x seg now).1 =
        finAcked (if reachesFin t seg then takeFin (received t seg now) else received t seg now) ∧
      (taken t seg = 0 → (inOrder t x seg now).2 = x) := by
  have state := handleAck_state t seg.ack now
  obtain ⟨same, fin, pool⟩ :=
    takeData_eq (t := { handleAck t seg.ack now with sndWnd := seg.wnd }) (state ▸ sync) x seg
  have count : (handleAck t seg.ack now).rcvCount = t.rcvCount ∧
    (handleAck t seg.ack now).rcvNxt = t.rcvNxt ∧
      (handleAck t seg.ack now).ackPending = t.ackPending := by
    obtain same | ⟨acked, same⟩ := handleAck_socket t seg.ack now <;> rw [same] <;> exact ⟨rfl, rfl, rfl⟩
  have stored : taken { handleAck t seg.ack now with sndWnd := seg.wnd } seg = taken t seg :=
    taken_congr state count.1 seg
  rw [stored] at same fin pool
  have whole : (takeData { handleAck t seg.ack now with sndWnd := seg.wnd } x seg).1 =
      received t seg now := by
    rw [same, received, count.1, count.2.1, count.2.2]
  have reached : (takeData { handleAck t seg.ack now with sndWnd := seg.wnd } x seg).2.2 =
      reachesFin t seg :=
    fin.trans (by rw [reachesFin, ← state])
  unfold inOrder
  dsimp only
  rw [whole, reached]
  exact ⟨rfl, pool⟩

theorem inOrder_settled (t : MnTcp) (x : XMem) (seg : TcpSeg) (now : UInt16) :
    settled (inOrder t x seg now).1 = settled t := by
  have acked : settled { handleAck t seg.ack now with sndWnd := seg.wnd } = settled t :=
    handleAck_settled t seg.ack now
  have done : ∀ u, settled (finAcked u) = settled u := by
    intro u
    obtain same | same := finAcked_socket u <;> rw [same]
    rfl
  obtain ⟨count, next, owed, same⟩ :=
    takeData_socket { handleAck t seg.ack now with sndWnd := seg.wnd } x seg
  unfold inOrder
  dsimp only
  rw [done, ← acked, same]
  split <;> rfl

theorem synchronizedInput_settled (t : MnTcp) (x : XMem) (seg : TcpSeg) (now : UInt16) :
    settled (synchronizedInput t x seg now).1 = settled t := by
  unfold synchronizedInput
  split
  · rfl
  split
  · obtain ⟨ooo, owed, same⟩ := outOfOrder_socket t seg
    rw [handleAck_settled, same]
    rfl
  · exact inOrder_settled t x seg now

/-- A SYN_SENT socket once its SYN is answered. -/
def answered (t : MnTcp) (seg : TcpSeg) (mss : UInt16) : MnTcp :=
  { t with
    irs := seg.seq
    rcvNxt := seg.seq + 1
    sndUna := t.sndNxt
    sndWnd := seg.wnd
    peerMss := mss
    state := .established
    cwnd := mss * 2
    retries := 0
    rto := RTO_INITIAL
    ackPending := true }

/-- A SYN_RCVD socket once its SYN|ACK is acknowledged. -/
def accepted (t : MnTcp) : MnTcp :=
  { t with
    sndUna := t.sndNxt
    state := .established
    cwnd := t.peerMss * 2
    retries := 0
    rto := RTO_INITIAL }

/-- What a segment makes of the socket `t` that owns it, once counted. -/
inductive Arrival (t : MnTcp) (x : XMem) (seg : TcpSeg) (now : UInt16) : MnTcp × XMem → Prop where
  | ignored : Arrival t x seg now (t, x)
  | reset (flags : TcpFlags) (eof : flags.eof = t.flags.eof) (rst : seg.flags.rst = true) :
      Arrival t x seg now ({ t with flags := flags, state := .closed }, x)
  | relistens (state : t.state = .synRcvd) (rst : seg.flags.rst = true) :
      Arrival t x seg now ({ t with state := .listen, flags := {} }, x)
  | connects (state : t.state = .synSent) (plain : seg.flags.rst = false) (syn : seg.flags.syn = true)
      (mss : UInt16) (bound : mss.toNat ≤ MN_TCP_MSS.toNat) : Arrival t x seg now (answered t seg mss, x)
  | synAgain (state : t.state = .synRcvd) : Arrival t x seg now ({ t with synPending := true }, x)
  | accepts (state : t.state = .synRcvd) (plain : seg.flags.rst = false) (bare : seg.flags.syn = false)
      (acks : seg.flags.ack = true) (answers : seg.ack = t.sndNxt) :
      Arrival t x seg now (synchronizedInput (accepted t) x seg now)
  | proceeds (past : t.state ≠ .synSent ∧ t.state ≠ .synRcvd) (plain : seg.flags.rst = false) :
      Arrival t x seg now (synchronizedInput t x seg now)

private theorem rstInput_arrival (t : MnTcp) (x : XMem) (now : UInt16) (rst : seg.flags.rst = true) :
    Arrival t x seg now (rstInput t seg, x) := by
  unfold rstInput
  split
  · split
    · exact .reset _ rfl rst
    · exact .ignored
  · exact .relistens ‹_› rst
  · split
    · exact .ignored
    · exact .reset _ rfl rst

private theorem synSentInput_arrival (x : XMem) (now : UInt16) (state : t.state = .synSent)
    (plain : seg.flags.rst = false) : Arrival t x seg now (synSentInput t seg, x) := by
  unfold synSentInput
  split
  · exact .ignored
  · rename_i answers
    simp only [Bool.not_eq_true', not_or, Bool.not_eq_false, not_not] at answers
    obtain ⟨syn, _, ack⟩ := answers
    obtain ⟨mss, bound, same⟩ := takeMss_socket
      { t with irs := seg.seq, rcvNxt := seg.seq + 1, sndUna := seg.ack, sndWnd := seg.wnd } seg
    dsimp only
    rw [same, ack]
    exact .connects state plain syn mss bound

private theorem synRcvdInput_arrival (x : XMem) (now : UInt16) (state : t.state = .synRcvd)
    (plain : seg.flags.rst = false) : Arrival t x seg now (synRcvdInput t x seg now) := by
  unfold synRcvdInput
  split
  · split
    · exact .synAgain state
    · exact .ignored
  rename_i bare
  split
  · exact .ignored
  · rename_i answers
    simp only [Bool.not_eq_true', not_or, Bool.not_eq_false, not_not] at answers
    obtain ⟨acks, ack, _⟩ := answers
    rw [ack]
    exact .accepts state plain (by simpa using bare) acks ack

theorem segmentInput_arrival (t : MnTcp) (x : XMem) (seg : TcpSeg) (now : UInt16) :
    Arrival { t with statRxSeg := t.statRxSeg + 1 } x seg now (segmentInput t x seg now) := by
  unfold segmentInput
  dsimp only
  split
  · exact rstInput_arrival _ x now ‹_›
  rename_i plain
  rw [Bool.not_eq_true] at plain
  split
  · exact synSentInput_arrival x now ‹_› plain
  · exact synRcvdInput_arrival x now ‹_› plain
  · exact .proceeds ⟨‹_›, ‹_›⟩ plain

/-- Past the handshake a segment is taken as it comes, once counted. -/
theorem segmentInput_past (past : t.state ≠ .synSent ∧ t.state ≠ .synRcvd)
    (plain : seg.flags.rst = false)
    (x : XMem) (now : UInt16) : segmentInput t x seg now =
      synchronizedInput { t with statRxSeg := t.statRxSeg + 1 } x seg now := by
  unfold segmentInput
  rw [if_neg (by simp [plain])]
  dsimp only
  split
  · exact absurd ‹_› past.1
  · exact absurd ‹_› past.2
  · rfl

theorem segmentInput_identity (t : MnTcp) (x : XMem) (seg : TcpSeg) (now : UInt16) :
    identity (segmentInput t x seg now).1 = identity t := by
  have arrival := segmentInput_arrival t x seg now
  generalize segmentInput t x seg now = out at arrival
  cases arrival with
  | accepts => exact congrArg Settled.identity (synchronizedInput_settled ..)
  | proceeds => exact congrArg Settled.identity (synchronizedInput_settled ..)
  | _ => rfl

/-! ## Calls -/

/-- How many of `len` bytes a send call queues. -/
theorem sendRoom_most (t : MnTcp) (len : UInt16) : (sendRoom t len).toNat ≤ len.toNat := by
  unfold sendRoom
  split
  · simp
  · rw [toNat_clamp]
    omega

theorem sendRoom_ready (more : sendRoom t len ≠ 0) : canSend t = true := by
  by_contra idle
  simp [sendRoom, idle] at more

theorem sendRoom_shut (shut : canSend t = false) (len : UInt16) : sendRoom t len = 0 := by
  simp [sendRoom, shut]

theorem shut_send (shut : canSend t = false) (x : XMem) (data : List UInt8) (len : UInt16) :
    mnTcpSend t x data len = (0, t, x) := by
  unfold mnTcpSend
  rw [if_pos (sendRoom_shut shut len)]

theorem shut_sendX (shut : canSend t = false) (x : XMem) (ext : PhysMem) (src : UInt32) (len : UInt16) :
    mnTcpSendX t x ext src len = (0, t, x) := by
  unfold mnTcpSendX
  rw [if_pos (sendRoom_shut shut len)]

theorem canSend_sending (ready : canSend t = true) : sending t.state = true := by
  simp only [canSend, Bool.and_eq_true, Bool.or_eq_true, beq_iff_eq] at ready
  rcases ready.1 with state | state <;> simp [state, sending]

theorem recvCount_le (t : MnTcp) (cap : UInt16) : (recvCount t cap).toNat ≤ t.rcvCount.toNat := by
  rw [recvCount, toNat_clamp]
  omega

/-- A socket after `n` bytes were returned to the application. -/
theorem afterRecv_socket (t : MnTcp) (n : UInt16) :
    ∃ owed, afterRecv t n =
      { t with rcvHead :=
        (t.rcvHead + n) % MN_TCP_RCVBUF, rcvCount := t.rcvCount - n, ackPending := owed } := by
  unfold afterRecv
  dsimp only
  split <;> [split; skip] <;> exact ⟨_, rfl⟩

theorem afterRecv_state (t : MnTcp) (n : UInt16) : (afterRecv t n).state = t.state := by
  obtain ⟨owed, same⟩ := afterRecv_socket t n
  rw [same]

/-- From an empty ring nothing is returned. -/
theorem drained (empty : t.rcvCount = 0) (cap : UInt16) :
    recvCount t cap = 0 ∧ (afterRecv t (recvCount t cap)).rcvCount = 0 := by
  have taken : recvCount t cap = 0 := eq_zero_of_toNat (by simpa [empty] using recvCount_le t cap)
  obtain ⟨owed, same⟩ := afterRecv_socket t (recvCount t cap)
  rw [same, taken]
  exact ⟨rfl, by simp [empty]⟩

/-- Closing asks for a FIN, or drops a connection not yet made, or does
nothing. -/
theorem mnTcpClose_cases (t : MnTcp) :
    sending t.state = true ∧ mnTcpClose t = { t with finQueued := true, txPending := true } ∨
      early t.state ∧ mnTcpClose t = { t with state := .closed } ∨
        sending t.state = false ∧ ¬ early t.state ∧ mnTcpClose t = t := by
  unfold mnTcpClose
  cases state : t.state <;> simp [sending, early, handshaking]

/-- A socket after `mn_tcp_abort`, its last segment aside. -/
def aborted (t : MnTcp) : MnTcp :=
  { t with
    state := .closed
    sndHead := 0, sndLen := 0, inflight := 0
    finQueued := false, finSent := false
    ackPending := false, synPending := false, txPending := false }

/-- The reset a live connection is aborted with. -/
def abortSegment (t : MnTcp) (x : XMem) : TcpSeg :=
  buildSegment t x { rst := true, ack := true } t.sndNxt 0 0 false

theorem mnTcpAbort_spec (t : MnTcp) (x : XMem) (net : MnNet) :
    (∃ edge stat, (mnTcpAbort t x net).1 = aborted { t with advEdge := edge, statTxSeg := stat }) ∧
      Sends net (mnTcpAbort t x net).2 (· = abortSegment t x) ∧
      (t.state = .closed → (mnTcpAbort t x net).2 = net) := by
  unfold mnTcpAbort
  by_cases live : t.state ≠ .closed ∧ t.state ≠ .timeWait ∧ t.state ≠ .listen
  · obtain ⟨edge, stat, same⟩ := emit_socket t x net { rst := true, ack := true } t.sndNxt 0 0 false
    rw [if_pos live]
    refine ⟨⟨edge, stat, ?_⟩, emit_sends net rfl, fun gone => absurd gone live.1⟩
    dsimp only
    rw [same]
    rfl
  · rw [if_neg live]
    exact ⟨⟨t.advEdge, t.statTxSeg, rfl⟩, Sends.nothing net _, fun _ => rfl⟩

theorem startPassive_socket (t : MnTcp) (net : MnNet) (src : Ip4) (seg : TcpSeg) (tick : UInt16) :
    ∃ mss : UInt16, mss.toNat ≤ MN_TCP_MSS.toNat ∧ startPassive t net src seg tick =
      { resetCounters { t with remoteIp := src, remotePort := seg.sport } with
        irs := seg.seq
        rcvNxt := seg.seq + 1
        iss := initialSeq net tick t.index
        sndUna := initialSeq net tick t.index
        sndNxt := initialSeq net tick t.index + 1
        sndWnd := seg.wnd
        peerMss := mss
        state := .synRcvd
        sentAt := tick } := by
  obtain ⟨mss, bound, same⟩ := takeMss_socket
    { resetCounters { t with remoteIp := src, remotePort := seg.sport } with
      irs := seg.seq
      rcvNxt := seg.seq + 1
      iss := initialSeq net tick t.index
      sndUna := initialSeq net tick t.index
      sndNxt := initialSeq net tick t.index + 1
      sndWnd := seg.wnd } seg
  exact ⟨mss, bound, by rw [startPassive, same]⟩

/-! ## Polls -/

/-- A socket whose timer ran out, not for the last time. -/
def retried (t : MnTcp) : MnTcp :=
  { t with retries := t.retries + 1, statRetrans := t.statRetrans + 1, rto := backoff t.rto }

/-- A socket whose timer ran out for the last time. -/
def spent (t : MnTcp) (state : TcpState) (flags : TcpFlags) : MnTcp :=
  { t with retries := t.retries + 1, state := state, flags := flags }

/-- What a poll makes of a handshake. -/
inductive Shake (t : MnTcp) (x : XMem) (net : MnNet) (now : UInt16) : MnTcp × MnNet → Prop where
  | waits (out : t.synPending = false) (patient : ¬ t.rto ≤ now - t.sentAt) : Shake t x net now (t, net)
  | pending (owed : t.synPending = true) : Shake t x net now (resendSyn t x net now)
  | again (out : t.synPending = false) (left : ¬ t.retries + 1 > MAX_RETRIES) :
      Shake t x net now (resendSyn (retried t) x net now)
  | relistens (out : t.synPending = false) (last : t.retries + 1 > MAX_RETRIES)
      (passive : t.state = .synRcvd) :
      Shake t x net now (spent t .listen {}, net)
  | times_out (out : t.synPending = false) (last : t.retries + 1 > MAX_RETRIES)
      (active : t.state ≠ .synRcvd) :
      Shake t x net now (spent t .closed { t.flags with timeout := true }, net)

theorem pollHandshake_shake (t : MnTcp) (x : XMem) (net : MnNet) (now : UInt16) :
    Shake t x net now (pollHandshake t x net now) := by
  unfold pollHandshake
  split
  · exact .pending ‹_›
  rename_i out
  rw [Bool.not_eq_true] at out
  split
  · dsimp only
    split
    · split
      · exact .relistens out ‹_› ‹_›
      · exact .times_out out ‹_› ‹_›
    · exact .again out ‹_›
  · exact .waits out ‹_›

theorem resendSyn_socket (t : MnTcp) (x : XMem) (net : MnNet) (now : UInt16) :
    ∃ edge stat pending, (resendSyn t x net now).1 =
      { t with sentAt := now, advEdge := edge, statTxSeg := stat, synPending := pending } :=
  sendSyn_socket { t with sentAt := now } x net _

/-- The last acknowledgement goes out, and the wait begins anew. -/
theorem pollTimeWait_owed (owed : t.ackPending = true) (x : XMem) (net : MnNet) (now : UInt16) :
    ∃ edge stat, (pollTimeWait t x net now).1 =
      { t with ackPending := false, advEdge := edge, statTxSeg := stat, timewaitAt := now } := by
  obtain ⟨edge, stat, same⟩ :=
    emit_socket { t with ackPending := false } x net ackFlags t.sndNxt 0 0 false
  unfold pollTimeWait
  rw [if_pos owed]
  dsimp only
  rw [same, if_neg (by rw [UInt16.sub_self]; decide)]
  exact ⟨edge, stat, rfl⟩

theorem pollTimeWait_idle (idle : t.ackPending = false) (x : XMem) (net : MnNet) (now : UInt16) :
    pollTimeWait t x net now =
      (if now - t.timewaitAt ≥ TIME_WAIT_TICKS then { t with state := .closed } else t, net) := by
  unfold pollTimeWait
  rw [if_neg (by simp [idle])]

theorem pollTimeWait_socket (t : MnTcp) (x : XMem) (net : MnNet) (now : UInt16) :
    ∃ owed edge stat since state, (state = t.state ∨ state = .closed) ∧ (pollTimeWait t x net now).1 =
      { t with
        ackPending := owed, advEdge :=
          edge, statTxSeg := stat, timewaitAt := since, state := state } := by
  cases owed : t.ackPending with
  | true =>
    obtain ⟨edge, stat, same⟩ := pollTimeWait_owed owed x net now
    exact ⟨_, _, _, _, _, Or.inl rfl, same⟩
  | false =>
    rw [pollTimeWait_idle owed]
    dsimp only
    split
    · exact ⟨_, _, _, _, _, Or.inr rfl, rfl⟩
    · exact ⟨_, _, _, _, _, Or.inl rfl, rfl⟩

theorem pollTimeWait_net (t : MnTcp) (x : XMem) (net : MnNet) (now : UInt16) :
    (pollTimeWait t x net now).2 =
      if t.ackPending then (emit { t with ackPending := false } x net ackFlags t.sndNxt 0 0 false).2.2
      else net := by
  unfold pollTimeWait
  by_cases owed : t.ackPending = true
  · rw [if_pos owed, if_pos owed]
  · rw [if_neg owed, if_neg owed]

/-- What a socket sends again: its oldest bytes, or its FIN. -/
def oldest (t : MnTcp) : UInt16 := if t.inflight > t.peerMss then t.peerMss else t.inflight

/-- A socket that retransmits, its window back to one segment. -/
def resent (t : MnTcp) (now : UInt16) : MnTcp := { retried t with sentAt := now, cwnd := t.peerMss }

/-- What a due retransmission comes to. -/
inductive Retransmission (t : MnTcp) (x : XMem) (net : MnNet) (now : UInt16) : MnTcp × MnNet → Prop where
  | times_out (last : t.retries + 1 > MAX_RETRIES) :
      Retransmission t x net now (spent t .closed { t.flags with timeout := true }, net)
  | data (left : ¬ t.retries + 1 > MAX_RETRIES) (flying : t.inflight ≠ 0) :
      Retransmission t x net now (emit (resent t now) x net dataFlags t.sndUna 0 (oldest t) false).2
  | fin (left : ¬ t.retries + 1 > MAX_RETRIES) (idle : t.inflight = 0) :
      Retransmission t x net now (emit (resent t now) x net finFlags (t.sndNxt - 1) 0 0 false).2

theorem retransmit_retransmission (t : MnTcp) (x : XMem) (net : MnNet) (now : UInt16) :
    Retransmission t x net now (retransmit t x net now) := by
  unfold retransmit
  dsimp only
  split
  · exact .times_out ‹_›
  split
  · exact .data ‹_› ‹_›
  · rename_i idle
    exact .fin ‹_› (not_not.mp idle)

/-- A socket whose segment of `n` bytes was queued by the link. -/
def launched (t : MnTcp) (n now : UInt16) : MnTcp :=
  { t with
    sentAt := if t.inflight = 0 then now else t.sentAt
    inflight := t.inflight + n
    sndNxt := t.sndNxt + n.toUInt32
    ackPending := false }

/-- What every turn of the send loop preserves, the whole loop preserves. -/
theorem sendLoop_rule {motive : MnTcp → MnNet → Prop} (x : XMem) (now limit : UInt16)
    (turn : ∀ t net, motive t net → t.inflight < t.sndLen → t.inflight < limit →
      let out := emit t x net dataFlags t.sndNxt t.inflight (nextLength t limit) false
      motive (if out.1 = .ok then launched out.2.1 (nextLength t limit) now else out.2.1) out.2.2)
    (fuel : Nat) (t : MnTcp) (net : MnNet) (start : motive t net) :
    motive (sendLoop x now limit fuel t net).2.1 (sendLoop x now limit fuel t net).2.2 := by
  induction fuel generalizing t net with
  | zero => exact start
  | succ fuel ih =>
    unfold sendLoop
    by_cases more : t.sndLen > t.inflight ∧ t.inflight < limit
    · rw [if_pos more]
      have next := turn t net start more.1 more.2
      dsimp only at next ⊢
      by_cases gone : (emit t x net dataFlags t.sndNxt t.inflight (nextLength t limit) false).1 = .ok
      · rw [if_pos gone] at next
        rw [if_neg (by simp [gone])]
        exact ih _ _ next
      · rw [if_neg gone] at next
        rw [if_pos gone]
        exact next
    · rw [if_neg more]
      exact start

theorem nextLength_spec {t : MnTcp} {limit : UInt16} (more : t.inflight < t.sndLen)
    (open_ : t.inflight < limit) :
    (nextLength t limit).toNat = min (min (t.sndLen.toNat - t.inflight.toNat) t.peerMss.toNat)
      (limit.toNat - t.inflight.toNat) := by
  rw [UInt16.lt_iff_toNat_lt] at more open_
  simp only [nextLength, toNat_clamp, toNat_less (Nat.le_of_lt more), toNat_less (Nat.le_of_lt open_)]

theorem sendQueued_socket (t : MnTcp) (x : XMem) (net : MnNet) (now : UInt16) :
    ∃ since flight next owed edge stat pending, (sendQueued t x net now).1 =
      { t with
        sentAt := since, inflight := flight, sndNxt := next, ackPending := owed
        advEdge := edge, statTxSeg := stat, txPending := pending } := by
  have looped := sendLoop_rule
    (motive := fun u _ => ∃ since flight next owed edge stat, u =
      { t with
        sentAt := since, inflight := flight, sndNxt := next, ackPending := owed
        advEdge := edge, statTxSeg := stat })
    x now (sendLimit t) (by
      rintro u after ⟨since, flight, next, owed, edge, stat, rfl⟩ _ _
      dsimp only
      generalize nextLength _ _ = n
      obtain ⟨edge', stat', same⟩ := emit_socket
        { t with
          sentAt := since, inflight := flight, sndNxt := next, ackPending := owed
          advEdge := edge, statTxSeg := stat } x after dataFlags next flight n false
      rw [same]
      split <;> exact ⟨_, _, _, _, _, _, rfl⟩)
    t.sndLen.toNat t net ⟨_, _, _, _, _, _, rfl⟩
  obtain ⟨since, flight, next, owed, edge, stat, same⟩ := looped
  unfold sendQueued
  dsimp only
  rw [same]
  exact ⟨since, flight, next, owed, edge, stat, _, rfl⟩

/-- A socket whose FIN the link took. -/
def finished (t : MnTcp) (now : UInt16) : MnTcp :=
  { t with
    finSent := true
    sndNxt := t.sndNxt + 1
    sentAt := now
    ackPending := false
    state := if t.state = .closeWait then .lastAck else .finWait1 }

theorem sendFin_socket (t : MnTcp) (x : XMem) (net : MnNet) (now : UInt16) :
    ∃ edge stat, (sendFin t x net now).1 = { t with advEdge := edge, statTxSeg := stat } ∨
      (sendFin t x net now).1 = finished { t with advEdge := edge, statTxSeg := stat } now := by
  obtain ⟨edge, stat, same⟩ := emit_socket t x net finFlags t.sndNxt 0 0 false
  refine ⟨edge, stat, ?_⟩
  unfold sendFin
  dsimp only
  rw [same]
  split
  · exact Or.inr rfl
  · exact Or.inl rfl

theorem sendFin_net (t : MnTcp) (x : XMem) (net : MnNet) (now : UInt16) :
    (sendFin t x net now).2 = (emit t x net finFlags t.sndNxt 0 0 false).2.2 := by
  unfold sendFin
  dsimp only
  split <;> rfl

theorem sendAck_socket (t : MnTcp) (x : XMem) (net : MnNet) :
    ∃ edge stat owed, (sendAck t x net).1 =
      { t with advEdge := edge, statTxSeg := stat, ackPending := owed } := by
  obtain ⟨edge, stat, same⟩ := emit_socket t x net ackFlags t.sndNxt 0 0 false
  refine ⟨edge, stat, ?_⟩
  unfold sendAck
  dsimp only
  rw [same]
  split <;> exact ⟨_, rfl⟩

theorem sendAck_net (t : MnTcp) (x : XMem) (net : MnNet) :
    (sendAck t x net).2 = (emit t x net ackFlags t.sndNxt 0 0 false).2.2 := by
  unfold sendAck
  dsimp only

/-- What holds of every branch of `poll_one` holds of the poll. -/
theorem pollOne_rule {motive : MnTcp × MnNet → Prop} (t : MnTcp) (x : XMem) (net : MnNet) (now : UInt16)
    (rests : (synchronized t.state = true → retransmitDue t now = false) → motive (t, net))
    (shakes : handshaking t.state = true → motive (pollHandshake t x net now))
    (waits : t.state = .timeWait → motive (pollTimeWait t x net now))
    (retransmits : synchronized t.state = true → retransmitDue t now = true →
      motive (retransmit t x net now))
    (sends : synchronized t.state = true → retransmitDue t now = false → t.txPending = true →
      t.inflight < t.sndLen → motive (sendQueued t x net now))
    (finishes : synchronized t.state = true → retransmitDue t now = false → t.finQueued = true →
      t.finSent = false → t.inflight = 0 → t.sndLen = 0 → motive (sendFin t x net now))
    (answers : synchronized t.state = true → retransmitDue t now = false → t.ackPending = true →
      motive (sendAck t x net)) : motive (pollOne t x net now) := by
  unfold pollOne
  split
  · exact rests fun sync => by simp_all [synchronized]
  · exact rests fun sync => by simp_all [synchronized]
  · exact shakes (by simp_all [handshaking])
  · exact shakes (by simp_all [handshaking])
  · exact waits ‹_›
  have sync : synchronized t.state = true := awake_past ⟨‹_›, ‹_›⟩ ⟨‹_›, ‹_›⟩
  split
  · exact retransmits sync ‹_›
  rename_i quiet
  rw [Bool.not_eq_true] at quiet
  split
  · rename_i queued
    exact sends sync quiet queued.1 queued.2
  split
  · rename_i ready
    exact finishes sync quiet ready.1 (by simpa using ready.2.1) ready.2.2.1 ready.2.2.2
  split
  · exact answers sync quiet ‹_›
  · exact rests fun _ => quiet

/-- A socket at rest is not polled. -/
theorem pollOne_asleep (asleep : ¬ awake t.state) : pollOne t x net now = (t, net) := by
  unfold awake at asleep
  unfold pollOne
  cases state : t.state <;> simp_all

theorem pollOne_handshaking (half : handshaking t.state = true) (x : XMem) (net : MnNet) (now : UInt16) :
    pollOne t x net now = pollHandshake t x net now := by
  unfold pollOne
  rcases handshaking_cases half with state | state <;> rw [state]

/-- `poll_one` in ESTABLISHED through LAST_ACK. -/
theorem pollOne_open (sync : synchronized t.state = true) (waiting : t.state ≠ .timeWait) (x : XMem)
    (net : MnNet) (now : UInt16) :
    pollOne t x net now =
      if retransmitDue t now then retransmit t x net now
      else if t.txPending ∧ t.sndLen > t.inflight then sendQueued t x net now
      else if t.finQueued ∧ ¬ t.finSent ∧ t.inflight = 0 ∧ t.sndLen = 0 then sendFin t x net now
      else if t.ackPending then sendAck t x net
      else (t, net) := by
  unfold pollOne
  cases state : t.state <;> simp_all [synchronized]

/-- What is true of each segment a poll may send is true of all that it sends:
the SYN, an ACK or a FIN by itself, the oldest data again, and what is queued. -/
theorem pollOne_each {P : TcpSeg → Prop} (t : MnTcp) (x : XMem) (net : MnNet) (now : UInt16)
    (syn : ∀ u : MnTcp, kept u = kept t → u.state = t.state → Sends net (resendSyn u x net now).2 P)
    (bare : synchronized t.state = true → ∀ (u : MnTcp) (flags : SegFlags) (seq : UInt32),
      kept u = kept t →
      flags = ackFlags ∨ flags = finFlags → Sends net (emit u x net flags seq 0 0 false).2.2 P)
    (oldest : synchronized t.state = true → t.inflight ≠ 0 →
      Sends net (emit (resent t now) x net dataFlags t.sndUna 0 (oldest t) false).2.2 P)
    (queued : synchronized t.state = true → retransmitDue t now = false → t.txPending = true →
      Sends net (sendQueued t x net now).2 P) : Sends net (pollOne t x net now).2 P := by
  apply pollOne_rule (motive := fun out => Sends net out.2 P)
  · exact fun _ => Sends.nothing net _
  · intro _
    have shake := pollHandshake_shake t x net now
    generalize pollHandshake t x net now = out at shake
    cases shake with
    | waits | relistens | times_out => exact Sends.nothing net _
    | pending => exact syn t rfl rfl
    | again => exact syn (retried t) rfl rfl
  · intro state
    rw [pollTimeWait_net]
    split
    · exact bare (by rw [state]; rfl) _ _ _ rfl (Or.inl rfl)
    · exact Sends.nothing net _
  · intro sync _
    have again := retransmit_retransmission t x net now
    generalize retransmit t x net now = out at again
    cases again with
    | times_out => exact Sends.nothing net _
    | data _ flying => exact oldest sync flying
    | fin => exact bare sync _ _ _ rfl (Or.inr rfl)
  · exact fun sync quiet pending _ => queued sync quiet pending
  · intro sync _ _ _ _ _
    rw [sendFin_net]
    exact bare sync t _ _ rfl (Or.inr rfl)
  · intro sync _ _
    rw [sendAck_net]
    exact bare sync t _ _ rfl (Or.inl rfl)

/-- What a poll makes of a socket, whatever the link answers. -/
inductive Polled (t : MnTcp) (now : UInt16) : MnTcp → Prop where
  | rests (quiet : synchronized t.state = true → retransmitDue t now = false) : Polled t now t
  | opens (half : handshaking t.state = true) (owed : t.synPending = true)
      (edge : UInt32) (stat : UInt16)
      (pending : Bool) :
      Polled t now { t with sentAt := now, advEdge := edge, statTxSeg := stat, synPending := pending }
  | reopens (half : handshaking t.state = true) (left : ¬ t.retries + 1 > MAX_RETRIES) (edge : UInt32)
      (stat : UInt16) (pending : Bool) :
      Polled t now
        { retried t with sentAt := now, advEdge := edge, statTxSeg := stat, synPending := pending }
  | relistens (passive : t.state = .synRcvd) (last : t.retries + 1 > MAX_RETRIES) :
      Polled t now (spent t .listen {})
  | gives_up (on : awake t.state) (last : t.retries + 1 > MAX_RETRIES) :
      Polled t now (spent t .closed { t.flags with timeout := true })
  | waits (state : t.state = .timeWait) (owed : Bool) (edge : UInt32) (stat since : UInt16) :
      Polled t now { t with ackPending := owed, advEdge := edge, statTxSeg := stat, timewaitAt := since }
  | expires (state : t.state = .timeWait) : Polled t now { t with state := .closed }
  | resends (sync : synchronized t.state = true) (left : ¬ t.retries + 1 > MAX_RETRIES) (edge : UInt32)
      (stat : UInt16) : Polled t now { resent t now with advEdge := edge, statTxSeg := stat }
  | sends (sync : synchronized t.state = true) (quiet : retransmitDue t now = false)
      (more : t.inflight < t.sndLen)
      (since flight : UInt16) (next : UInt32) (owed : Bool) (edge : UInt32)
      (stat : UInt16) (pending : Bool) :
      Polled t now { t with
        sentAt := since, inflight := flight, sndNxt := next, ackPending := owed
        advEdge := edge, statTxSeg := stat, txPending := pending }
  | finishes (sync : synchronized t.state = true) (quiet : retransmitDue t now = false) (unsent :
      t.finSent = false)
      (idle : t.inflight = 0) (edge : UInt32) (stat : UInt16) :
      Polled t now (finished { t with advEdge := edge, statTxSeg := stat } now)
  | answers (sync : synchronized t.state = true) (quiet : retransmitDue t now = false) (edge : UInt32)
      (stat : UInt16) (owed : Bool) :
      Polled t now { t with advEdge := edge, statTxSeg := stat, ackPending := owed }

theorem pollOne_polled (t : MnTcp) (x : XMem) (net : MnNet) (now : UInt16) :
    Polled t now (pollOne t x net now).1 := by
  apply pollOne_rule (motive := fun out => Polled t now out.1)
  · exact .rests
  · intro half
    have shake := pollHandshake_shake t x net now
    generalize pollHandshake t x net now = out at shake
    cases shake with
    | waits => exact .rests fun sync => by simp [handshaking_unsynchronized half] at sync
    | pending owed =>
      obtain ⟨edge, stat, pending, same⟩ := resendSyn_socket t x net now
      rw [same]
      exact .opens half owed edge stat pending
    | again _ left =>
      obtain ⟨edge, stat, pending, same⟩ := resendSyn_socket (retried t) x net now
      rw [same]
      exact .reopens half left edge stat pending
    | relistens _ last passive => exact .relistens passive last
    | times_out _ last => exact .gives_up (handshaking_awake half) last
  · intro state
    cases owed : t.ackPending with
    | true =>
      obtain ⟨edge, stat, same⟩ := pollTimeWait_owed owed x net now
      rw [same]
      exact .waits state false edge stat now
    | false =>
      rw [pollTimeWait_idle owed]
      dsimp only
      split
      · exact .expires state
      · exact .waits state t.ackPending t.advEdge t.statTxSeg t.timewaitAt
  · intro sync due
    have again := retransmit_retransmission t x net now
    generalize retransmit t x net now = out at again
    cases again with
    | times_out last => exact .gives_up (synchronized_awake sync) last
    | data left =>
      obtain ⟨edge, stat, same⟩ := emit_socket (resent t now) x net dataFlags t.sndUna 0 (oldest t) false
      rw [same]
      exact .resends sync left edge stat
    | fin left =>
      obtain ⟨edge, stat, same⟩ := emit_socket (resent t now) x net finFlags (t.sndNxt - 1) 0 0 false
      rw [same]
      exact .resends sync left edge stat
  · intro sync quiet _ more
    obtain ⟨since, flight, next, owed, edge, stat, pending, same⟩ := sendQueued_socket t x net now
    rw [same]
    exact .sends sync quiet more since flight next owed edge stat pending
  · intro sync quiet _ unsent idle _
    obtain ⟨edge, stat, same | same⟩ := sendFin_socket t x net now <;> rw [same]
    · exact .answers sync quiet edge stat t.ackPending
    · exact .finishes sync quiet unsent idle edge stat
  · intro sync quiet _
    obtain ⟨edge, stat, owed, same⟩ := sendAck_socket t x net
    rw [same]
    exact .answers sync quiet edge stat owed

theorem pollOne_kept (t : MnTcp) (x : XMem) (net : MnNet) (now : UInt16) :
    kept (pollOne t x net now).1 = kept t := by
  have polled := pollOne_polled t x net now
  generalize (pollOne t x net now).1 = u at polled
  cases polled <;> rfl

/-- A segment a poll of `t` may hand to the link: it speaks for the socket as it
is, and acknowledges unless it is the SYN of a connection not yet answered. -/
inductive Built (t : MnTcp) (x : XMem) : TcpSeg → Prop where
  | built (u : MnTcp) (flags : SegFlags)
      (seq : UInt32) (off len : UInt16) (mss : Bool) (same : kept u = kept t)
      (acks : flags.ack = true ↔ t.state ≠ .synSent) (opens : flags.ack = false → flags.syn = true)
      (plain : flags.rst = false) : Built t x (buildSegment u x flags seq off len mss)

private theorem emit_built (known : t.state ≠ .synSent) (u : MnTcp) (x : XMem)
    (net : MnNet) (flags : SegFlags)
    (seq : UInt32) (off len : UInt16) (mss : Bool) (same : kept u = kept t)
    (plain : flags.ack = true ∧ flags.rst = false) :
    Sends net (emit u x net flags seq off len mss).2.2 (Built t x) :=
  emit_sends net (.built u flags seq off len mss same (iff_of_true plain.1 known)
    (fun silent => by simp [plain.1] at silent) plain.2)

private theorem resendSyn_built (u : MnTcp) (same : kept u = kept t) (state : u.state = t.state)
    (x : XMem) (net : MnNet)
    (now : UInt16) : Sends net (resendSyn u x net now).2 (Built t x) := by
  rw [resendSyn, sendSyn_net]
  exact emit_sends net (.built _ _ _ _ _ _ same (by simp [state]) (fun _ => rfl) rfl)

theorem pollOne_built (t : MnTcp) (x : XMem) (net : MnNet) (now : UInt16) :
    Sends net (pollOne t x net now).2 (Built t x) := by
  have known : synchronized t.state = true → t.state ≠ .synSent := fun sync => (synchronized_past sync).1
  apply pollOne_each
  · exact fun u same state => resendSyn_built u same state x net now
  · rintro sync u flags seq same (rfl | rfl)
    · exact emit_built (known sync) u x net ackFlags seq 0 0 false same ⟨rfl, rfl⟩
    · exact emit_built (known sync) u x net finFlags seq 0 0 false same ⟨rfl, rfl⟩
  · exact fun sync _ => emit_built (known sync) _ x net _ _ _ _ _ rfl ⟨rfl, rfl⟩
  · intro sync _ _
    have looped := sendLoop_rule
      (motive := fun u after => kept u = kept t ∧ Sends net after (Built t x))
      x now (sendLimit t) (by
        rintro u after ⟨same, sends⟩ _ _
        have goes : Sends after _ (Built t x) :=
          emit_built (known sync) u x after dataFlags u.sndNxt u.inflight
          (nextLength u (sendLimit t)) false same ⟨rfl, rfl⟩
        obtain ⟨edge, stat, emitted⟩ :=
          emit_socket u x after dataFlags u.sndNxt u.inflight (nextLength u (sendLimit t)) false
        refine ⟨?_, sends.trans goes⟩
        rw [emitted]
        split <;> exact same)
      t.sndLen.toNat t net ⟨rfl, Sends.nothing net _⟩
    exact looped.2

end MegaNet.TcpOutcomes
