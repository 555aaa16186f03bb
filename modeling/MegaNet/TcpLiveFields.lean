import MegaNet.TcpPreservation

/-! What of a socket its routines read: two sockets that differ only in the
fields nothing reads go on alike. -/
namespace MegaNet.TcpLiveFields
open MegaNet.Core SerialNumber Words TcpEmission TcpSocketInvariant TcpOutcomes

variable {t u : MnTcp} {x y : XMem} {net : MnNet} {now : UInt16}

/-- A socket without its counters, the peer's first sequence number, which is
never read, and the tick TIME_WAIT is counted from. -/
def live (t : MnTcp) : MnTcp :=
  { t with irs := 0, timewaitAt := 0, statRxSeg := 0, statTxSeg := 0, statRetrans := 0, statOoo := 0 }

def Alike (t u : MnTcp) : Prop := live t = live u

/-- What does not depend on those fields is the same of both. -/
theorem Alike.reads (same : Alike t u) (f : MnTcp → α) (blind : ∀ v, f (live v) = f v) : f u = f t :=
  calc f u = f (live u) := (blind u).symm
    _ = f (live t) := congrArg f (Eq.symm same)
    _ = f t := blind t

/-- Sockets alike differ in nothing else. -/
theorem Alike.apart (same : Alike t u) : ∃ irs since rx tx again ooo, u =
    { t with
      irs := irs, timewaitAt := since
      statRxSeg := rx, statTxSeg := tx, statRetrans := again, statOoo := ooo } := by
  refine ⟨u.irs, u.timewaitAt, u.statRxSeg, u.statTxSeg, u.statRetrans, u.statOoo, ?_⟩
  calc u = { live u with
          irs := u.irs, timewaitAt := u.timewaitAt, statRxSeg := u.statRxSeg, statTxSeg := u.statTxSeg
          statRetrans := u.statRetrans, statOoo := u.statOoo } := rfl
    _ = _ := by
      rw [← show live t = live u from same]
      rfl

/-- The same socket and the same net, as far as anything tells. -/
def Agree (a b : MnTcp × MnNet) : Prop := Alike a.1 b.1 ∧ a.2 = b.2

/-! ## Segments -/

private theorem handleAck_alike (same : Alike t u) (ack : UInt32) (now : UInt16) :
    Alike (handleAck t ack now) (handleAck u ack now) := by
  obtain ⟨irs, since, rx, tx, again, ooo, rfl⟩ := same.apart
  rw [handleAck_eq, handleAck_eq]
  dsimp only
  split <;> rfl

private theorem outOfOrder_alike (same : Alike t u) (seg : TcpSeg) : Alike (outOfOrder t seg)
    (outOfOrder u seg) := by
  obtain ⟨irs, since, rx, tx, again, ooo, rfl⟩ := same.apart
  unfold outOfOrder
  split <;> rfl

private theorem takeData_alike (same : Alike t u) (x y : XMem) (seg : TcpSeg) :
    Alike (takeData t x seg).1 (takeData u y seg).1 ∧
      (takeData t x seg).2.2 = (takeData u y seg).2.2 := by
  obtain ⟨irs, since, rx, tx, again, ooo, rfl⟩ := same.apart
  unfold takeData
  dsimp only
  split
  · exact ⟨rfl, rfl⟩
  split <;> exact ⟨rfl, rfl⟩

private theorem takeFin_alike (same : Alike t u) : Alike (takeFin t) (takeFin u) := by
  obtain ⟨irs, since, rx, tx, again, ooo, rfl⟩ := same.apart
  rfl

private theorem finAcked_alike (same : Alike t u) : Alike (finAcked t) (finAcked u) := by
  obtain ⟨irs, since, rx, tx, again, ooo, rfl⟩ := same.apart
  unfold finAcked
  dsimp only
  split <;> rfl

private theorem inOrder_alike (same : Alike t u) (x y : XMem) (seg : TcpSeg) (now : UInt16) :
    Alike (inOrder t x seg now).1 (inOrder u y seg now).1 := by
  have acked : Alike { handleAck t seg.ack now with sndWnd := seg.wnd }
      { handleAck u seg.ack now with sndWnd := seg.wnd } := by
    obtain ⟨irs, since, rx, tx, again, ooo, moved⟩ := (handleAck_alike same seg.ack now).apart
    rw [moved]
    rfl
  obtain ⟨taken, fin⟩ := takeData_alike acked x y seg
  unfold inOrder
  dsimp only
  rw [fin]
  split
  · exact finAcked_alike (takeFin_alike taken)
  · exact finAcked_alike taken

private theorem synchronizedInput_alike (same : Alike t u) (x y : XMem) (seg : TcpSeg) (now : UInt16) :
    Alike (synchronizedInput t x seg now).1 (synchronizedInput u y seg now).1 := by
  have next : u.rcvNxt = t.rcvNxt := same.reads _ fun _ => rfl
  unfold synchronizedInput
  rw [next]
  split
  · exact same
  split
  · exact handleAck_alike (outOfOrder_alike same seg) seg.ack now
  · exact inOrder_alike same x y seg now

private theorem rstInput_alike (same : Alike t u) (seg : TcpSeg) : Alike (rstInput t seg)
    (rstInput u seg) := by
  have window : advWindow u = advWindow t := same.reads _ fun _ => rfl
  obtain ⟨irs, since, rx, tx, again, ooo, rfl⟩ := same.apart
  unfold rstInput
  rw [window]
  dsimp only
  split
  · split <;> rfl
  · rfl
  · split <;> rfl

private theorem synSentInput_alike (same : Alike t u) (seg : TcpSeg) :
    Alike (synSentInput t seg) (synSentInput u seg) := by
  obtain ⟨irs, since, rx, tx, again, ooo, rfl⟩ := same.apart
  unfold synSentInput
  dsimp only
  split <;> rfl

private theorem synRcvdInput_alike (same : Alike t u) (x y : XMem) (seg : TcpSeg) (now : UInt16) :
    Alike (synRcvdInput t x seg now).1 (synRcvdInput u y seg now).1 := by
  obtain ⟨irs, since, rx, tx, again, ooo, rfl⟩ := same.apart
  unfold synRcvdInput
  dsimp only
  split
  · split <;> rfl
  split
  · rfl
  · exact synchronizedInput_alike (by rfl) x y seg now

theorem segmentInput_alike (same : Alike t u) (x y : XMem) (seg : TcpSeg) (now : UInt16) :
    Alike (segmentInput t x seg now).1 (segmentInput u y seg now).1 := by
  obtain ⟨irs, since, rx, tx, again, ooo, rfl⟩ := same.apart
  unfold segmentInput
  dsimp only
  split
  · exact rstInput_alike (by rfl) seg
  split
  · exact synSentInput_alike (by rfl) seg
  · exact synRcvdInput_alike (by rfl) x y seg now
  · exact synchronizedInput_alike (by rfl) x y seg now

/-! ## Emitting -/

/-- Two pools that hold the same bytes in the part of the send ring in use. -/
def Feeds (t : MnTcp) (x y : XMem) : Prop :=
  ∀ off len : UInt16, off.toNat + len.toNat ≤ t.sndLen.toNat →
    ringRead x t.xseg t.sndbuf MN_TCP_SNDBUF ((t.sndHead + off) % MN_TCP_SNDBUF) len =
      ringRead y t.xseg t.sndbuf MN_TCP_SNDBUF ((t.sndHead + off) % MN_TCP_SNDBUF) len

theorem ringRead_nothing (x : XMem) (seg base size pos : UInt16) : ringRead x seg base size pos 0 = [] :=
  List.eq_nil_of_length_eq_zero (ringRead_length ..)

private theorem emit_alike (same : Alike t u) (bytes :
      ringRead x t.xseg t.sndbuf MN_TCP_SNDBUF ((t.sndHead + off) % MN_TCP_SNDBUF) len =
        ringRead y t.xseg t.sndbuf MN_TCP_SNDBUF ((t.sndHead + off) % MN_TCP_SNDBUF) len)
    (net : MnNet) (flags : SegFlags) (seq : UInt32) (mss : Bool) :
    (emit t x net flags seq off len mss).1 = (emit u y net flags seq off len mss).1 ∧
      Agree (emit t x net flags seq off len mss).2 (emit u y net flags seq off len mss).2 := by
  have built : buildSegment u y flags seq off len mss = buildSegment t x flags seq off len mss := by
    obtain ⟨irs, since, rx, tx, again, ooo, rfl⟩ := same.apart
    simp only [buildSegment, bytes]
    rfl
  have route : u.remoteIp = t.remoteIp := same.reads _ fun _ => rfl
  unfold emit
  rw [built, route]
  split
  · exact ⟨rfl, same, rfl⟩
  · obtain ⟨irs, since, rx, tx, again, ooo, rfl⟩ := same.apart
    exact ⟨rfl, rfl, rfl⟩

/-- A segment without payload does not depend on the pool. -/
theorem emit_bare_alike (same : Alike t u) (x y : XMem) (net : MnNet) (flags : SegFlags) (seq : UInt32)
    (off : UInt16) (mss : Bool) :
    (emit t x net flags seq off 0 mss).1 = (emit u y net flags seq off 0 mss).1 ∧
      Agree (emit t x net flags seq off 0 mss).2 (emit u y net flags seq off 0 mss).2 :=
  emit_alike same (by rw [ringRead_nothing, ringRead_nothing]) net flags seq mss

theorem sendSyn_agree (same : Alike t u) (x y : XMem) (net : MnNet) (flags : SegFlags) :
    Agree (sendSyn t x net flags) (sendSyn u y net flags) := by
  have iss : u.iss = t.iss := same.reads _ fun _ => rfl
  obtain ⟨result, sent, after⟩ := emit_bare_alike same x y net flags t.iss 0 true
  obtain ⟨irs, since, rx, tx, again, ooo, moved⟩ := sent.apart
  unfold sendSyn
  dsimp only
  rw [iss, ← result, moved, ← after]
  generalize emit t x net flags t.iss 0 0 true = out
  exact ⟨rfl, rfl⟩

private theorem resendSyn_agree (same : Alike t u) (x y : XMem) (net : MnNet) (now : UInt16) :
    Agree (resendSyn t x net now) (resendSyn u y net now) := by
  obtain ⟨irs, since, rx, tx, again, ooo, rfl⟩ := same.apart
  exact sendSyn_agree (by rfl) x y net _

/-! ## Polls -/

private theorem pollHandshake_agree (same : Alike t u) (x y : XMem) (net : MnNet) (now : UInt16) :
    Agree (pollHandshake t x net now) (pollHandshake u y net now) := by
  obtain ⟨irs, since, rx, tx, again, ooo, rfl⟩ := same.apart
  unfold pollHandshake
  dsimp only
  split
  · exact resendSyn_agree same x y net now
  split
  · split
    · split <;> exact ⟨rfl, rfl⟩
    · exact resendSyn_agree (by rfl) x y net now
  · exact ⟨same, rfl⟩

/-- Whether a stay in TIME_WAIT with nothing owed is over. -/
def expired (t : MnTcp) (now : UInt16) : Bool := now - t.timewaitAt ≥ TIME_WAIT_TICKS

/-- In TIME_WAIT the tick it is counted from is read, unless it is set first. -/
theorem pollTimeWait_agree (same : Alike t u) (x y : XMem) (net : MnNet) (now : UInt16)
    (ends : t.ackPending = false → expired t now = expired u now) :
    Agree (pollTimeWait t x net now) (pollTimeWait u y net now) := by
  by_cases owed : t.ackPending = true
  · obtain ⟨irs, since, rx, tx, again, ooo, rfl⟩ := same.apart
    have early : ¬ now - now ≥ TIME_WAIT_TICKS := by
      rw [UInt16.sub_self]
      decide
    have out := emit_bare_alike (t := { t with ackPending := false })
      (u := { t with
        ackPending := false, irs := irs, timewaitAt := since
        statRxSeg := rx, statTxSeg := tx, statRetrans := again, statOoo := ooo })
      rfl x y net ackFlags t.sndNxt 0 false
    unfold pollTimeWait
    dsimp only at out ⊢
    rw [if_pos owed, if_pos owed]
    dsimp only at out ⊢
    revert out
    generalize emit _ x net ackFlags t.sndNxt 0 0 false = a
    generalize emit _ y net ackFlags t.sndNxt 0 0 false = b
    rintro ⟨_, sent, after⟩
    obtain ⟨irs, since, rx, tx, again, ooo, moved⟩ := sent.apart
    rw [moved]
    dsimp only
    rw [if_neg early, if_neg early]
    exact ⟨rfl, after⟩
  · have idle : t.ackPending = false := by simpa using owed
    have idle' : u.ackPending = false := (same.reads _ fun _ => rfl).trans idle
    have ends := ends idle
    simp only [expired, decide_eq_decide] at ends
    rw [pollTimeWait_idle idle, pollTimeWait_idle idle']
    refine ⟨?_, rfl⟩
    dsimp only
    simp only [ends]
    obtain ⟨irs, since, rx, tx, again, ooo, rfl⟩ := same.apart
    split <;> rfl

private theorem retransmit_agree (inv : SocketInv t since) (same : Alike t u)
    (feeds : Feeds t x y) (net : MnNet)
    (now : UInt16) : Agree (retransmit t x net now) (retransmit u y net now) := by
  have flight := inv.inflight
  have short : (0 : UInt16).toNat + (oldest t).toNat ≤ t.sndLen.toNat := by
    rw [oldest, toNat_clamp, UInt16.toNat_zero]
    omega
  have bytes := feeds 0 (oldest t) short
  obtain ⟨irs, since, rx, tx, again, ooo, rfl⟩ := same.apart
  unfold retransmit
  dsimp only
  split
  · exact ⟨rfl, rfl⟩
  split
  · exact (emit_alike (t := resent t now) (by rfl) bytes net dataFlags t.sndUna false).2
  · exact (emit_bare_alike (t := resent t now) (by rfl) x y net finFlags (t.sndNxt - 1) 0 false).2

private theorem sendLoop_agree (now limit : UInt16) (fuel : Nat) (same : Alike t u)
    (feeds : Feeds t x y) (net : MnNet) :
    (sendLoop x now limit fuel t net).1 = (sendLoop y now limit fuel u net).1 ∧
      Agree (sendLoop x now limit fuel t net).2 (sendLoop y now limit fuel u net).2 := by
  induction fuel generalizing t u net with
  | zero => exact ⟨rfl, same, rfl⟩
  | succ fuel ih =>
    have next : nextLength u limit = nextLength t limit := same.reads (nextLength · limit) fun _ => rfl
    obtain ⟨irs, since, rx, tx, again, ooo, rfl⟩ := same.apart
    unfold sendLoop
    rw [next]
    dsimp only
    by_cases more : t.sndLen > t.inflight ∧ t.inflight < limit
    · have size := nextLength_spec more.1 more.2
      have room := UInt16.lt_iff_toNat_lt.mp more.1
      obtain ⟨result, sent, after⟩ :=
        emit_alike same (feeds t.inflight (nextLength t limit) (by omega)) net
        dataFlags t.sndNxt false
      rw [if_pos more, if_pos more, ← result, ← after]
      by_cases gone : (emit t x net dataFlags t.sndNxt t.inflight (nextLength t limit) false).1 = .ok
      · rw [if_neg (not_not.mpr gone), if_neg (not_not.mpr gone)]
        refine ih ?_ ?_ _
        · obtain ⟨irs, since, rx, tx, again, ooo, moved⟩ := sent.apart
          rw [moved]
          rfl
        · obtain ⟨edge, stat, emitted⟩ :=
            emit_socket t x net dataFlags t.sndNxt t.inflight (nextLength t limit) false
          rw [emitted]
          exact feeds
      · rw [if_pos gone, if_pos gone]
        exact ⟨rfl, sent, rfl⟩
    · rw [if_neg more, if_neg more]
      exact ⟨rfl, same, rfl⟩

private theorem sendQueued_agree (same : Alike t u) (feeds : Feeds t x y) (net : MnNet) (now : UInt16) :
    Agree (sendQueued t x net now) (sendQueued u y net now) := by
  have limit : sendLimit u = sendLimit t := same.reads _ fun _ => rfl
  have queued : u.sndLen = t.sndLen := same.reads _ fun _ => rfl
  obtain ⟨result, sent, after⟩ := sendLoop_agree now (sendLimit t) t.sndLen.toNat same feeds net
  obtain ⟨irs, since, rx, tx, again, ooo, moved⟩ := sent.apart
  unfold sendQueued
  rw [limit, queued]
  dsimp only
  rw [← result, moved]
  exact ⟨rfl, after⟩

private theorem sendFin_agree (same : Alike t u) (x y : XMem) (net : MnNet) (now : UInt16) :
    Agree (sendFin t x net now) (sendFin u y net now) := by
  have next : u.sndNxt = t.sndNxt := same.reads _ fun _ => rfl
  obtain ⟨result, sent, after⟩ := emit_bare_alike same x y net finFlags t.sndNxt 0 false
  obtain ⟨irs, since, rx, tx, again, ooo, moved⟩ := sent.apart
  unfold sendFin
  dsimp only
  rw [next, ← result, moved, ← after]
  generalize emit t x net finFlags t.sndNxt 0 0 false = out
  split <;> exact ⟨rfl, rfl⟩

private theorem sendAck_agree (same : Alike t u) (x y : XMem) (net : MnNet) :
    Agree (sendAck t x net) (sendAck u y net) := by
  have next : u.sndNxt = t.sndNxt := same.reads _ fun _ => rfl
  obtain ⟨result, sent, after⟩ := emit_bare_alike same x y net ackFlags t.sndNxt 0 false
  obtain ⟨irs, since, rx, tx, again, ooo, moved⟩ := sent.apart
  unfold sendAck
  dsimp only
  rw [next, ← result, moved, ← after]
  generalize emit t x net ackFlags t.sndNxt 0 0 false = out
  split <;> exact ⟨rfl, rfl⟩

/-- Polled over the same net, sockets alike stay so, as long as none of them
leaves TIME_WAIT before the other. -/
theorem pollOne_agree (inv : SocketInv t since) (same : Alike t u) (feeds : Feeds t x y) (net : MnNet)
    (now : UInt16)
    (ends : t.state = .timeWait → t.ackPending = false → expired t now = expired u now) :
    Agree (pollOne t x net now) (pollOne u y net now) := by
  have state : u.state = t.state := same.reads _ fun _ => rfl
  have due : retransmitDue u now = retransmitDue t now := same.reads (retransmitDue · now) fun _ => rfl
  have fields : (u.txPending, u.sndLen, u.inflight, u.finQueued, u.finSent, u.ackPending) =
      (t.txPending, t.sndLen, t.inflight, t.finQueued, t.finSent, t.ackPending) :=
    same.reads
      (fun v => (v.txPending, v.sndLen, v.inflight, v.finQueued, v.finSent, v.ackPending)) fun _ => rfl
  simp only [Prod.mk.injEq] at fields
  obtain ⟨pending, queued, flight, wanted, out, owed⟩ := fields
  unfold pollOne
  rw [state, due, pending, queued, flight, wanted, out, owed]
  split
  · exact ⟨same, rfl⟩
  · exact ⟨same, rfl⟩
  · exact pollHandshake_agree same x y net now
  · exact pollHandshake_agree same x y net now
  · exact pollTimeWait_agree same x y net now (ends ‹_›)
  split
  · exact retransmit_agree inv same feeds net now
  split
  · exact sendQueued_agree same feeds net now
  split
  · exact sendFin_agree same x y net now
  split
  · exact sendAck_agree same x y net
  · exact ⟨same, rfl⟩

/-! ## At rest -/

/-- What shows of a socket in any state. -/
def outward (t : MnTcp) : TcpState × TcpFlags × UInt8 × (UInt16 × UInt16 × UInt16) × UInt16 :=
  (t.state, t.flags, t.index, rings t, t.rcvCount)

/-- Alike as far as anything still comes to light: of a listener its port too,
of an open connection all of it. -/
structure Resembles (t u : MnTcp) : Prop where
  shown : outward u = outward t
  port : t.state = .listen → u.localPort = t.localPort
  on : awake t.state → Alike t u

theorem Alike.resembles (same : Alike t u) : Resembles t u where
  shown := same.reads _ fun _ => rfl
  port := fun _ => same.reads _ fun _ => rfl
  on := fun _ => same

/-- A closed socket's port shows no more than the rest of it. -/
theorem Resembles.gone (closed : t.state = .closed) (shown : outward u = outward t) : Resembles t u where
  shown := shown
  port := fun listens => by simp [closed] at listens
  on := fun on => absurd closed on.1

theorem Resembles.outline (same : Resembles t u) :
    u.state = t.state ∧ u.flags = t.flags ∧ u.index = t.index ∧ rings u = rings t ∧
      u.rcvCount = t.rcvCount := by
  have shown := same.shown
  simpa only [outward, Prod.mk.injEq] using shown

theorem Resembles.state (same : Resembles t u) : u.state = t.state := same.outline.1

/-- Opening a connection sets all the rest. -/
theorem startConnect_alike (index : u.index = t.index) (place : rings u = rings t)
    (net : MnNet) (ip : Ip4)
    (port now : UInt16) : Alike (startConnect t net ip port now) (startConnect u net ip port now) := by
  simp only [rings, Prod.mk.injEq] at place
  obtain ⟨seg, rcv, snd⟩ := place
  simp [Alike, live, startConnect, resetCounters, index, seg, rcv, snd]

theorem startPassive_alike (index : u.index = t.index) (place : rings u = rings t)
    (port : u.localPort = t.localPort)
    (net : MnNet) (src : Ip4) (seg : TcpSeg) (now : UInt16) :
    Alike (startPassive t net src seg now) (startPassive u net src seg now) := by
  simp only [rings, Prod.mk.injEq] at place
  obtain ⟨xseg, rcv, snd⟩ := place
  simp [Alike, live, startPassive, takeMss, resetCounters, index, port, xseg, rcv, snd]

/-- A socket that begins to listen. -/
def listening (t : MnTcp) (port : UInt16) : MnTcp :=
  { resetCounters { t with localPort := port, remotePort := 0 } with state := .listen }

theorem listening_resembles (index : u.index = t.index) (place : rings u = rings t) (port : UInt16) :
    Resembles (listening t port) (listening u port) where
  shown := by
    simp only [rings, Prod.mk.injEq] at place
    obtain ⟨xseg, rcv, snd⟩ := place
    simp [outward, rings, listening, resetCounters, index, xseg, rcv, snd]
  port := fun _ => rfl
  on := fun on => absurd rfl on.2

/-! ## Calls -/

private theorem afterRecv_alike (same : Alike t u) (n : UInt16) : Alike (afterRecv t n)
    (afterRecv u n) := by
  obtain ⟨irs, since, rx, tx, again, ooo, rfl⟩ := same.apart
  unfold afterRecv
  dsimp only
  -- The window depends on the count alone.
  generalize window : advWindow { t with
    rcvHead := (t.rcvHead + n) % MN_TCP_RCVBUF, rcvCount := t.rcvCount - n } = w
  generalize window' : advWindow { t with
    rcvHead := (t.rcvHead + n) % MN_TCP_RCVBUF, rcvCount := t.rcvCount - n
    irs := irs, timewaitAt := since
    statRxSeg := rx, statTxSeg := tx, statRetrans := again, statOoo := ooo } = w'
  obtain rfl : w' = w := window'.symm.trans window
  split <;> [split; skip] <;> rfl

theorem afterRecv_resembles (same : Resembles t u) (n : UInt16) : Resembles (afterRecv t n)
    (afterRecv u n) where
  shown := by
    obtain ⟨state, flags, index, place, count⟩ := same.outline
    simp only [rings, Prod.mk.injEq] at place
    obtain ⟨owed, left⟩ := afterRecv_socket t n
    obtain ⟨owed', left'⟩ := afterRecv_socket u n
    simp [outward, rings, left, left', state, flags, index, place, count]
  port := fun listens => by
    obtain ⟨owed, left⟩ := afterRecv_socket t n
    obtain ⟨owed', left'⟩ := afterRecv_socket u n
    rw [left] at listens ⊢
    rw [left']
    exact same.port listens
  on := fun on => by
    rw [afterRecv_state] at on
    exact afterRecv_alike (same.on on) n

/-- Whatever else it was left with, a connection dropped is gone. -/
theorem Resembles.drop (same : Resembles t u) :
    Resembles { t with state := .closed } { u with state := .closed } := by
  obtain ⟨state, flags, index, place, count⟩ := same.outline
  simp only [rings, Prod.mk.injEq] at place
  exact .gone rfl (by simp [outward, rings, flags, index, place, count])

theorem Alike.asks (same : Alike t u) :
    Alike { t with finQueued := true, txPending := true }
      { u with finQueued := true, txPending := true } := by
  obtain ⟨irs, since, rx, tx, again, ooo, rfl⟩ := same.apart
  rfl

theorem mnTcpClose_resembles (same : Resembles t u) : Resembles (mnTcpClose t) (mnTcpClose u) := by
  cases state : t.state with
  | established | closeWait =>
    have asks := (same.on (by simp [awake, state])).asks.resembles
    simpa only [mnTcpClose, state, same.state] using asks
  | synSent | listen | synRcvd =>
    simpa only [mnTcpClose, state, same.state] using same.drop
  | closed | finWait1 | finWait2 | closing | lastAck | timeWait =>
    simpa only [mnTcpClose, state, same.state] using same

theorem mnTcpAbort_resembles (same : Resembles t u) (x y : XMem) (net : MnNet) :
    Resembles (mnTcpAbort t x net).1 (mnTcpAbort u y net).1 ∧
      (mnTcpAbort t x net).2 = (mnTcpAbort u y net).2 := by
  constructor
  · obtain ⟨_, flags, index, place, count⟩ := same.outline
    simp only [rings, Prod.mk.injEq] at place
    obtain ⟨edge, stat, gone⟩ := (mnTcpAbort_spec t x net).1
    obtain ⟨edge', stat', gone'⟩ := (mnTcpAbort_spec u y net).1
    rw [gone, gone']
    exact .gone rfl (by simp [outward, rings, aborted, flags, index, place, count])
  · unfold mnTcpAbort
    rw [same.state]
    by_cases open_ : t.state ≠ .closed ∧ t.state ≠ .timeWait ∧ t.state ≠ .listen
    · have alike := same.on ⟨open_.1, open_.2.2⟩
      have next : u.sndNxt = t.sndNxt := alike.reads _ fun _ => rfl
      rw [if_pos open_, if_pos open_, next]
      exact (emit_bare_alike alike x y net { rst := true, ack := true } t.sndNxt 0 false).2.2
    · rw [if_neg open_, if_neg open_]

theorem canSend_awake (ready : canSend t = true) : awake t.state :=
  synchronized_awake (sending_synchronized (canSend_sending ready)).1

theorem sendRoom_resembles (same : Resembles t u) (len : UInt16) : sendRoom u len = sendRoom t len := by
  by_cases on : awake t.state
  · exact (same.on on).reads (sendRoom · len) fun _ => rfl
  · have shut : canSend t = false := by
      by_contra ready
      exact on (canSend_awake (by simpa using ready))
    have shut' : canSend u = false := by
      by_contra ready
      exact on (same.state ▸ canSend_awake (by simpa using ready))
    rw [sendRoom_shut shut, sendRoom_shut shut']

/-- Bytes queued for sending. -/
theorem Alike.queue (same : Alike t u) (n : UInt16) :
    Alike { t with sndLen := t.sndLen + n, txPending := true }
      { u with sndLen := u.sndLen + n, txPending := true } := by
  obtain ⟨irs, since, rx, tx, again, ooo, rfl⟩ := same.apart
  rfl

end MegaNet.TcpLiveFields
