import MegaNet.TcpLiveFields
import MegaNet.TcpTimeWait

/-! A socket used before and a fresh one, through the same connections: nothing
tells them apart but the tick TIME_WAIT is counted from, which a simultaneous
close leaves unset. -/
namespace MegaNet.TcpReuse
open MegaNet.Core SerialNumber Words CircularBuffer XmemRings TcpEmission TcpSocketInvariant TcpOutcomes
  TcpPreservation TcpConnection TcpSendStream TcpRecvStream TcpLiveFields TcpTimeWait

variable {c d : Conn} {t u : MnTcp} {x y : XMem} {net : MnNet} {op op' : Op} {seg : TcpSeg}

/-! ## What shows -/

/-- What a call returns. -/
inductive Answer where
  | nothing
  | started (done : Bool)
  | accepted (n : UInt16)
  | bytes (data : List UInt8)

def answer (c : Conn) (net : MnNet) : Op → Answer
  | .connect ip port tick => .started (mnTcpConnect c.t c.x net ip port tick).1
  | .listen port => .started (mnTcpListen c.t port).1
  | .send data len => .accepted (mnTcpSend c.t c.x data len).1
  | .sendX ext src len => .accepted (mnTcpSendX c.t c.x ext src len).1
  | .recv cap => .bytes (mnTcpRecv c.t c.x cap).1
  | .recvX ext dst cap =>
    let (n, _, ext) := mnTcpRecvX c.t c.x ext dst cap
    .bytes (ext.read dst n)
  | _ => .nothing

/-- Whether the dispatcher would give the socket a segment, as the owner of its
four-tuple or as a listener. -/
def dispatch (t : MnTcp) (src : Ip4) (seg : TcpSeg) : Bool × Bool := (owns src seg t, listensFor seg t)

/-- What an operation shows of a socket: its answer, the state, flags and bytes
available after it, the segments it would then be given, and the frames handed to the link. -/
structure Seen where
  answer : Answer
  state : TcpState
  flags : TcpFlags
  available : UInt16
  dispatched : Ip4 → TcpSeg → Bool × Bool
  handed : List (Frame × Bool)

def seen (c : Conn) (net : MnNet) (op : Op) : Seen :=
  let (after, sent) := c.exec net op
  { answer := answer c net op
    state := after.t.state
    flags := after.t.flags
    available := mnTcpAvailable after.t
    dispatched := dispatch after.t
    handed := handedSince net sent }

/-- The same operation on two sockets; the other sockets of their sets may do
different things. -/
inductive Paired : Op → Op → Prop where
  | same (op : Op) : Paired op op
  | others (x y : XMem) : Paired (.others x) (.others y)

/-- Both sockets can take these steps, each over one net for the two. -/
def Possible : Conn → Conn → List (MnNet × Op × Op) → Prop
  | _, _, [] => True
  | c, d, (net, op, op') :: rest =>
    Paired op op' ∧ c.Enabled op ∧ d.Enabled op' ∧ Possible (c.exec net op).1 (d.exec net op').1 rest

theorem Possible.take {steps : List (MnNet × Op × Op)} (possible : Possible c d steps) (k : Nat) :
    Possible c d (steps.take k) := by
  induction steps generalizing c d k with
  | nil => simpa using possible
  | cons step rest ih =>
    cases k with
    | zero => trivial
    | succ k => exact ⟨possible.1, possible.2.1, possible.2.2.1, ih possible.2.2.2 k⟩

/-- Every step shows the same. -/
def SeenAlike : Conn → Conn → List (MnNet × Op × Op) → Prop
  | _, _, [] => True
  | c, d, (net, op, op') :: rest =>
    seen c net op = seen d net op' ∧ SeenAlike (c.exec net op).1 (d.exec net op').1 rest

/-- A poll that finds sockets in TIME_WAIT with nothing owed finds the wait of
both over, or of neither. -/
def Timed (t u : MnTcp) : Op → Prop
  | .poll tick => t.state = .timeWait → t.ackPending = false → expired t tick = expired u tick
  | _ => True

def TimedAlike : Conn → Conn → List (MnNet × Op × Op) → Prop
  | _, _, [] => True
  | c, d, (net, op, op') :: rest =>
    Timed c.t d.t op ∧ TimedAlike (c.exec net op).1 (d.exec net op').1 rest

/-- A socket as `mn_tcp_init` left it, whatever the clock has come to since. -/
structure Fresh (c : Conn) : Prop where
  begun : ∃ socks n base, c.t ∈ (mnTcpInit socks n base).sock
  sent : c.sent = []
  rcvd : c.rcvd = []
  known : c.known = false

/-- The calls that open a connection; a listen on port 0 is refused. -/
inductive Opening : Op → Prop where
  | connect (ip : Ip4) (port tick : UInt16) : Opening (.connect ip port tick)
  | listen (port : UInt16) : Opening (.listen port)

/-- A refused call leaves on show what the last connection left. -/
def Opened (t : MnTcp) (op : Op) : Prop := op = .listen 0 → t.flags = {} ∧ t.rcvCount = 0

private theorem initSockets_mem (member : t ∈ initSockets base i socks) : ∃ j memory,
    t = initSocket base j memory := by
  induction socks generalizing i with
  | nil => cases member
  | cons memory rest ih =>
    rcases List.mem_cons.mp member with here | later
    · exact ⟨i, memory, here⟩
    · exact ih later

theorem Fresh.clear (fresh : Fresh c) : c.t.state = .closed ∧ c.t.flags = {} ∧ c.t.rcvCount = 0 := by
  obtain ⟨socks, n, base, member⟩ := fresh.begun
  obtain ⟨i, memory, same⟩ := initSockets_mem member
  rw [same]
  exact ⟨rfl, rfl, rfl⟩

/-- Polls leave it as it is. -/
theorem Fresh.run (fresh : Fresh c) : Conn.Run c := by
  have begun : Conn.Begun { c with now := 0 } := ⟨fresh.begun, rfl, fresh.sent, fresh.rcvd, fresh.known⟩
  have start : Conn.Run { c with now := 0 } := .start begun
  have polled := start.next ⟨goodNet, .poll c.now, trivial, rfl⟩
  have asleep : pollOne c.t c.x goodNet c.now = (c.t, goodNet) :=
    pollOne_asleep fun on => on.1 fresh.clear.1
  simp only [Conn.exec, asleep] at polled
  exact polled

/-! ## The receive ring -/

/-- The bytes received and not read yet. -/
def held (t : MnTcp) (x : XMem) : List UInt8 := rcvWindow t x t.rcvHead.toNat t.rcvCount.toNat

private theorem held_empty (empty : t.rcvCount = 0) (x : XMem) : held t x = [] := by
  simp [held, rcvWindow, empty]

/-- It is where it was, and its cells hold what they held. -/
theorem held_same (place : home u = home t) (ends : (u.rcvHead, u.rcvCount) = (t.rcvHead, t.rcvCount))
    (same : ∀ a, home t ≤ a → a < home t + 4096 → y a = x a) : held u y = held t x := by
  simp only [Prod.mk.injEq] at ends
  rw [held, held, rcvWindow, rcvWindow, place, ends.1, ends.2]
  exact window_congr (by decide) same

private theorem afterRecv_held (sock : SocketInv t now) (n : UInt16)
    (within : n.toNat ≤ t.rcvCount.toNat) (x : XMem) :
    held (afterRecv t n) x = (held t x).drop n.toNat := by
  have head := sock.rcvHead
  have count := sock.rcvCount
  have fewer := toNat_less within
  have moved : ((t.rcvHead + n) % MN_TCP_RCVBUF).toNat = (t.rcvHead.toNat + n.toNat) % 4096 :=
    toNat_turn (by omega)
  obtain ⟨owed, same⟩ := afterRecv_socket t n
  rw [same, held, held, rcvWindow, rcvWindow, window_drop within]
  simp only [moved, fewer, window_mod]
  rfl

private theorem recv_held (sock : SocketInv t now) (placed : Placed t) (n : UInt16)
    (within : n.toNat ≤ t.rcvCount.toNat)
    (x : XMem) : ringRead x t.xseg t.rcvbuf MN_TCP_RCVBUF t.rcvHead n = (held t x).take n.toNat := by
  have fits := placed.fits
  have count := sock.rcvCount
  rw [held, rcvWindow, window_take within]
  exact ringRead_window (by rw [rcvbuf_toNat]; omega) sock.rcvHead (by rw [rcvbuf_toNat]; omega)

/-- A segment appends a beginning of its payload, as long as the ring has
become. -/
def Appends (t : MnTcp) (x : XMem) (seg : TcpSeg) (out : MnTcp × XMem) : Prop :=
  held out.1 out.2 = held t x ++ seg.data.take (out.1.rcvCount.toNat - t.rcvCount.toNat)

theorem Appends.nothing (place : home u = home t)
    (ends : (u.rcvHead, u.rcvCount) = (t.rcvHead, t.rcvCount)) :
    Appends t x seg (u, x) := by
  have same := held_same place ends (x := x) (y := x) fun _ _ _ => rfl
  simp only [Prod.mk.injEq] at ends
  simp [Appends, same, ends.2]

private theorem inOrder_held (sock : SocketInv t now) (placed : Placed t)
    (sync : synchronized t.state = true) (x : XMem)
    (seg : TcpSeg) : Appends t x seg (inOrder t x seg now) := by
  have room := sock.rcvCount
  have fits : (taken t seg).toNat ≤ 4096 - t.rcvCount.toNat := by
    rw [← rcvFree_toNat sock, taken]
    split
    · exact Nat.zero_le _
    · rw [toNat_clamp]
      omega
  have longer : (t.rcvCount + taken t seg).toNat = t.rcvCount.toNat + (taken t seg).toNat :=
    toNat_more (by omega)
  have place := rings_home (identity_rings (congrArg Settled.identity (inOrder_settled t x seg now)))
  obtain ⟨count, _, head⟩ := inOrder_advances sync x seg now
  have appended := inOrder_appends sock placed sync x seg
  rw [Appends, held, held, rcvWindow, place, head, count, longer, Nat.add_sub_cancel_left]
  exact appended

private theorem synchronizedInput_held (sock : SocketInv t now) (placed : Placed t)
    (sync : synchronized t.state = true)
    (x : XMem) (seg : TcpSeg) : Appends t x seg (synchronizedInput t x seg now) := by
  unfold synchronizedInput
  split
  · exact .nothing rfl rfl
  split
  · have side := (handleAck_rcvSide (outOfOrder t seg) seg.ack now).trans (outOfOrder_rcvSide t seg)
    simp only [rcvSide, Prod.mk.injEq] at side
    exact .nothing side.2.2.2.2.2 (by rw [side.2.2.1, side.2.2.2.1])
  · exact inOrder_held sock placed sync x seg

private theorem segmentInput_held (sock : SocketInv t now) (placed : Placed t)
    (on : awake t.state) (x : XMem)
    (seg : TcpSeg) : Appends t x seg (segmentInput t x seg now) := by
  have kept : SocketInv { t with statRxSeg := t.statRxSeg + 1 } now := { sock with }
  have at_home : Placed { t with statRxSeg := t.statRxSeg + 1 } := { placed with }
  have arrival := segmentInput_arrival t x seg now
  generalize segmentInput t x seg now = out at arrival
  cases arrival with
  | ignored | reset | relistens | connects | synAgain => exact .nothing rfl rfl
  | accepts state => exact synchronizedInput_held (accepted_keeps kept state) { at_home with } rfl x seg
  | proceeds past => exact synchronizedInput_held kept at_home (awake_past on past) x seg

/-! ## Two runs -/

/-- Two sockets in the same state as far as it shows, the peer of each having
had the same from it. -/
structure Twins (c d : Conn) : Prop where
  run : Conn.Run c
  other : Conn.Run d
  socket : Resembles c.t d.t
  clock : d.now = c.now
  sent : awake c.t.state → d.sent = c.sent
  unread : held d.t d.x = held c.t c.x

/-- What a step of each makes of them, over the net it leaves. -/
structure Level (a b : Conn × MnNet) : Prop where
  socket : Resembles a.1.t b.1.t
  clock : b.1.now = a.1.now
  sent : awake a.1.t.state → b.1.sent = a.1.sent
  unread : held b.1.t b.1.x = held a.1.t a.1.x
  net : b.2 = a.2

theorem Twins.idle (twins : Twins c d) (net : MnNet) : Level (c, net) (d, net) where
  socket := twins.socket
  clock := twins.clock
  sent := twins.sent
  unread := twins.unread
  net := rfl

/-- The bytes queued are the last of those sent, so the send rings agree on
them. -/
theorem Twins.feeds (twins : Twins c d) (on : awake c.t.state) : Feeds c.t c.x d.x := by
  intro off len within
  have alike := twins.socket.on on
  have fields : (d.t.xseg, d.t.sndbuf, d.t.sndHead, d.t.sndLen) =
      (c.t.xseg, c.t.sndbuf, c.t.sndHead, c.t.sndLen) :=
    alike.reads (fun v => (v.xseg, v.sndbuf, v.sndHead, v.sndLen)) fun _ => rfl
  simp only [Prod.mk.injEq] at fields
  obtain ⟨seg, base, head, queued⟩ := fields
  have on' : awake d.t.state := twins.socket.state ▸ on
  have first : (buildSegment c.t c.x {} 0 off len false).data = _ :=
    buildSegment_data (run_sends twins.run on) twins.run.socketInv twins.run.placed off len within
  have second : (buildSegment d.t d.x {} 0 off len false).data = _ :=
    buildSegment_data (run_sends twins.other on') twins.other.socketInv twins.other.placed off len
      (by rwa [queued])
  simp only [buildSegment, acked, seg, base, head, queued, twins.sent on] at first second
  exact first.trans second.symm

private theorem connect_level (closed : c.t.state = .closed) (closed' : d.t.state = .closed)
    (index : d.t.index = c.t.index)
    (place : rings d.t = rings c.t) (clock : d.now = c.now) (net : MnNet) (ip : Ip4)
    (port tick : UInt16) :
    Level (c.exec net (.connect ip port tick)) (d.exec net (.connect ip port tick)) := by
  have alike := startConnect_alike index place net ip port tick
  obtain ⟨sent, after⟩ := sendSyn_agree alike c.x d.x net { syn := true }
  have none : ∀ t : MnTcp,
      ∀ x, (sendSyn (startConnect t net ip port tick) x net { syn := true }).1.rcvCount = 0 := by
    intro t x
    have started : (startConnect t net ip port tick).rcvCount = 0 := rfl
    generalize startConnect t net ip port tick = t' at started
    exact (congrArg Kept.rcvCount (sendSyn_kept t' x net { syn := true })).trans started
  have empty := none c.t c.x
  have empty' := none d.t d.x
  rw [exec_connect, exec_connect, if_pos closed, if_pos closed']
  generalize sendSyn (startConnect c.t net ip port tick) c.x net { syn := true } =
    out at sent after empty
  generalize sendSyn (startConnect d.t net ip port tick) d.x net { syn := true } =
    out' at sent after empty'
  exact ⟨sent.resembles, clock, fun _ => rfl, (held_empty empty' _).trans
    (held_empty empty _).symm, after.symm⟩

private theorem listen_level (closed : c.t.state = .closed) (closed' : d.t.state = .closed)
    (index : d.t.index = c.t.index)
    (place : rings d.t = rings c.t) (clock : d.now = c.now) (net : MnNet) (named : port ≠ 0) :
    Level (c.exec net (.listen port)) (d.exec net (.listen port)) := by
  rw [exec_listen, exec_listen, if_pos ⟨closed, named⟩, if_pos ⟨closed', named⟩]
  exact ⟨listening_resembles index place port, clock, fun _ => rfl, (held_empty rfl _).trans
    (held_empty rfl _).symm, rfl⟩

theorem Twins.queue (twins : Twins c d) (ready : canSend c.t = true) (net : MnNet)
    (data : List UInt8) (n : UInt16)
    (enough : n.toNat ≤ data.length) (short : n.toNat ≤ 3072) :
    Level
      ({ c with
        t := { c.t with sndLen := c.t.sndLen + n, txPending := true }
        x := ringWrite c.x c.t.xseg c.t.sndbuf MN_TCP_SNDBUF
          ((c.t.sndHead + c.t.sndLen) % MN_TCP_SNDBUF) data n
        sent := c.sent ++ data.take n.toNat }, net)
      ({ d with
        t := { d.t with sndLen := d.t.sndLen + n, txPending := true }
        x := ringWrite d.x d.t.xseg d.t.sndbuf MN_TCP_SNDBUF
          ((d.t.sndHead + d.t.sndLen) % MN_TCP_SNDBUF) data n
        sent := d.sent ++ data.take n.toNat }, net) where
  socket := ((twins.socket.on (canSend_awake ready)).queue n).resembles
  clock := twins.clock
  sent := fun on => congrArg (· ++ data.take n.toNat) (twins.sent on)
  unread := by
    have left := held_same (t := c.t)
      (u := { c.t with sndLen := c.t.sndLen + n, txPending := true }) rfl rfl
      fun a _ high => sndRing_outside twins.run.placed c.x data n enough short a (Or.inl high)
    have left' := held_same (t := d.t)
      (u := { d.t with sndLen := d.t.sndLen + n, txPending := true }) rfl rfl
      fun a _ high => sndRing_outside twins.other.placed d.x data n enough short a (Or.inl high)
    exact left'.trans (twins.unread.trans left.symm)
  net := rfl

theorem Twins.room (twins : Twins c d) (len : UInt16) :
    sendRoom d.t len = sendRoom c.t len ∧ (sendRoom c.t len).toNat ≤ 3072 := by
  have most := sendRoom_le twins.run.socketInv len
  exact ⟨sendRoom_resembles twins.socket len, by omega⟩

theorem Twins.send (twins : Twins c d) (net : MnNet) (data : List UInt8) (len : UInt16)
    (enough : len.toNat ≤ data.length) :
    Level (c.exec net (.send data len)) (d.exec net (.send data len)) := by
  obtain ⟨room, short⟩ := twins.room len
  have most := sendRoom_most c.t len
  simp only [Conn.exec, mnTcpSend, room]
  by_cases none : sendRoom c.t len = 0
  · simpa [none] using twins.idle net
  · simp only [if_neg none]
    exact twins.queue (sendRoom_ready none) net data _ (by omega) short

theorem Twins.sendX (twins : Twins c d) (net : MnNet) (ext : PhysMem) (src : UInt32) (len : UInt16) :
    Level (c.exec net (.sendX ext src len)) (d.exec net (.sendX ext src len)) := by
  obtain ⟨room, short⟩ := twins.room len
  have length : (ext.read src (sendRoom c.t len)).length = (sendRoom c.t len).toNat := by
    simp [PhysMem.read]
  simp only [Conn.exec, mnTcpSendX, room]
  by_cases none : sendRoom c.t len = 0
  · simpa [none, PhysMem.read] using twins.idle net
  · have queued := twins.queue (sendRoom_ready none) net
      (ext.read src (sendRoom c.t len)) _ length.ge short
    rw [List.take_of_length_le length.le] at queued
    simp only [if_neg none, ringWriteX_ringWrite (ring_end _)]
    exact queued

/-- Bytes returned to the application, whatever was recorded of them. -/
theorem Twins.take (twins : Twins c d) (net : MnNet) (n : UInt16) (within : n.toNat ≤ c.t.rcvCount.toNat)
    (rcvd rcvd' : List UInt8) :
    Level ({ c with t := afterRecv c.t n, rcvd := rcvd }, net)
      ({ d with t := afterRecv d.t n, rcvd := rcvd' }, net) where
  socket := afterRecv_resembles twins.socket n
  clock := twins.clock
  sent := fun on => twins.sent (afterRecv_state c.t n ▸ on)
  unread := by
    have count : d.t.rcvCount = c.t.rcvCount := twins.socket.outline.2.2.2.2
    rw [afterRecv_held twins.run.socketInv n within,
      afterRecv_held twins.other.socketInv n (by rwa [count]),
      twins.unread]
  net := rfl

theorem Twins.segment (twins : Twins c d) (net : MnNet) (seg : TcpSeg) (on : awake c.t.state) :
    Level (c.exec net (.segment seg)) (d.exec net (.segment seg)) := by
  have alike := segmentInput_alike (twins.socket.on on) c.x d.x seg c.now
  have on' : awake d.t.state := twins.socket.state ▸ on
  have before : d.t.rcvCount = c.t.rcvCount := twins.socket.outline.2.2.2.2
  have after : (segmentInput d.t d.x seg c.now).1.rcvCount =
      (segmentInput c.t c.x seg c.now).1.rcvCount :=
    alike.reads _ fun _ => rfl
  have appends := segmentInput_held twins.run.socketInv twins.run.placed on c.x seg
  have appends' := segmentInput_held twins.other.socketInv twins.other.placed on' d.x seg
  rw [twins.clock, Appends, after, before, twins.unread] at appends'
  simp only [Conn.exec, twins.clock]
  exact ⟨alike.resembles, rfl, fun _ => twins.sent on, appends'.trans appends.symm, rfl⟩

theorem Twins.passiveOpen (twins : Twins c d) (net : MnNet) (src : Ip4) (seg : TcpSeg)
    (listens : c.t.state = .listen) :
    Level (c.exec net (.passiveOpen src seg)) (d.exec net (.passiveOpen src seg)) := by
  obtain ⟨_, _, index, place, _⟩ := twins.socket.outline
  have alike := startPassive_alike index place (twins.socket.port listens) net src seg c.now
  obtain ⟨sent, after⟩ := sendSyn_agree alike c.x d.x net { syn := true, ack := true }
  have none : ∀ t : MnTcp, ∀ x,
      (sendSyn (startPassive t net src seg c.now) x net { syn := true, ack := true }).1.rcvCount =
        0 := by
    intro t x
    obtain ⟨mss, _, started⟩ := startPassive_socket t net src seg c.now
    obtain ⟨edge, stat, pending, same⟩ :=
      sendSyn_socket (startPassive t net src seg c.now) x net { syn := true, ack := true }
    rw [same, started]
    rfl
  have empty := none c.t c.x
  have empty' := none d.t d.x
  simp only [Conn.exec, Core.passiveOpen, twins.clock]
  generalize sendSyn (startPassive c.t net src seg c.now) c.x net { syn := true, ack := true } =
    out at sent after empty
  generalize sendSyn (startPassive d.t net src seg c.now) d.x net { syn := true, ack := true } =
    out' at sent after empty'
  exact ⟨sent.resembles, twins.clock, fun _ => rfl, (held_empty empty' _).trans
    (held_empty empty _).symm, after.symm⟩

theorem Twins.poll (twins : Twins c d) (net : MnNet) (tick : UInt16)
    (timed : Timed c.t d.t (.poll tick)) :
    Level (c.exec net (.poll tick)) (d.exec net (.poll tick)) := by
  have held_after : ∀ t : MnTcp, ∀ x, held (pollOne t x net tick).1 x = held t x := by
    intro t x
    have same := pollOne_kept t x net tick
    have place := rings_home (identity_rings (kept_identity same))
    simp only [kept, Kept.mk.injEq] at same
    exact held_same place (by simp [same]) fun _ _ _ => rfl
  by_cases on : awake c.t.state
  · obtain ⟨sent, after⟩ :=
      pollOne_agree twins.run.socketInv (twins.socket.on on) (twins.feeds on) net tick timed
    exact ⟨sent.resembles, rfl, fun _ => twins.sent on,
      (held_after d.t d.x).trans (twins.unread.trans (held_after c.t c.x).symm), after.symm⟩
  · have off : ¬ awake d.t.state := twins.socket.state ▸ on
    simp only [Conn.exec, pollOne_asleep on, pollOne_asleep off]
    exact { twins.idle net with clock := rfl }

theorem Twins.close (twins : Twins c d) (net : MnNet) : Level (c.exec net .close)
    (d.exec net .close) where
  socket := mnTcpClose_resembles twins.socket
  clock := twins.clock
  sent := fun on => by
    refine twins.sent ?_
    obtain ⟨_, same⟩ | ⟨_, same⟩ | ⟨_, _, same⟩ :=
      mnTcpClose_cases c.t <;> simp only [Conn.exec, same] at on
    · exact on
    · exact absurd rfl on.1
    · exact on
  unread := by
    have left : ∀ t x, held (mnTcpClose t) x = held t x := by
      intro t x
      obtain ⟨_, same⟩ | ⟨_, same⟩ | ⟨_, _, same⟩ := mnTcpClose_cases t <;> rw [same] <;> rfl
    exact (left d.t d.x).trans (twins.unread.trans (left c.t c.x).symm)
  net := rfl

theorem Twins.abort (twins : Twins c d) (net : MnNet) : Level (c.exec net .abort)
    (d.exec net .abort) where
  socket := (mnTcpAbort_resembles twins.socket c.x d.x net).1
  clock := twins.clock
  sent := fun on => by
    obtain ⟨edge, stat, same⟩ := (mnTcpAbort_spec c.t c.x net).1
    simp only [Conn.exec, same] at on
    exact absurd rfl on.1
  unread := by
    have left : ∀ t x, held (mnTcpAbort t x net).1 x = held t x := by
      intro t x
      obtain ⟨edge, stat, same⟩ := (mnTcpAbort_spec t x net).1
      rw [same]
      rfl
    exact (left d.t d.x).trans (twins.unread.trans (left c.t c.x).symm)
  net := (mnTcpAbort_resembles twins.socket c.x d.x net).2.symm

theorem Twins.others (twins : Twins c d) (net : MnNet) (x y : XMem) (apart : c.Enabled (.others x))
    (apart' : d.Enabled (.others y)) : Level (c.exec net (.others x)) (d.exec net (.others y)) where
  socket := twins.socket
  clock := twins.clock
  sent := twins.sent
  unread := by
    have left := held_same rfl rfl fun a low high => apart a low (by omega)
    have left' := held_same rfl rfl fun a low high => apart' a low (by omega)
    exact left'.trans (twins.unread.trans left.symm)
  net := rfl

/-- Every operation keeps them level. -/
theorem Twins.exec (twins : Twins c d) (net : MnNet) (paired : Paired op op') (enabled : c.Enabled op)
    (enabled' : d.Enabled op') (timed : Timed c.t d.t op) : Level (c.exec net op) (d.exec net op') := by
  obtain ⟨state, _, index, place, count⟩ := twins.socket.outline
  have taken : ∀ cap, recvCount d.t cap = recvCount c.t cap :=
    fun cap => by rw [recvCount, recvCount, count]
  cases paired with
  | others x y => exact twins.others net x y enabled enabled'
  | same =>
    cases op with
    | connect ip port tick =>
      by_cases closed : c.t.state = .closed
      · exact connect_level closed (state.trans closed) index place twins.clock net ip port tick
      · rw [exec_connect, exec_connect, if_neg closed, if_neg (state ▸ closed)]
        exact twins.idle net
    | listen port =>
      by_cases free : c.t.state = .closed ∧ port ≠ 0
      · exact listen_level free.1 (state.trans free.1) index place twins.clock net free.2
      · rw [exec_listen, exec_listen, if_neg free, if_neg (state ▸ free)]
        exact twins.idle net
    | send data len => exact twins.send net data len enabled
    | sendX ext src len => exact twins.sendX net ext src len
    | recv cap =>
      simp only [Conn.exec, mnTcpRecv, taken]
      exact twins.take net _ (recvCount_le c.t cap) _ _
    | recvX ext dst cap =>
      simp only [Conn.exec, mnTcpRecvX, taken]
      exact twins.take net _ (recvCount_le c.t cap) _ _
    | close => exact twins.close net
    | abort => exact twins.abort net
    | segment seg => exact twins.segment net seg enabled
    | passiveOpen src seg => exact twins.passiveOpen net src seg enabled.1
    | poll tick => exact twins.poll net tick timed
    | others x => exact twins.others net x x enabled enabled'

theorem Twins.answer (twins : Twins c d) (net : MnNet) (paired : Paired op op') :
    answer d net op' = answer c net op := by
  obtain ⟨state, _, _, _, count⟩ := twins.socket.outline
  have room := fun len => (twins.room len).1
  have taken : ∀ cap, recvCount d.t cap = recvCount c.t cap :=
    fun cap => by rw [recvCount, recvCount, count]
  have read : ∀ cap, ringRead d.x d.t.xseg d.t.rcvbuf MN_TCP_RCVBUF d.t.rcvHead (recvCount c.t cap) =
      ringRead c.x c.t.xseg c.t.rcvbuf MN_TCP_RCVBUF c.t.rcvHead (recvCount c.t cap) := by
    intro cap
    have within := recvCount_le c.t cap
    rw [recv_held twins.run.socketInv twins.run.placed _ within,
      recv_held twins.other.socketInv twins.other.placed _ (by rwa [count]), twins.unread]
  cases paired with
  | others => rfl
  | same =>
    cases op with
    | connect | listen => simp only [TcpReuse.answer, mnTcpConnect, mnTcpListen, state]; split <;> rfl
    | send data len =>
      simp only [TcpReuse.answer, mnTcpSend, room]
      split <;> rfl
    | sendX ext src len =>
      simp only [TcpReuse.answer, mnTcpSendX, room]
      split <;> rfl
    | recv cap => simp only [TcpReuse.answer, mnTcpRecv, taken, read]
    | recvX ext dst cap =>
      simp only [TcpReuse.answer, mnTcpRecvX, taken]
      split
      · rfl
      · rw [ringReadX_ringRead twins.other.socketInv.rcvHead,
          ringReadX_ringRead twins.run.socketInv.rcvHead, read]
    | close | abort | segment | passiveOpen | poll | others => rfl

private theorem dispatch_alike (same : Resembles t u) : dispatch u = dispatch t := by
  funext src seg
  have state := same.state
  by_cases on : awake t.state
  · exact (same.on on).reads (dispatch · src seg) fun _ => rfl
  unfold dispatch owns listensFor
  by_cases listens : t.state = .listen
  · simp [state, listens, same.port listens]
  · have closed : t.state = .closed := by
      by_contra open_
      exact on ⟨open_, listens⟩
    have deaf : (TcpState.closed == TcpState.listen) = false := rfl
    simp [state, closed, deaf]

/-- What is level shows no difference. -/
theorem seen_level (level : Level (c.exec net op) (d.exec net op'))
    (same : answer d net op' = answer c net op) :
    seen c net op = seen d net op' := by
  obtain ⟨state, flags, _, _, count⟩ := level.socket.outline
  simp only [seen, mnTcpAvailable, same, state, flags, count, dispatch_alike level.socket, level.net]

theorem Level.twins (level : Level (c.exec net op) (d.exec net op')) (run : Conn.Run c)
    (other : Conn.Run d)
    (enabled : c.Enabled op) (enabled' : d.Enabled op') : Twins (c.exec net op).1
    (d.exec net op').1 where
  run := run.next ⟨net, op, enabled, rfl⟩
  other := other.next ⟨net, op', enabled', rfl⟩
  socket := level.socket
  clock := level.clock
  sent := level.sent
  unread := level.unread

/-- A poll that ends one wait and not the other shows. -/
theorem Twins.timed (twins : Twins c d) (net : MnNet) (paired : Paired op op')
    (alike : seen c net op = seen d net op') :
    Timed c.t d.t op := by
  cases paired with
  | others => trivial
  | same =>
    cases op with
    | poll tick =>
      intro waits idle
      have same := twins.socket.on (by simp [awake, waits])
      have idle' : d.t.ackPending = false := (same.reads _ fun _ => rfl).trans idle
      have closes := poll_closes_iff waits net tick
      have closes' := poll_closes_iff (twins.socket.state.trans waits) net tick
      have state : (c.exec net (.poll tick)).1.t.state = (d.exec net (.poll tick)).1.t.state :=
        congrArg Seen.state alike
      simp only [state, idle, true_and] at closes
      simp only [idle', true_and] at closes'
      simp only [expired, decide_eq_decide]
      exact closes.symm.trans closes'
    | connect | listen | send | sendX | recv | recvX | close | abort | segment | passiveOpen | others =>
      trivial

theorem Twins.alike_iff (twins : Twins c d) (steps : List (MnNet × Op × Op))
    (possible : Possible c d steps) :
    SeenAlike c d steps ↔ TimedAlike c d steps := by
  induction steps generalizing c d with
  | nil => exact Iff.rfl
  | cons step rest ih =>
    obtain ⟨net, op, op'⟩ := step
    obtain ⟨paired, enabled, enabled', later⟩ := possible
    by_cases timed : Timed c.t d.t op
    · have level := twins.exec net paired enabled enabled' timed
      exact and_congr (iff_of_true (seen_level level (twins.answer net paired)) timed)
        (ih (level.twins twins.run twins.other enabled enabled') later)
    · exact iff_of_false (fun alike => timed (twins.timed net paired alike.1)) fun alike => timed alike.1

/-! ## The wait -/

/-- An ordinary way into TIME_WAIT leaves an acknowledgement owed. -/
def Owing (c : Conn) : Op → Prop
  | .segment seg => c.t.state = .closing → c.t.ackPending = true ∨ seg.dlen ≠ 0 ∨ seg.flags.fin = true
  | _ => True

def OwingAll : Conn → List (MnNet × Op × Op) → Prop
  | _, [] => True
  | c, (net, op, _) :: rest => Owing c op ∧ OwingAll (c.exec net op).1 rest

/-- Once that has gone out both waits are counted from the same tick. -/
def Clocks (t u : MnTcp) : Prop :=
  t.state = .timeWait → t.ackPending = false → u.timewaitAt = t.timewaitAt

theorem Clocks.timed (clocks : Clocks t u) (op : Op) : Timed t u op := by
  cases op with
  | poll tick =>
    intro waits idle
    rw [expired, expired, clocks waits idle]
  | connect | listen | send | sendX | recv | recvX | close | abort | segment | passiveOpen | others =>
    trivial

theorem Clocks.exec (clocks : Clocks c.t d.t) (twins : Twins c d) (paired : Paired op op')
    (enabled : c.Enabled op)
    (owing : Owing c op) (level : Level (c.exec net op) (d.exec net op')) :
    Clocks (c.exec net op).1.t (d.exec net op').1.t := by
  intro waits idle
  have waits' := level.socket.state.trans waits
  have idle' : (d.exec net op').1.t.ackPending = false :=
    ((level.socket.on (by simp [awake, waits])).reads _ fun _ => rfl).trans idle
  by_cases before : c.t.state = .timeWait
  · have before' := twins.socket.state.trans before
    have owes : d.t.ackPending = c.t.ackPending :=
      (twins.socket.on (by simp [awake, before])).reads _ fun _ => rfl
    rcases exec_stamp before net op waits with ⟨since, owed⟩ | ⟨pending, tick, rfl, since⟩
    · have settled : c.t.ackPending = false := by
        by_contra pending
        simp [owed (by simpa using pending)] at idle
      rcases exec_stamp before' net op' waits' with ⟨since', _⟩ | ⟨pending, _⟩
      · rw [since', since]
        exact clocks before settled
      · simp [owes, settled] at pending
    · cases paired
      rcases exec_stamp before' net (.poll tick) waits' with ⟨_, owed⟩ | ⟨_, tick', same, since'⟩
      · simp [owed (owes.trans pending)] at idle'
      · cases same
        rw [since', since]
  · -- It has only just begun.
    obtain ⟨seg, rfl⟩ := enters_by net op before waits
    have owed := (segmentInput_enters twins.run.socketInv enabled before c.x waits).2.mpr owing
    exact absurd (owed.symm.trans idle) (by decide)

theorem Twins.owing (twins : Twins c d) (clocks : Clocks c.t d.t) (steps : List (MnNet × Op × Op))
    (possible : Possible c d steps) (owing : OwingAll c steps) : TimedAlike c d steps := by
  induction steps generalizing c d with
  | nil => trivial
  | cons step rest ih =>
    obtain ⟨net, op, op'⟩ := step
    obtain ⟨paired, enabled, enabled', later⟩ := possible
    have level := twins.exec net paired enabled enabled' (clocks.timed op)
    exact ⟨clocks.timed op, ih (level.twins twins.run twins.other enabled enabled')
      (clocks.exec twins paired enabled owing.1 level) later owing.2⟩

/-! ## Reuse -/

private theorem opening_level (ended : c.t.state = .closed) (fresh : Fresh d)
    (index : d.t.index = c.t.index)
    (place : rings d.t = rings c.t) (clock : d.now = c.now) (net : MnNet) (opening : Opening op)
    (opened : Opened c.t op) : Level (c.exec net op) (d.exec net op) := by
  obtain ⟨closed, clear, empty⟩ := fresh.clear
  cases opening with
  | connect ip port tick => exact connect_level ended closed index place clock net ip port tick
  | listen port =>
    by_cases named : port = 0
    · obtain ⟨plain, drained⟩ := opened (congrArg _ named)
      rw [exec_listen, exec_listen, if_neg fun free => free.2 named, if_neg fun free => free.2 named]
      have shown : outward d.t = outward c.t := by
        simp [outward, ended, closed, plain, clear, index, place, drained, empty]
      exact ⟨.gone ended shown, clock, fun on => absurd ended on.1,
        (held_empty empty _).trans (held_empty drained _).symm, rfl⟩
    · exact listen_level ended closed index place clock net named

private theorem opening_iff (ended : c.t.state = .closed) (fresh : Fresh d)
    (index : d.t.index = c.t.index)
    (place : rings d.t = rings c.t) (clock : d.now = c.now) (net : MnNet) (opening : Opening op) :
    seen c net op = seen d net op ↔ Opened c.t op := by
  obtain ⟨closed, clear, empty⟩ := fresh.clear
  constructor
  · rintro same rfl
    have flags := congrArg Seen.flags same
    have available := congrArg Seen.available same
    simp only [seen, mnTcpAvailable, exec_listen, ne_eq, not_true_eq_false, and_false, if_false]
      at flags available
    exact ⟨flags.trans clear, available.trans empty⟩
  · intro opened
    refine seen_level (opening_level ended fresh index place clock net opening opened) ?_
    cases opening with
    | connect => simp only [answer, mnTcpConnect, ended, closed]; rfl
    | listen => simp only [answer, mnTcpListen, ended, closed]; split <;> rfl

private theorem opening_twins (reused : Conn.Run c) (ended : c.t.state = .closed) (fresh : Fresh d)
    (index : d.t.index = c.t.index) (place : rings d.t = rings c.t) (clock : d.now = c.now) (net : MnNet)
    (opening : Opening op) (opened : Opened c.t op) : Twins (c.exec net op).1 (d.exec net op).1 := by
  have enabled : ∀ e : Conn, e.Enabled op := by
    intro e
    cases opening <;> trivial
  exact (opening_level ended fresh index place clock net opening opened).twins reused fresh.run
    (enabled c) (enabled d)

/-- A socket used before and a fresh one, opened by the same call, show the
same through any steps exactly when no poll ends the TIME_WAIT of one of them
only. -/
theorem reuse_iff (reused : Conn.Run c) (ended : c.t.state = .closed) (fresh : Fresh d)
    (index : d.t.index = c.t.index) (place : rings d.t = rings c.t) (clock : d.now = c.now)
    (net : MnNet) (op : Op)
    (opening : Opening op) (steps : List (MnNet × Op × Op))
    (possible : Possible (c.exec net op).1 (d.exec net op).1 steps) :
    SeenAlike c d ((net, op, op) :: steps) ↔
      Opened c.t op ∧ TimedAlike (c.exec net op).1 (d.exec net op).1 steps := by
  have first := opening_iff ended fresh index place clock net opening
  by_cases opened : Opened c.t op
  · have twins := opening_twins reused ended fresh index place clock net opening opened
    exact and_congr first (twins.alike_iff steps possible)
  · exact iff_of_false (fun alike => opened (first.mp alike.1)) fun both => opened both.1

/-- A socket that has been through TIME_WAIT. -/
def usedBefore : Conn :=
  halfShut.execAll [(goodNet, .segment peerFin), (goodNet, .poll 65523), (goodNet, .abort)]

theorem usedBefore_run : Conn.Run usedBefore :=
  halfShut_run.execAll _ ⟨⟨by decide +kernel, by decide +kernel⟩, trivial, trivial, trivial⟩

/-- One that has not, at the same tick. -/
def unused : Conn := (freshConn.exec goodNet (.poll 65523)).1

private theorem unused_fresh : Fresh unused := ⟨freshConn_begun.1, rfl, rfl, rfl⟩

/-- Both connect to the neighbour once more. -/
def again : Op := .connect neighbour 80 65530

/-- What the neighbour sends them then. -/
def fromNeighbour (seq ack : UInt32) (flags : SegFlags) : Op :=
  .segment (fromPeer 53231 seq ack flags 1000 [] nothing_fits)

/-- A simultaneous close, over one tick after the last acknowledgement. -/
def crossing : List (MnNet × Op × Op) :=
  [fromNeighbour 1000 4294574082 { syn := true, ack := true }, .close, .poll 65531,
    fromNeighbour 1001 4294574082 { ack := true, fin := true }, .poll 65532,
    fromNeighbour 1002 4294574083 { ack := true }, .poll 65533].map fun op => (goodNet, op, op)

private theorem crossing_possible : Possible (usedBefore.exec goodNet again).1
    (unused.exec goodNet again).1 crossing :=
  ⟨.same _, ⟨by decide +kernel, by decide +kernel⟩, ⟨by decide +kernel, by decide +kernel⟩,
    .same _, trivial, trivial, .same _, trivial, trivial,
    .same _, ⟨by decide +kernel, by decide +kernel⟩, ⟨by decide +kernel, by decide +kernel⟩,
    .same _, trivial, trivial,
    .same _, ⟨by decide +kernel, by decide +kernel⟩, ⟨by decide +kernel, by decide +kernel⟩,
    .same _, trivial, trivial, trivial⟩

/-- Until the last poll they show the same. -/
theorem reuse_iff_crossing : SeenAlike usedBefore unused
    ((goodNet, again, again) :: crossing.take 6) := by
  have opened : Opened usedBefore.t again := fun refused => by cases refused
  refine (reuse_iff usedBefore_run (by decide +kernel) unused_fresh
    (by decide +kernel) (by decide +kernel)
    (by decide +kernel) goodNet again (.connect ..) _ (crossing_possible.take 6)).mpr ⟨opened, ?_⟩
  exact ⟨trivial, trivial, fun waits => absurd waits (by decide +kernel), trivial,
    fun waits => absurd waits (by decide +kernel), trivial, trivial⟩

/-- That ends the wait of one of them only. -/
theorem reuse_told_apart : ¬ ∀ (c d : Conn) (net : MnNet) (op : Op) (steps : List (MnNet × Op × Op)),
    Conn.Run c → c.t.state = .closed → Fresh d → d.t.index = c.t.index →
      rings d.t = rings c.t → d.now = c.now →
      Opening op → Possible (c.exec net op).1 (d.exec net op).1 steps →
        SeenAlike c d ((net, op, op) :: steps) := by
  intro always
  have alike := always usedBefore unused goodNet again crossing usedBefore_run
    (by decide +kernel) unused_fresh
    (by decide +kernel) (by decide +kernel) (by decide +kernel) (.connect ..) crossing_possible
  have state := congrArg Seen.state alike.2.2.2.2.2.2.2.1
  revert state
  decide +kernel

/-- While every way into TIME_WAIT is an ordinary one, a socket used before
shows what a fresh one does. -/
theorem reuse_alike (reused : Conn.Run c) (ended : c.t.state = .closed) (fresh : Fresh d)
    (index : d.t.index = c.t.index) (place : rings d.t = rings c.t) (clock : d.now = c.now) (net : MnNet)
    (opening : Opening op) (opened : Opened c.t op) (steps : List (MnNet × Op × Op))
    (possible : Possible (c.exec net op).1 (d.exec net op).1 steps)
    (owing : OwingAll (c.exec net op).1 steps) :
    SeenAlike c d ((net, op, op) :: steps) := by
  have twins := opening_twins reused ended fresh index place clock net opening opened
  have early : Clocks (c.exec net op).1.t (d.exec net op).1.t := by
    intro waits
    obtain ⟨seg, rfl⟩ := enters_by net op (by simp [ended]) waits
    cases opening
  exact ⟨(opening_iff ended fresh index place clock net opening).mpr opened,
    (twins.alike_iff steps possible).mpr (twins.owing early steps possible owing)⟩

/-- The neighbour's FIN acknowledges ours, the wait is over a hundred ticks after
the last acknowledgement, and the socket listens. -/
def ordinary : List (MnNet × Op × Op) :=
  [fromNeighbour 1000 4294574082 { syn := true, ack := true }, .close, .poll 65531,
    fromNeighbour 1001 4294574083 { ack := true, fin := true }, .poll 65532, .poll 95, .poll 96,
    .listen 80].map fun op => (goodNet, op, op)

private theorem ordinary_possible : Possible (usedBefore.exec goodNet again).1
    (unused.exec goodNet again).1 ordinary :=
  ⟨.same _, ⟨by decide +kernel, by decide +kernel⟩, ⟨by decide +kernel, by decide +kernel⟩,
    .same _, trivial, trivial, .same _, trivial, trivial,
    .same _, ⟨by decide +kernel, by decide +kernel⟩, ⟨by decide +kernel, by decide +kernel⟩,
    .same _, trivial, trivial, .same _, trivial, trivial, .same _, trivial, trivial, .same _,
      trivial, trivial, trivial⟩

theorem reuse_alike_ordinary : SeenAlike usedBefore unused ((goodNet, again, again) :: ordinary) ∧
    (((usedBefore.exec goodNet again).1.execAll
      (ordinary.map fun step => (step.1, step.2.1))).t.state = .listen) := by
  have opened : Opened usedBefore.t again := fun refused => by cases refused
  refine ⟨reuse_alike usedBefore_run (by decide +kernel) unused_fresh
    (by decide +kernel) (by decide +kernel)
    (by decide +kernel) goodNet (.connect ..) opened ordinary ordinary_possible ?_, by decide +kernel⟩
  exact ⟨fun crossed => absurd crossed (by decide +kernel), trivial, trivial,
    fun crossed => absurd crossed (by decide +kernel), trivial, trivial, trivial, trivial, trivial⟩

end MegaNet.TcpReuse
