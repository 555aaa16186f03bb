import Mathlib.Order.CompletePartialOrder
import MegaNet.TcpSendLimits
import MegaNet.TcpTurns

/-! Sockets of one set do not disturb each other: their rings lie apart, and a
call, a segment or a turn in a poll changes one socket and writes that socket's
rings, in copies whose 16-bit addresses do not wrap. -/
namespace MegaNet.TcpIsolation
open MegaNet.Core Words XmemRings CircularBuffer TcpEmission TcpSocketInvariant
  TcpOutcomes TcpPreservation
  TcpConnection TcpSendStream TcpSendLimits TcpSetRuns TcpTurns

variable {t u : MnTcp} {w : World} {x : XMem}

/-! ## Where the rings are -/

/-- The addresses of a socket's receive ring. -/
def rcvRing (t : MnTcp) : Set Nat := Set.Ico (xaddr t.xseg t.rcvbuf) (xaddr t.xseg t.rcvbuf + 4096)

/-- The addresses of its send ring. -/
def sndRing (t : MnTcp) : Set Nat := Set.Ico (xaddr t.xseg t.sndbuf) (xaddr t.xseg t.sndbuf + 3072)

theorem mem_rings (placed : Placed t) (a : Nat) :
    (a ∈ rcvRing t ↔ home t ≤ a ∧ a < home t + 4096) ∧
      (a ∈ sndRing t ↔ home t + 4096 ≤ a ∧ a < home t + 7168) := by
  obtain ⟨_, base⟩ := placed.sndbuf_home
  constructor
  · rfl
  · rw [sndRing, Set.mem_Ico, base]

/-- Outside both of its rings is outside the 7168 bytes of a socket. -/
theorem outside_rings (placed : Placed t) {a : Nat} :
    (a ∉ rcvRing t ∧ a ∉ sndRing t) ↔ (a < home t ∨ home t + 7168 ≤ a) := by
  rw [(mem_rings placed a).1, (mem_rings placed a).2]
  omega

/-- No ring of a set overlaps another. -/
def RingsApart (sock : List MnTcp) : Prop :=
  ∀ (i j : Nat) (t u : MnTcp), sock[i]? = some t → sock[j]? = some u → Disjoint (rcvRing t) (sndRing u) ∧
    (i ≠ j → Disjoint (rcvRing t) (rcvRing u) ∧ Disjoint (sndRing t) (sndRing u))

private theorem rings_apart {sock : List MnTcp} {base : Nat}
    (placed : ∀ (i : Nat) (t : MnTcp), sock[i]? = some t → Placed t)
    (spaced : ∀ (i : Nat) (t : MnTcp), sock[i]? = some t → home t = base + 7168 * i) :
      RingsApart sock := by
  intro i j t u left right
  have mine := mem_rings (placed i t left)
  have theirs := mem_rings (placed j u right)
  have here := spaced i t left
  have there := spaced j u right
  simp only [Set.disjoint_left, mine, theirs]
  refine ⟨?_, fun differ => ⟨?_, ?_⟩⟩ <;>
  · intro a in_ in_'
    omega

/-- Where `mn_tcp_init` puts the rings of its sockets. -/
structure LaidOut (base : UInt32) (sock : List MnTcp) : Prop where
  offsets : ∀ (i : Nat) (t : MnTcp), sock[i]? = some t →
    t.rcvbuf.toNat = base.toNat % 65536 + 7168 * i ∧ t.sndbuf.toNat = t.rcvbuf.toNat + 4096
  inside : ∀ t ∈ sock, rcvRing t ∪ sndRing t ⊆
    Set.Ico (base.toNat / 65536 * 65536) (base.toNat / 65536 * 65536 + 65536)
  apart : RingsApart sock

private theorem init_laidOut (socks : List MnTcp) (n : UInt8) (base : UInt32) :
    LaidOut base (mnTcpInit socks n base).sock := by
  have high : (base >>> 16).toUInt16.toNat = base.toNat / 65536 := by
    have := base.toNat_lt
    rw [UInt32.toNat_toUInt16, UInt32.toNat_shiftRight, Nat.shiftRight_eq_div_pow,
      show (2 : Nat) ^ (UInt32.toNat 16 % 32) = 65536 from rfl]
    omega
  refine ⟨fun i t found => ?_, fun t member a inside => ?_, ?_⟩
  · obtain ⟨_, placed, start, _⟩ := mnTcpInit_get? found
    refine ⟨?_, placed.sndbuf_home.1⟩
    have low := t.rcvbuf.toNat_lt
    have fits := placed.fits
    have segment := mnTcpInit_xseg found
    simp only [home, xaddr, segment] at start
    omega
  · obtain ⟨i, found⟩ := List.mem_iff_getElem?.mp member
    obtain ⟨_, placed, start, _⟩ := mnTcpInit_get? found
    have fits := placed.fits
    have segment := mnTcpInit_xseg found
    rw [Set.mem_union, (mem_rings placed a).1, (mem_rings placed a).2] at inside
    simp only [home, xaddr, segment, high] at inside
    rw [Set.mem_Ico]
    omega
  · exact rings_apart (fun i t found => (mnTcpInit_get? found).2.1) fun i t found =>
      (mnTcpInit_get? found).2.2.1

/-! ## One operation -/

/-- The pool after an operation on `t`: as it was, or with one straight copy
into a ring of its. -/
inductive Stored (t : MnTcp) (x : XMem) : XMem → Prop where
  | nothing : Stored t x x
  | received (data : List UInt8) (len : UInt16) (held : len.toNat ≤ data.length)
      (position : (t.rcvHead + t.rcvCount).toNat = t.rcvHead.toNat + t.rcvCount.toNat)
      (straight : Straight t.rcvbuf MN_TCP_RCVBUF ((t.rcvHead + t.rcvCount) % MN_TCP_RCVBUF) len) :
      Stored t x
        (ringWrite x t.xseg t.rcvbuf MN_TCP_RCVBUF ((t.rcvHead + t.rcvCount) % MN_TCP_RCVBUF) data len)
  | queued (data : List UInt8) (len : UInt16) (held : len.toNat ≤ data.length)
      (position : (t.sndHead + t.sndLen).toNat = t.sndHead.toNat + t.sndLen.toNat)
      (straight : Straight t.sndbuf MN_TCP_SNDBUF ((t.sndHead + t.sndLen) % MN_TCP_SNDBUF) len) :
      Stored t x
        (ringWrite x t.xseg t.sndbuf MN_TCP_SNDBUF ((t.sndHead + t.sndLen) % MN_TCP_SNDBUF) data len)

theorem Stored.outside {after : XMem} (stored : Stored t x after) {a : Nat} (rcv : a ∉ rcvRing t)
    (snd : a ∉ sndRing t) : after a = x a := by
  simp only [rcvRing, sndRing, Set.mem_Ico, not_and_or, not_le, not_lt] at rcv snd
  cases stored with
  | nothing => rfl
  | received _ _ held _ straight => exact straight.outside held rcv
  | queued _ _ held _ straight => exact straight.outside held snd

/-- What a segment carries was copied straight from the send ring of `t`. -/
def FromRing (t : MnTcp) (x : XMem) (seg : TcpSeg) : Prop :=
  seg.data = [] ∨ ∃ off len,
    seg.data = ringRead x t.xseg t.sndbuf MN_TCP_SNDBUF ((t.sndHead + off) % MN_TCP_SNDBUF) len ∧
      (t.sndHead + off).toNat = t.sndHead.toNat + off.toNat ∧
      Straight t.sndbuf MN_TCP_SNDBUF ((t.sndHead + off) % MN_TCP_SNDBUF) len

/-- A ring position after a sum is inside the ring. -/
theorem turn_inside {head ahead size : UInt16} (some_ : 0 < size.toNat) :
    ((head + ahead) % size).toNat < size.toNat := by
  rw [UInt16.toNat_mod]
  exact Nat.mod_lt _ some_

theorem sndRing_straight (sock : SocketInv t now) (placed : Placed t) {off len : UInt16}
    (near : off.toNat ≤ 3072)
    (short : len.toNat ≤ 3072) :
    (t.sndHead + off).toNat = t.sndHead.toNat + off.toNat ∧
      Straight t.sndbuf MN_TCP_SNDBUF ((t.sndHead + off) % MN_TCP_SNDBUF) len := by
  have head := sock.sndHead
  have fits := placed.fits
  have after := placed.sndbuf_home.1
  refine ⟨toNat_more (by omega), straight_of ?_ (turn_inside (by decide)) ?_⟩ <;> rw
    [sndbuf_toNat] <;> omega

theorem rcvRing_straight (sock : SocketInv t now) (placed : Placed t) {len : UInt16}
    (short : len.toNat ≤ 4096) :
    (t.rcvHead + t.rcvCount).toNat = t.rcvHead.toNat + t.rcvCount.toNat ∧
      Straight t.rcvbuf MN_TCP_RCVBUF ((t.rcvHead + t.rcvCount) % MN_TCP_RCVBUF) len ∧
      Straight t.rcvbuf MN_TCP_RCVBUF t.rcvHead len := by
  have head := sock.rcvHead
  have count := sock.rcvCount
  have fits := placed.fits
  refine ⟨toNat_more (by omega), straight_of ?_ (turn_inside (by decide)) ?_, straight_of ?_ ?_ ?_⟩ <;>
    rw [rcvbuf_toNat] <;> omega

/-- Where the receive ring is and what it holds. -/
def receiveSide (t : MnTcp) : UInt16 × UInt16 × UInt16 × UInt16 :=
  (t.xseg, t.rcvbuf, t.rcvHead, t.rcvCount)

private theorem handleAck_receiveSide (t : MnTcp) (ack : UInt32) (now : UInt16) :
    receiveSide (handleAck t ack now) = receiveSide t := by
  obtain same | ⟨acked, same⟩ := handleAck_socket t ack now <;> rw [same]
  rfl

private theorem takeData_stored (sock : SocketInv t now) (placed : Placed t)
    (same : receiveSide u = receiveSide t)
    (x : XMem) (seg : TcpSeg) : Stored t x (takeData u x seg).2.1 := by
  simp only [receiveSide, Prod.mk.injEq] at same
  obtain ⟨segment, ring, head, count⟩ := same
  unfold takeData
  split
  · exact .nothing
  split
  · have most := toNat_clamp seg.dlen (rcvFree t)
    rw [rcvFree_toNat sock, dlen_toNat] at most
    unfold ringPut
    dsimp only
    rw [show rcvFree u = rcvFree t by rw [rcvFree, rcvFree, count], segment, ring, head, count]
    generalize (if seg.dlen > rcvFree t then rcvFree t else seg.dlen) = n at most
    split
    · exact .nothing
    · have short : n.toNat ≤ 4096 := by omega
      obtain ⟨position, straight, _⟩ := rcvRing_straight sock placed short
      exact .received seg.data n (by omega) position straight
  · exact .nothing

private theorem synchronizedInput_stored (sock : SocketInv t now) (placed : Placed t)
    (same : receiveSide u = receiveSide t) (x : XMem) (seg : TcpSeg) :
    Stored t x (synchronizedInput u x seg now).2 := by
  unfold synchronizedInput
  split
  · exact .nothing
  split
  · exact .nothing
  · exact takeData_stored (u := { handleAck u seg.ack now with sndWnd := seg.wnd }) sock placed
      ((handleAck_receiveSide u seg.ack now).trans same) x seg

private theorem segmentInput_stored (sock : SocketInv t now) (placed : Placed t)
    (x : XMem) (seg : TcpSeg) :
    Stored t x (segmentInput t x seg now).2 := by
  have arrival := segmentInput_arrival t x seg now
  generalize segmentInput t x seg now = out at arrival
  cases arrival with
  | accepts => exact synchronizedInput_stored sock placed (by rfl) x seg
  | proceeds => exact synchronizedInput_stored sock placed (by rfl) x seg
  | _ => exact .nothing

/-- A segment without payload copies nothing. -/
private theorem bare_fromRing (t u : MnTcp) (x : XMem) (flags : SegFlags) (seq : UInt32) (mss : Bool) :
    FromRing t x (buildSegment u x flags seq 0 0 mss) :=
  Or.inl (buildSegment_empty u x)

/-- A segment with payload copies it from the send ring as it is, in whatever
state the rest of the socket is. -/
private theorem payload_fromRing (sock : SocketInv t now) (placed : Placed t)
    (same : kept u = kept t) (x : XMem)
    (flags : SegFlags) (seq : UInt32) {off len : UInt16} (mss : Bool) (near : off.toNat ≤ 3072)
    (short : len.toNat ≤ 3072) : FromRing t x (buildSegment u x flags seq off len mss) := by
  obtain ⟨position, straight⟩ := sndRing_straight sock placed near short
  refine Or.inr ⟨off, len, ?_, position, straight⟩
  have here := identity_rings (kept_identity same)
  simp only [rings, Prod.mk.injEq] at here
  simp only [buildSegment, here.1, here.2.2, show u.sndHead = t.sndHead from congrArg Kept.sndHead same]

private theorem sendQueued_fromRing (inv : SocketInv t now) (placed : Placed t)
    (x : XMem) (net : MnNet) :
    Sends net (sendQueued t x net now).2 (FromRing t x) := by
  have looped := sendLoop_rule
    (motive := fun u after => kept u = kept t ∧ Sends net after (FromRing t x))
    x now (sendLimit t) (by
      rintro u after ⟨same, sends⟩ more open_
      have size := nextLength_spec more open_
      have queue := inv.sndLen
      rw [← show u.sndLen = t.sndLen from congrArg Kept.sndLen same] at queue
      rw [UInt16.lt_iff_toNat_lt] at more
      have near : u.inflight.toNat ≤ 3072 := by omega
      have short : (nextLength u (sendLimit t)).toNat ≤ 3072 := by omega
      have goes : Sends after _ (FromRing t x) :=
        emit_sends after (payload_fromRing inv placed same x dataFlags u.sndNxt false near short)
      obtain ⟨edge, stat, emitted⟩ :=
        emit_socket u x after dataFlags u.sndNxt u.inflight (nextLength u (sendLimit t)) false
      refine ⟨?_, sends.trans goes⟩
      rw [emitted]
      split <;> exact same)
    t.sndLen.toNat t net ⟨rfl, Sends.nothing net _⟩
  exact looped.2

private theorem pollOne_fromRing (inv : SocketInv t now) (placed : Placed t) (x : XMem)
    (net : MnNet) (tick : UInt16) :
    Sends net (pollOne t x net tick).2 (FromRing t x) := by
  apply pollOne_each
  · intro u _ _
    rw [resendSyn, sendSyn_net]
    exact emit_sends net (bare_fromRing t _ x _ _ _)
  · exact fun _ u flags seq _ _ => emit_sends net (bare_fromRing t u x flags seq false)
  · intro _ _
    have most := toNat_clamp t.inflight t.peerMss
    have flight := inv.inflight
    have queue := inv.sndLen
    exact emit_sends net (payload_fromRing (u := resent t tick) inv placed rfl x dataFlags t.sndUna false
      (by decide) (show (oldest t).toNat ≤ 3072 by rw [oldest]; omega))
  · exact fun _ quiet _ => sendQueued_fromRing (not_due inv fun _ => quiet) placed x net

/-- An operation moves no ring, writes a ring of its own socket or nothing, and
every segment it sends was copied from there. -/
theorem exec_within {c : Conn} (sock : SocketInv c.t c.now) (placed : Placed c.t) (net : MnNet) (op : Op)
    (enabled : c.Enabled op) (own : ∀ x, op ≠ .others x) :
    rings (c.exec net op).1.t = rings c.t ∧
      Stored c.t c.x (c.exec net op).1.x ∧ Sends net (c.exec net op).2 (FromRing c.t c.x) := by
  refine ⟨exec_rings c net op, ?_⟩
  have effect := exec_effect c net op
  generalize c.exec net op = out at effect
  cases effect with
  | connects | answers =>
    refine ⟨.nothing, ?_⟩
    dsimp only
    rw [sendSyn_net]
    exact emit_sends net (bare_fromRing c.t _ c.x _ _ _)
  | queues _ data n len room _ held =>
    have fits := sendRoom_le sock len
    have queue := sock.sndLen
    rw [← room] at fits
    have short : n.toNat ≤ 3072 := by omega
    obtain ⟨position, straight⟩ := sndRing_straight sock placed queue short
    exact ⟨.queued data n (held enabled) position straight, Sends.nothing net _⟩
  | aborts _ _ _ sends =>
    refine ⟨.nothing, sends.mono fun seg same => ?_⟩
    rw [same]
    exact bare_fromRing c.t c.t c.x _ _ _
  | arrives seg => exact ⟨segmentInput_stored sock placed c.x seg, Sends.nothing net _⟩
  | polls tick => exact ⟨.nothing, pollOne_fromRing sock placed c.x net tick⟩
  | others x => exact absurd rfl (own x)
  | idles | listens | takes | asks | drops => exact ⟨.nothing, Sends.nothing net _⟩

/-! ## One socket of a set -/

/-- A step on socket `i`: the others stay as they are, its rings where they are,
the pool changes only in them, in one straight copy at most, and what goes out
is copied straight from there. -/
structure Isolated (i : Nat) (before after : World × MnNet) : Prop where
  others : ∀ j, j ≠ i → after.1.set.sock[j]? = before.1.set.sock[j]?
  counters : after.1.set.rstSent = before.1.set.rstSent ∧ after.1.set.now = before.1.set.now
  absent : before.1.set.sock[i]? = none → after = before
  stays : ∀ t, before.1.set.sock[i]? = some t → ∃ t', after.1.set.sock[i]? = some t' ∧ rings t' = rings t
  stored : ∀ t, before.1.set.sock[i]? = some t → Stored t before.1.x after.1.x
  outside : ∀ t, before.1.set.sock[i]? = some t → ∀ a, a ∉ rcvRing t → a ∉ sndRing t →
    after.1.x a = before.1.x a
  sent : ∀ t, before.1.set.sock[i]? = some t → Sends before.2 after.2 (FromRing t before.1.x)

/-- What `f` does to a socket and its rings, done to socket `i`, is isolated. -/
theorem onSocket_isolated (w : World) (i : Nat) (net : MnNet) (f : MnTcp → MnTcp × XMem × MnNet)
    (within : ∀ t, w.set.sock[i]? = some t → rings (f t).1 = rings t ∧
      Stored t w.x (f t).2.1 ∧ Sends net (f t).2.2 (FromRing t w.x)) :
    Isolated i (w, net) (w.onSocket i net f) := by
  unfold World.onSocket
  cases found : w.set.sock[i]? with
  | none =>
    refine ⟨fun _ _ => rfl, ⟨rfl, rfl⟩, fun _ => rfl, ?_, ?_, ?_, ?_⟩ <;>
    · intro t here
      rw [found] at here
      cases here
  | some t =>
    obtain ⟨still, stored, sends⟩ := within t found
    have inside := (List.getElem?_eq_some_iff.mp found).1
    have alone : ∀ u, w.set.sock[i]? = some u → u = t := fun u here => by
      rw [found] at here
      exact (Option.some.inj here).symm
    refine ⟨fun j other => List.getElem?_set_ne other.symm, ⟨rfl, rfl⟩,
      fun missing => ?_, ?_, ?_, ?_, ?_⟩
    · rw [found] at missing
      cases missing
    · intro u here
      rw [alone u here]
      exact ⟨_, List.getElem?_set_self inside, still⟩
    · intro u here
      rw [alone u here]
      exact stored
    · intro u here a rcv snd
      rw [alone u here] at rcv snd
      exact stored.outside rcv snd
    · intro u here
      rw [alone u here]
      exact sends

/-- The socket an application's call is about, and what it asks of it. -/
def Event.call : Event → Option (Nat × Op)
  | .connect i ip port now => some (i, .connect ip port now)
  | .listen i port => some (i, .listen port)
  | .send i data len _ => some (i, .send data len)
  | .sendX i ext src len => some (i, .sendX ext src len)
  | .recv i cap => some (i, .recv cap)
  | .recvX i ext dst cap => some (i, .recvX ext dst cap)
  | .close i => some (i, .close)
  | .abort i => some (i, .abort)
  | .input .. | .poll .. => none

/-- Socket `t` of `w` by itself. -/
def lone (w : World) (t : MnTcp) : Conn := ⟨t, w.x, w.set.now, [], [], false⟩

/-- A call on a socket by number is the operation on that socket by itself. -/
theorem exec_call {event : Event} (call : Event.call event = some (i, op)) (w : World) (net : MnNet) :
    w.exec net event = w.onSocket i net (fun t =>
        (((lone w t).exec net op).1.t, ((lone w t).exec net op).1.x, ((lone w t).exec net op).2)) ∧
      (∀ t, (lone w t).Enabled op) ∧ ∀ x, op ≠ .others x := by
  cases event <;> simp only [Event.call, Option.some.injEq, Prod.mk.injEq, reduceCtorEq] at call <;>
    obtain ⟨rfl, rfl⟩ := call
  case connect i ip port now =>
    refine ⟨?_, fun _ => trivial, by simp⟩
    refine congrArg (w.onSocket i net) (funext fun t => ?_)
    by_cases free : t.state = .closed <;> simp [Conn.exec, mnTcpConnect, lone, free, Conn.fresh]
  case listen i port =>
    refine ⟨?_, fun _ => trivial, by simp⟩
    refine congrArg (w.onSocket i net) (funext fun t => ?_)
    by_cases free : t.state = .closed <;> by_cases named : port = 0 <;>
      simp [Conn.exec, mnTcpListen, lone, free, named, Conn.fresh]
  case send i data len fits => exact ⟨rfl, fun _ => fits, by simp⟩
  case sendX => exact ⟨rfl, fun _ => trivial, by simp⟩
  case recv => exact ⟨rfl, fun _ => trivial, by simp⟩
  case recvX => exact ⟨rfl, fun _ => trivial, by simp⟩
  case close => exact ⟨rfl, fun _ => trivial, by simp⟩
  case abort => exact ⟨rfl, fun _ => trivial, by simp⟩

/-- The invariants of every socket of a set that has lived. -/
theorem Lived.sound (lived : Lived w) {i : Nat} (found : w.set.sock[i]? = some t) :
    SocketInv t w.set.now ∧ Placed t := by
  obtain ⟨c, sees⟩ := lived.seen i t found
  rw [← sees.t, ← sees.now]
  exact ⟨sees.run.socketInv, sees.run.placed⟩

private theorem call_isolated (lived : Lived w) (net : MnNet) {event : Event}
    (call : Event.call event = some (i, op)) :
    Isolated i (w, net) (w.exec net event) := by
  obtain ⟨same, enabled, own⟩ := exec_call call w net
  rw [same]
  apply onSocket_isolated
  intro t found
  obtain ⟨sock, placed⟩ := Lived.sound lived found
  exact exec_within (c := lone w t) sock placed net op (enabled t) own

/-! ## Received segments -/

/-- One RST for `seg` was attempted: it was handed to the link, or its next hop
is unknown and was asked for. -/
def ResetAttempted (net : MnNet) (src : Ip4) (seg : TcpSeg) (after : MnNet) : Prop :=
  ∃ frame queued, Handed net after [(frame, queued)] ∧
    ((net.Resolves src ∧ ∃ mac, frame = .tcp mac net.nif.mac net.ip src net.ipId (resetFor seg)) ∨
      (¬ net.Resolves src ∧ frame = .arpRequest net.nif.mac net.ip (mnNetNextHop net src)))

theorem sendRst_attempted (net : MnNet) (src : Ip4) (seg : TcpSeg) :
    ResetAttempted net src seg (sendRst net src seg) := by
  unfold sendRst
  dsimp only
  obtain ⟨known, mac, begun⟩ | ⟨unknown, begun⟩ := tx_begin_spec net src
  · rw [begun]
    exact ⟨_, _, (send_spec { net with ipId := net.ipId + 1 } _).1, Or.inl ⟨known, mac, rfl⟩⟩
  · rw [begun]
    exact ⟨_, _, (send_spec net _).1, Or.inr ⟨unknown, rfl⟩⟩

/-- No socket before number `i` passes the test. -/
def NoneBefore (sock : List MnTcp) (i : Nat) (p : MnTcp → Bool) : Prop :=
  ∀ (j : Nat) (u : MnTcp), j < i → sock[j]? = some u → p u = false

/-- No socket at all passes it. -/
def NoneOf (sock : List MnTcp) (p : MnTcp → Bool) : Prop := ∀ u ∈ sock, p u = false

/-- Whom a received segment reaches. -/
inductive Dispatched (w : World) (net : MnNet) (src : Ip4) (seg : TcpSeg)
    (after : World × MnNet) : Prop where
  /-- The first socket that owns its four-tuple. -/
  | owner (i : Nat) (t : MnTcp) (found : w.set.sock[i]? = some t) (owned : owns src seg t = true)
      (first : NoneBefore w.set.sock i (owns src seg)) (isolated : Isolated i (w, net) after)
  /-- For a pure SYN nobody owns, the first listener on its port. -/
  | listener (i : Nat) (t : MnTcp) (found : w.set.sock[i]? = some t)
      (unowned : NoneOf w.set.sock (owns src seg))
      (syn : isPureSyn seg = true) (listens : listensFor seg t = true)
      (first : NoneBefore w.set.sock i (listensFor seg)) (isolated : Isolated i (w, net) after)
  /-- Nobody: a RST is attempted, unless the segment was one. -/
  | nobody (unowned : NoneOf w.set.sock (owns src seg))
      (unheard : isPureSyn seg = true → NoneOf w.set.sock (listensFor seg))
      (sock : after.1.set.sock = w.set.sock) (pool : after.1.x = w.x)
      (answer : if seg.flags.rst then after = (w, net)
        else after.1.set.rstSent = w.set.rstSent + 1 ∧ ResetAttempted net src seg after.2)

theorem none_of {sock : List MnTcp} {p : MnTcp → Bool}
    (all : ∀ (i : Nat) (t : MnTcp), sock[i]? = some t → p t = false) : NoneOf sock p := by
  intro u member
  obtain ⟨i, found⟩ := List.mem_iff_getElem?.mp member
  exact all i u found

private theorem input_dispatched (lived : Lived w) (net : MnNet) (src : Ip4) (seg : TcpSeg) :
    Dispatched w net src seg (w.exec net (.input src seg)) := by
  -- A tier that finds socket `i` acts on it as a call by number would.
  have acts : ∀ (i : Nat) (t : MnTcp) (op : Op), w.set.sock[i]? = some t → (lone w t).Enabled op →
      (∀ x, op ≠ .others x) → Isolated i (w, net) (w.onSocket i net fun _ =>
        (((lone w t).exec net op).1.t, ((lone w t).exec net op).1.x, ((lone w t).exec net op).2)) := by
    intro i t op found enabled own
    apply onSocket_isolated
    intro u here
    rw [found] at here
    obtain rfl := Option.some.inj here
    obtain ⟨sock, placed⟩ := Lived.sound lived found
    exact exec_within (c := lone w t) sock placed net op enabled own
  simp only [World.exec, mnTcpInput]
  obtain ⟨unowned, all⟩ | ⟨i, t, found, owned, first, same⟩ :=
    onFirst_spec (owns src seg) (fun t => segmentInput t w.x seg w.set.now) w.set.sock
  · rw [unowned]
    by_cases syn : isPureSyn seg = true
    · obtain ⟨unheard, deaf⟩ | ⟨i, t, found, listens, first, same⟩ := onFirst_spec (listensFor seg)
        (fun t => passiveOpen t w.x net src seg w.set.now) w.set.sock
      · simp only [syn, if_true, unheard]
        refine .nobody (none_of all) (fun _ => none_of deaf) ?_ ?_ ?_ <;>
          by_cases rst : seg.flags.rst = true <;> simp [rst, sendRst_attempted]
      · simp only [syn, if_true, same]
        have listening : t.state = .listen := by
          simp only [listensFor, Bool.and_eq_true, beq_iff_eq] at listens
          exact listens.1
        refine .listener i t found (none_of all) syn listens first ?_
        have isolated := acts i t (.passiveOpen src seg) found ⟨listening, syn⟩ (by simp)
        rw [World.onSocket, found] at isolated
        exact isolated
    · simp only [syn, if_false, Bool.false_eq_true]
      refine .nobody (none_of all) (fun yes => absurd yes syn) ?_ ?_ ?_ <;>
        by_cases rst : seg.flags.rst = true <;> simp [rst, sendRst_attempted]
  · rw [same]
    refine .owner i t found owned first ?_
    have isolated := acts i t (.segment seg) found (owns_awake owned) (by simp)
    rw [World.onSocket, found] at isolated
    exact isolated

/-! ## Turns in a poll -/

/-- `mn_tcp_poll` over its first `i` sockets. -/
def turns (w : World) (net : MnNet) (now : UInt16) : Nat → World × MnNet
  | 0 => (w, net)
  | i + 1 =>
    let (w, net) := turns w net now i
    w.onSocket i net fun t => let (t, net) := pollOne t w.x net now; (t, w.x, net)

theorem pollAll_length (x : XMem) (now : UInt16) (sock : List MnTcp) (net : MnNet) :
    (pollAll x now sock net).1.length = sock.length := by
  induction sock generalizing net with
  | nil => rfl
  | cons t rest ih => simp [pollAll, ih]

private theorem pollAll_append_sock (x : XMem) (now : UInt16) (front back : List MnTcp) (net : MnNet) :
    (pollAll x now (front ++ back) net).1 =
      (pollAll x now front net).1 ++ (pollAll x now back (pollAll x now front net).2).1 := by
  induction front generalizing net with
  | nil => rfl
  | cons t rest ih => simp [pollAll, ih]

/-- At its turn socket `i` is what it was before the poll. -/
theorem turn_finds (w : World) (net : MnNet) (now : UInt16) (i : Nat) :
    ((pollAll w.x now (w.set.sock.take i) net).1 ++ w.set.sock.drop i)[i]? = w.set.sock[i]? := by
  by_cases inside : i < w.set.sock.length
  · have polled : (pollAll w.x now (w.set.sock.take i) net).1.length = i := by
      rw [pollAll_length, List.length_take]
      omega
    rw [List.getElem?_append_right (by omega), polled, Nat.sub_self, List.getElem?_drop]
    rfl
  · have short : ((pollAll w.x now (w.set.sock.take i) net).1 ++ w.set.sock.drop i).length =
      w.set.sock.length := by
      rw [List.length_append, pollAll_length, ← List.length_append, List.take_append_drop]
    rw [List.getElem?_eq_none (by omega), List.getElem?_eq_none (by omega)]

/-- After `i` turns the first `i` sockets are polled and the others as before. -/
theorem turns_eq (w : World) (net : MnNet) (now : UInt16) (i : Nat) :
    turns w net now i =
      (⟨{ w.set with sock := (pollAll w.x now (w.set.sock.take i) net).1 ++ w.set.sock.drop i }, w.x⟩,
        turnNet w net i now) := by
  induction i with
  | zero => rfl
  | succ i ih =>
    rw [turns, ih]
    dsimp only
    unfold World.onSocket turnNet
    dsimp only
    rw [turn_finds]
    by_cases inside : i < w.set.sock.length
    · have polled : (pollAll w.x now (w.set.sock.take i) net).1.length = i := by
        rw [pollAll_length, List.length_take]
        omega
      have front : w.set.sock.take (i + 1) = w.set.sock.take i ++ [w.set.sock[i]] :=
        List.take_succ_eq_append_getElem inside
      rw [List.getElem?_eq_getElem inside, front, pollAll_append_sock, pollAll_append]
      dsimp only
      rw [List.set_append_right _ _ (by omega), polled, Nat.sub_self, List.drop_eq_getElem_cons inside]
      simp only [pollAll, List.set_cons_zero, List.append_assoc, List.cons_append, List.nil_append]
    · have whole : w.set.sock.take (i + 1) = w.set.sock.take i := by
        rw [List.take_of_length_le (by omega), List.take_of_length_le (by omega)]
      rw [List.getElem?_eq_none (by omega), whole, List.drop_of_length_le
        (show w.set.sock.length ≤ i by omega),
        List.drop_of_length_le (show w.set.sock.length ≤ i + 1 by omega)]

/-- The turns of all sockets are the poll, which then notes the time. -/
theorem poll_turns (w : World) (net : MnNet) (now : UInt16) :
    w.exec net (.poll now) =
      (⟨{ (turns w net now w.set.sock.length).1.set with now }, (turns w net now w.set.sock.length).1.x⟩,
        (turns w net now w.set.sock.length).2) := by
  rw [turns_eq, turnNet, List.take_length, List.drop_length, List.append_nil]
  rfl

private theorem turn_isolated (lived : Lived w) (net : MnNet) (now : UInt16) (i : Nat) :
    Isolated i (turns w net now i) (turns w net now (i + 1)) := by
  rw [turns, turns_eq]
  apply onSocket_isolated
  intro t found
  obtain ⟨sock, placed⟩ := Lived.sound lived ((turn_finds w net now i).symm.trans found)
  exact ⟨identity_rings (kept_identity (pollOne_kept t w.x _ now)), .nothing,
    pollOne_fromRing sock placed w.x _ now⟩

/-! ## What all sockets together reach -/

/-- Whatever happens to a set, its rings stay where they are, and the pool
outside them as it is. -/
theorem exec_confined (lived : Lived w) (net : MnNet) (event : Event) :
    (∀ (i : Nat) (t' : MnTcp), (w.exec net event).1.set.sock[i]? = some t' →
      ∃ t, w.set.sock[i]? = some t ∧ rings t' = rings t) ∧
    ∀ a, (∀ t ∈ w.set.sock, a ∉ rcvRing t ∧ a ∉ sndRing t) → (w.exec net event).1.x a = w.x a := by
  -- An isolated step is confined: its socket's rings stay, the others' sockets.
  have confined : ∀ {i : Nat} {after : World × MnNet}, Isolated i (w, net) after →
      (∀ (j : Nat) (t' : MnTcp), after.1.set.sock[j]? = some t' →
        ∃ t, w.set.sock[j]? = some t ∧ rings t' = rings t) ∧
      ∀ a, (∀ t ∈ w.set.sock, a ∉ rcvRing t ∧ a ∉ sndRing t) → after.1.x a = w.x a := by
    intro i after isolated
    cases found : w.set.sock[i]? with
    | none =>
      rw [isolated.absent found]
      exact ⟨fun j t' there => ⟨t', there, rfl⟩, fun a _ => rfl⟩
    | some t =>
      refine ⟨fun j t' there => ?_, fun a away => ?_⟩
      · by_cases same : j = i
        · obtain ⟨u, here, still⟩ := isolated.stays t found
          rw [same, here] at there
          rw [same, ← Option.some.inj there]
          exact ⟨t, found, still⟩
        · exact ⟨t', (isolated.others j same).symm.trans there, rfl⟩
      · obtain ⟨rcv, snd⟩ := away t (List.mem_of_getElem? found)
        exact isolated.outside t found a rcv snd
  cases call : Event.call event with
  | some named =>
    obtain ⟨i, op⟩ := named
    exact confined (call_isolated lived net call)
  | none =>
    cases event with
    | input src seg =>
      cases input_dispatched lived net src seg with
      | owner i t found owned first isolated => exact confined isolated
      | listener i t found unowned syn listens first isolated => exact confined isolated
      | nobody unowned unheard sock pool answer =>
        rw [sock, pool]
        exact ⟨fun j t' there => ⟨t', there, rfl⟩, fun a _ => rfl⟩
    | poll now =>
      refine ⟨fun i t' there => ?_, fun a _ => rfl⟩
      simp only [World.exec, mnTcpPoll, pollAll_get?, Option.map_eq_some_iff] at there
      obtain ⟨t, found, rfl⟩ := there
      exact ⟨t, found, identity_rings (kept_identity (pollOne_kept t w.x _ now))⟩
    | connect | listen | send | sendX | recv | recvX | close | abort => cases call

/-- What is written elsewhere in the pool is nothing to a set. -/
theorem Lived.elsewhere (lived : Lived w) {x : XMem}
    (away : ∀ t ∈ w.set.sock, ∀ a, home t ≤ a → a < home t + 7168 → x a = w.x a) : Lived ⟨w.set, x⟩ := by
  refine ⟨lived.spaced, fun i t found => ?_⟩
  obtain ⟨c, sees⟩ := lived.seen i t found
  have apart : c.Enabled (.others x) := by
    intro a low high
    rw [sees.t] at low high
    rw [away t (List.mem_of_getElem? found) a low high, sees.x]
  exact ⟨_, sees.run.next ⟨goodNet, _, apart, rfl⟩, sees.t, rfl, sees.now⟩

/-! ## Isolation -/

/-- A receive call of a reachable socket reads its ring straight. -/
theorem recv_straight (lived : Lived w) {i : Nat} (found : w.set.sock[i]? = some t) (cap : UInt16) :
    Straight t.rcvbuf MN_TCP_RCVBUF t.rcvHead (recvCount t cap) := by
  obtain ⟨sock, placed⟩ := Lived.sound lived found
  have least := recvCount_le t cap
  have count := sock.rcvCount
  exact (rcvRing_straight sock placed (by omega)).2.2

private theorem lived_apart (lived : Lived w) : RingsApart w.set.sock := by
  obtain ⟨base, spaced⟩ := lived.spaced
  exact rings_apart (fun i t found => (Lived.sound lived found).2) spaced

/-- Sockets are isolated. `mn_tcp_init` lays the rings of the sockets it sets up
apart and inside the base's segment, where they stay; a call touches the socket
it names, a turn in a poll the socket whose turn it is, a segment the socket it
is dispatched to. -/
theorem sockets_isolated (socks : List MnTcp) (n : UInt8) (base : UInt32)
    (run : World.Run w) (net : MnNet) :
    ((mnTcpInit socks n base).sock.length ≤ n.toNat ∧ LaidOut base (mnTcpInit socks n base).sock) ∧
    RingsApart w.set.sock ∧
    (∀ event i op, Event.call event = some (i, op) → Isolated i (w, net) (w.exec net event)) ∧
    (∀ (i : Nat) (t : MnTcp) (cap : UInt16), w.set.sock[i]? = some t →
      Straight t.rcvbuf MN_TCP_RCVBUF t.rcvHead (recvCount t cap)) ∧
    (∀ now i, Isolated i (turns w net now i) (turns w net now (i + 1))) ∧
    (∀ now, w.exec net (.poll now) =
      (⟨{ (turns w net now w.set.sock.length).1.set with now }, (turns w net now w.set.sock.length).1.x⟩,
        (turns w net now w.set.sock.length).2)) ∧
    ∀ src seg, Dispatched w net src seg (w.exec net (.input src seg)) := by
  have lived := World.Run.lived run
  obtain ⟨length, fewer⟩ := mnTcpInit_length socks n base
  refine ⟨⟨by omega, init_laidOut socks n base⟩, lived_apart lived, ?_, ?_, ?_, ?_, ?_⟩
  · exact fun event i op call => call_isolated lived net call
  · exact fun i t cap found => recv_straight lived found cap
  · exact fun now i => turn_isolated lived net now i
  · exact fun now => poll_turns w net now
  · exact fun src seg => input_dispatched lived net src seg

/-- Two connections of one set, to one server. -/
def twoConnected : World :=
  World.execAll (freshWorld 2)
    [(goodNet, .connect 0 neighbour 80 1), (goodNet, .connect 1 neighbour 80 100),
    (goodNet, .input neighbour
      (fromPeer 49156 1000 65538 { syn := true, ack := true } 2048 [] nothing_fits)),
    (goodNet, .input neighbour
      (fromPeer 49490 5000 6553663 { syn := true, ack := true } 2048 [] nothing_fits))]

theorem twoConnected_run : World.Run twoConnected := World.Run.execAll (freshWorld_run 2) _

/-- A byte for the second of them. -/
def forSecond : TcpSeg := fromPeer 49490 5001 6553663 { ack := true } 2048 [7] one_byte_fits

/-- The second connection queues three bytes and stores one, each in its own
rings, and takes its turn after the first. -/
theorem sockets_isolated_twoConnected :
    RingsApart twoConnected.set.sock ∧
    (Isolated 1 (twoConnected, goodNet) (twoConnected.exec goodNet (.send 1 [1, 2, 3] 3 all_three)) ∧
      (twoConnected.exec goodNet (.send 1 [1, 2, 3] 3 all_three)).1.x 11264 = 1) ∧
    (Dispatched twoConnected goodNet neighbour forSecond
      (twoConnected.exec goodNet (.input neighbour forSecond)) ∧
      (twoConnected.exec goodNet (.input neighbour forSecond)).1.x 7168 = 7) ∧
    Isolated 1 (turns twoConnected goodNet 120 1) (turns twoConnected goodNet 120 2) := by
  obtain ⟨_, apart, calls, _, each, _, inputs⟩ :=
    sockets_isolated [blankSocket, blankSocket] 2 0 twoConnected_run goodNet
  exact ⟨apart, ⟨calls _ 1 _ rfl, by decide +kernel⟩, ⟨inputs neighbour forSecond, by decide +kernel⟩,
    each 120 1⟩

end MegaNet.TcpIsolation
