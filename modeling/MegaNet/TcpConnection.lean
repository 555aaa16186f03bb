import MegaNet.TcpPreservation
import MegaNet.XmemRings
import MegaNet.Core.TcpSet
import MegaNet.Transition

/-! One socket's life: every call, segment and poll that reaches it, in any
order, with the bytes the application handed in and took out recorded beside
it. What the other sockets of its set do appears only as changes to the pool
outside its own rings. -/
namespace MegaNet.TcpConnection
open MegaNet.Core SerialNumber Words XmemRings TcpEmission TcpSocketInvariant TcpOutcomes TcpPreservation
  Transition

/-- Where a socket's rings begin in the pool. -/
def home (t : MnTcp) : Nat := xaddr t.xseg t.rcvbuf

/-- Both rings lie inside one segment, the send ring after the receive ring. -/
structure Placed (t : MnTcp) : Prop where
  fits : t.rcvbuf.toNat + 7168 ≤ 65536
  sndbuf : t.sndbuf = t.rcvbuf + MN_TCP_RCVBUF

theorem Placed.sndbuf_home (placed : Placed t) :
    t.sndbuf.toNat = t.rcvbuf.toNat + 4096 ∧ xaddr t.xseg t.sndbuf = home t + 4096 := by
  have fits := placed.fits
  have after : t.sndbuf.toNat = t.rcvbuf.toNat + 4096 := by
    rw [placed.sndbuf, toNat_more (by rw [rcvbuf_toNat]; omega), rcvbuf_toNat]
  refine ⟨after, ?_⟩
  simp only [xaddr, home, after]
  omega

/-- A socket with its pool and the set's clock, and of its present connection
the bytes accepted from the application, the bytes returned to it, and whether
the peer's initial sequence number is known. -/
structure Conn where
  t : MnTcp
  x : XMem
  now : UInt16
  sent : List UInt8
  rcvd : List UInt8
  known : Bool

/-- What can happen to one socket. -/
inductive Op where
  | connect (ip : Ip4) (port tick : UInt16)
  | listen (port : UInt16)
  | send (data : List UInt8) (len : UInt16)
  | sendX (ext : PhysMem) (src : UInt32) (len : UInt16)
  | recv (cap : UInt16)
  | recvX (ext : PhysMem) (dst : UInt32) (cap : UInt16)
  | close
  | abort
  | segment (seg : TcpSeg)
  | passiveOpen (src : Ip4) (seg : TcpSeg)
  | poll (tick : UInt16)
  | others (x : XMem)

/-- A new connection begins its records afresh. -/
def Conn.fresh (c : Conn) (t : MnTcp) (known : Bool) : Conn :=
  { c with t, sent := [], rcvd := [], known }

def Conn.exec (c : Conn) (net : MnNet) : Op → Conn × MnNet
  | .connect ip port tick =>
      match mnTcpConnect c.t c.x net ip port tick with
      | (true, t, net) => (c.fresh t false, net)
      | (false, _, net) => (c, net)
  | .listen port =>
      match mnTcpListen c.t port with
      | (true, t) => (c.fresh t false, net)
      | (false, _) => (c, net)
  | .send data len =>
      let (n, t, x) := mnTcpSend c.t c.x data len
      ({ c with t, x, sent := c.sent ++ data.take n.toNat }, net)
  | .sendX ext src len =>
      let (n, t, x) := mnTcpSendX c.t c.x ext src len
      ({ c with t, x, sent := c.sent ++ ext.read src n }, net)
  | .recv cap =>
      let (bytes, t) := mnTcpRecv c.t c.x cap
      ({ c with t, rcvd := c.rcvd ++ bytes }, net)
  | .recvX ext dst cap =>
      let (n, t, ext) := mnTcpRecvX c.t c.x ext dst cap
      ({ c with t, rcvd := c.rcvd ++ ext.read dst n }, net)
  | .close => ({ c with t := mnTcpClose c.t }, net)
  | .abort =>
      let (t, net) := mnTcpAbort c.t c.x net
      ({ c with t }, net)
  | .segment seg =>
      let (t, x) := segmentInput c.t c.x seg c.now
      ({ c with t, x, known := c.known || synchronized t.state }, net)
  | .passiveOpen src seg =>
      let (t, net) := Core.passiveOpen c.t c.x net src seg c.now
      (c.fresh t true, net)
  | .poll tick =>
      let (t, net) := pollOne c.t c.x net tick
      ({ c with t, now := tick }, net)
  | .others x => ({ c with x }, net)

/-- A caller's buffer holds the bytes it announces, the dispatcher gives a
socket only what it owns or listens for, and the other sockets stay out of
its rings. -/
def Conn.Enabled (c : Conn) : Op → Prop
  | .send data len => len.toNat ≤ data.length
  | .segment _ => c.t.state ≠ .closed ∧ c.t.state ≠ .listen
  | .passiveOpen _ seg => c.t.state = .listen ∧ isPureSyn seg = true
  | .others x => ∀ a, home c.t ≤ a → a < home c.t + 7168 → x a = c.x a
  | _ => True

def Conn.Step (c c' : Conn) : Prop := ∃ net op, c.Enabled op ∧ c' = (c.exec net op).1

/-- A socket as `mn_tcp_init` leaves it. -/
def Conn.Begun (c : Conn) : Prop :=
  (∃ socks n base, c.t ∈ (mnTcpInit socks n base).sock) ∧
    c.now = 0 ∧ c.sent = [] ∧ c.rcvd = [] ∧ c.known = false

def Conn.Run : Conn → Prop := Reachable Conn.Begun Conn.Step

/-- Several operations, each over the net it finds. -/
def Conn.execAll (c : Conn) : List (MnNet × Op) → Conn
  | [] => c
  | (net, op) :: rest => Conn.execAll (c.exec net op).1 rest

/-- Each of them can happen where it comes. -/
def Conn.AllEnabled (c : Conn) : List (MnNet × Op) → Prop
  | [] => True
  | (net, op) :: rest => c.Enabled op ∧ Conn.AllEnabled (c.exec net op).1 rest

theorem Conn.Run.execAll {c : Conn} (run : Conn.Run c) (steps : List (MnNet × Op))
    (enabled : c.AllEnabled steps) : Conn.Run (c.execAll steps) := by
  induction steps generalizing c with
  | nil => exact run
  | cons step rest ih => exact ih (run.next ⟨step.1, step.2, enabled.1, rfl⟩) enabled.2

theorem Conn.AllEnabled.take {c : Conn} {steps : List (MnNet × Op)}
    (enabled : c.AllEnabled steps) (k : Nat) :
    c.AllEnabled (steps.take k) := by
  induction steps generalizing c k with
  | nil => simpa using enabled
  | cons step rest ih =>
    cases k with
    | zero => trivial
    | succ k => exact ⟨enabled.1, ih enabled.2 k⟩

/-! ## What one operation does -/

/-- What one operation makes of a connection and of the net it finds. -/
inductive Effect (c : Conn) (net : MnNet) : Op → Conn × MnNet → Prop where
  /-- A call refused, or with nothing to do. -/
  | idles (op : Op) (quiet : ∀ seg, op ≠ .segment seg) : Effect c net op (c, net)
  | connects (ip : Ip4) (port tick : UInt16) (free : c.t.state = .closed) :
      Effect c net (.connect ip port tick)
        (c.fresh (sendSyn (startConnect c.t net ip port tick) c.x net { syn := true }).1 false,
          (sendSyn (startConnect c.t net ip port tick) c.x net { syn := true }).2)
  | listens (port : UInt16) (free : c.t.state = .closed ∧ port ≠ 0) :
      Effect c net (.listen port)
        (c.fresh { resetCounters { c.t with localPort := port, remotePort := 0 } with state := .listen }
          false, net)
  | answers (src : Ip4) (seg : TcpSeg) :
      Effect c net (.passiveOpen src seg)
        (c.fresh (sendSyn (startPassive c.t net src seg c.now) c.x net
          { syn := true, ack := true }).1 true,
          (sendSyn (startPassive c.t net src seg c.now) c.x net { syn := true, ack := true }).2)
  /-- A send call that takes over `n` bytes of `data`. -/
  | queues (op : Op) (data : List UInt8) (n len : UInt16) (room : n = sendRoom c.t len)
      (ready : canSend c.t = true)
      (held : c.Enabled op → n.toNat ≤ data.length) (quiet : ∀ seg, op ≠ .segment seg) :
      Effect c net op
        ({ c with
          t := { c.t with sndLen := c.t.sndLen + n, txPending := true }
          x := ringWrite c.x c.t.xseg c.t.sndbuf MN_TCP_SNDBUF
            ((c.t.sndHead + c.t.sndLen) % MN_TCP_SNDBUF)
            data n
          sent := c.sent ++ data.take n.toNat }, net)
  /-- A receive call that returns `n` bytes. -/
  | takes (op : Op) (bytes : List UInt8) (n : UInt16) (held : n.toNat ≤ c.t.rcvCount.toNat)
      (exact : c.t.rcvHead.toNat < 4096 →
        bytes = ringRead c.x c.t.xseg c.t.rcvbuf MN_TCP_RCVBUF c.t.rcvHead n)
      (quiet : ∀ seg, op ≠ .segment seg) :
      Effect c net op ({ c with t := afterRecv c.t n, rcvd := c.rcvd ++ bytes }, net)
  | asks (sends : sending c.t.state = true) :
      Effect c net .close ({ c with t := { c.t with finQueued := true, txPending := true } }, net)
  | drops (soon : early c.t.state) :
      Effect c net .close ({ c with t := { c.t with state := .closed } }, net)
  | aborts (edge : UInt32) (stat : UInt16) (after : MnNet)
      (sends : Sends net after (· = abortSegment c.t c.x)) (gone : c.t.state = .closed → after = net) :
      Effect c net .abort
        ({ c with t := aborted { c.t with advEdge := edge, statTxSeg := stat } }, after)
  | arrives (seg : TcpSeg) :
      Effect c net (.segment seg)
        ({ c with
          t := (segmentInput c.t c.x seg c.now).1
          x := (segmentInput c.t c.x seg c.now).2
          known := c.known || synchronized (segmentInput c.t c.x seg c.now).1.state }, net)
  | polls (tick : UInt16) :
      Effect c net (.poll tick)
        ({ c with t := (pollOne c.t c.x net tick).1, now := tick }, (pollOne c.t c.x net tick).2)
  | others (x : XMem) : Effect c net (.others x) ({ c with x }, net)

private theorem send_effect (c : Conn) (net : MnNet) (data : List UInt8) (len : UInt16) :
    Effect c net (.send data len) (c.exec net (.send data len)) := by
  have most := sendRoom_most c.t len
  simp only [Conn.exec, mnTcpSend]
  split
  · simpa using Effect.idles (c := c) (.send data len) (by simp)
  · exact .queues _ data _ len rfl (sendRoom_ready ‹_›)
      (fun enabled => Nat.le_trans most enabled) (by simp)

theorem ring_end (t : MnTcp) : ((t.sndHead + t.sndLen) % MN_TCP_SNDBUF).toNat < MN_TCP_SNDBUF.toNat := by
  rw [UInt16.toNat_mod]
  exact Nat.mod_lt _ (by decide)

private theorem sendX_effect (c : Conn) (net : MnNet) (ext : PhysMem) (src : UInt32) (len : UInt16) :
    Effect c net (.sendX ext src len) (c.exec net (.sendX ext src len)) := by
  have held : (ext.read src (sendRoom c.t len)).length = (sendRoom c.t len).toNat := by
    simp [PhysMem.read]
  simp only [Conn.exec, mnTcpSendX]
  split
  · simpa [PhysMem.read] using Effect.idles (c := c) (.sendX ext src len) (by simp)
  · have queued : Effect c net (.sendX ext src len) _ :=
      .queues (.sendX ext src len) _ _ len rfl (sendRoom_ready ‹_›) (fun _ => held.ge) (by simp)
    rw [List.take_of_length_le held.le, ← ringWriteX_ringWrite (ring_end c.t)] at queued
    exact queued

private theorem recv_effect (c : Conn) (net : MnNet) (cap : UInt16) :
    Effect c net (.recv cap) (c.exec net (.recv cap)) := by
  refine .takes _ _ _ (recvCount_le c.t cap) (fun _ => ?_) (by simp)
  show (if recvCount c.t cap = 0 then [] else _) = _
  split
  · rename_i none
    rw [none]
    exact (List.eq_nil_of_length_eq_zero (ringRead_length ..)).symm
  · rfl

private theorem recvX_effect (c : Conn) (net : MnNet) (ext : PhysMem) (dst : UInt32) (cap : UInt16) :
    Effect c net (.recvX ext dst cap) (c.exec net (.recvX ext dst cap)) := by
  refine .takes _ _ _ (recvCount_le c.t cap) (fun inside => ?_) (by simp)
  show PhysMem.read (if recvCount c.t cap = 0 then ext else _) dst _ = _
  split
  · rename_i none
    rw [none]
    exact (List.eq_nil_of_length_eq_zero (ringRead_length ..)).symm
  · exact ringReadX_ringRead inside

/-- Everything an operation can do. -/
theorem exec_effect (c : Conn) (net : MnNet) (op : Op) : Effect c net op (c.exec net op) := by
  cases op with
  | connect ip port tick =>
    by_cases free : c.t.state = .closed
    · simpa [Conn.exec, mnTcpConnect, free] using (.connects ip port tick free : Effect c net _ _)
    · simpa [Conn.exec, mnTcpConnect, free] using
        (.idles (.connect ip port tick) (by simp) : Effect c net _ _)
  | listen port =>
    by_cases free : c.t.state = .closed ∧ port ≠ 0
    · simpa [Conn.exec, mnTcpListen, free] using (.listens port free : Effect c net _ _)
    · have refused : c.t.state ≠ .closed ∨ port = 0 := by tauto
      simpa [Conn.exec, mnTcpListen, refused] using Effect.idles (c := c) (.listen port) (by simp)
  | send data len => exact send_effect c net data len
  | sendX ext src len => exact sendX_effect c net ext src len
  | recv cap => exact recv_effect c net cap
  | recvX ext dst cap => exact recvX_effect c net ext dst cap
  | close =>
    obtain ⟨sends, same⟩ | ⟨soon, same⟩ | ⟨_, _, same⟩ :=
      mnTcpClose_cases c.t <;> simp only [Conn.exec, same]
    · exact .asks sends
    · exact .drops soon
    · exact .idles _ (by simp)
  | abort =>
    obtain ⟨⟨edge, stat, same⟩, sends, gone⟩ := mnTcpAbort_spec c.t c.x net
    simp only [Conn.exec, same]
    exact .aborts edge stat _ sends gone
  | segment seg => exact .arrives seg
  | passiveOpen src seg => exact .answers src seg
  | poll tick => exact .polls tick
  | others x => exact .others x

theorem exec_connect (c : Conn) (net : MnNet) (ip : Ip4) (port tick : UInt16) :
    c.exec net (.connect ip port tick) =
      if c.t.state = .closed then
        (c.fresh (sendSyn (startConnect c.t net ip port tick) c.x net { syn := true }).1 false,
          (sendSyn (startConnect c.t net ip port tick) c.x net { syn := true }).2)
      else (c, net) := by
  simp only [Conn.exec, mnTcpConnect]
  by_cases free : c.t.state = .closed <;> simp [free]

theorem exec_listen (c : Conn) (net : MnNet) (port : UInt16) :
    c.exec net (.listen port) =
      if c.t.state = .closed ∧ port ≠ 0 then
        (c.fresh { resetCounters { c.t with localPort := port, remotePort := 0 } with state := .listen }
          false, net)
      else (c, net) := by
  simp only [Conn.exec, mnTcpListen]
  by_cases free : c.t.state = .closed <;> by_cases named : port = 0 <;> simp [free, named]

/-! ## Rings -/

theorem rings_home (same : rings t = rings u) : home t = home u := by
  simp only [rings, Prod.mk.injEq] at same
  simp [home, same]

theorem Placed.moved (placed : Placed t) (same : rings u = rings t) : Placed u := by
  simp only [rings, Prod.mk.injEq] at same
  exact ⟨by simpa [same] using placed.fits, by simpa [same] using placed.sndbuf⟩

theorem Placed.settled (placed : Placed t) (same : settled u = settled t) : Placed u :=
  placed.moved (identity_rings (congrArg Settled.identity same))

/-- No operation moves a socket's rings. -/
theorem exec_rings (c : Conn) (net : MnNet) (op : Op) : rings (c.exec net op).1.t = rings c.t := by
  have effect := exec_effect c net op
  generalize c.exec net op = out at effect
  cases effect with
  | connects ip port tick =>
    have sent := sendSyn_kept (startConnect c.t net ip port tick) c.x net { syn := true }
    exact (identity_rings (kept_identity sent)).trans rfl
  | answers src seg =>
    obtain ⟨mss, _, same⟩ := startPassive_socket c.t net src seg c.now
    have sent := sendSyn_kept (startPassive c.t net src seg c.now) c.x net { syn := true, ack := true }
    exact (identity_rings (kept_identity sent)).trans (by rw [same]; rfl)
  | takes _ _ n =>
    obtain ⟨owed, same⟩ := afterRecv_socket c.t n
    simp only [same]
    rfl
  | arrives seg => exact identity_rings (segmentInput_identity c.t c.x seg c.now)
  | polls tick => exact identity_rings (kept_identity (pollOne_kept c.t c.x net tick))
  | _ => rfl

/-! ## From `mn_tcp_init` on -/

/-- As many sockets fit as there is room for up to the segment's end. -/
theorem socketsThatFit_toNat (n : UInt8) (base : UInt32) :
    (socketsThatFit n base).toNat = min n.toNat ((65536 - base.toNat % 65536) / 7168) := by
  have low : (base &&& 0xffff).toNat = base.toNat % 65536 := by
    rw [UInt32.toNat_and]
    exact Nat.and_two_pow_sub_one_eq_mod _ 16
  have room : (0x10000 - (base &&& 0xffff)).toNat = 65536 - base.toNat % 65536 := by
    rw [UInt32.toNat_sub, low, show (0x10000 : UInt32).toNat = 65536 from rfl]
    omega
  have size : MN_TCP_SOCKET_XMEM.toNat = 7168 := rfl
  have small := n.toNat_lt
  have need : (n.toUInt32 * MN_TCP_SOCKET_XMEM).toNat = n.toNat * 7168 := by
    rw [UInt32.toNat_mul, UInt8.toNat_toUInt32, size]
    omega
  unfold socketsThatFit
  dsimp only
  split
  · rename_i more
    rw [gt_iff_lt, UInt32.lt_iff_toNat_lt, need, room] at more
    rw [UInt32.toNat_toUInt8, UInt32.toNat_div, room, size]
    omega
  · rename_i enough
    rw [gt_iff_lt, UInt32.lt_iff_toNat_lt, need, room] at enough
    omega

private theorem fits_bound (n : UInt8) (base : UInt32) :
    base.toNat % 65536 + (socketsThatFit n base).toNat * 7168 ≤ 65536 := by
  have fitting := socketsThatFit_toNat n base
  omega

private theorem initSockets_get? (base : UInt32) (first : UInt8) (socks : List MnTcp) (k : Nat) :
    (initSockets base first socks)[k]? =
      (socks[k]?).map (initSocket base (first + UInt8.ofNat k)) := by
  induction socks generalizing first k with
  | nil => simp [initSockets]
  | cons t rest ih =>
    cases k with
    | zero => simp [initSockets]
    | succ k =>
      rw [initSockets, List.getElem?_cons_succ, ih, List.getElem?_cons_succ, UInt8.ofNat_add,
        UInt8.add_assoc, UInt8.add_comm 1]
      rfl

/-- Socket `k` after `mn_tcp_init`: closed, with the invariant, its rings the
`k`th 7168 bytes of the pool from `xmem_base`. -/
theorem mnTcpInit_get? (found : (mnTcpInit socks n base).sock[k]? = some t) :
    SocketInv t 0 ∧ Placed t ∧
      home t = (base >>> 16).toUInt16.toNat * 65536 + base.toNat % 65536 + 7168 * k ∧
      t.state = .closed ∧ t.rcvCount = 0 ∧ t.flags.eof = false := by
  have bound := fits_bound n base
  simp only [mnTcpInit, initSockets_get?, Option.map_eq_some_iff] at found
  obtain ⟨memory, held, rfl⟩ := found
  have below : k < (socketsThatFit n base).toNat := by
    have := (List.getElem?_eq_some_iff.mp held).1
    simp only [List.length_take] at this
    omega
  have small := (socketsThatFit n base).toNat_lt
  have index : (0 + UInt8.ofNat k).toNat = k := by
    rw [UInt8.toNat_add, UInt8.toNat_ofNat']
    simp
    omega
  have start : (base + (0 + UInt8.ofNat k).toUInt32 * MN_TCP_SOCKET_XMEM).toUInt16.toNat =
      base.toNat % 65536 + 7168 * k := by
    rw [UInt32.toNat_toUInt16, UInt32.toNat_add, UInt32.toNat_mul, UInt8.toNat_toUInt32, index,
      show MN_TCP_SOCKET_XMEM.toNat = 7168 from rfl]
    have := base.toNat_lt
    omega
  refine ⟨?_, ⟨?_, rfl⟩, ?_, rfl, rfl, rfl⟩
  · exact { reset_rests { memory with
      index := 0 + UInt8.ofNat k
      xseg := (base >>> 16).toUInt16
      rcvbuf := (base + (0 + UInt8.ofNat k).toUInt32 * MN_TCP_SOCKET_XMEM).toUInt16
      sndbuf := (base + (0 + UInt8.ofNat k).toUInt32 * MN_TCP_SOCKET_XMEM).toUInt16 + MN_TCP_RCVBUF
      localPort := 0, remotePort := 0 } 0 .closed (Or.inl rfl) with }
  · simp only [initSocket, resetCounters, start]
    omega
  · simp only [home, xaddr, initSocket, resetCounters, start]
    omega

theorem mnTcpInit_xseg {t : MnTcp} {k : Nat} (found : (mnTcpInit socks n base).sock[k]? = some t) :
    t.xseg = (base >>> 16).toUInt16 := by
  simp only [mnTcpInit, initSockets_get?, Option.map_eq_some_iff] at found
  obtain ⟨memory, _, rfl⟩ := found
  rfl

private theorem initSockets_length (base : UInt32) (first : UInt8) (socks : List MnTcp) :
    (initSockets base first socks).length = socks.length := by
  induction socks generalizing first with
  | nil => rfl
  | cons t rest ih => simp [initSockets, ih]

/-- As many sockets are set up as fit, of the `n` asked for. -/
theorem mnTcpInit_length (socks : List MnTcp) (n : UInt8) (base : UInt32) :
    (mnTcpInit socks n base).sock.length = min (socketsThatFit n base).toNat socks.length ∧
      (socketsThatFit n base).toNat ≤ n.toNat := by
  refine ⟨by simp [mnTcpInit, initSockets_length], ?_⟩
  rw [socketsThatFit_toNat]
  exact Nat.min_le_left _ _

/-! ## The invariant along a run -/

variable {c : Conn}

theorem exec_keeps (inv : SocketInv c.t c.now) (net : MnNet) (op : Op) (enabled : c.Enabled op) :
    SocketInv (c.exec net op).1.t (c.exec net op).1.now := by
  have effect := exec_effect c net op
  generalize c.exec net op = out at effect
  cases effect with
  | idles => exact inv
  | connects ip port tick => exact sendSyn_keeps (startConnect_keeps c.t net ip port tick c.now)
  | listens => exact reset_rests _ c.now .listen (Or.inr rfl)
  | answers src seg => exact sendSyn_keeps (startPassive_keeps c.t net src seg c.now c.now)
  | queues _ _ n len room ready => exact queue_keeps inv ready n (room ▸ sendRoom_le inv len)
  | takes _ _ n held => exact afterRecv_keeps inv n held
  | asks sends => exact ask_keeps inv sends
  | drops => exact inv.rest .closed c.t.flags (Or.inl rfl)
  | aborts => exact aborted_keeps { inv with }
  | arrives seg => exact segmentInput_keeps inv enabled c.x seg
  | polls tick => exact pollOne_keeps inv c.x net tick
  | others => exact inv

theorem Conn.Run.socketInv (run : Conn.Run c) : SocketInv c.t c.now := by
  refine Reachable.invariant (motive := fun c : Conn => SocketInv c.t c.now) ?_ ?_ run
  · rintro c ⟨⟨socks, n, base, member⟩, clock, _⟩
    obtain ⟨k, found⟩ := List.mem_iff_getElem?.mp member
    rw [clock]
    exact (mnTcpInit_get? found).1
  · rintro c _ _ inv ⟨net, op, enabled, rfl⟩
    exact exec_keeps inv net op enabled

theorem Conn.Run.placed (run : Conn.Run c) : Placed c.t := by
  refine Reachable.invariant (motive := fun c : Conn => Placed c.t) ?_ ?_ run
  · rintro c ⟨⟨socks, n, base, member⟩, _⟩
    obtain ⟨k, found⟩ := List.mem_iff_getElem?.mp member
    exact (mnTcpInit_get? found).2.1
  · rintro c _ _ placed ⟨net, op, _, rfl⟩
    exact placed.moved (exec_rings c net op)

/-! ## Concrete cases -/

/-- Socket memory before `mn_tcp_init`. -/
def blankSocket : MnTcp :=
  { state := .closed, flags := {}, index := 0
    remoteIp := ⟨0, 0, 0, 0⟩, remotePort := 0, localPort := 0
    iss := 0, sndUna := 0, sndNxt := 0, irs := 0, rcvNxt := 0, advEdge := 0
    sndWnd := 0, peerMss := 0, xseg := 0, rcvbuf := 0, sndbuf := 0
    sndHead := 0, sndLen := 0, inflight := 0, cwnd := 0, finQueued := false, finSent := false
    rcvHead := 0, rcvCount := 0, ackPending := false, synPending := false, txPending := false
    sentAt := 0, rto := 0, timewaitAt := 0, retries := 0
    statRxSeg := 0, statTxSeg := 0, statRetrans := 0, statOoo := 0 }

/-- A socket just initialised, over an empty pool. -/
def freshConn : Conn := ⟨initSocket 0 0 blankSocket, fun _ => 0, 0, [], [], false⟩

theorem freshConn_begun : Conn.Begun freshConn :=
  ⟨⟨[blankSocket], 1, 0, List.mem_singleton.mpr rfl⟩, rfl, rfl, rfl, rfl⟩

theorem freshConn_run : Conn.Run freshConn := .start freshConn_begun

/-- The address of a neighbour on the link. -/
def neighbour : Ip4 := ⟨10, 0, 0, 2⟩

/-- A host at 10.0.0.1/24 whose link answers as `accepts` says, the
neighbour's MAC being known or not. -/
def hostNet (accepts : Nat → Bool) (known : Bool) : MnNet :=
  { nif := { mac := ⟨2, 0, 0, 0, 0, 1⟩, accepts }
    ip := ⟨10, 0, 0, 1⟩, mask := ⟨255, 255, 255, 0⟩, gw := ⟨10, 0, 0, 254⟩
    arp := ⟨[⟨neighbour, ⟨2, 0, 0, 0, 0, 2⟩, known⟩], 0⟩
    ipId := 0, txFailures := 0 }

/-- A link in working order. -/
def goodNet : MnNet := hostNet (fun _ => true) true

theorem goodNet_resolves : goodNet.Resolves neighbour := Or.inr rfl

theorem goodNet_accepts : goodNet.Accepts := fun _ => rfl

theorem one_byte_fits : ([7] : List UInt8).length < 65536 := by decide

/-- A segment from port 80 of the neighbour. -/
def fromPeer (dport : UInt16) (seq ack : UInt32) (flags : SegFlags) (wnd : UInt16)
    (data : List UInt8) (fits : data.length < 65536) : TcpSeg where
  sport := 80
  dport := dport
  seq := seq
  ack := ack
  flags := flags
  wnd := wnd
  opts := []
  data := data
  optsFit := no_options_fit
  dataFits := fits

end MegaNet.TcpConnection
