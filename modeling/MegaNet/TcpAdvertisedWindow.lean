import MegaNet.TcpResets

/-! The window a connection advertises. What each acknowledgement promises is
kept beside the connection, counted from where the peer's stream begins: the
promises only grow, and what keeps within the last one is stored whole. -/
namespace MegaNet.TcpAdvertisedWindow
open MegaNet.Core SerialNumber Words CircularBuffer XmemRings TcpEmission TcpSocketInvariant TcpOutcomes
  TcpPreservation TcpConnection TcpSendStream TcpRecvStream TcpLifetime TcpResets Transition

variable {c : Conn} {t u : MnTcp} {seg : TcpSeg}

/-- The right edge of an acknowledgement, as a serial number and as a place in
the peer's stream. -/
structure Promise where
  edge : UInt32
  pos : Nat
  deriving DecidableEq

/-- The acknowledgements handed down between two states of a net. -/
def acksHanded (before after : MnNet) : List TcpSeg := (segmentsHanded before after).filter (·.flags.ack)

/-- What they promise, `next` being how far into the peer's stream `rcv_nxt` is. -/
def promises (next : Nat) (acks : List TcpSeg) : List Promise :=
  acks.map fun seg => ⟨seg.ack + seg.wnd.toUInt32, next + seg.wnd.toNat⟩

/-- A connection, how far its `rcv_nxt` has come since the peer's first sequence
number was known, and what its peer has been promised. -/
structure Watched where
  conn : Conn
  next : Nat
  told : List Promise

def Watched.exec (w : Watched) (net : MnNet) (op : Op) : Watched × MnNet :=
  let (conn, after) := w.conn.exec net op
  let next :=
    if Opens w.conn op ∨ w.conn.t.state = .synSent then 0
    else w.next + (conn.t.rcvNxt - w.conn.t.rcvNxt).toNat
  ({ conn, next, told := (if Opens w.conn op then [] else w.told) ++
    promises next (acksHanded net after) }, after)

def Watched.Begun (w : Watched) : Prop := Conn.Begun w.conn ∧ w.next = 0 ∧ w.told = []

def Watched.Run : Watched → Prop :=
  Reachable Watched.Begun fun w w' => ∃ net op, w.conn.Enabled op ∧ w' = (w.exec net op).1

theorem Watched.Run.conn {w : Watched} (run : Watched.Run w) : Conn.Run w.conn := by
  refine Reachable.invariant (motive := fun w : Watched => Conn.Run w.conn) ?_ ?_ run
  · exact fun w begun => .start begun.1
  · rintro w _ _ run ⟨net, op, enabled, rfl⟩
    exact run.next ⟨net, op, enabled, rfl⟩

/-! ## What a segment that goes out promises -/

theorem advWindow_congr (count : u.rcvCount = t.rcvCount) : advWindow u = advWindow t := by
  unfold advWindow rcvFree
  rw [count]

/-- A segment that acknowledges says what the connection expects next and has
room for. -/
structure Tells (t : MnTcp) (seg : TcpSeg) : Prop where
  ack : seg.flags.ack = true → seg.ack = t.rcvNxt
  wnd : seg.wnd = advWindow t

theorem built_tells (next : u.rcvNxt = t.rcvNxt) (count : u.rcvCount = t.rcvCount)
    (x : XMem) (flags : SegFlags)
    (seq : UInt32) (off len : UInt16) (mss : Bool) : Tells t
    (buildSegment u x flags seq off len mss) where
  ack := fun acks => by
    simp only [buildSegment] at acks ⊢
    rw [if_pos acks, next]
  wnd := by simp only [buildSegment, advWindow_congr count]

private theorem sendSyn_tells (t : MnTcp) (x : XMem) (net : MnNet) (flags : SegFlags) :
    Sends net (sendSyn t x net flags).2 (Tells (sendSyn t x net flags).1) := by
  have same := (sendSyn_kept t x net flags).symm
  rw [sendSyn_net]
  generalize (sendSyn t x net flags).1 = u at same ⊢
  exact emit_sends net
    (built_tells (congrArg Kept.rcvNxt same) (congrArg Kept.rcvCount same) x flags _ _ _ _)

theorem exec_tells (c : Conn) (net : MnNet) (op : Op) :
    Sends net (c.exec net op).2 (Tells (c.exec net op).1.t) := by
  have effect := exec_effect c net op
  generalize c.exec net op = out at effect
  cases effect with
  | connects | answers =>
    dsimp only [Conn.fresh]
    exact sendSyn_tells ..
  | aborts edge stat after sends =>
    refine sends.mono ?_
    rintro seg rfl
    exact built_tells (t := aborted { c.t with advEdge := edge, statTxSeg := stat })
      (u := c.t) rfl rfl c.x
      { rst := true, ack := true } c.t.sndNxt 0 0 false
  | polls tick =>
    refine (pollOne_built c.t c.x net tick).mono ?_
    rintro seg ⟨u, flags, seq, off, len, mss, same, _⟩
    have still := same.trans (pollOne_kept c.t c.x net tick).symm
    exact built_tells (congrArg Kept.rcvNxt still) (congrArg Kept.rcvCount still) ..
  | idles | listens | queues | takes | asks | drops | arrives | others => exact Sends.nothing net _

/-! ## What a connection stores of what arrives -/

/-- How many bytes the receive ring grew by and whether a FIN was reached says
how far `rcv_nxt` moved. -/
theorem synchronizedInput_counts (sync : synchronized t.state = true) (x : XMem)
    (seg : TcpSeg) (now : UInt16) :
    (synchronizedInput t x seg now).1.rcvCount.toNat ≤
      t.rcvCount.toNat + ((synchronizedInput t x seg now).1.rcvNxt - t.rcvNxt).toNat := by
  unfold synchronizedInput
  split
  · exact Nat.le_add_right _ _
  split
  · have side := (handleAck_rcvSide (outOfOrder t seg) seg.ack now).trans (outOfOrder_rcvSide t seg)
    simp only [rcvSide, Prod.mk.injEq] at side
    rw [side.2.2.2.1]
    exact Nat.le_add_right _ _
  · obtain ⟨count, next, _⟩ := inOrder_advances sync x seg now
    have small := (taken t seg).toNat_lt
    have moved : t.rcvNxt + (taken t seg).toUInt32 + (if reachesFin t seg then 1 else 0) - t.rcvNxt =
        (taken t seg).toUInt32 + if reachesFin t seg then 1 else 0 := by grind
    rw [count, next, moved, UInt16.toNat_add, UInt32.toNat_add, UInt16.toNat_toUInt32]
    split <;> simp <;> omega

/-- The receive ring never grows by more than `rcv_nxt` moves on. -/
theorem exec_counts (net : MnNet) (op : Op) (enabled : c.Enabled op) (steady : ¬ Opens c op)
    (past : c.t.state ≠ .synSent) : (c.exec net op).1.t.rcvCount.toNat ≤
      c.t.rcvCount.toNat + ((c.exec net op).1.t.rcvNxt - c.t.rcvNxt).toNat := by
  have effect := exec_effect c net op
  generalize c.exec net op = out at effect
  cases effect with
  | connects _ _ _ free => exact absurd free steady
  | listens _ free => exact absurd free steady
  | answers => exact absurd trivial steady
  | takes _ _ n held =>
    obtain ⟨owed, same⟩ := afterRecv_socket c.t n
    dsimp only
    rw [same]
    dsimp only
    rw [toNat_less held]
    omega
  | arrives seg =>
    have arrival := segmentInput_arrival c.t c.x seg c.now
    dsimp only
    generalize segmentInput c.t c.x seg c.now = out at arrival
    cases arrival with
    | connects state => exact absurd state past
    | accepts => exact synchronizedInput_counts rfl c.x seg c.now
    | proceeds past =>
      exact synchronizedInput_counts (t := { c.t with statRxSeg := c.t.statRxSeg + 1 })
        (awake_past enabled past)
        c.x seg c.now
    | ignored | reset | relistens | synAgain => exact Nat.le_add_right _ _
  | polls tick =>
    have still := pollOne_kept c.t c.x net tick
    rw [show (pollOne c.t c.x net tick).1.rcvCount = c.t.rcvCount from congrArg Kept.rcvCount still]
    exact Nat.le_add_right _ _
  | idles | queues | asks | drops | aborts | others => exact Nat.le_add_right _ _

/-- So the right edge never moves back. -/
theorem exec_edge (sock : SocketInv c.t c.now) (net : MnNet) (op : Op) (enabled : c.Enabled op)
    (steady : ¬ Opens c op) (past : c.t.state ≠ .synSent) : (advWindow c.t).toNat ≤
      ((c.exec net op).1.t.rcvNxt - c.t.rcvNxt).toNat + (advWindow (c.exec net op).1.t).toNat := by
  have counts := exec_counts net op enabled steady past
  have room := sock.rcvCount
  rw [advWindow_toNat sock, advWindow_toNat (exec_keeps sock net op enabled)]
  omega

/-! ## The promises -/

/-- Every promise is a place in the peer's stream, none past what there is room
for, and none before an earlier one. -/
structure Promised (w : Watched) (base : UInt32) : Prop where
  next : w.conn.t.rcvNxt = place base w.next
  edge : ∀ p ∈ w.told, p.edge = place base p.pos
  room : ∀ p ∈ w.told, p.pos ≤ w.next + (advWindow w.conn.t).toNat
  order : w.told.Pairwise fun p q => p.pos ≤ q.pos
  unheard : w.conn.t.state = .synSent → w.told = []

variable {w : Watched}

/-- What has just been promised is the right edge as it now is. -/
theorem promises_edge (net : MnNet) (op : Op) (next : Nat) (p : Promise)
    (member : p ∈ promises next (acksHanded net (c.exec net op).2)) :
    p.edge = (c.exec net op).1.t.rcvNxt + (advWindow (c.exec net op).1.t).toUInt32 ∧
      p.pos = next + (advWindow (c.exec net op).1.t).toNat := by
  obtain ⟨seg, acks, rfl⟩ := List.mem_map.mp member
  obtain ⟨handed, acks⟩ := List.mem_filter.mp acks
  have told := (exec_tells c net op).segments seg handed
  exact ⟨by rw [told.ack acks, told.wnd], by rw [told.wnd]⟩

/-- A SYN that asks for a connection promises nothing. -/
theorem exec_unheard (sock : SocketInv c.t c.now) (net : MnNet) (op : Op)
    (state : (c.exec net op).1.t.state = .synSent) : acksHanded net (c.exec net op).2 = [] := by
  have voiced := exec_voiced sock net op (by simp [awake, state])
  rw [acksHanded, List.filter_eq_nil_iff]
  intro seg handed acks
  exact (voiced.segments seg handed).acks.mp acks state

/-- The promises made so far and those an operation adds, once the former are
known to keep within what there is room for after it. -/
theorem Promised.add {base : UInt32} {told : List Promise} {next : Nat} (net : MnNet) (op : Op)
    (at_ : (c.exec net op).1.t.rcvNxt = place base next) (edge : ∀ p ∈ told, p.edge = place base p.pos)
    (room : ∀ p ∈ told, p.pos ≤ next + (advWindow (c.exec net op).1.t).toNat)
    (order : told.Pairwise fun p q => p.pos ≤ q.pos)
    (unheard : (c.exec net op).1.t.state = .synSent →
      told = [] ∧ acksHanded net (c.exec net op).2 = []) :
    Promised ⟨(c.exec net op).1, next, told ++ promises next
      (acksHanded net (c.exec net op).2)⟩ base where
  next := at_
  edge := fun p member => by
    rcases List.mem_append.mp member with before | now
    · exact edge p before
    · obtain ⟨wire, pos⟩ := promises_edge net op next p now
      rw [wire, pos, place_add, at_, UInt32.ofNat_uInt16ToNat]
  room := fun p member => by
    rcases List.mem_append.mp member with before | now
    · exact room p before
    · exact (promises_edge net op next p now).2.le
  order := by
    rw [List.pairwise_append]
    refine ⟨order, ?_, fun p before q now => ?_⟩
    · refine List.pairwise_of_forall_mem_list fun p first q second => ?_
      rw [(promises_edge net op next p first).2, (promises_edge net op next q second).2]
    · rw [(promises_edge net op next q now).2]
      exact room p before
  unheard := fun state => by
    obtain ⟨none, silent⟩ := unheard state
    simp [none, silent, promises]

theorem Promised.exec {base : UInt32} (promised : Promised w base) (sock : SocketInv w.conn.t w.conn.now)
    (net : MnNet) (op : Op) (enabled : w.conn.Enabled op) : ∃ base, Promised (w.exec net op).1 base := by
  have silent := exec_unheard sock net op
  unfold Watched.exec
  dsimp only
  by_cases opens : Opens w.conn op
  · rw [if_pos (Or.inl opens), if_pos opens]
    exact ⟨_, Promised.add net op (place_zero _).symm (by simp)
      (by simp) .nil fun state => ⟨rfl, silent state⟩⟩
  rw [if_neg opens]
  by_cases opening : w.conn.t.state = .synSent
  · -- Nothing has been promised before the peer's first sequence number is known.
    rw [if_pos (Or.inr opening), promised.unheard opening]
    exact ⟨_, Promised.add net op (place_zero _).symm (by simp)
      (by simp) .nil fun state => ⟨rfl, silent state⟩⟩
  · rw [if_neg (by simp [opens, opening])]
    have grows := exec_edge sock net op enabled opens opening
    refine ⟨base, Promised.add net op ?_ promised.edge
      (fun p member => ?_) promised.order fun state => ?_⟩
    · rw [place_add, ← promised.next, UInt32.ofNat_toNat]
      grind
    · have := promised.room p member
      omega
    · have onward := exec_onward sock net op enabled opens
      exact absurd state (Onward.not_synSent (onward.imp_right And.right) opening)

theorem Watched.Run.promised (run : Watched.Run w) : ∃ base, Promised w base := by
  refine Reachable.invariant (motive := fun w : Watched => ∃ base, Promised w base) ?_ ?_ run
  · rintro w ⟨_, next, told⟩
    exact ⟨w.conn.t.rcvNxt, by simp [next], by simp [told], by simp [told],
      by simp [told], fun _ => told⟩
  · rintro w _ run ⟨base, promised⟩ ⟨net, op, enabled, rfl⟩
    exact promised.exec (Watched.Run.conn run).socketInv net op enabled

/-! ## What keeps within a promise -/

/-- The states in which payload is stored. -/
def Storing (t : MnTcp) : Prop := t.state = .established ∨ t.state = .finWait1 ∨ t.state = .finWait2

theorem Storing.synchronized (storing : Storing t) : synchronized t.state = true := by
  rcases storing with state | state | state <;> rw [state] <;> rfl

private theorem taken_whole (storing : Storing t) (fits : seg.data.length ≤ (rcvFree t).toNat) :
    taken t seg = seg.dlen := by
  have silent := (storing_iff storing.synchronized).mp storing
  have clamped := toNat_clamp seg.dlen (rcvFree t)
  rw [dlen_toNat, Nat.min_eq_left fits] at clamped
  rw [taken, silent, if_neg Bool.false_ne_true, ← UInt16.toNat_inj, clamped, dlen_toNat]

/-- All of a payload that fits is there to be read. -/
theorem exec_stores (run : Conn.Run c) (storing : Storing c.t) (net : MnNet)
    (plain : seg.flags.rst = false)
    (acks : seg.flags.ack = true) (next : seg.seq = c.t.rcvNxt)
    (fits : seg.data.length ≤ (rcvFree c.t).toNat) :
    (c.exec net (.segment seg)).1.t.rcvCount.toNat = c.t.rcvCount.toNat + seg.data.length ∧
      unread (c.exec net (.segment seg)).1 = unread c ++ seg.data := by
  have sock : SocketInv { c.t with statRxSeg := c.t.statRxSeg + 1 } c.now := { run.socketInv with }
  have placed : Placed { c.t with statRxSeg := c.t.statRxSeg + 1 } := { run.placed with }
  have sync := storing.synchronized
  have later := run.next ⟨net, .segment seg, synchronized_awake sync, rfl⟩
  have read := unread_window (Conn.Run.socketInv later) (Conn.Run.placed later)
  have still := rings_home (exec_rings c net (.segment seg))
  have arrives : segmentInput c.t c.x seg c.now = inOrder
      { c.t with statRxSeg := c.t.statRxSeg + 1 } c.x seg c.now := by
    rw [segmentInput_past (synchronized_past sync) plain, synchronizedInput, if_neg (by simp [acks]),
      if_neg (by simp [next])]
  obtain ⟨count, _, head⟩ :=
    inOrder_advances (t := { c.t with statRxSeg := c.t.statRxSeg + 1 }) sync c.x seg c.now
  have whole : taken { c.t with statRxSeg := c.t.statRxSeg + 1 } seg = seg.dlen :=
    taken_whole storing fits
  have appended := inOrder_appends sock placed sync c.x seg
  rw [whole, dlen_toNat, List.take_length] at appended
  have room := rcvFree_toNat run.socketInv
  have most := run.socketInv.rcvCount
  simp only [Conn.exec, arrives, whole] at read still count head ⊢
  have total : (inOrder { c.t with statRxSeg := c.t.statRxSeg + 1 } c.x seg c.now).1.rcvCount.toNat =
      c.t.rcvCount.toNat + seg.data.length := by
    rw [count, toNat_more (by rw [dlen_toNat]; omega), dlen_toNat]
  refine ⟨total, ?_⟩
  rw [read, rcvWindow, still, head, total, unread_window run.socketInv run.placed]
  exact appended

/-- The promise a window makes: the right edges a connection announces are
places in the peer's stream that never move back, and in the states that store
payload an acceptable next segment that keeps within one is stored to its last
byte. -/
theorem advertised_window_promised (run : Watched.Run w) :
    (∃ base, w.conn.t.rcvNxt = place base w.next ∧ ∀ p ∈ w.told, p.edge = place base p.pos) ∧
    w.told.Pairwise (fun p q => p.pos ≤ q.pos) ∧
    ∀ net seg, ∀ p ∈ w.told, Storing w.conn.t → seg.flags.rst = false → seg.flags.ack = true →
      seg.seq = w.conn.t.rcvNxt → w.next + seg.data.length ≤ p.pos →
        (w.conn.exec net (.segment seg)).1.t.rcvCount.toNat = w.conn.t.rcvCount.toNat + seg.data.length ∧
          unread (w.conn.exec net (.segment seg)).1 = unread w.conn ++ seg.data := by
  obtain ⟨base, promised⟩ := Watched.Run.promised run
  have connected := Watched.Run.conn run
  refine ⟨⟨base, promised.next, promised.edge⟩, promised.order,
    fun net seg p member storing plain acks next within => ?_⟩
  have room := promised.room p member
  have window := advWindow_toNat connected.socketInv
  have free := rcvFree_toNat connected.socketInv
  exact exec_stores connected storing net plain acks next (by omega)

/-- A connection watched from its beginning. -/
def unwatched : Watched := ⟨freshConn, 0, []⟩

/-- One that has been answered and has acknowledged. -/
def acknowledged : Watched :=
  (((unwatched.exec goodNet
    (.connect neighbour 80 65520)).1.exec goodNet (.segment synAck)).1.exec goodNet
    (.poll 65521)).1

theorem acknowledged_run : Watched.Run acknowledged := by
  have begun : Watched.Run unwatched := .start ⟨freshConn_begun, rfl, rfl⟩
  have opened := begun.next ⟨goodNet, .connect neighbour 80 65520, trivial, rfl⟩
  have answered := opened.next ⟨goodNet, .segment synAck, ⟨by decide +kernel, by decide +kernel⟩, rfl⟩
  exact answered.next ⟨goodNet, .poll 65521, trivial, rfl⟩

theorem advertised_window_promised_acknowledged :
    (acknowledged.conn.exec goodNet (.segment firstTwo)).1.t.rcvCount.toNat =
        acknowledged.conn.t.rcvCount.toNat + 2 ∧
      unread (acknowledged.conn.exec goodNet (.segment firstTwo)).1 =
        unread acknowledged.conn ++ [7, 8] := by
  obtain ⟨_, _, stores⟩ := advertised_window_promised acknowledged_run
  have told : ⟨3049, 2048⟩ ∈ acknowledged.told := by decide +kernel
  exact stores goodNet firstTwo _ told (Or.inl (by decide +kernel)) rfl rfl (by decide +kernel)
    (by decide +kernel)

end MegaNet.TcpAdvertisedWindow
