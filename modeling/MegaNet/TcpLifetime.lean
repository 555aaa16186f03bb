import MegaNet.TcpRecvStream

/-! What is settled once in the life of a connection: its sequence numbers
when it opens, the peer's when the handshake ends, and what it has sent when
it is closed. Before the handshake is over nothing it emits carries a byte. -/
namespace MegaNet.TcpLifetime
open MegaNet.Core SerialNumber Words TcpEmission TcpSocketInvariant TcpOutcomes
  TcpConnection TcpSendStream
  TcpRecvStream Transition

variable {c : Conn} {op : Op}

/-- Apart from opening a connection and from segments nothing changes what
identifies it, where the peer's numbers begin, or what is known of its FIN. -/
theorem exec_still (sock : SocketInv c.t c.now) (net : MnNet) (op : Op) (steady : ¬ Opens c op)
    (quiet : ∀ seg, op ≠ .segment seg) :
    identity (c.exec net op).1.t = identity c.t ∧ (c.exec net op).1.t.irs = c.t.irs ∧
      (c.exec net op).1.t.flags.eof = c.t.flags.eof := by
  have effect := exec_effect c net op
  generalize c.exec net op = out at effect
  cases effect with
  | connects _ _ _ free => exact absurd free steady
  | listens _ free => exact absurd free steady
  | answers => exact absurd trivial steady
  | takes _ _ n =>
    obtain ⟨owed, same⟩ := afterRecv_socket c.t n
    rw [same]
    exact ⟨rfl, rfl, rfl⟩
  | arrives seg => exact absurd rfl (quiet seg)
  | polls tick =>
    have same := pollOne_kept c.t c.x net tick
    exact ⟨kept_identity same, congrArg Kept.irs same, (pollOne_steady sock c.x net tick).2⟩
  | idles | queues | asks | drops | aborts | others => exact ⟨rfl, rfl, rfl⟩

theorem exec_iss (sock : SocketInv c.t c.now) (net : MnNet) (op : Op) (steady : ¬ Opens c op) :
    (c.exec net op).1.t.iss = c.t.iss := by
  have same : identity (c.exec net op).1.t = identity c.t := by
    by_cases arrives : ∃ seg, op = .segment seg
    · obtain ⟨seg, rfl⟩ := arrives
      exact segmentInput_identity c.t c.x seg c.now
    · exact (exec_still sock net op steady fun seg same => arrives ⟨seg, same⟩).1
  exact congrArg Identity.iss same

/-! ## The end of what is sent -/

/-- The application can hand over no more: the connection is gone, or it has
been closed. -/
def Ended (t : MnTcp) : Prop := t.state = .closed ∨ synchronized t.state = true ∧ t.finQueued = true

theorem Ended.shut (ended : Ended t) : canSend t = false := by
  rcases ended with closed | ⟨_, asked⟩
  · simp [canSend, closed]
  · simp [canSend, asked]

/-- What is accepted is added to what was, and nothing is once it has ended. -/
theorem exec_sent (c : Conn) (net : MnNet) (op : Op) (steady : ¬ Opens c op) :
    ∃ more, (c.exec net op).1.sent = c.sent ++ more ∧ (canSend c.t = false → more = []) := by
  have effect := exec_effect c net op
  generalize c.exec net op = out at effect
  cases effect with
  | connects _ _ _ free => exact absurd free steady
  | listens _ free => exact absurd free steady
  | answers => exact absurd trivial steady
  | queues _ data n _ _ ready => exact ⟨data.take n.toNat, rfl, fun shut => by simp [ready] at shut⟩
  | idles | takes | asks | drops | aborts | arrives | polls | others =>
    exact ⟨[], (List.append_nil _).symm, fun _ => rfl⟩

theorem Ended.onward (ended : Ended t) (onward : Onward t.state u.state)
    (asked : u.finQueued = t.finQueued) : Ended u := by
  rcases onward with same | closed | ⟨opening, _⟩ | ⟨_, sync⟩
  · rwa [Ended, same, asked]
  · exact Or.inl closed
  · simp [Ended, opening, synchronized] at ended
  · rcases ended with closed | ⟨_, before⟩
    · simp_all [synchronized]
    · exact Or.inr ⟨sync, asked.trans before⟩

private theorem segmentInput_ended (ended : Ended t) (open_ : t.state ≠ .closed)
    (x : XMem) (seg : TcpSeg)
    (now : UInt16) : Ended (segmentInput t x seg now).1 := by
  obtain ⟨sync, asked⟩ := ended.resolve_left open_
  have arrival := segmentInput_arrival t x seg now
  generalize segmentInput t x seg now = out at arrival
  cases arrival with
  | ignored => exact Or.inr ⟨sync, asked⟩
  | reset => exact Or.inl rfl
  | relistens state | connects state | synAgain state | accepts state =>
    simp only at state
    simp [state, synchronized] at sync
  | proceeds =>
    have settled := synchronizedInput_settled { t with statRxSeg := t.statRxSeg + 1 } x seg now
    rcases synchronizedInput_state (t := { t with statRxSeg := t.statRxSeg + 1 }) sync x seg now with
      going | closed
    · exact Or.inr ⟨going, (congrArg Settled.finQueued settled).trans asked⟩
    · exact Or.inl closed

/-- Once it has ended it stays so. -/
theorem exec_ended (ended : Ended c.t) (sock : SocketInv c.t c.now) (net : MnNet) (op : Op)
    (enabled : c.Enabled op) (steady : ¬ Opens c op) : Ended (c.exec net op).1.t := by
  have effect := exec_effect c net op
  generalize c.exec net op = out at effect
  cases effect with
  | connects _ _ _ free => exact absurd free steady
  | listens _ free => exact absurd free steady
  | answers => exact absurd trivial steady
  | queues _ _ _ _ _ ready =>
    rw [ended.shut] at ready
    cases ready
  | takes _ _ n =>
    obtain ⟨owed, same⟩ := afterRecv_socket c.t n
    rw [same]
    exact ended
  | asks sends => exact Or.inr ⟨(sending_synchronized sends).1, rfl⟩
  | drops | aborts => exact Or.inl rfl
  | arrives seg => exact segmentInput_ended ended enabled.1 c.x seg c.now
  | polls tick =>
    exact ended.onward (pollOne_steady sock c.x net tick).1
      (congrArg Kept.finQueued (pollOne_kept c.t c.x net tick))
  | idles | others => exact ended

/-- A closed socket that is not opened stays closed and silent. -/
theorem closed_exec (closed : c.t.state = .closed) (net : MnNet) (op : Op) (enabled : c.Enabled op)
    (steady : ¬ Opens c op) : (c.exec net op).1.t.state = .closed ∧ (c.exec net op).1.known = c.known ∧
      (c.exec net op).1.sent = c.sent ∧ (c.exec net op).2 = net := by
  have effect := exec_effect c net op
  generalize c.exec net op = out at effect
  cases effect with
  | connects _ _ _ free => exact absurd free steady
  | listens _ free => exact absurd free steady
  | answers => exact absurd trivial steady
  | queues _ _ _ _ _ ready => simp [canSend, closed] at ready
  | takes _ _ n =>
    obtain ⟨owed, same⟩ := afterRecv_socket c.t n
    rw [same]
    exact ⟨closed, rfl, rfl, rfl⟩
  | asks sends => simp [closed, sending] at sends
  | drops => exact ⟨rfl, rfl, rfl, rfl⟩
  | aborts _ _ _ _ gone => exact ⟨rfl, rfl, rfl, gone closed⟩
  | arrives => exact absurd closed enabled.1
  | polls tick =>
    rw [pollOne_asleep fun on => on.1 closed]
    exact ⟨closed, rfl, rfl, rfl⟩
  | idles | others => exact ⟨closed, rfl, rfl, rfl⟩

/-! ## What segments change, and what they cannot -/

private theorem synchronizedInput_side (t : MnTcp) (x : XMem) (seg : TcpSeg) (now : UInt16) :
    (synchronizedInput t x seg now).1.irs = t.irs ∧
      ((synchronizedInput t x seg now).1.flags.eof = true → t.flags.eof = true ∨
        seg.flags.fin = true) := by
  refine ⟨congrArg Settled.irs (synchronizedInput_settled t x seg now), ?_⟩
  have eof : ∀ {u v : MnTcp}, rcvSide u = rcvSide v → u.flags.eof = v.flags.eof :=
    fun same => congrArg (fun side => side.2.2.2.2.1) same
  unfold synchronizedInput
  split
  · exact Or.inl
  split
  · rw [eof (handleAck_rcvSide _ _ _), eof (outOfOrder_rcvSide t seg)]
    exact Or.inl
  · obtain ⟨count, next, owed, same⟩ :=
      takeData_socket { handleAck t seg.ack now with sndWnd := seg.wnd } x seg
    unfold inOrder
    dsimp only
    rw [eof (finAcked_rcvSide _)]
    split
    · exact fun _ => Or.inr (takeData_fin ‹_›)
    · rw [same, eof (handleAck_rcvSide t seg.ack now)]
      exact Or.inl

/-- Past SYN_SENT the peer's first sequence number stands, and only a FIN is
reported as one. -/
theorem segmentInput_side (known : t.state ≠ .synSent) (x : XMem) (seg : TcpSeg) (now : UInt16) :
    (segmentInput t x seg now).1.irs = t.irs ∧
      ((segmentInput t x seg now).1.flags.eof = true → t.flags.eof = true ∨ seg.flags.fin = true) := by
  have arrival := segmentInput_arrival t x seg now
  generalize segmentInput t x seg now = out at arrival
  cases arrival with
  | ignored | synAgain => exact ⟨rfl, Or.inl⟩
  | reset flags eof => exact ⟨rfl, fun heard => Or.inl (eof.symm.trans heard)⟩
  | relistens => exact ⟨rfl, fun heard => by cases heard⟩
  | connects state => exact absurd state known
  | accepts => exact synchronizedInput_side _ x seg now
  | proceeds => exact synchronizedInput_side _ x seg now

/-- In SYN_SENT only a SYN establishes the connection. -/
theorem synSent_establishes (state : t.state = .synSent)
    (sync : synchronized (segmentInput t x seg now).1.state = true) :
    seg.flags.syn = true ∧ seg.flags.rst = false := by
  have arrival := segmentInput_arrival t x seg now
  generalize segmentInput t x seg now = out at arrival sync
  cases arrival with
  | ignored => simp [state, synchronized] at sync
  | reset => cases sync
  | connects _ plain syn => exact ⟨syn, plain⟩
  | relistens passive | synAgain passive | accepts passive =>
    exact absurd (state.symm.trans passive) (by decide)
  | proceeds past => exact absurd state past.1

/-- In SYN_RCVD only the acknowledgement of our SYN|ACK does. -/
theorem synRcvd_establishes (state : t.state = .synRcvd)
    (sync : synchronized (segmentInput t x seg now).1.state = true) :
    seg.flags.rst = false ∧ seg.flags.syn = false ∧ seg.flags.ack = true ∧ seg.ack = t.sndNxt := by
  have arrival := segmentInput_arrival t x seg now
  generalize segmentInput t x seg now = out at arrival sync
  cases arrival with
  | ignored | synAgain => simp [state, synchronized] at sync
  | reset | relistens => cases sync
  | connects active => exact absurd (active.symm.trans state) (by decide)
  | accepts _ plain bare acks answers => exact ⟨plain, bare, acks, answers⟩
  | proceeds past => exact absurd state past.2

theorem exec_irs (sock : SocketInv c.t c.now) (known : c.t.state ≠ .synSent) (net : MnNet) (op : Op)
    (steady : ¬ Opens c op) : (c.exec net op).1.t.irs = c.t.irs := by
  by_cases arrives : ∃ seg, op = .segment seg
  · obtain ⟨seg, rfl⟩ := arrives
    exact (segmentInput_side known c.x seg c.now).1
  · exact (exec_still sock net op steady fun seg same => arrives ⟨seg, same⟩).2.1

/-- The peer's FIN is reported only when a segment with one comes. -/
theorem exec_eof (sock : SocketInv c.t c.now) (net : MnNet) (op : Op) (steady : ¬ Opens c op)
    (eof : (c.exec net op).1.t.flags.eof = true) :
    c.t.flags.eof = true ∨ ∃ seg, op = .segment seg ∧ seg.flags.fin = true := by
  by_cases arrives : ∃ seg, op = .segment seg
  · obtain ⟨seg, rfl⟩ := arrives
    by_cases opening : c.t.state = .synSent
    · have going : (segmentInput c.t c.x seg c.now).1.flags.eof = false :=
        (synSent_receives sock opening c.x seg []).2.1
      rw [show (c.exec net (.segment seg)).1.t = (segmentInput c.t c.x seg c.now).1 from rfl, going]
        at eof
      cases eof
    · exact ((segmentInput_side opening c.x seg c.now).2 eof).imp_right fun fin => ⟨seg, rfl, fin⟩
  · left
    rwa [(exec_still sock net op steady fun seg same => arrives ⟨seg, same⟩).2.2] at eof

/-- The peer's first sequence number becomes known by its SYN. -/
theorem exec_known (rec : Received c stream) (net : MnNet) (op : Op) (enabled : c.Enabled op)
    (steady : ¬ Opens c op) (known : (c.exec net op).1.known = true) : c.known = true ∨
      ∃ seg, op = .segment seg ∧ seg.flags.syn = true ∧ seg.flags.rst = false := by
  have effect := exec_effect c net op
  generalize c.exec net op = out at effect known
  cases effect with
  | connects _ _ _ free => exact absurd free steady
  | listens _ free => exact absurd free steady
  | answers => exact absurd trivial steady
  | arrives seg =>
    by_cases before : c.known = true
    · exact Or.inl before
    · have sync : synchronized (segmentInput c.t c.x seg c.now).1.state = true := by
        simpa [before] using known
      by_cases opening : c.t.state = .synSent
      · exact Or.inr ⟨seg, rfl, synSent_establishes opening sync⟩
      · refine absurd (rec.learnt ?_) before
        by_cases passive : c.t.state = .synRcvd
        · exact Or.inl passive
        · exact Or.inr (awake_past enabled ⟨opening, passive⟩)
  | idles | queues | takes | asks | drops | aborts | polls | others => exact Or.inl known

theorem exec_still_known (c : Conn) (net : MnNet) (op : Op) (steady : ¬ Opens c op)
    (known : c.known = true) :
    (c.exec net op).1.known = true := by
  have effect := exec_effect c net op
  generalize c.exec net op = out at effect
  cases effect with
  | connects _ _ _ free => exact absurd free steady
  | listens _ free => exact absurd free steady
  | answers => rfl
  | arrives => simp [known]
  | idles | queues | takes | asks | drops | aborts | polls | others => exact known

/-! ## Before the handshake is over -/

private theorem early_shut (soon : early t.state) : canSend t = false := by
  by_contra ready
  have sends := canSend_sending (by simpa using ready)
  exact synchronized_late (sending_synchronized sends).1 soon

private theorem segmentInput_early (owned : awake t.state)
    (soon : early (segmentInput t x seg now).1.state) :
    early t.state ∧ (segmentInput t x seg now).1.rcvCount = t.rcvCount := by
  have late : ∀ u, synchronized u.state = true → ¬ early (synchronizedInput u x seg now).1.state := by
    intro u sync
    rcases synchronizedInput_state sync x seg now with going | closed
    · exact synchronized_late going
    · rw [closed]
      exact closed_late
  have arrival := segmentInput_arrival t x seg now
  generalize segmentInput t x seg now = out at arrival soon
  cases arrival with
  | ignored | synAgain => exact ⟨soon, rfl⟩
  | reset => exact absurd soon closed_late
  | relistens state => exact ⟨Or.inl (congrArg handshaking state), rfl⟩
  | connects => exact absurd soon (synchronized_late rfl)
  | accepts => exact absurd soon (late _ rfl)
  | proceeds past => exact absurd soon (late _ (awake_past owned past))

private theorem exec_early (before : early c.t.state → c.sent = [] ∧ c.rcvd = [] ∧ c.t.rcvCount = 0)
    (sock : SocketInv c.t c.now) (net : MnNet) (op : Op) (enabled : c.Enabled op)
    (soon : early (c.exec net op).1.t.state) :
    (c.exec net op).1.sent = [] ∧ (c.exec net op).1.rcvd = [] ∧ (c.exec net op).1.t.rcvCount = 0 := by
  have effect := exec_effect c net op
  generalize c.exec net op = out at effect soon
  cases effect with
  | idles | others => exact before soon
  | connects ip port tick =>
    have same := sendSyn_kept (startConnect c.t net ip port tick) c.x net { syn := true }
    have empty : (kept (startConnect c.t net ip port tick)).rcvCount = 0 := rfl
    dsimp only [Conn.fresh]
    generalize sendSyn _ c.x net { syn := true } = out at same ⊢
    exact ⟨rfl, rfl, (congrArg Kept.rcvCount same).trans empty⟩
  | listens => exact ⟨rfl, rfl, rfl⟩
  | answers src seg =>
    obtain ⟨mss, _, started⟩ := startPassive_socket c.t net src seg c.now
    have same := sendSyn_kept (startPassive c.t net src seg c.now) c.x net { syn := true, ack := true }
    have empty : (kept (startPassive c.t net src seg c.now)).rcvCount = 0 := by
      rw [started]
      rfl
    dsimp only [Conn.fresh]
    generalize sendSyn _ c.x net { syn := true, ack := true } = out at same ⊢
    exact ⟨rfl, rfl, (congrArg Kept.rcvCount same).trans empty⟩
  | queues _ _ _ _ _ ready =>
    have shut : canSend c.t = false := early_shut soon
    simp [shut] at ready
  | takes _ bytes n held exact_ =>
    -- From an empty ring nothing is returned.
    obtain ⟨owed, same⟩ := afterRecv_socket c.t n
    rw [same] at soon
    obtain ⟨unsent, unread, empty⟩ := before soon
    have zero : n = 0 := eq_zero_of_toNat (by simpa [empty] using held)
    have nothing : bytes = [] := by
      rw [exact_ sock.rcvHead, zero]
      exact List.eq_nil_of_length_eq_zero (ringRead_length ..)
    rw [same, unread, nothing, zero]
    exact ⟨unsent, rfl, by simp [empty]⟩
  | asks sends => exact absurd soon (synchronized_late (sending_synchronized sends).1)
  | drops | aborts => exact absurd soon closed_late
  | arrives seg =>
    obtain ⟨was, same⟩ := segmentInput_early enabled soon
    obtain ⟨unsent, unread, empty⟩ := before was
    exact ⟨unsent, unread, same.trans empty⟩
  | polls tick =>
    obtain ⟨unsent, unread, empty⟩ := before ((pollOne_steady sock c.x net tick).1.early soon)
    exact ⟨unsent, unread, (congrArg Kept.rcvCount (pollOne_kept c.t c.x net tick)).trans empty⟩

/-- Nothing is accepted or returned before the handshake is over. -/
theorem run_early (run : Conn.Run c) (soon : early c.t.state) :
    c.sent = [] ∧ c.rcvd = [] ∧ c.t.rcvCount = 0 := by
  refine Reachable.invariant
    (motive := fun c : Conn => early c.t.state → c.sent = [] ∧ c.rcvd = [] ∧
      c.t.rcvCount = 0) ?_ ?_ run soon
  · rintro c ⟨⟨socks, n, base, member⟩, _, unsent, unread, _⟩ _
    obtain ⟨k, found⟩ := List.mem_iff_getElem?.mp member
    exact ⟨unsent, unread, (mnTcpInit_get? found).2.2.2.2.1⟩
  · rintro c _ run before ⟨net, op, enabled, rfl⟩
    exact exec_early before (Conn.Run.socketInv run) net op enabled

/-- A segment of a handshake, or a reset: it carries nothing. -/
structure Mute (seg : TcpSeg) : Prop where
  data : seg.data = []
  fin : seg.flags.fin = false
  bare : seg.flags.rst = true ∨ seg.flags.syn = true

private theorem sendSyn_mute (t : MnTcp) (x : XMem) (net : MnNet) (flags : SegFlags)
    (opens : flags.syn = true ∧ flags.fin = false) : Sends net (sendSyn t x net flags).2 Mute := by
  rw [sendSyn_net]
  exact emit_sends net ⟨buildSegment_empty t x, opens.2, Or.inr opens.1⟩

private theorem pollHandshake_mute (t : MnTcp) (x : XMem) (net : MnNet) (tick : UInt16) :
    Sends net (pollHandshake t x net tick).2 Mute := by
  have shake := pollHandshake_shake t x net tick
  generalize pollHandshake t x net tick = out at shake
  cases shake with
  | pending | again => exact sendSyn_mute _ x net _ ⟨rfl, rfl⟩
  | waits | relistens | times_out => exact Sends.nothing net _

/-- Until the connection is synchronized all it emits is mute. -/
theorem exec_mute (unsynced : synchronized c.t.state = false) (net : MnNet) (op : Op) :
    Sends net (c.exec net op).2 Mute := by
  have effect := exec_effect c net op
  generalize c.exec net op = out at effect
  cases effect with
  | connects | answers =>
    dsimp only
    exact sendSyn_mute _ c.x net _ ⟨rfl, rfl⟩
  | aborts _ _ _ sends =>
    refine sends.mono fun seg same => ?_
    rw [same]
    exact ⟨buildSegment_empty c.t c.x, rfl, Or.inl rfl⟩
  | polls tick =>
    have resting : ∀ {p : Prop}, synchronized c.t.state = true → p :=
      fun sync => by simp [unsynced] at sync
    apply pollOne_rule (motive := fun out => Sends net out.2 Mute)
    · exact fun _ => Sends.nothing net _
    · exact fun _ => pollHandshake_mute c.t c.x net tick
    · exact fun state => resting (by simp [state, synchronized])
    · exact fun sync _ => resting sync
    · exact fun sync _ _ _ => resting sync
    · exact fun sync _ _ _ _ _ => resting sync
    · exact fun sync _ _ => resting sync
  | idles | listens | queues | takes | asks | drops | arrives | others => exact Sends.nothing net _

/-! ## What a segment goes on saying -/

/-- Apart from opening a connection, every operation takes its state onward,
and only a segment ends the handshake. -/
theorem exec_onward (sock : SocketInv c.t c.now) (net : MnNet) (op : Op) (enabled : c.Enabled op)
    (steady : ¬ Opens c op) : Onward c.t.state (c.exec net op).1.t.state ∨
      (∃ seg, op = .segment seg) ∧ handshaking c.t.state = true ∧
        synchronized (c.exec net op).1.t.state = true := by
  have effect := exec_effect c net op
  generalize c.exec net op = out at effect
  cases effect with
  | connects _ _ _ free => exact absurd free steady
  | listens _ free => exact absurd free steady
  | answers => exact absurd trivial steady
  | takes _ _ n =>
    obtain ⟨owed, same⟩ := afterRecv_socket c.t n
    rw [same]
    exact Or.inl (Onward.refl _)
  | drops | aborts => exact Or.inl (Onward.closed _)
  | arrives seg =>
    exact (segmentInput_onward enabled c.x seg c.now).imp_right fun ends => ⟨⟨seg, rfl⟩, ends⟩
  | polls tick => exact Or.inl (pollOne_steady sock c.x net tick).1
  | idles | queues | asks | others => exact Or.inl (Onward.refl _)

/-- Only opening a connection wakes a socket. -/
theorem exec_awake (sock : SocketInv c.t c.now) (net : MnNet) (op : Op) (enabled : c.Enabled op)
    (steady : ¬ Opens c op) (on : awake (c.exec net op).1.t.state) : awake c.t.state := by
  rcases exec_onward sock net op enabled steady with (same | closed | ⟨_, rests⟩ | ⟨sync, _⟩) |
    ⟨_, half, _⟩
  · exact same ▸ on
  · exact absurd closed on.1
  · exact absurd rests on.2
  · exact synchronized_awake sync
  · exact handshaking_awake half

/-- A synchronized connection stays so until it is gone. -/
theorem exec_synchronized (sync : synchronized c.t.state = true)
    (sock : SocketInv c.t c.now) (net : MnNet)
    (op : Op) (enabled : c.Enabled op) (steady : ¬ Opens c op) :
    synchronized (c.exec net op).1.t.state = true ∨ (c.exec net op).1.t.state = .closed := by
  rcases exec_onward sock net op enabled steady with (same | closed | ⟨half, _⟩ | ⟨_, going⟩) |
    ⟨_, _, going⟩
  · exact Or.inl (same ▸ sync)
  · exact Or.inr closed
  · simp [half, synchronized] at sync
  · exact Or.inl going
  · exact Or.inl going

/-- Nothing opens on a connection that is synchronized. -/
theorem synchronized_steady (sync : synchronized c.t.state = true) (enabled : c.Enabled op) :
    ¬ Opens c op := by
  cases op with
  | connect => exact fun free => by simp [show c.t.state = .closed from free, synchronized] at sync
  | listen => exact fun free => by simp [free.1, synchronized] at sync
  | passiveOpen => exact fun _ => by simp [enabled.1, synchronized] at sync
  | _ => exact id

/-- A segment that repeats a piece of what a connection accepted, or its FIN
after all of it. -/
structure Genuine (c : Conn) (seg : TcpSeg) : Prop where
  data : seg.data ≠ [] → ∃ k, k + seg.data.length ≤ c.sent.length ∧
    seg.seq = place (c.t.iss + 1) k ∧ seg.data = (c.sent.drop k).take seg.data.length
  fin : seg.flags.fin = true → Ended c.t ∧ seg.data = [] ∧ seg.seq = place (c.t.iss + 1) c.sent.length

theorem Mute.genuine (mute : Mute seg) (c : Conn) : Genuine c seg where
  data := fun more => absurd mute.data more
  fin := fun fin => by simp [mute.fin] at fin

theorem exec_genuine (run : Conn.Run c) (net : MnNet) (op : Op) (enabled : c.Enabled op) (seg : TcpSeg)
    (handed : seg ∈ segmentsHanded net (c.exec net op).2) : Genuine (c.exec net op).1 seg := by
  by_cases sync : synchronized c.t.state = true
  · have issued := (exec_issues run net op).segments seg handed
    refine ⟨fun more => ?_, fun fin => ?_⟩
    · obtain ⟨k, _, rest⟩ := issued.data more
      exact ⟨k, rest⟩
    · obtain ⟨asked, rest⟩ := issued.fin fin
      refine ⟨?_, rest⟩
      rcases exec_synchronized sync run.socketInv net op enabled (synchronized_steady sync enabled) with
        going | closed
      · exact Or.inr ⟨going, asked⟩
      · exact Or.inl closed
  · exact ((exec_mute (by simpa using sync) net op).segments seg handed).genuine _

/-- What it says stays true of the connection. -/
theorem Genuine.later (genuine : Genuine c seg) (sock : SocketInv c.t c.now) (net : MnNet) (op : Op)
    (enabled : c.Enabled op) (steady : ¬ Opens c op) : Genuine (c.exec net op).1 seg := by
  have iss := exec_iss sock net op steady
  obtain ⟨more, sent, shut⟩ := exec_sent c net op steady
  refine ⟨fun some_ => ?_, fun fin => ?_⟩
  · obtain ⟨k, within, at_, piece⟩ := genuine.data some_
    refine ⟨k, ?_, iss ▸ at_, ?_⟩
    · rw [sent, List.length_append]
      omega
    · rw [sent, List.drop_append_of_le_length (by omega),
        List.take_append_of_le_length (by rw [List.length_drop]; omega)]
      exact piece
  · obtain ⟨ended, empty, at_⟩ := genuine.fin fin
    refine ⟨exec_ended ended sock net op enabled steady, empty, ?_⟩
    rw [sent, shut ended.shut, List.append_nil, iss]
    exact at_

/-- To a peer whose stream begins where it says, it is consistent with that
stream. -/
theorem Genuine.carries (genuine : Genuine c seg) (short : c.sent.length < 2 ^ 32)
    (same : irs = c.t.iss) : Carries c.sent irs seg := by
  refine ⟨fun i byte held => ?_, fun fin => ?_⟩
  · have below : i < seg.data.length := (List.getElem?_eq_some_iff.mp held).1
    obtain ⟨k, within, at_, piece⟩ := genuine.data (List.ne_nil_of_length_pos (by omega))
    have spot : seg.seq + UInt32.ofNat i - irs - 1 = UInt32.ofNat (k + i) := by
      rw [at_, same, place, UInt32.ofNat_add]
      grind
    rw [spot, UInt32.toNat_ofNat', Nat.mod_eq_of_lt (by omega), ← List.getElem?_drop,
      ← List.getElem?_take_of_lt below, ← piece]
    exact held
  · obtain ⟨_, empty, at_⟩ := genuine.fin fin
    have dlen : seg.dlen = 0 := by
      rw [← UInt16.toNat_inj, dlen_toNat, empty]
      rfl
    rw [at_, dlen, same]
    exact UInt32.add_zero _

theorem Mute.carries (mute : Mute seg) (stream : List UInt8) (irs : UInt32) :
    Carries stream irs seg where
  data := fun i byte held => by simp [mute.data] at held
  fin := fun fin => by simp [mute.fin] at fin

end MegaNet.TcpLifetime
