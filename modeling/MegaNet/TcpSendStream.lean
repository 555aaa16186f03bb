import MegaNet.TcpConnection
import MegaNet.XmemRings

/-! The send stream of one connection against any peer: what the send ring
and the sequence numbers say of the bytes the application handed over, and
that every segment the connection emits carries its place of that stream. -/
namespace MegaNet.TcpSendStream
open MegaNet.Core SerialNumber Words CircularBuffer XmemRings TcpEmission TcpSocketInvariant TcpOutcomes
  TcpPreservation TcpConnection Transition

/-- How many of the bytes sent have left the send ring acknowledged. -/
def acked (t : MnTcp) (sent : List UInt8) : Nat := sent.length - t.sndLen.toNat

/-- The send ring's bytes, from `pos` on. -/
def sndWindow (t : MnTcp) (x : XMem) (pos len : Nat) : List UInt8 :=
  window x (home t + 4096) 3072 pos len

/-- The ring holds the stream from the first unacknowledged byte on, and
`snd_nxt` stands after the bytes in flight and the FIN. -/
structure SendInv (t : MnTcp) (x : XMem) (sent : List UInt8) : Prop where
  within : t.sndLen.toNat ≤ sent.length
  ring : sndWindow t x t.sndHead.toNat t.sndLen.toNat = sent.drop (acked t sent)
  next : t.sndNxt = place (t.iss + 1) (acked t sent + t.inflight.toNat + t.finSent.toNat)
  opening : handshaking t.state = true → sent = []

/-- Only the send ring's cells matter. -/
theorem SendInv.elsewhere (inv : SendInv t x sent)
    (same : ∀ a, home t + 4096 ≤ a → a < home t + 7168 → x' a = x a) : SendInv t x' sent :=
  { inv with
    ring := by
      rw [← inv.ring]
      exact window_congr (by decide) fun a low high => same a low (by omega) }

theorem SendInv.begun (t : MnTcp) (x : XMem) (empty : t.sndLen = 0) (none : t.inflight = 0)
    (unsent : t.finSent = false) (next : t.sndNxt = t.iss + 1) : SendInv t x [] where
  within := by simp [empty]
  ring := by simp [empty, sndWindow]
  next := by simp [acked, none, unsent, next]
  opening := fun _ => rfl

private theorem handleAck_sends (inv : SendInv t x sent) (sock : SocketInv t now)
    (sync : synchronized t.state = true) (ack : UInt32) (tick : UInt16) :
    SendInv (handleAck t ack tick) x sent := by
  have within := inv.within
  have flight := sock.inflight
  obtain same | ⟨n, same, covered, _⟩ := handleAck_cases sock sync ack tick
  · rw [same]
    exact inv
  have shorter := toNat_less (a := t.sndLen) (b := n) (by omega)
  have fewer := toNat_less covered
  have further : acked (retired t ack n tick) sent = acked t sent + n.toNat := by
    simp only [acked, retired, shorter]
    omega
  have room := sock.sndLen
  have start := sock.sndHead
  have head : ((t.sndHead + n) % MN_TCP_SNDBUF).toNat = (t.sndHead.toNat + n.toNat) % 3072 :=
    toNat_turn (by omega)
  rw [same]
  refine ⟨?_, ?_, ?_, ?_⟩
  · simp only [retired, shorter]
    omega
  · rw [further, ← List.drop_drop, ← inv.ring]
    simp only [sndWindow, retired, shorter, head, window_mod]
    rw [window_drop (by omega)]
    rfl
  · rw [further]
    simp only [retired, fewer, inv.next]
    congr 1
    omega
  · intro half
    exact inv.opening half

private theorem outOfOrder_sends (inv : SendInv t x sent) (seg : TcpSeg) :
    SendInv (outOfOrder t seg) x sent := by
  obtain ⟨ooo, owed, same⟩ := outOfOrder_socket t seg
  rw [same]
  exact { inv with }

theorem dlen_toNat (seg : TcpSeg) : seg.dlen.toNat = seg.data.length := by
  have := seg.dataFits
  rw [TcpSeg.dlen, UInt16.toNat_ofNat']
  omega

/-- Storing a payload appends as much of it as fits to the receive ring. -/
theorem ringPut_spec (sock : SocketInv t now) (placed : Placed t) (x : XMem) (seg : TcpSeg) :
    ∃ n : UInt16, n.toNat = min seg.data.length (4096 - t.rcvCount.toNat) ∧
      ringPut t x seg.data seg.dlen = (n, { t with rcvCount := t.rcvCount + n },
        deposit x (home t) 4096 (t.rcvHead.toNat + t.rcvCount.toNat) (seg.data.take n.toNat)) := by
  have count := sock.rcvCount
  have head := sock.rcvHead
  have fits := placed.fits
  have most := toNat_clamp seg.dlen (rcvFree t)
  rw [rcvFree_toNat sock, dlen_toNat] at most
  refine ⟨_, most, ?_⟩
  unfold ringPut
  dsimp only
  generalize (if seg.dlen > rcvFree t then rcvFree t else seg.dlen) = n at most ⊢
  congr 2
  split
  · rename_i none
    rw [none]
    simp
  · have tail : ((t.rcvHead + t.rcvCount) % MN_TCP_RCVBUF).toNat =
        (t.rcvHead.toNat + t.rcvCount.toNat) % 4096 := toNat_turn (by omega)
    rw [ringWrite_deposit (by rw [rcvbuf_toNat]; omega)
      (by rw [tail, rcvbuf_toNat]; exact Nat.mod_lt _ (by decide)) (by rw [rcvbuf_toNat]; omega)
      (by omega), tail, rcvbuf_toNat, deposit_mod]
    rfl

/-- Taking a payload writes the receive ring and nothing else of the pool. -/
theorem takeData_outside (sock : SocketInv t now) (placed : Placed t) (x : XMem) (seg : TcpSeg) (a : Nat)
    (outside : a < home t ∨ home t + 4096 ≤ a) : (takeData t x seg).2.1 a = x a := by
  unfold takeData
  split
  · rfl
  split
  · obtain ⟨n, _, same⟩ := ringPut_spec sock placed x seg
    rw [same]
    exact deposit_outside outside
  · rfl

private theorem takeData_sends (inv : SendInv t x sent) (sock : SocketInv t now) (placed : Placed t)
    (seg : TcpSeg) : SendInv (takeData t x seg).1 (takeData t x seg).2.1 sent := by
  have stored : SendInv t (takeData t x seg).2.1 sent :=
    inv.elsewhere fun a low _ => takeData_outside sock placed x seg a (Or.inr low)
  obtain ⟨count, next, owed, same⟩ := takeData_socket t x seg
  rw [same]
  exact { stored with }

private theorem finAcked_sends (inv : SendInv t x sent) : SendInv (finAcked t) x sent := by
  obtain same | same := finAcked_socket t <;> rw [same]
  · exact inv
  · exact { inv with opening := fun half => inv.opening (by simpa using half) }

private theorem takeFin_sends (inv : SendInv t x sent) : SendInv (takeFin t) x sent :=
  { inv with opening := fun half => inv.opening (by simpa [takeFin] using half) }

private theorem inOrder_sends (inv : SendInv t x sent) (sock : SocketInv t now) (placed : Placed t)
    (sync : synchronized t.state = true) (seg : TcpSeg) :
    SendInv (inOrder t x seg now).1 (inOrder t x seg now).2 sent := by
  have retired : SendInv { handleAck t seg.ack now with sndWnd := seg.wnd } x sent :=
    { handleAck_sends inv sock sync seg.ack now with }
  have at_home : Placed { handleAck t seg.ack now with sndWnd := seg.wnd } :=
    placed.settled (handleAck_settled t seg.ack now)
  have stored := takeData_sends retired (acked_keeps sock sync seg).1 at_home seg
  unfold inOrder
  dsimp only
  split
  · exact finAcked_sends (takeFin_sends stored)
  · exact finAcked_sends stored

private theorem synchronizedInput_sends (inv : SendInv t x sent) (sock : SocketInv t now)
    (placed : Placed t)
    (sync : synchronized t.state = true) (seg : TcpSeg) :
    SendInv (synchronizedInput t x seg now).1 (synchronizedInput t x seg now).2 sent := by
  unfold synchronizedInput
  split
  · exact inv
  split
  · obtain ⟨kept, state⟩ := outOfOrder_keeps sock seg
    exact handleAck_sends (outOfOrder_sends inv seg) kept (state ▸ sync) seg.ack now
  · exact inOrder_sends inv sock placed sync seg

/-- A segment, whatever it acknowledges and carries, leaves the send stream as
it should be. -/
theorem segmentInput_sends (inv : SendInv t x sent) (sock : SocketInv t now) (placed : Placed t)
    (owned : awake t.state) (seg : TcpSeg) :
    SendInv (segmentInput t x seg now).1 (segmentInput t x seg now).2 sent := by
  have counted : SendInv { t with statRxSeg := t.statRxSeg + 1 } x sent := { inv with }
  have kept : SocketInv { t with statRxSeg := t.statRxSeg + 1 } now := { sock with }
  have at_home : Placed { t with statRxSeg := t.statRxSeg + 1 } := { placed with }
  have arrival := segmentInput_arrival t x seg now
  generalize segmentInput t x seg now = out at arrival
  cases arrival with
  | ignored => exact counted
  | reset | relistens => exact { counted with opening := fun half => by cases half }
  | connects state => exact { counted with opening := fun half => by cases half }
  | synAgain => exact { counted with }
  | accepts state =>
    have opened : SendInv (accepted { t with statRxSeg := t.statRxSeg + 1 }) x sent :=
      { counted with opening := fun half => by cases half }
    exact synchronizedInput_sends opened (accepted_keeps kept state) { at_home with } rfl seg
  | proceeds past => exact synchronizedInput_sends counted kept at_home (awake_past owned past) seg

/-! ## Calls -/

private theorem sendSyn_sends (inv : SendInv t x sent) (net : MnNet) (flags : SegFlags) :
    SendInv (sendSyn t x net flags).1 x sent := by
  obtain ⟨edge, stat, pending, same⟩ := sendSyn_socket t x net flags
  rw [same]
  exact { inv with }

/-- Queueing more bytes appends them to the ring and to the stream alike. -/
theorem SendInv.queue (inv : SendInv t x sent) (sock : SocketInv t now) (placed : Placed t)
    (ready : canSend t = true) (data : List UInt8) (len : UInt16) (held : len.toNat ≤ data.length)
    (fits : len.toNat ≤ 3072 - t.sndLen.toNat) :
    SendInv { t with sndLen := t.sndLen + len, txPending := true }
      (ringWrite x t.xseg t.sndbuf MN_TCP_SNDBUF ((t.sndHead + t.sndLen) % MN_TCP_SNDBUF) data len)
      (sent ++ data.take len.toNat) := by
  have within := inv.within
  have room := sock.sndLen
  have head := sock.sndHead
  have fit := placed.fits
  have longer : (t.sndLen + len).toNat = t.sndLen.toNat + len.toNat := toNat_more (by omega)
  have tail : ((t.sndHead + t.sndLen) % MN_TCP_SNDBUF).toNat =
      (t.sndHead.toNat + t.sndLen.toNat) % 3072 := toNat_turn (by omega)
  obtain ⟨after, base⟩ := placed.sndbuf_home
  have taken : (data.take len.toNat).length = len.toNat := by simp [held]
  have same : acked { t with sndLen := t.sndLen + len, txPending := true }
    (sent ++ data.take len.toNat) =
      acked t sent := by
    simp only [acked, longer, List.length_append, taken]
    omega
  refine ⟨?_, ?_, ?_, ?_⟩
  · simp only [longer, List.length_append, taken]
    omega
  · rw [same, List.drop_append_of_le_length (by unfold acked; omega), ← inv.ring,
      ringWrite_deposit (by rw [sndbuf_toNat]; omega)
        (by rw [tail, sndbuf_toNat]; exact Nat.mod_lt _ (by decide))
        (by rw [sndbuf_toNat]; omega) held, tail, sndbuf_toNat, deposit_mod, base]
    have appended : window (deposit x (home t + 4096) 3072 (t.sndHead.toNat + t.sndLen.toNat)
        (data.take len.toNat)) (home t + 4096) 3072 t.sndHead.toNat
          (t.sndLen.toNat + (data.take len.toNat).length) =
        sndWindow t x t.sndHead.toNat t.sndLen.toNat ++ data.take len.toNat :=
      window_deposit_append (by omega)
    rw [taken] at appended
    simp only [sndWindow, longer]
    exact appended
  · rw [same]
    exact inv.next
  · intro half
    simp [synchronized_settled (sending_synchronized (canSend_sending ready)).1] at half

/-- Queueing writes the send ring and nothing else of the pool. -/
theorem sndRing_outside (placed : Placed t) (x : XMem) (data : List UInt8) (len : UInt16)
    (held : len.toNat ≤ data.length) (short : len.toNat ≤ 3072) (a : Nat)
    (outside : a < home t + 4096 ∨ home t + 7168 ≤ a) :
    ringWrite x t.xseg t.sndbuf MN_TCP_SNDBUF ((t.sndHead + t.sndLen) % MN_TCP_SNDBUF) data len a =
      x a := by
  have fits := placed.fits
  obtain ⟨after, base⟩ := placed.sndbuf_home
  rw [ringWrite_deposit (by rw [sndbuf_toNat]; omega) (ring_end t) short held, base]
  exact deposit_outside (by rw [sndbuf_toNat]; omega)

private theorem afterRecv_sends (inv : SendInv t x sent) (n : UInt16) : SendInv
    (afterRecv t n) x sent := by
  obtain ⟨owed, same⟩ := afterRecv_socket t n
  rw [same]
  exact { inv with }

/-! ## Polls, and the segments they emit -/

/-- What a segment of a connection says: payload bytes are the stream's at the
segment's sequence number and not yet acknowledged, a FIN stands at its end
and the application has asked for it, a SYN stands before its start, and an
acknowledgement is `rcv_nxt`. -/
structure Issued (iss rcvNxt : UInt32) (closing : Bool) (sent : List UInt8) (unacked : Nat)
    (seg : TcpSeg) : Prop where
  data : seg.data ≠ [] → ∃ k, unacked ≤ k ∧ k + seg.data.length ≤ sent.length ∧
    seg.seq = place (iss + 1) k ∧ seg.data = (sent.drop k).take seg.data.length
  fin : seg.flags.fin = true →
    closing = true ∧ seg.data = [] ∧ seg.seq = place (iss + 1) sent.length
  syn : seg.flags.syn = true → seg.data = [] ∧ seg.flags.fin = false ∧ seg.seq = iss
  ack : seg.flags.ack = true → seg.ack = rcvNxt

private theorem issued_kept (same : kept u = kept t) :
    (Issued u.iss u.rcvNxt u.finQueued sent unacked : TcpSeg → Prop) =
      Issued t.iss t.rcvNxt t.finQueued sent unacked := by
  have iss : u.iss = t.iss := congrArg (fun k => k.identity.iss) same
  have next : u.rcvNxt = t.rcvNxt := congrArg Kept.rcvNxt same
  have closing : u.finQueued = t.finQueued := congrArg Kept.finQueued same
  rw [iss, next, closing]

/-- Reading the send ring from `off` past its head. -/
theorem sndRing_read (sock : SocketInv t now) (placed : Placed t) (off len : UInt16)
    (within : off.toNat + len.toNat ≤ t.sndLen.toNat) :
    ringRead x t.xseg t.sndbuf MN_TCP_SNDBUF ((t.sndHead + off) % MN_TCP_SNDBUF) len =
      sndWindow t x (t.sndHead.toNat + off.toNat) len.toNat := by
  have head := sock.sndHead
  have room := sock.sndLen
  have fit := placed.fits
  have start : ((t.sndHead + off) % MN_TCP_SNDBUF).toNat = (t.sndHead.toNat + off.toNat) % 3072 :=
    toNat_turn (by omega)
  obtain ⟨after, base⟩ := placed.sndbuf_home
  rw [ringRead_window (by rw [sndbuf_toNat]; omega)
    (by rw [start, sndbuf_toNat]; exact Nat.mod_lt _ (by decide)) (by rw [sndbuf_toNat]; omega),
    start, sndbuf_toNat, window_mod, base]
  rfl

theorem buildSegment_data (inv : SendInv t x sent) (sock : SocketInv t now) (placed : Placed t)
    (off len : UInt16) (within : off.toNat + len.toNat ≤ t.sndLen.toNat) :
    (buildSegment t x flags seq off len mss).data =
      (sent.drop (acked t sent + off.toNat)).take len.toNat := by
  unfold buildSegment
  dsimp only
  rw [sndRing_read sock placed off len within, sndWindow, window_slice within, ← List.drop_drop,
    ← inv.ring]
  rfl

theorem buildSegment_empty (t : MnTcp) (x : XMem) :
    (buildSegment t x flags seq off 0 mss).data = [] :=
  List.eq_nil_of_length_eq_zero (by simp [buildSegment, ringRead_length])

/-- A segment without payload, FIN or SYN. -/
theorem Issued.bare (t : MnTcp) (x : XMem) (seq : UInt32) (sent : List UInt8) (unacked : Nat)
    (flags : SegFlags) (plain : flags.fin = false ∧ flags.syn = false) (closing : Bool) :
    Issued t.iss t.rcvNxt closing sent unacked (buildSegment t x flags seq 0 0 false) where
  data := fun more => absurd (buildSegment_empty t x) more
  fin := fun fin => by simp [buildSegment, plain.1] at fin
  syn := fun syn => by simp [buildSegment, plain.2] at syn
  ack := fun ack => by
    simp only [buildSegment] at ack ⊢
    simp [ack]

theorem Issued.opens (t : MnTcp) (x : XMem) (sent : List UInt8) (unacked : Nat) (flags : SegFlags)
    (plain : flags.fin = false) :
    Issued t.iss t.rcvNxt t.finQueued sent unacked (buildSegment t x flags t.iss off 0 mss) where
  data := fun more => absurd (buildSegment_empty t x) more
  fin := fun fin => by simp [buildSegment, plain] at fin
  syn := fun _ => ⟨buildSegment_empty t x, plain, rfl⟩
  ack := fun ack => by
    simp only [buildSegment] at ack ⊢
    simp [ack]

theorem Issued.payload (seq : UInt32) (inv : SendInv t x sent) (sock : SocketInv t now)
    (placed : Placed t)
    (off len : UInt16) (within : off.toNat + len.toNat ≤ t.sndLen.toNat)
    (at_ : seq = place (t.iss + 1) (acked t sent + off.toNat)) :
    Issued t.iss t.rcvNxt t.finQueued sent (acked t sent)
      (buildSegment t x dataFlags seq off len false) := by
  have data : (buildSegment t x dataFlags seq off len false).data = _ :=
    buildSegment_data inv sock placed off len within
  have held := inv.within
  have length : (buildSegment t x dataFlags seq off len false).data.length = len.toNat :=
    ringRead_length ..
  refine ⟨fun _ => ⟨_, Nat.le_add_right _ off.toNat, ?_, at_, ?_⟩, ?_, ?_, ?_⟩
  · rw [length]
    simp only [acked]
    omega
  · rw [length]
    exact data
  · intro fin
    cases fin
  · intro syn
    cases syn
  · intro _
    rfl

theorem Issued.last (t : MnTcp) (x : XMem) (seq : UInt32) (sent : List UInt8) (unacked : Nat)
    (closing : t.finQueued = true) (at_ : seq = place (t.iss + 1) sent.length) :
    Issued t.iss t.rcvNxt t.finQueued sent unacked (buildSegment t x finFlags seq 0 0 false) where
  data := fun more => absurd (buildSegment_empty t x) more
  fin := fun _ => ⟨closing, buildSegment_empty t x, at_⟩
  syn := fun syn => by cases syn
  ack := fun _ => rfl

private theorem emit_keeps_stream (inv : SendInv t x sent) (net : MnNet)
    (flags : SegFlags) (seq : UInt32)
    (off len : UInt16) (mss : Bool) : SendInv (emit t x net flags seq off len mss).2.1 x sent := by
  obtain ⟨edge, stat, same⟩ := emit_socket t x net flags seq off len mss
  rw [same]
  exact { inv with }

private theorem sendSyn_issues (t : MnTcp) (x : XMem) (net : MnNet)
    (flags : SegFlags) (sent : List UInt8)
    (unacked : Nat) (plain : flags.fin = false) :
    Sends net (sendSyn t x net flags).2 (Issued t.iss t.rcvNxt t.finQueued sent unacked) := by
  rw [sendSyn_net]
  exact emit_sends _ (Issued.opens t x sent unacked flags plain)

/-- A socket goes on holding its stream, and what it hands to the link says
its place of it. -/
def Speaks (t : MnTcp) (x : XMem) (sent : List UInt8) (net : MnNet) (out : MnTcp × MnNet) : Prop :=
  SendInv out.1 x sent ∧ Sends net out.2 (Issued t.iss t.rcvNxt t.finQueued sent (acked t sent))

private theorem resendSyn_sends (inv : SendInv t x sent) (net : MnNet) (tick : UInt16) :
    Speaks t x sent net (resendSyn t x net tick) := by
  have stamped : SendInv { t with sentAt := tick } x sent := { inv with }
  exact ⟨sendSyn_sends stamped net _, sendSyn_issues { t with sentAt := tick } x net _ sent _ rfl⟩

private theorem pollHandshake_sends (inv : SendInv t x sent)
    (half : handshaking t.state = true) (net : MnNet)
    (tick : UInt16) : Speaks t x sent net (pollHandshake t x net tick) := by
  have quiet := inv.opening half
  have shake := pollHandshake_shake t x net tick
  generalize pollHandshake t x net tick = out at shake
  cases shake with
  | waits => exact ⟨inv, Sends.nothing net _⟩
  | pending => exact resendSyn_sends inv net tick
  | again =>
    have again : SendInv (retried t) x sent := { inv with }
    exact resendSyn_sends again net tick
  | relistens | times_out => exact ⟨{ inv with opening := fun _ => quiet }, Sends.nothing net _⟩

private theorem pollTimeWait_sends (inv : SendInv t x sent) (state : t.state = .timeWait) (net : MnNet)
    (tick : UInt16) : Speaks t x sent net (pollTimeWait t x net tick) := by
  refine ⟨?_, ?_⟩
  · obtain ⟨owed, edge, stat, since, dest, how, same⟩ := pollTimeWait_socket t x net tick
    have closing : handshaking dest = false := by
      rcases how with rfl | rfl
      · exact congrArg handshaking state
      · rfl
    rw [same]
    exact { inv with opening := fun half => by simp [closing] at half }
  · rw [pollTimeWait_net]
    split
    · exact emit_sends _ (Issued.bare { t with ackPending := false } x _ sent _ ackFlags ⟨rfl, rfl⟩ _)
    · exact Sends.nothing net _

/-- Before our FIN goes out, `snd_una` is the place of the first byte still
in the ring. -/
theorem unacked_place (inv : SendInv t x sent) (sock : SocketInv t now)
    (sync : synchronized t.state = true) (unsent : t.finSent = false) :
    t.sndUna = place (t.iss + 1) (acked t sent) := by
  have span := sock.span sync
  have next := inv.next
  simp only [unsent, Bool.false_eq_true, if_false, Bool.toNat_false, Nat.add_zero, place_add]
    at span next
  rw [span, UInt32.ofNat_uInt16ToNat] at next
  exact (UInt32.add_left_inj _).mp next

/-- `snd_una` is the place of the first byte still in the ring, or has passed
the FIN. -/
theorem una_place (inv : SendInv t x sent) (sock : SocketInv t now)
    (sync : synchronized t.state = true) :
    t.sndUna = place (t.iss + 1) (acked t sent) ∨
      acked t sent = sent.length ∧ t.finSent = true ∧
        t.sndUna = place (t.iss + 1) (acked t sent + 1) := by
  cases fin : t.finSent with
  | false => exact Or.inl (unacked_place inv sock sync fin)
  | true =>
    have empty := (sock.finished sync (sock.out fin)).2.2
    have span := sock.span sync
    have next := inv.next
    rw [fin, Bool.toNat_true, sock.idle empty, UInt16.toNat_zero, Nat.add_zero] at next
    simp only [fin, if_true] at span
    rcases span with one | none
    · left
      rw [one, place_succ] at next
      exact (UInt32.add_left_inj _).mp next
    · exact Or.inr ⟨by simp [acked, empty], rfl, none ▸ next⟩

private theorem retransmit_sends (inv : SendInv t x sent) (sock : SocketInv t now) (placed : Placed t)
    (sync : synchronized t.state = true) (due : retransmitDue t tick = true) (net : MnNet) :
    Speaks t x sent net (retransmit t x net tick) := by
  have flight := sock.inflight
  have backed : SendInv (resent t tick) x sent := { inv with }
  have again := retransmit_retransmission t x net tick
  generalize retransmit t x net tick = out at again
  cases again with
  | times_out => exact ⟨{ inv with opening := fun half => by cases half }, Sends.nothing net _⟩
  | data _ flying =>
    refine ⟨emit_keeps_stream backed .., emit_sends _ ?_⟩
    have oldest := Issued.payload t.sndUna inv sock placed 0 (oldest t)
      (by rw [oldest, toNat_clamp, UInt16.toNat_zero]; omega)
      (by
        rw [UInt16.toNat_zero, Nat.add_zero]
        exact unacked_place inv sock sync (sock.unfinished_flying sync flying))
    exact { oldest with }
  | fin _ idle =>
    have fin : t.finSent = true := by
      simp only [retransmitDue, Bool.and_eq_true, Bool.or_eq_true] at due
      simpa [idle] using due.1
    obtain ⟨_, wanted, empty⟩ := sock.finished sync (sock.out fin)
    refine ⟨emit_keeps_stream backed .., emit_sends _ ?_⟩
    have next := inv.next
    rw [fin, idle, acked, empty] at next
    simp only [UInt16.toNat_zero, Nat.sub_zero, Nat.add_zero, Bool.toNat_true, place_succ] at next
    have last := Issued.last t x (t.sndNxt - 1) sent (acked t sent) wanted
      (by rw [next, UInt32.add_sub_cancel])
    exact { last with }

/-- One turn of the send loop, whose segment the link queued. -/
private theorem launched_sends (inv : SendInv t x sent) (sync : synchronized t.state = true)
    (unsent : t.finSent = false) (n tick : UInt16)
    (within : t.inflight.toNat + n.toNat ≤ t.sndLen.toNat) :
    SendInv (launched t n tick) x sent :=
  { inv with
    next := by
      have next := inv.next
      have := t.sndLen.toNat_lt
      have longer : (t.inflight + n).toNat = t.inflight.toNat + n.toNat := toNat_more (by omega)
      simp only [unsent, Bool.toNat_false, Nat.add_zero] at next
      simp only [launched, acked, longer, unsent, Bool.toNat_false, Nat.add_zero, ← Nat.add_assoc]
      rw [place_add, UInt32.ofNat_uInt16ToNat, next]
      rfl
    opening := fun half => by simp [launched, synchronized_settled sync] at half }

/-- What the send loop keeps of the socket `t` it started from. -/
private structure Looping (t : MnTcp) (x : XMem) (sent : List UInt8) (now : UInt16)
    (u : MnTcp) : Prop where
  stream : SendInv u x sent
  sock : SocketInv u now
  pending : u.txPending = true
  state : u.state = t.state
  same : kept u = kept t

private theorem sendQueued_sends (inv : SendInv t x sent) (sock : SocketInv t now) (placed : Placed t)
    (sync : synchronized t.state = true) (pending : t.txPending = true) (net : MnNet) :
    Speaks t x sent net (sendQueued t x net now) := by
  have looped := sendLoop_rule
    (motive := fun u after => Looping t x sent now u ∧
      Sends net after (Issued t.iss t.rcvNxt t.finQueued sent (acked t sent)))
    x now (sendLimit t) (by
      rintro u after ⟨loop, sends⟩ more open_
      have open_sync : synchronized u.state = true := loop.state ▸ sync
      have unsent := loop.sock.unfinished (loop.sock.unsent open_sync more)
      have size := nextLength_spec more open_
      have within : u.inflight.toNat + (nextLength u (sendLimit t)).toNat ≤ u.sndLen.toNat := by
        rw [UInt16.lt_iff_toNat_lt] at more
        omega
      have next := loop.stream.next
      rw [unsent, Bool.toNat_false, Nat.add_zero] at next
      have carried := Issued.payload _ loop.stream loop.sock
        (placed.moved (identity_rings (kept_identity loop.same)))
        u.inflight (nextLength u (sendLimit t)) within next
      have queue : u.sndLen = t.sndLen := congrArg Kept.sndLen loop.same
      have left : acked u sent = acked t sent := by rw [acked, acked, queue]
      rw [issued_kept loop.same, left] at carried
      obtain ⟨edge, stat, same⟩ :=
        emit_socket u x after dataFlags u.sndNxt u.inflight (nextLength u (sendLimit t)) false
      have stamped : Looping t x sent now { u with advEdge := edge, statTxSeg := stat } :=
        { loop with stream := { loop.stream with }, sock := { loop.sock with } }
      refine ⟨?_, sends.trans (emit_sends _ carried)⟩
      rw [same]
      split
      · exact { stamped with
          stream := launched_sends stamped.stream open_sync unsent _ now within
          sock := launched_keeps stamped.sock open_sync more open_ stamped.pending }
      · exact stamped)
    t.sndLen.toNat t net ⟨⟨inv, sock, pending, rfl, rfl⟩, Sends.nothing net _⟩
  exact ⟨{ looped.1.stream with }, looped.2⟩

private theorem sendFin_sends (inv : SendInv t x sent) (closing : t.finQueued = true)
    (unsent : t.finSent = false)
    (idle : t.inflight = 0) (empty : t.sndLen = 0) (net : MnNet) (tick : UInt16) :
    Speaks t x sent net (sendFin t x net tick) := by
  have next := inv.next
  rw [unsent, idle, acked, empty] at next
  simp only [UInt16.toNat_zero, Nat.sub_zero, Nat.add_zero, Bool.toNat_false] at next
  refine ⟨?_, ?_⟩
  · obtain ⟨edge, stat, same | same⟩ := sendFin_socket t x net tick <;> rw [same]
    · exact { inv with }
    · exact { inv with
        next := by
          simp only [finished, acked, empty, idle, next, UInt16.toNat_zero, Nat.sub_zero, Nat.add_zero,
            Bool.toNat_true, place_succ]
        opening := fun half => by
          revert half
          simp only [finished]
          split <;> simp [handshaking] }
  · rw [sendFin_net]
    exact emit_sends net (Issued.last t x t.sndNxt sent (acked t sent) closing next)

private theorem sendAck_sends (inv : SendInv t x sent) (net : MnNet) : Speaks t x sent net
    (sendAck t x net) := by
  refine ⟨?_, ?_⟩
  · obtain ⟨edge, stat, owed, same⟩ := sendAck_socket t x net
    rw [same]
    exact { inv with }
  · rw [sendAck_net]
    exact emit_sends _ (Issued.bare t x _ sent _ ackFlags ⟨rfl, rfl⟩ _)

/-- A poll keeps the send stream, and each segment it emits says its place. -/
theorem pollOne_sends (inv : SendInv t x sent) (sock : SocketInv t now) (placed : Placed t) (net : MnNet)
    (tick : UInt16) : Speaks t x sent net (pollOne t x net tick) := by
  apply pollOne_rule
  · exact fun _ => ⟨inv, Sends.nothing net _⟩
  · exact fun half => pollHandshake_sends inv half net tick
  · exact fun state => pollTimeWait_sends inv state net tick
  · exact fun sync due => retransmit_sends inv sock placed sync due net
  · exact fun sync quiet pending _ =>
      sendQueued_sends inv (not_due sock fun _ => quiet) placed sync pending net
  · exact fun _ _ wanted unsent idle empty => sendFin_sends inv wanted unsent idle empty net tick
  · exact fun _ _ _ => sendAck_sends inv net

/-! ## A whole run -/

variable {c : Conn}

private theorem exec_sends (inv : awake c.t.state → SendInv c.t c.x c.sent) (sock : SocketInv c.t c.now)
    (placed : Placed c.t) (net : MnNet) (op : Op) (enabled : c.Enabled op)
    (after : awake (c.exec net op).1.t.state) :
    SendInv (c.exec net op).1.t (c.exec net op).1.x (c.exec net op).1.sent := by
  have effect := exec_effect c net op
  generalize c.exec net op = out at effect after
  cases effect with
  | idles => exact inv after
  | connects => exact sendSyn_sends (SendInv.begun _ c.x rfl rfl rfl rfl) net _
  | listens => exact absurd rfl after.2
  | answers src seg =>
    obtain ⟨mss, _, same⟩ := startPassive_socket c.t net src seg c.now
    have begun : SendInv (startPassive c.t net src seg c.now) c.x [] := by
      rw [same]
      exact SendInv.begun _ c.x rfl rfl rfl rfl
    exact sendSyn_sends begun net _
  | queues _ data n len room ready held =>
    exact (inv after).queue sock placed ready data n (held enabled) (room ▸ sendRoom_le sock len)
  | takes _ _ n =>
    obtain ⟨owed, same⟩ := afterRecv_socket c.t n
    simp only [same] at after
    exact afterRecv_sends (inv after) n
  | asks => exact { inv after with }
  | drops | aborts => exact absurd rfl after.1
  | arrives seg => exact segmentInput_sends (inv enabled) sock placed enabled seg
  | polls tick =>
    by_cases before : awake c.t.state
    · exact (pollOne_sends (inv before) sock placed net tick).1
    · dsimp only at after
      rw [pollOne_asleep before] at after
      exact absurd after before
  | others x => exact (inv after).elsewhere fun a low high => enabled a (by omega) high

/-- A connection's send ring and sequence numbers in every state of its life. -/
theorem run_sends (run : Conn.Run c) (on : awake c.t.state) : SendInv c.t c.x c.sent := by
  refine Reachable.invariant (motive := fun c : Conn => awake c.t.state → SendInv c.t c.x c.sent)
    ?_ ?_ run on
  · rintro c ⟨⟨socks, n, base, member⟩, _⟩ on
    obtain ⟨k, found⟩ := List.mem_iff_getElem?.mp member
    exact absurd (mnTcpInit_get? found).2.2.2.1 on.1
  · rintro c _ run inv ⟨net, op, enabled, rfl⟩
    exact exec_sends inv (Conn.Run.socketInv run) (Conn.Run.placed run) net op enabled

theorem exec_issues (run : Conn.Run c) (net : MnNet) (op : Op) :
    Sends net (c.exec net op).2
      (Issued (c.exec net op).1.t.iss (c.exec net op).1.t.rcvNxt (c.exec net op).1.t.finQueued
        (c.exec net op).1.sent (acked c.t (c.exec net op).1.sent)) := by
  have effect := exec_effect c net op
  generalize c.exec net op = out at effect
  cases effect with
  | connects ip port tick =>
    have issued := sendSyn_issues (startConnect c.t net ip port tick) c.x net { syn := true } []
      (acked c.t []) rfl
    rw [← issued_kept (sendSyn_kept (startConnect c.t net ip port tick) c.x net { syn := true })]
      at issued
    dsimp only [Conn.fresh]
    exact issued
  | answers src seg =>
    have issued := sendSyn_issues (startPassive c.t net src seg c.now) c.x net
      { syn := true, ack := true } [] (acked c.t []) rfl
    rw [← issued_kept (sendSyn_kept (startPassive c.t net src seg c.now) c.x net
      { syn := true, ack := true })] at issued
    dsimp only [Conn.fresh]
    exact issued
  | aborts edge stat after sends =>
    refine sends.mono fun seg same => ?_
    rw [same]
    exact Issued.bare c.t c.x c.t.sndNxt c.sent _ { rst := true, ack := true } ⟨rfl, rfl⟩ _
  | polls tick =>
    by_cases on : awake c.t.state
    · have issued := (pollOne_sends (run_sends run on) run.socketInv run.placed net tick).2
      rw [← issued_kept (pollOne_kept c.t c.x net tick)] at issued
      exact issued
    · rw [pollOne_asleep on]
      exact Sends.nothing net _
  | idles | listens | queues | takes | asks | drops | arrives | others => exact Sends.nothing net _

/-- Against any peer, every payload a connection hands to its link is the part
of the stream its sequence number names and not yet acknowledged, every FIN
stands at the end of what was accepted, and the ring holds every byte accepted
and not acknowledged. -/
theorem send_stream_integrity (run : Conn.Run c) (net : MnNet) (op : Op) :
    (∀ seg ∈ segmentsHanded net (c.exec net op).2,
      (seg.data ≠ [] → ∃ k, (c.exec net op).1.sent.length ≤ k + c.t.sndLen.toNat ∧
        k + seg.data.length ≤ (c.exec net op).1.sent.length ∧
        seg.seq = place ((c.exec net op).1.t.iss + 1) k ∧
        seg.data = ((c.exec net op).1.sent.drop k).take seg.data.length) ∧
      (seg.flags.fin = true →
        seg.seq = place ((c.exec net op).1.t.iss + 1) (c.exec net op).1.sent.length)) ∧
    (synchronized c.t.state = true → ∃ done, done + c.t.sndLen.toNat = c.sent.length ∧
      ringRead c.x c.t.xseg c.t.sndbuf MN_TCP_SNDBUF c.t.sndHead c.t.sndLen = c.sent.drop done ∧
      (c.t.sndUna = place (c.t.iss + 1) done ∨
        done = c.sent.length ∧ c.t.finSent = true ∧ c.t.sndUna = place (c.t.iss + 1) (done + 1))) := by
  refine ⟨fun seg member => ?_, fun sync => ?_⟩
  · have issued := (exec_issues run net op).segments seg member
    refine ⟨fun more => ?_, fun fin => (issued.fin fin).2.2⟩
    obtain ⟨k, unacked, rest⟩ := issued.data more
    exact ⟨k, by unfold acked at unacked; omega, rest⟩
  · have inv := run_sends run (synchronized_awake sync)
    have within := inv.within
    refine ⟨acked c.t c.sent, by unfold acked; omega, ?_, ?_⟩
    · have read := sndRing_read (x := c.x) run.socketInv run.placed 0 c.t.sndLen
        (by rw [UInt16.toNat_zero]; omega)
      have head : (c.t.sndHead + 0) % MN_TCP_SNDBUF = c.t.sndHead := by
        rw [← UInt16.toNat_inj, UInt16.toNat_mod, UInt16.add_zero, sndbuf_toNat]
        exact Nat.mod_eq_of_lt run.socketInv.sndHead
      rw [head] at read
      rw [read, UInt16.toNat_zero, Nat.add_zero, inv.ring]
    · exact una_place inv run.socketInv sync

/-- The neighbour's answer to a connection opened at tick 65520. -/
def synAck : TcpSeg := fromPeer 53201 1000 4293918722 { syn := true, ack := true } 1000 [] nothing_fits

/-- That connection, with three bytes to send. -/
def threeQueued : Conn :=
  ((((freshConn.exec goodNet (.connect neighbour 80 65520)).1.exec goodNet (.segment synAck)).1.exec
      goodNet (.send [1, 2, 3] 3))).1

theorem threeQueued_run : Conn.Run threeQueued := by
  have opened := freshConn_run.next ⟨goodNet, .connect neighbour 80 65520, trivial, rfl⟩
  have answered := opened.next
    ⟨goodNet, .segment synAck, ⟨by decide +kernel, by decide +kernel⟩, rfl⟩
  exact answered.next ⟨goodNet, .send [1, 2, 3] 3, Nat.le_refl 3, rfl⟩

theorem send_stream_integrity_threeQueued :
    (segmentsHanded goodNet (threeQueued.exec goodNet (.poll 65530)).2).map (·.data) = [[1, 2, 3]] ∧
      ∀ seg ∈ segmentsHanded goodNet (threeQueued.exec goodNet (.poll 65530)).2, seg.data ≠ [] →
        ∃ k, seg.seq = place ((threeQueued.exec goodNet (.poll 65530)).1.t.iss + 1) k ∧
          seg.data = ([1, 2, 3].drop k).take seg.data.length := by
  refine ⟨by decide +kernel, fun seg member more => ?_⟩
  obtain ⟨k, _, _, at_, data⟩ :=
    ((send_stream_integrity threeQueued_run goodNet (.poll 65530)).1 seg member).1 more
  exact ⟨k, at_, data⟩

end MegaNet.TcpSendStream
