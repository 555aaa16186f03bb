import MegaNet.TcpSendStream

/-! What holds the sender back: the peer's MSS and ours, the window the peer
advertised, and the congestion window, a whole number of segments. -/
namespace MegaNet.TcpSendLimits
open MegaNet.Core SerialNumber Words TcpEmission TcpSocketInvariant TcpOutcomes
  TcpPreservation TcpConnection
  TcpSendStream Transition

variable {c : Conn} {t u : MnTcp}

/-- What a segment of data obeys that goes out for the first time: it holds at
least a byte and at most the peer's MSS, which is at most ours, and it ends
within both windows of what is acknowledged. -/
structure WithinLimits (t : MnTcp) (seg : TcpSeg) : Prop where
  more : 1 ≤ seg.data.length
  mss : seg.data.length ≤ t.peerMss.toNat
  ours : t.peerMss ≤ MN_TCP_MSS
  window : (seg.seq + seg.dlen.toUInt32 - t.sndUna).toNat ≤ min t.sndWnd.toNat t.cwnd.toNat

/-- A segment carries nothing, or what was sent before, or obeys the limits. -/
def Measured (t : MnTcp) (seg : TcpSeg) : Prop :=
  seg.data = [] ∧ seg.flags.psh = false ∨ precedes seg.seq t.sndNxt = true ∨ WithinLimits t seg

private theorem measured_bare (t u : MnTcp) (x : XMem) (flags : SegFlags) (seq : UInt32) (mss : Bool)
    (plain : flags.psh = false) : Measured t (buildSegment u x flags seq 0 0 mss) :=
  Or.inl ⟨buildSegment_empty u x, plain⟩

theorem sendLimit_toNat (t : MnTcp) : (sendLimit t).toNat = min t.sndWnd.toNat t.cwnd.toNat := by
  unfold sendLimit
  split
  · rename_i less
    rw [UInt16.lt_iff_toNat_lt] at less
    omega
  · rename_i least
    rw [UInt16.lt_iff_toNat_lt] at least
    omega

/-- A turn of the send loop is measured by the socket as it was at the start. -/
private theorem measured_turn (inv : SocketInv u now) (sync : synchronized u.state = true)
    (same : kept u = kept t) (cwnd : u.cwnd = t.cwnd) (more : u.inflight < u.sndLen)
    (open_ : u.inflight < sendLimit t) (x : XMem) :
    WithinLimits t (buildSegment u x dataFlags u.sndNxt u.inflight
      (nextLength u (sendLimit t)) false) := by
  have size := nextLength_spec more open_
  have length : (buildSegment u x dataFlags u.sndNxt u.inflight
    (nextLength u (sendLimit t)) false).data.length =
      (nextLength u (sendLimit t)).toNat := ringRead_length ..
  have una : u.sndUna = t.sndUna := congrArg Kept.sndUna same
  have mss : u.peerMss = t.peerMss := congrArg Kept.peerMss same
  have limit := sendLimit_toNat t
  have span := inv.span sync
  simp only [inv.unfinished (inv.unsent sync more), Bool.false_eq_true, if_false] at span
  rw [UInt16.lt_iff_toNat_lt] at more open_
  have whole : 0 < u.peerMss.toNat := by
    obtain ⟨k, _, segments, _⟩ := inv.cwnd sync
    rw [cwnd] at segments
    exact Nat.pos_of_mul_pos_left (show 0 < k * u.peerMss.toNat by omega)
  refine ⟨by omega, by rw [← mss]; omega, ?_, ?_⟩
  · rw [← mss, UInt16.le_iff_toNat_le]
    exact inv.mss
  · have queue := inv.sndLen
    have dlen : (buildSegment u x dataFlags u.sndNxt u.inflight
      (nextLength u (sendLimit t)) false).dlen =
        nextLength u (sendLimit t) := by
      rw [← UInt16.toNat_inj, dlen_toNat, length]
    have reach : u.sndNxt + (nextLength u (sendLimit t)).toUInt32 - t.sndUna =
        u.inflight.toUInt32 + (nextLength u (sendLimit t)).toUInt32 := by
      rw [span, una]
      grind
    rw [dlen, show (buildSegment u x dataFlags u.sndNxt u.inflight
      (nextLength u (sendLimit t)) false).seq =
      u.sndNxt from rfl, reach, UInt32.toNat_add, UInt16.toNat_toUInt32, UInt16.toNat_toUInt32]
    omega

private theorem sendQueued_measured (inv : SocketInv t now) (sync : synchronized t.state = true)
    (pending : t.txPending = true) (x : XMem) (net : MnNet) :
    Sends net (sendQueued t x net now).2 (Measured t) := by
  have looped := sendLoop_rule
    (motive := fun u after => (SocketInv u now ∧ synchronized u.state = true ∧ u.txPending = true) ∧
      kept u = kept t ∧ u.cwnd = t.cwnd ∧ Sends net after (Measured t))
    x now (sendLimit t) (by
      rintro u after ⟨⟨inv, sync, pending⟩, same, cwnd, sends⟩ more open_
      have goes : Sends after _ (Measured t) :=
        emit_sends after (Or.inr (Or.inr (measured_turn inv sync same cwnd more open_ x)))
      obtain ⟨edge, stat, emitted⟩ :=
        emit_socket u x after dataFlags u.sndNxt u.inflight (nextLength u (sendLimit t)) false
      have stamped : SocketInv { u with advEdge := edge, statTxSeg := stat } now := { inv with }
      dsimp only
      rw [emitted]
      refine ⟨?_, ?_, ?_, sends.trans goes⟩
      · split
        · exact ⟨launched_keeps stamped sync more open_ pending, sync, pending⟩
        · exact ⟨stamped, sync, pending⟩
      · split <;> exact same
      · split <;> exact cwnd)
    t.sndLen.toNat t net ⟨⟨inv, sync, pending⟩, rfl, rfl, Sends.nothing net _⟩
  exact looped.2.2.2

/-- What is sent again begins where what is acknowledged ends, before `snd_nxt`. -/
theorem oldest_precedes (inv : SocketInv t now) (sync : synchronized t.state = true)
    (flying : t.inflight ≠ 0) :
    precedes t.sndUna t.sndNxt = true := by
  have near := outstanding inv sync
  rw [inv.unfinished_flying sync flying] at near
  have flight := inv.inflight
  have queue := inv.sndLen
  have some_ : t.inflight.toNat ≠ 0 := fun none => flying (eq_zero_of_toNat none)
  rw [precedes_iff]
  simp only [Bool.false_eq_true, if_false, UInt32.toNat_sub] at near ⊢
  have := t.sndUna.toNat_lt
  have := t.sndNxt.toNat_lt
  omega

private theorem pollOne_measured (inv : SocketInv t now) (x : XMem) (net : MnNet) (tick : UInt16) :
    Sends net (pollOne t x net tick).2 (Measured t) := by
  apply pollOne_each
  · intro u _ _
    rw [resendSyn, sendSyn_net]
    exact emit_sends net (measured_bare t _ x _ _ _ rfl)
  · rintro _ u flags seq _ (rfl | rfl)
    · exact emit_sends net (measured_bare t u x ackFlags seq false rfl)
    · exact emit_sends net (measured_bare t u x finFlags seq false rfl)
  · exact fun sync flying => emit_sends net (Or.inr (Or.inl (oldest_precedes inv sync flying)))
  · exact fun sync quiet pending => sendQueued_measured (not_due inv fun _ => quiet) sync pending x net

private theorem exec_measured (inv : SocketInv c.t c.now) (net : MnNet) (op : Op) :
    Sends net (c.exec net op).2 (Measured c.t) := by
  have effect := exec_effect c net op
  generalize c.exec net op = out at effect
  cases effect with
  | connects | answers =>
    dsimp only
    rw [sendSyn_net]
    exact emit_sends net (measured_bare c.t _ c.x _ _ _ rfl)
  | aborts _ _ _ sends =>
    refine sends.mono fun seg same => ?_
    rw [same]
    exact measured_bare c.t c.t c.x _ _ _ rfl
  | polls tick => exact pollOne_measured inv c.x net tick
  | idles | listens | queues | takes | asks | drops | arrives | others => exact Sends.nothing net _

/-- Against any peer, data that goes out for the first time, at `snd_nxt` or
after, stays within every limit, and the congestion window is zero to four
segments, none at all only for a peer whose MSS is zero. -/
theorem sender_respects_limits (run : Conn.Run c) (net : MnNet) (op : Op) :
    (∀ seg ∈ segmentsHanded net (c.exec net op).2, seg.data ≠ [] ∨ seg.flags.psh = true →
      precedes seg.seq c.t.sndNxt = false → WithinLimits c.t seg) ∧
    (synchronized c.t.state = true → ∃ k ≤ 4, c.t.cwnd.toNat = k * c.t.peerMss.toNat ∧
      (c.t.cwnd = 0 → c.t.peerMss = 0)) := by
  have inv := run.socketInv
  refine ⟨fun seg member data first => ?_, fun sync => ?_⟩
  · rcases (exec_measured inv net op).segments seg member with ⟨empty, plain⟩ | old | within
    · simp [empty, plain] at data
    · simp [old] at first
    · exact within
  · obtain ⟨k, most, whole, zero⟩ := inv.cwnd sync
    refine ⟨k, most, whole, fun none => ?_⟩
    rw [none, UInt16.toNat_zero] at whole
    rcases Nat.mul_eq_zero.mp whole.symm with few | small
    · exact zero few
    · exact eq_zero_of_toNat small

theorem sender_respects_limits_threeQueued :
    (∀ seg ∈ segmentsHanded goodNet (threeQueued.exec goodNet (.poll 65530)).2,
      seg.data = [1, 2, 3] ∧ WithinLimits threeQueued.t seg) ∧
    ∃ k ≤ 4, threeQueued.t.cwnd.toNat = k * threeQueued.t.peerMss.toNat := by
  obtain ⟨first, whole⟩ := sender_respects_limits threeQueued_run goodNet (.poll 65530)
  have three : ∀ seg ∈ segmentsHanded goodNet (threeQueued.exec goodNet (.poll 65530)).2,
      seg.data = [1, 2, 3] ∧ precedes seg.seq threeQueued.t.sndNxt = false := by decide +kernel
  refine ⟨fun seg member => ?_, ?_⟩
  · obtain ⟨data, next⟩ := three seg member
    exact ⟨data, first seg member (Or.inl (by simp [data])) next⟩
  · obtain ⟨k, most, segments, _⟩ := whole (by decide +kernel)
    exact ⟨k, most, segments⟩

end MegaNet.TcpSendLimits
