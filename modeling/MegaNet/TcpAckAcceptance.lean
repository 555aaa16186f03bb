import MegaNet.TcpLifetime

/-! What an acknowledgement that is old, or of what was never sent, may change:
a socket that ignores it still takes over the window it comes with. -/
namespace MegaNet.TcpAckAcceptance
open MegaNet.Core SerialNumber Words TcpEmission TcpSocketInvariant TcpOutcomes
  TcpConnection TcpSendStream

variable {c : Conn} {t : MnTcp} {seg : TcpSeg} {ack : UInt32}

/-- The peer's window, the receive side, the send counters and the state. -/
structure Standing where
  sndWnd : UInt16
  rcvNxt : UInt32
  rcvHead : UInt16
  rcvCount : UInt16
  sndUna : UInt32
  sndNxt : UInt32
  sndHead : UInt16
  sndLen : UInt16
  inflight : UInt16
  cwnd : UInt16
  state : TcpState

def standing (t : MnTcp) : Standing :=
  ⟨t.sndWnd, t.rcvNxt, t.rcvHead, t.rcvCount, t.sndUna, t.sndNxt, t.sndHead,
    t.sndLen, t.inflight, t.cwnd,
    t.state⟩

/-- An old acknowledgement leaves the window alone, one of what was never sent
everything. -/
def Guarded (t : MnTcp) (x : XMem) (seg : TcpSeg) (u : MnTcp) (y : XMem) : Prop :=
  (precedes seg.ack t.sndUna = true → u.sndWnd = t.sndWnd) ∧
    (precedes t.sndNxt seg.ack = true → standing u = standing t ∧ y = x)

/-- Nothing of the next segment can be taken in: no payload is stored, and a
FIN is not reached for the payload that does not fit before it. -/
def Barren (t : MnTcp) (seg : TcpSeg) : Prop :=
  (seg.dlen = 0 ∨ heardFin t.state = true ∨ t.rcvCount = MN_TCP_RCVBUF) ∧
    (seg.flags.fin = true → seg.dlen ≠ 0 ∧ heardFin t.state = false)

/-- Our FIN has been acknowledged, and the state does not say so yet. -/
def Overdue (t : MnTcp) : Prop :=
  t.finSent = true ∧ t.sndUna = t.sndNxt ∧
    (t.state = .finWait1 ∨ t.state = .closing ∨ t.state = .lastAck)

/-- A segment is harmless if it is not the next one, or repeats the window and,
acknowledging what was never sent, has nothing to be taken in. -/
def Harmless (t : MnTcp) (seg : TcpSeg) : Prop :=
  seg.seq = t.rcvNxt →
    (precedes seg.ack t.sndUna = true → seg.wnd = t.sndWnd) ∧
      (precedes t.sndNxt seg.ack = true → seg.wnd = t.sndWnd ∧ Barren t seg ∧ ¬ Overdue t)

/-- An acknowledgement the test of `handle_ack` turns away. -/
def Stale (t : MnTcp) (ack : UInt32) : Prop := (upTo ack t.sndUna || precedes t.sndNxt ack) = true

private theorem stale_handleAck (stale : Stale t ack) (now : UInt16) : handleAck t ack now = t := by
  rw [handleAck_eq]
  exact if_pos stale

private theorem stale_old (old : precedes ack t.sndUna = true) : Stale t ack := by
  rw [precedes_iff] at old
  rw [Stale, Bool.or_eq_true, upTo_iff]
  exact Or.inl (Or.inr old)

private theorem stale_beyond (beyond : precedes t.sndNxt ack = true) : Stale t ack := by
  rw [Stale, beyond, Bool.or_true]

/-! ## The next segment -/

private theorem taken_none_iff (inv : SocketInv t now) (seg : TcpSeg) :
    taken t seg = 0 ↔ seg.dlen = 0 ∨ heardFin t.state = true ∨ t.rcvCount = MN_TCP_RCVBUF := by
  have room := inv.rcvCount
  have free := rcvFree_toNat inv
  unfold taken
  split
  · simp [*]
  · rw [← UInt16.toNat_inj, toNat_clamp, ← UInt16.toNat_inj, ← UInt16.toNat_inj,
      rcvbuf_toNat, UInt16.toNat_zero]
    simp only [*, Bool.false_eq_true, false_or]
    omega

private theorem finAcked_rests_iff (t : MnTcp) : (finAcked t).state = t.state ↔ ¬ Overdue t := by
  unfold finAcked Overdue
  split
  · cases state : t.state <;> simp_all [afterFinAcked]
  · simp_all

private theorem finAcked_rests (idle : ¬ Overdue t) : finAcked t = t := by
  have same := (finAcked_rests_iff t).mpr idle
  obtain rests | moves := finAcked_socket t
  · exact rests
  · rw [moves] at same ⊢
    rw [show afterFinAcked t.state = t.state from same]

private theorem inOrder_takes (sync : synchronized t.state = true) (x : XMem)
    (seg : TcpSeg) (now : UInt16) :
    (inOrder t x seg now).1.sndWnd = seg.wnd ∧
      (inOrder t x seg now).1.rcvCount = t.rcvCount + taken t seg := by
  have untouched : ∀ u : MnTcp, (finAcked u).sndWnd = u.sndWnd ∧ (finAcked u).rcvCount = u.rcvCount := by
    intro u
    obtain same | same := finAcked_socket u <;> rw [same] <;> exact ⟨rfl, rfl⟩
  rw [(inOrder_eq sync x seg now).1, (untouched _).1, (untouched _).2]
  split <;> exact ⟨rfl, rfl⟩

private theorem reaches_iff (none : taken t seg = 0) :
    reachesFin t seg = false ↔ (seg.flags.fin = true → seg.dlen ≠ 0 ∧ heardFin t.state = false) := by
  rw [reachesFin, none]
  cases seg.flags.fin <;> cases heardFin t.state <;> simp [eq_comm]

/-- Such a segment moves nothing exactly when it repeats the window and has
nothing to give. -/
theorem stale_unmoved_iff (inv : SocketInv t now) (stale : Stale t seg.ack)
    (sync : synchronized t.state = true)
    (x : XMem) (tick : UInt16) :
    standing (inOrder t x seg tick).1 = standing t ∧ (inOrder t x seg tick).2 = x ↔
      seg.wnd = t.sndWnd ∧ Barren t seg ∧ ¬ Overdue t := by
  obtain ⟨same, pool⟩ := inOrder_eq sync x seg tick
  have turned := stale_handleAck stale tick
  constructor
  · rintro ⟨unmoved, _⟩
    obtain ⟨window, count⟩ := inOrder_takes sync x seg tick
    have none : taken t seg = 0 := by
      have grown : t.rcvCount + taken t seg = t.rcvCount :=
        count.symm.trans (congrArg Standing.rcvCount unmoved)
      rwa [UInt16.add_eq_left] at grown
    have late : reachesFin t seg = false := by
      by_contra reached
      rw [Bool.not_eq_false] at reached
      have next : (inOrder t x seg tick).1.rcvNxt = t.rcvNxt := congrArg Standing.rcvNxt unmoved
      have past : (finAcked (takeFin (received t seg tick))).rcvNxt = t.rcvNxt + 0 + 1 := by
        obtain rests | moves := finAcked_socket (takeFin (received t seg tick))
        · rw [rests, takeFin, received, none]
          rfl
        · rw [moves, takeFin, received, none]
          rfl
      rw [same, if_pos reached, past] at next
      grind
    rw [late, if_neg (by simp)] at same
    have state : (inOrder t x seg tick).1.state = t.state := congrArg Standing.state unmoved
    rw [same] at state
    have idle : (finAcked (received t seg tick)).state = (received t seg tick).state :=
      state.trans (handleAck_state t seg.ack tick).symm
    rw [finAcked_rests_iff, received, turned] at idle
    exact ⟨window.symm.trans (congrArg Standing.sndWnd unmoved),
      ⟨(taken_none_iff inv seg).mp none, (reaches_iff none).mp late⟩, idle⟩
  · rintro ⟨window, ⟨full, late⟩, idle⟩
    have none := (taken_none_iff inv seg).mpr full
    have still : ¬ Overdue (received t seg tick) := by
      rw [received, turned]
      exact idle
    rw [(reaches_iff none).mpr late, if_neg (by simp), finAcked_rests still, received, turned] at same
    rw [same, pool none, none]
    simp [standing, window]

private theorem guarded_iff (inv : SocketInv t now) (sync : synchronized t.state = true)
    (acks : seg.flags.ack = true)
    (x : XMem) (tick : UInt16) :
    Guarded t x seg (synchronizedInput t x seg tick).1 (synchronizedInput t x seg tick).2 ↔
      Harmless t seg := by
  rw [synchronizedInput, if_neg (by simp [acks])]
  by_cases next : seg.seq = t.rcvNxt
  · rw [if_neg (by simp [next])]
    unfold Guarded Harmless
    rw [imp_iff_right next]
    refine and_congr (imp_congr_right fun _ => ?_) (imp_congr_right fun beyond => ?_)
    · rw [(inOrder_takes sync x seg tick).1]
    · exact stale_unmoved_iff inv (stale_beyond beyond) sync x tick
  · rw [if_pos next]
    obtain ⟨ooo, owed, same⟩ := outOfOrder_socket t seg
    have turned : ∀ stale : Stale t seg.ack, handleAck (outOfOrder t seg) seg.ack tick =
        outOfOrder t seg := by
      intro stale
      have refused : Stale (outOfOrder t seg) seg.ack := by
        rw [same]
        exact stale
      exact stale_handleAck refused tick
    refine iff_of_true ⟨fun old => ?_, fun beyond => ?_⟩ fun here => absurd here next
    · rw [turned (stale_old old), same]
    · rw [turned (stale_beyond beyond), same]
      exact ⟨rfl, rfl⟩

/-- On a synchronized connection an acknowledgement is guarded against exactly
when it is harmless. -/
theorem ack_acceptability_iff (run : Conn.Run c) (sync : synchronized c.t.state = true)
    (plain : seg.flags.rst = false) (acks : seg.flags.ack = true) (net : MnNet) :
    Guarded c.t c.x seg (c.exec net (.segment seg)).1.t (c.exec net (.segment seg)).1.x ↔
      Harmless c.t seg := by
  have counted : SocketInv { c.t with statRxSeg := c.t.statRxSeg + 1 } c.now := { run.socketInv with }
  have guarded := guarded_iff counted sync acks c.x c.now
  rw [← segmentInput_past (synchronized_past sync) plain] at guarded
  exact guarded

/-! ## Concrete cases -/

/-- Three bytes were sent, and the neighbour has acknowledged them and opened
its window again. -/
def reopened : Conn :=
  threeQueued.execAll [(goodNet, .poll 65530),
    (goodNet, .segment (fromPeer 53201 1001 4293918725 { ack := true } 1000 [] nothing_fits))]

theorem reopened_run : Conn.Run reopened :=
  threeQueued_run.execAll _ ⟨trivial, ⟨by decide +kernel, by decide +kernel⟩, trivial⟩

/-- What the neighbour had said before, its window closed, coming late. -/
def lateZero : TcpSeg := fromPeer 53201 1001 4293918722 { ack := true } 0 [] nothing_fits

/-- An acknowledgement of a hundred bytes never sent, with one of payload. -/
def unsentAck : TcpSeg := fromPeer 53201 1001 4293918825 { ack := true } 1000 [7] one_byte_fits

theorem ack_acceptability_iff_reopened :
    ¬ Guarded reopened.t reopened.x lateZero (reopened.exec goodNet (.segment lateZero)).1.t
      (reopened.exec goodNet (.segment lateZero)).1.x := by
  intro guarded
  have harmless := (ack_acceptability_iff reopened_run (by decide +kernel) rfl rfl goodNet).mp guarded
  exact absurd ((harmless (by decide +kernel)).1 (by decide +kernel)) (by decide +kernel)

/-- Coming late, it closes the window that had reopened; and an acknowledgement
of what was never sent has its payload taken in. -/
theorem stale_acks_heeded :
    (Conn.Run reopened ∧ synchronized reopened.t.state = true) ∧
    (precedes lateZero.ack reopened.t.sndUna = true ∧
      (reopened.exec goodNet (.segment lateZero)).1.t.sndWnd ≠ reopened.t.sndWnd) ∧
    (precedes reopened.t.sndNxt unsentAck.ack = true ∧
      (reopened.exec goodNet (.segment unsentAck)).1.t.rcvNxt ≠ reopened.t.rcvNxt) :=
  ⟨⟨reopened_run, by decide +kernel⟩, by decide +kernel, by decide +kernel⟩

end MegaNet.TcpAckAcceptance
