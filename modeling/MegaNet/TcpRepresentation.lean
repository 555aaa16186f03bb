import Mathlib.Tactic.IntervalCases
import MegaNet.TcpSetRuns

/-! The representation invariant over whole runs of a set, and the 16-bit
differences the code takes: those between ring counters never wrap, those
between ticks wrap by design. -/
namespace MegaNet.TcpRepresentation
open MegaNet.Core SerialNumber Words TcpEmission TcpSocketInvariant TcpOutcomes
  TcpPreservation TcpConnection
  TcpSetRuns

/-- Every difference of ring counters the code takes on a socket is the
difference of the numbers: in `handle_ack`, whatever the peer acknowledges, in
the two send calls, in `rcv_free` and `after_recv`, whatever is asked for, and
at every turn `k` of the send loop. -/
structure ExactCounters (t : MnTcp) : Prop where
  fin : ∀ ack, synchronized t.state = true → upTo ack t.sndUna = false →
    precedes t.sndNxt ack = false → (t.finSent && ack == t.sndNxt) = true →
    1 ≤ (ack - t.sndUna).toUInt16
  retire : ∀ ack, ackedBytes t ack ≤ t.inflight ∧ ackedBytes t ack ≤ t.sndLen
  room : t.sndLen ≤ MN_TCP_SNDBUF
  free : t.rcvCount ≤ MN_TCP_RCVBUF
  drain : ∀ cap, recvCount t cap ≤ t.rcvCount
  turns : ∀ x net now k,
    let u := (sendLoop x now (sendLimit t) k t net).2.1
    u.inflight ≤ u.sndLen ∧
      (u.inflight < u.sndLen → u.inflight < sendLimit t → (nextLength u (sendLimit t)).toNat =
        min (min (u.sndLen.toNat - u.inflight.toNat) u.peerMss.toNat)
          ((sendLimit t).toNat - u.inflight.toNat))

private theorem fin_counted (inv : SocketInv t now) (sync : synchronized t.state = true) (ack : UInt32)
    (fresh : upTo ack t.sndUna = false) (covered : precedes t.sndNxt ack = false)
    (last : (t.finSent && ack == t.sndNxt) = true) : 1 ≤ (ack - t.sndUna).toUInt16 := by
  simp only [Bool.and_eq_true, beq_iff_eq] at last
  have near := outstanding inv sync
  simp only [last.1, if_true] at near
  obtain ⟨positive, most⟩ := between (by omega) fresh covered
  rw [UInt16.le_iff_toNat_le, UInt32.toNat_toUInt16, UInt16.toNat_one]
  omega

private theorem turns_exact (inv : SocketInv t now) (x : XMem) (net : MnNet) (tick : UInt16) (k : Nat) :
    (sendLoop x tick (sendLimit t) k t net).2.1.inflight ≤
      (sendLoop x tick (sendLimit t) k t net).2.1.sndLen := by
  refine sendLoop_rule (motive := fun u _ => u.inflight ≤ u.sndLen) x tick (sendLimit t) ?_ k t net
    (UInt16.le_iff_toNat_le.mpr inv.inflight)
  intro u after queued more open_
  have size := nextLength_spec more open_
  obtain ⟨edge, stat, same⟩ :=
    emit_socket u x after dataFlags u.sndNxt u.inflight (nextLength u (sendLimit t)) false
  rw [UInt16.lt_iff_toNat_lt] at more
  dsimp only
  rw [same]
  split
  · simp only [launched, UInt16.le_iff_toNat_le, UInt16.toNat_add]
    omega
  · exact queued

private theorem exactCounters (inv : SocketInv t now) : ExactCounters t where
  fin := fun ack sync => fin_counted inv sync ack
  retire := fun ack => by
    have := ackedBytes_le t ack
    have := inv.inflight
    simp only [UInt16.le_iff_toNat_le]
    omega
  room := UInt16.le_iff_toNat_le.mpr inv.sndLen
  free := UInt16.le_iff_toNat_le.mpr inv.rcvCount
  drain := fun cap => UInt16.le_iff_toNat_le.mpr (recvCount_le t cap)
  turns := fun x net now k =>
    ⟨turns_exact inv x net now k, fun more open_ => nextLength_spec more open_⟩

/-- In every state of every run of a set, each socket's ring counters are in
bounds, its timeout is one of four, and what is outstanding by its sequence
numbers is what is in flight, or our FIN; so no difference of ring counters
wraps. -/
theorem representation_invariant {w : World} {t : MnTcp} {i : Nat} (run : World.Run w)
    (found : w.set.sock[i]? = some t) :
    t.sndHead < MN_TCP_SNDBUF ∧ t.inflight ≤ t.sndLen ∧ t.sndLen ≤ MN_TCP_SNDBUF ∧
      t.rcvHead < MN_TCP_RCVBUF ∧ t.rcvCount ≤ MN_TCP_RCVBUF ∧
      (t.rto = 50 ∨ t.rto = 100 ∨ t.rto = 200 ∨ t.rto = 400) ∧
      (synchronized t.state = true → (t.sndNxt - t.sndUna).toNat = t.inflight.toNat ∨
        t.finSent = true ∧ t.sndLen = 0 ∧ t.inflight = 0 ∧ t.sndNxt - t.sndUna = 1) ∧
      ExactCounters t := by
  have inv := World.Run.socketInv run found
  refine ⟨UInt16.lt_iff_toNat_lt.mpr inv.sndHead, UInt16.le_iff_toNat_le.mpr inv.inflight,
    UInt16.le_iff_toNat_le.mpr inv.sndLen, UInt16.lt_iff_toNat_lt.mpr inv.rcvHead,
    UInt16.le_iff_toNat_le.mpr inv.rcvCount, ?_, ?_, exactCounters inv⟩
  · have rto := inv.rto
    have retries := inv.retries
    simp only [← UInt16.toNat_inj]
    interval_cases t.retries.toNat <;> simp_all [rtoAfter]
  · intro sync
    have span := inv.span sync
    cases fin : t.finSent with
    | false =>
      have near := outstanding inv sync
      simp only [fin, Bool.false_eq_true, if_false] at near
      exact Or.inl near
    | true =>
      have empty := (inv.finished sync (inv.out fin)).2.2
      have idle := inv.idle empty
      simp only [fin, if_true] at span
      rcases span with one | none
      · refine Or.inr ⟨rfl, empty, idle, ?_⟩
        rw [one, UInt32.add_comm, UInt32.add_sub_cancel]
      · left
        simp [none, idle]

/-- A run that leaves three bytes in flight at tick 65530. -/
def lateSend : World :=
  World.execAll (freshWorld 1) [(goodNet, .connect 0 neighbour 80 65520),
    (goodNet, .input neighbour (fromPeer 53201 1000 4293918722 { syn := true, ack := true } 1000 []
      nothing_fits)),
    (goodNet, .send 0 [1, 2, 3] 3 all_three), (goodNet, .poll 65530)]

theorem lateSend_run : World.Run lateSend := World.Run.execAll (freshWorld_run 1) _

private theorem lateSend_socket : ∃ t, lateSend.set.sock[0]? = some t ∧
    t.state = .established ∧ t.inflight = 3 ∧ t.finSent = false ∧ t.sentAt = 65530 :=
  socket_where lateSend 0 _ (by decide +kernel)

theorem representation_invariant_lateSend :
    ∃ t, lateSend.set.sock[0]? = some t ∧ t.inflight = 3 ∧ (t.sndNxt - t.sndUna).toNat = 3 := by
  obtain ⟨t, found, state, flying, open_, _⟩ := lateSend_socket
  obtain ⟨_, _, _, _, _, _, span, _⟩ := representation_invariant lateSend_run found
  refine ⟨t, found, flying, ?_⟩
  rcases span (by simp [state, synchronized]) with equal | fin
  · rw [equal, flying]
    rfl
  · simp [fin.1] at open_

/-- The tick differences of `poll_one` do wrap: at tick 4 the retransmission
test of a segment sent at tick 65530 subtracts the larger from the smaller. -/
theorem tick_difference_wraps :
    ¬ ∀ (w : World) (i : Nat) (t : MnTcp) (now : UInt16), World.Run w → w.set.sock[i]? = some t →
      synchronized t.state = true → t.inflight ≠ 0 → t.sentAt ≤ now := by
  intro ordered
  obtain ⟨t, found, state, flying, _, late⟩ := lateSend_socket
  have wrapped := ordered lateSend 0 t 4 lateSend_run found (by simp [state, synchronized])
    (by simp [flying])
  rw [late] at wrapped
  exact absurd wrapped (by decide)

end MegaNet.TcpRepresentation
