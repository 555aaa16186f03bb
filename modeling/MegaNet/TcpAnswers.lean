import MegaNet.TcpTurns

/-! Which acknowledgements go out, and when: the polls at which one that is
owed is sent, and the segments after which one is owed. -/
namespace MegaNet.TcpAnswers
open MegaNet.Core TcpEmission TcpSocketInvariant TcpOutcomes TcpConnection
  TcpSendStream TcpSetRuns TcpTurns

variable {w : World} {net : MnNet} {t : MnTcp} {i : Nat}

/-! ## Polls that answer -/

/-- The poll closes the connection, or the socket hands the link a segment
that acknowledges everything received. -/
def Answered (w : World) (net : MnNet) (i : Nat) (now : UInt16) (t : MnTcp) : Prop :=
  (turn w net i now t).1.state = .closed ∨
    ∃ seg ∈ turnSegments w net i now t, seg.flags.ack = true ∧ seg.ack = t.rcvNxt

/-- The poll is not kept waiting by a full window: the retransmission is due,
or nothing is queued beyond what is in flight, or some of it may go out. -/
def Unblocked (t : MnTcp) (now : UInt16) : Prop :=
  retransmitDue t now = true ∨ t.sndLen ≤ t.inflight ∨ t.inflight < sendLimit t

private theorem emits_ack (known : net.Resolves t.remoteIp) (accepting : net.Accepts) (x : XMem)
    (flags : SegFlags) (seq : UInt32) (off len : UInt16) (mss : Bool) (acks : flags.ack = true) :
    ∃ seg ∈ segmentsHanded net (emit t x net flags seq off len mss).2.2,
      seg.flags.ack = true ∧ seg.ack = t.rcvNxt := by
  rw [(emit_handed known accepting x flags seq off len mss).2]
  exact ⟨_, List.mem_singleton.mpr rfl, acks, by simp [buildSegment, acks]⟩

private theorem retransmit_answers (known : net.Resolves t.remoteIp) (accepting : net.Accepts) (x : XMem)
    (now : UInt16) : (retransmit t x net now).1.state = .closed ∨
      ∃ seg ∈ segmentsHanded net (retransmit t x net now).2, seg.flags.ack = true ∧
        seg.ack = t.rcvNxt := by
  have again := retransmit_retransmission t x net now
  generalize retransmit t x net now = out at again
  cases again with
  | times_out => exact Or.inl rfl
  | data => exact Or.inr (emits_ack (t := resent t now) known accepting x dataFlags _ _ _ _ rfl)
  | fin => exact Or.inr (emits_ack (t := resent t now) known accepting x finFlags _ _ _ _ rfl)

private theorem pollTimeWait_answers (known : net.Resolves t.remoteIp)
    (accepting : net.Accepts) (x : XMem)
    (now : UInt16) (owed : t.ackPending = true) :
    ∃ seg ∈ segmentsHanded net (pollTimeWait t x net now).2, seg.flags.ack = true ∧
      seg.ack = t.rcvNxt := by
  have emitted := emits_ack (t := { t with ackPending := false }) known accepting x ackFlags t.sndNxt 0 0
    false rfl
  rw [pollTimeWait_net, if_pos owed]
  exact emitted

/-- An acknowledgement owed goes out at a poll exactly when no full window
holds queued data back. -/
theorem owed_ack_answered_iff (run : World.Run w) (found : w.set.sock[i]? = some t)
    (sync : synchronized t.state = true) (owed : t.ackPending = true)
    (known : net.Resolves t.remoteIp) (accepting : net.Accepts) (now : UInt16) :
    Answered w net i now t ↔ Unblocked t now := by
  have inv := World.Run.socketInv run found
  have routes := turn_routes w net i now
  rw [← same_routes_resolves routes] at known
  rw [← same_routes_accepts routes] at accepting
  unfold Answered Unblocked turnSegments turn
  generalize turnNet w net i now = net at known accepting
  by_cases waiting : t.state = .timeWait
  · have empty := (inv.finished sync (by simp [waiting, sending])).2.2
    have answers := pollTimeWait_answers known accepting w.x now owed
    refine iff_of_true (Or.inr ?_) (Or.inr (Or.inl (by simp [empty, UInt16.le_iff_toNat_le])))
    simpa [pollOne, waiting] using answers
  rw [pollOne_open sync waiting]
  by_cases due : retransmitDue t now = true
  · rw [if_pos due]
    exact iff_of_true (retransmit_answers known accepting w.x now) (Or.inl due)
  rw [if_neg due]
  by_cases more : t.inflight < t.sndLen
  · have pending := inv.queued sync (UInt16.lt_iff_toNat_lt.mp more)
    have waits : ¬ t.sndLen ≤ t.inflight := by
      rw [UInt16.le_iff_toNat_le]
      rw [UInt16.lt_iff_toNat_lt] at more
      omega
    rw [if_pos ⟨pending, more⟩]
    by_cases open_ : t.inflight < sendLimit t
    · refine iff_of_true (Or.inr ⟨_, sendQueued_first known accepting w.x now more open_, rfl, ?_⟩)
        (Or.inr (Or.inr open_))
      simp [buildSegment, dataFlags]
    · rw [sendQueued_shut w.x net now open_]
      refine iff_of_false ?_ (by simp [due, waits, open_])
      rintro (closed | ⟨seg, member, _⟩)
      · simp [show t.state = .closed from closed, synchronized] at sync
      · simp [segmentsHanded, handed_since (Handed.refl net)] at member
  · have done : t.sndLen ≤ t.inflight := by
      rw [UInt16.le_iff_toNat_le]
      rw [UInt16.lt_iff_toNat_lt] at more
      omega
    rw [if_neg (by simp [more])]
    refine iff_of_true (Or.inr ?_) (Or.inr (Or.inl done))
    split
    · rw [sendFin_net]
      exact emits_ack known accepting w.x finFlags t.sndNxt 0 0 false rfl
    · exact emits_ack known accepting w.x ackFlags t.sndNxt 0 0 false rfl

theorem owed_ack_answered_iff_shutWindow :
    ∃ t, shutWindow.set.sock[0]? = some t ∧ Answered shutWindow goodNet 0 2 t := by
  obtain ⟨t, found, sync, owed, ip, idle⟩ := socket_where shutWindow 0
    (fun t => synchronized t.state = true ∧ t.ackPending = true ∧ t.remoteIp = neighbour ∧ t.sndLen = 0)
    (by decide +kernel)
  refine ⟨t, found, (owed_ack_answered_iff shutWindow_run found sync owed (ip ▸ goodNet_resolves)
    goodNet_accepts 2).mpr (Or.inr (Or.inl ?_))⟩
  simp [idle, UInt16.le_iff_toNat_le]

instance : Decidable (Answered w net i now t) := by
  unfold Answered
  infer_instance

/-- With one byte queued into the closed window, the acknowledgement that the
SYN|ACK is owed stays behind. -/
theorem owed_ack_starved :
    ¬ ∀ (w : World) (net : MnNet) (i : Nat) (t : MnTcp) (now : UInt16), World.Run w →
      w.set.sock[i]? = some t → synchronized t.state = true → t.ackPending = true →
      net.Resolves t.remoteIp → net.Accepts → Answered w net i now t := by
  intro answered
  let queued := (shutWindow.exec goodNet (.send 0 [7] 1 (by decide))).1
  obtain ⟨t, found, sync, owed, ip, starved⟩ := socket_where queued 0
    (fun t => synchronized t.state = true ∧ t.ackPending = true ∧ t.remoteIp = neighbour ∧
      ¬ Answered queued goodNet 0 2 t) (by decide +kernel)
  exact starved (answered queued goodNet 0 t 2 (shutWindow_run.next ⟨goodNet, _, rfl⟩) found sync owed
    (ip ▸ goodNet_resolves) goodNet_accepts)

/-! ## Segments that are answered -/

/-- Socket `i` is the one the dispatcher gives the segment to. -/
def FirstOwner (w : World) (i : Nat) (src : Ip4) (seg : TcpSeg) : Prop :=
  ∀ (j : Nat) (u : MnTcp), j < i → w.set.sock[j]? = some u → owns src seg u = false

/-- After the segment, socket `i` owes an acknowledgement. -/
def Owes (w : World) (net : MnNet) (i : Nat) (src : Ip4) (seg : TcpSeg) : Prop :=
  ∃ t, (w.exec net (.input src seg)).1.set.sock[i]? = some t ∧ t.ackPending = true

private theorem handleAck_ackPending (t : MnTcp) (ack : UInt32) (now : UInt16) :
    (handleAck t ack now).ackPending = t.ackPending := by
  obtain same | ⟨acked, same⟩ := handleAck_socket t ack now <;> rw [same]
  rfl

/-- What an out-of-order segment does to the socket that is given it. -/
private theorem unexpected_ackPending (sync : synchronized t.state = true) (x : XMem) (seg : TcpSeg)
    (now : UInt16) (plain : seg.flags.rst = false) (acks : seg.flags.ack = true)
    (unexpected : seg.seq ≠ t.rcvNxt) :
    (segmentInput t x seg now).1.ackPending = true ↔
      t.ackPending = true ∨ seg.data ≠ [] ∨ seg.flags.fin = true := by
  have reached : segmentInput t x seg now =
      synchronizedInput { t with statRxSeg := t.statRxSeg + 1 } x seg now := by
    simp only [segmentInput, plain, Bool.false_eq_true, if_false]
    cases state : t.state <;> simp_all [synchronized]
  have empty : seg.dlen ≠ 0 ↔ seg.data ≠ [] := by
    rw [ne_eq, ne_eq, ← UInt16.toNat_inj, dlen_toNat, UInt16.toNat_zero, List.length_eq_zero_iff]
  rw [reached, synchronizedInput]
  simp only [acks, Bool.not_true, Bool.false_eq_true, if_false]
  rw [if_pos (show seg.seq ≠ t.rcvNxt from unexpected), handleAck_ackPending, outOfOrder]
  split
  · rename_i occupies
    rw [empty] at occupies
    simp [occupies]
  · rename_i vacant
    rw [empty] at vacant
    simp only [vacant, or_false]

/-- A segment out of order leaves an acknowledgement owed exactly when one was
owed before, or the dispatcher gives it to this socket and it carries payload
or a FIN: a SYN alone is not answered. -/
theorem unexpected_segment_answered_iff (found : w.set.sock[i]? = some t)
    (sync : synchronized t.state = true) (src : Ip4) (seg : TcpSeg) (owned : owns src seg t = true)
    (plain : seg.flags.rst = false) (acks : seg.flags.ack = true) (unexpected : seg.seq ≠ t.rcvNxt)
    (net : MnNet) :
    Owes w net i src seg ↔
      t.ackPending = true ∨ FirstOwner w i src seg ∧ (seg.data ≠ [] ∨ seg.flags.fin = true) := by
  simp only [Owes, World.exec, mnTcpInput]
  obtain ⟨_, none⟩ | ⟨k, u, taken, mine, before, same⟩ :=
    onFirst_spec (owns src seg) (fun t => segmentInput t w.x seg w.set.now) w.set.sock
  · simp [none i t found] at owned
  rw [same]
  have late : k ≤ i := by
    by_contra early
    simp [before i t (by omega) found] at owned
  by_cases here : k = i
  · subst here
    rw [taken] at found
    cases found
    have inside := (List.getElem?_eq_some_iff.mp taken).1
    have first : FirstOwner w k src seg := before
    simp only [first, true_and, List.getElem?_set_self inside, Option.some.injEq, exists_eq_left']
    exact unexpected_ackPending sync w.x seg w.set.now plain acks unexpected
  · have passed : ¬ FirstOwner w i src seg := fun first => by
      simp [first k u (by omega) taken] at mine
    simp [passed, List.getElem?_set_ne here, found]

/-- The SYN|ACK again, as a peer sends it that never got our acknowledgement. -/
def synAckAgain : TcpSeg := fromPeer 49156 1000 65538 { syn := true, ack := true } 0 [] nothing_fits

/-- That connection once its acknowledgement has gone out. -/
def acknowledged : World := (shutWindow.exec goodNet (.poll 2)).1

theorem acknowledged_run : World.Run acknowledged := shutWindow_run.next ⟨goodNet, _, rfl⟩

theorem unexpected_segment_answered_iff_acknowledged :
    Owes acknowledged goodNet 0 neighbour
      (fromPeer 49156 1002 65538 { ack := true } 0 [7] (by decide)) := by
  obtain ⟨t, found, sync, owned, next⟩ := socket_where acknowledged 0
    (fun t => synchronized t.state = true ∧
      owns neighbour (fromPeer 49156 1002 65538 { ack := true } 0 [7] (by decide)) t = true ∧
        t.rcvNxt = 1001) (by decide +kernel)
  refine (unexpected_segment_answered_iff found sync neighbour _ owned rfl rfl (by rw [next]; decide)
    goodNet).mpr (Or.inr ⟨fun j u less => absurd less (by omega), Or.inl (by decide)⟩)

/-- A retransmitted SYN|ACK is not answered, though it occupies sequence space. -/
theorem synAck_not_answered :
    ¬ ∀ (w : World) (net : MnNet) (i : Nat) (t : MnTcp) (src : Ip4) (seg : TcpSeg), World.Run w →
      w.set.sock[i]? = some t → synchronized t.state = true → owns src seg t = true →
      seg.flags.rst = false → seg.flags.ack = true → seg.seq ≠ t.rcvNxt →
      (seg.data ≠ [] ∨ seg.flags.syn = true ∨ seg.flags.fin = true) → Owes w net i src seg := by
  intro answered
  obtain ⟨t, found, sync, owned, next⟩ := socket_where acknowledged 0
    (fun t => synchronized t.state = true ∧ owns neighbour synAckAgain t = true ∧ t.rcvNxt = 1001)
    (by decide +kernel)
  obtain ⟨u, after, owes⟩ := answered acknowledged goodNet 0 t neighbour synAckAgain acknowledged_run
    found sync owned rfl rfl (by rw [next]; decide) (Or.inr (Or.inl rfl))
  obtain ⟨v, after', quiet⟩ :=
    socket_where (acknowledged.exec goodNet (.input neighbour synAckAgain)).1 0
    (fun t => t.ackPending = false) (by decide +kernel)
  rw [after] at after'
  cases after'
  simp [owes] at quiet

end MegaNet.TcpAnswers
