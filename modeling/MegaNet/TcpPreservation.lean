import Mathlib.Tactic.IntervalCases
import MegaNet.TcpOutcomes

/-! Every operation on a socket keeps its invariant, whatever the segments and
the ticks. -/
namespace MegaNet.TcpPreservation
open MegaNet.Core SerialNumber Words TcpEmission TcpSocketInvariant TcpOutcomes

private theorem emit_keeps (inv : SocketInv t now) : SocketInv
    (emit t x net flags seq off len mss).2.1 now := by
  obtain ⟨edge, stat, same⟩ := emit_socket t x net flags seq off len mss
  rw [same]
  exact { inv with }

theorem sendSyn_keeps (inv : SocketInv t now) : SocketInv (sendSyn t x net flags).1 now := by
  obtain ⟨edge, stat, pending, same⟩ := sendSyn_socket t x net flags
  rw [same]
  exact { inv with }

/-! ## Segments -/

/-- An acknowledgement either changes nothing, or retires exactly the bytes it
covers, or covers our FIN and retires no byte. -/
theorem handleAck_cases (inv : SocketInv t now) (sync : synchronized t.state = true)
    (ack : UInt32) (tick : UInt16) :
    handleAck t ack tick = t ∨
      ∃ acked, handleAck t ack tick = retired t ack acked tick ∧ acked.toNat ≤ t.inflight.toNat ∧
        ((t.finSent = false ∧ ack = t.sndUna + acked.toUInt32) ∨
          (t.finSent = true ∧ acked = 0 ∧ ack = t.sndNxt ∧ t.sndNxt = t.sndUna + 1)) := by
  rw [handleAck_eq]
  by_cases stale : (upTo ack t.sndUna || precedes t.sndNxt ack) = true
  · exact Or.inl (if_pos stale)
  have fresh := stale
  simp only [Bool.or_eq_true, not_or, Bool.not_eq_true] at fresh
  have near := outstanding inv sync
  have flight := inv.inflight
  have queue := inv.sndLen
  have most := ackedBytes_le t ack
  have narrow : (t.sndNxt - t.sndUna).toNat < 2 ^ 31 := by split at near <;> omega
  obtain ⟨positive, within⟩ := between narrow fresh.1 fresh.2
  refine Or.inr ⟨ackedBytes t ack, if_neg stale, most, ?_⟩
  cases fin : t.finSent with
  | false =>
    simp only [fin, Bool.false_eq_true, if_false] at near
    have exact : (ackedBytes t ack).toNat = (ack - t.sndUna).toNat := by
      simp only [ackedBytes, fin, Bool.false_and, Bool.false_eq_true, if_false, toNat_clamp,
        UInt32.toNat_toUInt16]
      omega
    have covered : (ackedBytes t ack).toUInt32 = ack - t.sndUna := by
      rw [← UInt32.toNat_inj, UInt16.toNat_toUInt32, exact]
    exact Or.inl ⟨rfl, by rw [covered, UInt32.add_comm, UInt32.sub_add_cancel]⟩
  | true =>
    simp only [fin, if_true] at near
    have all : ack = t.sndNxt := by
      rw [← UInt32.sub_add_cancel ack t.sndUna, ← UInt32.sub_add_cancel t.sndNxt t.sndUna]
      congr 1
      rw [← UInt32.toNat_inj]
      omega
    have none : ackedBytes t ack = 0 := by
      rw [inv.idle (inv.finished sync (inv.out fin)).2.2] at most
      exact eq_zero_of_toNat (by simpa using most)
    refine Or.inr ⟨rfl, none, all, ?_⟩
    have span := inv.span sync
    simp only [fin, if_true] at span
    rcases span with one | zero
    · exact one
    · rw [all, zero] at positive
      simp at positive

/-- Opening the congestion window by a segment keeps it a whole number of
segments, at most four. -/
private theorem cwnd_grown {cwnd mss : UInt16} (bound : mss.toNat ≤ 1460)
    (whole : ∃ k ≤ 4, cwnd.toNat = k * mss.toNat ∧ (k = 0 → mss = 0)) :
    ∃ k ≤ 4, (if cwnd < mss * CWND_MAX then cwnd + mss else cwnd).toNat = k * mss.toNat ∧
      (k = 0 → mss = 0) := by
  obtain ⟨k, most, size, zero⟩ := whole
  have limit : (mss * CWND_MAX).toNat = 4 * mss.toNat := by
    rw [UInt16.toNat_mul, show CWND_MAX.toNat = 4 from rfl]
    omega
  split
  · rename_i below
    rw [UInt16.lt_iff_toNat_lt, limit, size] at below
    have product : k * mss.toNat ≤ 4 * 1460 := Nat.mul_le_mul most bound
    refine ⟨k + 1, ?_, ?_, fun none => by omega⟩
    · by_contra beyond
      have : k = 4 := by omega
      subst this
      omega
    · rw [toNat_more (by omega), size, Nat.add_mul, Nat.one_mul]
  · exact ⟨k, most, size, zero⟩

private theorem handleAck_keeps (inv : SocketInv t now) (sync : synchronized t.state = true)
    (ack : UInt32) : SocketInv (handleAck t ack now) now := by
  have flight := inv.inflight
  have queue := inv.sndLen
  obtain same | ⟨acked, same, within, how⟩ := handleAck_cases inv sync ack now
  · rw [same]
    exact inv
  have sndLen' : (t.sndLen - acked).toNat = t.sndLen.toNat - acked.toNat := toNat_less (by omega)
  have inflight' : (t.inflight - acked).toNat = t.inflight.toNat - acked.toNat := toNat_less within
  rw [same]
  exact { inv with
    sndHead := by
      simp only [retired, UInt16.toNat_mod, sndbuf_toNat]
      exact Nat.mod_lt _ (by decide)
    inflight := by
      simp only [retired, sndLen', inflight']
      omega
    sndLen := by
      simp only [retired, sndLen']
      omega
    rto := rfl
    retries := by simp [retired]
    live := fun _ _ => by simp [retired]
    flying := by
      intro flying
      refine inv.flying fun zero => flying (eq_zero_of_toNat ?_)
      simp only [retired, inflight']
      simp [zero]
    cwnd := fun sync => cwnd_grown inv.mss (inv.cwnd sync)
    queued := by
      intro _ more
      have : t.sndLen - acked > t.inflight - acked := UInt16.lt_iff_toNat_lt.mpr more
      simp [retired, this]
    handshake := fun half => by simp [retired, synchronized_settled sync] at half
    finished := by
      intro _ closed
      obtain ⟨fin, wanted, empty⟩ := inv.finished sync closed
      refine ⟨fin, wanted, eq_zero_of_toNat ?_⟩
      simp only [retired, sndLen']
      simp [empty]
    span := by
      intro _
      have span := inv.span sync
      simp only [retired]
      rcases how with ⟨open_, covered⟩ | ⟨fin, none, all, one⟩
      · simp only [open_, Bool.false_eq_true, if_false] at span ⊢
        rw [span, covered, UInt32.add_assoc]
        congr 1
        rw [← UInt32.toNat_inj]
        simp only [UInt32.toNat_add, UInt16.toNat_toUInt32, inflight']
        omega
      · simp only [fin, if_true]
        exact Or.inr all.symm
    timer := by
      intro _ _
      simp [retired] }

theorem takeData_keeps (inv : SocketInv t now) (sync : synchronized t.state = true) (x : XMem)
    (seg : TcpSeg) : SocketInv (takeData t x seg).1 now := by
  have count := inv.rcvCount
  have free := rcvFree_toNat inv
  unfold takeData
  split
  · exact inv
  split
  · exact { inv with
      rcvCount := by
        simp only [ringPut, UInt16.toNat_add, toNat_clamp]
        omega
      handshake := fun half => by simp [ringPut, synchronized_settled sync] at half }
  · exact { inv with }

theorem takeFin_keeps (inv : SocketInv t now) (sync : synchronized t.state = true) :
    SocketInv (takeFin t) now ∧ synchronized (takeFin t).state = true := by
  have lands : synchronized (afterPeerFin t.state) = true := by simpa using sync
  have moved := inv.move sync (afterPeerFin t.state) { t.flags with eof := true } lands
    (sending_afterPeerFin _) (by simp [sync])
  exact ⟨{ moved with }, lands⟩

private theorem finAcked_keeps (inv : SocketInv t now) (sync : synchronized t.state = true) :
    SocketInv (finAcked t) now := by
  obtain same | same := finAcked_socket t <;> rw [same]
  · exact inv
  obtain closed | ⟨lands, sends, heard⟩ := afterFinAcked_cases sync
  · rw [closed]
    exact inv.rest .closed t.flags (Or.inl rfl)
  · exact inv.move sync _ t.flags lands sends ((inv.eof sync).trans heard.symm)

theorem outOfOrder_keeps (inv : SocketInv t now) (seg : TcpSeg) :
    SocketInv (outOfOrder t seg) now ∧ (outOfOrder t seg).state = t.state := by
  obtain ⟨ooo, owed, same⟩ := outOfOrder_socket t seg
  rw [same]
  exact ⟨{ inv with }, rfl⟩

/-- What an in-order segment has acknowledged, before its payload is taken. -/
theorem acked_keeps (inv : SocketInv t now) (sync : synchronized t.state = true) (seg : TcpSeg) :
    SocketInv { handleAck t seg.ack now with sndWnd := seg.wnd } now ∧
      synchronized { handleAck t seg.ack now with sndWnd := seg.wnd }.state = true :=
  ⟨{ handleAck_keeps inv sync seg.ack with }, (handleAck_state t seg.ack now).symm ▸ sync⟩

private theorem inOrder_keeps (inv : SocketInv t now) (sync : synchronized t.state = true)
    (x : XMem) (seg : TcpSeg) : SocketInv (inOrder t x seg now).1 now := by
  obtain ⟨acked, ackedSync⟩ := acked_keeps inv sync seg
  have taken := takeData_keeps acked ackedSync x seg
  have takenSync := (takeData_state _ x seg).symm ▸ ackedSync
  unfold inOrder
  dsimp only
  split
  · obtain ⟨finned, finnedSync⟩ := takeFin_keeps taken takenSync
    exact finAcked_keeps finned finnedSync
  · exact finAcked_keeps taken takenSync

private theorem synchronizedInput_keeps (inv : SocketInv t now) (sync : synchronized t.state = true)
    (x : XMem) (seg : TcpSeg) : SocketInv (synchronizedInput t x seg now).1 now := by
  unfold synchronizedInput
  split
  · exact inv
  split
  · obtain ⟨noted, same⟩ := outOfOrder_keeps inv seg
    exact handleAck_keeps noted (same ▸ sync) seg.ack
  · exact inOrder_keeps inv sync x seg

/-- A handshake completed: the connection is established with nothing sent. -/
theorem establish_keeps (inv : SocketInv t now) (half : handshaking t.state = true)
    (mss : UInt16) (bound : mss.toNat ≤ 1460) : SocketInv { t with
      state := .established
      sndUna := t.sndNxt
      peerMss := mss
      cwnd := mss * 2
      retries := 0
      rto := RTO_INITIAL } now := by
  obtain ⟨empty, none, _, open_, _, _, _, unheard⟩ := inv.handshake half
  have doubled : (mss * 2).toNat = 2 * mss.toNat := by
    rw [UInt16.toNat_mul, show (2 : UInt16).toNat = 2 from rfl]
    omega
  exact { inv with
    rto := rfl
    retries := by simp
    live := fun _ _ => by simp
    mss := bound
    flying := fun flying => absurd none flying
    cwnd := fun _ => ⟨2, by decide, doubled, fun none => by omega⟩
    queued := fun _ more => by simp [empty] at more
    handshake := fun half => by simp [handshaking] at half
    unfinished := fun _ => open_
    finished := fun _ out => by simp [sending] at out
    span := fun _ => by simp [open_, none]
    eof := fun _ => unheard
    timer := fun _ flying => absurd none flying }

theorem accepted_keeps (inv : SocketInv t now) (state : t.state = .synRcvd) :
    SocketInv (accepted t) now :=
  { establish_keeps inv (congrArg handshaking state) t.peerMss inv.mss with }

theorem segmentInput_keeps (inv : SocketInv t now) (owned : awake t.state) (x : XMem) (seg : TcpSeg) :
    SocketInv (segmentInput t x seg now).1 now := by
  have counted : SocketInv { t with statRxSeg := t.statRxSeg + 1 } now := { inv with }
  have arrival := segmentInput_arrival t x seg now
  generalize segmentInput t x seg now = out at arrival
  cases arrival with
  | ignored => exact counted
  | reset flags => exact counted.rest .closed flags (Or.inl rfl)
  | relistens => exact counted.rest .listen {} (Or.inr rfl)
  | connects state _ _ mss bound =>
    have opened := establish_keeps counted (congrArg handshaking state) mss bound
    exact { opened with }
  | synAgain => exact { counted with }
  | accepts state => exact synchronizedInput_keeps (accepted_keeps counted state) rfl x seg
  | proceeds past => exact synchronizedInput_keeps counted (awake_past owned past) x seg

/-! ## Calls -/

/-- A socket at rest with fresh counters, whatever its other fields hold. -/
theorem reset_rests (t : MnTcp) (now : UInt16) (state : TcpState)
    (rests : state = .closed ∨ state = .listen) : SocketInv
    { resetCounters t with state := state } now :=
  Counters.rest ⟨by simp [resetCounters], by simp [resetCounters], by simp [resetCounters],
    by simp [resetCounters], by simp [resetCounters], rfl, by simp [resetCounters],
    by simp [resetCounters], fun flying => absurd rfl flying⟩ rests now

theorem startConnect_keeps (t : MnTcp) (net : MnNet) (ip : Ip4) (port tick now : UInt16) :
    SocketInv (startConnect t net ip port tick) now := by
  have rested := (reset_rests t now .closed (Or.inl rfl)).counters
  have counters : Counters (startConnect t net ip port tick) := { rested with }
  exact counters.begin rfl ⟨rfl, rfl, rfl, rfl, rfl, rfl, rfl, rfl⟩
    (by simp [startConnect, resetCounters]) now

theorem startPassive_keeps (t : MnTcp) (net : MnNet) (src : Ip4) (seg : TcpSeg) (tick now : UInt16) :
    SocketInv (startPassive t net src seg tick) now := by
  have rested := (reset_rests t now .closed (Or.inl rfl)).counters
  obtain ⟨mss, bound, same⟩ := startPassive_socket t net src seg tick
  have counters : Counters (startPassive t net src seg tick) := by
    rw [same]
    exact { rested with mss := bound, flying := fun flying => absurd rfl flying }
  rw [same] at counters ⊢
  exact counters.begin rfl ⟨rfl, rfl, rfl, rfl, rfl, rfl, rfl, rfl⟩ (by simp [resetCounters]) now

/-- Queueing more bytes, as both send calls do. -/
theorem queue_keeps (inv : SocketInv t now) (ready : canSend t = true) (len : UInt16)
    (fits : len.toNat ≤ 3072 - t.sndLen.toNat) :
    SocketInv { t with sndLen := t.sndLen + len, txPending := true } now := by
  have room := inv.sndLen
  have flight := inv.inflight
  have sends := canSend_sending ready
  have sync := (sending_synchronized sends).1
  have longer : (t.sndLen + len).toNat = t.sndLen.toNat + len.toNat := toNat_more (by omega)
  exact { inv with
    inflight := by
      simp only [longer]
      omega
    sndLen := by
      simp only [longer]
      omega
    queued := fun _ _ => rfl
    handshake := fun half => by simp [synchronized_settled sync] at half
    finished := fun _ out => by simp [sends] at out }

theorem afterRecv_keeps (inv : SocketInv t now) (n : UInt16) (held : n.toNat ≤ t.rcvCount.toNat) :
    SocketInv (afterRecv t n) now := by
  have count := inv.rcvCount
  have fewer : (t.rcvCount - n).toNat = t.rcvCount.toNat - n.toNat := toNat_less held
  obtain ⟨owed, same⟩ := afterRecv_socket t n
  rw [same]
  exact { inv with
    rcvHead := by
      simp only [UInt16.toNat_mod, rcvbuf_toNat]
      exact Nat.mod_lt _ (by decide)
    rcvCount := by
      simp only [fewer]
      omega
    handshake := by
      intro half
      obtain ⟨a, b, c, d, e, f, empty, g⟩ := inv.handshake half
      refine ⟨a, b, c, d, e, f, eq_zero_of_toNat ?_, g⟩
      simp only [fewer]
      simp [empty] }

/-- Asking for a FIN, as `mn_tcp_close` does. -/
theorem ask_keeps (inv : SocketInv t now) (sends : sending t.state = true) :
    SocketInv { t with finQueued := true, txPending := true } now :=
  { inv with
    queued := fun _ _ => rfl
    handshake := fun half => by simp [synchronized_settled (sending_synchronized sends).1] at half
    finished := fun _ out => by simp [sends] at out }

theorem aborted_keeps (inv : SocketInv t now) : SocketInv (aborted t) now := by
  have counters : Counters (aborted t) := { inv.counters with
    sndHead := by simp [aborted]
    inflight := by simp [aborted]
    sndLen := by simp [aborted]
    flying := fun flying => absurd rfl flying }
  exact counters.rest (Or.inl rfl) now

/-! ## Polls -/

private theorem rtoAfter_backoff {rto : UInt16} {retries : Nat} (short : retries ≤ 5)
    (exact : rto.toNat = rtoAfter retries) : (backoff rto).toNat = rtoAfter (retries + 1) := by
  have doubled : (rto * 2).toNat = rto.toNat * 2 % 65536 := UInt16.toNat_mul rto 2
  unfold backoff
  split
  · rename_i below
    rw [UInt16.lt_iff_toNat_lt, rto_max_toNat] at below
    rw [doubled]
    interval_cases retries <;> simp_all [rtoAfter]
  · rename_i capped
    rw [UInt16.lt_iff_toNat_lt, rto_max_toNat] at capped
    interval_cases retries <;> simp_all [rtoAfter]

private theorem resendSyn_keeps (inv : SocketInv t now) (half : handshaking t.state = true) (x : XMem)
    (net : MnNet) (tick : UInt16) : SocketInv (resendSyn t x net tick).1 tick :=
  sendSyn_keeps { inv with
    timer := fun sync => by simp [handshaking_unsynchronized half] at sync }

/-- Another retry: the timer doubles. -/
theorem retried_keeps (inv : SocketInv t now) (on : awake t.state) (left : ¬ t.retries + 1 > MAX_RETRIES)
    (tick : UInt16) (early : synchronized t.state = true → t.inflight ≠ 0 → t.sentAt = tick) :
    SocketInv (retried t) tick := by
  obtain ⟨next, patient, last⟩ := retries_left inv on
  have doubled : (backoff t.rto).toNat = rtoAfter (t.retries + 1).toNat := by
    rw [next]
    exact rtoAfter_backoff patient inv.rto
  rw [last] at left
  exact { inv with
    rto := doubled
    retries := by
      simp only [retried, next]
      omega
    live := fun _ _ => by
      simp only [retried, next]
      omega
    timer := fun sync flying => by
      have positive : 0 < 2 ^ (t.retries + 1).toNat := Nat.pow_pos (by decide)
      simp only [retried, early sync flying, elapsed_self, doubled, rtoAfter]
      omega }

/-- Giving up after the last retry. -/
theorem spent_keeps (inv : SocketInv t now) (on : awake t.state) (last : t.retries + 1 > MAX_RETRIES)
    (dest : TcpState) (flags : TcpFlags) (rests : dest = .closed ∨ dest = .listen) (tick : UInt16) :
    SocketInv (spent t dest flags) tick := by
  obtain ⟨next, _, sixth⟩ := retries_left inv on
  have rto := inv.rto
  rw [sixth.mp last] at next rto
  have counters : Counters (spent t dest flags) := { inv.counters with
    rto := by
      simp only [spent, next, rto]
      decide
    retries := Nat.le_of_eq next }
  exact counters.rest rests tick

private theorem pollHandshake_keeps (inv : SocketInv t now)
    (half : handshaking t.state = true) (x : XMem)
    (net : MnNet) (tick : UInt16) : SocketInv (pollHandshake t x net tick).1 tick := by
  have on := handshaking_awake half
  have shake := pollHandshake_shake t x net tick
  generalize pollHandshake t x net tick = out at shake
  cases shake with
  | waits => exact inv.retime tick fun sync => by simp [handshaking_unsynchronized half] at sync
  | pending => exact resendSyn_keeps inv half x net tick
  | again _ left =>
    have backed := retried_keeps inv on left tick fun sync => by
      simp [handshaking_unsynchronized half] at sync
    exact resendSyn_keeps backed half x net tick
  | relistens _ last => exact spent_keeps inv on last .listen {} (Or.inr rfl) tick
  | times_out _ last => exact spent_keeps inv on last .closed _ (Or.inl rfl) tick

private theorem pollTimeWait_keeps (inv : SocketInv t now) (state : t.state = .timeWait) (x : XMem)
    (net : MnNet) (tick : UInt16) : SocketInv (pollTimeWait t x net tick).1 tick := by
  have idle := inv.idle (inv.finished (by simp [state, synchronized]) (by simp [state, sending])).2.2
  have waits : SocketInv t tick := inv.retime tick fun _ flying => absurd idle flying
  obtain ⟨owed, edge, stat, since, dest, rfl | rfl, same⟩ :=
    pollTimeWait_socket t x net tick <;> rw [same]
  · exact { waits with }
  · exact { waits.rest .closed t.flags (Or.inl rfl) with }

/-- The tick a socket is polled at, its retransmission not being due. -/
theorem not_due (inv : SocketInv t now)
    (quiet : synchronized t.state = true → retransmitDue t tick = false) : SocketInv t tick := by
  refine inv.retime tick fun sync flying => ?_
  have quiet := quiet sync
  simp only [retransmitDue, flying, ne_eq, not_false_eq_true, decide_true, Bool.true_or,
    Bool.true_and, decide_eq_false_iff_not] at quiet
  simpa only [ge_iff_le, UInt16.le_iff_toNat_le, Nat.not_le] using quiet

/-- A socket that retransmits has its timer started anew. -/
theorem resent_keeps (inv : SocketInv t now) (sync : synchronized t.state = true)
    (left : ¬ t.retries + 1 > MAX_RETRIES) (tick : UInt16) : SocketInv (resent t tick) tick := by
  have positive := rto_positive inv
  have restarted : SocketInv { t with sentAt := tick, cwnd := t.peerMss } tick :=
    { inv with
      cwnd := fun _ => ⟨1, by decide, by simp, fun none => absurd none (by decide)⟩
      timer := fun _ _ => (elapsed_self tick).trans_lt positive }
  exact retried_keeps restarted (synchronized_awake sync) left tick fun _ _ => rfl

private theorem retransmit_keeps (inv : SocketInv t now) (sync : synchronized t.state = true) (x : XMem)
    (net : MnNet) (tick : UInt16) : SocketInv (retransmit t x net tick).1 tick := by
  have again := retransmit_retransmission t x net tick
  generalize retransmit t x net tick = out at again
  cases again with
  | times_out last => exact spent_keeps inv (synchronized_awake sync) last .closed _ (Or.inl rfl) tick
  | data left => exact emit_keeps (resent_keeps inv sync left tick)
  | fin left => exact emit_keeps (resent_keeps inv sync left tick)

theorem launched_keeps (inv : SocketInv t now) (sync : synchronized t.state = true)
    (more : t.inflight < t.sndLen) (open_ : t.inflight < limit) (pending : t.txPending = true) :
    SocketInv (launched t (nextLength t limit) now) now := by
  have size := nextLength_spec more open_
  have queue := inv.sndLen
  have small := inv.mss
  have positive := rto_positive inv
  have sends := inv.unsent sync more
  have unsent := inv.unfinished sends
  rw [UInt16.lt_iff_toNat_lt] at more
  have longer : (t.inflight + nextLength t limit).toNat =
      t.inflight.toNat + (nextLength t limit).toNat := toNat_more (by omega)
  exact { inv with
    inflight := by
      simp only [launched, longer]
      omega
    flying := by
      intro flying none
      have none : t.peerMss = 0 := none
      have idle : t.inflight = 0 := by
        by_contra busy
        exact inv.flying busy none
      refine flying (eq_zero_of_toNat ?_)
      show (t.inflight + nextLength t limit).toNat = 0
      rw [longer, size, none, idle]
      simp
    queued := fun _ _ => pending
    handshake := fun half => by simp [launched, synchronized_settled sync] at half
    finished := fun _ out => by simp [launched, sends] at out
    span := by
      intro sync
      have span := inv.span sync
      simp only [launched, unsent, Bool.false_eq_true, if_false] at span ⊢
      rw [span, UInt32.add_assoc]
      congr 1
      rw [← UInt32.toNat_inj]
      simp only [UInt32.toNat_add, UInt16.toNat_toUInt32, longer]
      omega
    timer := by
      intro _ flying
      simp only [launched]
      split
      · simpa using positive
      · exact inv.timer sync ‹_› }

private theorem sendQueued_keeps (inv : SocketInv t now) (sync : synchronized t.state = true)
    (pending : t.txPending = true) (x : XMem) (net : MnNet) :
    SocketInv (sendQueued t x net now).1 now := by
  have looped := sendLoop_rule
    (motive := fun t _ => SocketInv t now ∧ synchronized t.state = true ∧ t.txPending = true)
    x now (sendLimit t) (by
      rintro u net ⟨inv, sync, pending⟩ more open_
      obtain ⟨edge, stat, same⟩ :=
        emit_socket u x net dataFlags u.sndNxt u.inflight (nextLength u (sendLimit t)) false
      have stamped : SocketInv { u with advEdge := edge, statTxSeg := stat } now := { inv with }
      dsimp only
      rw [same]
      split
      · exact ⟨launched_keeps stamped sync more open_ pending, sync, pending⟩
      · exact ⟨stamped, sync, pending⟩)
    t.sndLen.toNat t net ⟨inv, sync, pending⟩
  exact { looped.1 with
    queued := by
      intro _ more
      have : (sendLoop x now (sendLimit t) t.sndLen.toNat t net).2.1.sndLen >
        (sendLoop x now (sendLimit t) t.sndLen.toNat t net).2.1.inflight :=
        UInt16.lt_iff_toNat_lt.mpr more
      simp [sendQueued, this] }

/-- A FIN goes out once everything queued is acknowledged. -/
theorem finished_keeps (inv : SocketInv t now) (sync : synchronized t.state = true)
    (unsent : t.finSent = false) (wanted : t.finQueued = true) (idle : t.inflight = 0)
    (empty : t.sndLen = 0) : SocketInv (finished t now) now := by
  have sends : sending t.state = true := by
    by_contra out
    simp [(inv.finished sync (by simpa using out)).1] at unsent
  have span := inv.span sync
  have on := synchronized_awake sync
  obtain ⟨dest, at_, lands, shut, heard⟩ :
      ∃ dest, (if t.state = .closeWait then TcpState.lastAck else .finWait1) = dest ∧
        synchronized dest = true ∧ sending dest = false ∧ heardFin dest = heardFin t.state := by
    revert sends
    cases t.state <;> simp [sending, synchronized, heardFin]
  simp only [finished, at_]
  exact { inv with
    live := fun _ _ => inv.live on.1 on.2
    cwnd := fun _ => inv.cwnd sync
    queued := fun _ => inv.queued sync
    handshake := fun half => by simp [synchronized_settled lands] at half
    unfinished := fun sends => by simp [shut] at sends
    finished := fun _ _ => ⟨rfl, wanted, empty⟩
    span := fun _ => by simp_all
    eof := fun _ => (inv.eof sync).trans heard.symm
    timer := fun _ flying => absurd idle flying }

/-- A poll keeps the invariant, at the tick it was polled at. -/
theorem pollOne_keeps (inv : SocketInv t now) (x : XMem) (net : MnNet) (tick : UInt16) :
    SocketInv (pollOne t x net tick).1 tick := by
  apply pollOne_rule (motive := fun out => SocketInv out.1 tick)
  · exact fun quiet => not_due inv quiet
  · exact fun half => pollHandshake_keeps inv half x net tick
  · exact fun state => pollTimeWait_keeps inv state x net tick
  · exact fun sync _ => retransmit_keeps inv sync x net tick
  · exact fun sync quiet pending _ => sendQueued_keeps (not_due inv fun _ => quiet) sync pending x net
  · intro sync quiet wanted unsent idle empty
    have waiting := not_due inv fun _ => quiet
    obtain ⟨edge, stat, same | same⟩ := sendFin_socket t x net tick <;> rw [same]
    · exact { waiting with }
    · exact finished_keeps { waiting with } sync unsent wanted idle empty
  · intro _ quiet _
    obtain ⟨edge, stat, owed, same⟩ := sendAck_socket t x net
    rw [same]
    exact { not_due inv fun _ => quiet with }

end MegaNet.TcpPreservation
