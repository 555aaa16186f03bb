import MegaNet.TcpRetransmission

/-! Polls in a row, with no segment arriving in between: queued data is sent,
or the connection given up, unless the window and the congestion window leave
no room for a first byte. -/
namespace MegaNet.TcpProgress
open MegaNet.Core SerialNumber Words TcpEmission TcpSocketInvariant TcpOutcomes
  TcpPreservation TcpConnection
  TcpSendStream TcpSetRuns TcpTurns

variable {w : World} {net : MnNet} {t : MnTcp} {i : Nat}

/-- Polls one after another, each over the net it finds and at its tick. -/
abbrev Polls := List (MnNet × UInt16)

/-- The set after some polls. -/
def afterPolls (w : World) : Polls → World
  | [] => w
  | (net, now) :: rest => afterPolls (w.exec net (.poll now)).1 rest

/-- The ticks that pass over some polls, counted from `since`. -/
def advance (since : UInt16) : Polls → Nat
  | [] => 0
  | (_, now) :: rest => (now - since).toNat + advance now rest

/-- Every poll finds the next hop known and the link accepting, less than half
the clock's range after the one before. -/
def InOrder (dst : Ip4) (since : UInt16) : Polls → Prop
  | [] => True
  | (net, now) :: rest =>
    net.Resolves dst ∧ net.Accepts ∧ (now - since).toNat < 32768 ∧ InOrder dst now rest

/-- At one of the polls socket `i` hands the link bytes of its send ring. -/
def SendsData (i : Nat) (w : World) : Polls → Prop
  | [] => False
  | (net, now) :: rest =>
    (∃ t, w.set.sock[i]? = some t ∧ ∃ seg ∈ turnSegments w net i now t, seg.data ≠ []) ∨
      SendsData i (w.exec net (.poll now)).1 rest

/-- After the polls socket `i` is closed, reporting a timeout. -/
def TimesOut (i : Nat) (w : World) (polls : Polls) : Prop :=
  ∃ t, (afterPolls w polls).set.sock[i]? = some t ∧ t.state = .closed ∧ t.flags.timeout = true

/-- Polls leave a closed socket as it is. -/
theorem closed_polls (found : w.set.sock[i]? = some t) (closed : t.state = .closed) (polls : Polls) :
    (afterPolls w polls).set.sock[i]? = some t := by
  induction polls generalizing w with
  | nil => exact found
  | cons poll rest ih =>
    refine ih ?_
    rw [(poll_turn found poll.1 poll.2).1]
    simp [turn, pollOne, closed]

private theorem sendLimit_positive (t : MnTcp) : 0 < sendLimit t ↔ 0 < t.sndWnd ∧ 0 < t.cwnd := by
  unfold sendLimit
  simp only [UInt16.lt_iff_toNat_lt, UInt16.toNat_zero]
  split <;> omega

/-- What a poll that neither retransmits nor sends data leaves of a sending
socket. -/
structure Resting (t u : MnTcp) : Prop where
  state : u.state = t.state
  inflight : u.inflight = t.inflight
  sndLen : u.sndLen = t.sndLen
  sndWnd : u.sndWnd = t.sndWnd
  cwnd : u.cwnd = t.cwnd
  rto : u.rto = t.rto
  sentAt : u.sentAt = t.sentAt
  remoteIp : u.remoteIp = t.remoteIp

private theorem carries_data (t : MnTcp) (x : XMem) (flags : SegFlags) (seq : UInt32) (off len : UInt16)
    (mss : Bool) (some_ : 0 < len.toNat) : (buildSegment t x flags seq off len mss).data ≠ [] := by
  intro none
  have length : (buildSegment t x flags seq off len mss).data.length = len.toNat := ringRead_length ..
  rw [none, List.length_nil] at length
  omega

private theorem retransmit_moves (inv : SocketInv t tick) (sends : sending t.state = true)
    (due : retransmitDue t now = true) (known : net.Resolves t.remoteIp) (accepting : net.Accepts)
    (x : XMem) :
    ((retransmit t x net now).1.state = .closed ∧ (retransmit t x net now).1.flags.timeout = true) ∨
      ∃ seg ∈ segmentsHanded net (retransmit t x net now).2, seg.data ≠ [] := by
  have flying : t.inflight ≠ 0 := by
    simp only [retransmitDue, inv.unfinished sends, Bool.and_eq_true, Bool.or_false,
      decide_eq_true_eq] at due
    simpa using due.1
  have size := inv.flying flying
  simp only [ne_eq, ← UInt16.toNat_inj, UInt16.toNat_zero] at flying size
  have again := retransmit_retransmission t x net now
  generalize retransmit t x net now = out at again
  cases again with
  | times_out => exact Or.inl ⟨rfl, rfl⟩
  | fin _ idle => simp [idle] at flying
  | data =>
    obtain ⟨_, handed⟩ :=
      emit_handed (t := resent t now) known accepting x dataFlags t.sndUna 0 (oldest t)
      false
    right
    rw [handed]
    refine ⟨_, List.mem_singleton.mpr rfl, carries_data _ x _ _ _ _ _ ?_⟩
    rw [oldest, toNat_clamp]
    omega

private theorem sendQueued_moves (inv : SocketInv t tick) (sync : synchronized t.state = true)
    (more : t.inflight < t.sndLen) (open_ : t.inflight < sendLimit t)
    (known : net.Resolves t.remoteIp) (accepting : net.Accepts) (x : XMem) (now : UInt16) :
    ∃ seg ∈ segmentsHanded net (sendQueued t x net now).2, seg.data ≠ [] := by
  refine ⟨_, sendQueued_first known accepting x now more open_, carries_data _ x _ _ _ _ _ ?_⟩
  have positive : 0 < sendLimit t := by
    rw [UInt16.lt_iff_toNat_lt] at open_ ⊢
    rw [UInt16.toNat_zero]
    omega
  have mss : 0 < t.peerMss.toNat := by
    obtain ⟨k, _, whole, _⟩ := inv.cwnd sync
    have := ((sendLimit_positive t).mp positive).2
    rw [UInt16.lt_iff_toNat_lt, whole, UInt16.toNat_zero] at this
    exact Nat.pos_of_mul_pos_left this
  rw [nextLength_spec more open_]
  rw [UInt16.lt_iff_toNat_lt] at more open_
  omega

private theorem sendAck_rests (t : MnTcp) (x : XMem) (net : MnNet) :
    Resting t (sendAck t x net).1 ∧ ∀ seg ∈ segmentsHanded net (sendAck t x net).2, seg.data = [] := by
  have bare : ∀ seg ∈ segmentsHanded net (emit t x net ackFlags t.sndNxt 0 0 false).2.2, seg.data = [] :=
    (emit_sends net (buildSegment_empty t x)).segments
  obtain ⟨edge, stat, owed, same⟩ := sendAck_socket t x net
  refine ⟨?_, bare⟩
  rw [same]
  exact ⟨rfl, rfl, rfl, rfl, rfl, rfl, rfl, rfl⟩

/-- One turn of a socket with data queued: it gives up, sends some, or rests. -/
theorem turn_step (run : World.Run w) (found : w.set.sock[i]? = some t) (sends : sending t.state = true)
    (queued : t.sndLen ≠ 0) (known : net.Resolves t.remoteIp) (accepting : net.Accepts) (now : UInt16) :
    if retransmitDue t now = true ∨ t.inflight < t.sndLen ∧ t.inflight < sendLimit t then
      ((turn w net i now t).1.state = .closed ∧ (turn w net i now t).1.flags.timeout = true) ∨
        ∃ seg ∈ turnSegments w net i now t, seg.data ≠ []
    else Resting t (turn w net i now t).1 ∧ ∀ seg ∈ turnSegments w net i now t, seg.data = [] := by
  have inv := World.Run.socketInv run found
  have routes := turn_routes w net i now
  rw [← same_routes_resolves routes] at known
  rw [← same_routes_accepts routes] at accepting
  obtain ⟨sync, waiting⟩ := sending_synchronized sends
  unfold turnSegments turn
  generalize turnNet w net i now = net at known accepting
  rw [pollOne_open sync waiting]
  by_cases due : retransmitDue t now = true
  · rw [if_pos (Or.inl due), if_pos due]
    exact retransmit_moves inv sends due known accepting w.x
  rw [if_neg due]
  by_cases more : t.inflight < t.sndLen
  · have pending := inv.queued sync (UInt16.lt_iff_toNat_lt.mp more)
    rw [if_pos (show t.txPending = true ∧ t.sndLen > t.inflight from ⟨pending, more⟩)]
    by_cases open_ : t.inflight < sendLimit t
    · rw [if_pos (Or.inr ⟨more, open_⟩)]
      exact Or.inr (sendQueued_moves inv sync more open_ known accepting w.x now)
    · rw [if_neg (by simp [due, open_]), sendQueued_shut w.x net now open_]
      exact ⟨⟨rfl, rfl, rfl, rfl, rfl, rfl, rfl, rfl⟩,
        by simp [segmentsHanded, handed_since (Handed.refl net)]⟩
  · rw [if_neg (by simp [due, more]), if_neg (by simp [more]), if_neg (by simp [queued])]
    split
    · exact sendAck_rests t w.x net
    · exact ⟨⟨rfl, rfl, rfl, rfl, rfl, rfl, rfl, rfl⟩,
        by simp [segmentsHanded, handed_since (Handed.refl net)]⟩

/-- With nothing in flight and no room for a first byte, no poll moves
anything. -/
private theorem stuck_polls (run : World.Run w) (found : w.set.sock[i]? = some t)
    (sends : sending t.state = true) (queued : t.sndLen ≠ 0) (idle : t.inflight = 0)
    (shut : ¬ 0 < sendLimit t) (polls : Polls) (order : InOrder t.remoteIp w.set.now polls) :
    ¬ SendsData i w polls ∧ ¬ TimesOut i w polls := by
  induction polls generalizing w t with
  | nil =>
    refine ⟨id, ?_⟩
    rintro ⟨u, there, closed, _⟩
    rw [afterPolls, found] at there
    cases there
    simp [closed, sending] at sends
  | cons poll rest ih =>
    obtain ⟨net, now⟩ := poll
    obtain ⟨known, accepting, _, later⟩ := order
    have quiet : retransmitDue t now = false := by
      have inv := World.Run.socketInv run found
      simp [retransmitDue, idle, inv.unfinished sends]
    have step := turn_step run found sends queued known accepting now
    rw [if_neg (by simp [quiet, idle, shut])] at step
    obtain ⟨rests, silent⟩ := step
    have limit : sendLimit (turn w net i now t).1 = sendLimit t := by
      simp only [sendLimit, rests.sndWnd, rests.cwnd]
    obtain ⟨unsent, untimed⟩ := ih (run.next ⟨net, .poll now, rfl⟩) (poll_turn found net now).1
      (rests.state ▸ sends) (rests.sndLen ▸ queued) (rests.inflight.trans idle) (limit ▸ shut)
      (by rw [rests.remoteIp]; exact later)
    refine ⟨?_, untimed⟩
    rintro (⟨u, there, seg, member, data⟩ | sent)
    · rw [found] at there
      cases there
      exact data (silent seg member)
    · exact unsent sent

/-- With bytes in flight, the timer runs out before the polls do. -/
private theorem flying_polls (run : World.Run w) (found : w.set.sock[i]? = some t)
    (sends : sending t.state = true) (queued : t.sndLen ≠ 0) (flying : t.inflight ≠ 0) (polls : Polls)
    (order : InOrder t.remoteIp w.set.now polls)
    (long : t.rto.toNat ≤ (w.set.now - t.sentAt).toNat + advance w.set.now polls) :
    SendsData i w polls ∨ TimesOut i w polls := by
  induction polls generalizing w t with
  | nil =>
    have early := (World.Run.socketInv run found).timer (sending_synchronized sends).1 flying
    simp only [advance] at long
    omega
  | cons poll rest ih =>
    obtain ⟨net, now⟩ := poll
    obtain ⟨known, accepting, near, later⟩ := order
    have inv := World.Run.socketInv run found
    have early := inv.timer (sending_synchronized sends).1 flying
    have short := inv.short
    have step := turn_step run found sends queued known accepting now
    split at step
    · rcases step with ⟨closed, timeout⟩ | ⟨seg, member, data⟩
      · exact Or.inr ⟨_, closed_polls (poll_turn found net now).1 closed rest, closed, timeout⟩
      · exact Or.inl (Or.inl ⟨t, found, seg, member, data⟩)
    · obtain ⟨rests, _⟩ := step
      -- The clock has moved on, and not round.
      have elapsed : (now - t.sentAt).toNat = (w.set.now - t.sentAt).toNat + (now - w.set.now).toNat :=
        elapsed_add (by omega)
      rcases ih (run.next ⟨net, .poll now, rfl⟩) (poll_turn found net now).1 (rests.state ▸ sends)
        (rests.sndLen ▸ queued) (rests.inflight ▸ flying) (by rw [rests.remoteIp]; exact later) (by
          show _ ≤ (now - _).toNat + advance now rest
          rw [rests.rto, rests.sentAt, elapsed]
          simp only [advance] at long
          omega) with sent | timed
      · exact Or.inl (Or.inr sent)
      · exact Or.inr timed

/-- Whatever is queued, polls that go on for the longest timeout send some of
it or give the connection up, exactly when bytes are in flight already or the
two windows let a first byte out. -/
theorem queued_data_moves_iff (run : World.Run w) (found : w.set.sock[i]? = some t)
    (sends : t.state = .established ∨ t.state = .closeWait) (queued : t.sndLen ≠ 0) (polls : Polls)
    (order : InOrder t.remoteIp w.set.now polls) (long : 400 ≤ advance w.set.now polls) :
    (SendsData i w polls ∨ TimesOut i w polls) ↔ t.inflight ≠ 0 ∨ 0 < t.sndWnd ∧ 0 < t.cwnd := by
  have inv := World.Run.socketInv run found
  have open_ : sending t.state = true := by rcases sends with state | state <;> simp [state, sending]
  rw [← sendLimit_positive]
  constructor
  · intro moves
    by_contra stuck
    simp only [not_or, not_not] at stuck
    obtain ⟨unsent, untimed⟩ := stuck_polls run found open_ queued stuck.1 stuck.2 polls order
    exact moves.elim unsent untimed
  intro movable
  by_cases flying : t.inflight = 0
  · -- Nothing in flight: the first poll sends.
    cases polls with
    | nil => simp [advance] at long
    | cons poll rest =>
      obtain ⟨net, now⟩ := poll
      obtain ⟨known, accepting, _, _⟩ := order
      have room : 0 < sendLimit t := by simpa [flying] using movable
      have more : t.inflight < t.sndLen := by
        rw [UInt16.lt_iff_toNat_lt, flying, UInt16.toNat_zero]
        exact Nat.pos_of_ne_zero fun none => queued (by rw [← UInt16.toNat_inj]; simpa using none)
      have step := turn_step run found open_ queued known accepting now
      rw [if_pos (Or.inr ⟨more, flying ▸ room⟩)] at step
      rcases step with ⟨closed, timeout⟩ | ⟨seg, member, data⟩
      · exact Or.inr ⟨_, closed_polls (poll_turn found net now).1 closed rest, closed, timeout⟩
      · exact Or.inl (Or.inl ⟨t, found, seg, member, data⟩)
  · have short := inv.short
    exact flying_polls run found open_ queued flying polls order (by omega)

/-- That connection with the SYN|ACK acknowledged and one byte queued. -/
def byteQueued : World :=
  World.execAll shutWindow [(goodNet, .poll 2), (goodNet, .send 0 [7] 1 (by decide))]

theorem byteQueued_run : World.Run byteQueued := World.Run.execAll shutWindow_run _

/-- The same with the window opened by a later segment. -/
def windowOpened : World :=
  (byteQueued.exec goodNet (.input neighbour
    (fromPeer 49156 1001 65538 { ack := true } 1000 [] nothing_fits))).1

theorem queued_data_moves_iff_windowOpened :
    SendsData 0 windowOpened [(goodNet, 500)] ∨ TimesOut 0 windowOpened [(goodNet, 500)] := by
  obtain ⟨t, found, state, queued, ip, wnd, cwnd⟩ := socket_where windowOpened 0
    (fun t => t.state = .established ∧ t.sndLen ≠ 0 ∧ t.remoteIp = neighbour ∧ 0 < t.sndWnd ∧ 0 < t.cwnd)
    (by decide +kernel)
  refine (queued_data_moves_iff (byteQueued_run.next ⟨goodNet, _, rfl⟩) found (Or.inl state) queued
    [(goodNet, 500)] ?_ (by decide +kernel)).mpr (Or.inr ⟨wnd, cwnd⟩)
  exact ⟨ip ▸ goodNet_resolves, goodNet_accepts, by decide +kernel, trivial⟩

/-- A window closed with nothing in flight stalls for good: there is no probe. -/
theorem closed_window_stalls :
    ¬ ∀ (w : World) (i : Nat) (t : MnTcp) (polls : Polls), World.Run w → w.set.sock[i]? = some t →
      (t.state = .established ∨ t.state = .closeWait) → t.sndLen ≠ 0 →
      InOrder t.remoteIp w.set.now polls → 400 ≤ advance w.set.now polls →
      SendsData i w polls ∨ TimesOut i w polls := by
  intro moves
  obtain ⟨t, found, state, queued, ip, silent⟩ := socket_where byteQueued 0
    (fun t => t.state = .established ∧ t.sndLen ≠ 0 ∧ t.remoteIp = neighbour ∧
      ∀ seg ∈ turnSegments byteQueued goodNet 0 500 t, seg.data = []) (by decide +kernel)
  obtain ⟨u, after, open_⟩ := socket_where (afterPolls byteQueued [(goodNet, 500)]) 0
    (fun t => t.state = .established) (by decide +kernel)
  rcases moves byteQueued 0 t [(goodNet, 500)] byteQueued_run found (Or.inl state) queued
      ⟨ip ▸ goodNet_resolves, goodNet_accepts, by decide +kernel, trivial⟩ (by decide +kernel) with
    sent | ⟨v, there, closed, _⟩
  · rcases sent with ⟨v, there, seg, member, data⟩ | none
    · rw [found] at there
      cases there
      exact data (silent seg member)
    · exact none
  · rw [after] at there
    cases there
    simp [closed] at open_

end MegaNet.TcpProgress
