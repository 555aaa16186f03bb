import MegaNet.TcpSendLimits
import MegaNet.WhileLoop

/-! The send loop of `poll_one` as the source has it, without a bound: it is
left after finitely many turns, since a congestion window that lets a turn
begin is a whole number of segments of at least a byte. -/
namespace MegaNet.TcpSendLoop
open MegaNet.Core Words TcpEmission TcpSocketInvariant TcpOutcomes TcpConnection TcpSendLimits
  TcpSendStream WhileLoop

variable {c : Conn} {t u : MnTcp} {net after : MnNet} {x : XMem}
  {now limit tick : UInt16} {r : SendResult}

/-! ## A turn -/

/-- The body of the `while` loop of `poll_one`, with its condition. -/
def sendTurn (x : XMem) (now limit : UInt16) : MnTcp × MnNet →
    Turn (MnTcp × MnNet) (SendResult × MnTcp × MnNet)
  | (t, net) =>
    if t.sndLen > t.inflight ∧ t.inflight < limit then
      let n := nextLength t limit
      let (r, t, net) := emit t x net dataFlags t.sndNxt t.inflight n false
      if r ≠ .ok then .done (r, t, net) else .next (launched t n now, net)
    else .done (.ok, t, net)

/-- What a turn does that is not the last. -/
theorem sendTurn_next (goes : sendTurn x now limit (t, net) = .next (u, after)) :
    t.inflight < t.sndLen ∧ t.inflight < limit ∧
      ∃ edge stat, u = launched { t with advEdge := edge, statTxSeg := stat }
        (nextLength t limit) now := by
  by_cases more : t.sndLen > t.inflight ∧ t.inflight < limit
  · obtain ⟨edge, stat, emitted⟩ :=
      emit_socket t x net dataFlags t.sndNxt t.inflight (nextLength t limit) false
    refine ⟨more.1, more.2, edge, stat, ?_⟩
    rw [← emitted]
    simp only [sendTurn, if_pos more] at goes
    split at goes
    · cases goes
    · cases goes
      rfl
  · simp only [sendTurn, if_neg more] at goes
    cases goes

/-- And the last: nothing goes in flight. -/
theorem sendTurn_done (leaves : sendTurn x now limit (t, net) = .done (r, u, after)) :
    ∃ edge stat, u = { t with advEdge := edge, statTxSeg := stat } := by
  by_cases more : t.sndLen > t.inflight ∧ t.inflight < limit
  · obtain ⟨edge, stat, emitted⟩ :=
      emit_socket t x net dataFlags t.sndNxt t.inflight (nextLength t limit) false
    refine ⟨edge, stat, ?_⟩
    rw [← emitted]
    simp only [sendTurn, if_pos more] at leaves
    split at leaves
    · cases leaves
      rfl
    · cases leaves
  · simp only [sendTurn, if_neg more] at leaves
    cases leaves
    exact ⟨t.advEdge, t.statTxSeg, rfl⟩

/-- A socket in the send loop that `t` entered: its queue and the peer's MSS are
as they were, and it has no more in flight than the queue and the windows allow,
or than it had. -/
structure Sending (t u : MnTcp) : Prop where
  queue : u.sndLen = t.sndLen
  mss : u.peerMss = t.peerMss
  queued : u.inflight.toNat ≤ u.sndLen.toNat
  windows : u.inflight.toNat ≤ max t.inflight.toNat (min t.sndWnd.toNat t.cwnd.toNat)

/-- A congestion window that is open holds a segment of at least a byte. -/
theorem segment_pos (inv : SocketInv t now) (sync : synchronized t.state = true)
    (open_ : u.inflight < sendLimit t) : 0 < t.peerMss.toNat := by
  obtain ⟨k, _, segments, _⟩ := inv.cwnd sync
  have limit := sendLimit_toNat t
  rw [UInt16.lt_iff_toNat_lt] at open_
  exact Nat.pos_of_mul_pos_left (show 0 < k * t.peerMss.toNat by omega)

/-- A turn puts at least a byte more in flight, and moves `snd_nxt` by as much. -/
theorem Sending.turn (inv : SocketInv t now) (sync : synchronized t.state = true) (sending : Sending t u)
    {u' : MnTcp} (goes : sendTurn x tick (sendLimit t) (u, net) = .next (u', after)) :
    Sending t u' ∧ ∃ n : UInt16, 1 ≤ n.toNat ∧ u'.inflight.toNat = u.inflight.toNat + n.toNat ∧
      u'.sndNxt = u.sndNxt + n.toUInt32 := by
  obtain ⟨more, open_, edge, stat, rfl⟩ := sendTurn_next goes
  have size := nextLength_spec more open_
  have whole := segment_pos inv sync open_
  have limit := sendLimit_toNat t
  rw [UInt16.lt_iff_toNat_lt] at more open_
  rw [← sending.mss] at whole
  have queue := u.sndLen.toNat_lt
  have longer : (u.inflight + nextLength u (sendLimit t)).toNat =
      u.inflight.toNat + (nextLength u (sendLimit t)).toNat := toNat_more (by omega)
  refine ⟨⟨sending.queue, sending.mss, ?_, ?_⟩, nextLength u (sendLimit t), by omega, longer, rfl⟩
  · show (u.inflight + nextLength u (sendLimit t)).toNat ≤ u.sndLen.toNat
    omega
  · show (u.inflight + nextLength u (sendLimit t)).toNat ≤ _
    omega

/-! ## The loop -/

/-- `sendLoop` counts the turns of the loop. -/
theorem sendLoop_turn (fuel : Nat) (t : MnTcp) (net : MnNet) :
    sendLoop x now limit (fuel + 1) t net =
      (sendTurn x now limit (t, net)).then_ fun s => sendLoop x now limit fuel s.1 s.2 := by
  by_cases more : t.sndLen > t.inflight ∧ t.inflight < limit
  · simp only [sendLoop, sendTurn, if_pos more]
    split <;> rfl
  · simp only [sendLoop, sendTurn, if_neg more]
    rfl

/-- With nothing left to send it is left at once. -/
theorem sendTurn_empty (none_ : t.sndLen.toNat - t.inflight.toNat = 0) :
    sendTurn x now limit (t, net) = .done (.ok, t, net) := by
  have empty : ¬(t.sndLen > t.inflight ∧ t.inflight < limit) := by
    rintro ⟨more, _⟩
    rw [gt_iff_lt, UInt16.lt_iff_toNat_lt] at more
    omega
  simp only [sendTurn, if_neg empty]

/-- `poll_one` comes to its send loop. -/
def entersLoop (t : MnTcp) (tick : UInt16) : Bool :=
  synchronized t.state && t.state != .timeWait && !retransmitDue t tick && t.txPending &&
    t.sndLen > t.inflight

theorem pollOne_enters (enters : entersLoop t tick = true) (x : XMem) (net : MnNet) :
    synchronized t.state = true ∧ pollOne t x net tick = sendQueued t x net tick := by
  simp only [entersLoop, Bool.and_eq_true, bne_iff_ne, Bool.not_eq_true', decide_eq_true_eq] at enters
  obtain ⟨⟨⟨⟨sync, past⟩, quiet⟩, pending⟩, more⟩ := enters
  refine ⟨sync, ?_⟩
  cases state : t.state <;> simp_all [pollOne, synchronized]

/-- In every connection, against any peer and over any link: when `poll_one`
comes to its send loop, the loop is left, after no more turns than there are
bytes to send. Every turn but the last puts at least a byte more in flight and
moves `snd_nxt` by as many, and in the end no more is in flight than is queued,
nor than both windows allow or was in flight before. -/
theorem send_loop_ends (run : Conn.Run c) (net : MnNet) (tick : UInt16)
    (enters : entersLoop c.t tick = true) :
    ∃ turns r u after, Runs (sendTurn c.x tick (sendLimit c.t)) (c.t, net) turns (r, u, after) ∧
      (∀ turns' out, Runs (sendTurn c.x tick (sendLimit c.t)) (c.t, net) turns' out →
        turns' = turns ∧ out = (r, u, after)) ∧
      pollOne c.t c.x net tick =
        ({ u with txPending := u.sndLen > u.inflight || r == .pending }, after) ∧
      turns.length ≤ c.t.sndLen.toNat - c.t.inflight.toNat ∧
      (∀ turn ∈ turns, ∃ n : UInt16, 1 ≤ n.toNat ∧
        turn.2.1.inflight.toNat = turn.1.1.inflight.toNat + n.toNat ∧
        turn.2.1.sndNxt = turn.1.1.sndNxt + n.toUInt32) ∧
      u.inflight.toNat ≤ max c.t.inflight.toNat (min c.t.sndWnd.toNat c.t.cwnd.toNat) ∧
      u.sndLen = c.t.sndLen ∧ u.inflight.toNat ≤ c.t.sndLen.toNat := by
  obtain ⟨sync, polled⟩ := pollOne_enters enters c.x net
  have inv := run.socketInv
  have keeps : ∀ s s', Sending c.t s.1 → sendTurn c.x tick (sendLimit c.t) s = .next s' →
      Sending c.t s'.1 ∧ s'.1.sndLen.toNat - s'.1.inflight.toNat <
        s.1.sndLen.toNat - s.1.inflight.toNat := by
    rintro ⟨t, net⟩ ⟨u, after⟩ sending goes
    obtain ⟨after, n, some_, longer, _⟩ := sending.turn inv sync goes
    have same := sending.queue
    have same' := after.queue
    have most := after.queued
    refine ⟨after, ?_⟩
    dsimp only at *
    rw [same', ← same] at *
    omega
  have start : Sending c.t c.t := ⟨rfl, rfl, inv.inflight, Nat.le_max_left ..⟩
  obtain ⟨turns, ⟨r, u, after⟩, runs, few⟩ := Runs.of_variant (a := (c.t, net)) keeps start
  obtain ⟨all, ⟨last, rest⟩, sending, leaves⟩ :=
    runs.invariant (fun s s' inv goes => (keeps s s' inv goes).1) start
  obtain ⟨edge, stat, rfl⟩ := sendTurn_done leaves
  have zero : ∀ (s : MnTcp × MnNet) out, s.1.sndLen.toNat - s.1.inflight.toNat = 0 →
      sendTurn c.x tick (sendLimit c.t) s = .done out →
        sendLoop c.x tick (sendLimit c.t) 0 s.1 s.2 = out := by
    rintro ⟨t, net⟩ out none_ leaves
    cases (sendTurn_empty none_).symm.trans leaves
    rfl
  have counted := runs.counted (f := fun fuel s => sendLoop c.x tick (sendLimit c.t) fuel s.1 s.2) zero
    (fun fuel s => sendLoop_turn fuel s.1 s.2) keeps start (n := c.t.sndLen.toNat) (Nat.sub_le ..)
  refine ⟨turns, r, _, after, runs, fun _ _ other => runs.unique other, ?_, few, ?_,
    sending.windows, sending.queue, ?_⟩
  · rw [polled]
    dsimp only at counted
    simp only [sendQueued, counted]
  · rintro ⟨⟨t, net⟩, u, after⟩ member
    obtain ⟨sending, goes⟩ := all _ member
    exact (sending.turn inv sync goes).2
  · exact sending.queue ▸ sending.queued

theorem send_loop_ends_threeQueued :
    entersLoop threeQueued.t 65530 = true ∧
    ∃ turns r u after, Runs (sendTurn threeQueued.x 65530 (sendLimit threeQueued.t))
      (threeQueued.t, goodNet) turns
      (r, u, after) ∧ turns.length ≤ 3 ∧ u.inflight.toNat ≤ 3 := by
  have enters : entersLoop threeQueued.t 65530 = true := by decide +kernel
  obtain ⟨turns, r, u, after, runs, _, _, few, _, _, _, queued⟩ :=
    send_loop_ends threeQueued_run goodNet 65530 enters
  have three : threeQueued.t.sndLen.toNat = 3 := by decide +kernel
  rw [three] at few queued
  exact ⟨enters, turns, r, u, after, runs, Nat.le_trans few (Nat.sub_le ..), queued⟩

end MegaNet.TcpSendLoop
