import MegaNet.TcpHalfOpen
import MegaNet.TcpStateAgreement
import MegaNet.TcpTimeWait

/-! How long a peer that acknowledges nothing more is waited for: as long as
the retries last, whatever else happens to the connection meanwhile. -/
namespace MegaNet.TcpDeadPeer
open MegaNet.Core SerialNumber Words TcpEmission TcpSocketInvariant TcpOutcomes
  TcpPreservation TcpConnection
  TcpRecvStream TcpLifetime TcpStateAgreement Transition
open TcpHalfOpen (patience patience_most patience_next)
open TcpSendStream (synAck)
open TcpTimeWait (ticks)

variable {c : Conn} {t u : MnTcp} {x : XMem} {net : MnNet} {op : Op} {seg : TcpSeg} {now tick : UInt16}

/-- Bytes are in flight, or our FIN is out and not acknowledged. -/
def Unanswered (t : MnTcp) : Prop := t.inflight ≠ 0 ∨ t.finSent = true ∧ t.sndUna ≠ t.sndNxt

instance (t : MnTcp) : Decidable (Unanswered t) :=
  inferInstanceAs (Decidable (t.inflight ≠ 0 ∨ t.finSent = true ∧ t.sndUna ≠ t.sndNxt))

/-- An operation retransmits when it is counted so, or when a synchronized
connection hands down a segment from before `snd_nxt`. -/
def repeats (c : Conn) (net : MnNet) (op : Op) : Bool :=
  (c.exec net op).1.t.statRetrans != c.t.statRetrans ||
    synchronized c.t.state &&
      (segmentsHanded net (c.exec net op).2).any fun seg => precedes seg.seq c.t.sndNxt

/-- How often a connection retransmits until it is closed. -/
def retransmissions : Conn → List (MnNet × Op) → Nat
  | _, [] => 0
  | c, (net, op) :: rest =>
    if c.t.state = .closed then 0
    else (if repeats c net op then 1 else 0) + retransmissions (c.exec net op).1 rest

/-- Until the connection is closed `snd_una` stays where it is, and no other
begins. -/
def Stalled : Conn → List (MnNet × Op) → Prop
  | _, [] => True
  | c, (net, op) :: rest =>
    c.t.state = .closed ∨
      ¬ Opens c op ∧ (c.exec net op).1.t.sndUna = c.t.sndUna ∧ Stalled (c.exec net op).1 rest

/-- A poll comes at least once every `most` ticks. -/
def Prompt (most : Nat) : Conn → List (MnNet × Op) → Prop
  | _, [] => True
  | c, (net, op) :: rest => ticks c.now op ≤ most ∧ Prompt most (c.exec net op).1 rest

/-- The ticks that pass. -/
def duration : Conn → List (MnNet × Op) → Nat
  | _, [] => 0
  | c, (net, op) :: rest => ticks c.now op + duration (c.exec net op).1 rest

/-- Within `budget` ticks the socket is CLOSED. -/
def ClosedWithin (budget : Nat) (c : Conn) (steps : List (MnNet × Op)) : Prop :=
  ∃ k, duration c (steps.take k) ≤ budget ∧ (c.execAll (steps.take k)).t.state = .closed

/-! ## Segments that acknowledge nothing new -/

/-- What is outstanding, and the timer on it. -/
def watch (t : MnTcp) : UInt32 × UInt16 × Bool × UInt16 × UInt16 × UInt8 × UInt16 :=
  (t.sndNxt, t.inflight, t.finSent, t.sentAt, t.rto, t.retries, t.statRetrans)

/-- An acknowledgement moves `snd_una` to where it was not, or nothing. -/
theorem handleAck_moves (t : MnTcp) (ack : UInt32) (now : UInt16) :
    handleAck t ack now = t ∨ (handleAck t ack now).sndUna = ack ∧ ack ≠ t.sndUna := by
  rw [handleAck_eq]
  split
  · exact Or.inl rfl
  · rename_i fresh
    refine Or.inr ⟨rfl, fun same => fresh ?_⟩
    rw [Bool.or_eq_true, upTo_iff, same, UInt32.sub_self]
    exact Or.inl (Or.inl rfl)

private theorem finAcked_watch (t : MnTcp) : (finAcked t).sndUna = t.sndUna ∧
    watch (finAcked t) = watch t := by
  obtain same | same := finAcked_socket t <;> rw [same] <;> exact ⟨rfl, rfl⟩

private theorem inOrder_watch (sync : synchronized t.state = true) (x : XMem)
    (seg : TcpSeg) (now : UInt16) :
    (inOrder t x seg now).1.sndUna = (handleAck t seg.ack now).sndUna ∧
      watch (inOrder t x seg now).1 = watch (handleAck t seg.ack now) := by
  rw [(inOrder_eq sync x seg now).1, (finAcked_watch _).1, (finAcked_watch _).2]
  split <;> exact ⟨rfl, rfl⟩

/-- Past the handshake a segment moves `snd_una` to where it was not, or lets
the timer run. -/
theorem synchronizedInput_moves (sync : synchronized t.state = true) (x : XMem)
    (seg : TcpSeg) (now : UInt16) :
    (synchronizedInput t x seg now).1.sndUna = t.sndUna ∧
      watch (synchronizedInput t x seg now).1 = watch t ∨
      (synchronizedInput t x seg now).1.sndUna = seg.ack ∧ seg.ack ≠ t.sndUna := by
  unfold synchronizedInput
  split
  · exact Or.inl ⟨rfl, rfl⟩
  split
  · obtain ⟨ooo, owed, same⟩ := outOfOrder_socket t seg
    rw [same]
    obtain stays | moves := handleAck_moves { t with statOoo := ooo, ackPending := owed } seg.ack now
    · rw [stays]
      exact Or.inl ⟨rfl, rfl⟩
    · exact Or.inr moves
  · obtain ⟨una, same⟩ := inOrder_watch sync x seg now
    rw [una, same]
    obtain stays | moves := handleAck_moves t seg.ack now
    · rw [stays]
      exact Or.inl ⟨rfl, rfl⟩
    · exact Or.inr moves

/-- A segment after which `snd_una` is where it was lets the timer run. -/
theorem segmentInput_watch (inv : SocketInv t now) (owned : awake t.state) (x : XMem) (seg : TcpSeg)
    (una : (segmentInput t x seg now).1.sndUna = t.sndUna) : watch
    (segmentInput t x seg now).1 = watch t := by
  -- A handshake that ends takes `snd_una` past the SYN.
  have passes : handshaking t.state = true → t.sndNxt ≠ t.sndUna := by
    intro half same
    obtain ⟨_, _, _, _, first, next, _⟩ := inv.handshake half
    rw [first, next] at same
    simp at same
  have arrival := segmentInput_arrival t x seg now
  generalize segmentInput t x seg now = out at arrival una
  cases arrival with
  | ignored | reset | relistens | synAgain => rfl
  | connects state => exact absurd una (passes (congrArg handshaking state))
  | accepts state _ _ _ answers =>
    obtain ⟨same, _⟩ | ⟨moved, apart⟩ := synchronizedInput_moves
      (t := accepted { t with statRxSeg := t.statRxSeg + 1 }) rfl x seg now
    · exact absurd (same.symm.trans una) (passes (congrArg handshaking state))
    · exact absurd answers apart
  | proceeds past =>
    obtain ⟨_, same⟩ | ⟨moved, apart⟩ := synchronizedInput_moves
      (t := { t with statRxSeg := t.statRxSeg + 1 }) (awake_past owned past) x seg now
    · exact same
    · exact absurd (moved.symm.trans una) apart

/-! ## What a connection claims of its FIN -/

/-- A state that says our FIN is acknowledged is right, and a listening socket
has nothing outstanding. -/
structure Candid (t : MnTcp) : Prop where
  honest : Honest t
  blank : t.state = .listen → t.inflight = 0 ∧ t.finSent = false

/-- In every other state there is nothing to claim. -/
theorem candid_open (open_ : finDone t.state = false) (busy : t.state ≠ .listen) : Candid t :=
  ⟨fun done => by simp [open_] at done, fun rests => absurd rests busy⟩

/-- Only these fields matter. -/
theorem Candid.same (candid : Candid t) (state : u.state = t.state) (una : u.sndUna = t.sndUna)
    (next : u.sndNxt = t.sndNxt) (flight : u.inflight = t.inflight)
    (fin : u.finSent = t.finSent) : Candid u := by
  obtain ⟨honest, blank⟩ := candid
  constructor
  · unfold Honest at honest ⊢
    rwa [state, una, next]
  · rwa [state, flight, fin]

private theorem synchronizedInput_honest (inv : SocketInv t now) (sync : synchronized t.state = true)
    (honest : Honest t)
    (x : XMem) (seg : TcpSeg) : Honest (synchronizedInput t x seg now).1 := by
  unfold synchronizedInput
  split
  · exact honest
  split
  · obtain ⟨ooo, owed, same⟩ := outOfOrder_socket t seg
    have noted : SocketInv { t with statOoo := ooo, ackPending := owed } now := { inv with }
    rw [same]
    exact handleAck_honest noted honest seg.ack now
  · exact (inOrder_keyed inv sync honest x seg).honest

private theorem synchronizedInput_candid (inv : SocketInv t now) (sync : synchronized t.state = true)
    (honest : Honest t)
    (x : XMem) (seg : TcpSeg) : Candid (synchronizedInput t x seg now).1 := by
  refine ⟨synchronizedInput_honest inv sync honest x seg, fun rests => ?_⟩
  obtain going | closed := synchronizedInput_state sync x seg now
  · simp [rests, synchronized] at going
  · simp [rests] at closed

private theorem segmentInput_candid (inv : SocketInv t now) (owned : awake t.state)
    (candid : Candid t) (x : XMem)
    (seg : TcpSeg) : Candid (segmentInput t x seg now).1 := by
  have counted : SocketInv { t with statRxSeg := t.statRxSeg + 1 } now := { inv with }
  have arrival := segmentInput_arrival t x seg now
  generalize segmentInput t x seg now = out at arrival
  cases arrival with
  | ignored | synAgain => exact candid.same rfl rfl rfl rfl rfl
  | reset | connects => exact candid_open rfl nofun
  | relistens state =>
    obtain ⟨_, idle, _, unsent, _⟩ := inv.handshake (congrArg handshaking state)
    exact ⟨nofun, fun _ => ⟨idle, unsent⟩⟩
  | accepts state =>
    exact synchronizedInput_candid (accepted_keeps counted state) rfl nofun x seg
  | proceeds past =>
    exact synchronizedInput_candid counted (awake_past owned past) candid.honest x seg

private theorem pollOne_candid (inv : SocketInv t now) (candid : Candid t) (x : XMem)
    (net : MnNet) (tick : UInt16) :
    Candid (pollOne t x net tick).1 := by
  have polled := pollOne_polled t x net tick
  generalize (pollOne t x net tick).1 = u at polled
  cases polled with
  | relistens state =>
    obtain ⟨_, idle, _, unsent, _⟩ := inv.handshake (congrArg handshaking state)
    exact ⟨nofun, fun _ => ⟨idle, unsent⟩⟩
  | gives_up | expires => exact candid_open rfl nofun
  | sends sync _ more =>
    have sends := inv.unsent sync more
    refine candid_open ?_ fun rests => ?_ <;> revert sends
    · dsimp only
      cases t.state <;> simp [sending, finDone]
    · simp [show t.state = .listen from rests, sending]
  | finishes => refine candid_open ?_ ?_ <;> simp only [finished] <;> split <;> simp [finDone]
  | _ => exact candid.same rfl rfl rfl rfl rfl

private theorem exec_candid (inv : SocketInv c.t c.now) (candid : Candid c.t) (net : MnNet) (op : Op)
    (enabled : c.Enabled op) : Candid (c.exec net op).1.t := by
  have effect := exec_effect c net op
  generalize c.exec net op = out at effect
  cases effect with
  | connects ip port tick =>
    obtain ⟨edge, stat, pending, same⟩ :=
      sendSyn_socket (startConnect c.t net ip port tick) c.x net { syn := true }
    rw [same]
    exact candid_open rfl nofun
  | answers src seg =>
    obtain ⟨edge, stat, pending, same⟩ :=
      sendSyn_socket (startPassive c.t net src seg c.now) c.x net { syn := true, ack := true }
    rw [same]
    exact candid_open rfl nofun
  | listens => exact ⟨nofun, fun _ => ⟨rfl, rfl⟩⟩
  | drops | aborts => exact candid_open rfl nofun
  | takes _ _ n =>
    obtain ⟨owed, same⟩ := afterRecv_socket c.t n
    rw [same]
    exact candid.same rfl rfl rfl rfl rfl
  | arrives seg => exact segmentInput_candid inv enabled candid c.x seg
  | polls tick => exact pollOne_candid inv candid c.x net tick
  | idles | queues | asks | others => exact candid.same rfl rfl rfl rfl rfl

private theorem run_candid (run : Conn.Run c) : Candid c.t := by
  refine Reachable.invariant (motive := fun c : Conn => Candid c.t) ?_ ?_ run
  · rintro c ⟨⟨socks, n, base, member⟩, _⟩
    obtain ⟨k, found⟩ := List.mem_iff_getElem?.mp member
    have closed := (mnTcpInit_get? found).2.2.2.1
    exact candid_open (by simp [closed, finDone]) (by simp [closed])
  · rintro c _ run candid ⟨net, op, enabled, rfl⟩
    exact exec_candid (Conn.Run.socketInv run) candid net op enabled

/-- What is unanswered is a synchronized connection's that is not waiting, or
was left by one that is gone. -/
theorem unanswered_open (run : Conn.Run c) (owed : Unanswered c.t) (open_ : c.t.state ≠ .closed) :
    synchronized c.t.state = true ∧ c.t.state ≠ .timeWait := by
  have inv := run.socketInv
  obtain ⟨honest, blank⟩ := run_candid run
  have flying : c.t.inflight = 0 → c.t.finSent = true ∧ c.t.sndUna ≠ c.t.sndNxt :=
    owed.resolve_left ∘ not_not.mpr
  have busy : c.t.state ≠ .listen := by
    intro rests
    obtain ⟨idle, unsent⟩ := blank rests
    simp [unsent] at flying
    exact flying idle
  have made : handshaking c.t.state = false := by
    by_contra half
    obtain ⟨_, idle, _, unsent, _⟩ := inv.handshake (by simpa using half)
    simp [unsent] at flying
    exact flying idle
  have sync : synchronized c.t.state = true := by
    refine awake_past ⟨open_, busy⟩ ⟨fun state => ?_, fun state => ?_⟩ <;> simp
      [state, handshaking] at made
  refine ⟨sync, fun waits => ?_⟩
  have idle := inv.idle (inv.finished sync (by simp [waits, sending])).2.2
  exact (flying idle).2 (honest (by simp [waits, finDone]))

/-! ## The send loop -/

/-- Sending more puts more in flight, and the timer keeps covering the oldest. -/
structure Extends (t u : MnTcp) : Prop where
  una : u.sndUna = t.sndUna
  more : t.inflight.toNat ≤ u.inflight.toNat
  since : t.inflight ≠ 0 → u.sentAt = t.sentAt
  stat : u.statRetrans = t.statRetrans

private theorem launched_extends (inv : SocketInv u now) (more : u.inflight < u.sndLen)
    (open_ : u.inflight < limit)
    (extends_ : Extends t u) : Extends t (launched u (nextLength u limit) now) := by
  have size := nextLength_spec more open_
  have queue := inv.sndLen
  rw [UInt16.lt_iff_toNat_lt] at more
  have longer : (u.inflight + nextLength u limit).toNat = u.inflight.toNat +
      (nextLength u limit).toNat :=
    toNat_more (by omega)
  have further := extends_.more
  refine ⟨extends_.una, ?_, fun flying => ?_, extends_.stat⟩
  · simp only [launched, longer]
    omega
  · have still : u.inflight ≠ 0 := fun none => flying (eq_zero_of_toNat (by simpa [none] using further))
    simp only [launched, if_neg still]
    exact extends_.since flying

/-- What lies past all that was in flight does not come before `snd_nxt`. -/
theorem Extends.news (extends_ : Extends t u) (inv : SocketInv t now) (inv' : SocketInv u now)
    (sync : synchronized t.state = true ∧ synchronized u.state = true)
    (unsent : t.finSent = false ∧ u.finSent = false) : precedes u.sndNxt t.sndNxt = false := by
  have span := outstanding inv sync.1
  have span' := outstanding inv' sync.2
  have queue := inv'.sndLen
  have flight := inv'.inflight
  have more := extends_.more
  rw [unsent.1, if_neg Bool.false_ne_true] at span
  rw [unsent.2, if_neg Bool.false_ne_true, extends_.una] at span'
  rw [← Bool.not_eq_true, precedes_iff]
  simp only [UInt32.toNat_sub] at *
  have := t.sndNxt.toNat_lt
  have := u.sndNxt.toNat_lt
  have := t.sndUna.toNat_lt
  omega

/-- A segment that is not from before `snd_nxt`. -/
def New (t : MnTcp) (seg : TcpSeg) : Prop := precedes seg.seq t.sndNxt = false

private theorem new_next (seg : TcpSeg) (at_ : seg.seq = t.sndNxt) : New t seg := by
  rw [New, at_, ← Bool.not_eq_true, precedes_iff, UInt32.sub_self]
  decide

private theorem emit_new (t u : MnTcp) (x : XMem) (net : MnNet) (flags : SegFlags)
    (off len : UInt16) (mss : Bool) : Sends net (emit u x net flags t.sndNxt off len mss).2.2 (New t) :=
  emit_sends net (new_next _ rfl)

private theorem sendQueued_extends (inv : SocketInv t now) (sync : synchronized t.state = true)
    (pending : t.txPending = true) (more : t.inflight < t.sndLen) (x : XMem) (net : MnNet) :
    Extends t (sendQueued t x net now).1 ∧ Sends net (sendQueued t x net now).2 (New t) := by
  have sends := inv.unsent sync more
  have looped := sendLoop_rule
    (motive := fun u after => (SocketInv u now ∧ u.state = t.state ∧ u.txPending = true ∧ Extends t u) ∧
      Sends net after (New t))
    x now (sendLimit t) (by
      rintro u after ⟨⟨inv', state, pending, extends_⟩, sent⟩ more open_
      have sync' : synchronized u.state = true := state ▸ sync
      have goes : Sends after
          (emit u x after dataFlags u.sndNxt u.inflight (nextLength u (sendLimit t)) false).2.2
            (New t) :=
        emit_sends after (extends_.news inv inv' ⟨sync, sync'⟩
          ⟨inv.unfinished sends, inv'.unfinished (state ▸ sends)⟩)
      obtain ⟨edge, stat, same⟩ :=
        emit_socket u x after dataFlags u.sndNxt u.inflight (nextLength u (sendLimit t)) false
      have stamped : SocketInv { u with advEdge := edge, statTxSeg := stat } now := { inv' with }
      have same' : Extends t { u with advEdge := edge, statTxSeg := stat } :=
        ⟨extends_.una, extends_.more, extends_.since, extends_.stat⟩
      refine ⟨?_, sent.trans goes⟩
      rw [same]
      split
      · exact ⟨launched_keeps stamped sync' more open_ pending, state, pending,
          launched_extends stamped more open_ same'⟩
      · exact ⟨stamped, state, pending, same'⟩)
    t.sndLen.toNat t net ⟨⟨inv, rfl, pending, rfl, Nat.le_refl _, fun _ => rfl, rfl⟩,
      Sends.nothing net _⟩
  obtain ⟨⟨_, _, _, extends_⟩, sent⟩ := looped
  exact ⟨⟨extends_.una, extends_.more, extends_.since, extends_.stat⟩, sent⟩

/-! ## How often -/

private theorem resent_counted (t : MnTcp) (x : XMem) (net : MnNet) (tick : UInt16)
    (flags : SegFlags) (seq : UInt32)
    (off len : UInt16) (mss : Bool) :
    (emit (resent t tick) x net flags seq off len mss).2.1.statRetrans ≠ t.statRetrans := by
  obtain ⟨edge, stat, same⟩ := emit_socket (resent t tick) x net flags seq off len mss
  rw [same]
  show t.statRetrans + 1 ≠ t.statRetrans
  simp

/-- A poll that does not count a retransmission hands down nothing from before
`snd_nxt`. -/
theorem pollOne_news (inv : SocketInv t now) (sync : synchronized t.state = true)
    (x : XMem) (net : MnNet)
    (tick : UInt16) (uncounted : (pollOne t x net tick).1.statRetrans = t.statRetrans) :
    Sends net (pollOne t x net tick).2 (New t) := by
  revert uncounted
  apply pollOne_rule (motive := fun out => out.1.statRetrans = t.statRetrans → Sends net out.2 (New t))
  · exact fun _ _ => Sends.nothing net _
  · exact fun half => by simp [synchronized_settled sync] at half
  · intro _ _
    rw [pollTimeWait_net]
    split
    · exact emit_new t { t with ackPending := false } x net ackFlags 0 0 false
    · exact Sends.nothing net _
  · intro _ _
    have again := retransmit_retransmission t x net tick
    generalize retransmit t x net tick = out at again
    cases again with
    | times_out => exact fun _ => Sends.nothing net _
    | data | fin => exact fun uncounted => (resent_counted t x net tick _ _ _ _ _ uncounted).elim
  · exact fun _ quiet pending more _ =>
      (sendQueued_extends (not_due inv fun _ => quiet) sync pending more x net).2
  · intro _ _ _ _ _ _ _
    rw [sendFin_net]
    exact emit_new t t x net finFlags 0 0 false
  · intro _ _ _ _
    rw [sendAck_net]
    exact emit_new t t x net ackFlags 0 0 false

private theorem exec_news (inv : SocketInv c.t c.now) (sync : synchronized c.t.state = true)
    (net : MnNet) (op : Op)
    (enabled : c.Enabled op) (uncounted : (c.exec net op).1.t.statRetrans = c.t.statRetrans) :
    Sends net (c.exec net op).2 (New c.t) := by
  have steady := synchronized_steady sync enabled
  have effect := exec_effect c net op
  generalize c.exec net op = out at effect uncounted
  cases effect with
  | connects _ _ _ free => exact absurd free steady
  | listens _ free => exact absurd free steady
  | answers => exact absurd trivial steady
  | aborts _ _ _ sends => exact sends.mono fun seg same => new_next seg (by rw [same]; rfl)
  | polls tick => exact pollOne_news inv sync c.x net tick uncounted
  | idles | queues | takes | asks | drops | arrives | others => exact Sends.nothing net _

/-- So a retransmission is counted, always. -/
theorem repeats_counted (inv : SocketInv c.t c.now) (enabled : c.Enabled op)
    (again : repeats c net op = true) : (c.exec net op).1.t.statRetrans ≠ c.t.statRetrans := by
  intro uncounted
  simp only [repeats, uncounted, bne_self_eq_false, Bool.false_or, Bool.and_eq_true, List.any_eq_true]
    at again
  obtain ⟨sync, seg, handed, before⟩ := again
  have news : New c.t seg := (exec_news inv sync net op enabled uncounted).segments seg handed
  rw [news] at before
  cases before

/-- Every retransmission is a retry, of which the fifth is the last. -/
theorem pollOne_retries (inv : SocketInv t now) (x : XMem) (net : MnNet) (tick : UInt16) :
    t.retries.toNat ≤ (pollOne t x net tick).1.retries.toNat ∧
      ((pollOne t x net tick).1.statRetrans ≠ t.statRetrans → t.retries.toNat ≤ 4 ∧
        (pollOne t x net tick).1.retries.toNat = t.retries.toNat + 1) := by
  have another : awake t.state → ¬ t.retries + 1 > MAX_RETRIES →
      (t.retries + 1).toNat = t.retries.toNat + 1 ∧ t.retries.toNat ≤ 4 := by
    intro on left
    obtain ⟨next, patient, sixth⟩ := retries_left inv on
    rw [sixth] at left
    exact ⟨next, by omega⟩
  have polled := pollOne_polled t x net tick
  generalize (pollOne t x net tick).1 = u at polled
  cases polled with
  | reopens half left =>
    obtain ⟨next, few⟩ := another (handshaking_awake half) left
    refine ⟨?_, fun _ => ⟨few, next⟩⟩
    simp only [retried, next]
    omega
  | resends sync left =>
    obtain ⟨next, few⟩ := another (synchronized_awake sync) left
    refine ⟨?_, fun _ => ⟨few, next⟩⟩
    simp only [resent, retried, next]
    omega
  | relistens passive =>
    have next := (retries_left inv (handshaking_awake (congrArg handshaking passive))).1
    simp only [spent, next]
    exact ⟨by omega, fun moved => absurd rfl moved⟩
  | gives_up on =>
    have next := (retries_left inv on).1
    simp only [spent, next]
    exact ⟨by omega, fun moved => absurd rfl moved⟩
  | _ => exact ⟨Nat.le_refl _, fun moved => absurd rfl moved⟩

private theorem exec_retries (inv : SocketInv c.t c.now) (net : MnNet) (op : Op) (enabled : c.Enabled op)
    (steady : ¬ Opens c op) (una : (c.exec net op).1.t.sndUna = c.t.sndUna) :
    c.t.retries.toNat ≤ (c.exec net op).1.t.retries.toNat ∧
      ((c.exec net op).1.t.statRetrans ≠ c.t.statRetrans → c.t.retries.toNat ≤ 4 ∧
        (c.exec net op).1.t.retries.toNat = c.t.retries.toNat + 1) := by
  have still : ∀ u : MnTcp, u.retries = c.t.retries → u.statRetrans = c.t.statRetrans →
      c.t.retries.toNat ≤ u.retries.toNat ∧
        (u.statRetrans ≠ c.t.statRetrans → c.t.retries.toNat ≤ 4 ∧
          u.retries.toNat = c.t.retries.toNat + 1) :=
    fun u same stat => ⟨by rw [same], fun moved => absurd stat moved⟩
  have effect := exec_effect c net op
  generalize c.exec net op = out at effect una
  cases effect with
  | connects _ _ _ free => exact absurd free steady
  | listens _ free => exact absurd free steady
  | answers => exact absurd trivial steady
  | takes _ _ n =>
    obtain ⟨owed, same⟩ := afterRecv_socket c.t n
    rw [same]
    exact still _ rfl rfl
  | arrives seg =>
    have same := segmentInput_watch inv enabled c.x seg una
    simp only [watch, Prod.mk.injEq] at same
    exact still _ same.2.2.2.2.2.1 same.2.2.2.2.2.2
  | polls tick => exact pollOne_retries inv c.x net tick
  | idles | queues | asks | drops | aborts | others => exact still _ rfl rfl

/-- A connection that nothing acknowledges has no more retransmissions than
retries left. -/
theorem retransmissions_le (run : Conn.Run c) (steps : List (MnNet × Op)) (enabled : c.AllEnabled steps)
    (stalled : Stalled c steps) : retransmissions c steps ≤ 5 - c.t.retries.toNat := by
  induction steps generalizing c with
  | nil => exact Nat.zero_le _
  | cons step rest ih =>
    obtain ⟨net, op⟩ := step
    unfold retransmissions
    split
    · exact Nat.zero_le _
    rename_i open_
    obtain ⟨steady, una, later⟩ := stalled.resolve_left open_
    obtain ⟨more, counted⟩ := exec_retries run.socketInv net op enabled.1 steady una
    have few := ih (run.next ⟨net, op, enabled.1, rfl⟩) enabled.2 later
    split
    · rename_i again
      obtain ⟨left, next⟩ := counted (repeats_counted run.socketInv enabled.1 again)
      omega
    · omega

/-! ## How long -/

/-- What leaves these alone leaves it as unanswered, and its timer running. -/
theorem unanswered_watch (una : u.sndUna = t.sndUna) (same : watch u = watch t) (owed : Unanswered t) :
    Unanswered u := by
  simp only [watch, Prod.mk.injEq] at same
  unfold Unanswered at owed ⊢
  rwa [una, same.1, same.2.1, same.2.2.1]

/-- The retransmission timer: when it was started, how long it runs, and how
often it has run out. -/
def timer (t : MnTcp) : UInt16 × UInt16 × UInt8 := (t.sentAt, t.rto, t.retries)

private theorem watch_timer (same : watch u = watch t) : timer u = timer t := by
  simp only [watch, Prod.mk.injEq] at same
  simp [timer, same]

/-- The polls of a connection not answered: it gives up, or its timer runs out
once more, or has not run out. -/
inductive Waited (t : MnTcp) (now : UInt16) : MnTcp → Prop where
  | last (u : MnTcp) (closed : u.state = .closed) : Waited t now u
  | again (u : MnTcp) (owed : Unanswered u) (fresh : u.sentAt = now)
      (next : u.retries.toNat = t.retries.toNat + 1) (left : t.retries.toNat < 5) : Waited t now u
  | waits (u : MnTcp) (owed : Unanswered u) (early : ¬ t.rto ≤ now - t.sentAt)
      (same : timer u = timer t) :
      Waited t now u

private theorem pollOne_waited (inv : SocketInv t now) (sync : synchronized t.state = true)
    (staying : t.state ≠ .timeWait)
    (owed : Unanswered t) (x : XMem) (net : MnNet) (tick : UInt16) : Waited t tick
    (pollOne t x net tick).1 := by
  have early : retransmitDue t tick = false → ¬ t.rto ≤ tick - t.sentAt := by
    intro quiet
    have flying : t.inflight ≠ 0 ∨ t.finSent = true := owed.imp_right And.left
    simp only [retransmitDue, Bool.and_eq_false_iff, Bool.or_eq_false_iff, decide_eq_false_iff_not]
      at quiet
    refine quiet.resolve_left fun idle => ?_
    exact flying.elim idle.1 (by simp [idle.2])
  obtain ⟨next, patient, sixth⟩ := retries_left inv (synchronized_awake sync)
  have again : ∀ flags seq off len mss, ¬ t.retries + 1 > MAX_RETRIES →
      Waited t tick (emit (resent t tick) x net flags seq off len mss).2.1 := by
    intro flags seq off len mss left
    obtain ⟨edge, stat, same⟩ := emit_socket (resent t tick) x net flags seq off len mss
    rw [sixth] at left
    rw [same]
    exact .again _ owed rfl next (by omega)
  apply pollOne_rule (motive := fun out => Waited t tick out.1)
  · exact fun quiet => .waits t owed (early (quiet sync)) rfl
  · exact fun half => by simp [synchronized_settled sync] at half
  · exact fun waits => absurd waits staying
  · intro _ _
    have outcome := retransmit_retransmission t x net tick
    generalize retransmit t x net tick = out at outcome
    cases outcome with
    | times_out => exact .last _ rfl
    | data left => exact again _ _ _ _ _ left
    | fin left => exact again _ _ _ _ _ left
  · intro _ quiet pending more
    have unsent := inv.unfinished (inv.unsent sync more)
    have flying : t.inflight ≠ 0 := owed.resolve_right fun fin => by simp [unsent] at fin
    have extends_ := (sendQueued_extends (not_due inv fun _ => quiet) sync pending more x net).1
    obtain ⟨since, flight, next, owes, edge, stat, pending', same⟩ := sendQueued_socket t x net tick
    have further := extends_.more
    have covers := extends_.since flying
    rw [same] at further covers ⊢
    dsimp only at further covers
    refine .waits _ (Or.inl fun idle => flying (eq_zero_of_toNat ?_)) (early quiet) ?_
    · rw [show flight = 0 from idle, UInt16.toNat_zero] at further
      omega
    · simp only [timer, covers]
  · intro _ _ _ unsent idle _
    rcases owed with flying | fin
    · exact absurd idle flying
    · simp [unsent] at fin
  · intro _ quiet _
    obtain ⟨edge, stat, owes, same⟩ := sendAck_socket t x net
    rw [same]
    exact .waits _ owed (early quiet) rfl

/-- What any step makes of it. -/
theorem exec_waited (run : Conn.Run c) (sync : synchronized c.t.state = true)
    (staying : c.t.state ≠ .timeWait)
    (owed : Unanswered c.t) (net : MnNet) (op : Op) (enabled : c.Enabled op)
    (una : (c.exec net op).1.t.sndUna = c.t.sndUna) :
    (∃ tick, op = .poll tick ∧ (c.exec net op).1.now = tick ∧ Waited c.t tick (c.exec net op).1.t) ∨
      ticks c.now op = 0 ∧ (c.exec net op).1.now = c.now ∧
        ((c.exec net op).1.t.state = .closed ∨
          Unanswered (c.exec net op).1.t ∧ timer (c.exec net op).1.t = timer c.t) := by
  have steady := synchronized_steady sync enabled
  have effect := exec_effect c net op
  by_cases polling : ∃ tick, op = .poll tick
  · obtain ⟨tick, rfl⟩ := polling
    exact Or.inl ⟨tick, rfl, rfl, pollOne_waited run.socketInv sync staying owed c.x net tick⟩
  have still : ticks c.now op = 0 := by
    cases op with
    | poll tick => exact absurd ⟨tick, rfl⟩ polling
    | _ => rfl
  refine Or.inr ⟨still, ?_⟩
  generalize c.exec net op = out at effect una
  cases effect with
  | connects _ _ _ free => exact absurd free steady
  | listens _ free => exact absurd free steady
  | answers => exact absurd trivial steady
  | drops | aborts => exact ⟨rfl, Or.inl rfl⟩
  | takes _ _ n =>
    obtain ⟨owes, same⟩ := afterRecv_socket c.t n
    rw [same]
    exact ⟨rfl, Or.inr ⟨owed, rfl⟩⟩
  | arrives seg =>
    have same := segmentInput_watch run.socketInv enabled c.x seg una
    exact ⟨rfl, Or.inr ⟨unanswered_watch una same owed, watch_timer same⟩⟩
  | polls tick => exact absurd ⟨tick, rfl⟩ polling
  | idles | queues | asks | others => exact ⟨rfl, Or.inr ⟨owed, rfl⟩⟩

/-- How long the socket may still wait: its timer, up to 49 ticks until a poll
notices, and the retries left. A timer that ran out unnoticed is found by the
next poll, run out or wrapped around. -/
def wait (t : MnTcp) (now : UInt16) : Nat :=
  if t.rto ≤ now - t.sentAt then 50 + patience (6 - t.retries.toNat)
  else t.rto.toNat - (now - t.sentAt).toNat + 49 + patience (5 - t.retries.toNat)

private theorem wait_congr (same : timer u = timer t) (now : UInt16) : wait u now = wait t now := by
  simp only [timer, Prod.mk.injEq] at same
  unfold wait
  rw [same.1, same.2.1, same.2.2]

/-- Any poll comes before it is over. -/
theorem wait_least (t : MnTcp) (now : UInt16) : 50 ≤ wait t now := by
  unfold wait
  split
  · omega
  · rename_i early
    rw [UInt16.le_iff_toNat_le] at early
    omega

private theorem wait_most (inv : SocketInv t now) (left : t.retries.toNat ≤ 5) : wait t now ≤ 1894 := by
  have grown := patience_next _ left
  have most := patience_most (6 - t.retries.toNat) (by omega)
  have rto := inv.rto
  unfold wait
  split <;> omega

/-- A poll leaves it shorter by the ticks since the last. -/
theorem Waited.shorter (waited : Waited t tick u) (inv : SocketInv t now) (inv' : SocketInv u tick)
    (left : t.retries.toNat ≤ 5) (near : (tick - now).toNat ≤ 50) :
    u.state = .closed ∨ Unanswered u ∧ wait u tick + (tick - now).toNat ≤ wait t now := by
  have grown := patience_next _ left
  have rto := inv.rto
  cases waited with
  | last closed => exact Or.inl closed
  | again owed fresh next fewer =>
    have renewed : wait u tick = patience (5 - t.retries.toNat) := by
      have later := patience_next u.retries.toNat (by omega)
      rw [wait, if_neg (not_late inv' fresh), fresh, elapsed_self, inv'.rto]
      rw [show 6 - u.retries.toNat = 5 - t.retries.toNat by omega] at later
      omega
    refine Or.inr ⟨owed, ?_⟩
    rw [renewed, wait]
    split
    · omega
    · rename_i early
      rw [UInt16.le_iff_toNat_le] at early
      omega
  | waits owed early same =>
    refine Or.inr ⟨owed, ?_⟩
    rw [wait_congr same, wait, wait, if_neg early]
    rw [UInt16.le_iff_toNat_le] at early
    split
    · omega
    · rename_i before
      rw [UInt16.le_iff_toNat_le] at before
      have short := inv.short
      have elapsed : (tick - t.sentAt).toNat = (now - t.sentAt).toNat + (tick - now).toNat :=
        elapsed_add (by omega)
      omega

theorem ClosedWithin.later (near : ticks c.now op ≤ budget)
    (closes : ClosedWithin (budget - ticks c.now op) (c.exec net op).1 rest) :
    ClosedWithin budget c ((net, op) :: rest) := by
  obtain ⟨k, within, closed⟩ := closes
  refine ⟨k + 1, ?_, closed⟩
  simp only [List.take_succ_cons, duration]
  omega

/-- A socket already closed. -/
theorem ClosedWithin.already (closed : c.t.state = .closed) (budget : Nat) (steps : List (MnNet × Op)) :
    ClosedWithin budget c steps :=
  ⟨0, Nat.zero_le _, closed⟩

private theorem waits_out (run : Conn.Run c) (owed : Unanswered c.t ∨ c.t.state = .closed)
    (steps : List (MnNet × Op)) (enabled : c.AllEnabled steps) (stalled : Stalled c steps)
    (prompt : Prompt 50 c steps) (enough : wait c.t c.now ≤ budget) (long : budget ≤ duration c steps) :
    ClosedWithin budget c steps := by
  induction steps generalizing c budget with
  | nil =>
    have := wait_least c.t c.now
    simp only [duration] at long
    omega
  | cons step rest ih =>
    obtain ⟨net, op⟩ := step
    by_cases closed : c.t.state = .closed
    · exact .already closed _ _
    have owed := owed.resolve_right closed
    obtain ⟨sync, staying⟩ := unanswered_open run owed closed
    obtain ⟨steady, una, later⟩ := stalled.resolve_left closed
    obtain ⟨near, regular⟩ := prompt
    simp only [duration] at long
    have inv := run.socketInv
    have least := wait_least c.t c.now
    have run' : Conn.Run (c.exec net op).1 := run.next ⟨net, op, enabled.1, rfl⟩
    have left := (retries_left inv (synchronized_awake sync)).2.1
    refine ClosedWithin.later (by omega) ?_
    obtain ⟨tick, rfl, clock, waited⟩ | ⟨still, clock, going⟩ :=
      exec_waited run sync staying owed net op enabled.1 una
    · have inv' := run'.socketInv
      rw [clock] at inv'
      obtain gone | ⟨owed', shorter⟩ := waited.shorter inv inv' left near
      · exact .already gone _ _
      · refine ih run' (Or.inl owed') enabled.2 later regular ?_ (by omega)
        rw [clock]
        show wait (c.exec net (.poll tick)).1.t tick ≤ budget - (tick - c.now).toNat
        omega
    · obtain gone | ⟨owed', same⟩ := going
      · exact .already gone _ _
      · refine ih run' (Or.inl owed') enabled.2 later regular ?_ (by omega)
        rw [clock, still, wait_congr same]
        exact enough

/-- Nothing more being acknowledged, whatever else comes in, is called or is
refused, a connection retransmits at most `MAX_RETRIES` times, and one that has
anything unanswered is CLOSED within 2000 ticks of polls at most 50 apart. -/
theorem dead_peer_noticed (run : Conn.Run c) (steps : List (MnNet × Op)) (enabled : c.AllEnabled steps)
    (stalled : Stalled c steps) :
    retransmissions c steps ≤ MAX_RETRIES.toNat ∧
      (Unanswered c.t → Prompt 50 c steps → 2000 ≤ duration c steps → ClosedWithin 2000 c steps) := by
  constructor
  · have few := retransmissions_le run steps enabled stalled
    rw [max_retries_toNat]
    omega
  · intro owed prompt long
    by_cases closed : c.t.state = .closed
    · exact .already closed _ _
    have on := synchronized_awake (unanswered_open run owed closed).1
    have most := wait_most run.socketInv (retries_left run.socketInv on).2.1
    exact waits_out run (Or.inl owed) steps enabled stalled prompt (by omega) long

instance decidableStalled : ∀ (c : Conn) (steps : List (MnNet × Op)), Decidable (Stalled c steps)
  | _, [] => isTrue trivial
  | c, (net, op) :: rest =>
    have := decidableStalled (c.exec net op).1 rest
    inferInstanceAs (Decidable (c.t.state = .closed ∨
      ¬ Opens c op ∧ (c.exec net op).1.t.sndUna = c.t.sndUna ∧ Stalled (c.exec net op).1 rest))

instance decidablePrompt : ∀ (most : Nat) (c : Conn) (steps : List (MnNet × Op)),
    Decidable (Prompt most c steps)
  | _, _, [] => isTrue trivial
  | most, c, (net, op) :: rest =>
    have := decidablePrompt most (c.exec net op).1 rest
    inferInstanceAs (Decidable (ticks c.now op ≤ most ∧ Prompt most (c.exec net op).1 rest))

/-- A FIN that goes out at tick 65521. -/
def finOut : Conn :=
  freshConn.execAll
    [(goodNet, .connect neighbour 80 65520), (goodNet, .segment synAck), (goodNet, .close),
    (goodNet, .poll 65521)]

theorem finOut_run : Conn.Run finOut :=
  freshConn_run.execAll _ ⟨trivial, ⟨by decide +kernel, by decide +kernel⟩, trivial, trivial, trivial⟩

/-- `n` polls, one every fifty ticks. -/
def silence (n : Nat) : List (MnNet × Op) :=
  (List.range n).map fun k => (goodNet, .poll (65521 + 50 * UInt16.ofNat (k + 1)))

private theorem silence_enabled (c : Conn) (n : Nat) : c.AllEnabled (silence n) := by
  unfold silence
  generalize List.range n = ks
  induction ks generalizing c with
  | nil => trivial
  | cons k rest ih => exact ⟨trivial, ih _⟩

theorem dead_peer_noticed_finOut : ClosedWithin 2000 finOut (silence 40) :=
  (dead_peer_noticed finOut_run (silence 40) (silence_enabled finOut 40) (by decide +kernel)).2
    (by decide +kernel) (by decide +kernel) (by decide +kernel)

end MegaNet.TcpDeadPeer
