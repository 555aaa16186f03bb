import MegaNet.Core.TcpInput
import MegaNet.Words

/-! The states of a connection by what holds in them, and the representation
invariant of one socket: the ring counters, the backoff, the congestion window,
what the sequence numbers say of the bytes in flight, and what the state says
of the FINs sent and heard. -/
namespace MegaNet.TcpSocketInvariant
open MegaNet.Core SerialNumber Words

variable {state before after : TcpState}

/-! ## States -/

/-- SYN_SENT and SYN_RCVD. -/
def handshaking : TcpState → Bool
  | .synSent | .synRcvd => true
  | _ => false

/-- ESTABLISHED through TIME_WAIT. -/
def synchronized : TcpState → Bool
  | .closed | .listen | .synSent | .synRcvd => false
  | _ => true

/-- The synchronized states in which our FIN has not gone out. -/
def sending : TcpState → Bool
  | .established | .closeWait => true
  | _ => false

/-- The synchronized states in which the peer's FIN has come in. -/
def heardFin : TcpState → Bool
  | .closeWait | .closing | .lastAck | .timeWait => true
  | _ => false

/-- Neither CLOSED nor LISTEN: the socket has a connection. -/
def awake (state : TcpState) : Prop := state ≠ .closed ∧ state ≠ .listen

/-- LISTEN, SYN_SENT and SYN_RCVD. -/
def early (state : TcpState) : Prop := handshaking state = true ∨ state = .listen

/-! ## The classes among each other -/

theorem handshaking_cases (half : handshaking state = true) : state = .synSent ∨ state = .synRcvd := by
  revert half
  cases state <;> simp [handshaking]

theorem handshaking_awake (half : handshaking state = true) : awake state := by
  rcases handshaking_cases half with rfl | rfl <;> simp [awake]

theorem handshaking_unsynchronized (half : handshaking state = true) : synchronized state = false := by
  rcases handshaking_cases half with rfl | rfl <;> rfl

theorem synchronized_awake (sync : synchronized state = true) : awake state := by
  constructor <;> rintro rfl <;> cases sync

theorem synchronized_settled (sync : synchronized state = true) : handshaking state = false := by
  by_contra half
  rw [handshaking_unsynchronized (by simpa using half)] at sync
  cases sync

theorem synchronized_late (sync : synchronized state = true) : ¬ early state := by
  rintro (half | rfl)
  · rw [synchronized_settled sync] at half
    cases half
  · cases sync

theorem closed_late : ¬ early .closed := by
  rintro (half | rest)
  · cases half
  · cases rest

/-- A connection past its handshake is synchronized. -/
theorem awake_past (on : awake state) (past : state ≠ .synSent ∧ state ≠ .synRcvd) :
    synchronized state = true := by
  obtain ⟨open_, busy⟩ := on
  obtain ⟨active, passive⟩ := past
  cases state <;> first | rfl | contradiction

theorem synchronized_past (sync : synchronized state = true) : state ≠ .synSent ∧ state ≠ .synRcvd := by
  constructor <;> rintro rfl <;> cases sync

theorem sending_synchronized (sends : sending state = true) :
    synchronized state = true ∧ state ≠ .timeWait := by
  revert sends
  cases state <;> simp [sending, synchronized]

/-- Nothing is claimed of a connection in a state of rest. -/
theorem resting (rests : state = .closed ∨ state = .listen) :
    synchronized state = false ∧ handshaking state = false ∧ sending state = false := by
  rcases rests with rfl | rfl <;> exact ⟨rfl, rfl, rfl⟩

/-- Payload is stored as long as the peer's FIN has not come. -/
theorem storing_iff (sync : synchronized state = true) :
    (state = .established ∨ state = .finWait1 ∨ state = .finWait2) ↔ heardFin state = false := by
  revert sync
  cases state <;> simp [synchronized, heardFin]

/-! ## FINs -/

@[simp] theorem synchronized_afterPeerFin (state : TcpState) :
    synchronized (afterPeerFin state) = synchronized state := by
  cases state <;> rfl

@[simp] theorem handshaking_afterPeerFin (state : TcpState) :
    handshaking (afterPeerFin state) = handshaking state := by
  cases state <;> rfl

@[simp] theorem sending_afterPeerFin (state : TcpState) : sending
    (afterPeerFin state) = sending state := by
  cases state <;> rfl

@[simp] theorem heardFin_afterPeerFin (state : TcpState) :
    heardFin (afterPeerFin state) = synchronized state := by
  cases state <;> rfl

@[simp] theorem handshaking_afterFinAcked (state : TcpState) :
    handshaking (afterFinAcked state) = handshaking state := by
  cases state <;> rfl

/-- The acknowledgement of our FIN ends the connection in LAST_ACK, and
elsewhere leaves it in the same classes. -/
theorem afterFinAcked_cases (sync : synchronized state = true) :
    afterFinAcked state = .closed ∨ synchronized (afterFinAcked state) = true ∧
      sending (afterFinAcked state) = sending state ∧
        heardFin (afterFinAcked state) = heardFin state := by
  revert sync
  cases state <;> simp [afterFinAcked, synchronized, sending, heardFin]

/-! ## Where states lead -/

/-- Where anything but a handshake's segments can take a state. -/
def Onward (before after : TcpState) : Prop :=
  after = before ∨ after = .closed ∨ before = .synRcvd ∧ after = .listen ∨
    synchronized before = true ∧ synchronized after = true

theorem Onward.refl (state : TcpState) : Onward state state := Or.inl rfl

theorem Onward.closed (state : TcpState) : Onward state .closed := Or.inr (Or.inl rfl)

/-- No state leads back into SYN_SENT. -/
theorem Onward.not_synSent (onward : Onward before after ∨ handshaking before = true ∧
    synchronized after = true)
    (known : before ≠ .synSent) : after ≠ .synSent := by
  rintro rfl
  simp only [Onward, synchronized, reduceCtorEq, and_false, or_false] at onward
  exact known onward.symm

/-- Nor does one that is not early lead into one that is. -/
theorem Onward.early (onward : Onward before after) (soon : early after) : early before := by
  rcases onward with rfl | rfl | ⟨rfl, _⟩ | ⟨_, sync⟩
  · exact soon
  · exact absurd soon closed_late
  · exact Or.inl rfl
  · exact absurd soon (synchronized_late sync)

/-! ## The invariant -/

@[simp] theorem rcvbuf_toNat : MN_TCP_RCVBUF.toNat = 4096 := rfl
@[simp] theorem sndbuf_toNat : MN_TCP_SNDBUF.toNat = 3072 := rfl
@[simp] theorem mss_toNat : MN_TCP_MSS.toNat = 1460 := rfl
@[simp] theorem rto_initial_toNat : RTO_INITIAL.toNat = 50 := rfl
@[simp] theorem rto_max_toNat : RTO_MAX.toNat = 400 := rfl
@[simp] theorem max_retries_toNat : MAX_RETRIES.toNat = 5 := rfl

/-- The timer after so many retries: doubled each time, up to `RTO_MAX`. -/
def rtoAfter (retries : Nat) : Nat := min 400 (50 * 2 ^ retries)

/-- What holds of a socket between operations, `now` being the last poll's
tick. -/
structure SocketInv (t : MnTcp) (now : UInt16) : Prop where
  sndHead : t.sndHead.toNat < 3072
  inflight : t.inflight.toNat ≤ t.sndLen.toNat
  sndLen : t.sndLen.toNat ≤ 3072
  rcvHead : t.rcvHead.toNat < 4096
  rcvCount : t.rcvCount.toNat ≤ 4096
  rto : t.rto.toNat = rtoAfter t.retries.toNat
  retries : t.retries.toNat ≤ 6
  live : t.state ≠ .closed → t.state ≠ .listen → t.retries.toNat ≤ 5
  mss : t.peerMss.toNat ≤ 1460
  flying : t.inflight ≠ 0 → t.peerMss ≠ 0
  cwnd : synchronized t.state = true →
    ∃ k ≤ 4, t.cwnd.toNat = k * t.peerMss.toNat ∧ (k = 0 → t.peerMss = 0)
  queued : synchronized t.state = true → t.inflight.toNat < t.sndLen.toNat → t.txPending = true
  handshake : handshaking t.state = true →
    t.sndLen = 0 ∧ t.inflight = 0 ∧ t.finQueued = false ∧ t.finSent = false ∧
      t.sndUna = t.iss ∧ t.sndNxt = t.iss + 1 ∧ t.rcvCount = 0 ∧ t.flags.eof = false
  unfinished : sending t.state = true → t.finSent = false
  finished : synchronized t.state = true → sending t.state = false →
    t.finSent = true ∧ t.finQueued = true ∧ t.sndLen = 0
  span : synchronized t.state = true →
    if t.finSent then t.sndNxt = t.sndUna + 1 ∨ t.sndNxt = t.sndUna
    else t.sndNxt = t.sndUna + t.inflight.toUInt32
  eof : synchronized t.state = true → t.flags.eof = heardFin t.state
  timer : synchronized t.state = true → t.inflight ≠ 0 → (now - t.sentAt).toNat < t.rto.toNat

/-! ## What the invariant says -/

/-- Once our FIN is out, the state says so. -/
theorem SocketInv.out (inv : SocketInv t now) (fin : t.finSent = true) : sending t.state = false := by
  by_contra open_
  simp [inv.unfinished (by simpa using open_)] at fin

/-- Nothing is in flight of an empty ring. -/
theorem SocketInv.idle (inv : SocketInv t now) (empty : t.sndLen = 0) : t.inflight = 0 :=
  eq_zero_of_toNat (by simpa [empty] using inv.inflight)

/-- Bytes are still queued, so our FIN is not out. -/
theorem SocketInv.unsent (inv : SocketInv t now) (sync : synchronized t.state = true)
    (more : t.inflight < t.sndLen) : sending t.state = true := by
  by_contra done
  rw [Bool.not_eq_true] at done
  rw [(inv.finished sync done).2.2, UInt16.lt_iff_toNat_lt] at more
  simp at more

/-- So it is not while any are in flight. -/
theorem SocketInv.unfinished_flying (inv : SocketInv t now) (sync : synchronized t.state = true)
    (flying : t.inflight ≠ 0) : t.finSent = false := by
  by_contra fin
  exact flying (inv.idle (inv.finished sync (inv.out (by simpa using fin))).2.2)

theorem SocketInv.going (inv : SocketInv t now) (half : handshaking t.state = true) :
    t.flags.eof = false :=
  (inv.handshake half).2.2.2.2.2.2.2

theorem SocketInv.short (inv : SocketInv t now) : t.rto.toNat ≤ 400 := by
  rw [inv.rto, rtoAfter]
  omega

theorem rto_positive (inv : SocketInv t now) : 0 < t.rto.toNat := by
  rw [inv.rto, rtoAfter]
  have : 0 < 2 ^ t.retries.toNat := Nat.pow_pos (by decide)
  omega

/-- A timer just started has not run out. -/
theorem not_late (inv : SocketInv t now) (fresh : t.sentAt = now) : ¬ t.rto ≤ now - t.sentAt := by
  have positive := rto_positive inv
  rw [fresh, UInt16.le_iff_toNat_le, elapsed_self]
  omega

/-- One more retry, of which the sixth is the last. -/
theorem retries_left (inv : SocketInv t now) (on : awake t.state) :
    (t.retries + 1).toNat = t.retries.toNat + 1 ∧ t.retries.toNat ≤ 5 ∧
      (t.retries + 1 > MAX_RETRIES ↔ t.retries.toNat = 5) := by
  have := inv.live on.1 on.2
  have next : (t.retries + 1).toNat = t.retries.toNat + 1 := by
    rw [UInt8.toNat_add, UInt8.toNat_one]
    omega
  refine ⟨next, this, ?_⟩
  rw [gt_iff_lt, UInt8.lt_iff_toNat_lt, next, max_retries_toNat]
  omega

/-- What is outstanding, as a distance between sequence numbers. -/
theorem outstanding (inv : SocketInv t now) (sync : synchronized t.state = true) :
    if t.finSent then (t.sndNxt - t.sndUna).toNat ≤ 1
    else (t.sndNxt - t.sndUna).toNat = t.inflight.toNat := by
  have span := inv.span sync
  split <;> rename_i fin <;> simp only [fin] at span
  · rcases span with one | none
    · rw [one, UInt32.add_comm, UInt32.add_sub_cancel]
      decide
    · simp [none]
  · rw [show t.sndNxt = t.sndUna + t.inflight.toUInt32 by simpa using span,
      UInt32.add_comm, UInt32.add_sub_cancel, UInt16.toNat_toUInt32]

theorem rcvFree_toNat (inv : SocketInv t now) : (rcvFree t).toNat = 4096 - t.rcvCount.toNat :=
  toNat_less inv.rcvCount

theorem advWindow_toNat (inv : SocketInv t now) :
    (advWindow t).toNat = min (4096 - t.rcvCount.toNat) 2048 := by
  rw [advWindow, toNat_clamp, rcvFree_toNat inv]
  rfl

theorem sendRoom_le (inv : SocketInv t now) (len : UInt16) :
    (sendRoom t len).toNat ≤ 3072 - t.sndLen.toNat := by
  have room : (MN_TCP_SNDBUF - t.sndLen).toNat = 3072 - t.sndLen.toNat := toNat_less inv.sndLen
  unfold sendRoom
  split
  · simp
  · rw [toNat_clamp, room]
    omega

/-! ## States of rest, and between states -/

/-- What is claimed of the counters, whatever the state. -/
structure Counters (t : MnTcp) : Prop where
  sndHead : t.sndHead.toNat < 3072
  inflight : t.inflight.toNat ≤ t.sndLen.toNat
  sndLen : t.sndLen.toNat ≤ 3072
  rcvHead : t.rcvHead.toNat < 4096
  rcvCount : t.rcvCount.toNat ≤ 4096
  rto : t.rto.toNat = rtoAfter t.retries.toNat
  retries : t.retries.toNat ≤ 6
  mss : t.peerMss.toNat ≤ 1460
  flying : t.inflight ≠ 0 → t.peerMss ≠ 0

theorem SocketInv.counters (inv : SocketInv t now) : Counters t := { inv with }

/-- Of a socket in CLOSED or LISTEN nothing more is. -/
theorem Counters.rest (counters : Counters t) (rests : t.state = .closed ∨ t.state = .listen)
    (now : UInt16) : SocketInv t now := by
  obtain ⟨unsync, open_, unsent⟩ := resting rests
  exact { counters with
    live := fun busy idle => absurd rests (by simp [busy, idle])
    cwnd := fun sync => by simp [unsync] at sync
    queued := fun sync => by simp [unsync] at sync
    span := fun sync => by simp [unsync] at sync
    timer := fun sync => by simp [unsync] at sync
    handshake := fun half => by simp [open_] at half
    unfinished := fun sends => by simp [unsent] at sends
    finished := fun sync => by simp [unsync] at sync
    eof := fun sync => by simp [unsync] at sync }

/-- A handshake begins with fresh counters. -/
theorem Counters.begin (counters : Counters t) (half : handshaking t.state = true)
    (fresh : t.sndLen = 0 ∧ t.inflight = 0 ∧ t.finQueued = false ∧ t.finSent = false ∧
      t.sndUna = t.iss ∧ t.sndNxt = t.iss + 1 ∧ t.rcvCount = 0 ∧ t.flags.eof = false)
    (patient : t.retries.toNat ≤ 5) (now : UInt16) : SocketInv t now := by
  have unsync := handshaking_unsynchronized half
  exact { counters with
    live := fun _ _ => patient
    cwnd := fun sync => by simp [unsync] at sync
    queued := fun sync => by simp [unsync] at sync
    span := fun sync => by simp [unsync] at sync
    timer := fun sync => by simp [unsync] at sync
    handshake := fun _ => fresh
    unfinished := fun sends => by simp [(sending_synchronized sends).1] at unsync
    finished := fun sync => by simp [unsync] at sync
    eof := fun sync => by simp [unsync] at sync }

/-- Coming to rest in CLOSED or LISTEN, in whatever condition. -/
theorem SocketInv.rest (inv : SocketInv t now) (dest : TcpState) (flags : TcpFlags)
    (rests : dest = .closed ∨ dest = .listen) :
    SocketInv { t with state := dest, flags := flags } now := by
  have counters : Counters { t with state := dest, flags := flags } := { inv.counters with }
  exact counters.rest rests now

/-- Moving between synchronized states that agree on whether our FIN is out. -/
theorem SocketInv.move (inv : SocketInv t now) (sync : synchronized t.state = true) (dest : TcpState)
    (flags : TcpFlags) (lands : synchronized dest = true) (same : sending dest = sending t.state)
    (heard : flags.eof = heardFin dest) : SocketInv { t with state := dest, flags := flags } now :=
  { inv with
    cwnd := fun _ => inv.cwnd sync
    queued := fun _ => inv.queued sync
    span := fun _ => inv.span sync
    timer := fun _ => inv.timer sync
    live := fun _ _ => inv.live (synchronized_awake sync).1 (synchronized_awake sync).2
    handshake := fun half => by simp [synchronized_settled lands] at half
    unfinished := fun sends => inv.unfinished (same ▸ sends)
    finished := fun _ out => inv.finished sync (same ▸ out)
    eof := fun _ => heard }

/-- A later tick, at which the retransmission timer has not run out. -/
theorem SocketInv.retime (inv : SocketInv t now) (tick : UInt16)
    (early : synchronized t.state = true → t.inflight ≠ 0 → (tick - t.sentAt).toNat < t.rto.toNat) :
    SocketInv t tick :=
  { inv with timer := early }

end MegaNet.TcpSocketInvariant
