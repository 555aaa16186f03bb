import MegaNet.TcpLifetime

/-! How long a connection stays in TIME_WAIT: from the tick its last
acknowledgement went out at, which a simultaneous close may leave unset. -/
namespace MegaNet.TcpTimeWait
open MegaNet.Core SerialNumber TcpEmission TcpSocketInvariant TcpOutcomes TcpPreservation TcpConnection
  TcpSendStream

variable {c d : Conn} {op : Op} {t : MnTcp} {seg : TcpSeg}

/-- The ticks that pass at an operation: only a poll tells the time. -/
def ticks (now : UInt16) : Op → Nat
  | .poll tick => (tick - now).toNat
  | _ => 0

/-- A stay in TIME_WAIT that began at `c` has led to another state of the
connection, after so many ticks. -/
inductive Stays (c : Conn) : Nat → Conn → Prop where
  | here : Stays c 0 c
  | on {age : Nat} {d : Conn} (before : Stays c age d) (net : MnNet) (op : Op) (enabled : d.Enabled op)
      (waits : (d.exec net op).1.t.state = .timeWait) : Stays c (age + ticks d.now op) (d.exec net op).1

/-- Whatever happens from `c` on, the poll that ends the stay comes at least
`TIME_WAIT_TICKS` after its beginning. -/
def Lasts (c : Conn) : Prop :=
  ∀ age d, Stays c age d → ∀ net tick, (d.exec net (.poll tick)).1.t.state = .closed →
    TIME_WAIT_TICKS.toNat ≤ age + (tick - d.now).toNat

/-- What enters TIME_WAIT leaves an acknowledgement owed, whose going out will
be the beginning, or finds the beginning set to the present already. -/
def Stamped (c : Conn) : Op → Prop
  | .segment seg =>
    c.t.state = .closing → c.t.ackPending = true ∨ seg.dlen ≠ 0 ∨ seg.flags.fin = true ∨
      c.t.timewaitAt = c.now
  | _ => True

/-- The stay is not shorter than the time since its beginning was set. -/
def Clocked (c : Conn) (age : Nat) : Prop :=
  c.t.ackPending = true ∨ (c.now - c.t.timewaitAt).toNat ≤ age

/-! ## During the stay -/

/-- Time passed is at most the sum of its parts. -/
theorem elapsed_le (since now later : UInt16) :
    (later - since).toNat ≤ (now - since).toNat + (later - now).toNat := by
  simp only [UInt16.toNat_sub]
  have := now.toNat_lt
  have := since.toNat_lt
  have := later.toNat_lt
  omega

/-- What the wait's end depends on, and whether our FIN is out. -/
private def stamp (t : MnTcp) : UInt16 × Bool × Bool := (t.timewaitAt, t.ackPending, t.finSent)

private theorem handleAck_stamp (t : MnTcp) (ack : UInt32) (now : UInt16) :
    stamp (handleAck t ack now) = stamp t := by
  obtain same | ⟨n, same⟩ := handleAck_socket t ack now <;> rw [same]
  rfl

private theorem finAcked_stamp (t : MnTcp) : stamp (finAcked t) = stamp t := by
  obtain same | same := finAcked_socket t <;> rw [same]
  rfl

private theorem received_stamp (t : MnTcp) (seg : TcpSeg) (now : UInt16) :
    stamp (received t seg now) = (t.timewaitAt, t.ackPending || seg.dlen ≠ 0, t.finSent) := by
  have acked := handleAck_stamp t seg.ack now
  simp only [stamp, Prod.mk.injEq] at acked
  simp [stamp, received, acked]

private theorem inOrder_stamp (sync : synchronized t.state = true) (x : XMem)
    (seg : TcpSeg) (now : UInt16) :
    stamp (inOrder t x seg now).1 =
      (t.timewaitAt, reachesFin t seg || (t.ackPending || seg.dlen ≠ 0), t.finSent) := by
  have taken := received_stamp t seg now
  rw [(inOrder_eq sync x seg now).1, finAcked_stamp]
  split
  · rename_i fin
    simp only [stamp, Prod.mk.injEq] at taken
    simp [stamp, takeFin, fin, taken]
  · rename_i fin
    rw [taken]
    simp [fin]

/-- No segment tells the beginning anew, nor settles an acknowledgement owed,
nor sends our FIN. -/
theorem synchronizedInput_stamp (sync : synchronized t.state = true) (x : XMem)
    (seg : TcpSeg) (now : UInt16) :
    ∃ more, stamp (synchronizedInput t x seg now).1 =
      (t.timewaitAt, t.ackPending || more, t.finSent) := by
  unfold synchronizedInput
  split
  · exact ⟨false, by simp [stamp]⟩
  split
  · rw [handleAck_stamp]
    unfold outOfOrder
    split
    · exact ⟨true, by simp [stamp]⟩
    · exact ⟨false, by simp [stamp]⟩
  · refine ⟨reachesFin t seg || seg.dlen ≠ 0, ?_⟩
    rw [inOrder_stamp sync]
    cases t.ackPending <;> simp

private theorem segmentInput_stamp (sync : synchronized t.state = true) (x : XMem)
    (seg : TcpSeg) (now : UInt16) :
    ∃ more, stamp (segmentInput t x seg now).1 = (t.timewaitAt, t.ackPending || more, t.finSent) := by
  have past := synchronized_past sync
  have arrival := segmentInput_arrival t x seg now
  generalize segmentInput t x seg now = out at arrival
  cases arrival with
  | ignored | reset => exact ⟨false, by simp [stamp]⟩
  | relistens state | synAgain state | accepts state => exact absurd state past.2
  | connects state => exact absurd state past.1
  | proceeds =>
    exact synchronizedInput_stamp (t := { t with statRxSeg := t.statRxSeg + 1 }) sync x seg now

/-- During the stay the beginning is set by nothing but a poll that sends the
acknowledgement owed, and until then that stays owed. -/
theorem exec_stamp (state : c.t.state = .timeWait) (net : MnNet) (op : Op)
    (waits : (c.exec net op).1.t.state = .timeWait) :
    ((c.exec net op).1.t.timewaitAt = c.t.timewaitAt ∧
        (c.t.ackPending = true → (c.exec net op).1.t.ackPending = true)) ∨
      (c.t.ackPending = true ∧ ∃ tick, op = .poll tick ∧ (c.exec net op).1.t.timewaitAt = tick) := by
  have sync : synchronized c.t.state = true := by simp [state, synchronized]
  have effect := exec_effect c net op
  generalize c.exec net op = out at effect waits
  cases effect with
  | idles | others => exact Or.inl ⟨rfl, id⟩
  | connects _ _ _ free => simp [state] at free
  | listens _ free => simp [state] at free
  | answers src seg =>
    obtain ⟨edge, stat, pending, same⟩ :=
      sendSyn_socket (startPassive c.t net src seg c.now) c.x net { syn := true, ack := true }
    rw [Conn.fresh, same] at waits
    cases waits
  | queues _ _ _ _ _ ready => simp [canSend, state] at ready
  | takes _ _ n =>
    refine Or.inl ⟨?_, fun owed => ?_⟩ <;> simp [afterRecv, state]
    exact owed
  | asks sends => simp [state, sending] at sends
  | drops => cases waits
  | aborts => cases waits
  | arrives seg =>
    obtain ⟨more, same⟩ := segmentInput_stamp sync c.x seg c.now
    simp only [stamp, Prod.mk.injEq] at same
    exact Or.inl ⟨same.1, fun owed => by simp [same.2.1, owed]⟩
  | polls tick =>
    have polled : pollOne c.t c.x net tick = pollTimeWait c.t c.x net tick := by simp [pollOne, state]
    dsimp only
    rw [polled]
    cases owed : c.t.ackPending with
    | true =>
      obtain ⟨edge, stat, same⟩ := pollTimeWait_owed owed c.x net tick
      exact Or.inr ⟨rfl, tick, rfl, by rw [same]⟩
    | false =>
      refine Or.inl ⟨?_, fun pending => by simp at pending⟩
      rw [pollTimeWait_idle owed]
      dsimp only
      split <;> rfl

private theorem exec_ticks (c : Conn) (net : MnNet) (op : Op) :
    ((c.exec net op).1.now - c.now).toNat = ticks c.now op := by
  cases op with
  | poll => rfl
  | connect =>
    rw [exec_connect]
    split <;> exact elapsed_self _
  | listen =>
    rw [exec_listen]
    split <;> exact elapsed_self _
  | send | sendX | recv | recvX | close | abort | segment | passiveOpen | others => exact elapsed_self _

/-- Whatever happens during the stay, it goes on being clocked. -/
theorem exec_clocked (state : c.t.state = .timeWait) (clocked : Clocked c age) (net : MnNet) (op : Op)
    (waits : (c.exec net op).1.t.state = .timeWait) : Clocked (c.exec net op).1
    (age + ticks c.now op) := by
  rcases exec_stamp state net op waits with ⟨since, owed⟩ | ⟨_, tick, rfl, since⟩
  · refine clocked.imp owed fun short => ?_
    have passed := elapsed_le c.t.timewaitAt c.now (c.exec net op).1.now
    rw [exec_ticks] at passed
    rw [since]
    omega
  · refine Or.inr ?_
    rw [since, show (c.exec net (.poll tick)).1.now = tick from rfl, elapsed_self]
    exact Nat.zero_le _

private theorem stays_clocked (state : c.t.state = .timeWait) (clocked : Clocked c 0)
    (stays : Stays c age d) :
    d.t.state = .timeWait ∧ Clocked d age := by
  induction stays with
  | here => exact ⟨state, clocked⟩
  | on before net op _ waits ih => exact ⟨waits, exec_clocked ih.1 ih.2 net op waits⟩

/-- A poll ends the stay only when the beginning was set long enough ago. -/
theorem poll_closes_iff (state : c.t.state = .timeWait) (net : MnNet) (tick : UInt16) :
    (c.exec net (.poll tick)).1.t.state = .closed ↔
      c.t.ackPending = false ∧ TIME_WAIT_TICKS ≤ tick - c.t.timewaitAt := by
  have polled : (c.exec net (.poll tick)).1.t = (pollTimeWait c.t c.x net tick).1 := by
    simp [Conn.exec, pollOne, state]
  rw [polled]
  cases owed : c.t.ackPending with
  | true =>
    obtain ⟨edge, stat, same⟩ := pollTimeWait_owed owed c.x net tick
    simp [same, state]
  | false =>
    rw [pollTimeWait_idle owed]
    dsimp only
    split <;> simp_all

/-- It lasts exactly when an acknowledgement is owed at its beginning, or that
is set to the present. -/
theorem lasts_iff (state : c.t.state = .timeWait) : Lasts c ↔ Clocked c 0 := by
  constructor
  · intro lasts
    by_contra unclocked
    simp only [Clocked, not_or, Bool.not_eq_true, Nat.not_le] at unclocked
    obtain ⟨idle, past⟩ := unclocked
    have closes := fun tick => (poll_closes_iff state goodNet tick).mpr
    by_cases long : TIME_WAIT_TICKS ≤ c.now - c.t.timewaitAt
    · -- A poll at the same tick ends it.
      have soon := lasts 0 c .here goodNet c.now (closes c.now ⟨idle, long⟩)
      rw [elapsed_self] at soon
      exact absurd soon (by decide)
    · -- What is left of the wait that began before ends it.
      have soon := lasts 0 c .here goodNet (c.t.timewaitAt + TIME_WAIT_TICKS)
        (closes _ ⟨idle, by rw [UInt16.add_comm, UInt16.add_sub_cancel]; exact UInt16.le_refl _⟩)
      rw [UInt16.le_iff_toNat_le] at long
      simp only [UInt16.toNat_sub, UInt16.toNat_add, show TIME_WAIT_TICKS.toNat = 100 from rfl]
        at past long soon
      have := c.now.toNat_lt
      have := c.t.timewaitAt.toNat_lt
      omega
  · intro clocked age d stays net tick closes
    obtain ⟨waits, within⟩ := stays_clocked state clocked stays
    obtain ⟨idle, late⟩ := (poll_closes_iff waits net tick).mp closes
    have short := within.resolve_left (by simp [idle])
    rw [UInt16.le_iff_toNat_le] at late
    have := elapsed_le d.t.timewaitAt d.now tick
    omega

/-! ## Entering it -/

/-- A segment leads into TIME_WAIT from CLOSING, or with the peer's FIN, of
which the acknowledgement is owed. -/
theorem inOrder_enters (sync : synchronized t.state = true) (before : t.state ≠ .timeWait) (x : XMem)
    (now : UInt16) (entered : (inOrder t x seg now).1.state = .timeWait) :
    (inOrder t x seg now).1.ackPending = true ↔
      (t.state = .closing → t.ackPending = true ∨ seg.dlen ≠ 0 ∨ seg.flags.fin = true) := by
  have same := inOrder_stamp sync x seg now
  simp only [stamp, Prod.mk.injEq] at same
  rw [same.2.1]
  cases fin : reachesFin t seg with
  | true =>
    simp only [reachesFin, Bool.and_eq_true] at fin
    simp [fin.1]
  | false =>
    have closing : t.state = .closing := by
      rw [(inOrder_eq sync x seg now).1, fin, if_neg Bool.false_ne_true] at entered
      have state : (received t seg now).state = t.state := handleAck_state t seg.ack now
      obtain rests | moves := finAcked_socket (received t seg now)
      · rw [rests, state] at entered
        exact absurd entered before
      · rw [moves, state] at entered
        revert entered before
        cases t.state <;> simp [afterFinAcked]
    simp only [reachesFin, closing, heardFin, Bool.true_or, Bool.and_true] at fin
    simp [closing, fin]

private theorem synchronizedInput_enters (sync : synchronized t.state = true)
    (before : t.state ≠ .timeWait) (x : XMem)
    (now : UInt16) (entered : (synchronizedInput t x seg now).1.state = .timeWait) :
    (synchronizedInput t x seg now).1.ackPending = true ↔
      (t.state = .closing → t.ackPending = true ∨ seg.dlen ≠ 0 ∨ seg.flags.fin = true) := by
  unfold synchronizedInput at entered ⊢
  split at entered
  · exact absurd entered before
  split at entered
  · obtain ⟨ooo, owed, same⟩ := outOfOrder_socket t seg
    rw [handleAck_state, same] at entered
    exact absurd entered before
  · rename_i acks next
    rw [if_neg acks, if_neg next]
    exact inOrder_enters sync before x now entered

theorem segmentInput_enters (inv : SocketInv t now) (owned : awake t.state)
    (before : t.state ≠ .timeWait)
    (x : XMem) (entered : (segmentInput t x seg now).1.state = .timeWait) :
    (segmentInput t x seg now).1.timewaitAt = t.timewaitAt ∧
      ((segmentInput t x seg now).1.ackPending = true ↔
        (t.state = .closing → t.ackPending = true ∨ seg.dlen ≠ 0 ∨ seg.flags.fin = true)) := by
  have kept := segmentInput_keeps inv owned x seg
  have counted : SocketInv { t with statRxSeg := t.statRxSeg + 1 } now := { inv with }
  have arrival := segmentInput_arrival t x seg now
  generalize segmentInput t x seg now = out at arrival entered kept ⊢
  cases arrival with
  | ignored => exact absurd entered before
  | reset | relistens | connects => cases entered
  | synAgain => exact absurd entered before
  | accepts state =>
    -- A connection just established has sent no FIN.
    have out := (kept.finished (by rw [entered]; rfl) (by rw [entered]; rfl)).1
    obtain ⟨more, same⟩ :=
      synchronizedInput_stamp (t := accepted { t with statRxSeg := t.statRxSeg + 1 }) rfl x seg now
    simp only [stamp, Prod.mk.injEq] at same
    rw [same.2.2, (accepted_keeps counted state).unfinished rfl] at out
    cases out
  | proceeds past =>
    have sync := awake_past owned past
    obtain ⟨more, same⟩ :=
      synchronizedInput_stamp (t := { t with statRxSeg := t.statRxSeg + 1 }) sync x seg now
    simp only [stamp, Prod.mk.injEq] at same
    exact ⟨same.1, synchronizedInput_enters
      (t := { t with statRxSeg := t.statRxSeg + 1 }) sync before x now entered⟩

/-- No poll leads there. -/
theorem pollOne_enters (x : XMem) (net : MnNet) (tick : UInt16)
    (entered : (pollOne t x net tick).1.state = .timeWait) : t.state = .timeWait := by
  have polled := pollOne_polled t x net tick
  generalize (pollOne t x net tick).1 = u at polled entered
  cases polled with
  | relistens | gives_up | expires => cases entered
  | finishes =>
    simp only [finished] at entered
    split at entered <;> cases entered
  | _ => exact entered

/-- Only a segment does. -/
theorem enters_by (net : MnNet) (op : Op) (before : c.t.state ≠ .timeWait)
    (entered : (c.exec net op).1.t.state = .timeWait) : ∃ seg, op = .segment seg := by
  have effect := exec_effect c net op
  generalize c.exec net op = out at effect entered
  cases effect with
  | idles | queues | asks | others => exact absurd entered before
  | connects ip port tick =>
    obtain ⟨edge, stat, pending, same⟩ :=
      sendSyn_socket (startConnect c.t net ip port tick) c.x net { syn := true }
    rw [Conn.fresh, same] at entered
    cases entered
  | answers src seg =>
    obtain ⟨edge, stat, pending, same⟩ :=
      sendSyn_socket (startPassive c.t net src seg c.now) c.x net { syn := true, ack := true }
    rw [Conn.fresh, same] at entered
    cases entered
  | listens | drops | aborts => cases entered
  | takes _ _ n => exact absurd ((afterRecv_state c.t n).symm.trans entered) before
  | arrives seg => exact ⟨seg, rfl⟩
  | polls tick => exact absurd (pollOne_enters c.x net tick entered) before

/-- It says whether the stay is clocked. -/
theorem entered_clocked_iff (sock : SocketInv c.t c.now) (net : MnNet) (op : Op) (enabled : c.Enabled op)
    (before : c.t.state ≠ .timeWait) (entered : (c.exec net op).1.t.state = .timeWait) :
    Clocked (c.exec net op).1 0 ↔ Stamped c op := by
  obtain ⟨seg, rfl⟩ := enters_by net op before entered
  obtain ⟨since, owed⟩ := segmentInput_enters sock enabled before c.x entered
  have present : (c.now - c.t.timewaitAt).toNat ≤ 0 ↔ c.t.timewaitAt = c.now := by
    rw [← UInt16.toNat_inj, UInt16.toNat_sub]
    have := c.now.toNat_lt
    have := c.t.timewaitAt.toNat_lt
    omega
  simp only [Clocked, Stamped, Conn.exec]
  rw [since, owed, present]
  tauto

/-- On every path into TIME_WAIT the stay lasts its time, whatever happens
during it, exactly when the beginning is stamped. -/
theorem time_wait_lasts_iff (run : Conn.Run c) (net : MnNet) (op : Op) (enabled : c.Enabled op)
    (before : c.t.state ≠ .timeWait) (entered : (c.exec net op).1.t.state = .timeWait) :
    Lasts (c.exec net op).1 ↔ Stamped c op :=
  (lasts_iff entered).trans (entered_clocked_iff run.socketInv net op enabled before entered)

/-- Our FIN has been acknowledged, the neighbour's has yet to come. -/
def halfShut : Conn :=
  freshConn.execAll
    [(goodNet, .connect neighbour 80 65520), (goodNet, .segment synAck), (goodNet, .close),
    (goodNet, .poll 65521),
    (goodNet, .segment (fromPeer 53201 1001 4293918723 { ack := true } 1000 [] nothing_fits))]

theorem halfShut_run : Conn.Run halfShut :=
  freshConn_run.execAll _ ⟨trivial, ⟨by decide +kernel, by decide +kernel⟩, trivial, trivial,
    ⟨by decide +kernel, by decide +kernel⟩, trivial⟩

/-- The neighbour's FIN. -/
def peerFin : TcpSeg := fromPeer 53201 1001 4293918723 { ack := true, fin := true } 1000 [] nothing_fits

theorem time_wait_lasts_iff_halfShut : Lasts (halfShut.exec goodNet (.segment peerFin)).1 := by
  have enabled : halfShut.Enabled (.segment peerFin) := ⟨by decide +kernel, by decide +kernel⟩
  exact (time_wait_lasts_iff halfShut_run goodNet _ enabled (by decide +kernel) (by decide +kernel)).mpr
    fun closing => absurd closing (by decide +kernel)

/-- A simultaneous close: the neighbour's FIN crosses ours and is acknowledged
before its acknowledgement comes. -/
def crossed : Conn :=
  freshConn.execAll
    [(goodNet, .connect neighbour 80 65520), (goodNet, .segment synAck), (goodNet, .close),
    (goodNet, .poll 65521),
    (goodNet, .segment
      (fromPeer 53201 1001 4293918722 { ack := true, fin := true } 1000 [] nothing_fits)),
    (goodNet, .poll 65522)]

theorem crossed_run : Conn.Run crossed :=
  freshConn_run.execAll _ ⟨trivial, ⟨by decide +kernel, by decide +kernel⟩, trivial, trivial,
    ⟨by decide +kernel, by decide +kernel⟩, trivial, trivial⟩

/-- The acknowledgement of our FIN. -/
def lastAck : TcpSeg := fromPeer 53201 1002 4293918723 { ack := true } 1000 [] nothing_fits

private theorem lastAck_enters : crossed.Enabled (.segment lastAck) ∧ crossed.t.state ≠ .timeWait ∧
    (crossed.exec goodNet (.segment lastAck)).1.t.state = .timeWait :=
  ⟨⟨by decide +kernel, by decide +kernel⟩, by decide +kernel, by decide +kernel⟩

/-- The next poll closes the connection, one tick later. -/
theorem time_wait_skipped : ¬ ∀ c net op, Conn.Run c → c.Enabled op → c.t.state ≠ .timeWait →
    (c.exec net op).1.t.state = .timeWait → Lasts (c.exec net op).1 := by
  intro always
  obtain ⟨enabled, before, entered⟩ := lastAck_enters
  have lasts := always crossed goodNet _ crossed_run enabled before entered
  have closes := lasts 0 _ .here goodNet 65523 (by decide +kernel)
  revert closes
  decide +kernel

end MegaNet.TcpTimeWait
