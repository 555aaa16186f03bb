import MegaNet.TcpLifetime

/-! What a connection's state says of the FINs sent, acknowledged and heard,
and the one kind of segment that makes it say too little. -/
namespace MegaNet.TcpStateAgreement
open MegaNet.Core SerialNumber TcpEmission TcpSocketInvariant TcpOutcomes TcpPreservation TcpConnection
  TcpSendStream TcpRecvStream TcpLifetime

variable {c : Conn} {t : MnTcp} {state : TcpState}

/-- The state agrees with what has been sent, acknowledged and heard. -/
structure Agrees (t : MnTcp) : Prop where
  unsent : t.state = .established ∨ t.state = .closeWait → t.finSent = false
  outstanding : t.state = .finWait1 ∨ t.state = .closing ∨ t.state = .lastAck →
    t.finSent = true ∧ t.sndUna ≠ t.sndNxt
  done : t.state = .finWait2 ∨ t.state = .timeWait → t.finSent = true ∧ t.sndUna = t.sndNxt
  eof : synchronized t.state = true → (t.flags.eof = true ↔
    t.state = .closeWait ∨ t.state = .closing ∨ t.state = .lastAck ∨ t.state = .timeWait)

/-- The states in which our FIN has been acknowledged. -/
def finDone : TcpState → Bool
  | .finWait2 | .timeWait => true
  | _ => false

/-- Once our FIN is out, the state says whether it has been acknowledged. -/
def Keyed (t : MnTcp) : Prop :=
  synchronized t.state = true → sending t.state = false → (t.sndUna = t.sndNxt ↔ finDone t.state = true)

@[simp] theorem finDone_afterPeerFin (state : TcpState) : finDone
    (afterPeerFin state) = finDone state := by
  cases state <;> rfl

private theorem finDone_afterFinAcked (out : sending state = false)
    (on : synchronized (afterFinAcked state) = true) :
    finDone (afterFinAcked state) = true := by
  revert out on
  cases state <;> simp [sending, afterFinAcked, synchronized, finDone]

private theorem finDone_finished (done : finDone state = true) : synchronized state = true ∧
    sending state = false := by
  revert done
  cases state <;> simp [finDone, synchronized, sending]

/-- The invariant says the rest. -/
theorem agrees_iff (inv : SocketInv t now) : Agrees t ↔ Keyed t := by
  have unfinished := inv.unfinished
  have finished := inv.finished
  have eof := inv.eof
  constructor
  · rintro ⟨_, outstanding, done, _⟩ sync out
    revert sync out outstanding done
    cases t.state <;> simp_all [synchronized, sending, finDone]
  · intro keyed
    unfold Keyed at keyed
    refine ⟨?_, ?_, ?_, fun sync => ?_⟩
    · rintro (state | state) <;> exact unfinished (by simp [state, sending])
    · rintro (state | state | state) <;> simp_all [synchronized, sending, finDone]
    · rintro (state | state) <;> simp_all [synchronized, sending, finDone]
    · rw [eof sync]
      revert sync
      cases t.state <;> simp [synchronized, heardFin]

private theorem keyed_rest (rests : synchronized t.state = false) : Keyed t :=
  fun sync => by simp [rests] at sync

private theorem keyed_sending (sends : sending t.state = true) : Keyed t :=
  fun _ out => by simp [sends] at out

/-- Only these fields matter. -/
theorem Keyed.same (keyed : Keyed t) (state : u.state = t.state) (una : u.sndUna = t.sndUna)
    (next : u.sndNxt = t.sndNxt) : Keyed u := by
  unfold Keyed
  rw [state, una, next]
  exact keyed

/-! ## Segments -/

/-- Once our FIN is out, an acknowledgement is of it, or changes nothing. -/
theorem handleAck_finished (inv : SocketInv t now) (sync : synchronized t.state = true)
    (fin : t.finSent = true)
    (ack : UInt32) (tick : UInt16) :
    (handleAck t ack tick).sndNxt = t.sndNxt ∧
      (handleAck t ack tick).sndUna = if ack = t.sndNxt then t.sndNxt else t.sndUna := by
  have span := inv.span sync
  rw [if_pos fin] at span
  obtain same | ⟨acked, same, _, ⟨unsent, _⟩ | ⟨_, _, all, _⟩⟩ := handleAck_cases inv sync ack tick
  · refine ⟨by rw [same], ?_⟩
    split
    · rename_i all
      rcases span with one | none
      · -- The FIN is outstanding, so this acknowledgement is not turned away.
        have fresh : (upTo ack t.sndUna || precedes t.sndNxt ack) = false := by
          rw [← Bool.not_eq_true, Bool.or_eq_true, upTo_iff, precedes_iff, all, one, UInt32.add_comm,
            UInt32.add_sub_cancel, UInt32.sub_self]
          decide
        rw [handleAck_eq, fresh, if_neg Bool.false_ne_true]
        exact all
      · rw [same, none]
    · rw [same]
  · simp [fin] at unsent
  · rw [same, if_pos all]
    exact ⟨rfl, all⟩

/-- A state that says our FIN is acknowledged is right about it. -/
def Honest (t : MnTcp) : Prop := finDone t.state = true → t.sndUna = t.sndNxt

/-- What follows on the FIN's acknowledgement makes the state say all there is
to say. -/
theorem finAcked_keyed (inv : SocketInv t now) (sync : synchronized t.state = true) (honest : Honest t) :
    Keyed (finAcked t) := by
  unfold finAcked
  split
  · rename_i all
    intro after _
    exact iff_of_true all.2 (finDone_afterFinAcked (inv.out all.1) after)
  · rename_i open_
    intro _ out
    have fin := (inv.finished sync out).1
    have apart : t.sndUna ≠ t.sndNxt := fun same => open_ ⟨fin, same⟩
    exact iff_of_false apart fun done => apart (honest done)

theorem Keyed.honest (keyed : Keyed t) : Honest t := fun done =>
  (keyed (finDone_finished done).1 (finDone_finished done).2).mpr done

theorem handleAck_honest (inv : SocketInv t now) (honest : Honest t) (ack : UInt32) (tick : UInt16) :
    Honest (handleAck t ack tick) := by
  intro done
  rw [handleAck_state] at done
  obtain ⟨sync, out⟩ := finDone_finished done
  obtain ⟨next, una⟩ := handleAck_finished inv sync (inv.finished sync out).1 ack tick
  rw [next, una]
  split
  · rfl
  · exact honest done

theorem inOrder_keyed (inv : SocketInv t now) (sync : synchronized t.state = true)
    (honest : Honest t) (x : XMem)
    (seg : TcpSeg) : Keyed (inOrder t x seg now).1 := by
  obtain ⟨acked, ackedSync⟩ := acked_keeps inv sync seg
  have ackedHonest : Honest { handleAck t seg.ack now with sndWnd := seg.wnd } :=
    handleAck_honest inv honest seg.ack now
  have taken := takeData_keeps acked ackedSync x seg
  have takenSync := (takeData_state _ x seg).symm ▸ ackedSync
  have takenHonest : Honest (takeData { handleAck t seg.ack now with sndWnd := seg.wnd } x seg).1 := by
    rw [(takeData_eq ackedSync x seg).1]
    exact ackedHonest
  unfold inOrder
  dsimp only
  split
  · obtain ⟨finned, finnedSync⟩ := takeFin_keeps taken takenSync
    refine finAcked_keyed finned finnedSync fun done => takenHonest ?_
    rwa [takeFin, finDone_afterPeerFin] at done
  · exact finAcked_keyed taken takenSync takenHonest

/-- The acknowledgement of an outstanding FIN, on its own, leaves the state
behind. -/
theorem handleAck_keyed (inv : SocketInv t now) (sync : synchronized t.state = true)
    (out : sending t.state = false) (keyed : Keyed t) (ack : UInt32) (tick : UInt16) :
    Keyed (handleAck t ack tick) ↔ ¬ (t.sndUna ≠ t.sndNxt ∧ ack = t.sndNxt) := by
  have known := keyed sync out
  obtain ⟨next, una⟩ := handleAck_finished inv sync (inv.finished sync out).1 ack tick
  unfold Keyed
  rw [handleAck_state, next, una, imp_iff_right sync, imp_iff_right out]
  split
  · rename_i all
    simp [all, known]
  · rename_i other
    simp [other, known]

/-- A segment that acknowledges our FIN without being the next one. -/
structure Strays (t : MnTcp) (seg : TcpSeg) : Prop where
  plain : seg.flags.rst = false
  acks : seg.flags.ack = true
  early : seg.seq ≠ t.rcvNxt
  sync : synchronized t.state = true
  fin : t.finSent = true
  outstanding : t.sndUna ≠ t.sndNxt
  all : seg.ack = t.sndNxt

private theorem synchronizedInput_keyed (inv : SocketInv t now) (sync : synchronized t.state = true)
    (keyed : Keyed t)
    (plain : seg.flags.rst = false) (x : XMem) :
    Keyed (synchronizedInput t x seg now).1 ↔ ¬ Strays t seg := by
  unfold synchronizedInput
  by_cases acks : seg.flags.ack = true
  · by_cases next : seg.seq = t.rcvNxt
    · rw [if_neg (by simp [acks]), if_neg (by simp [next])]
      exact iff_of_true (inOrder_keyed inv sync keyed.honest x seg) fun strays => strays.early next
    · rw [if_neg (by simp [acks]), if_pos next]
      obtain ⟨ooo, owed, same⟩ := outOfOrder_socket t seg
      have noted : SocketInv { t with statOoo := ooo, ackPending := owed } now := { inv with }
      rw [same]
      by_cases sends : sending t.state = true
      · refine iff_of_true (keyed_sending (by rwa [handleAck_state])) fun strays => ?_
        exact absurd strays.fin (by simp [inv.unfinished sends])
      · rw [Bool.not_eq_true] at sends
        have moved := handleAck_keyed noted sync sends (keyed.same rfl rfl rfl) seg.ack now
        refine moved.trans
          (not_congr ⟨fun ⟨apart, all⟩ => ?_, fun strays => ⟨strays.outstanding, strays.all⟩⟩)
        exact ⟨plain, acks, next, sync, (inv.finished sync sends).1, apart, all⟩
  · rw [if_pos (by simp [acks])]
    exact iff_of_true keyed fun strays => acks strays.acks

private theorem segmentInput_keyed (inv : SocketInv t now) (owned : awake t.state)
    (keyed : Keyed t) (x : XMem)
    (seg : TcpSeg) : Keyed (segmentInput t x seg now).1 ↔ ¬ Strays t seg := by
  have counted : SocketInv { t with statRxSeg := t.statRxSeg + 1 } now := { inv with }
  constructor
  · intro after strays
    rw [segmentInput_past (synchronized_past strays.sync) strays.plain] at after
    exact (synchronizedInput_keyed counted strays.sync (keyed.same rfl rfl rfl) strays.plain x).mp after
      { strays with }
  · intro steady
    have arrival := segmentInput_arrival t x seg now
    generalize segmentInput t x seg now = out at arrival
    cases arrival with
    | ignored | synAgain => exact keyed.same rfl rfl rfl
    | reset | relistens => exact keyed_rest rfl
    | connects => exact keyed_sending rfl
    | accepts state plain =>
      have opened := accepted_keeps counted state
      refine (synchronizedInput_keyed opened rfl (keyed_sending rfl) plain x).mpr fun strays => ?_
      exact absurd strays.fin (by simp [opened.unfinished rfl])
    | proceeds past plain =>
      refine (synchronizedInput_keyed counted (awake_past owned past)
        (keyed.same rfl rfl rfl) plain x).mpr
        fun strays => steady { strays with }

/-! ## Polls -/

private theorem pollOne_keyed (inv : SocketInv t now) (keyed : Keyed t) (x : XMem)
    (net : MnNet) (tick : UInt16) :
    Keyed (pollOne t x net tick).1 := by
  have polled := pollOne_polled t x net tick
  generalize (pollOne t x net tick).1 = u at polled
  cases polled with
  | relistens | gives_up | expires => exact keyed_rest rfl
  | sends sync _ more => exact keyed_sending (inv.unsent sync more)
  | finishes sync _ unsent idle =>
    have span := inv.span sync
    rw [unsent, idle] at span
    have empty : t.sndNxt = t.sndUna := by simpa using span
    refine fun _ _ => iff_of_false ?_ ?_
    · simp [finished, empty]
    · simp only [finished]
      split <;> simp [finDone]
  | _ => exact keyed.same rfl rfl rfl

/-! ## Runs -/

private theorem exec_keyed (inv : SocketInv c.t c.now) (keyed : Keyed c.t) (net : MnNet) (op : Op)
    (enabled : c.Enabled op) : Keyed (c.exec net op).1.t ↔ ∀ seg, op = .segment seg →
      ¬ Strays c.t seg := by
  by_cases arrives : ∃ seg, op = .segment seg
  · obtain ⟨seg, rfl⟩ := arrives
    have moved := segmentInput_keyed inv enabled keyed c.x seg
    refine moved.trans ⟨fun steady seg' same => ?_, fun steady => steady seg rfl⟩
    cases same
    exact steady
  refine iff_of_true ?_ fun seg same => absurd ⟨seg, same⟩ arrives
  have effect := exec_effect c net op
  generalize c.exec net op = out at effect
  cases effect with
  | idles | others => exact keyed
  | connects ip port tick =>
    obtain ⟨edge, stat, pending, same⟩ :=
      sendSyn_socket (startConnect c.t net ip port tick) c.x net { syn := true }
    rw [same]
    exact keyed_rest rfl
  | answers src seg =>
    obtain ⟨edge, stat, pending, same⟩ :=
      sendSyn_socket (startPassive c.t net src seg c.now) c.x net { syn := true, ack := true }
    rw [same]
    exact keyed_rest rfl
  | listens => exact keyed_rest rfl
  | queues _ _ _ _ _ ready => exact keyed_sending (canSend_sending ready)
  | takes _ _ n =>
    obtain ⟨owed, same⟩ := afterRecv_socket c.t n
    rw [same]
    exact keyed.same rfl rfl rfl
  | asks sends => exact keyed_sending sends
  | drops | aborts => exact keyed_rest rfl
  | arrives seg => exact absurd ⟨seg, rfl⟩ arrives
  | polls tick => exact pollOne_keyed inv keyed c.x net tick

/-- None of the segments among `steps` strays. -/
def NoneStray : Conn → List (MnNet × Op) → Prop
  | _, [] => True
  | c, (net, op) :: rest =>
    (∀ seg, op = .segment seg → ¬ Strays c.t seg) ∧ NoneStray (c.exec net op).1 rest

private theorem keyed_along (run : Conn.Run c) (keyed : Keyed c.t) (steps : List (MnNet × Op))
    (enabled : c.AllEnabled steps) :
    (∀ k, Keyed (c.execAll (steps.take k)).t) ↔ NoneStray c steps := by
  induction steps generalizing c with
  | nil => simpa [Conn.execAll, NoneStray] using keyed
  | cons step rest ih =>
    obtain ⟨net, op⟩ := step
    have further := exec_keyed run.socketInv keyed net op enabled.1
    have later : Conn.Run (c.exec net op).1 := run.next ⟨net, op, enabled.1, rfl⟩
    constructor
    · intro always
      have next : Keyed (c.exec net op).1.t := always 1
      exact ⟨further.mp next, (ih later next enabled.2).mp fun k => always (k + 1)⟩
    · rintro ⟨steady, rest⟩ (_ | k)
      · exact keyed
      · exact (ih later (further.mpr steady) enabled.2).mpr rest k

/-- Along a run the state agrees throughout with what has been sent,
acknowledged and heard, exactly when no segment acknowledges our FIN without
being the next one. -/
theorem state_agreement_iff (begun : Conn.Begun c) (steps : List (MnNet × Op))
    (enabled : c.AllEnabled steps) :
    (∀ k, Agrees (c.execAll (steps.take k)).t) ↔ NoneStray c steps := by
  have run : Conn.Run c := .start begun
  have closed : Keyed c.t := by
    obtain ⟨⟨socks, n, base, member⟩, _⟩ := begun
    obtain ⟨k, found⟩ := List.mem_iff_getElem?.mp member
    exact keyed_rest (by simp [(mnTcpInit_get? found).2.2.2.1, synchronized])
  have agrees : ∀ k, Agrees (c.execAll (steps.take k)).t ↔ Keyed (c.execAll (steps.take k)).t :=
    fun k => agrees_iff (run.execAll (steps.take k) (enabled.take k)).socketInv
  simp only [agrees]
  exact keyed_along run closed steps enabled

/-- A connection whose FIN has gone out, and a segment with an acknowledgement
of it. -/
def shutDown (seq : UInt32) : List (MnNet × Op) :=
  [(goodNet, .connect neighbour 80 65520), (goodNet, .segment synAck), (goodNet, .close),
    (goodNet, .poll 65521),
    (goodNet, .segment (fromPeer 53201 seq 4293918723 { ack := true } 1000 [7] one_byte_fits))]

private theorem shutDown_enabled (seq : UInt32) : freshConn.AllEnabled (shutDown seq) :=
  ⟨trivial, ⟨by decide +kernel, by decide +kernel⟩, trivial, trivial,
    ⟨by decide +kernel, by decide +kernel⟩, trivial⟩

theorem state_agreement_iff_shutDown : Agrees (freshConn.execAll (shutDown 1001)).t := by
  refine (state_agreement_iff freshConn_begun (shutDown 1001) (shutDown_enabled 1001)).mpr ?_ 5
  refine ⟨?_, ?_, ?_, ?_, ?_, trivial⟩ <;> intro seg same strays <;> cases same
  · exact absurd strays.sync (by decide +kernel)
  · exact absurd strays.early (by decide +kernel)

/-- One byte past the next, it leaves the connection in FIN_WAIT_1 with nothing
outstanding. -/
theorem acknowledged_fin_unnoticed : ¬ ∀ c, Conn.Run c → Agrees c.t := by
  intro agrees
  have agreed := agrees _ (freshConn_run.execAll _ (shutDown_enabled 1002))
  exact absurd (agreed.outstanding (Or.inl (by decide +kernel))).2 (by decide +kernel)

end MegaNet.TcpStateAgreement
