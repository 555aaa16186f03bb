import MegaNet.TcpTimeWait

/-! After the peer's FIN. Nothing more is stored, but the FIN itself is taken
again and again: each further one that stands at `rcv_nxt` moves that on. -/
namespace MegaNet.TcpEndOfStream
open MegaNet.Core Words CircularBuffer XmemRings TcpEmission TcpSocketInvariant TcpOutcomes
  TcpPreservation TcpConnection
  TcpSendStream TcpRecvStream

variable {c d e : Conn} {t : MnTcp} {x : XMem} {seg : TcpSeg} {now : UInt16} {net : MnNet} {op : Op}

/-! ## Segments -/

/-- One more FIN, at `rcv_nxt`. -/
def FinAgain (t : MnTcp) (seg : TcpSeg) : Prop :=
  seg.flags.rst = false ∧ seg.flags.ack = true ∧ seg.seq = t.rcvNxt ∧ seg.flags.fin = true

instance (t : MnTcp) (seg : TcpSeg) : Decidable (FinAgain t seg) := inferInstanceAs (Decidable (_ ∧ _))

/-- What a segment leaves of the receive side once the FIN has come. -/
structure Stays (t : MnTcp) (x : XMem) (moved : Prop) [Decidable moved] (out : MnTcp × XMem) : Prop where
  side : rcvSide out.1 = (t.irs, t.rcvNxt + (if moved then 1 else 0), t.rcvHead,
    t.rcvCount, true, home t)
  pool : out.2 = x

private theorem stays_still {u : MnTcp} {moved : Prop} [Decidable moved] (still : ¬ moved)
    (eof : t.flags.eof = true)
    (side : rcvSide u = rcvSide t) : Stays t x moved (u, x) := by
  refine ⟨?_, rfl⟩
  rw [side, if_neg still, rcvSide, eof]
  simp

/-- After the FIN nothing is stored, and another FIN moves `rcv_nxt`. -/
theorem inOrder_stays (heard : heardFin t.state = true) (eof : t.flags.eof = true) (x : XMem)
    (seg : TcpSeg) (now : UInt16) :
    Stays t x (seg.flags.fin = true) (inOrder t x seg now) := by
  have sync : synchronized t.state = true := by
    revert heard
    cases t.state <;> simp [heardFin, synchronized]
  have none_ : taken t seg = 0 := by simp [taken, heard]
  have reached : reachesFin t seg = seg.flags.fin := by simp [reachesFin, heard]
  obtain ⟨same, pool⟩ := inOrder_eq sync x seg now
  have acked := handleAck_rcvSide t seg.ack now
  simp only [rcvSide, Prod.mk.injEq] at acked
  obtain ⟨irs, _, head, _, still, place⟩ := acked
  have received_ : rcvSide (received t seg now) =
      (t.irs, t.rcvNxt, t.rcvHead, t.rcvCount, true, home t) := by
    rw [← eof, ← irs, ← head, ← still, ← place]
    simp [rcvSide, received, none_, home]
  refine ⟨?_, pool none_⟩
  rw [same, finAcked_rcvSide, reached]
  cases fin : seg.flags.fin with
  | false => simpa using received_
  | true =>
    simp only [rcvSide, Prod.mk.injEq] at received_
    obtain ⟨irs, next, head, count, _, place⟩ := received_
    simp only [if_true, rcvSide, takeFin, ← irs, ← next, ← head, ← count, ← place]
    rfl

private theorem synchronizedInput_stays (heard : heardFin t.state = true) (eof : t.flags.eof = true)
    (x : XMem) (seg : TcpSeg)
    (now : UInt16) (plain : seg.flags.rst = false) : Stays t x (FinAgain t seg)
    (synchronizedInput t x seg now) := by
  unfold synchronizedInput
  split
  · rename_i deaf
    exact stays_still (fun fin => by simp [fin.2.1] at deaf) eof rfl
  rename_i acks
  split
  · rename_i away
    exact stays_still (fun fin => away fin.2.2.1) eof
      ((handleAck_rcvSide ..).trans (outOfOrder_rcvSide t seg))
  · rename_i here
    have same : FinAgain t seg ↔ seg.flags.fin = true := by
      simp only [FinAgain, plain, not_not.mp here, true_and]
      simpa using fun _ => by simpa using acks
    have stays := inOrder_stays heard eof x seg now
    refine ⟨stays.side.trans ?_, stays.pool⟩
    simp only [same]

private theorem segmentInput_stays (heard : heardFin t.state = true) (eof : t.flags.eof = true)
    (x : XMem) (seg : TcpSeg)
    (now : UInt16) : Stays t x (FinAgain t seg) (segmentInput t x seg now) := by
  have past : t.state ≠ .synSent ∧ t.state ≠ .synRcvd := by
    constructor <;> intro state <;> rw [state] at heard <;> cases heard
  have arrival := segmentInput_arrival t x seg now
  by_cases rst : seg.flags.rst = true
  · have still : ¬ FinAgain t seg := fun fin => by simp [fin.1] at rst
    generalize segmentInput t x seg now = out at arrival
    cases arrival with
    | ignored => exact stays_still still eof rfl
    | reset flags same => exact stays_still still eof (by simp [rcvSide, same, home])
    | relistens state | synAgain state | accepts state => exact absurd state past.2
    | connects state => exact absurd state past.1
    | proceeds _ plain => simp [rst] at plain
  · rw [Bool.not_eq_true] at rst
    rw [segmentInput_past past rst]
    obtain ⟨side, pool⟩ :=
      synchronizedInput_stays (t := { t with statRxSeg := t.statRxSeg + 1 }) heard eof x seg now rst
    exact ⟨side, pool⟩

/-! ## One operation -/

/-- The bytes an operation hands to the application. -/
def returned (c : Conn) : Op → List UInt8
  | .recv cap => (mnTcpRecv c.t c.x cap).1
  | .recvX ext dst cap =>
    (mnTcpRecvX c.t c.x ext dst cap).2.2.read dst (mnTcpRecvX c.t c.x ext dst cap).1
  | _ => []

/-- From `c` to `d` the sequence numbers of the peer's stream stay, and the ring
loses what was read from it, and gets nothing. -/
structure Final (c : Conn) (read : List UInt8) (d : Conn) : Prop where
  irs : d.t.irs = c.t.irs
  next : d.t.rcvNxt = c.t.rcvNxt
  ring : read ++ unread d = unread c

theorem Final.refl (c : Conn) : Final c [] c := ⟨rfl, rfl, List.nil_append _⟩

theorem Final.trans {front back : List UInt8} (first : Final c front d) (second : Final d back e) :
    Final c (front ++ back) e :=
  ⟨second.irs.trans first.irs, second.next.trans first.next,
    by rw [List.append_assoc, second.ring, first.ring]⟩

/-- What is final over a whole stretch is so over the rest of it. -/
theorem Final.rest {front back : List UInt8} (first : Final c front d)
    (whole : Final c (front ++ back) e) :
    Final d back e := by
  refine ⟨whole.irs.trans first.irs.symm, whole.next.trans first.next.symm, ?_⟩
  have same := whole.ring.trans first.ring.symm
  rw [List.append_assoc] at same
  exact List.append_cancel_left same

/-- A call or segment that begins a new connection. -/
def Reopens (c : Conn) : Op → Prop
  | .connect .. => c.t.state = .closed
  | .passiveOpen .. => True
  | _ => False

/-- A further FIN, or a listen call that drops what was not read. -/
def Disturbs (c : Conn) : Op → Prop
  | .segment seg => FinAgain c.t seg
  | .listen port => c.t.state = .closed ∧ port ≠ 0 ∧ c.t.rcvCount ≠ 0
  | _ => False

/-- The peer has finished, or there is no peer. -/
def Over (t : MnTcp) : Prop := t.flags.eof = true ∨ ¬ awake t.state

/-- What leaves the receive side alone. -/
theorem final_of_side (run : Conn.Run c) (run' : Conn.Run d) (side : rcvSide d.t = rcvSide c.t)
    (cells : ∀ a, home c.t ≤ a → a < home c.t + 4096 → d.x a = c.x a) : Final c [] d := by
  simp only [rcvSide, Prod.mk.injEq] at side
  obtain ⟨irs, next, head, count, _, place⟩ := side
  refine ⟨irs, next, ?_⟩
  rw [unread_window run.socketInv run.placed, unread_window run'.socketInv run'.placed, rcvWindow,
    rcvWindow, place, head,
    count, List.nil_append]
  exact window_congr (by decide) cells

/-- A receive call takes its bytes off the front of the ring. -/
theorem recv_final (run : Conn.Run c) {n : UInt16} (held : n.toNat ≤ c.t.rcvCount.toNat)
    (rcvd : List UInt8)
    (run' : Conn.Run { c with t := afterRecv c.t n, rcvd }) :
    Final c (ringRead c.x c.t.xseg c.t.rcvbuf MN_TCP_RCVBUF c.t.rcvHead n)
      { c with t := afterRecv c.t n, rcvd } := by
  have head := run.socketInv.rcvHead
  have count := run.socketInv.rcvCount
  have fits := run.placed.fits
  have taken : ringRead c.x c.t.xseg c.t.rcvbuf MN_TCP_RCVBUF c.t.rcvHead n =
      rcvWindow c.t c.x c.t.rcvHead.toNat n.toNat :=
    ringRead_window (by rw [rcvbuf_toNat]; omega) head (by rw [rcvbuf_toNat]; omega)
  have left := unread_window run'.socketInv run'.placed
  obtain ⟨owed, same⟩ := afterRecv_socket c.t n
  have moved : ((c.t.rcvHead + n) % MN_TCP_RCVBUF).toNat = (c.t.rcvHead.toNat + n.toNat) % 4096 := by
    rw [UInt16.toNat_mod, UInt16.toNat_add, rcvbuf_toNat]
    omega
  refine ⟨by rw [same], by rw [same], ?_⟩
  rw [left, taken, unread_window run.socketInv run.placed, same]
  show _ ++ window c.x (home c.t) 4096 ((c.t.rcvHead + n) % MN_TCP_RCVBUF).toNat
    (c.t.rcvCount - n).toNat = _
  rw [moved, toNat_less held, window_mod, rcvWindow, rcvWindow, ← window_append,
    Nat.add_sub_cancel' held]

/-- What an operation that begins no connection hands out. -/
theorem exec_returned (c : Conn) (net : MnNet) (keeps : ¬ Reopens c op)
    (quiet : ∀ port, op ≠ .listen port) :
    (c.exec net op).1.rcvd = c.rcvd ++ returned c op := by
  cases op with
  | connect ip port tick =>
    rw [exec_connect, if_neg (show ¬ c.t.state = .closed from keeps)]
    exact (List.append_nil _).symm
  | listen port => exact absurd rfl (quiet port)
  | passiveOpen => exact absurd trivial keeps
  | recv | recvX => rfl
  | send | sendX | close | abort | segment | poll | others => exact (List.append_nil _).symm

theorem calm (quiet : ∀ seg, op ≠ .segment seg) (other : ∀ port, op ≠ .listen port) :
    ¬ Disturbs c op := by
  cases op with
  | segment seg => exact absurd rfl (quiet seg)
  | listen port => exact absurd rfl (other port)
  | _ => exact id

/-- While it has a connection, its state tells of the FIN. -/
theorem Over.heard (ended : Over t) (sock : SocketInv t now) (owned : awake t.state) :
    t.flags.eof = true ∧ heardFin t.state = true := by
  have eof := ended.resolve_right fun idle => idle owned
  have sync : synchronized t.state = true := by
    refine awake_past owned ⟨fun opening => ?_, fun opening => ?_⟩ <;>
      exact absurd eof (by simp [sock.going (congrArg handshaking opening)])
  exact ⟨eof, (sock.eof sync).symm.trans eof⟩

theorem Over.onward {u : MnTcp} (ended : Over t) (onward : Onward t.state u.state)
    (eof : u.flags.eof = t.flags.eof) :
    Over u := by
  obtain finished | idle := ended
  · exact Or.inl (eof.trans finished)
  · obtain same | closed | ⟨passive, _⟩ | ⟨sync, _⟩ := onward
    · exact Or.inr (same ▸ idle)
    · exact Or.inr fun owned => owned.1 closed
    · exact absurd (by simp [passive, awake]) idle
    · exact absurd (synchronized_awake sync) idle

/-- A listen call empties the ring. -/
theorem listen_final_iff (ended : Over c.t) (net : MnNet) (port : UInt16) :
    Over (c.exec net (.listen port)).1.t ∧
      (Final c [] (c.exec net (.listen port)).1 ↔ ¬ Disturbs c (.listen port)) := by
  rw [exec_listen]
  by_cases taken : c.t.state = .closed ∧ port ≠ 0
  · rw [if_pos taken]
    refine ⟨Or.inr fun owned => owned.2 rfl, ?_⟩
    have emptied : unread
      (c.fresh { resetCounters { c.t with localPort := port, remotePort := 0 } with state := .listen }
        false) = [] := List.eq_nil_of_length_eq_zero (unread_length _)
    have empty : unread c = [] ↔ c.t.rcvCount = 0 := by
      rw [← List.length_eq_zero_iff, unread_length, ← UInt16.toNat_inj, UInt16.toNat_zero]
    have disturbs : Disturbs c (.listen port) ↔ c.t.rcvCount ≠ 0 := by simp [Disturbs, taken]
    rw [disturbs, not_not, ← empty]
    refine ⟨fun final => ?_, fun none_ => ⟨rfl, rfl, by rw [emptied, none_, List.append_nil]⟩⟩
    rw [← final.ring, emptied, List.append_nil]
  · rw [if_neg taken]
    exact ⟨ended, iff_of_true (Final.refl c) fun disturbs => taken ⟨disturbs.1, disturbs.2.1⟩⟩

/-- A segment moves `rcv_nxt` just if it is one more FIN. -/
theorem segment_final_iff (run : Conn.Run c) (ended : Over c.t) (net : MnNet) (seg : TcpSeg)
    (owned : awake c.t.state) :
    Over (c.exec net (.segment seg)).1.t ∧
      (Final c [] (c.exec net (.segment seg)).1 ↔ ¬ Disturbs c (.segment seg)) := by
  have run' : Conn.Run (c.exec net (.segment seg)).1 := run.next ⟨net, .segment seg, owned, rfl⟩
  obtain ⟨eof, heard⟩ := ended.heard run.socketInv owned
  obtain ⟨side, pool⟩ := segmentInput_stays heard eof c.x seg c.now
  have after : (c.exec net (.segment seg)).1.t = (segmentInput c.t c.x seg c.now).1 ∧
      (c.exec net (.segment seg)).1.x = (segmentInput c.t c.x seg c.now).2 := ⟨rfl, rfl⟩
  generalize (c.exec net (.segment seg)).1 = d at run' after
  rw [← after.1] at side
  rw [← after.2] at pool
  have fields := side
  simp only [rcvSide, Prod.mk.injEq] at fields
  obtain ⟨_, next, _, _, finished, _⟩ := fields
  refine ⟨Or.inl finished, fun final again => ?_, fun still => ?_⟩
  · have moved := next.symm.trans final.next
    rw [if_pos (show FinAgain c.t seg from again)] at moved
    exact absurd moved (by grind)
  · have unmoved : rcvSide d.t = rcvSide c.t := by
      rw [side, if_neg (show ¬ FinAgain c.t seg from still), rcvSide, eof]
      simp
    exact final_of_side run run' unmoved fun a _ _ => congrFun pool a

/-- One operation on a connection whose peer has finished. -/
theorem exec_final_iff (run : Conn.Run c) (ended : Over c.t) (net : MnNet) (enabled : c.Enabled op)
    (keeps : ¬ Reopens c op) :
    Over (c.exec net op).1.t ∧ (Final c (returned c op) (c.exec net op).1 ↔ ¬ Disturbs c op) := by
  by_cases listens : ∃ port, op = .listen port
  · obtain ⟨port, rfl⟩ := listens
    exact listen_final_iff ended net port
  by_cases arrives : ∃ seg, op = .segment seg
  · obtain ⟨seg, rfl⟩ := arrives
    exact segment_final_iff run ended net seg enabled
  have quiet : ∀ seg, op ≠ .segment seg := fun seg same => arrives ⟨seg, same⟩
  have other : ∀ port, op ≠ .listen port := fun port same => listens ⟨port, same⟩
  have run' : Conn.Run (c.exec net op).1 := run.next ⟨net, op, enabled, rfl⟩
  have handed := exec_returned c net keeps other
  have effect := exec_effect c net op
  suffices Over (c.exec net op).1.t ∧ Final c (returned c op) (c.exec net op).1 from
    ⟨this.1, iff_of_true this.2 (calm quiet other)⟩
  generalize c.exec net op = out at run' handed effect
  cases effect with
  | idles =>
    obtain nothing : returned c op = [] :=
      List.append_cancel_left (handed.symm.trans (List.append_nil _).symm)
    rw [nothing]
    exact ⟨ended, Final.refl c⟩
  | connects _ _ _ free => exact absurd free keeps
  | answers => exact absurd trivial keeps
  | listens port => exact absurd rfl (other port)
  | arrives seg => exact absurd rfl (quiet seg)
  | queues _ data n len room ready held =>
    obtain nothing : returned c op = [] :=
      List.append_cancel_left (handed.symm.trans (List.append_nil _).symm)
    have fits : n.toNat ≤ 3072 := by
      have := sendRoom_le run.socketInv len
      rw [← room] at this
      omega
    rw [nothing]
    exact ⟨ended, final_of_side run run' rfl fun a _ high =>
      sndRing_outside run.placed c.x data n (held enabled) fits a (Or.inl high)⟩
  | takes _ bytes n held exact_ =>
    obtain same : returned c op = bytes := List.append_cancel_left handed.symm
    have final := recv_final run held (c.rcvd ++ bytes) run'
    rw [← exact_ run.socketInv.rcvHead] at final
    rw [same]
    refine ⟨?_, final⟩
    obtain ⟨owed, same⟩ := afterRecv_socket c.t n
    dsimp only
    rw [same]
    exact ended
  | asks => exact ⟨ended, final_of_side run run' rfl fun _ _ _ => rfl⟩
  | drops | aborts =>
    exact ⟨Or.inr fun owned => owned.1 rfl, final_of_side run run' rfl fun _ _ _ => rfl⟩
  | polls tick =>
    have steady := pollOne_steady run.socketInv c.x net tick
    exact ⟨ended.onward steady.1 steady.2,
      final_of_side run run' (pollOne_rcvSide run.socketInv c.x net tick) fun _ _ _ => rfl⟩
  | others x => exact ⟨ended, final_of_side run run' rfl fun a low high => enabled a low (by omega)⟩

/-! ## A whole run -/

/-- The bytes several operations hand out, one after the other. -/
def returnedBy (c : Conn) : List (MnNet × Op) → List UInt8
  | [] => []
  | (net, op) :: rest => returned c op ++ returnedBy (c.exec net op).1 rest

/-- Each operation is as it should be where it comes. -/
def Throughout (p : Conn → Op → Prop) (c : Conn) : List (MnNet × Op) → Prop
  | [] => True
  | (net, op) :: rest => p c op ∧ Throughout p (c.exec net op).1 rest

private theorem steps_final_iff (run : Conn.Run c) (ended : Over c.t) (steps : List (MnNet × Op))
    (enabled : c.AllEnabled steps)
    (keeps : Throughout (fun c op => ¬ Reopens c op) c steps) :
    (∀ k, Final c (returnedBy c (steps.take k)) (c.execAll (steps.take k))) ↔
      Throughout (fun c op => ¬ Disturbs c op) c steps := by
  induction steps generalizing c with
  | nil =>
    refine iff_of_true (fun k => ?_) trivial
    rw [List.take_nil]
    exact Final.refl c
  | cons step rest ih =>
    obtain ⟨net, op⟩ := step
    obtain ⟨stays, final_iff⟩ := exec_final_iff run ended net enabled.1 keeps.1
    have later := ih (run.next ⟨net, op, enabled.1, rfl⟩) stays enabled.2 keeps.2
    constructor
    · intro final
      have first : Final c (returned c op) (c.exec net op).1 := by
        have one := final 1
        rwa [List.take_succ_cons, List.take_zero, returnedBy, returnedBy, List.append_nil] at one
      exact ⟨final_iff.mp first, later.mp fun k => first.rest (final (k + 1))⟩
    · rintro ⟨calm, others⟩ (_ | k)
      · exact Final.refl c
      · exact (final_iff.mpr calm).trans (later.mpr others k)

/-- Once the peer's FIN has come, until a connection begins anew: in every state
reached the sequence numbers of its stream are the same, and the ring holds
what it held less what was read, exactly if no further FIN stands at `rcv_nxt`
and no listen call drops what was not read. -/
theorem end_of_stream_iff (run : Conn.Run c) (eof : c.t.flags.eof = true) (steps : List (MnNet × Op))
    (enabled : c.AllEnabled steps) (keeps : Throughout (fun c op => ¬ Reopens c op) c steps) :
    (∀ k, Final c (returnedBy c (steps.take k)) (c.execAll (steps.take k))) ↔
      Throughout (fun c op => ¬ Disturbs c op) c steps :=
  steps_final_iff run (Or.inl eof) steps enabled keeps

/-- The neighbour's FIN, at a place in its stream. -/
def finAt (seq : UInt32) : TcpSeg :=
  fromPeer 53201 seq 4293918722 { ack := true, fin := true } 1000 [] nothing_fits

/-- A connection that the neighbour has finished sending on. -/
def finished : Conn :=
  freshConn.execAll [(goodNet, .connect neighbour 80 65520), (goodNet, .segment synAck),
    (goodNet, .segment (finAt 1001))]

theorem finished_run : Conn.Run finished :=
  freshConn_run.execAll _
    ⟨trivial, ⟨by decide +kernel, by decide +kernel⟩, ⟨by decide +kernel, by decide +kernel⟩, trivial⟩

/-- The FIN again, behind itself. -/
def finBehind : List (MnNet × Op) := [(goodNet, .segment (finAt 1002))]

private theorem finBehind_enabled : finished.AllEnabled finBehind :=
  ⟨⟨by decide +kernel, by decide +kernel⟩, trivial⟩

theorem end_of_stream_iff_finBehind :
    (∀ k, Final finished (returnedBy finished (finBehind.take k))
      (finished.execAll (finBehind.take k))) ↔
      Throughout (fun c op => ¬ Disturbs c op) finished finBehind :=
  end_of_stream_iff finished_run (by decide +kernel) finBehind finBehind_enabled ⟨id, trivial⟩

/-- It is taken a second time. -/
theorem fin_taken_twice :
    Conn.Run finished ∧ finished.t.state = .closeWait ∧ finished.t.flags.eof = true ∧
      finished.AllEnabled finBehind ∧
      Throughout (fun c op => ¬ Reopens c op) finished finBehind ∧ finished.t.rcvNxt = 1002 ∧
      (finished.execAll finBehind).t.rcvNxt = 1003 :=
  ⟨finished_run, by decide +kernel, by decide +kernel, finBehind_enabled, ⟨id, trivial⟩,
    by decide +kernel,
    by decide +kernel⟩

end MegaNet.TcpEndOfStream
