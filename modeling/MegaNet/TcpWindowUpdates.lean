import MegaNet.TcpAdvertisedWindow

/-! What the peer knows of the receive window. As long as the link takes every
segment, the last right edge told is never far behind the window as it is,
unless an acknowledgement is owed that will tell it. -/
namespace MegaNet.TcpWindowUpdates
open MegaNet.Core SerialNumber Words TcpEmission TcpSocketInvariant TcpOutcomes
  TcpConnection TcpSendStream
  TcpRecvStream TcpLifetime TcpResets TcpAdvertisedWindow Transition

variable {c : Conn} {t u : MnTcp} {seg : TcpSeg} {w : Watched}

/-! ## What the peer was last told -/

/-- Every frame handed down between two states of a net was a segment, and the
link took it: what `MN_SEND_OK` from every `emit` comes to. -/
def AllSent (before after : MnNet) : Prop :=
  ∀ entry ∈ handedSince before after, entry.2 = true ∧ (segmentOf entry.1).isSome

/-- The runs in which every `emit` returned `MN_SEND_OK`. -/
def SentRun : Watched → Prop :=
  Reachable Watched.Begun fun w w' =>
    ∃ net op, w.conn.Enabled op ∧ AllSent net (w.conn.exec net op).2 ∧ w' = (w.exec net op).1

/-- The right edge of the window as it now is. -/
def rightEdge (t : MnTcp) : UInt32 := t.rcvNxt + (advWindow t).toUInt32

/-- The peer knows the window to within `WINUPDATE_GROW`, and does not take it
for closed while there is room. -/
def Near (t : MnTcp) : Prop :=
  rightEdge t - t.advEdge < WINUPDATE_GROW ∧ (rcvFree t ≠ 0 → t.advEdge ≠ t.rcvNxt)

/-- The acknowledgements among some frames. -/
def acksIn (frames : List (Frame × Bool)) : List TcpSeg :=
  (frames.filterMap fun entry => segmentOf entry.1).filter (·.flags.ack)

theorem acks_handed (handed : Handed net after frames) : acksHanded net after = acksIn frames := by
  rw [acksHanded, segmentsHanded, handed_since handed]
  rfl

/-- Between two states of a socket it acknowledged nothing and still owes what it
owed, or it told the peer the right edge. -/
def Speaks (t : MnTcp) (net : MnNet) (u : MnTcp) (after : MnNet) : Prop :=
  ∃ frames, Handed net after frames ∧
    (acksIn frames = [] ∧ u.advEdge = t.advEdge ∧ (t.ackPending = true → u.ackPending = true) ∨
      acksIn frames ≠ [] ∧ u.advEdge = rightEdge u)

theorem Speaks.nothing (t : MnTcp) (net : MnNet) : Speaks t net t net :=
  ⟨[], Handed.refl net, Or.inl ⟨rfl, rfl, id⟩⟩

/-- What the right edge and the last one told are made of. -/
def edges (t : MnTcp) : UInt32 × UInt32 × UInt16 := (t.advEdge, t.rcvNxt, t.rcvCount)

private theorem rightEdge_congr (next : u.rcvNxt = t.rcvNxt) (count : u.rcvCount = t.rcvCount) :
    rightEdge u = rightEdge t := by
  rw [rightEdge, rightEdge, next, advWindow_congr count]

theorem Speaks.same (spoke : Speaks t net u after) (same : edges v = edges u)
    (owed : v.ackPending = u.ackPending) :
    Speaks t net v after := by
  simp only [edges, Prod.mk.injEq] at same
  obtain ⟨frames, handed, said⟩ := spoke
  refine ⟨frames, handed, ?_⟩
  rwa [same.1, owed, rightEdge_congr same.2.1 same.2.2]

private theorem acksIn_append (front back : List (Frame × Bool)) :
    acksIn (front ++ back) = acksIn front ++ acksIn back := by
  simp [acksIn]

/-- An acknowledgement either waits for the next hop, or tells the peer the
right edge. -/
theorem emit_speaks (t : MnTcp) (x : XMem) (net : MnNet) (flags : SegFlags)
    (seq : UInt32) (off len : UInt16)
    (mss : Bool) (acks : flags.ack = true) :
    ∃ frames, Handed net (emit t x net flags seq off len mss).2.2 frames ∧
      ((emit t x net flags seq off len mss).1 = .pending ∧ acksIn frames = [] ∧
          (emit t x net flags seq off len mss).2.1 = t ∨
        acksIn frames ≠ [] ∧ ∃ stat, (emit t x net flags seq off len mss).2.1 =
          { t with advEdge := rightEdge t, statTxSeg := stat }) := by
  have emission := emit_emission t x net flags seq off len mss
  generalize emit t x net flags seq off len mss = out at emission
  cases emission with
  | unresolved _ _ _ _ handed => exact ⟨_, handed, Or.inl ⟨rfl, rfl, rfl⟩⟩
  | sent _ _ _ _ handed =>
    rw [if_pos acks]
    refine ⟨_, handed, Or.inr ⟨?_, _, rfl⟩⟩
    simp [acksIn, segmentOf, buildSegment, acks]

/-- One more segment, and what becomes of the socket by its result. -/
theorem Speaks.emits (spoke : Speaks t net u after) (x : XMem) (flags : SegFlags) (seq : UInt32)
    (off len : UInt16) (mss : Bool) (acks : flags.ack = true) (v : MnTcp)
    (waits : (emit u x after flags seq off len mss).1 = .pending →
      (emit u x after flags seq off len mss).2.1 = u →
      edges v = edges u ∧ v.ackPending = u.ackPending)
    (goes : ∀ stat, (emit u x after flags seq off len mss).2.1 =
      { u with advEdge := rightEdge u, statTxSeg := stat } →
        edges v = (rightEdge u, u.rcvNxt, u.rcvCount)) :
    Speaks t net v (emit u x after flags seq off len mss).2.2 := by
  obtain ⟨back, more, ⟨pending, silent, still⟩ | ⟨loud, stat, same⟩⟩ :=
    emit_speaks u x after flags seq off len mss acks
  · obtain ⟨same, owed⟩ := waits pending still
    obtain ⟨front, handed, said⟩ := spoke.same same owed
    refine ⟨front ++ back, handed.trans more, ?_⟩
    rwa [acksIn_append, silent, List.append_nil]
  · obtain ⟨front, handed, _⟩ := spoke
    have told := goes stat same
    simp only [edges, Prod.mk.injEq] at told
    refine ⟨front ++ back, handed.trans more, Or.inr ⟨?_, ?_⟩⟩
    · rw [acksIn_append]
      exact List.append_ne_nil_of_right_ne_nil _ loud
    · rw [told.1, rightEdge_congr told.2.1 told.2.2]

private theorem sendLoop_speaks (x : XMem) (now limit : UInt16) (fuel : Nat) (t : MnTcp) (net : MnNet) :
    Speaks t net (sendLoop x now limit fuel t net).2.1 (sendLoop x now limit fuel t net).2.2 := by
  refine sendLoop_rule (motive := fun u after => Speaks t net u after) x now limit ?_ fuel t net
    (Speaks.nothing t net)
  intro u after spoke _ _
  refine spoke.emits x dataFlags u.sndNxt u.inflight (nextLength u limit) false rfl _
    (fun pending still => ?_) fun stat same => ?_
  · rw [if_neg (by simp [pending]), still]
    exact ⟨rfl, rfl⟩
  · rw [same]
    split <;> rfl

theorem sendSyn_speaks (spoke : Speaks t net u after) (x : XMem) (flags : SegFlags)
    (acks : flags.ack = true) :
    Speaks t net (sendSyn u x after flags).1 (sendSyn u x after flags).2 := by
  rw [sendSyn_net]
  refine spoke.emits x _ _ _ _ _ acks _ (fun _ still => ?_) fun stat same => ?_
  · unfold sendSyn
    dsimp only
    rw [still]
    exact ⟨rfl, rfl⟩
  · unfold sendSyn
    dsimp only
    rw [same]
    rfl

private theorem resendSyn_speaks (known : t.state ≠ .synSent) (x : XMem) (net : MnNet) (now : UInt16) :
    Speaks t net (resendSyn t x net now).1 (resendSyn t x net now).2 :=
  sendSyn_speaks (u := { t with sentAt := now }) ((Speaks.nothing t net).same rfl rfl) x _
    (by simp [known])

/-- An acknowledgement the link took has been handed down. -/
theorem sent_loud (acks : flags.ack = true) (sent : AllSent net (sendSyn t x net flags).2) :
    acksHanded net (sendSyn t x net flags).2 ≠ [] := by
  rw [sendSyn_net] at sent ⊢
  have emission := emit_emission t x net flags t.iss 0 0 true
  generalize emit t x net flags t.iss 0 0 true = out at emission sent ⊢
  cases emission with
  | unresolved _ _ _ _ handed =>
    have carried := (sent _ (by rw [handed_since handed]; exact List.mem_singleton_self _)).2
    cases carried
  | sent _ _ _ _ handed =>
    rw [acks_handed handed]
    simp [acksIn, segmentOf, buildSegment, acks]

theorem pollOne_speaks (known : t.state ≠ .synSent) (staying : t.state ≠ .timeWait)
    (x : XMem) (net : MnNet)
    (now : UInt16) : Speaks t net (pollOne t x net now).1 (pollOne t x net now).2 := by
  have start := Speaks.nothing t net
  apply pollOne_rule (motive := fun out => Speaks t net out.1 out.2)
  · exact fun _ => start
  · intro _
    have shake := pollHandshake_shake t x net now
    generalize pollHandshake t x net now = out at shake
    cases shake with
    | waits => exact start
    | relistens | times_out => exact start.same rfl rfl
    | pending => exact resendSyn_speaks known x net now
    | again => exact resendSyn_speaks (t := retried t) known x net now
  · exact fun state => absurd state staying
  · intro _ _
    have again := retransmit_retransmission t x net now
    generalize retransmit t x net now = out at again
    have started : Speaks t net (resent t now) net := start.same rfl rfl
    cases again with
    | times_out => exact start.same rfl rfl
    | data | fin =>
      refine started.emits x _ _ _ _ _ rfl _ (fun _ still => ?_) fun stat same => ?_
      · rw [still]
        exact ⟨rfl, rfl⟩
      · rw [same]
        rfl
  · intro _ _ _ _
    exact (sendLoop_speaks x now (sendLimit t) t.sndLen.toNat t net).same rfl rfl
  · intro _ _ _ _ _ _
    rw [sendFin_net]
    refine start.emits x _ _ _ _ _ rfl _ (fun pending still => ?_) fun stat same => ?_
    · unfold sendFin
      dsimp only
      rw [pending, still]
      exact ⟨rfl, rfl⟩
    · unfold sendFin
      dsimp only
      rw [same]
      split <;> rfl
  · intro _ _ _
    rw [sendAck_net]
    refine start.emits x _ _ _ _ _ rfl _ (fun pending still => ?_) fun stat same => ?_
    · unfold sendAck
      dsimp only
      rw [pending, still]
      exact ⟨rfl, rfl⟩
    · unfold sendAck
      dsimp only
      rw [same]
      split <;> rfl

/-! ## A connection abreast of its window -/

/-- The states in which the peer may send and the receive ring grow. -/
def Hearing (t : MnTcp) : Prop := t.state = .synRcvd ∨ Storing t

/-- A poll leads into none of them from elsewhere. -/
theorem pollOne_hearing (sock : SocketInv t now) (x : XMem) (net : MnNet) (tick : UInt16)
    (hearing : Hearing (pollOne t x net tick).1) : Hearing t := by
  have polled := pollOne_polled t x net tick
  generalize (pollOne t x net tick).1 = u at polled hearing
  cases polled with
  | finishes sync _ unsent =>
    have done := sock.finished sync
    cases state : t.state <;> simp
      [Hearing, Storing, finished, state, sending, synchronized, unsent] at *
  | relistens | gives_up | expires => simp [Hearing, Storing, spent] at hearing
  | _ => exact hearing

/-- The peer's FIN leads out of the storing states, and the acknowledgement of
ours from one to another. -/
private theorem finAcked_storing (storing : Storing (finAcked u)) : Storing u := by
  obtain same | same := finAcked_socket u <;> rw [same] at storing
  · exact storing
  · cases state : u.state <;> simp [Storing, afterFinAcked, state] at *

private theorem takeFin_deaf (sync : synchronized t.state = true) : ¬ Storing (takeFin t) := by
  cases state : t.state <;> simp [Storing, takeFin, afterPeerFin, state, synchronized] at *

private theorem finAcked_edges (u : MnTcp) :
    edges (finAcked u) = edges u ∧ (finAcked u).ackPending = u.ackPending := by
  obtain same | same := finAcked_socket u <;> rw [same] <;> exact ⟨rfl, rfl⟩

private theorem handleAck_edges (t : MnTcp) (ack : UInt32) (now : UInt16) :
    edges (handleAck t ack now) = edges t ∧ (handleAck t ack now).ackPending = t.ackPending := by
  obtain same | ⟨acked, same⟩ := handleAck_socket t ack now <;> rw [same] <;> exact ⟨rfl, rfl⟩

/-- The window is as near to the last edge told as it was, or an acknowledgement
is owed. -/
def Owes (t u : MnTcp) : Prop :=
  u.advEdge = t.advEdge ∧
    (u.ackPending = true ∨ (Near t → Near u) ∧ (t.ackPending = true → u.ackPending = true))

private theorem near_congr (same : edges u = edges t) (near : Near t) : Near u := by
  simp only [edges, Prod.mk.injEq] at same
  obtain ⟨edge, next, count⟩ := same
  rwa [Near, rightEdge_congr next count, edge, next, rcvFree, count]

theorem Owes.same (same : edges u = edges t) (owed : t.ackPending = true → u.ackPending = true) :
    Owes t u :=
  ⟨congrArg Prod.fst same, Or.inr ⟨near_congr same, owed⟩⟩

theorem Owes.from_same (owes : Owes v u) (same : edges v = edges t)
    (owed : t.ackPending = true → v.ackPending = true) :
    Owes t u :=
  ⟨owes.1.trans (congrArg Prod.fst same), owes.2.imp_right fun ⟨near, more⟩ =>
    ⟨fun before => near (near_congr same before), fun due => more (owed due)⟩⟩

/-- While payload is stored, a segment leaves the window as it was unless it
makes the connection owe an acknowledgement. -/
theorem synchronizedInput_owes (sync : synchronized t.state = true) (x : XMem)
    (seg : TcpSeg) (now : UInt16)
    (storing : Storing (synchronizedInput t x seg now).1) :
    Storing t ∧ Owes t (synchronizedInput t x seg now).1 := by
  revert storing
  unfold synchronizedInput
  split
  · exact fun storing => ⟨storing, .same rfl id⟩
  split
  · intro storing
    obtain ⟨same, owed⟩ := handleAck_edges (outOfOrder t seg) seg.ack now
    obtain ⟨ooo, owes, counted⟩ := outOfOrder_socket t seg
    have more : t.ackPending = true → (outOfOrder t seg).ackPending = true := by
      intro due
      unfold outOfOrder
      split
      · rfl
      · exact due
    dsimp only at storing ⊢
    rw [Storing, handleAck_state, counted] at storing
    refine ⟨storing, .same (same.trans ?_) fun due => owed.trans (more due)⟩
    rw [counted]
    rfl
  · rw [(inOrder_eq sync x seg now).1]
    intro storing
    have before := finAcked_storing storing
    obtain ⟨same, owed⟩ :=
      finAcked_edges (if reachesFin t seg then takeFin (received t seg now) else received t seg now)
    have state : (received t seg now).state = t.state := handleAck_state t seg.ack now
    have going : ¬ reachesFin t seg = true := by
      intro fin
      rw [if_pos fin] at before
      exact takeFin_deaf (state ▸ sync) before
    rw [if_neg going] at before same owed ⊢
    rw [Storing, state] at before
    obtain ⟨kept, _⟩ := handleAck_edges t seg.ack now
    have edge : (received t seg now).advEdge = t.advEdge := congrArg Prod.fst kept
    refine ⟨before, ?_⟩
    by_cases empty : seg.dlen = 0
    · have none : taken t seg = 0 := eq_zero_of_toNat (by simpa [empty] using taken_le t seg)
      refine .same (same.trans ?_) fun due => owed.trans (by simp [received, due])
      rw [edges, edge]
      simp [edges, received, none]
    · exact ⟨(congrArg Prod.fst same).trans edge, Or.inl (owed.trans (by simp [received, empty]))⟩

private theorem synchronizedInput_storing (sync : synchronized t.state = true) (x : XMem)
    (seg : TcpSeg) (now : UInt16)
    (hearing : Hearing (synchronizedInput t x seg now).1) : Storing
    (synchronizedInput t x seg now).1 := by
  refine hearing.resolve_left fun passive => ?_
  rcases synchronizedInput_state sync x seg now with still | closed
  · rw [passive] at still
    cases still
  · rw [passive] at closed
    cases closed

/-- Reading does so too: what would leave the window behind is owed. -/
theorem afterRecv_owes (sock : SocketInv t now) (hearing : Hearing t) (n : UInt16)
    (held : n.toNat ≤ t.rcvCount.toNat) : Owes t (afterRecv t n) := by
  unfold afterRecv
  dsimp only
  split
  · split
    · exact ⟨rfl, Or.inl rfl⟩
    · rename_i near
      rw [not_or, UInt32.not_le] at near
      exact ⟨rfl, Or.inr ⟨fun _ => ⟨near.1, fun _ => near.2⟩, id⟩⟩
  · rename_i idle
    have none : n = 0 := by
      rcases hearing with passive | storing
      · obtain ⟨_, _, _, _, _, _, empty, _⟩ := sock.handshake (by simp [passive, handshaking])
        exact eq_zero_of_toNat (by simpa [empty] using held)
      · by_contra some
        exact idle ⟨some, storing⟩
    refine .same ?_ id
    simp [edges, none]

/-- The last promise is the edge the socket goes by, and unless it owes an
acknowledgement the window is near it. -/
structure Abreast (t : MnTcp) (told : List Promise) : Prop where
  last : ∀ p, told.getLast? = some p → p.edge = t.advEdge
  near : t.ackPending = true ∨ told ≠ [] ∧ Near t

theorem Abreast.same {told : List Promise} (abreast : Abreast t told) (owes : Owes t u) :
    Abreast u told where
  last := fun p held => (abreast.last p held).trans owes.1.symm
  near := by
    rcases owes.2 with owed | ⟨near, owed⟩
    · exact Or.inl owed
    · exact abreast.near.imp owed fun some => ⟨some.1, near some.2⟩

/-- A window just told is closed only if there is no room. -/
theorem near_told (sock : SocketInv t now) (told : t.advEdge = rightEdge t) : Near t := by
  have room := rcvFree_toNat sock
  have window := advWindow_toNat sock
  rw [Near, told, UInt32.sub_self]
  refine ⟨by decide, fun free shut => free (eq_zero_of_toNat ?_)⟩
  have none : (advWindow t).toUInt32 = 0 := by
    rw [rightEdge] at shut
    grind
  rw [← UInt32.toNat_inj, UInt16.toNat_toUInt32, UInt32.toNat_zero] at none
  omega

/-- Whatever was promised before, the last of some new promises of the right
edge is that edge. -/
theorem Abreast.told {told : List Promise} (sock : SocketInv (c.exec net op).1.t now)
    (loud : acksHanded net (c.exec net op).2 ≠ [])
    (edge : (c.exec net op).1.t.advEdge = rightEdge (c.exec net op).1.t) (next : Nat) :
    Abreast (c.exec net op).1.t (told ++ promises next (acksHanded net (c.exec net op).2)) := by
  have new : promises next (acksHanded net (c.exec net op).2) ≠ [] := by simpa [promises] using loud
  refine ⟨fun p held => ?_, Or.inr ⟨List.append_ne_nil_of_right_ne_nil _ new, near_told sock edge⟩⟩
  rw [List.getLast?_append_of_ne_nil _ new] at held
  exact (promises_edge net op next p (List.mem_of_getLast? held)).1.trans edge.symm

theorem Speaks.abreast {told : List Promise} (abreast : Abreast c.t told)
    (sock : SocketInv (c.exec net op).1.t now)
    (spoke : Speaks c.t net (c.exec net op).1.t (c.exec net op).2)
    (still : kept (c.exec net op).1.t = kept c.t) (next : Nat) :
    Abreast (c.exec net op).1.t (told ++ promises next (acksHanded net (c.exec net op).2)) := by
  obtain ⟨frames, handed, ⟨silent, edge, owed⟩ | ⟨loud, edge⟩⟩ := spoke
  · rw [acks_handed handed, silent]
    have next : (c.exec net op).1.t.rcvNxt = c.t.rcvNxt := congrArg Kept.rcvNxt still
    have count : (c.exec net op).1.t.rcvCount = c.t.rcvCount := congrArg Kept.rcvCount still
    rw [promises, List.map_nil, List.append_nil]
    exact abreast.same (.same (by rw [edges, edges, edge, next, count]) owed)
  · exact Abreast.told sock (by rwa [acks_handed handed]) edge next

/-- A SYN|ACK that goes out promises the first window. -/
theorem passiveOpen_abreast (sock : SocketInv (c.exec net (.passiveOpen src seg)).1.t now)
    (sent : AllSent net (c.exec net (.passiveOpen src seg)).2) (told : List Promise) (next : Nat) :
    Abreast (c.exec net (.passiveOpen src seg)).1.t
      (told ++ promises next (acksHanded net (c.exec net (.passiveOpen src seg)).2)) := by
  have spoke :=
    sendSyn_speaks (Speaks.nothing (startPassive c.t net src seg c.now) net) c.x
      { syn := true, ack := true } rfl
  have loud : acksHanded net (sendSyn (startPassive c.t net src seg c.now) c.x net
      { syn := true, ack := true }).2 ≠ [] := sent_loud rfl sent
  obtain ⟨frames, handed, ⟨silent, _⟩ | ⟨_, edge⟩⟩ := spoke
  · exact absurd silent (acks_handed handed ▸ loud)
  · exact Abreast.told sock loud edge next

/-- What an operation other than a poll leaves of the window, in the states the
peer may send in. -/
theorem exec_owes (sock : SocketInv c.t c.now) (net : MnNet) (op : Op) (enabled : c.Enabled op)
    (steady : ¬ Opens c op) (quiet : ∀ tick, op ≠ .poll tick) (hearing : Hearing (c.exec net op).1.t) :
    (c.exec net op).2 = net ∧ (c.t.state = .synSent ∧ (c.exec net op).1.t.ackPending = true ∨
      Hearing c.t ∧ Owes c.t (c.exec net op).1.t) := by
  have effect := exec_effect c net op
  generalize c.exec net op = out at effect hearing
  cases effect with
  | connects _ _ _ free => exact absurd free steady
  | listens _ free => exact absurd free steady
  | answers => exact absurd trivial steady
  | idles | queues | asks | others => exact ⟨rfl, Or.inr ⟨hearing, .same rfl id⟩⟩
  | takes _ _ n held =>
    obtain ⟨owed, same⟩ := afterRecv_socket c.t n
    have before : Hearing c.t := by
      dsimp only at hearing
      rw [same] at hearing
      exact hearing
    exact ⟨rfl, Or.inr ⟨before, afterRecv_owes sock before n held⟩⟩
  | drops | aborts => simp [Hearing, Storing, aborted] at hearing
  | polls tick => exact absurd rfl (quiet tick)
  | arrives seg =>
    refine ⟨rfl, ?_⟩
    have arrival := segmentInput_arrival c.t c.x seg c.now
    dsimp only at hearing ⊢
    generalize segmentInput c.t c.x seg c.now = out at arrival hearing
    cases arrival with
    | ignored | synAgain => exact Or.inr ⟨hearing, .same rfl id⟩
    | reset | relistens => simp [Hearing, Storing] at hearing
    | connects state => exact Or.inl ⟨state, rfl⟩
    | accepts state =>
      have storing := synchronizedInput_storing rfl c.x seg c.now hearing
      exact Or.inr ⟨Or.inl state, (synchronizedInput_owes rfl c.x seg c.now storing).2.from_same rfl id⟩
    | proceeds past =>
      have sync := awake_past enabled past
      have storing := synchronizedInput_storing
        (t := { c.t with statRxSeg := c.t.statRxSeg + 1 }) sync c.x seg
        c.now hearing
      obtain ⟨before, owes⟩ :=
        synchronizedInput_owes (t := { c.t with statRxSeg := c.t.statRxSeg + 1 }) sync c.x
        seg c.now storing
      exact Or.inr ⟨Or.inr before, owes.from_same rfl id⟩

theorem Abreast.exec (abreast : Hearing w.conn.t → Abreast w.conn.t w.told)
    (run : Watched.Run w) (net : MnNet)
    (op : Op) (enabled : w.conn.Enabled op) (sent : AllSent net (w.conn.exec net op).2)
    (hearing : Hearing (w.exec net op).1.conn.t) : Abreast (w.exec net op).1.conn.t
    (w.exec net op).1.told := by
  have sock := (Watched.Run.conn run).socketInv
  have after := exec_keeps sock net op enabled
  obtain ⟨base, promised⟩ := Watched.Run.promised run
  unfold Watched.exec at hearing ⊢
  dsimp only at hearing ⊢
  generalize (if Opens w.conn op ∨ w.conn.t.state = .synSent then 0
    else w.next + ((w.conn.exec net op).1.t.rcvNxt - w.conn.t.rcvNxt).toNat) = next
  by_cases opens : Opens w.conn op
  · cases op with
    | passiveOpen src seg => exact passiveOpen_abreast after sent _ next
    | connect ip port tick =>
      rw [exec_connect, if_pos (show w.conn.t.state = .closed from opens)] at hearing
      obtain ⟨edge, stat, pending, same⟩ :=
        sendSyn_socket (startConnect w.conn.t net ip port tick) w.conn.x net { syn := true }
      have state : (sendSyn (startConnect w.conn.t net ip port tick) w.conn.x net
        { syn := true }).1.state =
          .synSent := by
        rw [same]
        rfl
      simp [Conn.fresh, state, Hearing, Storing] at hearing
    | listen port =>
      rw [exec_listen, if_pos (show w.conn.t.state = .closed ∧ port ≠ 0 from opens)] at hearing
      simp [Conn.fresh, Hearing, Storing] at hearing
    | send | sendX | recv | recvX | close | abort | segment | poll | others => exact absurd opens id
  rw [if_neg opens]
  by_cases polls : ∃ tick, op = .poll tick
  · obtain ⟨tick, rfl⟩ := polls
    have before : Hearing w.conn.t := pollOne_hearing sock w.conn.x net tick hearing
    have known : w.conn.t.state ≠ .synSent ∧ w.conn.t.state ≠ .timeWait := by
      rcases before with state | state | state | state <;> simp [state]
    exact Speaks.abreast (abreast before) after (pollOne_speaks known.1 known.2 w.conn.x net tick)
      (pollOne_kept w.conn.t w.conn.x net tick) next
  · obtain ⟨same, owes⟩ := exec_owes sock net op enabled opens (fun tick is => polls ⟨tick, is⟩) hearing
    have silent : acksHanded net (w.conn.exec net op).2 = [] := by
      rw [same]
      exact acks_handed (Handed.refl net)
    rw [silent, promises, List.map_nil, List.append_nil]
    rcases owes with ⟨opening, owed⟩ | ⟨before, owes⟩
    · rw [promised.unheard opening]
      exact ⟨by simp, Or.inl owed⟩
    · exact (abreast before).same owes

theorem SentRun.run (run : SentRun w) : Watched.Run w := by
  refine Reachable.invariant (motive := fun w : Watched => Watched.Run w) ?_ ?_ run
  · exact fun w begun => .start begun
  · rintro w _ _ run ⟨net, op, enabled, _, rfl⟩
    exact run.next ⟨net, op, enabled, rfl⟩

theorem SentRun.abreast (run : SentRun w) (hearing : Hearing w.conn.t) :
    Abreast w.conn.t w.told := by
  refine Reachable.invariant (motive := fun w : Watched => Hearing w.conn.t → Abreast w.conn.t w.told)
    ?_ ?_ run hearing
  · rintro w ⟨⟨⟨socks, n, base, member⟩, _⟩, _⟩ hearing
    obtain ⟨k, found⟩ := List.mem_iff_getElem?.mp member
    obtain ⟨_, _, _, closed, _⟩ := mnTcpInit_get? found
    simp [Hearing, Storing, closed] at hearing
  · rintro w _ run abreast ⟨net, op, enabled, sent, rfl⟩ hearing
    exact Abreast.exec abreast (SentRun.run run) net op enabled sent hearing

/-- As long as every `emit` succeeds, a connection that stores payload and owes
no acknowledgement has told its peer an edge less than `WINUPDATE_GROW` short of
the present one, and not a closed window while it has room. -/
theorem no_window_stall (run : SentRun w) (storing : Storing w.conn.t)
    (settled : w.conn.t.ackPending = false) :
    (∃ p, w.told.getLast? = some p ∧ p.edge = w.conn.t.advEdge) ∧
      w.conn.t.rcvNxt + (advWindow w.conn.t).toUInt32 - w.conn.t.advEdge < WINUPDATE_GROW ∧
      (rcvFree w.conn.t ≠ 0 → w.conn.t.advEdge ≠ w.conn.t.rcvNxt) := by
  have abreast := SentRun.abreast run (Or.inr storing)
  obtain ⟨some, near⟩ := abreast.near.resolve_left (by simp [settled])
  refine ⟨⟨_, List.getLast?_eq_getLast_of_ne_nil some, ?_⟩, near⟩
  exact abreast.last _ (List.getLast?_eq_getLast_of_ne_nil some)

instance (before after : MnNet) : Decidable (AllSent before after) := by
  unfold AllSent
  infer_instance

/-- As many bytes as the receive ring holds. -/
def ringful : TcpSeg :=
  fromPeer 53201 1001 4293918722 { ack := true } 1000 (List.replicate 4096 0) four_kilobytes

/-- That connection once its receive ring has been filled and its peer told so. -/
def closedWindow : Watched :=
  ((acknowledged.exec goodNet (.segment ringful)).1.exec goodNet (.poll 65521)).1

/-- And once the ring has been read and the peer told that. -/
def reopenedWindow : Watched := ((closedWindow.exec goodNet (.recv 4096)).1.exec goodNet (.poll 65522)).1

private theorem closedWindow_sent : SentRun closedWindow := by
  have begun : SentRun unwatched := .start ⟨freshConn_begun, rfl, rfl⟩
  have opened := begun.next ⟨goodNet, .connect neighbour 80 65520, trivial, by decide +kernel, rfl⟩
  have answered := opened.next
    ⟨goodNet, .segment synAck, ⟨by decide +kernel, by decide +kernel⟩, by decide +kernel, rfl⟩
  have told := answered.next ⟨goodNet, .poll 65521, trivial, by decide +kernel, rfl⟩
  have filled := told.next
    ⟨goodNet, .segment ringful, ⟨by decide +kernel, by decide +kernel⟩, by decide +kernel, rfl⟩
  exact filled.next ⟨goodNet, .poll 65521, trivial, by decide +kernel, rfl⟩

private theorem reopenedWindow_sent : SentRun reopenedWindow := by
  have read := closedWindow_sent.next ⟨goodNet, .recv 4096, trivial, by decide +kernel, rfl⟩
  exact read.next ⟨goodNet, .poll 65522, trivial, by decide +kernel, rfl⟩

theorem no_window_stall_reopenedWindow :
    (∃ p, reopenedWindow.told.getLast? = some p ∧ p.edge = reopenedWindow.conn.t.advEdge) ∧
      reopenedWindow.conn.t.rcvNxt +
        (advWindow reopenedWindow.conn.t).toUInt32 - reopenedWindow.conn.t.advEdge <
        WINUPDATE_GROW ∧ reopenedWindow.conn.t.advEdge ≠ reopenedWindow.conn.t.rcvNxt := by
  obtain ⟨told, near, reopened⟩ :=
    no_window_stall reopenedWindow_sent (Or.inl (by decide +kernel)) (by decide +kernel)
  exact ⟨told, near, reopened (by decide +kernel)⟩

end MegaNet.TcpWindowUpdates
