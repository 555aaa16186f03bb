import MegaNet.TcpSetRuns

/-! One socket's turn in a poll: the net it finds, what it puts on the link
when the link is in order, and where the turn stands in the whole poll. -/
namespace MegaNet.TcpTurns
open MegaNet.Core TcpEmission TcpSocketInvariant TcpOutcomes TcpConnection TcpSetRuns

/-- The net socket `i` finds at its turn: the one its predecessors leave. -/
def turnNet (w : World) (net : MnNet) (i : Nat) (now : UInt16) : MnNet :=
  (pollAll w.x now (w.set.sock.take i) net).2

/-- Socket `i`'s turn in a poll. -/
def turn (w : World) (net : MnNet) (i : Nat) (now : UInt16) (t : MnTcp) : MnTcp × MnNet :=
  pollOne t w.x (turnNet w net i now) now

/-- The segments socket `i` hands to the link at its turn. -/
def turnSegments (w : World) (net : MnNet) (i : Nat) (now : UInt16) (t : MnTcp) : List TcpSeg :=
  segmentsHanded (turnNet w net i now) (turn w net i now t).2

/-! ## Emitting extends the link's record and leaves the routes -/

/-- One state of a net follows another by transmitting only. -/
structure Transmits (before after : MnNet) : Prop where
  routes : SameRoutes before after
  record : ∃ frames, Handed before after frames

theorem Transmits.refl (net : MnNet) : Transmits net net := ⟨SameRoutes.refl net, [], Handed.refl net⟩

theorem Transmits.trans (first : Transmits before middle) (second : Transmits middle after) :
    Transmits before after := by
  obtain ⟨front, handed⟩ := first.record
  obtain ⟨back, handed'⟩ := second.record
  exact ⟨first.routes.trans second.routes, _, handed.trans handed'⟩

/-- What is handed down over two stretches is handed down over the first, then
over the second. -/
theorem Transmits.segments (first : Transmits before middle) (second : Transmits middle after) :
    segmentsHanded before after = segmentsHanded before middle ++ segmentsHanded middle after := by
  obtain ⟨front, handed⟩ := first.record
  obtain ⟨back, handed'⟩ := second.record
  rw [segmentsHanded, segmentsHanded, segmentsHanded, handed_since handed, handed_since handed',
    handed_since (handed.trans handed'), List.filterMap_append]

private theorem emit_transmits (t : MnTcp) (x : XMem) (net : MnNet) (flags : SegFlags) (seq : UInt32)
    (off len : UInt16) (mss : Bool) : Transmits net (emit t x net flags seq off len mss).2.2 := by
  have emission := emit_emission t x net flags seq off len mss
  generalize emit t x net flags seq off len mss = out at emission
  cases emission with
  | unresolved _ _ _ same handed => exact ⟨same, _, handed⟩
  | sent _ _ _ same handed => exact ⟨same, _, handed⟩

private theorem send_transmits (net : MnNet) (frame : Frame) : Transmits net (net.send frame).2 :=
  ⟨(send_spec net frame).2.1, _, (send_spec net frame).1⟩

private theorem sendRst_transmits (net : MnNet) (src : Ip4) (seg : TcpSeg) : Transmits net
    (sendRst net src seg) := by
  unfold sendRst
  dsimp only
  obtain ⟨_, mac, begun⟩ | ⟨_, begun⟩ := tx_begin_spec net src <;> rw [begun]
  · obtain ⟨handed, same, _⟩ := send_spec { net with ipId := net.ipId + 1 }
      (.tcp mac net.nif.mac net.ip src net.ipId (resetFor seg))
    exact ⟨⟨same.mac, same.accepts, same.ip, same.mask, same.gw, same.arp⟩, _, handed⟩
  · exact send_transmits ..

/-! ## From one emission to all of them -/

section
variable {R : MnNet → MnNet → Prop} {x : XMem}

/-- A relation between states of a net that goes on from one stretch to the next. -/
structure Chains (R : MnNet → MnNet → Prop) : Prop where
  refl : ∀ net, R net net
  trans : ∀ {before middle after}, R before middle → R middle after → R before after

private theorem sendLoop_chains (chains : Chains R)
    (emits : ∀ u net flags seq off len mss, R net (emit u x net flags seq off len mss).2.2)
    (now limit : UInt16)
    (fuel : Nat) (t : MnTcp) (net : MnNet) : R net (sendLoop x now limit fuel t net).2.2 := by
  apply sendLoop_rule (motive := fun _ after => R net after)
  · intro u after before _ _
    exact chains.trans before (emits ..)
  · exact chains.refl net

/-- What holds across each emission of a socket holds across its poll. -/
theorem pollOne_chains (chains : Chains R)
    (emits : ∀ u net flags seq off len mss, R net (emit u x net flags seq off len mss).2.2)
    (t : MnTcp) (net : MnNet)
    (now : UInt16) : R net (pollOne t x net now).2 := by
  apply pollOne_rule (motive := fun out => R net out.2)
  · exact fun _ => chains.refl net
  · intro _
    have shake := pollHandshake_shake t x net now
    generalize pollHandshake t x net now = out at shake
    cases shake with
    | pending | again =>
      rw [resendSyn, sendSyn_net]
      exact emits ..
    | waits | relistens | times_out => exact chains.refl net
  · intro _
    rw [pollTimeWait_net]
    split
    · exact emits ..
    · exact chains.refl net
  · intro _ _
    have again := retransmit_retransmission t x net now
    generalize retransmit t x net now = out at again
    cases again with
    | times_out => exact chains.refl net
    | data | fin => exact emits ..
  · exact fun _ _ _ _ => sendLoop_chains chains emits now (sendLimit t) t.sndLen.toNat t net
  · intro _ _ _ _ _ _
    rw [sendFin_net]
    exact emits ..
  · intro _ _ _
    rw [sendAck_net]
    exact emits ..

private theorem pollAll_chains (chains : Chains R) {sock : List MnTcp} {now : UInt16}
    (polls : ∀ t ∈ sock, ∀ net, R net (pollOne t x net now).2) (net : MnNet) : R net
    (pollAll x now sock net).2 := by
  induction sock generalizing net with
  | nil => exact chains.refl net
  | cons t rest ih =>
    exact chains.trans (polls t List.mem_cons_self net)
      (ih (fun u member => polls u (List.mem_cons_of_mem _ member)) _)

theorem input_chains (chains : Chains R) (set : MnTcpSet) (net : MnNet) (src : Ip4) (seg : TcpSeg)
    (opens : ∀ t flags, R net (sendSyn t x net flags).2) (resets : R net (sendRst net src seg)) :
    R net (mnTcpInput set x net src seg).2.2 := by
  have nobody : ∀ sock : MnTcpSet, R net
      (if seg.flags.rst then (set, x, net) else (sock, x, sendRst net src seg)).2.2 := by
    intro sock
    split
    · exact chains.refl net
    · exact resets
  unfold mnTcpInput
  obtain ⟨unowned, _⟩ | ⟨i, t, _, _, _, same⟩ :=
    onFirst_spec (owns src seg) (fun t => segmentInput t x seg set.now) set.sock
  · rw [unowned]
    dsimp only
    by_cases syn : isPureSyn seg = true
    · rw [if_pos syn]
      obtain ⟨unheard, _⟩ | ⟨i, t, _, _, _, same⟩ := onFirst_spec (listensFor seg)
        (fun t => passiveOpen t x net src seg set.now) set.sock
      · rw [unheard]
        exact nobody _
      · rw [same]
        exact opens _ _
    · rw [if_neg syn]
      exact nobody _
  · rw [same]
    exact chains.refl net

/-- What holds across each poll of a socket, each opening segment, the RST of an
abort and the reset of a stray segment holds across every event. -/
theorem exec_chains (chains : Chains R) (w : World) (net : MnNet) (event : Event)
    (polls : ∀ t ∈ w.set.sock, ∀ net now, R net (pollOne t w.x net now).2)
    (opens : ∀ t flags, R net (sendSyn t w.x net flags).2)
    (aborts : ∀ t, R net (emit t w.x net { rst := true, ack := true } t.sndNxt 0 0 false).2.2)
    (resets : ∀ src seg, R net (sendRst net src seg)) : R net (w.exec net event).2 := by
  have onSocket : ∀ i (f : MnTcp → MnTcp × XMem × MnNet), (∀ t, R net (f t).2.2) →
      R net (w.onSocket i net f).2 := by
    intro i f each
    unfold World.onSocket
    cases w.set.sock[i]? with
    | none => exact chains.refl net
    | some t => exact each t
  cases event with
  | connect i ip port now =>
    refine onSocket i _ fun t => ?_
    dsimp only
    unfold mnTcpConnect
    split
    · exact chains.refl net
    · exact opens _ _
  | abort i =>
    refine onSocket i _ fun t => ?_
    dsimp only
    unfold mnTcpAbort
    by_cases open_ : t.state ≠ .closed ∧ t.state ≠ .timeWait ∧ t.state ≠ .listen
    · rw [if_pos open_]
      exact aborts t
    · rw [if_neg open_]
      exact chains.refl net
  | listen i | send i | sendX i | recv i | recvX i | close i =>
    exact onSocket i _ fun t => chains.refl net
  | input src seg => exact input_chains chains w.set net src seg opens (resets src seg)
  | poll now => exact pollAll_chains chains (fun t member net => polls t member net now) net

end

private theorem transmits_chains : Chains Transmits := ⟨Transmits.refl, Transmits.trans⟩

private theorem sendLoop_transmits (x : XMem) (now limit : UInt16) (fuel : Nat)
    (t : MnTcp) (net : MnNet) :
    Transmits net (sendLoop x now limit fuel t net).2.2 :=
  sendLoop_chains transmits_chains (fun u => emit_transmits u x) now limit fuel t net

private theorem pollOne_transmits (t : MnTcp) (x : XMem) (net : MnNet) (now : UInt16) :
    Transmits net (pollOne t x net now).2 :=
      pollOne_chains transmits_chains (fun u => emit_transmits u x) t net now

private theorem pollAll_transmits (x : XMem) (now : UInt16) (sock : List MnTcp) (net : MnNet) :
    Transmits net (pollAll x now sock net).2 :=
  pollAll_chains transmits_chains (fun t _ net => pollOne_transmits t x net now) net

private theorem sendSyn_transmits (t : MnTcp) (x : XMem) (net : MnNet) (flags : SegFlags) :
    Transmits net (sendSyn t x net flags).2 := by
  rw [sendSyn_net]
  exact emit_transmits ..

theorem input_transmits (set : MnTcpSet) (x : XMem) (net : MnNet) (src : Ip4) (seg : TcpSeg) :
    Transmits net (mnTcpInput set x net src seg).2.2 :=
  input_chains transmits_chains set net src seg (fun t => sendSyn_transmits t x net)
    (sendRst_transmits net src seg)

theorem pollAll_append (x : XMem) (now : UInt16) (front back : List MnTcp) (net : MnNet) :
    (pollAll x now (front ++ back) net).2 = (pollAll x now back (pollAll x now front net).2).2 := by
  induction front generalizing net with
  | nil => rfl
  | cons t rest ih => exact ih _

variable {w : World} {t : MnTcp} {i : Nat}

/-- A turn is part of its poll: it leaves the socket the poll leaves, and what
it hands to the link is a stretch of what the poll does. -/
theorem poll_turn (found : w.set.sock[i]? = some t) (net : MnNet) (now : UInt16) :
    (w.exec net (.poll now)).1.set.sock[i]? = some (turn w net i now t).1 ∧
      ∃ front back, segmentsHanded net (w.exec net (.poll now)).2 =
        front ++ turnSegments w net i now t ++ back := by
  refine ⟨by simp [World.exec, mnTcpPoll, pollAll_get?, found, turn, turnNet], ?_⟩
  obtain ⟨inside, rfl⟩ := List.getElem?_eq_some_iff.mp found
  have parts : w.set.sock = w.set.sock.take i ++ w.set.sock[i] :: w.set.sock.drop (i + 1) := by
    rw [← List.drop_eq_getElem_cons inside, List.take_append_drop]
  have whole : (w.exec net (.poll now)).2 = (pollAll w.x now (w.set.sock.drop (i + 1))
      (turn w net i now w.set.sock[i]).2).2 := by
    show (pollAll w.x now w.set.sock net).2 = _
    conv_lhs => rw [parts, pollAll_append]
    rfl
  have before : Transmits net (turnNet w net i now) := pollAll_transmits ..
  have during : Transmits (turnNet w net i now) (turn w net i now w.set.sock[i]).2 :=
    pollOne_transmits ..
  rw [whole, (before.trans during).segments (pollAll_transmits ..), before.segments during]
  exact ⟨_, _, rfl⟩

/-- The routes a poll starts with hold at every turn. -/
theorem turn_routes (w : World) (net : MnNet) (i : Nat) (now : UInt16) :
    SameRoutes net (turnNet w net i now) :=
  (pollAll_transmits ..).routes

/-! ## With the next hop known and the link accepting -/

theorem emit_handed (known : net.Resolves t.remoteIp) (accepting : net.Accepts) (x : XMem)
    (flags : SegFlags) (seq : UInt32) (off len : UInt16) (mss : Bool) :
    (emit t x net flags seq off len mss).1 = .ok ∧
      segmentsHanded net (emit t x net flags seq off len mss).2.2 =
        [buildSegment t x flags seq off len mss] := by
  obtain ⟨mac, after, handed, _, same⟩ := emit_delivers known accepting
  rw [same]
  exact ⟨rfl, by rw [segmentsHanded, handed_since handed]; rfl⟩

/-- The send loop's first segment goes out whenever its guard lets it. -/
theorem sendQueued_first (known : net.Resolves t.remoteIp) (accepting : net.Accepts) (x : XMem)
    (now : UInt16) (more : t.inflight < t.sndLen) (open_ : t.inflight < sendLimit t) :
    buildSegment t x dataFlags t.sndNxt t.inflight (nextLength t (sendLimit t)) false ∈
      segmentsHanded net (sendQueued t x net now).2 := by
  obtain ⟨fuel, turns⟩ : ∃ fuel, t.sndLen.toNat = fuel + 1 := by
    rw [UInt16.lt_iff_toNat_lt] at more
    exact ⟨t.sndLen.toNat - 1, by omega⟩
  obtain ⟨gone, handed⟩ := emit_handed known accepting x dataFlags t.sndNxt t.inflight
    (nextLength t (sendLimit t)) false
  unfold sendQueued
  dsimp only
  rw [turns, sendLoop, if_pos ⟨more, open_⟩]
  dsimp only
  rw [if_neg (by simp [gone]), (emit_transmits ..).segments (sendLoop_transmits ..), handed]
  exact List.mem_append_left _ (List.mem_singleton.mpr rfl)

/-- A send loop whose window is full sends nothing. -/
theorem sendQueued_shut (x : XMem) (net : MnNet) (now : UInt16) (shut : ¬ t.inflight < sendLimit t) :
    sendQueued t x net now = ({ t with txPending := t.sndLen > t.inflight }, net) := by
  have stays : sendLoop x now (sendLimit t) t.sndLen.toNat t net = (.ok, t, net) := by
    cases t.sndLen.toNat with
    | zero => rfl
    | succ fuel => rw [sendLoop, if_neg fun both => shut both.2]
  simp [sendQueued, stays]

end MegaNet.TcpTurns
