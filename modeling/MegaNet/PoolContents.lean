import Mathlib.Data.Set.Function
import MegaNet.ClientCalls
import MegaNet.TcpLiveFields

/-! What the stack does depends on the pool only where its rings and mailboxes
are: over pools that hold the same there, each of its acts leaves the same state
of the layer and its sockets, and pools that again hold the same there. -/
namespace MegaNet.PoolContents
open MegaNet.Core Words XmemRings CircularBuffer TcpEmission TcpSocketInvariant TcpOutcomes TcpConnection
  TcpSendLimits TcpSetRuns TcpIsolation TcpLiveFields UdpOutcomes UdpSockets

variable {P : Set Nat} {x y : XMem} {t : MnTcp} {seg off base size pos len : UInt16} {st st' : Stack}

/-! ## Copies -/

private theorem write_same (same : Set.EqOn x y P) (seg off : UInt16) (src : List UInt8) (len : UInt16) :
    Set.EqOn (mnXmemWrite x seg off src len) (mnXmemWrite y seg off src len) P := by
  intro a inside
  simp only [mnXmemWrite]
  split
  · rfl
  · exact same inside

private theorem ringWrite_same (same : Set.EqOn x y P) (seg base size pos : UInt16)
    (src : List UInt8) (len : UInt16) :
    Set.EqOn (ringWrite x seg base size pos src len) (ringWrite y seg base size pos src len) P := by
  unfold ringWrite
  dsimp only
  generalize (if size - pos > len then len else size - pos) = first
  have front := write_same same seg (base + pos) src first
  split
  · exact write_same front seg base _ _
  · exact front

private theorem copyIn_same (same : Set.EqOn x y P) (seg off : UInt16) (ext : PhysMem)
    (src : UInt32) (len : UInt16) :
    Set.EqOn (mnXmemCopyIn x seg off ext src len) (mnXmemCopyIn y seg off ext src len) P := by
  intro a inside
  simp only [mnXmemCopyIn]
  split
  · rfl
  · exact same inside

private theorem ringWriteX_same (same : Set.EqOn x y P) (seg base size pos : UInt16)
    (ext : PhysMem) (src : UInt32)
    (len : UInt16) :
    Set.EqOn (ringWriteX x seg base size pos ext src len)
      (ringWriteX y seg base size pos ext src len) P := by
  unfold ringWriteX
  dsimp only
  generalize (if size - pos > len then len else size - pos) = first
  have front := copyIn_same same seg (base + pos) ext src first
  split
  · exact copyIn_same front seg base ext _ _
  · exact front

/-- A straight copy reads the ring and nothing else. -/
theorem ringRead_same (straight : Straight base size pos len)
    (same : Set.EqOn x y (Set.Ico (xaddr seg base) (xaddr seg base + size.toNat))) :
    ringRead x seg base size pos len = ringRead y seg base size pos len := by
  have inside := straight.frontInside.1
  rw [ringRead_window straight.segment inside straight.restInside,
    ringRead_window straight.segment inside straight.restInside]
  apply List.map_congr_left
  intro i _
  exact same (Set.mem_Ico.mpr (cell_inside (by omega) i))

/-! ## What a socket sends -/

private theorem emit_same (bytes :
      ringRead x t.xseg t.sndbuf MN_TCP_SNDBUF ((t.sndHead + off) % MN_TCP_SNDBUF) len =
        ringRead y t.xseg t.sndbuf MN_TCP_SNDBUF ((t.sndHead + off) % MN_TCP_SNDBUF) len)
    (net : MnNet) (flags : SegFlags) (seq : UInt32) (mss : Bool) :
    emit t x net flags seq off len mss = emit t y net flags seq off len mss := by
  have built : buildSegment t x flags seq off len mss = buildSegment t y flags seq off len mss := by
    simp only [buildSegment, bytes]
  unfold emit
  rw [built]

/-- A segment without payload does not depend on the pool. -/
theorem emit_bare (t : MnTcp) (x y : XMem) (net : MnNet) (flags : SegFlags) (seq : UInt32)
    (off : UInt16) (mss : Bool) :
    emit t x net flags seq off 0 mss = emit t y net flags seq off 0 mss :=
  emit_same (by rw [ringRead_nothing, ringRead_nothing]) net flags seq mss

private theorem sendSyn_same (t : MnTcp) (x y : XMem) (net : MnNet) (flags : SegFlags) :
    sendSyn t x net flags = sendSyn t y net flags := by
  unfold sendSyn
  rw [emit_bare t x y]

private theorem pollHandshake_same (t : MnTcp) (x y : XMem) (net : MnNet) (now : UInt16) :
    pollHandshake t x net now = pollHandshake t y net now := by
  unfold pollHandshake resendSyn
  simp only [sendSyn_same _ x y]

private theorem pollTimeWait_same (t : MnTcp) (x y : XMem) (net : MnNet) (now : UInt16) :
    pollTimeWait t x net now = pollTimeWait t y net now := by
  unfold pollTimeWait
  rw [emit_bare _ x y]

private theorem abort_same (t : MnTcp) (x y : XMem) (net : MnNet) : mnTcpAbort t x net =
    mnTcpAbort t y net := by
  unfold mnTcpAbort
  rw [emit_bare t x y]

/-- Rings that hold the same feed the same bytes. -/
theorem feeds_of (inv : SocketInv t now) (placed : Placed t)
    (same : Set.EqOn x y (sndRing t)) : Feeds t x y := by
  intro off len within
  have queue := inv.sndLen
  apply ringRead_same (sndRing_straight inv placed (by omega) (by omega)).2
  intro a inside
  exact same inside

private theorem retransmit_same (inv : SocketInv t since) (feeds : Feeds t x y)
    (net : MnNet) (now : UInt16) :
    retransmit t x net now = retransmit t y net now := by
  have flight := inv.inflight
  have short : (0 : UInt16).toNat + (oldest t).toNat ≤ t.sndLen.toNat := by
    rw [oldest, toNat_clamp, UInt16.toNat_zero]
    omega
  have sent := emit_same (t := resent t now) (feeds 0 (oldest t) short) net dataFlags t.sndUna false
  have bare := emit_bare (resent t now) x y net finFlags (t.sndNxt - 1) 0 false
  unfold retransmit
  dsimp only
  split
  · rfl
  split
  · exact congrArg Prod.snd sent
  · exact congrArg Prod.snd bare

private theorem sendLoop_same (now limit : UInt16) (fuel : Nat) (feeds : Feeds t x y) (net : MnNet) :
    sendLoop x now limit fuel t net = sendLoop y now limit fuel t net := by
  induction fuel generalizing t net with
  | zero => rfl
  | succ fuel ih =>
    unfold sendLoop
    dsimp only
    by_cases more : t.sndLen > t.inflight ∧ t.inflight < limit
    · have size := nextLength_spec more.1 more.2
      have room := UInt16.lt_iff_toNat_lt.mp more.1
      rw [if_pos more, if_pos more,
        emit_same (feeds t.inflight (nextLength t limit) (by omega)) net dataFlags]
      split
      · rfl
      · apply ih
        obtain ⟨edge, stat, emitted⟩ :=
          emit_socket t y net dataFlags t.sndNxt t.inflight (nextLength t limit) false
        rw [emitted]
        exact feeds
    · rw [if_neg more, if_neg more]

/-- A turn in a poll. -/
theorem pollOne_same (inv : SocketInv t since) (feeds : Feeds t x y) (net : MnNet) (now : UInt16) :
    pollOne t x net now = pollOne t y net now := by
  unfold pollOne
  split
  · rfl
  · rfl
  · exact pollHandshake_same t x y net now
  · exact pollHandshake_same t x y net now
  · exact pollTimeWait_same t x y net now
  split
  · exact retransmit_same inv feeds net now
  split
  · unfold sendQueued
    rw [sendLoop_same now (sendLimit t) _ feeds net]
  split
  · unfold sendFin
    rw [emit_bare t x y]
  split
  · unfold sendAck
    rw [emit_bare t x y]
  · rfl

/-! ## What a segment does -/

/-- The same outcome, with pools that hold the same in `P`. -/
def Level (P : Set Nat) (a b : MnTcp × XMem) : Prop := a.1 = b.1 ∧ Set.EqOn a.2 b.2 P

private theorem takeData_level (same : Set.EqOn x y P) (t : MnTcp) (seg : TcpSeg) :
    (takeData t x seg).1 = (takeData t y seg).1 ∧ (takeData t x seg).2.2 = (takeData t y seg).2.2 ∧
      Set.EqOn (takeData t x seg).2.1 (takeData t y seg).2.1 P := by
  unfold takeData ringPut
  dsimp only
  split
  · exact ⟨rfl, rfl, same⟩
  split
  · generalize (if seg.dlen > rcvFree t then rcvFree t else seg.dlen) = n
    refine ⟨rfl, rfl, ?_⟩
    dsimp only
    split
    · exact same
    · exact ringWrite_same same _ _ _ _ _ _
  · exact ⟨rfl, rfl, same⟩

private theorem synchronizedInput_level (same : Set.EqOn x y P) (t : MnTcp)
    (seg : TcpSeg) (now : UInt16) :
    Level P (synchronizedInput t x seg now) (synchronizedInput t y seg now) := by
  unfold synchronizedInput
  split
  · exact ⟨rfl, same⟩
  split
  · exact ⟨rfl, same⟩
  · obtain ⟨socket, fin, pools⟩ :=
      takeData_level same { handleAck t seg.ack now with sndWnd := seg.wnd } seg
    unfold inOrder
    dsimp only
    rw [socket, fin]
    exact ⟨rfl, pools⟩

private theorem segmentInput_level (same : Set.EqOn x y P) (t : MnTcp) (seg : TcpSeg) (now : UInt16) :
    Level P (segmentInput t x seg now) (segmentInput t y seg now) := by
  unfold segmentInput
  dsimp only
  split
  · exact ⟨rfl, same⟩
  split
  · exact ⟨rfl, same⟩
  · unfold synRcvdInput
    split
    · exact ⟨rfl, same⟩
    split
    · exact ⟨rfl, same⟩
    · exact synchronizedInput_level same _ seg now
  · exact synchronizedInput_level same _ seg now

/-! ## A set of sockets -/

/-- The dispatcher's loop finds the same socket, whatever its body does besides. -/
theorem onFirst_level {R : β → γ → Prop} {p : MnTcp → Bool} {f : MnTcp → MnTcp × β}
    {g : MnTcp → MnTcp × γ}
    (each : ∀ t, (f t).1 = (g t).1 ∧ R (f t).2 (g t).2) (sock : List MnTcp) :
    (onFirst p f sock = none ∧ onFirst p g sock = none) ∨
      ∃ rest b c, onFirst p f sock = some (rest, b) ∧ onFirst p g sock = some (rest, c) ∧ R b c := by
  induction sock with
  | nil => exact Or.inl ⟨rfl, rfl⟩
  | cons t rest ih =>
    obtain ⟨socket, level⟩ := each t
    simp only [onFirst]
    by_cases here : p t = true
    · rw [if_pos here, if_pos here, socket]
      exact Or.inr ⟨_, _, _, rfl, rfl, level⟩
    · rw [if_neg here, if_neg here]
      obtain ⟨left, right⟩ | ⟨rest', b, c, left, right, level⟩ := ih
      · exact Or.inl ⟨by rw [left]; rfl, by rw [right]; rfl⟩
      · rw [left, right]
        exact Or.inr ⟨_, _, _, rfl, rfl, level⟩

/-- What is left of a set, its pool and the layer, over either pool. -/
structure LevelWorld (P : Set Nat) (a b : World × MnNet) : Prop where
  set : a.1.set = b.1.set
  net : a.2 = b.2
  pool : Set.EqOn a.1.x b.1.x P

private theorem onSocket_level (set : MnTcpSet) (same : Set.EqOn x y P) (i : Nat) (net : MnNet)
    {f g : MnTcp → MnTcp × XMem × MnNet}
    (each : ∀ t, (f t).1 = (g t).1 ∧ (f t).2.2 = (g t).2.2 ∧ Set.EqOn (f t).2.1 (g t).2.1 P) :
    LevelWorld P ((⟨set, x⟩ : World).onSocket i net f) ((⟨set, y⟩ : World).onSocket i net g) := by
  unfold World.onSocket
  dsimp only
  cases set.sock[i]? with
  | none => exact ⟨rfl, rfl, same⟩
  | some t =>
    obtain ⟨socket, layer, pools⟩ := each t
    exact ⟨by dsimp only; rw [socket], layer, pools⟩

private theorem input_level (set : MnTcpSet) (same : Set.EqOn x y P) (net : MnNet)
    (src : Ip4) (seg : TcpSeg) :
    LevelWorld P ((⟨set, x⟩ : World).exec net (.input src seg))
      ((⟨set, y⟩ : World).exec net (.input src seg)) := by
  simp only [World.exec, mnTcpInput]
  have each : ∀ t, Level P (segmentInput t x seg set.now) (segmentInput t y seg set.now) := fun t =>
    segmentInput_level same t seg set.now
  obtain ⟨left, right⟩ | ⟨rest, b, c, left, right, level⟩ :=
    onFirst_level (R := fun x y => Set.EqOn x y P) (p := owns src seg) each set.sock
  · rw [left, right]
    have opens : (fun t => passiveOpen t x net src seg set.now) =
        fun t => passiveOpen t y net src seg set.now :=
      funext fun t => sendSyn_same _ x y net _
    rw [opens]
    generalize (if isPureSyn seg = true then
      onFirst (listensFor seg) (fun t => passiveOpen t y net src seg set.now) set.sock else none) =
        opened
    cases opened with
    | some out => exact ⟨rfl, rfl, same⟩
    | none =>
      dsimp only
      split <;> exact ⟨rfl, rfl, same⟩
  · rw [left, right]
    exact ⟨rfl, rfl, level⟩

private theorem pollAll_same {set : MnTcpSet} (lived : Lived ⟨set, x⟩)
    (inside : ∀ t ∈ set.sock, sndRing t ⊆ P)
    (same : Set.EqOn x y P) (net : MnNet) (now : UInt16) : pollAll x now set.sock net =
      pollAll y now set.sock net := by
  have turns : ∀ t ∈ set.sock, ∀ net, pollOne t x net now = pollOne t y net now := by
    intro t member net
    obtain ⟨i, found⟩ := List.mem_iff_getElem?.mp member
    obtain ⟨inv, placed⟩ := Lived.sound lived found
    exact pollOne_same inv (feeds_of inv placed (same.mono (inside t member))) net now
  generalize set.sock = sock at turns
  induction sock generalizing net with
  | nil => rfl
  | cons t rest ih =>
    simp only [pollAll]
    rw [turns t List.mem_cons_self net, ih _ fun u member => turns u (List.mem_cons_of_mem t member)]

/-- Any event of a set that has lived, its rings in `P`. -/
theorem exec_level {set : MnTcpSet} (lived : Lived ⟨set, x⟩) (inside : ∀ t ∈ set.sock, sndRing t ⊆ P)
    (same : Set.EqOn x y P) (net : MnNet) (event : Event) :
    LevelWorld P ((⟨set, x⟩ : World).exec net event) ((⟨set, y⟩ : World).exec net event) := by
  cases event with
  | connect i ip port now =>
    refine onSocket_level set same i net fun t => ?_
    dsimp only
    unfold mnTcpConnect
    rw [sendSyn_same _ x y]
    exact ⟨rfl, rfl, same⟩
  | listen i port => exact onSocket_level set same i net fun t => ⟨rfl, rfl, same⟩
  | send i data len fits =>
    refine onSocket_level set same i net fun t => ?_
    dsimp only
    unfold mnTcpSend
    dsimp only
    split
    · exact ⟨rfl, rfl, same⟩
    · exact ⟨rfl, rfl, ringWrite_same same _ _ _ _ _ _⟩
  | sendX i ext src len =>
    refine onSocket_level set same i net fun t => ?_
    dsimp only
    unfold mnTcpSendX
    dsimp only
    split
    · exact ⟨rfl, rfl, same⟩
    · exact ⟨rfl, rfl, ringWriteX_same same _ _ _ _ _ _ _⟩
  | recv i cap => exact onSocket_level set same i net fun t => ⟨rfl, rfl, same⟩
  | recvX i ext dst cap => exact onSocket_level set same i net fun t => ⟨rfl, rfl, same⟩
  | close i => exact onSocket_level set same i net fun t => ⟨rfl, rfl, same⟩
  | abort i =>
    refine onSocket_level set same i net fun t => ?_
    dsimp only
    rw [abort_same t x y]
    exact ⟨rfl, rfl, same⟩
  | input src seg => exact input_level set same net src seg
  | poll now =>
    simp only [World.exec, mnTcpPoll, pollAll_same lived inside same]
    exact ⟨rfl, rfl, same⟩

/-! ## The stack -/

/-- Two stacks that differ at most in what their pools hold outside `P`. -/
structure LevelStack (P : Set Nat) (st st' : Stack) : Prop where
  net : st.net = st'.net
  tcp : st.tcp = st'.tcp
  pool : Set.EqOn st.x st'.x P

/-- All rings of a stack lie in `P`. -/
def RingsIn (P : Set Nat) (st : Stack) : Prop := ∀ set, st.tcp = some set → ∀ t ∈ set.sock, sndRing t ⊆ P

private theorem tcpInput_level (level : LevelStack P st st') (ip : List UInt8) :
    LevelStack P (st.tcpInput ip) (st'.tcpInput ip) := by
  obtain ⟨net, tcp, x⟩ := st
  obtain ⟨net', tcp', y⟩ := st'
  obtain ⟨rfl, rfl, pool⟩ := level
  unfold Stack.tcpInput
  cases tcp with
  | none => exact ⟨rfl, rfl, pool⟩
  | some set =>
    dsimp only
    split
    · obtain ⟨same, layer, pools⟩ := input_level set pool net.toMnNet (mnIpv4Src ip)
        (tcpSegment (mnIpv4Payload ip) (mnIpv4PayloadLen ip))
      simp only [World.exec] at same layer pools
      exact ⟨by rw [layer], by rw [same], pools⟩
    · exact ⟨rfl, rfl, pool⟩

private theorem deliverUdp_level (net : MnNetFull) (same : Set.EqOn x y P) (ip : List UInt8) :
    (deliverUdp net x ip).1 = (deliverUdp net y ip).1 ∧
      Set.EqOn (deliverUdp net x ip).2 (deliverUdp net y ip).2 P := by
  unfold deliverUdp
  dsimp only
  split
  · exact ⟨rfl, same⟩
  split
  · exact ⟨rfl, same⟩
  split
  · exact ⟨rfl, same⟩
  · exact ⟨rfl, write_same same _ _ _ _⟩

private theorem ipInput_level (level : LevelStack P st st') (frame : List UInt8) (len : UInt16) :
    LevelStack P (st.ipInput frame len) (st'.ipInput frame len) := by
  have tcp := tcpInput_level level (frame.drop 14)
  obtain ⟨net, tcp', x⟩ := st
  obtain ⟨net', tcp'', y⟩ := st'
  obtain ⟨rfl, rfl, pool⟩ := level
  obtain ⟨layer, pools⟩ := deliverUdp_level net pool (frame.drop 14)
  unfold Stack.ipInput
  dsimp only at layer pools ⊢
  split_ifs
  · exact ⟨rfl, rfl, pool⟩
  · exact ⟨rfl, rfl, pool⟩
  · exact ⟨rfl, rfl, pool⟩
  · exact ⟨layer, rfl, pools⟩
  · exact tcp
  · exact ⟨rfl, rfl, pool⟩

private theorem poll_level (level : LevelStack P st st') (frame : Option RxFrame) :
    LevelStack P (mnNetPoll st frame) (mnNetPoll st' frame) := by
  cases frame with
  | none => exact level
  | some f =>
    have counted_ : LevelStack P { st with net := counted st.net } { st' with net := counted st'.net } :=
      ⟨congrArg counted level.net, level.tcp, level.pool⟩
    have packet := ipInput_level counted_ f.bytes f.len
    obtain ⟨net, tcp, x⟩ := st
    obtain ⟨net', tcp', y⟩ := st'
    obtain ⟨rfl, rfl, pool⟩ := level
    unfold mnNetPoll
    dsimp only
    split_ifs
    · exact ⟨rfl, rfl, pool⟩
    · exact ⟨rfl, rfl, pool⟩
    · exact packet
    · exact ⟨rfl, rfl, pool⟩

/-- Whatever the pools hold outside of `P`, the stack does the same. -/
theorem act_level (order : Orderly st) (inside : RingsIn P st)
    (level : LevelStack P st st') (act : Act) :
    LevelStack P (exec st act) (exec st' act) := by
  cases act with
  | poll frame => exact poll_level level frame
  | tcp event =>
    obtain ⟨net, tcp, x⟩ := st
    obtain ⟨net', tcp', y⟩ := st'
    obtain ⟨rfl, rfl, pool⟩ := level
    unfold exec tcpAct
    cases tcp with
    | none => exact ⟨rfl, rfl, pool⟩
    | some set =>
      obtain ⟨same, layer, pools⟩ :=
        exec_level (order.tcp set rfl).1 (inside set rfl) pool net.toMnNet event
      dsimp only at same layer pools ⊢
      exact ⟨by rw [layer], by rw [same], pools⟩
  | receives s cap =>
    obtain ⟨net, tcp, x⟩ := st
    obtain ⟨net', tcp', y⟩ := st'
    obtain ⟨rfl, rfl, pool⟩ := level
    exact ⟨ClientCalls.recv_pool net x y s cap, rfl, pool⟩
  | opens | closes | sends | configures =>
    obtain ⟨net, tcp, x⟩ := st
    obtain ⟨net', tcp', y⟩ := st'
    obtain ⟨rfl, rfl, pool⟩ := level
    exact ⟨rfl, rfl, pool⟩

end MegaNet.PoolContents
