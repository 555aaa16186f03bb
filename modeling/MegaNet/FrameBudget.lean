import MegaNet.ApiRuns

/-! How much a call transmits. The driver waits for its transmitter before each
frame, and each of those waits ends; here is how many there can be in one call,
whatever state the stack is in. -/
namespace MegaNet.FrameBudget
open MegaNet.Core AddressSpace Words TcpEmission TcpSocketInvariant TcpOutcomes TcpTurns TcpSetRuns
  UdpOutcomes UdpSockets ClientCalls ApiMoves ApiRuns

/-- The datagram a frame carries, if it carries one, and who sends it. -/
def datagramOf : Frame → Option (Ip4 × Datagram)
  | .udp _ _ src dst _ sport dport payload => some (src, ⟨dst, sport, dport, payload⟩)
  | .arpRequest .. | .arpReply .. | .tcp .. | .echoReply .. => none

variable {before middle after : MnNet} {n m k : Nat} {s s' : Api} {r out : Regs}
  {i : Inputs} {entry : Entry}
  {good : Ip4 × Datagram → Prop}

/-! ## Counting -/

/-- The link was handed at most `n` frames between two states of a net, and their
datagrams are `good` ones. -/
def Few (good : Ip4 × Datagram → Prop) (n : Nat) (before after : MnNet) : Prop :=
  ∃ frames, Handed before after frames ∧ frames.length ≤ n ∧
    ∀ entry ∈ frames, ∀ d, datagramOf entry.1 = some d → good d

theorem Few.quiet (n : Nat) (same : after.nif = before.nif) : Few good n before after :=
  ⟨[], by rw [Handed, same, List.append_nil], Nat.zero_le n, nofun⟩

theorem Few.one {entry : Frame × Bool} (handed : Handed before after [entry])
    (fine : ∀ d, datagramOf entry.1 = some d → good d) : Few good 1 before after := by
  refine ⟨[entry], handed, Nat.le_refl 1, fun other member => ?_⟩
  rw [List.mem_singleton.mp member]
  exact fine

theorem Few.mono (few : Few good n before after) (more : n ≤ m) : Few good m before after := by
  obtain ⟨frames, handed, short, fine⟩ := few
  exact ⟨frames, handed, Nat.le_trans short more, fine⟩

theorem Few.trans (first : Few good n before middle) (second : Few good m middle after) :
    Few good (n + m) before after := by
  obtain ⟨front, handed, short, fine⟩ := first
  obtain ⟨back, handed', short', fine'⟩ := second
  refine ⟨front ++ back, handed.trans handed', ?_, fun entry member => ?_⟩
  · rw [List.length_append]
    omega
  · exact (List.mem_append.mp member).elim (fine entry) (fine' entry)

/-- What was sent after the link's record stayed the same. -/
theorem Few.behind (few : Few good n middle after) (same : middle.nif = before.nif) :
    Few good n before after := by
  obtain ⟨frames, handed, few⟩ := few
  rw [Handed, same] at handed
  exact ⟨frames, handed, few⟩

theorem Few.since (few : Few good n before after) :
    (handedSince before after).length ≤ n ∧
      ∀ entry ∈ handedSince before after, ∀ d, datagramOf entry.1 = some d → good d := by
  obtain ⟨frames, handed, few⟩ := few
  rw [handed_since handed]
  exact few

/-! ## TCP -/

private theorem emit_few (t : MnTcp) (x : XMem) (net : MnNet) (flags : SegFlags)
    (seq : UInt32) (off len : UInt16)
    (withMss : Bool) : Few good 1 net (emit t x net flags seq off len withMss).2.2 := by
  have emission := emit_emission t x net flags seq off len withMss
  generalize emit t x net flags seq off len withMss = out at emission
  cases emission with
  | unresolved _ _ _ _ handed => exact .one handed nofun
  | sent _ _ _ _ handed => exact .one handed nofun

private theorem sendSyn_few (t : MnTcp) (x : XMem) (net : MnNet) (flags : SegFlags) :
    Few good 1 net (sendSyn t x net flags).2 := by
  rw [sendSyn_net]
  exact emit_few ..

private theorem sendRst_few (net : MnNet) (src : Ip4) (seg : TcpSeg) : Few good 1 net
    (sendRst net src seg) := by
  unfold sendRst
  dsimp only
  obtain ⟨_, mac, begun⟩ | ⟨_, begun⟩ := tx_begin_spec net src
  · rw [begun]
    exact .one (send_spec { net with ipId := net.ipId + 1 } _).1 nofun
  · rw [begun]
    exact .one (send_spec net _).1 nofun

/-- A turn of the send loop fills a segment, or it is the last one. So a window
of `k` segments is filled in `k` turns. -/
theorem sendLoop_few (x : XMem) (now limit : UInt16) (fuel : Nat) {t : MnTcp} (net : MnNet)
    (room : t.sndLen.toNat ≤ t.inflight.toNat ∨ limit.toNat ≤ t.inflight.toNat + k * t.peerMss.toNat) :
    Few good k net (sendLoop x now limit fuel t net).2.2 := by
  induction fuel generalizing k t net with
  | zero => exact .quiet k rfl
  | succ fuel ih =>
    unfold sendLoop
    by_cases more : t.sndLen > t.inflight ∧ t.inflight < limit
    · have size := nextLength_spec more.1 more.2
      have emitted : Few good 1 net _ :=
        emit_few t x net dataFlags t.sndNxt t.inflight (nextLength t limit) false
      obtain ⟨edge, stat, socket⟩ :=
        emit_socket t x net dataFlags t.sndNxt t.inflight (nextLength t limit) false
      have queued := t.sndLen.toNat_lt
      obtain ⟨more₁, more₂⟩ := more
      rw [if_pos ⟨more₁, more₂⟩]
      rw [gt_iff_lt, UInt16.lt_iff_toNat_lt] at more₁
      rw [UInt16.lt_iff_toNat_lt] at more₂
      cases k with
      | zero => omega
      | succ k =>
        dsimp only
        rw [Nat.add_comm k 1]
        split
        · exact emitted.mono (Nat.le_add_right 1 k)
        · have longer : (t.inflight + nextLength t limit).toNat = t.inflight.toNat +
            (nextLength t limit).toNat :=
            toNat_more (by omega)
          refine emitted.trans (ih _ ?_)
          rw [socket]
          dsimp only
          rw [Nat.succ_mul] at room
          omega
    · rw [if_neg more]
      exact .quiet k rfl

private theorem sendQueued_few {t : MnTcp} {since : UInt16} (inv : SocketInv t since)
    (sync : synchronized t.state = true)
    (x : XMem) (net : MnNet) (now : UInt16) : Few good 4 net (sendQueued t x net now).2 := by
  obtain ⟨k, most, window, _⟩ := inv.cwnd sync
  have limit : (sendLimit t).toNat ≤ 4 * t.peerMss.toNat := by
    have less : k * t.peerMss.toNat ≤ 4 * t.peerMss.toNat := Nat.mul_le_mul_right _ most
    unfold sendLimit
    split
    · rename_i shut
      have shut' := UInt16.lt_iff_toNat_lt.mp shut
      omega
    · omega
  exact sendLoop_few x now (sendLimit t) t.sndLen.toNat net
    (Or.inr (Nat.le_trans limit (Nat.le_add_left _ _)))

private theorem pollOne_few {t : MnTcp} {since : UInt16} (inv : SocketInv t since) (x : XMem)
    (net : MnNet) (now : UInt16) :
    Few good 4 net (pollOne t x net now).2 := by
  apply pollOne_rule (motive := fun out => Few good 4 net out.2)
  · exact fun _ => .quiet 4 rfl
  · intro _
    have shake := pollHandshake_shake t x net now
    generalize pollHandshake t x net now = out at shake
    cases shake with
    | waits | relistens | times_out => exact .quiet 4 rfl
    | pending | again => exact (sendSyn_few ..).mono (by omega)
  · intro _
    rw [pollTimeWait_net]
    split
    · exact (emit_few ..).mono (by omega)
    · exact .quiet 4 rfl
  · intro _ _
    have again := retransmit_retransmission t x net now
    generalize retransmit t x net now = out at again
    cases again with
    | times_out => exact .quiet 4 rfl
    | data | fin => exact (emit_few ..).mono (by omega)
  · exact fun sync _ _ _ => sendQueued_few inv sync x net now
  · intro _ _ _ _ _ _
    rw [sendFin_net]
    exact (emit_few ..).mono (by omega)
  · intro _ _ _
    rw [sendAck_net]
    exact (emit_few ..).mono (by omega)

private theorem pollAll_few (x : XMem) (now : UInt16) {socks : List MnTcp}
    (lived : ∀ t ∈ socks, ∃ since, SocketInv t since)
    (net : MnNet) : Few good (4 * socks.length) net (pollAll x now socks net).2 := by
  induction socks generalizing net with
  | nil => exact .quiet 0 rfl
  | cons t rest ih =>
    obtain ⟨since, inv⟩ := lived t List.mem_cons_self
    have first : Few good 4 net _ := pollOne_few inv x net now
    have later := ih (fun u member => lived u (List.mem_cons_of_mem _ member)) (pollOne t x net now).2
    rw [List.length_cons, Nat.mul_succ, Nat.add_comm]
    exact first.trans later

/-- A segment is answered once at most. -/
theorem input_few (set : MnTcpSet) (x : XMem) (net : MnNet) (src : Ip4) (seg : TcpSeg) :
    Few good 1 net (mnTcpInput set x net src seg).2.2 := by
  have nobody : ∀ sock : MnTcpSet, Few good 1 net
      (if seg.flags.rst then (set, x, net) else (sock, x, sendRst net src seg)).2.2 := by
    intro sock
    split
    · exact .quiet 1 rfl
    · exact sendRst_few net src seg
  unfold mnTcpInput
  obtain ⟨unowned, _⟩ | ⟨_, _, _, _, _, owned⟩ :=
    onFirst_spec (owns src seg) (fun t => segmentInput t x seg set.now) set.sock
  · rw [unowned]
    dsimp only
    by_cases syn : isPureSyn seg = true
    · rw [if_pos syn]
      obtain ⟨unheard, _⟩ | ⟨_, _, _, _, _, heard⟩ := onFirst_spec (listensFor seg)
        (fun t => passiveOpen t x net src seg set.now) set.sock
      · rw [unheard]
        exact nobody _
      · rw [heard]
        exact sendSyn_few ..
    · rw [if_neg syn]
      exact nobody _
  · rw [owned]
    exact .quiet 1 rfl

private theorem abort_few (t : MnTcp) (x : XMem) (net : MnNet) : Few good 1 net
    (mnTcpAbort t x net).2 := by
  unfold mnTcpAbort
  by_cases live : t.state ≠ .closed ∧ t.state ≠ .timeWait ∧ t.state ≠ .listen
  · rw [if_pos live]
    exact emit_few ..
  · rw [if_neg live]
    exact .quiet 1 rfl

private theorem connect_few (t : MnTcp) (x : XMem) (net : MnNet) (ip : Ip4) (port now : UInt16) :
    Few good 1 net (mnTcpConnect t x net ip port now).2.2 := by
  unfold mnTcpConnect
  split
  · exact .quiet 1 rfl
  · exact sendSyn_few ..

/-! ## The network layer -/

private theorem sendUdp_few (net : MnNetFull) (dst : Ip4) (sport dport : UInt16) (payload : List UInt8)
    (fine : payload.length ≤ MN_UDP_MAX_PAYLOAD → good (net.ip, ⟨dst, sport, dport, payload⟩)) :
    Few good 1 net.toMnNet (mnNetSendUdp net dst sport dport payload).2.toMnNet := by
  have posting := sendUdp_posting net dst sport dport payload
  generalize (mnNetSendUdp net dst sport dport payload).2 = after at posting
  cases posting with
  | tooLong _ same => exact .quiet 1 (congrArg MnNet.nif same)
  | asked _ _ _ _ handed => exact .one handed nofun
  | sent fits _ _ _ _ _ handed =>
    refine .one handed fun d carried => ?_
    obtain rfl := Option.some.inj carried
    exact fine fits

private theorem arpInput_few (net : MnNetFull) (frame : List UInt8) (len : UInt16) :
    Few good 1 net.toMnNet (arpInput net frame len).toMnNet := by
  unfold arpInput
  split
  · exact .quiet 1 rfl
  split
  · exact .one (send_spec { net.toMnNet with
      arp := mnArpCacheLearn net.arp (mnArpSenderIp frame) (mnArpSenderMac frame) } _).1 nofun
  · exact .quiet 1 rfl

private theorem tcpInput_few (st : Stack) (ip : List UInt8) : Few good 1 st.net.toMnNet
    (st.tcpInput ip).net.toMnNet := by
  unfold Stack.tcpInput
  cases st.tcp with
  | none => exact .quiet 1 rfl
  | some set =>
    dsimp only
    split
    · exact input_few ..
    · exact .quiet 1 rfl

private theorem ipInput_few (st : Stack) (frame : List UInt8) (len : UInt16) :
    Few good 1 st.net.toMnNet (st.ipInput frame len).net.toMnNet := by
  unfold Stack.ipInput
  dsimp only
  split
  · exact .quiet 1 rfl
  split
  · split
    · exact .one (send_spec st.net.toMnNet _).1 nofun
    · exact .quiet 1 rfl
  split
  · exact .quiet 1 (congrArg MnNet.nif (deliverUdp_toMnNet ..))
  split
  · exact tcpInput_few st _
  · exact .quiet 1 rfl

/-- A frame is answered once at most. -/
theorem netPoll_few (st : Stack) (frame : Option RxFrame) :
    Few good 1 st.net.toMnNet (mnNetPoll st frame).net.toMnNet := by
  cases frame with
  | none => exact .quiet 1 rfl
  | some f =>
    unfold mnNetPoll
    dsimp only
    split
    · exact .quiet 1 rfl
    split
    · exact arpInput_few (counted st.net) f.bytes f.len
    split
    · exact ipInput_few { st with net := counted st.net } f.bytes f.len
    · exact .quiet 1 rfl

/-! ## What sends nothing -/

/-- The acts that hand nothing down. -/
def Silent : Act → Prop
  | .opens _ | .closes _ | .receives .. | .configures .. => True
  | .tcp event =>
    match event with
    | .listen .. | .send .. | .sendX .. | .recv .. | .recvX .. | .close _ => True
    | .connect .. | .abort _ | .input .. | .poll _ => False
  | .poll _ | .sends .. => False

private theorem onSocket_net (w : World) (k : Nat) (net : MnNet) {f : MnTcp → MnTcp × XMem × MnNet}
    (same : ∀ t, (f t).2.2 = net) : (w.onSocket k net f).2 = net := by
  unfold World.onSocket
  split
  · rfl
  · exact same _

private theorem silent_nif {st : Stack} {act : Act} (silent : Silent act) :
    (exec st act).net.nif = st.net.nif := by
  cases act with
  | opens port => exact congrArg MnNet.nif (open_toMnNet st.net port)
  | closes sock => exact congrArg MnNet.nif (close_toMnNet st.net sock)
  | receives sock cap => exact congrArg MnNet.nif (recv_toMnNet st.net st.x sock cap)
  | configures => rfl
  | poll | sends => cases silent
  | tcp event =>
    unfold exec tcpAct
    cases st.tcp with
    | none => rfl
    | some set =>
      have net : ((⟨set, st.x⟩ : World).exec st.net.toMnNet event).2 = st.net.toMnNet := by
        cases event with
        | connect | abort | input | poll => cases silent
        | listen | send | sendX | recv | recvX | close => exact onSocket_net _ _ _ fun _ => rfl
      exact congrArg MnNet.nif net

private theorem path_nif {st st' : Stack}
    (path : Relation.ReflTransGen (fun st st' => ∃ act, Prepares act ∧ st' = exec st act) st st') :
    st'.net.nif = st.net.nif := by
  induction path with
  | refl => rfl
  | tail _ last ih =>
    obtain ⟨act, prepares, rfl⟩ := last
    refine (silent_nif ?_).trans ih
    cases act with
    | opens | closes | receives | configures => trivial
    | poll | sends | tcp => exact prepares.elim

private theorem prepared_nif {net after : MnNetFull} (prepared : Prepared net after) :
    after.nif = net.nif := path_nif (prepared none fun _ => 0)

/-! ## The clients -/

/-- What a client puts together, in whatever state, for the port of its service. -/
inductive Message (d : Datagram) : Prop
  | dhcp (client : Dhcp.MnDhcp) (net : MnNetFull) (type : UInt8) (sport : d.sport = 68)
      (dport : d.dport = 67)
      (payload : d.payload = Dhcp.build client net type) : Message d
  | dns (client : Dns.MnDns) (dport : d.dport = Dns.PORT_DNS)
      (payload : Dns.build client = some d.payload) : Message d
  | ntp (dport : d.dport = Ntp.PORT_NTP) (payload : d.payload = Ntp.request) : Message d

/-- A message of a client, from any address. -/
def Service (d : Ip4 × Datagram) : Prop := Message d.2 ∧ d.2.payload.length ≤ MN_UDP_MAX_PAYLOAD

private theorem asked_few {net after : MnNetFull} (asked : Asked Message net after) :
    Few Service 1 net.toMnNet after.toMnNet := by
  cases asked with
  | silent prepared => exact .quiet 1 (prepared_nif prepared)
  | message prepared fine =>
    exact (sendUdp_few _ _ _ _ _ fun fits => ⟨fine, fits⟩).behind (prepared_nif prepared)

private theorem dhcpStart_few (d : Dhcp.MnDhcp) (net : MnNetFull) (now : UInt16) :
    Few Service 1 net.toMnNet (Dhcp.mnDhcpStart d net now).2.toMnNet :=
  asked_few (dhcpStart_asks d net (fun d net type => .dhcp d net type rfl rfl rfl) now)

private theorem dhcpPoll_few (d : Dhcp.MnDhcp) (net : MnNetFull) (x : XMem) (now : UInt16) :
    Few Service 1 net.toMnNet (Dhcp.mnDhcpPoll d net x now).2.toMnNet :=
  asked_few (dhcpPoll_asks d net (fun d net type => .dhcp d net type rfl rfl rfl) x now)

private theorem dnsStart_few (d : Dns.MnDns) (net : MnNetFull) (name : List UInt8)
    (server : Ip4) (now : UInt16) :
    Few Service 1 net.toMnNet (Dns.mnDnsStart d net name server now).2.toMnNet :=
  asked_few (dnsStart_asks d net name server now fun d _ _ built => .dns d rfl built).1

private theorem dnsPoll_few (d : Dns.MnDns) (net : MnNetFull) (x : XMem) (now : UInt16) :
    Few Service 1 net.toMnNet (Dns.mnDnsPoll d net x now).2.toMnNet :=
  asked_few (dnsPoll_asks d net x now fun _ _ built => .dns d rfl built)

private theorem ntpStart_few (n : Ntp.MnNtp) (net : MnNetFull) (server : Ip4) (now : UInt16) :
    Few Service 1 net.toMnNet (Ntp.mnNtpStart n net server now).2.toMnNet :=
  asked_few (ntpStart_asks n net server now fun _ _ => .ntp rfl rfl)

private theorem ntpPoll_few (n : Ntp.MnNtp) (net : MnNetFull) (x : XMem) (now : UInt16) :
    Few Service 1 net.toMnNet (Ntp.mnNtpPoll n net x now).2.toMnNet :=
  asked_few (ntpPoll_asks n net x now fun _ _ => .ntp rfl rfl)

/-! ## The calls -/

/-- How many frames a call may hand to the link, LINK_TX's own aside. -/
def budget : Entry → Nat
  | .poll => 36
  | .dhcpStart | .dnsStart | .ntpStart | .tcpConnect | .tcpAbort | .udpSend => 1
  | _ => 0

theorem asleep {p : Prop} [Decidable p] {net : MnNet} {c d : Api} (quiet : d.net.nif = net.nif)
    (few : p → Few good n net c.net.toMnNet) : Few good n net (if p then c else d).net.toMnNet := by
  split
  · exact few ‹_›
  · exact .quiet n quiet

private theorem clients_few (s : Api) : Few Service 3 s.net.toMnNet
    (pollNtp (pollDns (pollDhcp s))).net.toMnNet := by
  have first : Few Service 1 s.net.toMnNet (pollDhcp s).net.toMnNet :=
    asleep rfl fun _ => dhcpPoll_few s.dhcp s.net (linear s.m) s.ticks
  generalize pollDhcp s = s₁ at first ⊢
  have second : Few Service 1 s₁.net.toMnNet (pollDns s₁).net.toMnNet :=
    asleep rfl fun _ => dnsPoll_few s₁.dns s₁.net (linear s₁.m) s₁.ticks
  generalize pollDns s₁ = s₂ at second ⊢
  have third : Few Service 1 s₂.net.toMnNet (pollNtp s₂).net.toMnNet :=
    asleep rfl fun _ => ntpPoll_few s₂.ntp s₂.net (linear s₂.m) s₂.ticks
  exact (first.trans second).trans third

private theorem clients_tcpset (s : Api) : (pollNtp (pollDns (pollDhcp s))).tcpset = s.tcpset := by
  unfold pollNtp pollDns pollDhcp
  split_ifs <;> rfl

/-- POLL: an answer to the frame, a message of each client, and four segments of
each socket. -/
theorem poll_few (layout : PoolLayout.Layout s.stack) (order : Orderly s.stack) :
    Few Service 36 s.net.toMnNet (mnApiPoll s i).2.net.toMnNet := by
  obtain ⟨⟨⟨set, attached, eight, _⟩, _⟩, _⟩ := PoolLayout.act_confined layout order (.poll i.frame)
  have lived := ((exec_orderly order (.poll i.frame)).tcp set attached).1
  have frame : Few Service 1 s.net.toMnNet (heard s i).net.toMnNet := netPoll_few s.stack i.frame
  have same : (heard s i).tcpset = set := by
    show (mnNetPoll s.stack i.frame).tcp.getD s.tcpset = set
    rw [show (mnNetPoll s.stack i.frame).tcp = some set from attached]
    rfl
  have messages := clients_few (heard s i)
  have socks := clients_tcpset (heard s i)
  rw [same] at socks
  have last : (mnApiPoll s i).2 = pollTcp (pollNtp (pollDns (pollDhcp (heard s i)))) := rfl
  rw [last]
  generalize pollNtp (pollDns (pollDhcp (heard s i))) = s₁ at messages socks ⊢
  have sound : ∀ t ∈ set.sock, ∃ since, SocketInv t since := by
    intro t member
    obtain ⟨k, found⟩ := List.mem_iff_getElem?.mp member
    exact ⟨_, (TcpIsolation.Lived.sound lived found).1⟩
  have segments : Few Service (4 * set.sock.length) s₁.net.toMnNet _ :=
    pollAll_few (linear s₁.m) s₁.ticks sound s₁.net.toMnNet
  rw [eight, ← socks] at segments
  exact (frame.trans messages).trans segments

private theorem moves_silent {allowed : Act → Prop} {W : Set Nat} {st st' : Stack}
    (silent : ∀ act, allowed act → Silent act)
    (moves : Moves allowed W st st') : st'.net.nif = st.net.nif := by
  induction moves with
  | refl => rfl
  | tail _ move ih =>
    cases move with
    | acts act may => exact (silent_nif (silent act may)).trans ih
    | copies => exact ih

/-- What the entries without a budget do. -/
theorem allowed_silent (broke : budget entry = 0) (act : Act)
    (may : Allowed s r i entry act) : Silent act := by
  cases entry with
  | poll | dhcpStart | dnsStart | ntpStart | tcpConnect | tcpAbort | udpSend => cases broke
  | setIp | setLocalIp4 =>
    obtain ⟨_, _, _, rfl⟩ := may
    trivial
  | tcpListen | tcpClose | udpOpen | udpClose =>
    cases may
    trivial
  | tcpSend =>
    obtain ⟨_, _, _, rfl⟩ := may
    trivial
  | tcpRecv | udpRecv =>
    obtain ⟨_, rfl⟩ := may
    trivial
  | init | version | getMac | linkTx | linkRx | getIp
  | getStats | dhcpState | getDns | setDns | dnsState | dnsResult
  | ntpState | ntpResult | setRtc | dhcpLastMsg | tcpState | tcpPeer | tcpInfo => cases may

/-- The datagram that a caller's block asks for. -/
def callerDatagram (m : PhysMem) (r : Regs) (port : UInt16) : Datagram where
  dst := callerIp m r.argPtr
  sport := port
  dport := callerWord m (r.argPtr + 4)
  payload := run m (callerPtr m (r.argPtr + 6)) (callerWord m (r.argPtr + 9)).toNat

/-- What a call may send by UDP. -/
def MaySend (s : Api) (r : Regs) (entry : Entry) (d : Ip4 × Datagram) : Prop :=
  if entry = .udpSend then
    ∃ port, s.openPort r = some port ∧ d = (s.net.ip, callerDatagram s.m r port) ∧
      d.2.payload.length ≤ MN_UDP_MAX_PAYLOAD
  else Service d

/-- What UDP_SEND answers and leaves of the net, the socket's port being known. -/
def sendFor (s : Api) (r : Regs) (port : UInt16) : SendResult × MnNetFull :=
  mnNetSendUdp s.net (callerDatagram s.m r port).dst port (callerDatagram s.m r port).dport
    (callerDatagram s.m r port).payload

/-- UDP_SEND is a send of the datagram in the caller's block, or nothing. -/
theorem udpSend_cases (done : mnApiUdpSend s r = some (out, s')) :
    s'.net = s.net ∨ ∃ port, s.openPort r = some port ∧ out.a = (sendFor s r port).1.code ∧
      s'.net = (sendFor s r port).2 := by
  have dst : ipAt (s.fetch r.argPtr 11).blk 0 = callerIp s.m r.argPtr := fetch_ip (by decide) s r.argPtr
  have dport : (s.fetch r.argPtr 11).blkWord 4 = callerWord s.m (r.argPtr + 4) :=
    fetch_word (by decide) s r.argPtr
  have len : (s.fetch r.argPtr 11).blkWord 9 = callerWord s.m (r.argPtr + 9) :=
    fetch_word (by decide) s r.argPtr
  have ptr : pointer (byteAt (s.fetch r.argPtr 11).blk 6) (byteAt (s.fetch r.argPtr 11).blk 7)
      (byteAt (s.fetch r.argPtr 11).blk 8) = callerPtr s.m (r.argPtr + 6) := by
    simp only [Api.fetch, run_byte (show 6 < 11 by decide), run_byte (show 7 < 11 by decide),
      run_byte (show 8 < 11 by decide), callerPtr, UInt32.add_assoc]
    rfl
  unfold mnApiUdpSend at done
  split at done
  · cases done
    exact Or.inl rfl
  rename_i port open_
  dsimp only at done
  split at done
  · cases done
    exact Or.inl rfl
  · obtain ⟨payload, fetched, same⟩ := Option.map_eq_some_iff.mp done
    have bytes : payload = (callerDatagram s.m r port).payload := by
      unfold Api.fetchInto at fetched
      split at fetched
      · cases fetched
      · rw [← Option.some.inj fetched, ptr, len]
        rfl
    rw [bytes, dst, dport] at same
    cases same
    exact Or.inr ⟨port, open_, rfl, rfl⟩

/-- What the link takes of a send, the send says is sent. -/
theorem sendUdp_took {net : MnNetFull} {dst : Ip4} {sport dport : UInt16}
    {payload : List UInt8} {frame : Frame}
    (handed : (frame, true) ∈ handedSince net.toMnNet
      (mnNetSendUdp net dst sport dport payload).2.toMnNet)
    {d : Ip4 × Datagram} (carried : datagramOf frame = some d) :
    (mnNetSendUdp net dst sport dport payload).1 = .ok := by
  unfold mnNetSendUdp at handed ⊢
  dsimp only at handed ⊢
  split at handed
  · simp [handedSince] at handed
  rename_i fits
  rw [if_neg fits]
  obtain ⟨_, mac, begun⟩ | ⟨_, begun⟩ := tx_begin_spec net.toMnNet dst
  · rw [begun] at handed ⊢
    dsimp only at handed ⊢
    obtain ⟨record, _, result⟩ := send_spec { net.toMnNet with ipId := net.ipId + 1 }
      (.udp mac net.nif.mac net.ip dst net.ipId sport dport payload)
    have record : Handed net.toMnNet _ _ := record
    rw [handed_since record] at handed
    have queued := (Prod.mk.inj (List.mem_singleton.mp handed)).2
    rw [result, if_pos queued.symm]
  · rw [begun] at handed
    dsimp only at handed
    have record :=
      (send_spec net.toMnNet (.arpRequest net.nif.mac net.ip (mnNetNextHop net.toMnNet dst))).1
    rw [handed_since record] at handed
    rw [(Prod.mk.inj (List.mem_singleton.mp handed)).1] at carried
    cases carried

private theorem udpSend_few (done : mnApiUdpSend s r = some (out, s')) :
    Few (MaySend s r .udpSend) 1 s.net.toMnNet s'.net.toMnNet := by
  obtain same | ⟨port, open_, _, same⟩ := udpSend_cases done
  · exact .quiet 1 (congrArg (·.nif) same)
  · rw [same]
    exact sendUdp_few _ _ _ _ _ fun fits => ⟨port, open_, rfl, fits⟩

/-- Every call keeps to its budget, and what it sends by UDP is what the caller asks
for, or a message to a service. -/
theorem call_few (standing : Standing s) (spares : Spares s.m r entry)
    (done : s.exec entry r i = some (out, s')) :
    Few (MaySend s r entry) (budget entry) s.net.toMnNet s'.net.toMnNet := by
  obtain ⟨layout, order⟩ := standing.shadowed.parts
  by_cases first : entry = .init
  · subst first
    rw [answered (f := mnApiInit s i) done]
    exact ⟨[], (List.append_nil _).symm, Nat.zero_le _, nofun⟩
  by_cases broke : budget entry = 0
  · have moves := exec_moves layout order standing.named spares first done
    exact .quiet _ (moves_silent (allowed_silent broke) moves)
  cases entry with
  | poll =>
    rw [answered (f := mnApiPoll s i) done]
    exact poll_few layout order
  | dhcpStart =>
    have few := dhcpStart_few s.dhcp s.net (s.tick i).ticks
    rw [answered (f := mnApiDhcpStart s i) done]
    unfold mnApiDhcpStart
    dsimp only [Api.tick] at few ⊢
    generalize Dhcp.mnDhcpStart s.dhcp s.net _ = started at few
    exact few
  | dnsStart =>
    rw [answered (f := mnApiDnsStart s r i) done]
    unfold mnApiDnsStart
    dsimp only
    split
    · exact .quiet 1 rfl
    · exact dnsStart_few ..
  | ntpStart =>
    rw [answered (f := mnApiNtpStart s r i) done]
    exact ntpStart_few ..
  | tcpConnect =>
    rw [answered (f := mnApiTcpConnect s r i) done]
    unfold mnApiTcpConnect onSockZ
    split
    · exact .quiet 1 rfl
    · exact connect_few ..
  | tcpAbort =>
    rw [answered (f := mnApiTcpAbort s r) done]
    unfold mnApiTcpAbort onSockZ
    split
    · exact .quiet 1 rfl
    · exact abort_few ..
  | udpSend => exact udpSend_few done
  | _ => exact absurd rfl broke

/-- Whatever state the stack is in, and whatever comes over the network, no call
hands its link more frames than its entry has a budget for. -/
theorem frames_within_budget (runs : Runs s) (spares : Spares s.m r entry)
    (done : s.exec entry r i = some (out, s')) :
    (handedSince s.net.toMnNet s'.net.toMnNet).length ≤ budget entry :=
      (call_few runs.standing spares done).since.1

/-- A machine with an address, and a block to connect to port 80 of 10.0.0.2. -/
def named : Api :=
  (mnApiSetLocalIp4
    (mnApiInit { bare with m := put (fun _ => 0) 0x1600 [10, 0, 0, 2, 80, 0] } quietLink).2
      ⟨10, 0, 0, 1⟩).2

/-- Two sockets connect there, and nobody says who has the address. -/
def calling : Api :=
  (mnApiTcpConnect (mnApiTcpConnect named ⟨0, 0x16, 0, 0⟩ quietLink).2 ⟨0, 0x16, 0, 1⟩ quietLink).2

theorem calling_runs : Runs calling := by
  have named_ : Runs named :=
    .next (.start ⟨{ bare with m := put (fun _ => 0) 0x1600 [10, 0, 0, 2, 80, 0] }, quietLink, rfl⟩)
    (.calls .setLocalIp4 ⟨10, 0, 0, 1⟩ quietLink (spares_nothing ⟨rfl, rfl⟩) rfl)
  have one := named_.next (.calls .tcpConnect ⟨0, 0x16, 0, 0⟩ quietLink (spares_nothing ⟨rfl, rfl⟩) rfl)
  exact one.next (.calls .tcpConnect ⟨0, 0x16, 0, 1⟩ quietLink (spares_nothing ⟨rfl, rfl⟩) rfl)

/-- Two frames of the counter later. -/
def twoFramesOn : Inputs := { quietLink with frameCount := 9 }

/-- POLL asks for each of them again. -/
theorem frames_within_budget_calling :
    (handedSince calling.net.toMnNet (mnApiPoll calling twoFramesOn).2.net.toMnNet).length ≤
      budget .poll ∧
      (handedSince calling.net.toMnNet (mnApiPoll calling twoFramesOn).2.net.toMnNet).length = 2 := by
  have done : calling.exec .poll ⟨0, 0, 0, 0⟩ twoFramesOn =
      some ((mnApiPoll calling twoFramesOn).1, (mnApiPoll calling twoFramesOn).2) := rfl
  exact ⟨frames_within_budget calling_runs (spares_nothing ⟨rfl, rfl⟩) done, by decide +kernel⟩

end MegaNet.FrameBudget
