import MegaNet.TcpIsolation
import MegaNet.UdpDelivery

/-! Whom TCP listens to. The IPv4 layer lets broadcasts through, and anything
at all while the host has no address, and TCP has no test of its own: what the
layer lets through it takes, and answers, as if it were for this host alone. -/
namespace MegaNet.TcpUnicast
open MegaNet.Core TcpEmission TcpOutcomes TcpConnection TcpSetRuns TcpIsolation UdpOutcomes UdpSockets
  UdpDelivery Transmissions

variable {st : Stack} {net after : MnNet} {set : MnTcpSet} {src : Ip4} {seg : TcpSeg}
  {f : RxFrame} {ip : List UInt8}

/-! ## What a segment sets going -/

/-- Sockets changed, or the link was handed a segment. -/
def Acts (sock sock' : List MnTcp) (before after : MnNet) : Prop :=
  sock' ≠ sock ∨ segmentsHanded before after ≠ []

/-- A socket owns the segment, or listens for it, or it draws a RST that can be
sent. -/
def Heard (set : MnTcpSet) (net : MnNet) (src : Ip4) (seg : TcpSeg) : Prop :=
  (∃ t ∈ set.sock, owns src seg t = true) ∨
    (isPureSyn seg = true ∧ ∃ t ∈ set.sock, listensFor seg t = true) ∨
    (seg.flags.rst = false ∧ net.Resolves src)

private theorem set_changes {sock : List MnTcp} {i : Nat} {t u : MnTcp}
    (found : sock[i]? = some t) (differ : u ≠ t) :
    sock.set i u ≠ sock := by
  intro same
  have inside := (List.getElem?_eq_some_iff.mp found).1
  have here := congrArg (·[i]?) same
  simp only [List.getElem?_set_self inside, found] at here
  exact differ (Option.some.inj here)

private theorem handleAck_statRxSeg (t : MnTcp) (ack : UInt32) (now : UInt16) :
    (handleAck t ack now).statRxSeg = t.statRxSeg := by
  obtain same | ⟨acked, same⟩ := handleAck_socket t ack now <;> rw [same]
  rfl

private theorem synchronizedInput_statRxSeg (t : MnTcp) (x : XMem) (seg : TcpSeg) (now : UInt16) :
    (synchronizedInput t x seg now).1.statRxSeg = t.statRxSeg := by
  unfold synchronizedInput
  split
  · rfl
  split
  · obtain ⟨ooo, owed, same⟩ := outOfOrder_socket t seg
    rw [handleAck_statRxSeg, same]
  · have done : ∀ u, (finAcked u).statRxSeg = u.statRxSeg := by
      intro u
      obtain same | same := finAcked_socket u <;> rw [same]
    obtain ⟨count, next, owed, same⟩ :=
      takeData_socket { handleAck t seg.ack now with sndWnd := seg.wnd } x seg
    unfold inOrder
    dsimp only
    rw [done, same, ← handleAck_statRxSeg t seg.ack now]
    split <;> rfl

/-- The socket a segment is for counts it, whatever else becomes of it. -/
theorem segmentInput_statRxSeg (t : MnTcp) (x : XMem) (seg : TcpSeg) (now : UInt16) :
    (segmentInput t x seg now).1.statRxSeg = t.statRxSeg + 1 := by
  have arrival := segmentInput_arrival t x seg now
  generalize segmentInput t x seg now = out at arrival
  cases arrival with
  | accepts | proceeds => exact synchronizedInput_statRxSeg ..
  | _ => rfl

private theorem segmentInput_differs (t : MnTcp) (x : XMem) (seg : TcpSeg) (now : UInt16) :
    (segmentInput t x seg now).1 ≠ t := by
  intro same
  have counted := segmentInput_statRxSeg t x seg now
  rw [same] at counted
  exact absurd counted (by grind)

/-- A listener that takes a SYN listens no more. -/
theorem passiveOpen_differs {t : MnTcp} (listens : listensFor seg t = true) (x : XMem)
    (net : MnNet) (now : UInt16) :
    (passiveOpen t x net src seg now).1 ≠ t := by
  simp only [listensFor, Bool.and_eq_true, beq_iff_eq] at listens
  intro same
  have state : (passiveOpen t x net src seg now).1.state = .synRcvd := by
    obtain ⟨edge, stat, pending, sent⟩ :=
      sendSyn_socket (startPassive t net src seg now) x net { syn := true, ack := true }
    rw [passiveOpen, sent]
    rfl
  rw [same, listens.1] at state
  cases state

theorem handed_nothing (net : MnNet) : segmentsHanded net net = [] := by
  simp [segmentsHanded, handedSince]

private theorem sendRst_handed (net : MnNet) (src : Ip4) (seg : TcpSeg) :
    segmentsHanded net (sendRst net src seg) ≠ [] ↔ net.Resolves src := by
  obtain ⟨frame, queued, handed, ⟨known, _, rfl⟩ | ⟨unknown, rfl⟩⟩ := sendRst_attempted net src seg <;>
    simp [segmentsHanded, handed_since handed, segmentOf, *]

/-- A segment nobody is there for acts by the RST it draws. -/
theorem unanswered_acts_iff (set : MnTcpSet) (x : XMem) (net : MnNet) (src : Ip4) (seg : TcpSeg) :
    Acts set.sock
        (if seg.flags.rst then (set, x, net)
          else ({ set with rstSent := set.rstSent + 1 }, x, sendRst net src seg)).1.sock net
        (if seg.flags.rst then (set, x, net)
          else ({ set with rstSent := set.rstSent + 1 }, x, sendRst net src seg)).2.2 ↔
      seg.flags.rst = false ∧ net.Resolves src := by
  by_cases rst : seg.flags.rst = true
  · simp [Acts, rst, handed_nothing]
  · simp [Acts, rst, sendRst_handed]

/-- A segment acts exactly when it is heard. -/
theorem input_acts_iff (set : MnTcpSet) (x : XMem) (net : MnNet) (src : Ip4) (seg : TcpSeg) :
    Acts set.sock (mnTcpInput set x net src seg).1.sock net (mnTcpInput set x net src seg).2.2 ↔
      Heard set net src seg := by
  unfold mnTcpInput
  obtain ⟨unowned, nobody⟩ | ⟨i, t, found, owned, _, same⟩ :=
    onFirst_spec (owns src seg) (fun t => segmentInput t x seg set.now) set.sock
  · rw [unowned]
    have noOwner : ¬ ∃ t ∈ set.sock, owns src seg t = true := by
      rintro ⟨t, member, owned⟩
      rw [none_of nobody t member] at owned
      cases owned
    by_cases syn : isPureSyn seg = true
    · obtain ⟨unheard, deaf⟩ | ⟨i, t, found, listens, _, same⟩ :=
        onFirst_spec (listensFor seg) (fun t => passiveOpen t x net src seg set.now) set.sock
      · have noListener : ¬ ∃ t ∈ set.sock, listensFor seg t = true := by
          rintro ⟨t, member, listens⟩
          rw [none_of deaf t member] at listens
          cases listens
        rw [if_pos syn, unheard]
        simp only [Heard, noOwner, noListener, and_false, false_or]
        exact unanswered_acts_iff ..
      · rw [if_pos syn, same]
        exact iff_of_true (Or.inl (set_changes found (passiveOpen_differs listens _ _ _)))
          (Or.inr (Or.inl ⟨syn, t, List.mem_of_getElem? found, listens⟩))
    · rw [if_neg syn]
      simp only [Heard, noOwner, syn, Bool.false_eq_true, false_and, false_or]
      exact unanswered_acts_iff ..
  · rw [same]
    exact iff_of_true (Or.inl (set_changes found (segmentInput_differs _ _ _ _)))
      (Or.inl ⟨t, List.mem_of_getElem? found, owned⟩)

/-! ## What a frame sets going -/

/-- The sockets behind the network layer. -/
def sockets (st : Stack) : List MnTcp := st.tcp.elim [] (·.sock)

/-- A poll changes a TCP socket, or transmits a segment. -/
def PollActs (st : Stack) (f : RxFrame) : Prop :=
  Acts (sockets st) (sockets (mnNetPoll st (some f))) st.net.toMnNet (mnNetPoll st (some f)).net.toMnNet

/-- The frame passes every test on the way to the sockets: Ethernet's, IPv4's
and TCP's. -/
structure Reaches (net : MnNetFull) (f : RxFrame) : Prop where
  ours : ¬ f.len < 14 ∧ mnEtherIsForUs f.bytes net.nif.mac = true
  type : mnEtherType f.bytes = MN_ETHERTYPE_IPV4
  valid : ¬ f.len < 34 ∧ mnIpv4Valid (f.bytes.drop 14) (f.len - 14) = true
  admitted : ipAccepts net (f.bytes.drop 14) = true
  proto : mnIpv4Proto (f.bytes.drop 14) = MN_IPPROTO_TCP
  accepted : tcpAccepts (f.bytes.drop 14) = true

/-- The segment in a frame. -/
def segmentIn (f : RxFrame) : TcpSeg :=
  tcpSegment (mnIpv4Payload (f.bytes.drop 14)) (mnIpv4PayloadLen (f.bytes.drop 14))

theorem quiet {sock : List MnTcp} (silent : segmentsHanded net after = []) :
    ¬ Acts sock sock net after := by
  simp [Acts, silent]

theorem reply_silent (net : MnNetFull) (frame : Frame) (other : segmentOf frame = none) :
    segmentsHanded net.toMnNet (net.reply frame).toMnNet = [] := by
  have handed : Handed net.toMnNet (net.reply frame).toMnNet _ := (send_spec net.toMnNet frame).1
  simp [segmentsHanded, handed_since handed, other]

private theorem arpInput_silent (net : MnNetFull) (frame : List UInt8) (len : UInt16) :
    segmentsHanded net.toMnNet (arpInput net frame len).toMnNet = [] := by
  unfold arpInput
  split
  · exact handed_nothing _
  split
  · exact reply_silent
      { net with arp := mnArpCacheLearn net.arp (mnArpSenderIp frame) (mnArpSenderMac frame) }
      (.arpReply net.nif.mac net.ip (mnArpSenderMac frame) (mnArpSenderIp frame)) rfl
  · exact handed_nothing _

private theorem deliverUdp_silent (net : MnNetFull) (x : XMem) (ip : List UInt8) :
    segmentsHanded net.toMnNet (deliverUdp net x ip).1.toMnNet = [] := by
  rw [deliverUdp_toMnNet]
  exact handed_nothing _

private theorem tcpInput_acts_iff (st : Stack) (ip : List UInt8) :
    Acts (sockets st) (sockets (st.tcpInput ip)) st.net.toMnNet (st.tcpInput ip).net.toMnNet ↔
      ∃ set, st.tcp = some set ∧ tcpAccepts ip = true ∧
        Heard set st.net.toMnNet (mnIpv4Src ip)
          (tcpSegment (mnIpv4Payload ip) (mnIpv4PayloadLen ip)) := by
  unfold Stack.tcpInput sockets
  cases attached : st.tcp with
  | none => simp [attached, Acts, handed_nothing]
  | some set =>
    by_cases accepted : tcpAccepts ip = true
    · simp only [accepted, if_true, Option.elim_some, Option.some.injEq, exists_eq_left', true_and]
      exact input_acts_iff ..
    · simp [accepted, attached, Acts, handed_nothing]

/-- A frame acts on TCP exactly when its segment reaches the sockets and is
heard. -/
theorem poll_acts_iff (st : Stack) (f : RxFrame) :
    PollActs st f ↔ ∃ set, st.tcp = some set ∧ Reaches st.net f ∧
      Heard set st.net.toMnNet (mnIpv4Src (f.bytes.drop 14)) (segmentIn f) := by
  have missed : ∀ {after : MnNet}, segmentsHanded st.net.toMnNet after = [] → ¬ Reaches st.net f →
      (Acts (sockets st) (sockets st) st.net.toMnNet after ↔
        ∃ set, st.tcp = some set ∧ Reaches st.net f ∧
        Heard set st.net.toMnNet (mnIpv4Src (f.bytes.drop 14)) (segmentIn f)) :=
    fun silent astray => iff_of_false (quiet silent) fun ⟨_, _, reaches, _⟩ => astray reaches
  unfold PollActs mnNetPoll
  dsimp only
  split
  · rename_i stray
    simp only [Bool.or_eq_true, decide_eq_true_eq, Bool.not_eq_true'] at stray
    refine missed (handed_nothing _) fun reaches => stray.elim reaches.ours.1 fun other => ?_
    rw [reaches.ours.2] at other
    cases other
  rename_i ours
  simp only [Bool.or_eq_true, decide_eq_true_eq, Bool.not_eq_true', not_or, Bool.not_eq_false] at ours
  split
  · rename_i arp
    refine missed (arpInput_silent (counted st.net) f.bytes f.len) fun reaches => ?_
    rw [reaches.type] at arp
    cases arp
  split
  · rename_i type
    unfold Stack.ipInput
    dsimp only
    split
    · rename_i refused
      refine missed (handed_nothing _) fun reaches => ?_
      have admitted : ipAccepts { st.net with rxFrames := st.net.rxFrames + 1 } (f.bytes.drop 14) =
        true := reaches.admitted
      simp [reaches.valid, admitted] at refused
    rename_i passes
    simp only [Bool.or_eq_true, decide_eq_true_eq, Bool.not_eq_true', not_or, Bool.not_eq_false]
      at passes
    have other : ∀ {proto : UInt8}, mnIpv4Proto (f.bytes.drop 14) = proto → proto ≠ MN_IPPROTO_TCP →
        ¬ Reaches st.net f :=
      fun is differs reaches => differs (is.symm.trans reaches.proto)
    split
    · rename_i icmp
      split
      · exact missed (reply_silent (counted st.net) _ rfl) (other icmp (by decide))
      · exact missed (handed_nothing _) (other icmp (by decide))
    split
    · rename_i udp
      exact missed (deliverUdp_silent (counted st.net) st.x _) (other udp (by decide))
    split
    · rename_i tcp
      refine (tcpInput_acts_iff { st with net := counted st.net } (f.bytes.drop 14)).trans ?_
      refine exists_congr fun set => and_congr_right fun _ =>
        ⟨fun ⟨accepted, heard⟩ => ?_, fun ⟨reaches, heard⟩ => ?_⟩
      · exact ⟨⟨ours, type, passes.1, passes.2, tcp, accepted⟩, heard⟩
      · exact ⟨reaches.accepted, heard⟩
    · rename_i unknown
      exact missed (handed_nothing _) fun reaches => unknown reaches.proto
  · rename_i unknown
    exact missed (handed_nothing _) fun reaches => unknown reaches.type

/-! ## Unicast only? -/

/-- The packet in a frame is for this host's own address, and there is one. -/
def ForUsAlone (net : MnNetFull) (f : RxFrame) : Prop :=
  mnIpv4Dst (f.bytes.drop 14) = net.ip ∧ net.ip ≠ zeroIp

/-- A segment that is heard, sent to everyone, or to a host without an address. -/
def Stray (st : Stack) (f : RxFrame) : Prop :=
  (∃ set, st.tcp = some set ∧ Reaches st.net f ∧
      Heard set st.net.toMnNet (mnIpv4Src (f.bytes.drop 14)) (segmentIn f)) ∧
    (mnIpv4Dst (f.bytes.drop 14) = limitedBcast ∧ st.net.ip ≠ limitedBcast ∨ st.net.ip = zeroIp)

theorem Reaches.destination (reaches : Reaches st.net f) :
    ForUsAlone st.net f ↔ ¬ (mnIpv4Dst (f.bytes.drop 14) = limitedBcast ∧ st.net.ip ≠ limitedBcast ∨
      st.net.ip = zeroIp) := by
  have admitted := reaches.admitted
  simp only [ipAccepts, Bool.or_eq_true, beq_iff_eq] at admitted
  unfold ForUsAlone
  grind

/-- A frame acts on TCP for this host's address only, exactly if it is no stray
segment. -/
theorem unicast_only_iff (st : Stack) (f : RxFrame) : (PollActs st f → ForUsAlone st.net f) ↔
    ¬ Stray st f := by
  rw [poll_acts_iff]
  constructor
  · rintro only ⟨acts, astray⟩
    obtain ⟨_, _, reaches, _⟩ := id acts
    exact reaches.destination.mp (only acts) astray
  · rintro none_ ⟨set, attached, reaches, heard⟩
    exact reaches.destination.mpr fun astray => none_ ⟨⟨set, attached, reaches, heard⟩, astray⟩

/-- A host at 10.0.0.1 with one TCP socket, which listens on port 80. -/
def serving : Stack :=
  exec
    (exec
      ⟨mnNetSetPool
        (mnNetInit (layerOver goodNet) { goodNet.nif with mac := ⟨2, 0, 0, 0, 0, 1⟩ }) 0x800e000,
        some (mnTcpInit [blankSocket] 1 0), fun _ => 0⟩
      (.configures ⟨10, 0, 0, 1⟩ ⟨255, 255, 255, 0⟩ ⟨10, 0, 0, 254⟩))
    (.tcp (.listen 0 80))

theorem serving_life : Life serving := by
  refine .next
    (.next (.start ⟨layerOver goodNet, { goodNet.nif with mac := ⟨2, 0, 0, 0, 0, 1⟩ }, 0x800e000, rfl,
    by decide, Or.inr ⟨[blankSocket], 1, 0, rfl, ?_⟩⟩) ⟨_, rfl⟩) ⟨_, rfl⟩
  intro t member i a low high
  obtain rfl : t = initSocket 0 0 blankSocket := List.mem_singleton.mp member
  have far : ∀ i : Fin 4, 10000 ≤ mailbox (mnNetSetPool (mnNetInit (layerOver goodNet)
      { goodNet.nif with mac := ⟨2, 0, 0, 0, 0, 1⟩ }) 0x800e000) i := by decide
  have past := (far i).trans low
  have rings : rcvRing (initSocket 0 0 blankSocket) = Set.Ico 0 4096 ∧
      sndRing (initSocket 0 0 blankSocket) = Set.Ico 4096 7168 := ⟨rfl, rfl⟩
  rw [rings.1, rings.2, Set.mem_Ico, Set.mem_Ico]
  omega

/-- A SYN for that port from 10.0.0.2, to everyone. -/
def synToAll : RxFrame where
  bytes := (Frame.tcp mnEthBroadcast ⟨2, 0, 0, 0, 0, 2⟩ ⟨10, 0, 0, 2⟩ limitedBcast 1
    { sport := 1000, dport := 80, seq := 5, ack := 0, flags := { syn := true }, wnd := 1000,
      opts := [], data := []
      optsFit := Nat.zero_le _, dataFits := Nat.succ_pos _ }).bytes
  fits := by decide +kernel

/-- It opens the listener. -/
theorem syn_to_all_opens :
    Life serving ∧ (sockets serving).map (·.state) = [.listen] ∧
      (sockets (mnNetPoll serving (some synToAll))).map (·.state) = [.synRcvd] ∧
      PollActs serving synToAll ∧ ¬ ForUsAlone serving.net synToAll := by
  have before : (sockets serving).map (·.state) = [.listen] := by decide +kernel
  have after : (sockets (mnNetPoll serving (some synToAll))).map (·.state) = [.synRcvd] := by
    decide +kernel
  refine ⟨serving_life, before, after, Or.inl fun same => ?_,
    fun alone => absurd alone.1 (by decide +kernel)⟩
  rw [same, before] at after
  cases after

end MegaNet.TcpUnicast
