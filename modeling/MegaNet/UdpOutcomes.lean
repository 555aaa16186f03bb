import MegaNet.Core.NetPoll
import MegaNet.TcpTurns

/-! What each routine of the UDP side of `mn_net.c` can do, said once: to the
four sockets, to the routes, and to the record of what was sent. -/
namespace MegaNet.UdpOutcomes
open MegaNet.Core TcpEmission TcpConnection TcpTurns TcpSetRuns

variable {net after : MnNetFull}

/-! ## Sockets by port -/

theorem socketOn_some {sock : Fin 4 → MnUdpSock} {port : UInt16} {i : Fin 4}
    (found : socketOn sock port = some i) :
    (sock i).port = port := by
  have here := List.find?_some found
  simpa using here

theorem socketOn_none {sock : Fin 4 → MnUdpSock} {port : UInt16} :
    socketOn sock port = none ↔ ∀ i, (sock i).port ≠ port := by
  simp [socketOn, List.find?_eq_none]

@[simp] theorem setSock_self (net : MnNetFull) (i : Fin 4) (s : MnUdpSock) :
    (net.setSock i s).sock i = s := by
  simp [MnNetFull.setSock]

theorem setSock_other (net : MnNetFull) (s : MnUdpSock) {i j : Fin 4} (differ : j ≠ i) :
    (net.setSock i s).sock j = net.sock j := by
  simp [MnNetFull.setSock, differ]

@[simp] theorem setSock_toMnNet (net : MnNetFull) (i : Fin 4) (s : MnUdpSock) :
    (net.setSock i s).toMnNet = net.toMnNet := rfl

@[simp] theorem setSock_posted (net : MnNetFull) (i : Fin 4) (s : MnUdpSock) :
    (net.setSock i s).posted = net.posted := rfl

/-- Opening a port: the socket given out was closed and nobody else is on the
port, or the port is taken or no socket free. -/
inductive Opening (net : MnNetFull) (port : UInt16) : UInt8 × MnNetFull → Prop where
  | opens (i : Fin 4) (free : (net.sock i).port = 0) (alone : ∀ j, (net.sock j).port ≠ port) :
      Opening net port (UInt8.ofNat i, net.setSock i { net.sock i with port, pending := false })
  | refused (why : (∃ j, (net.sock j).port = port) ∨ ∀ j, (net.sock j).port ≠ 0) :
      Opening net port (0xff, net)

theorem udpOpen_opening (net : MnNetFull) (port : UInt16) : Opening net port
    (mnNetUdpOpen net port) := by
  unfold mnNetUdpOpen
  cases taken : socketOn net.sock port with
  | some j => exact .refused (Or.inl ⟨j, socketOn_some taken⟩)
  | none =>
    cases free : socketOn net.sock 0 with
    | some i => exact .opens i (socketOn_some free) (socketOn_none.mp taken)
    | none => exact .refused (Or.inr (socketOn_none.mp free))

theorem open_toMnNet (net : MnNetFull) (port : UInt16) : (mnNetUdpOpen net port).2.toMnNet =
    net.toMnNet := by
  have opening := udpOpen_opening net port
  generalize mnNetUdpOpen net port = out at opening
  cases opening <;> rfl

/-- A socket closed. -/
def shut (s : MnUdpSock) : MnUdpSock := { s with port := 0, pending := false }

theorem udpClose_cases (net : MnNetFull) (s : UInt8) :
    (4 ≤ s.toNat ∧ mnNetUdpClose net s = net) ∨
      ∃ i : Fin 4, s.toNat = i ∧ mnNetUdpClose net s = net.setSock i (shut (net.sock i)) := by
  unfold mnNetUdpClose
  split
  · exact Or.inr ⟨⟨s.toNat, ‹_›⟩, rfl, rfl⟩
  · exact Or.inl ⟨by omega, rfl⟩

theorem close_toMnNet (net : MnNetFull) (s : UInt8) : (mnNetUdpClose net s).toMnNet = net.toMnNet := by
  obtain ⟨_, same⟩ | ⟨_, _, same⟩ := udpClose_cases net s <;> rw [same]
  rfl

/-- A socket that was given out is none of the numbers that mean there is none. -/
theorem given (i : Fin 4) : UInt8.ofNat i ≠ 0xff ∧ (UInt8.ofNat i).toNat = i := by
  revert i
  decide

theorem index_inj {i j : Fin 4} : UInt8.ofNat i = UInt8.ofNat j ↔ i = j := by
  revert i j
  decide

/-- Closing a socket clears its port, if there is such a socket. -/
theorem close_ports (net : MnNetFull) (s : UInt8) (j : Fin 4) :
    ((mnNetUdpClose net s).sock j).port = if UInt8.ofNat j = s then 0 else (net.sock j).port := by
  obtain ⟨past, same⟩ | ⟨i, here, same⟩ := udpClose_cases net s <;> rw [same]
  · rw [if_neg]
    rintro rfl
    rw [(given j).2] at past
    exact absurd j.isLt (by omega)
  · have is : UInt8.ofNat j = s ↔ j = i := by
      rw [← UInt8.toNat_inj, (given j).2, here]
      exact Fin.val_inj
    by_cases same : j = i
    · rw [if_pos (is.mpr same), same, setSock_self]
      rfl
    · rw [if_neg fun other => same (is.mp other), setSock_other _ _ same]

theorem close_posted (net : MnNetFull) (s : UInt8) : (mnNetUdpClose net s).posted = net.posted := by
  obtain ⟨_, same⟩ | ⟨i, _, same⟩ := udpClose_cases net s <;> rw [same]
  exact setSock_posted ..

/-- No socket can be had on a port: it is taken, or none is free. -/
def CannotOpen (net : MnNetFull) (port : UInt16) : Prop :=
  (∃ j, (net.sock j).port = port) ∨ ∀ j, (net.sock j).port ≠ 0

/-- The socket `i` opened on a port. -/
def opened (net : MnNetFull) (i : Fin 4) (port : UInt16) : MnNetFull :=
  net.setSock i { net.sock i with port, pending := false }

theorem asks_open {net : MnNetFull} {port : UInt16} {i : Fin 4} (free : (net.sock i).port = 0)
    (alone : ∀ j, (net.sock j).port ≠ port) : ¬ CannotOpen net port := by
  rintro (⟨j, taken⟩ | full)
  · exact alone j taken
  · exact full i free

/-- The layer once an earlier socket is given back. -/
def givenBack (sock : UInt8) (net : MnNetFull) : MnNetFull :=
  if sock ≠ 0xff then mnNetUdpClose net sock else net

theorem givenBack_toMnNet (sock : UInt8) (net : MnNetFull) :
    (givenBack sock net).toMnNet = net.toMnNet := by
  unfold givenBack
  split
  · exact close_toMnNet net sock
  · rfl

theorem givenBack_ports (sock : UInt8) (net : MnNetFull) (j : Fin 4) :
    ((givenBack sock net).sock j).port = if UInt8.ofNat j = sock then 0 else (net.sock j).port := by
  unfold givenBack
  split
  · exact close_ports net sock j
  · rename_i gone
    rw [not_not] at gone
    rw [gone, if_neg (given j).1]

/-- Receiving: nothing waits, or the mailbox is emptied. -/
inductive Reception (net : MnNetFull) (x : XMem) (s : UInt8) (cap : UInt16) :
    Option Received × MnNetFull → Prop where
  | nothing (empty : ∀ i : Fin 4, s.toNat = i → (net.sock i).pending = false) :
      Reception net x s cap (none, net)
  | datagram (i : Fin 4) (here : s.toNat = i) (waits : (net.sock i).pending = true) :
      Reception net x s cap
        (some ⟨mnXmemRead x (net.sock i).xseg (net.sock i).xoff
            (if (net.sock i).len > cap then cap else (net.sock i).len), (net.sock i).srcIp,
              (net.sock i).srcPort⟩,
          net.setSock i { net.sock i with pending := false })

theorem udpRecv_reception (net : MnNetFull) (x : XMem) (s : UInt8) (cap : UInt16) :
    Reception net x s cap (mnNetUdpRecv net x s cap) := by
  unfold mnNetUdpRecv
  split
  · rename_i inside
    dsimp only
    split
    · rename_i empty
      exact .nothing fun i here => by
        have same : i = ⟨s.toNat, inside⟩ := Fin.ext here.symm
        rw [same]
        simpa using empty
    · rename_i waits
      exact .datagram ⟨s.toNat, inside⟩ rfl (by simpa using waits)
  · rename_i past
    exact .nothing fun i here => absurd i.isLt (by omega)

theorem recv_toMnNet (net : MnNetFull) (x : XMem) (s : UInt8) (cap : UInt16) :
    (mnNetUdpRecv net x s cap).2.toMnNet = net.toMnNet := by
  have reception := udpRecv_reception net x s cap
  generalize mnNetUdpRecv net x s cap = out at reception
  cases reception <;> rfl

/-- With an empty mailbox nothing is received. -/
theorem recv_empty {net : MnNetFull} {s : UInt8}
    (empty : ∀ i : Fin 4, s.toNat = i → (net.sock i).pending = false)
    (x : XMem) (cap : UInt16) : mnNetUdpRecv net x s cap = (none, net) := by
  have reception := udpRecv_reception net x s cap
  generalize mnNetUdpRecv net x s cap = out at reception
  cases reception with
  | nothing => rfl
  | datagram i here waits =>
    rw [empty i here] at waits
    cases waits

/-! ## Sending -/

/-- One state of the layer follows another by sending: what was asked for is on
record, and sockets and routes are as before. -/
structure Posts (net after : MnNetFull) (sent : List Datagram) : Prop where
  routes : SameRoutes net.toMnNet after.toMnNet
  sock : after.sock = net.sock
  posted : after.posted = net.posted ++ sent

/-- A datagram is put off exactly when its next hop is unknown. -/
theorem sendUdp_spec (net : MnNetFull) (dst : Ip4) (sport dport : UInt16) (payload : List UInt8) :
    Posts net (mnNetSendUdp net dst sport dport payload).2 [⟨dst, sport, dport, payload⟩] ∧
      (payload.length ≤ MN_UDP_MAX_PAYLOAD →
        ((mnNetSendUdp net dst sport dport payload).1 = .pending ↔ ¬ net.toMnNet.Resolves dst)) := by
  unfold mnNetSendUdp
  dsimp only
  split
  · exact ⟨⟨SameRoutes.refl _, rfl, rfl⟩, fun short => absurd short (by omega)⟩
  · obtain ⟨known, mac, begun⟩ | ⟨unknown, begun⟩ := tx_begin_spec net.toMnNet dst
    · rw [begun]
      obtain ⟨_, same, result⟩ := send_spec { net.toMnNet with ipId := net.ipId + 1 }
        (.udp mac net.nif.mac net.ip dst net.ipId sport dport payload)
      have kept : SameRoutes net.toMnNet _ :=
        ⟨same.mac, same.accepts, same.ip, same.mask, same.gw, same.arp⟩
      refine ⟨⟨kept, rfl, rfl⟩, fun _ => ?_⟩
      dsimp only
      rw [result]
      split <;> simp [known]
    · rw [begun]
      obtain ⟨_, same, _⟩ :=
        send_spec net.toMnNet (.arpRequest net.nif.mac net.ip (mnNetNextHop net.toMnNet dst))
      exact ⟨⟨same, rfl, rfl⟩, fun _ => by simp [unknown]⟩

/-- What a send hands to the link: nothing if the payload is too long, the
question for an unknown next hop, or the datagram. -/
inductive Posting (net : MnNetFull) (dst : Ip4) (sport dport : UInt16) (payload : List UInt8) :
    MnNetFull → Prop where
  | tooLong (after : MnNetFull) (long : MN_UDP_MAX_PAYLOAD < payload.length)
      (same : after.toMnNet = net.toMnNet) :
      Posting net dst sport dport payload after
  | asked (after : MnNetFull) (fits : payload.length ≤ MN_UDP_MAX_PAYLOAD)
      (unknown : ¬ net.toMnNet.Resolves dst)
      (queued : Bool) (routes : SameRoutes net.toMnNet after.toMnNet)
      (handed : Handed net.toMnNet after.toMnNet
        [(.arpRequest net.nif.mac net.ip (mnNetNextHop net.toMnNet dst), queued)]) :
      Posting net dst sport dport payload after
  | sent (after : MnNetFull) (fits : payload.length ≤ MN_UDP_MAX_PAYLOAD)
      (known : net.toMnNet.Resolves dst) (mac : Mac)
      (begun : (mnNetTxBegin net.toMnNet dst).1 = .ok mac) (queued : Bool)
      (routes : SameRoutes net.toMnNet after.toMnNet)
      (handed : Handed net.toMnNet after.toMnNet
        [(.udp mac net.nif.mac net.ip dst net.ipId sport dport payload, queued)]) :
      Posting net dst sport dport payload after

theorem sendUdp_posting (net : MnNetFull) (dst : Ip4) (sport dport : UInt16) (payload : List UInt8) :
    Posting net dst sport dport payload (mnNetSendUdp net dst sport dport payload).2 := by
  unfold mnNetSendUdp
  dsimp only
  split
  · exact .tooLong _ ‹_› rfl
  rename_i fits
  obtain ⟨known, mac, begun⟩ | ⟨unknown, begun⟩ := tx_begin_spec net.toMnNet dst
  · obtain ⟨handed, same, _⟩ := send_spec { net.toMnNet with ipId := net.ipId + 1 }
      (.udp mac net.nif.mac net.ip dst net.ipId sport dport payload)
    rw [begun]
    exact .sent _ (not_lt.mp fits) known mac (congrArg Prod.fst begun) _
      ⟨same.mac, same.accepts, same.ip, same.mask, same.gw, same.arp⟩ handed
  · obtain ⟨handed, same, _⟩ :=
      send_spec net.toMnNet (.arpRequest net.nif.mac net.ip (mnNetNextHop net.toMnNet dst))
    rw [begun]
    exact .asked _ (not_lt.mp fits) unknown _ same handed

/-! ## Polling -/

/-- What a received frame leaves of the layer: addresses, configuration, and the
record of what was sent. -/
structure SameSetup (before after : MnNetFull) : Prop where
  mac : after.nif.mac = before.nif.mac
  ip : after.ip = before.ip
  mask : after.mask = before.mask
  gw : after.gw = before.gw
  posted : after.posted = before.posted

theorem SameSetup.refl (net : MnNetFull) : SameSetup net net := ⟨rfl, rfl, rfl, rfl, rfl⟩

private theorem reply_setup (net : MnNetFull) (frame : Frame) :
    SameSetup net (net.reply frame) ∧ (net.reply frame).sock = net.sock := by
  have same := (send_spec net.toMnNet frame).2.1
  exact ⟨⟨same.mac, same.ip, same.mask, same.gw, rfl⟩, rfl⟩

private theorem arpInput_setup (net : MnNetFull) (frame : List UInt8) (len : UInt16) :
    SameSetup net (arpInput net frame len) ∧ (arpInput net frame len).sock = net.sock := by
  unfold arpInput
  split
  · exact ⟨⟨rfl, rfl, rfl, rfl, rfl⟩, rfl⟩
  split
  · obtain ⟨same, sock⟩ := reply_setup { net with
      arp := mnArpCacheLearn net.arp (mnArpSenderIp frame) (mnArpSenderMac frame) }
      (.arpReply net.nif.mac net.ip (mnArpSenderMac frame) (mnArpSenderIp frame))
    exact ⟨⟨same.mac, same.ip, same.mask, same.gw, same.posted⟩, sock⟩
  · exact ⟨SameSetup.refl net, rfl⟩

/-- The packet of a frame that reaches `deliver_udp`. -/
def delivered (net : MnNetFull) (f : RxFrame) : Option (List UInt8) :=
  let ip := f.bytes.drop 14
  if f.len < 14 || !mnEtherIsForUs f.bytes net.nif.mac then none
  else if mnEtherType f.bytes ≠ MN_ETHERTYPE_IPV4 then none
  else if f.len < 34 || !mnIpv4Valid ip (f.len - 14) || !ipAccepts net ip then none
  else if mnIpv4Proto ip ≠ MN_IPPROTO_UDP then none
  else some ip

/-- The layer with one more frame counted. -/
def counted (net : MnNetFull) : MnNetFull := { net with rxFrames := net.rxFrames + 1 }

/-- What a frame comes to: a packet for the UDP sockets, one for TCP, or nothing
that either sees. -/
inductive Intake (st : Stack) (f : RxFrame) : Stack → Prop where
  | udp (ip : List UInt8) (reaches : delivered st.net f = some ip) :
      Intake st f { st with
        net := (deliverUdp (counted st.net) st.x ip).1, x := (deliverUdp (counted st.net) st.x ip).2 }
  | tcp (ip : List UInt8) (elsewhere : delivered st.net f = none) :
      Intake st f ({ st with net := counted st.net }.tcpInput ip)
  | other (after : MnNetFull) (elsewhere : delivered st.net f = none) (setup : SameSetup st.net after)
      (sock : after.sock = st.net.sock) : Intake st f { st with net := after }

private theorem ipInput_intake (st : Stack) (f : RxFrame)
    (ours : ¬ f.len < 14 ∧ mnEtherIsForUs f.bytes st.net.nif.mac = true)
    (ipv4 : mnEtherType f.bytes = MN_ETHERTYPE_IPV4) :
    Intake st f ({ st with net := counted st.net }.ipInput f.bytes f.len) := by
  have packet : delivered st.net f =
      if f.len < 34 || !mnIpv4Valid (f.bytes.drop 14) (f.len - 14) || !ipAccepts st.net
        (f.bytes.drop 14) then none
      else if mnIpv4Proto (f.bytes.drop 14) ≠ MN_IPPROTO_UDP then none
      else some (f.bytes.drop 14) := by
    simp [delivered, ours, ipv4]
  have counts : SameSetup st.net (counted st.net) := ⟨rfl, rfl, rfl, rfl, rfl⟩
  unfold Stack.ipInput
  dsimp only
  rw [show ipAccepts (counted st.net) (f.bytes.drop 14) = ipAccepts st.net (f.bytes.drop 14) from rfl]
  by_cases refused : (f.len < 34 || !mnIpv4Valid (f.bytes.drop 14) (f.len - 14) ||
      !ipAccepts st.net (f.bytes.drop 14)) = true
  · rw [if_pos refused] at packet ⊢
    exact .other _ packet counts rfl
  rw [if_neg refused] at packet ⊢
  by_cases udp : mnIpv4Proto (f.bytes.drop 14) = MN_IPPROTO_UDP
  · rw [if_neg (not_not.mpr udp)] at packet
    rw [if_neg (by rw [udp]; decide), if_pos udp]
    exact .udp _ packet
  rw [if_pos udp] at packet
  by_cases icmp : mnIpv4Proto (f.bytes.drop 14) = MN_IPPROTO_ICMP
  · rw [if_pos icmp]
    split
    · obtain ⟨same, sock⟩ := reply_setup (counted st.net) (echoReply (counted st.net) f.bytes)
      exact .other _ packet ⟨same.mac, same.ip, same.mask, same.gw, same.posted⟩ sock
    · exact .other _ packet counts rfl
  rw [if_neg icmp, if_neg udp]
  split
  · exact .tcp _ packet
  · exact .other _ packet counts rfl

theorem poll_intake (st : Stack) (f : RxFrame) : Intake st f (mnNetPoll st (some f)) := by
  unfold mnNetPoll
  dsimp only
  by_cases stray : (f.len < 14 || !mnEtherIsForUs f.bytes st.net.nif.mac) = true
  · rw [if_pos stray]
    exact .other (counted st.net) (by simp only [delivered, stray, if_true])
      ⟨rfl, rfl, rfl, rfl, rfl⟩ rfl
  rw [if_neg stray]
  by_cases arp : mnEtherType f.bytes = MN_ETHERTYPE_ARP
  · rw [if_pos arp]
    have elsewhere : delivered st.net f = none := by
      simp [delivered, stray, arp, show MN_ETHERTYPE_ARP ≠ MN_ETHERTYPE_IPV4 by decide]
    obtain ⟨setup, sock⟩ := arpInput_setup (counted st.net) f.bytes f.len
    exact .other _ elsewhere ⟨setup.mac, setup.ip, setup.mask, setup.gw, setup.posted⟩ sock
  rw [if_neg arp]
  by_cases ipv4 : mnEtherType f.bytes = MN_ETHERTYPE_IPV4
  · rw [if_pos ipv4]
    exact ipInput_intake st f (by simpa using stray) ipv4
  · rw [if_neg ipv4]
    exact .other (counted st.net) (by simp [delivered, stray, ipv4]) ⟨rfl, rfl, rfl, rfl, rfl⟩ rfl

/-- A socket with a datagram of `len` bytes in its mailbox. -/
def mailed (s : MnUdpSock) (ip : List UInt8) : MnUdpSock :=
  { s with
    len := mnIpv4PayloadLen ip - 8, srcIp :=
      mnIpv4Src ip, srcPort := mnUdpSport (mnIpv4Payload ip), pending := true }

/-- What fits a mailbox has no more than its 576 bytes. -/
theorem fits_toNat {n : UInt16} : ¬ n > MN_UDP_SOCK_BUF ↔ n.toNat ≤ 576 := by
  rw [gt_iff_lt, UInt16.lt_iff_toNat_lt, show MN_UDP_SOCK_BUF.toNat = 576 from rfl, not_lt]

/-- The datagram in a packet passes `mn_udp_valid`. -/
def validUdp (ip : List UInt8) : Bool :=
  mnUdpValid (mnIpv4Src ip) (mnIpv4Dst ip) (mnIpv4Payload ip) (mnIpv4PayloadLen ip)

/-- What delivering a packet's datagram comes to. -/
inductive Delivery (net : MnNetFull) (x : XMem) (ip : List UInt8) : MnNetFull × XMem → Prop where
  | invalid (bad : validUdp ip = false) : Delivery net x ip (net, x)
  | dropped (why : ∀ i, socketOn net.sock (mnUdpDport (mnIpv4Payload ip)) = some i →
      (net.sock i).pending = true ∨ mnIpv4PayloadLen ip - 8 > MN_UDP_SOCK_BUF) :
      Delivery net x ip ({ net with udpDropped := net.udpDropped + 1 }, x)
  | mailed (i : Fin 4) (valid : validUdp ip = true)
      (found : socketOn net.sock (mnUdpDport (mnIpv4Payload ip)) = some i)
      (empty : (net.sock i).pending = false)
      (fits : ¬ mnIpv4PayloadLen ip - 8 > MN_UDP_SOCK_BUF) :
      Delivery net x ip
        ({ net.setSock i (mailed (net.sock i) ip) with udpRx := net.udpRx + 1 },
          mnXmemWrite x (net.sock i).xseg (net.sock i).xoff ((mnIpv4Payload ip).drop 8)
            (mnIpv4PayloadLen ip - 8))

theorem deliverUdp_delivery (net : MnNetFull) (x : XMem) (ip : List UInt8) :
    Delivery net x ip (deliverUdp net x ip) := by
  unfold deliverUdp
  dsimp only
  split
  · rename_i bad
    exact .invalid (by simpa [validUdp] using bad)
  rename_i valid
  rw [Bool.not_eq_true', Bool.not_eq_false] at valid
  cases found : socketOn net.sock (mnUdpDport (mnIpv4Payload ip)) with
  | none => exact .dropped fun i there => by rw [found] at there; cases there
  | some i =>
    dsimp only
    split
    · rename_i full
      refine .dropped fun j there => ?_
      rw [found] at there
      cases there
      simpa using full
    · rename_i room
      simp only [Bool.or_eq_true, decide_eq_true_eq, not_or, Bool.not_eq_true] at room
      exact .mailed i valid found room.1 room.2

theorem deliverUdp_toMnNet (net : MnNetFull) (x : XMem) (ip : List UInt8) :
    (deliverUdp net x ip).1.toMnNet = net.toMnNet := by
  have delivery := deliverUdp_delivery net x ip
  generalize deliverUdp net x ip = out at delivery
  cases delivery <;> rfl

/-- What TCP does with a packet it does to its set and the pool, and it
transmits; the rest of the layer is as before. -/
theorem tcpInput_spec (st : Stack) (ip : List UInt8) :
    SameSetup st.net (st.tcpInput ip).net ∧ (st.tcpInput ip).net.sock = st.net.sock ∧
      ((st.tcpInput ip).tcp = st.tcp ∧ (st.tcpInput ip).x = st.x ∨
        ∃ set event, st.tcp = some set ∧
          (st.tcpInput ip).tcp = some ((⟨set, st.x⟩ : World).exec st.net.toMnNet event).1.set ∧
          (st.tcpInput ip).x = ((⟨set, st.x⟩ : World).exec st.net.toMnNet event).1.x) := by
  unfold Stack.tcpInput
  cases attached : st.tcp with
  | none => exact ⟨SameSetup.refl _, rfl, Or.inl ⟨attached, rfl⟩⟩
  | some set =>
    dsimp only
    split
    · have same := (input_transmits set st.x st.net.toMnNet (mnIpv4Src ip)
        (tcpSegment (mnIpv4Payload ip) (mnIpv4PayloadLen ip))).routes
      exact ⟨⟨same.mac, same.ip, same.mask, same.gw, rfl⟩, rfl, Or.inr ⟨set, .input (mnIpv4Src ip)
        (tcpSegment (mnIpv4Payload ip) (mnIpv4PayloadLen ip)), rfl, rfl, rfl⟩⟩
    · exact ⟨SameSetup.refl _, rfl, Or.inl ⟨attached, rfl⟩⟩

/-- Nor does it open or close a socket. -/
theorem poll_ports (st : Stack) (f : Option RxFrame) (j : Fin 4) :
    ((mnNetPoll st f).net.sock j).port = (st.net.sock j).port := by
  cases f with
  | none => rfl
  | some f =>
    have intake := poll_intake st f
    generalize mnNetPoll st (some f) = after at intake
    cases intake with
    | udp ip =>
      have delivery := deliverUdp_delivery (counted st.net) st.x ip
      generalize deliverUdp (counted st.net) st.x ip = out at delivery
      cases delivery with
      | invalid | dropped => rfl
      | mailed i =>
        by_cases same : j = i
        · have here := congrArg MnUdpSock.port
            (setSock_self (counted st.net) i (mailed (st.net.sock i) ip))
          rw [same]
          exact here
        · exact congrArg MnUdpSock.port (setSock_other (counted st.net) (mailed (st.net.sock i) ip) same)
    | tcp ip => rw [(tcpInput_spec { st with net := counted st.net } ip).2.1]; rfl
    | other after _ _ sock => exact congrArg (fun sock => (sock j).port) sock

/-! ## Concrete cases -/

def closedSock : MnUdpSock :=
  { port := 0, pending := false, srcIp := zeroIp, srcPort := 0, len := 0, xseg := 0, xoff := 0 }

/-- A layer over `net`, its four sockets closed. -/
def layerOver (net : MnNet) : MnNetFull :=
  mnNetSetPool
    { toMnNet := net
      sock := fun _ => closedSock
      rxFrames := 0, arpReplies := 0, arpLearned := 0, echoReplies := 0, udpRx := 0, udpDropped := 0 }
    0x800e000

end MegaNet.UdpOutcomes
