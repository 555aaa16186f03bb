import MegaNet.DhcpOutcomes
import MegaNet.Lookups
import MegaNet.Transition

/-! The UDP sockets that the DHCP, the DNS and the NTP client share: what each
call does to the caller's socket, and over whole runs that whoever holds one is
still waiting for something, as long as no malformed name is looked up. -/
namespace MegaNet.UdpBorrowing
open MegaNet.Core Transition TcpEmission TcpConnection UdpOutcomes DhcpOutcomes Lookups

variable {net net' after : MnNetFull} {x : XMem} {now : UInt16} {sock sock' : UInt8}
  {port port' : UInt16}

/-! ## What a call does to the caller's socket -/

/-- Every socket has the port it had. -/
def SamePorts (before after : MnNetFull) : Prop := ∀ j, (after.sock j).port = (before.sock j).port

theorem SamePorts.trans {net₁ net₂ net₃ : MnNetFull} (first : SamePorts net₁ net₂)
    (second : SamePorts net₂ net₃) :
    SamePorts net₁ net₃ := fun j => (second j).trans (first j)

theorem samePorts_of_sock (same : after.sock = net.sock) : SamePorts net after := fun j => by rw [same]

/-- A socket changed in all but its port. -/
theorem setSock_samePorts (net : MnNetFull) (i : Fin 4) (s : MnUdpSock)
    (same : s.port = (net.sock i).port) :
    SamePorts net (net.setSock i s) := by
  intro j
  by_cases here : j = i
  · rw [here, setSock_self, same]
  · rw [setSock_other _ _ here]

/-- A call keeps the caller's socket, or gives it back, or gives it back and
takes a closed one for a port of its own. The others are left alone. -/
inductive Effect (sock : UInt8) (port : UInt16) (net : MnNetFull) : UInt8 → UInt16 →
    MnNetFull → Prop where
  | keeps {after : MnNetFull} (same : SamePorts net after) : Effect sock port net sock port after
  | returns {port' : UInt16} {after : MnNetFull} (same : SamePorts (givenBack sock net) after) :
      Effect sock port net 0xff port' after
  | takes {port' : UInt16} {after : MnNetFull} (i : Fin 4) (some_ : port' ≠ 0)
      (free : ((givenBack sock net).sock i).port = 0)
      (same : SamePorts (opened (givenBack sock net) i port') after) :
      Effect sock port net (UInt8.ofNat i) port' after

theorem Effect.congr (effect : Effect sock port net sock' port' net') (same : SamePorts net' after) :
    Effect sock port net sock' port' after := by
  cases effect with
  | keeps kept => exact .keeps (kept.trans same)
  | returns kept => exact .returns (kept.trans same)
  | takes i some_ free kept => exact .takes i some_ free (kept.trans same)

private theorem opened_ports (net : MnNetFull) (i : Fin 4) (port : UInt16) (j : Fin 4) :
    ((opened net i port).sock j).port = if j = i then port else (net.sock j).port := by
  unfold opened
  split
  · rename_i same
    rw [same, setSock_self]
  · rename_i other
    rw [setSock_other _ _ other]

/-- Whatever else of the layer was changed before the call. -/
theorem Effect.before (effect : Effect sock port net' sock' port' after) (same : SamePorts net net') :
    Effect sock port net sock' port' after := by
  have back : SamePorts (givenBack sock net) (givenBack sock net') := fun j => by
    rw [givenBack_ports, givenBack_ports, same j]
  cases effect with
  | keeps kept => exact .keeps (same.trans kept)
  | returns kept => exact .returns (back.trans kept)
  | takes i some_ free kept =>
    refine .takes i some_ ((back i).symm.trans free) fun j => (kept j).trans ?_
    rw [opened_ports, opened_ports, back j]

/-- The caller's socket, if it has one, is open on its port. -/
def Holding (net : MnNetFull) (sock : UInt8) (port : UInt16) : Prop :=
  sock ≠ 0xff → ∃ i : Fin 4, sock = UInt8.ofNat i ∧ (net.sock i).port = port ∧ port ≠ 0

/-- A call leaves its caller holding what it says it holds. -/
theorem Effect.holding (effect : Effect sock port net sock' port' after)
    (holding : Holding net sock port) :
    Holding after sock' port' := by
  cases effect with
  | keeps same =>
    intro some_
    obtain ⟨i, here, there, used⟩ := holding some_
    exact ⟨i, here, (same i).trans there, used⟩
  | returns => exact fun none_ => absurd rfl none_
  | takes i some_ _ same =>
    refine fun _ => ⟨i, rfl, ?_, some_⟩
    rw [same i, opened_ports, if_pos rfl]

/-- And everybody else's sockets as they were. -/
theorem Effect.other (effect : Effect sock port net sock' port' after) {j : Fin 4}
    (used : (net.sock j).port ≠ 0)
    (other : UInt8.ofNat j ≠ sock) : (after.sock j).port = (net.sock j).port ∧
      UInt8.ofNat j ≠ sock' := by
  have back : ((givenBack sock net).sock j).port = (net.sock j).port := by
    rw [givenBack_ports, if_neg other]
  cases effect with
  | keeps same => exact ⟨same j, other⟩
  | returns same => exact ⟨(same j).trans back, (given j).1⟩
  | takes i _ free same =>
    have apart : j ≠ i := by
      rintro rfl
      exact used (back.symm.trans free)
    refine ⟨?_, fun taken => apart (index_inj.mp taken)⟩
    rw [same j, opened_ports, if_neg apart, back]

/-- A socket that is open after a call is the caller's, or was open before and
is not the one the caller had. -/
theorem Effect.open_after (effect : Effect sock port net sock' port' after) {j : Fin 4}
    (used : (after.sock j).port ≠ 0) (other : UInt8.ofNat j ≠ sock') :
    (net.sock j).port ≠ 0 ∧ UInt8.ofNat j ≠ sock := by
  have back : ((givenBack sock net).sock j).port ≠ 0 → (net.sock j).port ≠ 0 ∧ UInt8.ofNat j ≠ sock := by
    rw [givenBack_ports]
    split
    · exact fun none_ => absurd rfl none_
    · rename_i apart
      exact fun used => ⟨used, apart⟩
  cases effect with
  | keeps same => exact ⟨by rwa [← same j], other⟩
  | returns same => exact back (by rwa [← same j])
  | takes i _ _ same =>
    have apart : j ≠ i := fun here => other (index_inj.mpr here)
    rw [same j, opened_ports, if_neg apart] at used
    exact back used

theorem close_returns (sock : UInt8) (port port' : UInt16) (net : MnNetFull) :
    Effect sock port net 0xff port' (mnNetUdpClose net sock) :=
  .returns fun j => by rw [close_ports, givenBack_ports]

/-! ## The DHCP client -/

/-- The states in which the DHCP client has a use for a socket. -/
def DhcpBusy (d : Dhcp.MnDhcp) : Prop :=
  d.state = .selecting ∨ d.state = .requesting ∨
    (d.state = .bound ∧ (d.phase = .renewing ∨ d.phase = .rebinding))

/-- A call of the DHCP client: its effect, and that it leaves it busy or
without a socket. -/
def DhcpCall (d : Dhcp.MnDhcp) (net : MnNetFull) (out : Dhcp.MnDhcp × MnNetFull) : Prop :=
  Effect d.sock 68 net out.1.sock 68 out.2 ∧ (out.1.sock ≠ 0xff → DhcpBusy out.1)

private theorem sends_samePorts {d : Dhcp.MnDhcp} {type : UInt8} {out : Dhcp.MnDhcp × MnNetFull}
    (sends : Sends d net type now out) :
    out.1.sock = d.sock ∧ out.1.state = d.state ∧ out.1.phase = d.phase ∧ SamePorts net out.2 := by
  cases sends with
  | sends _ _ posts => exact ⟨rfl, rfl, rfl, samePorts_of_sock posts.sock⟩

private theorem reopened_effect (reopened : Reopened net sock sock' net') :
    Effect sock 68 net sock' 68 net' := by
  cases reopened with
  | kept => exact .keeps fun _ => rfl
  | refused gone =>
    subst gone
    exact .keeps fun _ => rfl
  | opens gone i free =>
    have back : givenBack sock net = net := if_neg (not_not.mpr gone)
    exact .takes i (by decide) (by rw [back]; exact free) (by rw [back]; exact fun _ => rfl)

section
variable {d d' : Dhcp.MnDhcp} {msg : Option (UInt8 × List UInt8)} {out : Dhcp.MnDhcp × MnNetFull}

/-- Setting the address leaves the sockets alone. -/
theorem setIp_samePorts (net : MnNetFull) (ip mask gw : Ip4) : SamePorts net
    (mnNetSetIp net ip mask gw) := fun _ => rfl

private theorem opening_effect {out : UInt8 × MnNetFull}
    (opening : Opening (givenBack sock net) port' out)
    (some_ : port' ≠ 0) : Effect sock port net out.1 port' out.2 := by
  cases opening with
  | refused => exact .returns fun _ => rfl
  | opens i free => exact .takes i some_ free fun _ => rfl

theorem dhcpStart_call (d : Dhcp.MnDhcp) (net : MnNetFull) (now : UInt16) :
    DhcpCall d net (Dhcp.mnDhcpStart d net now) := by
  obtain ⟨sock, net', opening, sends⟩ := start_sends d net now
  obtain ⟨here, state, _, same⟩ := sends_samePorts sends
  refine ⟨?_, fun _ => Or.inl state⟩
  rw [here]
  exact ((opening_effect opening (by decide)).before
    (setIp_samePorts net zeroIp zeroIp zeroIp)).congr same

private theorem loses_call (loses : Loses d net now out) : DhcpCall d net out := by
  obtain ⟨sock, net', reopened, sends⟩ := loses
  obtain ⟨here, state, _, same⟩ := sends_samePorts sends
  refine ⟨?_, fun _ => Or.inl state⟩
  rw [here]
  exact ((reopened_effect reopened).before (setIp_samePorts net zeroIp zeroIp zeroIp)).congr same

private theorem renews_call (bound : d.state = .bound) (renews : Renews d net now out) :
    DhcpCall d net out := by
  obtain ⟨sock, net', sent, reopened, sends, rfl⟩ := renews
  obtain ⟨here, state, phase, same⟩ := sends_samePorts sends
  refine ⟨?_, fun _ => Or.inr (Or.inr ⟨state.trans bound, ?_⟩)⟩
  · dsimp only
    rw [here]
    exact (reopened_effect reopened).congr same
  · dsimp only
    rw [phase]
    dsimp only
    split
    · exact Or.inr rfl
    · exact Or.inl rfl

/-- Granting a lease takes no socket. -/
theorem granted_sock (d : Dhcp.MnDhcp) (now : UInt16) : (Dhcp.granted d now).sock = d.sock := by
  unfold Dhcp.granted
  dsimp only
  split <;> rfl

private theorem acquires_call (busy : d.state = .selecting ∨ d.state = .requesting)
    (acquires : Acquires msg d net now out) :
    DhcpCall d net out := by
  have sent : ∀ {d' : Dhcp.MnDhcp} {type : UInt8} {out : Dhcp.MnDhcp × MnNetFull},
    Sends d' net type now out →
      d'.sock = d.sock → d'.state = .selecting ∨ d'.state = .requesting → DhcpCall d net out := by
    intro d' type out sends same on
    obtain ⟨here, state, _, ports⟩ := sends_samePorts sends
    refine ⟨?_, fun _ => ?_⟩
    · rw [here, same]
      exact .keeps ports
    · unfold DhcpBusy
      rw [state]
      exact on.imp_right Or.inl
  cases acquires with
  | offer _ _ _ sends => exact sent sends rfl (Or.inr rfl)
  | nak _ _ _ sends => exact sent sends rfl (Or.inl rfl)
  | asks _ sends => exact sent sends rfl busy
  | waits => exact ⟨.keeps fun _ => rfl, fun _ => busy.imp_right Or.inl⟩
  | fails => exact ⟨close_returns .., fun none_ => absurd rfl none_⟩
  | ack m =>
    have none_ : (Dhcp.granted { d with sock := 0xff, state := .bound } now).sock = 0xff :=
      granted_sock ..
    refine ⟨?_, fun some_ => absurd none_ some_⟩
    dsimp only
    rw [none_]
    exact (close_returns ..).before (setIp_samePorts net (Dhcp.yiaddr m) d.mask d.gw)

private theorem keeps_call (bound : d.state = .bound) (busy : d.sock ≠ 0xff → DhcpBusy d)
    (keeps : Keeps msg d net now out) :
    DhcpCall d net out := by
  cases keeps with
  | ack =>
    have none_ : (Dhcp.granted { d with sock := 0xff } now).sock = 0xff := granted_sock ..
    refine ⟨?_, fun some_ => absurd none_ some_⟩
    dsimp only
    rw [none_]
    exact close_returns ..
  | nak _ _ loses | expires _ _ loses => exact loses_call loses
  | renews _ _ _ renews => exact renews_call bound renews
  | resends _ _ _ _ sends =>
    obtain ⟨here, state, phase, ports⟩ := sends_samePorts sends
    refine ⟨?_, fun some_ => ?_⟩
    · rw [here]
      exact .keeps ports
    · unfold DhcpBusy at busy ⊢
      rw [here] at some_
      rw [state, phase]
      exact busy some_
  | waits => exact ⟨.keeps fun _ => rfl, busy⟩

/-- A call after hearing is one before it: the sockets are where they were. -/
theorem DhcpCall.heard (call : DhcpCall d' net' out) (sock : d'.sock = d.sock)
    (same : SamePorts net net') :
    DhcpCall d net out :=
  ⟨(sock ▸ call.1).before same, call.2⟩

theorem dhcpPoll_call (busy : d.sock ≠ 0xff → DhcpBusy d) (net : MnNetFull) (x : XMem) (now : UInt16) :
    DhcpCall d net (Dhcp.mnDhcpPoll d net x now) := by
  have polls := poll_polls d net x now
  generalize Dhcp.mnDhcpPoll d net x now = out at polls
  cases polls with
  | rests => exact ⟨.keeps fun _ => rfl, busy⟩
  | acquires on hears acquires =>
    have call := acquires_call (by rw [hears.reread.state]; exact on) acquires
    refine call.heard ?_ hears.rest.2.2
    obtain ⟨_, _, _, _, _, rfl⟩ := hears.reread
    rfl
  | forever =>
    obtain ⟨_, _, _, _, aged⟩ := clockTick_aged d now
    rw [aged]
    exact ⟨.keeps fun _ => rfl, busy⟩
  | keeps on _ hears keeps =>
    have aged := clockTick_aged d now
    have state := hears.reread.state.trans aged.state
    obtain ⟨_, _, _, _, _, rfl⟩ := hears.reread
    refine DhcpCall.heard (keeps_call (state.trans on) ?_ keeps) ?_ hears.rest.2.2
    · obtain ⟨_, _, _, _, same⟩ := aged
      rw [same]
      exact busy
    · obtain ⟨_, _, _, _, same⟩ := aged
      rw [same]

end

/-! ## The DNS and the NTP client -/

section
variable {σ : Type} {client : Client σ} {server : Ip4}

private theorem retry_effect {period : UInt16} {most : UInt8} {a a' : Asker} {over_ : Bool}
    (retry : Retry period most a net now over_ a' after) :
    Effect a.sock a.port net a'.sock a'.port after ∧ (over_ = true → a'.sock = 0xff) := by
  cases retry with
  | waits => exact ⟨.keeps fun _ => rfl, fun off => by cases off⟩
  | gives_up => exact ⟨close_returns .., fun _ => rfl⟩
  | sends _ _ _ _ posts => exact ⟨.keeps (samePorts_of_sock posts.sock), fun off => by cases off⟩

/-- A question's beginning: its effect, and that it waits or has no socket. -/
theorem begins_effect {out : σ × MnNetFull}
    (begins : Begins client (givenBack sock net) port' server now out)
    (some_ : port' ≠ 0) :
    Effect sock port net (client.asker out.1).sock (client.asker out.1).port out.2 ∧
      ((client.asker out.1).sock ≠ 0xff → client.waiting out.1) := by
  cases begins with
  | refused c why over_ none_ =>
    rw [none_]
    exact ⟨.returns fun _ => rfl, fun some_ => absurd rfl some_⟩
  | asks c i r after sent free alone on a blank asker posts =>
    rw [asker, Asker.sent, blank.1, blank.2.2.2]
    exact ⟨.takes i some_ free (samePorts_of_sock posts.sock), fun _ => on⟩

/-- The end of a poll: it waits on, or has failed and given its socket back. -/
theorem retry_call {c c' : σ} {over_ : Bool}
    (retry : Retry client.period client.most (client.asker c) net now over_ (client.asker c') after)
    (next : if over_ then client.failed c' else client.waiting c') :
    Effect (client.asker c).sock (client.asker c).port net (client.asker c').sock
      (client.asker c').port after ∧
      ((client.asker c').sock ≠ 0xff → client.waiting c') ∧ (client.waiting c' ∨ client.failed c') := by
  obtain ⟨effect, given_back⟩ := retry_effect retry
  cases over_ with
  | false => exact ⟨effect, fun _ => next, Or.inl next⟩
  | true => exact ⟨effect, fun some_ => absurd (given_back rfl) some_, Or.inr next⟩

/-- The DNS client has a socket only while it waits, and waits only with a name
it can ask for. -/
structure DnsOrder (d : Dns.MnDns) : Prop where
  held : d.sock ≠ 0xff → d.state = .waiting
  asks : d.state = .waiting → dns.waiting d

theorem dnsStart_call (d : Dns.MnDns) (net : MnNetFull) (name : List UInt8)
    (server : Ip4) (now : UInt16) :
    Effect d.sock d.port net (Dns.mnDnsStart d net name server now).1.sock
      (Dns.mnDnsStart d net name server now).1.port (Dns.mnDnsStart d net name server now).2 := by
  by_cases fine : WellNamed name ∨ CannotOpen (givenBack d.sock net) (dnsPort now)
  · exact (begins_effect (dnsStart_begins d net server now fine) (dnsPort_some now)).1
  · obtain ⟨bad, can⟩ := not_or.mp fine
    obtain ⟨i, free, same⟩ := dnsStart_malformed d net bad server now can
    rw [same]
    exact .takes i (dnsPort_some now) free fun _ => rfl

theorem dnsStart_order (d : Dns.MnDns) (net : MnNetFull) {name : List UInt8}
    (server : Ip4) (now : UInt16)
    (fine : WellNamed name ∨ CannotOpen (givenBack d.sock net) (dnsPort now)) :
    DnsOrder (Dns.mnDnsStart d net name server now).1 := by
  have begins := dnsStart_begins d net server now fine
  generalize Dns.mnDnsStart d net name server now = out at begins
  cases begins with
  | refused c _ failed none_ =>
    have failed : c.state = .failed := failed
    refine ⟨fun some_ => absurd none_ some_, fun on => ?_⟩
    rw [failed] at on
    cases on
  | asks c _ _ _ _ _ _ on => exact ⟨fun _ => on.1, fun _ => on⟩

private theorem dnsRetry_call {d : Dns.MnDns} (on : dns.waiting d) (net : MnNetFull) (now : UInt16) :
    Effect d.sock d.port net (Dns.retry d net now).1.sock (Dns.retry d net now).1.port
      (Dns.retry d net now).2 ∧
      DnsOrder (Dns.retry d net now).1 := by
  obtain ⟨over_, retry, next⟩ := dns_retry on net now
  obtain ⟨effect, held, waits | failed⟩ := retry_call retry next
  · exact ⟨effect, fun some_ => (held some_).1, fun _ => waits⟩
  · refine ⟨effect, fun some_ => (held some_).1, fun on => ?_⟩
    rw [show (Dns.retry d net now).1.state = .failed from failed] at on
    cases on

/-- A datagram changes nothing but the state and the answer. -/
theorem parse_same (d : Dns.MnDns) (m : List UInt8) : ∃ state ip, (Dns.parse d m).2 =
    { d with state, ip } := by
  unfold Dns.parse
  dsimp only
  split_ifs
  · exact ⟨d.state, d.ip, rfl⟩
  · exact ⟨d.state, d.ip, rfl⟩
  · exact ⟨.failed, d.ip, rfl⟩
  · cases Dns.questions m (UInt16.ofNat m.length) (get16 m 4).toNat Dns.HDR_LEN with
    | none => exact ⟨d.state, d.ip, rfl⟩
    | some o =>
      dsimp only
      cases Dns.answers m (UInt16.ofNat m.length) (get16 m 6).toNat o with
      | none => exact ⟨d.state, d.ip, rfl⟩
      | some ip => exact ⟨d.state, ip, rfl⟩

theorem heard_same (d : Dns.MnDns) (m : List UInt8) : ∃ state ip,
    Dns.heard d m = { d with state, ip } := by
  obtain ⟨state, ip, same⟩ := parse_same d m
  unfold Dns.heard
  rw [same]
  split
  · exact ⟨.done, ip, rfl⟩
  · exact ⟨state, ip, rfl⟩

theorem dnsPoll_call {d : Dns.MnDns} (order : DnsOrder d) (net : MnNetFull) (x : XMem) (now : UInt16) :
    Effect d.sock d.port net (Dns.mnDnsPoll d net x now).1.sock (Dns.mnDnsPoll d net x now).1.port
        (Dns.mnDnsPoll d net x now).2 ∧ DnsOrder (Dns.mnDnsPoll d net x now).1 := by
  unfold Dns.mnDnsPoll
  by_cases on : d.state = .waiting
  · rw [if_neg (not_not.mpr on)]
    have asks := order.asks on
    have reception := udpRecv_reception net x d.sock MN_UDP_SOCK_BUF
    generalize mnNetUdpRecv net x d.sock MN_UDP_SOCK_BUF = out at reception
    cases reception with
    | nothing => exact dnsRetry_call asks net now
    | datagram i =>
      dsimp only
      have mailbox := setSock_samePorts net i { net.sock i with pending := false } rfl
      generalize net.setSock i { net.sock i with pending := false } = net' at mailbox
      obtain ⟨state, ip, same⟩ := heard_same d (mnXmemRead x (net.sock i).xseg (net.sock i).xoff
        (if (net.sock i).len > MN_UDP_SOCK_BUF then MN_UDP_SOCK_BUF else (net.sock i).len))
      rw [same]
      split
      · rename_i over_
        exact ⟨(close_returns ..).before mailbox, fun some_ => absurd rfl some_,
          fun on => absurd on over_⟩
      · rename_i waits
        obtain ⟨effect, order'⟩ :=
          dnsRetry_call (d := { d with state, ip }) ⟨not_not.mp waits, asks.2⟩ net' now
        exact ⟨effect.before mailbox, order'⟩
  · rw [if_pos on]
    exact ⟨.keeps fun _ => rfl, order⟩

theorem ntpStart_call (n : Ntp.MnNtp) (net : MnNetFull) (server : Ip4) (now : UInt16) :
    Effect n.sock n.port net (Ntp.mnNtpStart n net server now).1.sock
      (Ntp.mnNtpStart n net server now).1.port
        (Ntp.mnNtpStart n net server now).2 ∧
      ((Ntp.mnNtpStart n net server now).1.sock ≠ 0xff →
        (Ntp.mnNtpStart n net server now).1.state = .waiting) :=
  begins_effect (ntpStart_begins n net server now) (ntpPort_some now)

theorem ntpPoll_call {n : Ntp.MnNtp} (held : n.sock ≠ 0xff → n.state = .waiting)
    (net : MnNetFull) (x : XMem)
    (now : UInt16) :
    Effect n.sock n.port net (Ntp.mnNtpPoll n net x now).1.sock (Ntp.mnNtpPoll n net x now).1.port
        (Ntp.mnNtpPoll n net x now).2 ∧
      ((Ntp.mnNtpPoll n net x now).1.sock ≠ 0xff → (Ntp.mnNtpPoll n net x now).1.state = .waiting) := by
  unfold Ntp.mnNtpPoll
  by_cases on : n.state = .waiting
  · rw [if_neg (not_not.mpr on)]
    have retried : ∀ net', SamePorts net net' →
        Effect n.sock n.port net (Ntp.retry n net' now).1.sock (Ntp.retry n net' now).1.port
          (Ntp.retry n net' now).2 ∧
          ((Ntp.retry n net' now).1.sock ≠ 0xff → (Ntp.retry n net' now).1.state = .waiting) := by
      intro net' same
      obtain ⟨over_, retry, next⟩ := ntp_retry on net' now
      obtain ⟨effect, held, _⟩ := retry_call retry next
      exact ⟨Effect.before effect same, held⟩
    have reception := udpRecv_reception net x n.sock Ntp.MSG_LEN
    generalize mnNetUdpRecv net x n.sock Ntp.MSG_LEN = out at reception
    cases reception with
    | nothing => exact retried net fun _ => rfl
    | datagram i =>
      dsimp only
      have mailbox := setSock_samePorts net i { net.sock i with pending := false } rfl
      generalize net.setSock i { net.sock i with pending := false } = net' at mailbox
      by_cases reply : Ntp.isReply (mnXmemRead x (net.sock i).xseg (net.sock i).xoff
          (if (net.sock i).len > Ntp.MSG_LEN then Ntp.MSG_LEN else (net.sock i).len)) = true
      · rw [if_pos reply]
        exact ⟨(close_returns ..).before mailbox, fun some_ => absurd rfl some_⟩
      · rw [if_neg reply]
        exact retried net' mailbox
  · rw [if_pos on]
    exact ⟨.keeps fun _ => rfl, held⟩

end

/-! ## Several borrowers -/

/-- Each borrower's socket is open on its port, and no two have the same. -/
structure Shared {ι : Type} (net : MnNetFull) (sock : ι → UInt8) (port : ι → UInt16) : Prop where
  holding : ∀ w, Holding net (sock w) (port w)
  apart : ∀ v w, v ≠ w → sock v ≠ 0xff → sock v ≠ sock w

/-- What one borrower does, the others sit out. -/
theorem Shared.step {ι : Type} {sock sock' : ι → UInt8} {port port' : ι → UInt16}
    (shared : Shared net sock port)
    (who : ι) (effect : Effect (sock who) (port who) net (sock' who) (port' who) after)
    (rest : ∀ w, w ≠ who → sock' w = sock w ∧ port' w = port w) : Shared after sock' port' := by
  have untouched : ∀ w, w ≠ who → sock w ≠ 0xff → ∃ i : Fin 4, sock w = UInt8.ofNat i ∧
      (after.sock i).port = port w ∧ port w ≠ 0 ∧ sock w ≠ sock' who := by
    intro w other some_
    obtain ⟨i, here, there, used⟩ := shared.holding w some_
    have differ := shared.apart w who other some_
    rw [here] at differ
    obtain ⟨same, differ'⟩ := effect.other (by rwa [there]) differ
    exact ⟨i, here, same.trans there, used, by rwa [here]⟩
  constructor
  · intro w
    by_cases acting : w = who
    · rw [acting]
      exact effect.holding (shared.holding who)
    · rw [(rest w acting).1, (rest w acting).2]
      intro some_
      obtain ⟨i, here, there, used, _⟩ := untouched w acting some_
      exact ⟨i, here, there, used⟩
  · intro v w differ some_
    by_cases acting : v = who
    · have other : w ≠ who := fun same => differ (acting.trans same.symm)
      rw [acting] at some_ ⊢
      rw [(rest w other).1]
      intro same
      rw [same] at some_
      obtain ⟨_, _, _, _, apart⟩ := untouched w other some_
      exact apart same.symm
    · rw [(rest v acting).1] at some_ ⊢
      by_cases other : w = who
      · obtain ⟨_, _, _, _, apart⟩ := untouched v acting some_
        rwa [other]
      · rw [(rest w other).1]
        exact shared.apart v w differ some_

/-! ## Runs of the three clients -/

inductive Borrower where
  | dhcp
  | dns
  | ntp
  deriving DecidableEq

/-- The three clients on the layer they share. -/
structure Clients where
  dhcp : Dhcp.MnDhcp
  dns : Dns.MnDns
  ntp : Ntp.MnNtp
  net : MnNetFull

def Clients.sockOf (c : Clients) : Borrower → UInt8
  | .dhcp => c.dhcp.sock
  | .dns => c.dns.sock
  | .ntp => c.ntp.sock

def Clients.portOf (c : Clients) : Borrower → UInt16
  | .dhcp => 68
  | .dns => c.dns.port
  | .ntp => c.ntp.port

/-- A client is started or polled. -/
inductive Call where
  | start (now : UInt16)
  | startDns (name : List UInt8) (server : Ip4) (now : UInt16)
  | startNtp (server : Ip4) (now : UInt16)
  | poll (who : Borrower) (x : XMem) (now : UInt16)

def Call.caller : Call → Borrower
  | .start _ => .dhcp
  | .startDns .. => .dns
  | .startNtp .. => .ntp
  | .poll who .. => who

def Clients.withDhcp (c : Clients) (out : Dhcp.MnDhcp × MnNetFull) : Clients :=
  { c with dhcp := out.1, net := out.2 }
def Clients.withDns (c : Clients) (out : Dns.MnDns × MnNetFull) : Clients :=
  { c with dns := out.1, net := out.2 }
def Clients.withNtp (c : Clients) (out : Ntp.MnNtp × MnNetFull) : Clients :=
  { c with ntp := out.1, net := out.2 }

def Clients.exec (c : Clients) : Call → Clients
  | .start now => c.withDhcp (Dhcp.mnDhcpStart c.dhcp c.net now)
  | .startDns name server now => c.withDns (Dns.mnDnsStart c.dns c.net name server now)
  | .startNtp server now => c.withNtp (Ntp.mnNtpStart c.ntp c.net server now)
  | .poll .dhcp x now => c.withDhcp (Dhcp.mnDhcpPoll c.dhcp c.net x now)
  | .poll .dns x now => c.withDns (Dns.mnDnsPoll c.dns c.net x now)
  | .poll .ntp x now => c.withNtp (Ntp.mnNtpPoll c.ntp c.net x now)

/-- No lookup of a malformed name is started while a socket can be had. -/
def Proper (c : Clients) : Call → Prop
  | .startDns name _ now => WellNamed name ∨ CannotOpen (givenBack c.dns.sock c.net) (dnsPort now)
  | _ => True

/-- As the clients are initialised, on any layer. -/
def Begun (c : Clients) : Prop :=
  (c.dhcp.state = .idle ∧ c.dns.state = .idle ∧ c.ntp.state = .idle) ∧ ∀ who, c.sockOf who = 0xff

/-- A client is called, or something else happens that leaves the sockets the
clients hold open on their ports: a frame comes in, another socket is used. -/
inductive Step : Clients → Clients → Prop where
  | calls (c : Clients) (call : Call) (proper : Proper c call) : Step c (c.exec call)
  | elsewhere (c : Clients) (after : MnNetFull)
      (same : ∀ (who : Borrower) (i : Fin 4), c.sockOf who = UInt8.ofNat i →
        (after.sock i).port = (c.net.sock i).port) : Step c { c with net := after }

/-- Who holds a socket waits for something, and it is open on its port; no two
hold the same. -/
structure InOrder (c : Clients) : Prop where
  dhcp : c.dhcp.sock ≠ 0xff → DhcpBusy c.dhcp
  dns : c.dns.sock ≠ 0xff → c.dns.state = .waiting
  ntp : c.ntp.sock ≠ 0xff → c.ntp.state = .waiting
  shared : Shared c.net c.sockOf c.portOf

/-- A socket is open, and no client's. -/
def Stray (c : Clients) (i : Fin 4) : Prop :=
  (c.net.sock i).port ≠ 0 ∧ ∀ who, c.sockOf who ≠ UInt8.ofNat i

/-- The invariant: a lookup that waits can be sent again. -/
structure Kept (c : Clients) : Prop extends InOrder c where
  asks : c.dns.state = .waiting → Lookups.dns.waiting c.dns

/-- What a call of one client comes to: its effect on that client's socket, and
none on the others'. -/
structure Called (who : Borrower) (c c' : Clients) : Prop where
  effect : Effect (c.sockOf who) (c.portOf who) c.net (c'.sockOf who) (c'.portOf who) c'.net
  rest : ∀ w, w ≠ who → c'.sockOf w = c.sockOf w ∧ c'.portOf w = c.portOf w

/-- Of the clients, a call changes the one that is called. -/
theorem exec_rest (c : Clients) (call : Call) (w : Borrower) (other : w ≠ call.caller) :
    (c.exec call).sockOf w = c.sockOf w ∧ (c.exec call).portOf w = c.portOf w := by
  cases call with
  | poll who =>
    cases who <;> cases w <;>
      first
      | exact absurd rfl other
      | simp only [Clients.exec, Clients.withDhcp, Clients.withDns, Clients.withNtp, Clients.sockOf,
          Clients.portOf, and_self]
  | _ =>
    cases w <;>
      first
      | exact absurd rfl other
      | simp only [Clients.exec, Clients.withDhcp, Clients.withDns, Clients.withNtp, Clients.sockOf,
          Clients.portOf, and_self]

private theorem exec_called {c : Clients} (kept : Kept c) (call : Call) :
    Called call.caller c (c.exec call) := by
  refine ⟨?_, exec_rest c call⟩
  cases call with
  | start now =>
    have call := dhcpStart_call c.dhcp c.net now
    rw [Clients.exec]
    generalize Dhcp.mnDhcpStart c.dhcp c.net now = out at call ⊢
    exact call.1
  | startDns name server now => exact dnsStart_call c.dns c.net name server now
  | startNtp server now => exact (ntpStart_call c.ntp c.net server now).1
  | poll who x now =>
    cases who with
    | dhcp =>
      have call := dhcpPoll_call kept.dhcp c.net x now
      rw [Clients.exec]
      generalize Dhcp.mnDhcpPoll c.dhcp c.net x now = out at call ⊢
      exact call.1
    | dns => exact (dnsPoll_call ⟨kept.dns, kept.asks⟩ c.net x now).1
    | ntp => exact (ntpPoll_call kept.ntp c.net x now).1

theorem Called.shared {who : Borrower} {c c' : Clients} (called : Called who c c')
    (shared : Shared c.net c.sockOf c.portOf) : Shared c'.net c'.sockOf c'.portOf :=
  shared.step who called.effect called.rest

theorem Called.stray {who : Borrower} {c c' : Clients} (called : Called who c c') {i : Fin 4}
    (stray : Stray c' i) :
    Stray c i := by
  obtain ⟨used, nobody⟩ := stray
  obtain ⟨used, nobody'⟩ := called.effect.open_after used (nobody who).symm
  refine ⟨used, fun w => ?_⟩
  by_cases acting : w = who
  · rw [acting]
    exact nobody'.symm
  · rw [← (called.rest w acting).1]
    exact nobody w

private theorem exec_kept {c : Clients} (kept : Kept c) {call : Call} (proper : Proper c call) :
    Kept (c.exec call) := by
  have shared := (exec_called kept call).shared kept.shared
  cases call with
  | start now =>
    have call := dhcpStart_call c.dhcp c.net now
    rw [Clients.exec] at shared ⊢
    generalize Dhcp.mnDhcpStart c.dhcp c.net now = out at call shared ⊢
    exact ⟨⟨call.2, kept.dns, kept.ntp, shared⟩, kept.asks⟩
  | startDns name server now =>
    have order := dnsStart_order c.dns c.net server now proper
    exact ⟨⟨kept.dhcp, order.held, kept.ntp, shared⟩, order.asks⟩
  | startNtp server now =>
    exact ⟨⟨kept.dhcp, kept.dns, (ntpStart_call c.ntp c.net server now).2, shared⟩, kept.asks⟩
  | poll who x now =>
    cases who with
    | dhcp =>
      have call := dhcpPoll_call kept.dhcp c.net x now
      rw [Clients.exec] at shared ⊢
      generalize Dhcp.mnDhcpPoll c.dhcp c.net x now = out at call shared ⊢
      exact ⟨⟨call.2, kept.dns, kept.ntp, shared⟩, kept.asks⟩
    | dns =>
      have order := (dnsPoll_call ⟨kept.dns, kept.asks⟩ c.net x now).2
      exact ⟨⟨kept.dhcp, order.held, kept.ntp, shared⟩, order.asks⟩
    | ntp => exact ⟨⟨kept.dhcp, kept.dns, (ntpPoll_call kept.ntp c.net x now).2, shared⟩, kept.asks⟩

private theorem step_kept {c c' : Clients} (kept : Kept c) (step : Step c c') : Kept c' := by
  cases step with
  | calls call proper => exact exec_kept kept proper
  | elsewhere after same =>
    refine ⟨⟨kept.dhcp, kept.dns, kept.ntp, fun who some_ => ?_, kept.shared.apart⟩, kept.asks⟩
    obtain ⟨i, here, there, used⟩ := kept.shared.holding who some_
    exact ⟨i, here, (same who i here).trans there, used⟩

private theorem begun_kept {c : Clients} (begun : Begun c) : Kept c := by
  obtain ⟨⟨_, idle, _⟩, none_⟩ := begun
  refine ⟨⟨fun some_ => absurd (none_ .dhcp) some_, fun some_ => absurd (none_ .dns) some_,
    fun some_ => absurd (none_ .ntp) some_, fun who some_ => absurd (none_ who) some_,
    fun who _ _ some_ => absurd (none_ who) some_⟩, fun on => ?_⟩
  rw [idle] at on
  cases on

private theorem reachable_kept {c : Clients} (reached : Reachable Begun Step c) : Kept c :=
  reached.invariant (fun _ => begun_kept) fun _ _ _ kept step => step_kept kept step

/-- A lookup of a malformed name fails with its socket still open. -/
theorem startDns_malformed {c : Clients} {name : List UInt8} {server : Ip4}
    (bad : ¬ Proper c (.startDns name server now)) :
    (c.exec (.startDns name server now)).dns.state = .failed ∧
      (c.exec (.startDns name server now)).dns.sock ≠ 0xff := by
  obtain ⟨malformed, can⟩ := not_or.mp bad
  obtain ⟨i, _, same⟩ := dnsStart_malformed c.dns c.net malformed server now can
  have there : (c.exec (.startDns name server now)).dns =
    (Dns.mnDnsStart c.dns c.net name server now).1 := rfl
  rw [there, same]
  exact ⟨rfl, (given i).1⟩

/-- A call keeps the clients in order exactly when it looks up no malformed
name. -/
theorem exec_inOrder_iff {c : Clients} (kept : Kept c) (call : Call) : InOrder (c.exec call) ↔
    Proper c call := by
  constructor
  · intro order
    cases call with
    | startDns name server now =>
      by_contra bad
      obtain ⟨failed, held⟩ := startDns_malformed bad
      have waiting := order.dns held
      rw [failed] at waiting
      cases waiting
    | start | startNtp | poll => trivial
  · exact fun proper => (exec_kept kept proper).toInOrder

/-- In a run that looks up no malformed name, whoever holds a socket waits for
something, and no call leaves a socket open for nobody. -/
theorem sockets_returned {c : Clients} (reached : Reachable Begun Step c) :
    InOrder c ∧ ∀ call, (InOrder (c.exec call) ↔ Proper c call) ∧
      ∀ i, Stray (c.exec call) i → Stray c i :=
  have kept := reachable_kept reached
  ⟨kept.toInOrder, fun call => ⟨exec_inOrder_iff kept call, fun _ => (exec_called kept call).stray⟩⟩

/-- The three clients before their first calls. -/
def freshClients : Clients := ⟨freshDhcp, freshDns, freshNtp, layerOver goodNet⟩

theorem freshClients_begun : Begun freshClients := by
  refine ⟨⟨rfl, rfl, rfl⟩, fun who => ?_⟩
  cases who <;> rfl

/-- The clients once `a` is looked up and a lease is asked for. -/
def bothAsking : Clients := (freshClients.exec (.startDns [0x61] neighbour 0)).exec (.start 1)

private theorem bothAsking_reached : Reachable Begun Step bothAsking :=
  .next (.next (.start freshClients_begun)
      (.calls freshClients (.startDns [0x61] neighbour 0) (Or.inl (by decide))))
    (.calls _ (.start 1) trivial)

theorem sockets_returned_asking :
    bothAsking.dns.sock = 0 ∧ bothAsking.dhcp.sock = 1 ∧ InOrder bothAsking ∧
      ∀ call, (InOrder (bothAsking.exec call) ↔ Proper bothAsking call) ∧
        ∀ i, Stray (bothAsking.exec call) i → Stray bothAsking i :=
  ⟨by decide +kernel, by decide +kernel, sockets_returned bothAsking_reached⟩

/-- The lookup of `a..b` fails with its mailbox still open. -/
theorem malformed_lookup_keeps :
    Begun freshClients ∧
      (freshClients.exec (.startDns [0x61, 0x2e, 0x2e, 0x62] neighbour 0)).dns.state = .failed ∧
      (freshClients.exec (.startDns [0x61, 0x2e, 0x2e, 0x62] neighbour 0)).dns.sock = 0 ∧
      ((freshClients.exec (.startDns [0x61, 0x2e, 0x2e, 0x62] neighbour 0)).net.sock 0).port = 49152 ∧
      ¬ InOrder (freshClients.exec (.startDns [0x61, 0x2e, 0x2e, 0x62] neighbour 0)) := by
  refine ⟨freshClients_begun, by decide, by decide, by decide, fun order => ?_⟩
  have waiting := order.dns (by decide)
  revert waiting
  decide

end MegaNet.UdpBorrowing
