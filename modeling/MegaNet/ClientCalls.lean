import Mathlib.Logic.Relation
import MegaNet.UdpBorrowing
import MegaNet.UdpSockets

/-! The DHCP, DNS and NTP clients as users of the stack: what a call of one does
to the layer it does by acts of the stack, and its datagrams are short. Runs of
the stack and its clients together. -/
namespace MegaNet.ClientCalls
open MegaNet.Core Transition UdpOutcomes UdpSockets UdpBorrowing

variable {net middle after : MnNetFull} {now : UInt16}

/-! ## Acts of a client -/

/-- What a client asks of the stack: anything but to poll it, or TCP. -/
def Asks : Act → Prop
  | .opens _ | .closes _ | .receives .. | .configures .. => True
  | .sends _ _ _ payload => payload.length ≤ 300
  | .poll _ | .tcp _ => False

/-- One layer follows another by a client's acts, whatever stack it is part of. -/
def Uses (net after : MnNetFull) : Prop :=
  ∀ tcp x, Relation.ReflTransGen (fun st st' => ∃ act, Asks act ∧ st' = exec st act)
    ⟨net, tcp, x⟩ ⟨after, tcp, x⟩

/-- What it does beside sending. -/
def Prepares : Act → Prop
  | .opens _ | .closes _ | .receives .. | .configures .. => True
  | .sends .. | .poll _ | .tcp _ => False

/-- One layer follows another by acts that send nothing. -/
def Prepared (net after : MnNetFull) : Prop :=
  ∀ tcp x, Relation.ReflTransGen (fun st st' => ∃ act, Prepares act ∧ st' = exec st act)
    ⟨net, tcp, x⟩ ⟨after, tcp, x⟩

private theorem Prepared.refl (net : MnNetFull) : Prepared net net := fun _ _ => .refl

private theorem Prepared.trans (first : Prepared net middle) (second : Prepared middle after) :
    Prepared net after := fun tcp x => (first tcp x).trans (second tcp x)

private theorem opens_prepared (net : MnNetFull) (port : UInt16) :
    Prepared net (mnNetUdpOpen net port).2 := fun _ _ => .single ⟨.opens port, trivial, rfl⟩

private theorem closes_prepared (net : MnNetFull) (s : UInt8) : Prepared net (mnNetUdpClose net s) :=
  fun _ _ => .single ⟨.closes s, trivial, rfl⟩

private theorem configures_prepared (net : MnNetFull) (ip mask gw : Ip4) :
    Prepared net (mnNetSetIp net ip mask gw) :=
  fun _ _ => .single ⟨.configures ip mask gw, trivial, rfl⟩

private theorem givenBack_prepared (sock : UInt8) (net : MnNetFull) :
    Prepared net (givenBack sock net) := by
  unfold givenBack
  split
  · exact closes_prepared net sock
  · exact Prepared.refl net

/-- Receiving leaves the layer the same whatever the pool holds. -/
theorem recv_pool (net : MnNetFull) (x x' : XMem) (s : UInt8) (cap : UInt16) :
    (mnNetUdpRecv net x s cap).2 = (mnNetUdpRecv net x' s cap).2 := by
  unfold mnNetUdpRecv
  split
  · dsimp only
    split <;> rfl
  · rfl

private theorem receives_prepared (net : MnNetFull) (x : XMem) (s : UInt8) (cap : UInt16) :
    Prepared net (mnNetUdpRecv net x s cap).2 :=
  fun tcp x' => .single ⟨.receives s cap, trivial, by rw [recv_pool net x x']; rfl⟩

/-- What a call of a client comes to: it prepares, and then sends one datagram, a
`good` one, or none. -/
inductive Asked (good : Datagram → Prop) (net : MnNetFull) : MnNetFull → Prop where
  | silent {after : MnNetFull} (prepared : Prepared net after) : Asked good net after
  | message {middle : MnNetFull} (prepared : Prepared net middle) {dst : Ip4} {sport dport : UInt16}
      {payload : List UInt8} (fine : good ⟨dst, sport, dport, payload⟩) :
      Asked good net (mnNetSendUdp middle dst sport dport payload).2

variable {good : Datagram → Prop}

private theorem Asked.nothing (net : MnNetFull) : Asked good net net := .silent (Prepared.refl net)

private theorem Asked.behind (asked : Asked good middle after) (before : Prepared net middle) :
    Asked good net after := by
  cases asked with
  | silent prepared => exact .silent (before.trans prepared)
  | message prepared fine => exact .message (before.trans prepared) fine

private theorem Prepares.asks {act : Act} (prepares : Prepares act) : Asks act := by
  cases act with
  | opens | closes | receives | configures => trivial
  | sends | poll | tcp => exact prepares.elim

private theorem Prepared.uses (prepared : Prepared net after) : Uses net after := fun tcp x =>
  Relation.ReflTransGen.mono (fun _ _ ⟨act, prepares, same⟩ => ⟨act, prepares.asks, same⟩) _ _
    (prepared tcp x)

theorem Asked.uses (asked : Asked (fun d => d.payload.length ≤ 300) net after) : Uses net after := by
  cases asked with
  | silent prepared => exact prepared.uses
  | message prepared short => exact fun tcp x => (prepared.uses tcp x).tail ⟨.sends .., short, rfl⟩

/-! ## The DHCP client -/

private theorem hear_prepared (d : Dhcp.MnDhcp) (net : MnNetFull) (x : XMem) :
    Prepared net (Dhcp.hear d net x).2.2 := by
  have received := receives_prepared net x d.sock MN_UDP_SOCK_BUF
  unfold Dhcp.hear
  generalize mnNetUdpRecv net x d.sock MN_UDP_SOCK_BUF = out at received
  obtain ⟨_ | r, after⟩ := out <;> exact received

section
variable (d : Dhcp.MnDhcp) (net : MnNetFull)
  (dhcp : ∀ d net type, good ⟨Dhcp.destination d, 68, 67, Dhcp.build d net type⟩)

include dhcp

private theorem dhcpTransmit_asks (type : UInt8) (now : UInt16) :
    Asked good net (Dhcp.transmit d net type now).2 := by
  have sends : Asked good net
      (mnNetSendUdp net (Dhcp.destination d) 68 67 (Dhcp.build d net type)).2 :=
    .message (Prepared.refl net) (dhcp d net type)
  unfold Dhcp.transmit
  generalize mnNetSendUdp net (Dhcp.destination d) 68 67 (Dhcp.build d net type) = out at sends
  exact sends

theorem dhcpStart_asks (now : UInt16) : Asked good net (Dhcp.mnDhcpStart d net now).2 := by
  unfold Dhcp.mnDhcpStart
  dsimp only
  exact (dhcpTransmit_asks _ _ dhcp Dhcp.MSG_DISCOVER now).behind
    (((configures_prepared net zeroIp zeroIp zeroIp).trans (givenBack_prepared d.sock _)).trans
      (opens_prepared _ 68))

private theorem lost_asks (now : UInt16) : Asked good net (Dhcp.lost d net now).2 := by
  unfold Dhcp.lost
  dsimp only
  refine Asked.behind ?_ (configures_prepared net zeroIp zeroIp zeroIp)
  split
  · exact (dhcpTransmit_asks _ _ dhcp _ now).behind (opens_prepared _ 68)
  · exact dhcpTransmit_asks _ _ dhcp _ now

private theorem renew_asks (now : UInt16) : Asked good net (Dhcp.renew d net now).2 := by
  unfold Dhcp.renew
  dsimp only
  split
  · exact (dhcpTransmit_asks _ _ dhcp _ now).behind (opens_prepared _ 68)
  · exact dhcpTransmit_asks _ _ dhcp _ now

private theorem keepLease_asks (now : UInt16) : Asked good net (Dhcp.keepLease d net now).2 := by
  unfold Dhcp.keepLease
  split_ifs
  · exact lost_asks d net dhcp now
  · exact renew_asks d net dhcp now
  · exact dhcpTransmit_asks d net dhcp _ now
  · exact .nothing net

private theorem pollBound_asks (x : XMem) (now : UInt16) :
    Asked good net (Dhcp.pollBound d net x now).2 := by
  unfold Dhcp.pollBound
  dsimp only
  split
  · exact .nothing net
  have hears : Prepared net
    (if (Dhcp.clockTick d now).sock ≠ 0xff then Dhcp.hear (Dhcp.clockTick d now) net x
      else (none, Dhcp.clockTick d now, net)).2.2 := by
    split
    · exact hear_prepared _ net x
    · exact Prepared.refl net
  generalize (if (Dhcp.clockTick d now).sock ≠ 0xff then Dhcp.hear (Dhcp.clockTick d now) net x
    else (none, Dhcp.clockTick d now, net)) = out at hears
  obtain ⟨_ | ⟨type, m⟩, d', net'⟩ := out
  · exact (keepLease_asks d' net' dhcp now).behind hears
  · dsimp only
    split_ifs
    · exact .silent (hears.trans (closes_prepared net' _))
    · exact (lost_asks d' net' dhcp now).behind hears
    · exact (keepLease_asks d' net' dhcp now).behind hears

private theorem dhcpRetry_asks (now : UInt16) : Asked good net (Dhcp.retry d net now).2 := by
  unfold Dhcp.retry
  split_ifs
  · exact dhcpTransmit_asks d net dhcp _ now
  · exact .silent (closes_prepared net d.sock)
  · exact dhcpTransmit_asks d net dhcp _ now
  · exact .nothing net

private theorem acquire_asks (type : UInt8) (m : List UInt8) (now : UInt16) :
    Asked good net (Dhcp.acquire d net type m now).2 := by
  unfold Dhcp.acquire
  split_ifs
  · exact dhcpTransmit_asks _ net dhcp _ now
  · exact .silent ((configures_prepared net _ _ _).trans (closes_prepared _ d.sock))
  · exact dhcpTransmit_asks _ net dhcp _ now
  · exact dhcpRetry_asks d net dhcp now

theorem dhcpPoll_asks (x : XMem) (now : UInt16) :
    Asked good net (Dhcp.mnDhcpPoll d net x now).2 := by
  have hears := hear_prepared d net x
  unfold Dhcp.mnDhcpPoll
  generalize Dhcp.hear d net x = out at hears
  obtain ⟨heard, d', net'⟩ := out
  cases d.state with
  | idle | failed => exact .nothing net
  | bound => exact pollBound_asks d net dhcp x now
  | selecting | requesting =>
    obtain _ | ⟨type, m⟩ := heard
    · exact (dhcpRetry_asks d' net' dhcp now).behind hears
    · exact (acquire_asks d' net' dhcp type m now).behind hears

end

/-! ## The DNS and the NTP client -/

/-- The name a lookup asks for fits its buffer. -/
def Named (d : Dns.MnDns) : Prop := d.name.length ≤ Dns.MN_DNS_NAME_MAX

private theorem dnsTransmit_asks (d : Dns.MnDns) (net : MnNetFull) (now : UInt16)
    (dns : ∀ msg, Dns.build d = some msg → good ⟨d.server, d.port, Dns.PORT_DNS, msg⟩) :
    Asked good net (Dns.transmit d net now).2 := by
  unfold Dns.transmit
  cases built : Dns.build d with
  | none => exact .nothing net
  | some msg => exact .message (Prepared.refl net) (dns msg built)

private theorem begun_named (d : Dns.MnDns) (mac : Mac) (name : List UInt8)
    (server : Ip4) (now : UInt16) :
    Named (Dns.begun d mac name server now) := List.length_take_le _ _

private theorem dnsTransmit_name (d : Dns.MnDns) (net : MnNetFull) (now : UInt16) :
    (Dns.transmit d net now).1.name = d.name := by
  unfold Dns.transmit
  cases Dns.build d <;> rfl

theorem dnsStart_asks (d : Dns.MnDns) (net : MnNetFull) (name : List UInt8)
    (server : Ip4) (now : UInt16)
    (dns : ∀ d, Named d → ∀ msg, Dns.build d = some msg → good ⟨d.server, d.port, Dns.PORT_DNS, msg⟩) :
    Asked good net (Dns.mnDnsStart d net name server now).2 ∧
      Named (Dns.mnDnsStart d net name server now).1 := by
  have back := givenBack_prepared d.sock net
  unfold Dns.mnDnsStart
  rw [show (if d.sock ≠ 0xff then mnNetUdpClose net d.sock else net) = givenBack d.sock net from rfl]
  dsimp only
  generalize givenBack d.sock net = net' at back
  have named := begun_named d net'.nif.mac name server now
  generalize Dns.begun d net'.nif.mac name server now = d' at named
  have opens := opens_prepared net' d'.port
  generalize mnNetUdpOpen net' d'.port = out at opens
  split
  · exact ⟨.silent (back.trans opens), named⟩
  · have named' : Named { d' with sock := out.1, state := .waiting } := named
    generalize ({ d' with sock := out.1, state := .waiting } : Dns.MnDns) = d'' at named'
    refine ⟨(dnsTransmit_asks d'' _ now (dns d'' named')).behind (back.trans opens), ?_⟩
    rw [Named, dnsTransmit_name]
    exact named'

private theorem dnsRetry_asks (d : Dns.MnDns) (net : MnNetFull) (now : UInt16)
    (dns : ∀ msg, Dns.build d = some msg → good ⟨d.server, d.port, Dns.PORT_DNS, msg⟩) :
    Asked good net (Dns.retry d net now).2 := by
  unfold Dns.retry
  exact Lookups.retry_holds (P := fun out : Dns.MnDns × MnNetFull => Asked good net out.2)
    (dnsTransmit_asks d net now dns) (.silent (closes_prepared net d.sock)) (.nothing net)

theorem dnsPoll_asks (d : Dns.MnDns) (net : MnNetFull) (x : XMem) (now : UInt16)
    (dns : d.state = .waiting → ∀ msg, Dns.build d = some msg →
      good ⟨d.server, d.port, Dns.PORT_DNS, msg⟩) :
    Asked good net (Dns.mnDnsPoll d net x now).2 := by
  have received := receives_prepared net x d.sock MN_UDP_SOCK_BUF
  unfold Dns.mnDnsPoll
  generalize mnNetUdpRecv net x d.sock MN_UDP_SOCK_BUF = out at received
  split
  · exact .nothing net
  rename_i on
  have dns := dns (not_not.mp on)
  obtain ⟨_ | r, net'⟩ := out
  · exact (dnsRetry_asks d net' now dns).behind received
  · obtain ⟨state, ip, same⟩ := heard_same d r.data
    dsimp only
    rw [same]
    split
    · exact .silent (received.trans (closes_prepared net' _))
    · exact (dnsRetry_asks { d with state, ip } net' now dns).behind received

private theorem ntpTransmit_asks (n : Ntp.MnNtp) (net : MnNetFull) (now : UInt16)
    (ntp : ∀ dst sport, good ⟨dst, sport, Ntp.PORT_NTP, Ntp.request⟩) :
    Asked good net (Ntp.transmit n net now).2 := .message (Prepared.refl net) (ntp n.server n.port)

theorem ntpStart_asks (n : Ntp.MnNtp) (net : MnNetFull) (server : Ip4) (now : UInt16)
    (ntp : ∀ dst sport, good ⟨dst, sport, Ntp.PORT_NTP, Ntp.request⟩) :
    Asked good net (Ntp.mnNtpStart n net server now).2 := by
  have back := givenBack_prepared n.sock net
  unfold Ntp.mnNtpStart
  rw [show (if n.sock ≠ 0xff then mnNetUdpClose net n.sock else net) = givenBack n.sock net from rfl]
  dsimp only
  have opens := back.trans (opens_prepared _ (50000 + (now &&& 0x0fff)))
  split
  · exact .silent opens
  · exact (ntpTransmit_asks _ _ now ntp).behind opens

private theorem ntpRetry_asks (n : Ntp.MnNtp) (net : MnNetFull) (now : UInt16)
    (ntp : ∀ dst sport, good ⟨dst, sport, Ntp.PORT_NTP, Ntp.request⟩) :
    Asked good net (Ntp.retry n net now).2 := by
  unfold Ntp.retry
  exact Lookups.retry_holds (P := fun out : Ntp.MnNtp × MnNetFull => Asked good net out.2)
    (ntpTransmit_asks n net now ntp) (.silent (closes_prepared net n.sock)) (.nothing net)

theorem ntpPoll_asks (n : Ntp.MnNtp) (net : MnNetFull) (x : XMem) (now : UInt16)
    (ntp : ∀ dst sport, good ⟨dst, sport, Ntp.PORT_NTP, Ntp.request⟩) :
    Asked good net (Ntp.mnNtpPoll n net x now).2 := by
  have received := receives_prepared net x n.sock Ntp.MSG_LEN
  unfold Ntp.mnNtpPoll
  generalize mnNetUdpRecv net x n.sock Ntp.MSG_LEN = out at received
  split
  · exact .nothing net
  obtain ⟨_ | r, net'⟩ := out
  · exact (ntpRetry_asks n net' now ntp).behind received
  · dsimp only
    split
    · exact .silent (received.trans (closes_prepared net' n.sock))
    · exact (ntpRetry_asks n net' now ntp).behind received

/-! ## Their datagrams are short -/

private theorem dhcpHeader_length (d : Dhcp.MnDhcp) (net : MnNetFull) :
    (Dhcp.header d net).length = 240 := by
  unfold Dhcp.header
  dsimp only
  simp only [List.length_append, Dhcp.zeros, List.length_replicate]
  rfl

private theorem dhcpOptions_length (d : Dhcp.MnDhcp) (type : UInt8) :
    (Dhcp.options d type).length ≤ 22 := by
  unfold Dhcp.options
  split <;> simp [Ip4.bytes]

private theorem dhcpBuild_length (d : Dhcp.MnDhcp) (net : MnNetFull) (type : UInt8) :
    (Dhcp.build d net type).length = 300 := by
  have options := dhcpOptions_length d type
  unfold Dhcp.build
  dsimp only
  rw [List.length_append, List.length_append, dhcpHeader_length, Dhcp.zeros, List.length_replicate]
  omega

theorem dhcpStart_uses (d : Dhcp.MnDhcp) (net : MnNetFull) (now : UInt16) :
    Uses net (Dhcp.mnDhcpStart d net now).2 :=
  Asked.uses (dhcpStart_asks d net (fun d net type => (dhcpBuild_length d net type).le) now)

theorem dhcpPoll_uses (d : Dhcp.MnDhcp) (net : MnNetFull) (x : XMem) (now : UInt16) :
    Uses net (Dhcp.mnDhcpPoll d net x now).2 :=
  Asked.uses (dhcpPoll_asks d net (fun d net type => (dhcpBuild_length d net type).le) x now)

private theorem dnsBuild_length {d : Dns.MnDns} (named : Named d) {msg : List UInt8}
    (built : Dns.build d = some msg) : msg.length ≤ 300 := by
  rw [Named, Dns.MN_DNS_NAME_MAX] at named
  rw [DnsQuery.build_length built]
  omega

theorem dnsStart_uses (d : Dns.MnDns) (net : MnNetFull) (name : List UInt8)
    (server : Ip4) (now : UInt16) :
    Uses net (Dns.mnDnsStart d net name server now).2 ∧
      Named (Dns.mnDnsStart d net name server now).1 :=
  have asks := dnsStart_asks d net name server now fun _ named _ built => dnsBuild_length named built
  ⟨Asked.uses asks.1, asks.2⟩

theorem dnsPoll_uses {d : Dns.MnDns} (named : d.state = .waiting → Named d) (net : MnNetFull)
    (x : XMem) (now : UInt16) : Uses net (Dns.mnDnsPoll d net x now).2 :=
  Asked.uses (dnsPoll_asks d net x now fun on _ built => dnsBuild_length (named on) built)

theorem ntpStart_uses (n : Ntp.MnNtp) (net : MnNetFull) (server : Ip4) (now : UInt16) :
    Uses net (Ntp.mnNtpStart n net server now).2 :=
  Asked.uses (ntpStart_asks n net server now fun _ _ => show Ntp.request.length ≤ 300 by decide)

theorem ntpPoll_uses (n : Ntp.MnNtp) (net : MnNetFull) (x : XMem) (now : UInt16) :
    Uses net (Ntp.mnNtpPoll n net x now).2 :=
  Asked.uses (ntpPoll_asks n net x now fun _ _ => show Ntp.request.length ≤ 300 by decide)

/-- Every call of a client. -/
theorem call_uses {c : Clients} (named : c.dns.state = .waiting → Named c.dns) (call : Call) :
    Uses c.net (c.exec call).net := by
  unfold Clients.exec Clients.withDhcp Clients.withDns Clients.withNtp
  cases call with
  | start now =>
    dsimp only
    exact dhcpStart_uses c.dhcp c.net now
  | startDns name server now => exact (dnsStart_uses c.dns c.net name server now).1
  | startNtp server now => exact ntpStart_uses c.ntp c.net server now
  | poll who x now =>
    cases who with
    | dhcp => exact dhcpPoll_uses c.dhcp c.net x now
    | dns => exact dnsPoll_uses named c.net x now
    | ntp => exact ntpPoll_uses c.ntp c.net x now

/-! ## Names as lookups go on -/

private theorem dnsRetry_name (d : Dns.MnDns) (net : MnNetFull) (now : UInt16) :
    (Dns.retry d net now).1.name = d.name := by
  unfold Dns.retry
  exact Lookups.retry_holds (P := fun out : Dns.MnDns × MnNetFull => out.1.name = d.name)
    (dnsTransmit_name d net now) rfl rfl

theorem dnsPoll_name (d : Dns.MnDns) (net : MnNetFull) (x : XMem) (now : UInt16) :
    (Dns.mnDnsPoll d net x now).1.name = d.name := by
  unfold Dns.mnDnsPoll
  generalize mnNetUdpRecv net x d.sock MN_UDP_SOCK_BUF = out
  split
  · rfl
  obtain ⟨_ | r, net'⟩ := out
  · exact dnsRetry_name d net' now
  · obtain ⟨state, ip, same⟩ := heard_same d r.data
    dsimp only
    rw [same]
    split
    · rfl
    · exact dnsRetry_name _ net' now

/-- Only a lookup that has begun waits, and then its name fits. -/
theorem call_named {c : Clients} (named : c.dns.state = .waiting → Named c.dns) (call : Call)
    (on : (c.exec call).dns.state = .waiting) : Named (c.exec call).dns := by
  unfold Clients.exec Clients.withDhcp Clients.withDns Clients.withNtp at *
  cases call with
  | start | startNtp => exact named on
  | startDns name server now => exact (dnsStart_uses c.dns c.net name server now).2
  | poll who x now =>
    cases who with
    | dhcp | ntp => exact named on
    | dns =>
      have still : c.dns.state = .waiting := by
        by_contra off
        have same : (Dns.mnDnsPoll c.dns c.net x now).1 = c.dns := by rw [Dns.mnDnsPoll, if_pos off]
        exact off (same ▸ on)
      have name := dnsPoll_name c.dns c.net x now
      unfold Named
      exact (congrArg List.length name).trans_le (named still)

/-! ## The stack and its clients together -/

/-- The clients, and the rest of the stack they share. -/
structure Host extends Clients where
  tcp : Option MnTcpSet
  x : XMem

def Host.st (h : Host) : Stack := ⟨h.net, h.tcp, h.x⟩

/-- An act of the host's, or a call of a client. -/
inductive Does where
  | acts (act : Act)
  | calls (call : Call)

/-- A client reads its mailbox in the stack's pool. -/
def fromPool (x : XMem) : Call → Call
  | .poll who _ now => .poll who x now
  | call => call

def Host.exec (h : Host) : Does → Host
  | .acts act =>
    let st := UdpSockets.exec h.st act
    { h with net := st.net, tcp := st.tcp, x := st.x }
  | .calls call => { h with toClients := h.toClients.exec (fromPool h.x call) }

def Hosted : Host → Prop :=
  Reachable (fun h => UdpSockets.Begun h.st ∧ UdpBorrowing.Begun h.toClients) fun h h' => ∃ does,
    h' = h.exec does

/-- What a client does, the stack could have done by itself. -/
theorem Uses.reached (uses : Uses net after) {motive : Stack → Prop} {tcp : Option MnTcpSet} {x : XMem}
    (start : motive ⟨net, tcp, x⟩) (step : ∀ st act, Asks act → motive st → motive (exec st act)) :
    motive ⟨after, tcp, x⟩ := by
  have path := uses tcp x
  generalize (⟨after, tcp, x⟩ : Stack) = st at path
  induction path with
  | refl => exact start
  | tail _ last ih =>
    obtain ⟨act, asks, rfl⟩ := last
    exact step _ act asks ih

/-- The stack of a host has a life of its own, and a lookup that waits has a
name that fits. -/
theorem Hosted.parts {h : Host} (hosted : Hosted h) : Life h.st ∧
    (h.dns.state = .waiting → Named h.dns) := by
  refine Reachable.invariant (motive := fun h => Life h.st ∧
    (h.dns.state = .waiting → Named h.dns)) ?_ ?_ hosted
  · rintro h ⟨begun, ⟨_, idle, _⟩, _⟩
    refine ⟨.start begun, fun on => ?_⟩
    rw [idle] at on
    cases on
  · rintro h _ _ ⟨life, named⟩ ⟨does, rfl⟩
    cases does with
    | acts act => exact ⟨.next life ⟨act, rfl⟩, named⟩
    | calls call =>
      exact ⟨(call_uses named _).reached life fun st act _ life => .next life ⟨act, rfl⟩,
        call_named named _⟩

end MegaNet.ClientCalls
