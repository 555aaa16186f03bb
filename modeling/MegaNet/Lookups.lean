import MegaNet.DnsQuery
import MegaNet.Core.Ntp
import MegaNet.UdpOutcomes

/-! The DNS and the NTP client by what they have in common: one socket, one
server, one question sent again now and then, and what the ends of their starts
and polls do with these. -/
namespace MegaNet.Lookups
open MegaNet.Core TcpEmission UdpOutcomes

/-! ## One question to one server -/

/-- What both clients keep of a question under way. -/
structure Asker where
  sock : UInt8
  port : UInt16
  server : Ip4
  sentAt : UInt16
  tries : UInt8
  pending : Bool

/-- The question sent, with the layer's result. -/
def Asker.sent (a : Asker) (r : SendResult) (now : UInt16) : Asker :=
  { a with
    pending := r == .pending, sentAt := now, tries := if r = .pending then a.tries else a.tries + 1 }

/-- What is due of a question at `now`; whether that was its end, what is kept
of it, and the layer after. -/
inductive Retry (period : UInt16) (most : UInt8) (a : Asker) (net : MnNetFull) (now : UInt16) :
    Bool → Asker → MnNetFull → Prop where
  | waits (idle : a.pending = false) (early : ¬ now - a.sentAt ≥ period) :
      Retry period most a net now false a net
  | gives_up (idle : a.pending = false) (late : now - a.sentAt ≥ period) (last : a.tries ≥ most) :
      Retry period most a net now true { a with sock := 0xff } (mnNetUdpClose net a.sock)
  | sends (due : a.pending = false → now - a.sentAt ≥ period ∧ ¬ a.tries ≥ most) (r : SendResult)
      (after : MnNetFull) (sent : List Datagram) (posts : Posts net after sent)
      (result : r = .pending ↔ ¬ net.toMnNet.Resolves a.server) :
      Retry period most a net now false (a.sent r now) after

/-- A client: what it keeps of its question, when it waits and when it has
failed, and its poll. -/
structure Client (σ : Type) where
  asker : σ → Asker
  waiting : σ → Prop
  failed : σ → Prop
  poll : σ → MnNetFull → XMem → UInt16 → σ × MnNetFull
  period : UInt16
  most : UInt8

/-- Nothing waits in the mailbox of the question's socket. -/
def NoMail (a : Asker) (net : MnNetFull) : Prop :=
  ∀ i : Fin 4, a.sock.toNat = i → (net.sock i).pending = false

/-- A client that fails rests, and one that waits does what is due. -/
structure Lawful {σ : Type} (client : Client σ) : Prop where
  apart : ∀ c, client.waiting c → ¬ client.failed c
  rests : ∀ c net x now, client.failed c → client.poll c net x now = (c, net)
  retries : ∀ c net x now, client.waiting c → NoMail (client.asker c) net →
    ∃ over_, Retry client.period client.most (client.asker c) net now over_
        (client.asker (client.poll c net x now).1) (client.poll c net x now).2 ∧
      if over_ then client.failed (client.poll c net x now).1 else client.waiting
        (client.poll c net x now).1
  timed : 0 < client.period.toNat ∧ 2 * client.period.toNat < 65536 ∧ 0 < client.most.toNat

/-- A question's beginning, once an earlier socket is given back. -/
inductive Begins {σ : Type} (client : Client σ) (before : MnNetFull) (port : UInt16)
    (server : Ip4) (now : UInt16) :
    σ × MnNetFull → Prop where
  | refused (c : σ) (why : CannotOpen before port) (over_ : client.failed c)
      (none_ : (client.asker c).sock = 0xff) :
      Begins client before port server now (c, before)
  | asks (c : σ) (i : Fin 4) (r : SendResult) (after : MnNetFull) (sent : List Datagram)
      (free : (before.sock i).port = 0) (alone : ∀ j, (before.sock j).port ≠ port)
      (on : client.waiting c)
      (a : Asker) (blank : a.sock = UInt8.ofNat i ∧ a.server = server ∧ a.tries = 0 ∧ a.port = port)
      (asker : client.asker c = a.sent r now) (posts : Posts (opened before i port) after sent)
      (result : r = .pending ↔ ¬ before.toMnNet.Resolves server) :
        Begins client before port server now (c, after)

/-- What both clients do at the end of a poll: nothing yet, or the question is
sent again (`sent`), or given up (`over_`). -/
theorem retry_due {σ : Type} (client : Client σ) {c : σ} (on : client.waiting c)
    (net : MnNetFull) (now : UInt16)
    (sent over_ : σ × MnNetFull)
    (sends : ∃ (r : SendResult) (datagrams : List Datagram),
      client.asker sent.1 = (client.asker c).sent r now ∧
      client.waiting sent.1 ∧ Posts net sent.2 datagrams ∧
      (r = .pending ↔ ¬ net.toMnNet.Resolves (client.asker c).server))
    (ends : client.asker over_.1 = { client.asker c with sock := 0xff } ∧ client.failed over_.1 ∧
      over_.2 = mnNetUdpClose net (client.asker c).sock)
    {out : σ × MnNetFull}
    (due : out = if (client.asker c).pending then sent
      else if now - (client.asker c).sentAt ≥ client.period then
        if (client.asker c).tries ≥ client.most then over_ else sent
      else (c, net)) :
    ∃ gone, Retry client.period client.most (client.asker c) net now gone (client.asker out.1) out.2 ∧
      if gone then client.failed out.1 else client.waiting out.1 := by
  obtain ⟨r, datagrams, asker, waiting, posts, result⟩ := sends
  obtain ⟨given_back, failed, closed⟩ := ends
  subst due
  by_cases pending : (client.asker c).pending = true
  · rw [if_pos pending, asker]
    refine ⟨false, .sends (fun idle => ?_) r sent.2 datagrams posts result, waiting⟩
    rw [pending] at idle
    cases idle
  rw [if_neg pending]
  rw [Bool.not_eq_true] at pending
  by_cases late : now - (client.asker c).sentAt ≥ client.period
  · rw [if_pos late]
    by_cases last : (client.asker c).tries ≥ client.most
    · rw [if_pos last, given_back, closed]
      exact ⟨true, .gives_up pending late last, failed⟩
    · rw [if_neg last, asker]
      exact ⟨false, .sends (fun _ => ⟨late, last⟩) r sent.2 datagrams posts result, waiting⟩
  · rw [if_neg late]
    exact ⟨false, .waits pending late, on⟩

/-- Two retries that find the same due are related if what they come to is. -/
theorem retry_related {σ τ : Type} {R : σ → τ → Prop} {pending late last : Prop}
    [Decidable pending] [Decidable late]
    [Decidable last] {sent over_ still : σ} {sent' over' still' : τ} (sends : R sent sent')
      (ends : R over_ over')
    (waits : R still still') :
    R (if pending then sent else if late then if last then over_ else sent else still)
      (if pending then sent' else if late then if last then over' else sent' else still') := by
  split_ifs <;> assumption

/-- What holds of a question sent, given up and left alone holds after a retry. -/
theorem retry_holds {σ : Type} {P : σ → Prop} {pending late last : Prop}
    [Decidable pending] [Decidable late]
    [Decidable last] {sent over_ still : σ} (sends : P sent) (ends : P over_) (waits : P still) :
    P (if pending then sent else if late then if last then over_ else sent else still) := by
  split_ifs <;> assumption

/-! ## DNS -/

def dns : Client Dns.MnDns where
  asker d := ⟨d.sock, d.port, d.server, d.sentAt, d.tries, d.pending⟩
  waiting d := d.state = .waiting ∧ (Dns.build d).isSome = true ∧ d.name.length ≤ 63
  failed d := d.state = .failed
  poll := Dns.mnDnsPoll
  period := Dns.RETRY_TICKS
  most := Dns.MAX_TRIES

/-- A query is well within a frame. -/
theorem build_short {d : Dns.MnDns} {msg : List UInt8} (built : Dns.build d = some msg)
    (short : d.name.length ≤ 63) :
    msg.length ≤ MN_UDP_MAX_PAYLOAD := by
  rw [DnsQuery.build_length built]
  unfold MN_UDP_MAX_PAYLOAD
  omega

/-- A name that can be asked for is sent. -/
theorem dns_transmit {d : Dns.MnDns} (built : (Dns.build d).isSome = true) (short : d.name.length ≤ 63)
    (net : MnNetFull) (now : UInt16) : ∃ (r : SendResult) (after : MnNetFull) (sent : List Datagram),
      Posts net after sent ∧
      (r = .pending ↔ ¬ net.toMnNet.Resolves d.server) ∧
      Dns.transmit d net now = ({ d with
        pending := r == .pending, sentAt :=
          now, tries := if r = .pending then d.tries else d.tries + 1 }, after) := by
  obtain ⟨msg, built⟩ := Option.isSome_iff_exists.mp built
  obtain ⟨posts, result⟩ := sendUdp_spec net d.server d.port Dns.PORT_DNS msg
  refine ⟨_, _, _, posts, result (build_short built short), ?_⟩
  unfold Dns.transmit
  rw [built]

/-- A name that cannot be asked for ends the lookup. -/
theorem dns_malformed {d : Dns.MnDns} (none_ : Dns.build d = none) (net : MnNetFull) (now : UInt16) :
    Dns.transmit d net now = ({ d with state := .failed }, net) := by
  unfold Dns.transmit
  rw [none_]

theorem dns_retry {d : Dns.MnDns} (on : dns.waiting d) (net : MnNetFull) (now : UInt16) :
    ∃ over_, Retry dns.period dns.most (dns.asker d) net now over_
        (dns.asker (Dns.retry d net now).1) (Dns.retry d net now).2 ∧
      if over_ then dns.failed (Dns.retry d net now).1 else dns.waiting (Dns.retry d net now).1 := by
  obtain ⟨state, built, short⟩ := on
  obtain ⟨r, after, datagrams, posts, result, same⟩ := dns_transmit built short net now
  refine retry_due dns (c := d) ⟨state, built, short⟩ net now (Dns.transmit d net now)
    (Dns.ended d net .failed) ?_
    ⟨rfl, rfl, rfl⟩ rfl
  rw [same]
  exact ⟨r, datagrams, rfl, ⟨state, built, short⟩, posts, result⟩

theorem dns_lawful : Lawful dns where
  apart d on failed := by
    have failed : d.state = .failed := failed
    rw [on.1] at failed
    cases failed
  rests d net x now failed := by
    show Dns.mnDnsPoll d net x now = (d, net)
    rw [Dns.mnDnsPoll, if_pos (by rw [show d.state = .failed from failed]; decide)]
  retries d net x now on empty := by
    have polled : dns.poll d net x now = Dns.retry d net now := by
      have heard : mnNetUdpRecv net x d.sock MN_UDP_SOCK_BUF = (none, net) := recv_empty empty x _
      show Dns.mnDnsPoll d net x now = _
      rw [Dns.mnDnsPoll, if_neg (not_not.mpr on.1), heard]
    rw [polled]
    exact dns_retry on net now
  timed := by decide

/-- The name can be asked for: no label of it is empty. -/
def WellNamed (name : List UInt8) : Prop := ∀ label ∈ (Dns.storedName name).splitOn 0x2e, label ≠ []

instance (name : List UInt8) : Decidable (WellNamed name) :=
  inferInstanceAs (Decidable (∀ label ∈ (Dns.storedName name).splitOn 0x2e, label ≠ []))

private theorem storedName_short (name : List UInt8) : (Dns.storedName name).length ≤ 63 := by
  have := List.length_take_le Dns.MN_DNS_NAME_MAX (name.takeWhile (· ≠ 0))
  exact this

private theorem build_some {d : Dns.MnDns} {name : List UInt8} (same : d.name = Dns.storedName name) :
    (Dns.build d).isSome = true ↔ WellNamed name := by
  rw [DnsQuery.build_spec, same]
  unfold WellNamed
  split
  · rename_i fine
    exact iff_of_true rfl fun label member => (fine label member).1
  · rename_i bad
    refine iff_of_false (fun built => by cases built) fun nonempty => bad fun label member => ?_
    have inside := LabelCodec.length_le_of_mem_splitOn member
    exact ⟨nonempty label member, Nat.le_trans inside (storedName_short name)⟩

/-- The port a lookup begun at `now` opens. -/
def dnsPort (now : UInt16) : UInt16 := 49152 + (now &&& 0x0fff)

/-- A client's port is its base and 12 bits of the tick. -/
theorem port_some (base now : UInt16) (low : 0 < base.toNat) (high : base.toNat < 61440) :
    base + (now &&& 0x0fff) ≠ 0 := by
  have bits : (now &&& 0x0fff).toNat ≤ 4095 := by
    rw [UInt16.toNat_and]
    exact Nat.and_le_right
  intro none_
  have sum : (base + (now &&& 0x0fff)).toNat = base.toNat + (now &&& 0x0fff).toNat := by
    rw [UInt16.toNat_add]
    omega
  rw [none_, show UInt16.toNat 0 = 0 from rfl] at sum
  omega

theorem dnsPort_some (now : UInt16) : dnsPort now ≠ 0 := port_some 49152 now (by decide) (by decide)

/-- A lookup finds no socket for its question, or one it sends it from. -/
theorem dnsStart_cases (d : Dns.MnDns) (net : MnNetFull) (name : List UInt8)
    (server : Ip4) (now : UInt16) :
    (CannotOpen (givenBack d.sock net) (dnsPort now) ∧ Dns.mnDnsStart d net name server now =
      ({ Dns.begun d (givenBack d.sock net).nif.mac name server now with
        sock := 0xff, state := .failed },
        givenBack d.sock net)) ∨
    ∃ i, ((givenBack d.sock net).sock i).port = 0 ∧
      (∀ j, ((givenBack d.sock net).sock j).port ≠ dnsPort now) ∧
      Dns.mnDnsStart d net name server now = Dns.transmit
        { Dns.begun d (givenBack d.sock net).nif.mac name server now with
          sock := UInt8.ofNat i, state := .waiting }
        (opened (givenBack d.sock net) i (dnsPort now)) now := by
  unfold Dns.mnDnsStart
  dsimp only
  rw [show (if d.sock ≠ 0xff then mnNetUdpClose net d.sock else net) = givenBack d.sock net from rfl]
  generalize givenBack d.sock net = before
  have opening := udpOpen_opening before (dnsPort now)
  rw [show (Dns.begun d before.nif.mac name server now).port = dnsPort now from rfl]
  generalize mnNetUdpOpen before (dnsPort now) = out at opening
  cases opening with
  | refused why => exact Or.inl ⟨why, rfl⟩
  | opens i free alone =>
    dsimp only
    rw [if_neg (given i).1]
    exact Or.inr ⟨i, free, alone, rfl⟩

/-- A lookup begins as it should where its name can be asked for, or no socket
can be had anyway. -/
theorem dnsStart_begins (d : Dns.MnDns) (net : MnNetFull) {name : List UInt8}
    (server : Ip4) (now : UInt16)
    (fine : WellNamed name ∨ CannotOpen (givenBack d.sock net) (dnsPort now)) :
    Begins dns (givenBack d.sock net)
      (dnsPort now) server now (Dns.mnDnsStart d net name server now) := by
  obtain ⟨why, same⟩ | ⟨i, free, alone, same⟩ := dnsStart_cases d net name server now
  · rw [same]
    exact .refused _ why rfl rfl
  · rw [same]
    have named := fine.resolve_right (asks_open free alone)
    generalize givenBack d.sock net = before at free alone
    obtain ⟨r, after, sent, posts, result, same⟩ := dns_transmit
      (d := { Dns.begun d before.nif.mac name server now with sock := UInt8.ofNat i, state := .waiting })
      ((build_some rfl).mpr named) (storedName_short name) (opened before i (dnsPort now)) now
    refine (congrArg (Begins dns before (dnsPort now) server now) same).mpr ?_
    exact .asks _ i r after sent free alone ⟨rfl, (build_some rfl).mpr named, storedName_short name⟩
      ⟨UInt8.ofNat i, dnsPort now, server, d.sentAt, 0, d.pending⟩ ⟨rfl, rfl, rfl, rfl⟩ rfl posts result

/-- A lookup of a malformed name has failed, and keeps its socket. -/
theorem dnsStart_malformed (d : Dns.MnDns) (net : MnNetFull) {name : List UInt8} (bad : ¬ WellNamed name)
    (server : Ip4) (now : UInt16) (can : ¬ CannotOpen (givenBack d.sock net) (dnsPort now)) :
    ∃ i, ((givenBack d.sock net).sock i).port = 0 ∧ Dns.mnDnsStart d net name server now =
      ({ Dns.begun d (givenBack d.sock net).nif.mac name server now with
          sock := UInt8.ofNat i, state := .failed },
        opened (givenBack d.sock net) i (dnsPort now)) := by
  obtain ⟨why, _⟩ | ⟨i, free, _, same⟩ := dnsStart_cases d net name server now
  · exact absurd why can
  · refine ⟨i, free, same.trans (dns_malformed ?_ _ now)⟩
    rw [← Option.not_isSome_iff_eq_none]
    exact fun some_ => bad ((build_some rfl).mp some_)

/-! ## NTP -/

def ntp : Client Ntp.MnNtp where
  asker n := ⟨n.sock, n.port, n.server, n.sentAt, n.tries, n.pending⟩
  waiting n := n.state = .waiting
  failed n := n.state = .failed
  poll := Ntp.mnNtpPoll
  period := Ntp.RETRY_TICKS
  most := Ntp.MAX_TRIES

private theorem ntp_transmit (n : Ntp.MnNtp) (net : MnNetFull) (now : UInt16) :
    ∃ (r : SendResult) (after : MnNetFull) (sent : List Datagram), Posts net after sent ∧
      (r = .pending ↔ ¬ net.toMnNet.Resolves n.server) ∧
      Ntp.transmit n net now = ({ n with
        pending := r == .pending, sentAt :=
          now, tries := if r = .pending then n.tries else n.tries + 1 }, after) := by
  obtain ⟨posts, result⟩ := sendUdp_spec net n.server n.port Ntp.PORT_NTP Ntp.request
  exact ⟨_, _, _, posts, result (by decide), rfl⟩

theorem ntp_retry {n : Ntp.MnNtp} (on : ntp.waiting n) (net : MnNetFull) (now : UInt16) :
    ∃ over_, Retry ntp.period ntp.most (ntp.asker n) net now over_
        (ntp.asker (Ntp.retry n net now).1) (Ntp.retry n net now).2 ∧
      if over_ then ntp.failed (Ntp.retry n net now).1 else ntp.waiting (Ntp.retry n net now).1 := by
  obtain ⟨r, after, datagrams, posts, result, same⟩ := ntp_transmit n net now
  refine retry_due ntp on net now (Ntp.transmit n net now) (Ntp.ended n net .failed) ?_
    ⟨rfl, rfl, rfl⟩ rfl
  rw [same]
  exact ⟨r, datagrams, rfl, on, posts, result⟩

theorem ntp_lawful : Lawful ntp where
  apart n on failed := by
    have on : n.state = .waiting := on
    rw [show n.state = .failed from failed] at on
    cases on
  rests n net x now failed := by
    show Ntp.mnNtpPoll n net x now = (n, net)
    rw [Ntp.mnNtpPoll, if_pos (by rw [show n.state = .failed from failed]; decide)]
  retries n net x now on empty := by
    have polled : ntp.poll n net x now = Ntp.retry n net now := by
      have heard : mnNetUdpRecv net x n.sock Ntp.MSG_LEN = (none, net) := recv_empty empty x _
      show Ntp.mnNtpPoll n net x now = _
      rw [Ntp.mnNtpPoll, if_neg (not_not.mpr (show n.state = .waiting from on)), heard]
    rw [polled]
    exact ntp_retry on net now
  timed := by decide

/-- The port a request begun at `now` opens. -/
def ntpPort (now : UInt16) : UInt16 := 50000 + (now &&& 0x0fff)

theorem ntpPort_some (now : UInt16) : ntpPort now ≠ 0 := port_some 50000 now (by decide) (by decide)

theorem ntpStart_begins (n : Ntp.MnNtp) (net : MnNetFull) (server : Ip4) (now : UInt16) :
    Begins ntp (givenBack n.sock net) (ntpPort now) server now (Ntp.mnNtpStart n net server now) := by
  unfold Ntp.mnNtpStart
  dsimp only
  rw [show (if n.sock ≠ 0xff then mnNetUdpClose net n.sock else net) = givenBack n.sock net from rfl,
    show 50000 + (now &&& 0x0fff) = ntpPort now from rfl]
  generalize givenBack n.sock net = before
  have opening := udpOpen_opening before (ntpPort now)
  generalize mnNetUdpOpen before (ntpPort now) = out at opening
  cases opening with
  | refused why => exact .refused _ why rfl rfl
  | opens i free alone =>
    dsimp only
    rw [if_neg (given i).1]
    obtain ⟨r, after, sent, posts, result, same⟩ := ntp_transmit
      { n with
        server, seconds := 0, port := ntpPort now, tries := 0, sock := UInt8.ofNat i, state := .waiting }
      (opened before i (ntpPort now)) now
    refine (congrArg (Begins ntp before (ntpPort now) server now) same).mpr ?_
    exact .asks _ i r after sent free alone rfl
      ⟨UInt8.ofNat i, ntpPort now, server, n.sentAt, 0, n.pending⟩
      ⟨rfl, rfl, rfl, rfl⟩ rfl posts result
/-! ## Concrete cases -/

/-- The clients before their first question. -/
def freshDns : Dns.MnDns :=
  { state := .idle, sock := 0xff, id := 0, port := 0, server := zeroIp, ip := zeroIp,
    name := [], sentAt := 0
    tries := 0, pending := false }

def freshNtp : Ntp.MnNtp :=
  { state := .idle, sock := 0xff, port := 0, server := zeroIp, seconds := 0, sentAt := 0, tries := 0
    pending := false }

end MegaNet.Lookups
