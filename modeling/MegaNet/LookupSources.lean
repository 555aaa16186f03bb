import MegaNet.Core.NetPoll
import MegaNet.DnsParse
import MegaNet.Lookups
import MegaNet.Transition

/-! Which datagram ends a lookup. Neither client looks at where one came from;
what counts is what it holds. Two runs that receive the same as far as it counts
go the same way, whatever the sources. -/
namespace MegaNet.LookupSources
open MegaNet.Core Transition TcpEmission TcpConnection UdpOutcomes Lookups

variable {net net' net₁ net₂ net₃ : MnNetFull} {x x₁ x₂ : XMem} {now : UInt16}
  {sock : UInt8} {m : List UInt8}

/-! ## Layers that differ in their mailboxes -/

/-- Two layers that have the same sockets open, the same routes and link, and
have sent the same. -/
structure Alike (net₁ net₂ : MnNetFull) : Prop where
  base : net₁.toMnNet = net₂.toMnNet
  ports : ∀ i, (net₁.sock i).port = (net₂.sock i).port
  posted : net₁.posted = net₂.posted

theorem Alike.refl (net : MnNetFull) : Alike net net := ⟨rfl, fun _ => rfl, rfl⟩

theorem Alike.symm (alike : Alike net₁ net₂) : Alike net₂ net₁ :=
  ⟨alike.base.symm, fun i => (alike.ports i).symm, alike.posted.symm⟩

theorem Alike.trans (first : Alike net₁ net₂) (second : Alike net₂ net₃) : Alike net₁ net₃ :=
  ⟨first.base.trans second.base, fun i => (first.ports i).trans (second.ports i),
    first.posted.trans second.posted⟩

/-- The same outcome, on layers that are alike. -/
def Same {σ : Type} (out₁ out₂ : σ × MnNetFull) : Prop := out₁.1 = out₂.1 ∧ Alike out₁.2 out₂.2

theorem Same.split {σ : Type} {out₁ out₂ : σ × MnNetFull} (same : Same out₁ out₂) :
    ∃ c net₁ net₂, out₁ = (c, net₁) ∧ out₂ = (c, net₂) ∧ Alike net₁ net₂ :=
  ⟨out₁.1, out₁.2, out₂.2, rfl, Prod.ext same.1.symm rfl, same.2⟩

private theorem setSock_alike (alike : Alike net₁ net₂) (i : Fin 4) {s₁ s₂ : MnUdpSock}
    (same : s₁.port = s₂.port) :
    Alike (net₁.setSock i s₁) (net₂.setSock i s₂) := by
  refine ⟨alike.base, fun j => ?_, alike.posted⟩
  by_cases here : j = i
  · rw [here, setSock_self, setSock_self, same]
  · rw [setSock_other _ _ here, setSock_other _ _ here, alike.ports j]

private theorem socketOn_alike (alike : Alike net₁ net₂) (port : UInt16) :
    socketOn net₁.sock port = socketOn net₂.sock port := by
  unfold socketOn
  congr 1
  funext i
  rw [alike.ports i]

private theorem udpOpen_same (alike : Alike net₁ net₂) (port : UInt16) :
    Same (mnNetUdpOpen net₁ port) (mnNetUdpOpen net₂ port) := by
  unfold mnNetUdpOpen
  rw [socketOn_alike alike port, socketOn_alike alike 0]
  cases socketOn net₂.sock port with
  | some => exact ⟨rfl, alike⟩
  | none =>
    cases socketOn net₂.sock 0 with
    | some i => exact ⟨rfl, setSock_alike alike i rfl⟩
    | none => exact ⟨rfl, alike⟩

private theorem udpClose_alike (alike : Alike net₁ net₂) (sock : UInt8) :
    Alike (mnNetUdpClose net₁ sock) (mnNetUdpClose net₂ sock) := by
  unfold mnNetUdpClose
  split
  · exact setSock_alike alike _ rfl
  · exact alike

private theorem givenBack_alike (alike : Alike net₁ net₂) (sock : UInt8) :
    Alike (givenBack sock net₁) (givenBack sock net₂) := by
  unfold givenBack
  split
  · exact udpClose_alike alike sock
  · exact alike

private theorem sendUdp_same (alike : Alike net₁ net₂) (dst : Ip4) (sport dport : UInt16)
    (payload : List UInt8) :
    Same (mnNetSendUdp net₁ dst sport dport payload) (mnNetSendUdp net₂ dst sport dport payload) := by
  have posted : net₁.posted ++ [⟨dst, sport, dport, payload⟩] = net₂.posted ++
      [⟨dst, sport, dport, payload⟩] := by
    rw [alike.posted]
  unfold mnNetSendUdp
  dsimp only
  by_cases long : payload.length > MN_UDP_MAX_PAYLOAD
  · rw [if_pos long, if_pos long]
    exact ⟨rfl, alike.base, alike.ports, posted⟩
  · rw [if_neg long, if_neg long, alike.base]
    generalize mnNetTxBegin net₂.toMnNet dst = begun
    obtain ⟨_ | mac, tx⟩ := begun
    · exact ⟨rfl, rfl, alike.ports, posted⟩
    · exact ⟨rfl, rfl, alike.ports, posted⟩

/-- A mailbox filled or emptied makes no difference. -/
theorem mailbox_alike (net : MnNetFull) (i : Fin 4) {s : MnUdpSock} (same : s.port = (net.sock i).port) :
    Alike net (net.setSock i s) := by
  refine ⟨rfl, fun j => ?_, rfl⟩
  by_cases here : j = i
  · rw [here, setSock_self, same]
  · rw [setSock_other _ _ here]

/-- So a datagram that comes in for a socket makes none. -/
theorem deliverUdp_alike (net : MnNetFull) (x : XMem) (ip : List UInt8) : Alike net
    (deliverUdp net x ip).1 := by
  have delivery := deliverUdp_delivery net x ip
  generalize deliverUdp net x ip = out at delivery
  cases delivery with
  | invalid | dropped => exact ⟨rfl, fun _ => rfl, rfl⟩
  | mailed i =>
    have filled : Alike net (net.setSock i (mailed (net.sock i) ip)) := mailbox_alike net i rfl
    exact ⟨rfl, filled.ports, rfl⟩

/-! ## What counts of a datagram -/

/-- A message waits in the mailbox of a socket, to be received with a buffer of
`cap` bytes. -/
def Waits (net : MnNetFull) (x : XMem) (sock : UInt8) (cap : UInt16) (m : List UInt8) : Prop :=
  ∃ i : Fin 4, sock.toNat = i ∧ (net.sock i).pending = true ∧
    m = mnXmemRead x (net.sock i).xseg (net.sock i).xoff
      (if (net.sock i).len > cap then cap else (net.sock i).len)

/-- The header of an answer to query `id`, successful or not. -/
def Replies (id : UInt16) (m : List UInt8) : Prop :=
  12 ≤ m.length ∧ get16 m 0 = id ∧ get16 m 2 &&& Dns.FLAG_QR ≠ 0

/-- An answer that ends the lookup: it reports an error, or has an address. -/
def Decides (d : Dns.MnDns) (m : List UInt8) : Prop :=
  Replies d.id m ∧ (get16 m 2 &&& Dns.RCODE_MASK ≠ 0 ∨ (Dns.parse d m).1 = true)

instance (id : UInt16) (m : List UInt8) : Decidable (Replies id m) :=
  inferInstanceAs (Decidable (_ ∧ _ ∧ _))

instance (d : Dns.MnDns) (m : List UInt8) : Decidable (Decides d m) :=
  inferInstanceAs (Decidable (_ ∧ (_ ∨ _)))

private theorem header_iff (short : m.length ≤ 576) (id : UInt16) :
    UInt16.ofNat m.length < Dns.HDR_LEN ∨ get16 m 0 ≠ id ↔ ¬ (12 ≤ m.length ∧ get16 m 0 = id) := by
  rw [UInt16.lt_iff_toNat_lt, Words.len_toNat (short.trans (by decide)), not_and_or, Nat.not_le]
  rfl

/-- What `parse` does with a message, by what it holds. -/
theorem parse_cases (d : Dns.MnDns) (short : m.length ≤ 576) :
    (¬ Decides d m ∧ Dns.parse d m = (false, d)) ∨
    (Replies d.id m ∧ get16 m 2 &&& Dns.RCODE_MASK ≠ 0 ∧
      Dns.parse d m = (false, { d with state := .failed })) ∨
    (DnsParse.Answers d.id m ∧ ∃ ip, Dns.parse d m = (true, { d with ip })) := by
  by_cases header : UInt16.ofNat m.length < Dns.HDR_LEN ∨ get16 m 0 ≠ d.id
  · refine Or.inl ⟨fun decides => (header_iff short d.id).mp header ⟨decides.1.1, decides.1.2.1⟩, ?_⟩
    unfold Dns.parse
    dsimp only
    rw [if_pos header]
  obtain ⟨long, id⟩ := not_not.mp ((header_iff short d.id).not.mp header)
  by_cases query : get16 m 2 &&& Dns.FLAG_QR = 0
  · refine Or.inl ⟨fun decides => decides.1.2.2 query, ?_⟩
    unfold Dns.parse
    dsimp only
    rw [if_neg header, if_pos query]
  by_cases error : get16 m 2 &&& Dns.RCODE_MASK ≠ 0
  · refine Or.inr (Or.inl ⟨⟨long, id, query⟩, error, ?_⟩)
    unfold Dns.parse
    dsimp only
    rw [if_neg header, if_neg query, if_pos error]
  have undecided : Dns.parse d m = (false, d) → ¬ Decides d m := by
    rintro same ⟨_, failed | found⟩
    · exact error failed
    · rw [same] at found
      cases found
  cases asked : Dns.questions m (UInt16.ofNat m.length) (get16 m 4).toNat Dns.HDR_LEN with
  | none =>
    have parsed : Dns.parse d m = (false, d) := by
      unfold Dns.parse
      dsimp only
      rw [if_neg header, if_neg query, if_neg error, asked]
    exact Or.inl ⟨undecided parsed, parsed⟩
  | some o =>
    cases told : Dns.answers m (UInt16.ofNat m.length) (get16 m 6).toNat o with
    | none =>
      have parsed : Dns.parse d m = (false, d) := by
        unfold Dns.parse
        dsimp only
        rw [if_neg header, if_neg query, if_neg error, asked]
        dsimp only
        rw [told]
      exact Or.inl ⟨undecided parsed, parsed⟩
    | some ip =>
      have parsed : Dns.parse d m = (true, { d with ip }) := by
        unfold Dns.parse
        dsimp only
        rw [if_neg header, if_neg query, if_neg error, asked]
        dsimp only
        rw [told]
      exact Or.inr (Or.inr ⟨⟨long, id, query, not_not.mp error⟩, ip, parsed⟩)

/-- A message that does not decide a lookup leaves it as it was. -/
theorem heard_undecided {d : Dns.MnDns} (short : m.length ≤ 576) (undecided : ¬ Decides d m) :
    Dns.heard d m = d := by
  obtain ⟨_, parsed⟩ | ⟨replies, error, _⟩ | ⟨answers, ip, parsed⟩ := parse_cases d short
  · unfold Dns.heard
    rw [parsed]
    rfl
  · exact absurd ⟨replies, Or.inl error⟩ undecided
  · obtain ⟨long, id, query, _⟩ := answers
    exact absurd ⟨⟨long, id, query⟩, Or.inr (by rw [parsed])⟩ undecided

/-- One that does ends it: in DONE with an address, in FAILED with an error. -/
theorem heard_decided {d : Dns.MnDns} (short : m.length ≤ 576) (decides : Decides d m) :
    ((Dns.heard d m).state = .done ∧ DnsParse.Answers d.id m ∧ (Dns.parse d m).1 = true) ∨
      ((Dns.heard d m).state = .failed ∧ Replies d.id m ∧ get16 m 2 &&& Dns.RCODE_MASK ≠ 0) := by
  obtain ⟨undecided, _⟩ | ⟨replies, error, parsed⟩ | ⟨answers, ip, parsed⟩ := parse_cases d short
  · exact absurd decides undecided
  · refine Or.inr ⟨?_, replies, error⟩
    unfold Dns.heard
    rw [parsed]
    rfl
  · refine Or.inl ⟨?_, answers, by rw [parsed]⟩
    unfold Dns.heard
    rw [parsed]
    rfl

/-! ## A client by what it hears -/

/-- A client of type `σ`, started with a `τ`: which datagrams it listens to and
which of them count, what becomes of it with one that does, and what it does at
`now` without. -/
structure Hearing (σ τ : Type) where
  start : τ → σ → MnNetFull → UInt16 → σ × MnNetFull
  poll : σ → MnNetFull → XMem → UInt16 → σ × MnNetFull
  waiting : σ → Prop
  sock : σ → UInt8
  cap : UInt16
  decides : σ → List UInt8 → Bool
  settle : σ → List UInt8 → MnNetFull → σ × MnNetFull
  retry : σ → MnNetFull → UInt16 → σ × MnNetFull

/-- The contents of the datagram that a poll will receive, if they count. -/
def Hearing.offered {σ τ : Type} (h : Hearing σ τ) (c : σ) (net : MnNetFull) (x : XMem) :
    Option (List UInt8) :=
  ((mnNetUdpRecv net x (h.sock c) h.cap).1.map Received.data).filter (h.decides c)

def dnsHearing : Hearing Dns.MnDns (List UInt8 × Ip4) where
  start given d net now := Dns.mnDnsStart d net given.1 given.2 now
  poll := Dns.mnDnsPoll
  waiting d := d.state = .waiting
  sock d := d.sock
  cap := MN_UDP_SOCK_BUF
  decides d m := decide (Decides d m)
  settle d m net := Dns.ended (Dns.heard d m) net (Dns.heard d m).state
  retry := Dns.retry

def ntpHearing : Hearing Ntp.MnNtp Ip4 where
  start server n net now := Ntp.mnNtpStart n net server now
  poll := Ntp.mnNtpPoll
  waiting n := n.state = .waiting
  sock n := n.sock
  cap := Ntp.MSG_LEN
  decides _ m := Ntp.isReply m
  settle n m net := Ntp.ended { n with seconds := get32 m 40 } net .done
  retry := Ntp.retry

section
variable {σ τ : Type} (h : Hearing σ τ)

/-- What a poll receives: nothing that counts, and then at most a mailbox is
emptied; or a message that does. -/
theorem offered_cases (c : σ) (net : MnNetFull) (x : XMem) :
    (h.offered c net x = none ∧ ∃ net', Alike net net' ∧
      (mnNetUdpRecv net x (h.sock c) h.cap = (none, net') ∨
        ∃ r, mnNetUdpRecv net x (h.sock c) h.cap = (some r, net') ∧ r.data.length ≤ h.cap.toNat ∧
          h.decides c r.data = false)) ∨
    ∃ r net', h.offered c net x = some r.data ∧ Alike net net' ∧
      mnNetUdpRecv net x (h.sock c) h.cap = (some r, net') ∧ r.data.length ≤ h.cap.toNat ∧
      h.decides c r.data = true ∧ Waits net x (h.sock c) h.cap r.data := by
  have reception := udpRecv_reception net x (h.sock c) h.cap
  have offered : h.offered c net x =
    ((mnNetUdpRecv net x (h.sock c) h.cap).1.map Received.data).filter (h.decides c) := rfl
  generalize mnNetUdpRecv net x (h.sock c) h.cap = out at reception offered
  cases reception with
  | nothing => exact Or.inl ⟨offered, net, .refl net, Or.inl rfl⟩
  | datagram i here waits =>
    have short : (mnXmemRead x (net.sock i).xseg (net.sock i).xoff
        (if (net.sock i).len > h.cap then h.cap else (net.sock i).len)).length ≤ h.cap.toNat := by
      rw [mnXmemRead_length]
      split
      · exact Nat.le_refl _
      · rename_i fits
        exact UInt16.le_iff_toNat_le.mp (UInt16.not_lt.mp fits)
    have there : Waits net x (h.sock c) h.cap (mnXmemRead x (net.sock i).xseg (net.sock i).xoff
        (if (net.sock i).len > h.cap then h.cap else (net.sock i).len)) := ⟨i, here, waits, rfl⟩
    have emptied : Alike net (net.setSock i { net.sock i with pending := false }) :=
      mailbox_alike net i rfl
    dsimp only [Option.map_some] at offered
    generalize mnXmemRead x (net.sock i).xseg (net.sock i).xoff
      (if (net.sock i).len > h.cap then h.cap else (net.sock i).len) = m at short there offered ⊢
    cases counts : h.decides c m with
    | false =>
      rw [Option.filter_some, if_neg (by rw [counts]; decide)] at offered
      exact Or.inl ⟨offered, _, emptied, Or.inr ⟨_, rfl, short, counts⟩⟩
    | true =>
      rw [Option.filter_some, if_pos counts] at offered
      exact Or.inr ⟨⟨m, (net.sock i).srcIp, (net.sock i).srcPort⟩, _, offered, emptied,
        rfl, short, counts, there⟩

/-- What a poll comes to: with the client at rest, with nothing that counts, or
with a message that does. -/
inductive Hearing.Polls (c : σ) (net : MnNetFull) (x : XMem) (now : UInt16) : σ × MnNetFull → Prop where
  | rests (off : ¬ h.waiting c) : Polls c net x now (c, net)
  | retries (on : h.waiting c) (nothing : h.offered c net x = none) {net' : MnNetFull}
      (alike : Alike net net') :
      Polls c net x now (h.retry c net' now)
  | settles (on : h.waiting c) {m : List UInt8} (got : h.offered c net x = some m)
      (short : m.length ≤ h.cap.toNat) (decides : h.decides c m = true)
      (waits : Waits net x (h.sock c) h.cap m)
      {net' : MnNetFull} (alike : Alike net net') : Polls c net x now (h.settle c m net')

/-- A client whose polls are such, and that does the same on layers that are
alike. -/
structure Hearing.Lawful : Prop where
  polls : ∀ c net x now, h.Polls c net x now (h.poll c net x now)
  start_same : ∀ given c {net₁ net₂} now, Alike net₁ net₂ →
    Same (h.start given c net₁ now) (h.start given c net₂ now)
  retry_same : ∀ c {net₁ net₂} now, Alike net₁ net₂ → Same (h.retry c net₁ now) (h.retry c net₂ now)
  settle_same : ∀ c m {net₁ net₂}, Alike net₁ net₂ → Same (h.settle c m net₁) (h.settle c m net₂)

variable {h}

/-- Polls that receive the same, as far as it counts, end the same. -/
theorem poll_same (lawful : h.Lawful) (c : σ) (alike : Alike net₁ net₂)
    (same : h.offered c net₁ x₁ = h.offered c net₂ x₂) (now : UInt16) :
    Same (h.poll c net₁ x₁ now) (h.poll c net₂ x₂ now) := by
  have first := lawful.polls c net₁ x₁ now
  have second := lawful.polls c net₂ x₂ now
  generalize h.poll c net₁ x₁ now = out₁ at first
  generalize h.poll c net₂ x₂ now = out₂ at second
  cases first with
  | rests off =>
    cases second with
    | rests => exact ⟨rfl, alike⟩
    | retries on | settles on => exact absurd on off
  | retries on nothing mine =>
    cases second with
    | rests off => exact absurd on off
    | retries _ _ other => exact lawful.retry_same c now (mine.symm.trans (alike.trans other))
    | settles _ got =>
      rw [nothing, got] at same
      cases same
  | settles on got _ _ _ mine =>
    cases second with
    | rests off => exact absurd on off
    | retries _ nothing =>
      rw [nothing, got] at same
      cases same
    | settles _ got' _ _ _ other =>
      rw [got, got'] at same
      obtain rfl := Option.some.inj same
      exact lawful.settle_same c _ (mine.symm.trans (alike.trans other))

/-! ## Two runs -/

/-- One step of two runs: the same start, a poll at the same time that receives
the same as far as it counts, or anything else that leaves the layers alike. -/
inductive Twin (h : Hearing σ τ) : (σ × MnNetFull) × (σ × MnNetFull) →
    (σ × MnNetFull) × (σ × MnNetFull) → Prop where
  | starts (s₁ s₂ : σ × MnNetFull) (given : τ) (now : UInt16) :
      Twin h (s₁, s₂) (h.start given s₁.1 s₁.2 now, h.start given s₂.1 s₂.2 now)
  | polls (s₁ s₂ : σ × MnNetFull) (x₁ x₂ : XMem) (now : UInt16)
      (same : h.offered s₁.1 s₁.2 x₁ = h.offered s₂.1 s₂.2 x₂) :
      Twin h (s₁, s₂) (h.poll s₁.1 s₁.2 x₁ now, h.poll s₂.1 s₂.2 x₂ now)
  | elsewhere (s₁ s₂ : σ × MnNetFull) (after₁ after₂ : MnNetFull) (alike : Alike after₁ after₂) :
      Twin h (s₁, s₂) ((s₁.1, after₁), (s₂.1, after₂))

/-- Two runs from the same client on layers that are alike. -/
def Twins (h : Hearing σ τ) (s : (σ × MnNetFull) × (σ × MnNetFull)) : Prop :=
  Reachable (fun s => Same s.1 s.2) (Twin h) s

private theorem twin_same (lawful : h.Lawful) {s s' : (σ × MnNetFull) × (σ × MnNetFull)}
    (same : Same s.1 s.2)
    (twin : Twin h s s') : Same s'.1 s'.2 := by
  cases twin with
  | starts s₁ s₂ given now =>
    obtain ⟨c, net₁, net₂, rfl, rfl, alike⟩ := Same.split same
    exact lawful.start_same given _ now alike
  | polls s₁ s₂ x₁ x₂ now offered =>
    obtain ⟨c, net₁, net₂, rfl, rfl, alike⟩ := Same.split same
    exact poll_same lawful _ alike offered now
  | elsewhere s₁ s₂ after₁ after₂ alike => exact ⟨same.1, alike⟩

private theorem twins_same (lawful : h.Lawful) {s : (σ × MnNetFull) × (σ × MnNetFull)}
    (twins : Twins h s) :
    Same s.1 s.2 :=
  twins.invariant (fun _ same => same) fun _ _ _ same twin => twin_same lawful same twin

end

/-! ## The resolver -/

private theorem dnsTransmit_same (alike : Alike net₁ net₂) (d : Dns.MnDns) (now : UInt16) :
    Same (Dns.transmit d net₁ now) (Dns.transmit d net₂ now) := by
  unfold Dns.transmit
  cases Dns.build d with
  | none => exact ⟨rfl, alike⟩
  | some msg =>
    obtain ⟨r, _, _, first, second, after⟩ := (sendUdp_same alike d.server d.port Dns.PORT_DNS msg).split
    dsimp only
    rw [first, second]
    exact ⟨rfl, after⟩

private theorem dnsRetry_same (alike : Alike net₁ net₂) (d : Dns.MnDns) (now : UInt16) :
    Same (Dns.retry d net₁ now) (Dns.retry d net₂ now) := by
  unfold Dns.retry
  exact retry_related (dnsTransmit_same alike d now) ⟨rfl, udpClose_alike alike d.sock⟩ ⟨rfl, alike⟩

private theorem dnsStart_same (alike : Alike net₁ net₂) (d : Dns.MnDns) (name : List UInt8)
    (server : Ip4) (now : UInt16) :
    Same (Dns.mnDnsStart d net₁ name server now) (Dns.mnDnsStart d net₂ name server now) := by
  have back := givenBack_alike alike d.sock
  unfold Dns.mnDnsStart
  rw [show (if d.sock ≠ 0xff then mnNetUdpClose net₁ d.sock else net₁) = givenBack d.sock net₁ from rfl,
    show (if d.sock ≠ 0xff then mnNetUdpClose net₂ d.sock else net₂) = givenBack d.sock net₂ from rfl]
  generalize givenBack d.sock net₁ = before₁ at back
  generalize givenBack d.sock net₂ = before₂ at back
  dsimp only
  rw [show before₁.nif.mac = before₂.nif.mac from congrArg (fun net : MnNet => net.nif.mac) back.base]
  generalize Dns.begun d before₂.nif.mac name server now = d'
  obtain ⟨sock, _, _, first, second, after⟩ := (udpOpen_same back d'.port).split
  rw [first, second]
  dsimp only
  split
  · exact ⟨rfl, after⟩
  · exact dnsTransmit_same after _ now

private theorem dns_polls (d : Dns.MnDns) (net : MnNetFull) (x : XMem) (now : UInt16) :
    dnsHearing.Polls d net x now (Dns.mnDnsPoll d net x now) := by
  unfold Dns.mnDnsPoll
  by_cases on : d.state = .waiting
  · rw [if_neg (not_not.mpr on)]
    obtain ⟨nothing, net', alike, received | ⟨r, received, short, ignored⟩⟩ |
      ⟨r, net', got, alike, received, short, counts, waits⟩ := offered_cases dnsHearing d net x
    · rw [show mnNetUdpRecv net x d.sock MN_UDP_SOCK_BUF = (none, net') from received]
      exact .retries on nothing alike
    · rw [show mnNetUdpRecv net x d.sock MN_UDP_SOCK_BUF = (some r, net') from received]
      dsimp only
      rw [heard_undecided short (of_decide_eq_false ignored), if_neg (not_not.mpr on)]
      exact .retries on nothing alike
    · rw [show mnNetUdpRecv net x d.sock MN_UDP_SOCK_BUF = (some r, net') from received]
      have over_ : (Dns.heard d r.data).state ≠ .waiting := by
        obtain ⟨done, _⟩ | ⟨failed, _⟩ := heard_decided short (of_decide_eq_true counts)
        · rw [done]
          decide
        · rw [failed]
          decide
      dsimp only
      rw [if_pos over_]
      exact .settles on got short counts waits alike
  · rw [if_pos on]
    exact .rests on

private theorem dns_hears : dnsHearing.Lawful where
  polls := dns_polls
  start_same given d _ _ now alike := dnsStart_same alike d given.1 given.2 now
  retry_same d _ _ now alike := dnsRetry_same alike d now
  settle_same d m _ _ alike := ⟨rfl, udpClose_alike alike (Dns.heard d m).sock⟩

/-- What a lookup's end is owed to: DONE to a message in its own mailbox that
answers the query, and FAILED to one that reports an error, or else to nothing
that was received. -/
structure DnsOwes (d : Dns.MnDns) (net : MnNetFull) (x : XMem) (now : UInt16) : Prop where
  done : (Dns.mnDnsPoll d net x now).1.state = .done → ∃ m, Waits net x d.sock MN_UDP_SOCK_BUF m ∧
    DnsParse.Answers d.id m ∧ (Dns.parse d m).1 = true ∧
      (Dns.mnDnsPoll d net x now).1.ip = (Dns.parse d m).2.ip
  failed : (Dns.mnDnsPoll d net x now).1.state = .failed →
    (∃ m, Waits net x d.sock MN_UDP_SOCK_BUF m ∧ Replies d.id m ∧ get16 m 2 &&& Dns.RCODE_MASK ≠ 0) ∨
      ∀ net' x', Alike net net' → dnsHearing.offered d net' x' = none →
        (Dns.mnDnsPoll d net' x' now).1.state = .failed

private theorem dnsRetry_state (d : Dns.MnDns) (net : MnNetFull) (now : UInt16) :
    (Dns.retry d net now).1.state = d.state ∨ (Dns.retry d net now).1.state = .failed := by
  have sent : (Dns.transmit d net now).1.state = d.state ∨
      (Dns.transmit d net now).1.state = .failed := by
    unfold Dns.transmit
    cases Dns.build d with
    | none => exact Or.inr rfl
    | some => exact Or.inl rfl
  unfold Dns.retry
  exact retry_holds (P := fun out : Dns.MnDns × MnNetFull => out.1.state = d.state ∨
    out.1.state = .failed)
    sent (Or.inr rfl) (Or.inl rfl)

private theorem dns_owes {d : Dns.MnDns} (on : d.state = .waiting) (net : MnNetFull)
    (x : XMem) (now : UInt16) :
    DnsOwes d net x now := by
  have polls := dns_polls d net x now
  have alike_polls : ∀ net' x', Alike net net' →
    dnsHearing.offered d net x = dnsHearing.offered d net' x' →
      (Dns.mnDnsPoll d net' x' now).1 = (Dns.mnDnsPoll d net x now).1 := fun net' x' alike same =>
    (poll_same dns_hears d alike same now).1.symm
  constructor
  · intro done
    generalize Dns.mnDnsPoll d net x now = out at polls done
    cases polls with
    | rests off => exact absurd on off
    | retries _ _ alike =>
      have done : (Dns.retry d _ now).1.state = .done := done
      obtain same | failed := dnsRetry_state d _ now
      · rw [same, on] at done
        cases done
      · rw [failed] at done
        cases done
    | settles _ got short decides waits alike =>
      obtain ⟨_, answers, found⟩ | ⟨failed, _⟩ := heard_decided short (of_decide_eq_true decides)
      · refine ⟨_, waits, answers, found, ?_⟩
        show (Dns.heard d _).ip = _
        unfold Dns.heard
        rw [if_pos found]
      · have done : (Dns.heard d _).state = .done := done
        rw [failed] at done
        cases done
  · intro failed
    generalize Dns.mnDnsPoll d net x now = out at polls failed alike_polls
    cases polls with
    | rests off => exact absurd on off
    | retries _ nothing alike =>
      refine Or.inr fun net' x' alike nothing' => ?_
      rw [alike_polls net' x' alike (nothing.trans nothing'.symm)]
      exact failed
    | settles _ got short decides waits alike =>
      obtain ⟨done, _⟩ | ⟨_, replies, error⟩ := heard_decided short (of_decide_eq_true decides)
      · have failed : (Dns.heard d _).state = .failed := failed
        rw [done] at failed
        cases failed
      · exact Or.inl ⟨_, waits, replies, error⟩

/-! ## The SNTP client -/

private theorem ntpTransmit_same (alike : Alike net₁ net₂) (n : Ntp.MnNtp) (now : UInt16) :
    Same (Ntp.transmit n net₁ now) (Ntp.transmit n net₂ now) := by
  obtain ⟨r, _, _, first, second, after⟩ :=
    (sendUdp_same alike n.server n.port Ntp.PORT_NTP Ntp.request).split
  unfold Ntp.transmit
  rw [first, second]
  exact ⟨rfl, after⟩

private theorem ntpRetry_same (alike : Alike net₁ net₂) (n : Ntp.MnNtp) (now : UInt16) :
    Same (Ntp.retry n net₁ now) (Ntp.retry n net₂ now) := by
  unfold Ntp.retry
  exact retry_related (ntpTransmit_same alike n now) ⟨rfl, udpClose_alike alike n.sock⟩ ⟨rfl, alike⟩

private theorem ntpStart_same (alike : Alike net₁ net₂) (n : Ntp.MnNtp) (server : Ip4) (now : UInt16) :
    Same (Ntp.mnNtpStart n net₁ server now) (Ntp.mnNtpStart n net₂ server now) := by
  obtain ⟨sock, _, _, first, second, after⟩ :=
    (udpOpen_same (givenBack_alike alike n.sock) (ntpPort now)).split
  unfold Ntp.mnNtpStart
  dsimp only
  rw [show (if n.sock ≠ 0xff then mnNetUdpClose net₁ n.sock else net₁) = givenBack n.sock net₁ from rfl,
    show (if n.sock ≠ 0xff then mnNetUdpClose net₂ n.sock else net₂) = givenBack n.sock net₂ from rfl,
    show 50000 + (now &&& 0x0fff) = ntpPort now from rfl, first, second]
  dsimp only
  split
  · exact ⟨rfl, after⟩
  · exact ntpTransmit_same after _ now

private theorem ntp_polls (n : Ntp.MnNtp) (net : MnNetFull) (x : XMem) (now : UInt16) :
    ntpHearing.Polls n net x now (Ntp.mnNtpPoll n net x now) := by
  unfold Ntp.mnNtpPoll
  by_cases on : n.state = .waiting
  · rw [if_neg (not_not.mpr on)]
    obtain ⟨nothing, net', alike, received | ⟨r, received, short, ignored⟩⟩ |
      ⟨r, net', got, alike, received, short, counts, waits⟩ := offered_cases ntpHearing n net x
    · rw [show mnNetUdpRecv net x n.sock Ntp.MSG_LEN = (none, net') from received]
      exact .retries on nothing alike
    · rw [show mnNetUdpRecv net x n.sock Ntp.MSG_LEN = (some r, net') from received]
      dsimp only
      rw [if_neg (by rw [show Ntp.isReply r.data = false from ignored]; decide)]
      exact .retries on nothing alike
    · rw [show mnNetUdpRecv net x n.sock Ntp.MSG_LEN = (some r, net') from received]
      dsimp only
      rw [if_pos (show Ntp.isReply r.data = true from counts)]
      exact .settles on got short counts waits alike
  · rw [if_pos on]
    exact .rests on

private theorem ntp_hears : ntpHearing.Lawful where
  polls := ntp_polls
  start_same server n _ _ now alike := ntpStart_same alike n server now
  retry_same n _ _ now alike := ntpRetry_same alike n now
  settle_same n _ _ _ alike := ⟨rfl, udpClose_alike alike n.sock⟩

/-- And a request's DONE to a message in its own mailbox, a server's by its
length, mode and timestamp. -/
def NtpOwes (n : Ntp.MnNtp) (net : MnNetFull) (x : XMem) (now : UInt16) : Prop :=
  (Ntp.mnNtpPoll n net x now).1.state = .done → ∃ m, Waits net x n.sock Ntp.MSG_LEN m ∧
    Ntp.isReply m = true ∧ (Ntp.mnNtpPoll n net x now).1.seconds = get32 m 40

private theorem ntpRetry_state (n : Ntp.MnNtp) (net : MnNetFull) (now : UInt16) :
    (Ntp.retry n net now).1.state = n.state ∨ (Ntp.retry n net now).1.state = .failed := by
  unfold Ntp.retry
  exact retry_holds (P := fun out : Ntp.MnNtp × MnNetFull => out.1.state = n.state ∨
    out.1.state = .failed)
    (Or.inl rfl) (Or.inr rfl) (Or.inl rfl)

private theorem ntp_owes {n : Ntp.MnNtp} (on : n.state = .waiting) (net : MnNetFull)
    (x : XMem) (now : UInt16) :
    NtpOwes n net x now := by
  have polls := ntp_polls n net x now
  unfold NtpOwes
  generalize Ntp.mnNtpPoll n net x now = out at polls
  intro done
  cases polls with
  | rests off => exact absurd on off
  | retries _ _ alike =>
    have done : (Ntp.retry n _ now).1.state = .done := done
    obtain same | failed := ntpRetry_state n _ now
    · rw [same, on] at done
      cases done
    · rw [failed] at done
      cases done
  | settles _ _ _ decides waits => exact ⟨_, waits, decides, rfl⟩

/-- In any two runs of either client whose polls receive the same as far as it
counts, wherever from, the client fares the same, and the layers stay alike; and
what ends a lookup or a request is a message in its own mailbox that answers it
by what it holds. -/
theorem answers_by_contents {d : (Dns.MnDns × MnNetFull) × (Dns.MnDns × MnNetFull)}
    {n : (Ntp.MnNtp × MnNetFull) × (Ntp.MnNtp × MnNetFull)} (lookups : Twins dnsHearing d)
    (requests : Twins ntpHearing n) :
    Same d.1 d.2 ∧ Same n.1 n.2 ∧
      (d.1.1.state = .waiting → ∀ x now, DnsOwes d.1.1 d.1.2 x now) ∧
      (n.1.1.state = .waiting → ∀ x now, NtpOwes n.1.1 n.1.2 x now) :=
  ⟨twins_same dns_hears lookups, twins_same ntp_hears requests, fun on => dns_owes on d.1.2,
    fun on => ntp_owes on n.1.2⟩

/-! ## Concrete cases -/

/-- A lookup of `a` and a request for the time, each at tick 0 from 10.0.0.2. -/
def lookupAt0 : Dns.MnDns × MnNetFull := Dns.mnDnsStart freshDns (layerOver goodNet) [0x61] neighbour 0

def requestAt0 : Ntp.MnNtp × MnNetFull := Ntp.mnNtpStart freshNtp (layerOver goodNet) neighbour 0

/-- An answer to the lookup, 10.0.0.99, from port 9 of 10.0.0.66. -/
def forgedAnswer : RxFrame where
  bytes :=
    [2, 0, 0, 0, 0, 1, 2, 0, 0, 0, 0, 0x42, 0x08, 0x00] ++
    [0x45, 0, 0, 55, 0, 0, 0, 0, 64, 17, 0x66, 0x74, 10, 0, 0, 66, 10, 0, 0, 1] ++
    [0, 9, 0xc0, 0, 0, 35, 0, 0] ++
    [0, 1, 0x80, 0, 0, 0, 0, 1, 0, 0, 0, 0] ++ [0, 0, 1, 0, 1, 0, 0, 0, 60, 0, 4, 10, 0, 0, 99]
  fits := by decide

/-- The same name does not exist, from there. -/
def forgedRefusal : RxFrame where
  bytes :=
    [2, 0, 0, 0, 0, 1, 2, 0, 0, 0, 0, 0x42, 0x08, 0x00] ++
    [0x45, 0, 0, 40, 0, 0, 0, 0, 64, 17, 0x66, 0x83, 10, 0, 0, 66, 10, 0, 0, 1] ++
    [0, 9, 0xc0, 0, 0, 20, 0, 0] ++ [0, 1, 0x80, 3, 0, 0, 0, 0, 0, 0, 0, 0]
  fits := by decide

/-- A time, from there. -/
def forgedTime : RxFrame where
  bytes :=
    [2, 0, 0, 0, 0, 1, 2, 0, 0, 0, 0, 0x42, 0x08, 0x00] ++
    [0x45, 0, 0, 76, 0, 0, 0, 0, 64, 17, 0x66, 0x5f, 10, 0, 0, 66, 10, 0, 0, 1] ++
    [0, 9, 0xc3, 0x50, 0, 56, 0, 0] ++
      (0x24 :: List.replicate 39 0 ++ [0, 0, 0, 1] ++ List.replicate 4 0)
  fits := by decide

/-- The lookup and the request with a frame's datagram in the mailbox. -/
def lookupGiven (f : RxFrame) : Dns.MnDns × MnNetFull :=
  (lookupAt0.1, (deliverUdp lookupAt0.2 (fun _ => 0) (f.bytes.drop 14)).1)

def requestGiven (f : RxFrame) : Ntp.MnNtp × MnNetFull :=
  (requestAt0.1, (deliverUdp requestAt0.2 (fun _ => 0) (f.bytes.drop 14)).1)

private theorem lookupGiven_twins (f₁ f₂ : RxFrame) : Twins dnsHearing
    (lookupGiven f₁, lookupGiven f₂) := by
  have started : Twins dnsHearing (lookupAt0, lookupAt0) :=
    .next (.start ⟨rfl, .refl (layerOver goodNet)⟩)
      (.starts (freshDns, layerOver goodNet) (freshDns, layerOver goodNet) ([0x61], neighbour) 0)
  exact .next started (.elsewhere _ _ _ _ ((deliverUdp_alike ..).symm.trans (deliverUdp_alike ..)))

private theorem requestGiven_twins (f₁ f₂ : RxFrame) : Twins ntpHearing
    (requestGiven f₁, requestGiven f₂) := by
  have started : Twins ntpHearing (requestAt0, requestAt0) :=
    .next (.start ⟨rfl, .refl (layerOver goodNet)⟩)
      (.starts (freshNtp, layerOver goodNet) (freshNtp, layerOver goodNet) neighbour 0)
  exact .next started (.elsewhere _ _ _ _ ((deliverUdp_alike ..).symm.trans (deliverUdp_alike ..)))

theorem answers_by_contents_forged :
    Same (lookupGiven forgedAnswer) (lookupGiven forgedTime) ∧
      Same (requestGiven forgedTime) (requestGiven forgedAnswer) ∧
      (∀ x now, DnsOwes lookupAt0.1 (lookupGiven forgedAnswer).2 x now) ∧
      ∀ x now, NtpOwes requestAt0.1 (requestGiven forgedTime).2 x now :=
  have owed := answers_by_contents (lookupGiven_twins forgedAnswer forgedTime)
    (requestGiven_twins forgedTime forgedAnswer)
  ⟨owed.1, owed.2.1, owed.2.2.1 (by decide), owed.2.2.2 (by decide)⟩

/-- A layer after a frame. -/
def afterFrame (net : MnNetFull) (f : RxFrame) : Stack := mnNetPoll ⟨net, none, fun _ => 0⟩ (some f)

/-- The source of what waits for a client. -/
def sourceFor (sock : UInt8) (st : Stack) : Option (Ip4 × UInt16) :=
  (mnNetUdpRecv st.net st.x sock MN_UDP_SOCK_BUF).1.map fun r => (r.srcIp, r.srcPort)

/-- Datagrams from another address and port end a lookup, with an address or
without, and a request; without them both would wait. -/
theorem forged_answers_end :
    lookupAt0.1.server = neighbour ∧ requestAt0.1.server = neighbour ∧
      sourceFor lookupAt0.1.sock (afterFrame lookupAt0.2 forgedAnswer) = some (⟨10, 0, 0, 66⟩, 9) ∧
      (Dns.mnDnsPoll lookupAt0.1 (afterFrame lookupAt0.2 forgedAnswer).net
        (afterFrame lookupAt0.2 forgedAnswer).x 1).1.state = .done ∧
      sourceFor lookupAt0.1.sock (afterFrame lookupAt0.2 forgedRefusal) = some (⟨10, 0, 0, 66⟩, 9) ∧
      (Dns.mnDnsPoll lookupAt0.1 (afterFrame lookupAt0.2 forgedRefusal).net
        (afterFrame lookupAt0.2 forgedRefusal).x 1).1.state = .failed ∧
      (Dns.mnDnsPoll lookupAt0.1 lookupAt0.2 (fun _ => 0) 1).1.state = .waiting ∧
      sourceFor requestAt0.1.sock (afterFrame requestAt0.2 forgedTime) = some (⟨10, 0, 0, 66⟩, 9) ∧
      (Ntp.mnNtpPoll requestAt0.1 (afterFrame requestAt0.2 forgedTime).net
        (afterFrame requestAt0.2 forgedTime).x 1).1.state = .done ∧
      (Ntp.mnNtpPoll requestAt0.1 requestAt0.2 (fun _ => 0) 1).1.state = .waiting := by
  decide +kernel

end MegaNet.LookupSources
