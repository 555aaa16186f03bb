import MegaNet.Core.Dhcp
import MegaNet.UdpOutcomes

/-! What each routine of the DHCP client can do, said once: what it hears, what
it sends, what becomes of its socket, and every end of a poll together with the
message that led there. -/
namespace MegaNet.DhcpOutcomes
open MegaNet.Core TcpEmission TcpConnection UdpOutcomes

variable {d d' : Dhcp.MnDhcp} {net net' : MnNetFull} {x : XMem} {now : UInt16} {type : UInt8}
  {msg : Option (UInt8 × List UInt8)} {out : Dhcp.MnDhcp × MnNetFull}

/-! ## Sending -/

/-- The client after a send. -/
def tried (d : Dhcp.MnDhcp) (r : SendResult) (now : UInt16) : Dhcp.MnDhcp :=
  { d with
    pending := r == .pending, sentAt := now, tries := if r = .pending then d.tries else d.tries + 1 }

theorem header_length (d : Dhcp.MnDhcp) (net : MnNetFull) : (Dhcp.header d net).length = 240 := by
  unfold Dhcp.header Dhcp.zeros Dhcp.cookie Ip4.bytes
  simp only [List.length_append, List.length_replicate, List.length_cons, List.length_nil]

private theorem options_length (d : Dhcp.MnDhcp) (type : UInt8) : (Dhcp.options d type).length ≤ 22 := by
  unfold Dhcp.options
  split <;> simp [Ip4.bytes]

theorem build_length (d : Dhcp.MnDhcp) (net : MnNetFull) (type : UInt8) :
    (Dhcp.build d net type).length = 300 := by
  have header := header_length d net
  have options := options_length d type
  unfold Dhcp.build Dhcp.zeros
  dsimp only
  rw [List.length_append, List.length_replicate, List.length_append, header]
  omega

/-- A message goes out, or is put off: exactly when its next hop is unknown. -/
inductive Sends (d : Dhcp.MnDhcp) (net : MnNetFull) (type : UInt8) (now : UInt16) :
    Dhcp.MnDhcp × MnNetFull → Prop where
  | sends (r : SendResult) (after : MnNetFull)
      (posts : Posts net after [⟨Dhcp.destination d, 68, 67, Dhcp.build d net type⟩])
      (result : r = .pending ↔ ¬ net.toMnNet.Resolves (Dhcp.destination d)) : Sends d net type now
      (tried d r now, after)

theorem transmit_sends (d : Dhcp.MnDhcp) (net : MnNetFull) (type : UInt8) (now : UInt16) :
    Sends d net type now (Dhcp.transmit d net type now) := by
  obtain ⟨posts, result⟩ := sendUdp_spec net (Dhcp.destination d) 68 67 (Dhcp.build d net type)
  have short : (Dhcp.build d net type).length ≤ MN_UDP_MAX_PAYLOAD := by
    rw [build_length]
    decide
  unfold Dhcp.transmit
  generalize mnNetSendUdp net (Dhcp.destination d) 68 67 (Dhcp.build d net type) = out at posts result
  exact .sends out.1 out.2 posts (result short)

/-- The limited broadcast needs no address resolved. -/
theorem broadcast_resolves (net : MnNet) : net.Resolves limitedBcast := by
  have broadcast : isBroadcast net limitedBcast = true := by simp [isBroadcast]
  have hop : mnNetNextHop net limitedBcast = limitedBcast := by
    rw [mnNetNextHop, if_pos broadcast]
  exact Or.inl (hop ▸ broadcast)

/-- So only a renewal is ever put off. -/
theorem Sends.prompt (sends : Sends d net type now out)
    (everyone : ¬ (d.state = .bound ∧ d.phase = .renewing)) :
    out.1.pending = false := by
  cases sends with
  | sends r _ _ result =>
    have known : net.toMnNet.Resolves (Dhcp.destination d) := by
      rw [Dhcp.destination, if_neg everyone]
      exact broadcast_resolves _
    have out : r ≠ .pending := fun put_off => result.mp put_off known
    simpa [tried] using out

/-! ## The socket -/

/-- What becomes of a client's socket where it opens one if it has none. -/
inductive Reopened (net : MnNetFull) (sock : UInt8) : UInt8 → MnNetFull → Prop where
  | kept (there : sock ≠ 0xff) : Reopened net sock sock net
  | opens (gone : sock = 0xff) (i : Fin 4) (free : (net.sock i).port = 0) :
      Reopened net sock (UInt8.ofNat i) (opened net i 68)
  | refused (gone : sock = 0xff) : Reopened net sock 0xff net

/-- Reopening leaves everything but the sockets alone. -/
theorem Reopened.rest {sock sock' : UInt8} (reopened : Reopened net sock sock' net') :
    net'.toMnNet = net.toMnNet ∧ net'.posted = net.posted := by
  cases reopened with
  | kept | refused => exact ⟨rfl, rfl⟩
  | opens i => exact ⟨setSock_toMnNet .., setSock_posted ..⟩

private theorem reopen_reopened (d : Dhcp.MnDhcp) (net : MnNetFull) :
    ∃ sock net', (if d.sock = 0xff then
        ({ d with sock := (mnNetUdpOpen net 68).1 }, (mnNetUdpOpen net 68).2)
      else (d, net)) = ({ d with sock }, net') ∧ Reopened net d.sock sock net' := by
  by_cases gone : d.sock = 0xff
  · rw [if_pos gone]
    refine ⟨_, _, rfl, ?_⟩
    have opening := udpOpen_opening net 68
    generalize mnNetUdpOpen net 68 = out at opening
    cases opening with
    | opens i free => exact .opens gone i free
    | refused => exact .refused gone
  · rw [if_neg gone]
    exact ⟨d.sock, net, rfl, .kept gone⟩

/-! ## Hearing -/

/-- Nothing waits for the client, or a message whose data `parse` read. -/
inductive Hears (d : Dhcp.MnDhcp) (net : MnNetFull) (x : XMem) :
    Option (UInt8 × List UInt8) → Dhcp.MnDhcp → MnNetFull → Prop where
  | nothing (silent : (mnNetUdpRecv net x d.sock MN_UDP_SOCK_BUF).1 = none) : Hears d net x none d net
  | message (i : Fin 4) (here : d.sock.toNat = i) (r : Received)
      (got : (mnNetUdpRecv net x d.sock MN_UDP_SOCK_BUF).1 = some r) :
      Hears d net x (some ((Dhcp.parse d net.nif.mac r.data).1, r.data))
        (Dhcp.parse d net.nif.mac r.data).2
        (net.setSock i { net.sock i with pending := false })

theorem hear_hears (d : Dhcp.MnDhcp) (net : MnNetFull) (x : XMem) :
    Hears d net x (Dhcp.hear d net x).1 (Dhcp.hear d net x).2.1 (Dhcp.hear d net x).2.2 := by
  have reception := udpRecv_reception net x d.sock MN_UDP_SOCK_BUF
  unfold Dhcp.hear
  generalize heard : mnNetUdpRecv net x d.sock MN_UDP_SOCK_BUF = out at reception
  cases reception with
  | nothing => exact .nothing (congrArg Prod.fst heard)
  | datagram i here => exact .message i here _ (congrArg Prod.fst heard)

/-- Without a socket nothing is heard. -/
theorem hear_alone (alone : d.sock = 0xff) : Dhcp.hear d net x = (none, d, net) := by
  unfold Dhcp.hear
  rw [recv_empty (fun i here => absurd i.isLt (by rw [← here, alone]; decide))]

/-- Hearing leaves everything but the mailbox alone. -/
theorem Hears.rest (hears : Hears d net x msg d' net') :
    net'.toMnNet = net.toMnNet ∧ net'.posted = net.posted ∧
      ∀ j, (net'.sock j).port = (net.sock j).port := by
  cases hears with
  | nothing => exact ⟨rfl, rfl, fun _ => rfl⟩
  | message i =>
    refine ⟨setSock_toMnNet .., setSock_posted .., fun j => ?_⟩
    by_cases same : j = i
    · rw [same, setSock_self]
    · rw [setSock_other _ _ same]

/-! ## Reading -/

/-- The same client with other values read from messages. -/
def Reread (d d' : Dhcp.MnDhcp) : Prop :=
  ∃ serverId mask gw dns leaseS, d' = { d with serverId, mask, gw, dns, leaseS }

theorem Reread.refl (d : Dhcp.MnDhcp) : Reread d d := ⟨_, _, _, _, _, rfl⟩

theorem Reread.trans {d₁ d₂ d₃ : Dhcp.MnDhcp} (first : Reread d₁ d₂)
    (second : Reread d₂ d₃) : Reread d₁ d₃ := by
  obtain ⟨_, _, _, _, _, rfl⟩ := first
  obtain ⟨_, _, _, _, _, rfl⟩ := second
  exact ⟨_, _, _, _, _, rfl⟩

theorem Reread.state (reread : Reread d d') : d'.state = d.state := by
  obtain ⟨_, _, _, _, _, rfl⟩ := reread
  rfl

private theorem take_reread (w : Dhcp.Walked) (code : UInt8) (value : List UInt8) : Reread w.d
    (w.take code value).d := by
  unfold Dhcp.Walked.take
  repeat' split
  all_goals exact ⟨_, _, _, _, _, rfl⟩

private theorem walkFrom_reread (m : List UInt8) (stop : UInt16) (fuel : Nat)
    (o : UInt16) (w : Dhcp.Walked) :
    Reread w.d (Dhcp.walkFrom m stop fuel o w).d := by
  induction fuel generalizing o w with
  | zero => exact .refl _
  | succ fuel ih =>
    unfold Dhcp.walkFrom
    dsimp only
    split_ifs
    · exact .refl _
    · exact ih _ w
    · exact .refl _
    · exact .refl _
    · exact (take_reread w _ _).trans (ih _ _)
    · exact .refl _

theorem readOptions_reread (d : Dhcp.MnDhcp) (m : List UInt8) : Reread d (Dhcp.readOptions d m).d := by
  unfold Dhcp.readOptions Dhcp.walk
  have first := walkFrom_reread m (UInt16.ofNat m.length) (UInt16.ofNat m.length).toNat
    (Dhcp.HDR_LEN + 4) { d }
  dsimp only
  split_ifs
  · exact (first.trans (walkFrom_reread ..)).trans (walkFrom_reread ..)
  · exact first.trans (walkFrom_reread ..)
  · exact first.trans (walkFrom_reread ..)
  · exact first

theorem Hears.reread (hears : Hears d net x msg d' net') : Reread d d' := by
  cases hears with
  | nothing => exact .refl d
  | message i here r =>
    unfold Dhcp.parse
    split
    · exact readOptions_reread d r.data
    · exact .refl d

/-! ## The lease clock -/

/-- The same client with its clock elsewhere. -/
def Aged (d d' : Dhcp.MnDhcp) : Prop :=
  ∃ ageM tickLast tickAcc secAcc, d' = { d with ageM, tickLast, tickAcc, secAcc }

theorem Aged.refl (d : Dhcp.MnDhcp) : Aged d d := ⟨_, _, _, _, rfl⟩

theorem Aged.trans {d₁ d₂ d₃ : Dhcp.MnDhcp} (first : Aged d₁ d₂) (second : Aged d₂ d₃) : Aged d₁ d₃ := by
  obtain ⟨_, _, _, _, rfl⟩ := first
  obtain ⟨_, _, _, _, rfl⟩ := second
  exact ⟨_, _, _, _, rfl⟩

theorem Aged.state (aged : Aged d d') : d'.state = d.state := by
  obtain ⟨_, _, _, _, rfl⟩ := aged
  rfl

private theorem second_aged (d : Dhcp.MnDhcp) : Aged d (Dhcp.second d) := by
  unfold Dhcp.second
  split <;> exact ⟨_, _, _, _, rfl⟩

private theorem seconds_aged (fuel : Nat) (delta : UInt16) (d : Dhcp.MnDhcp) : Aged d
    (Dhcp.seconds fuel delta d).2 := by
  induction fuel generalizing delta d with
  | zero => exact .refl d
  | succ fuel ih =>
    unfold Dhcp.seconds
    split
    · exact (second_aged d).trans (ih _ _)
    · exact .refl d

theorem clockTick_aged (d : Dhcp.MnDhcp) (now : UInt16) : Aged d (Dhcp.clockTick d now) := by
  have counted := seconds_aged (now - d.tickLast).toNat (now - d.tickLast) { d with tickLast := now }
  unfold Dhcp.clockTick
  dsimp only
  generalize Dhcp.seconds (now - d.tickLast).toNat (now - d.tickLast)
    { d with tickLast := now } = out at counted
  obtain ⟨_, _, _, _, counted⟩ := counted
  split
  · refine Aged.trans ?_ (second_aged _)
    exact ⟨_, _, _, _, by rw [counted]⟩
  · exact ⟨_, _, _, _, by rw [counted]⟩

/-! ## Starting -/

/-- Starting over: no address, the earlier socket given back, another opened. -/
theorem start_sends (d : Dhcp.MnDhcp) (net : MnNetFull) (now : UInt16) :
    ∃ sock net', Opening (givenBack d.sock (mnNetSetIp net zeroIp zeroIp zeroIp)) 68 (sock, net') ∧
      Sends { Dhcp.begun d net'.nif.mac now with sock } net' Dhcp.MSG_DISCOVER now
        (Dhcp.mnDhcpStart d net now) :=
  ⟨_, _, udpOpen_opening _ 68, transmit_sends ..⟩

/-! ## Polling -/

/-- The messages the state machine acts on. -/
def Acts (state : Dhcp.State) (type : UInt8) : Prop :=
  (state = .selecting ∧ type = Dhcp.MSG_OFFER) ∨
    ((state = .requesting ∨ state = .bound) ∧ (type = Dhcp.MSG_ACK ∨ type = Dhcp.MSG_NAK))

instance (state : Dhcp.State) (type : UInt8) : Decidable (Acts state type) :=
  inferInstanceAs (Decidable (_ ∨ _))

/-- There is no message, or none that is acted on. -/
def Ignored (state : Dhcp.State) (msg : Option (UInt8 × List UInt8)) : Prop :=
  ∀ type m, msg = some (type, m) → ¬ Acts state type

/-- What a poll does while an address is acquired, the message read. -/
inductive Acquires (msg : Option (UInt8 × List UInt8)) (d : Dhcp.MnDhcp)
    (net : MnNetFull) (now : UInt16) :
    Dhcp.MnDhcp × MnNetFull → Prop where
  | offer (m : List UInt8) (got : msg = some (Dhcp.MSG_OFFER, m)) (on : d.state = .selecting)
      {out : Dhcp.MnDhcp × MnNetFull}
      (sends : Sends
        { d with offeredIp := Dhcp.yiaddr m, state := .requesting, tries := 0 } net Dhcp.MSG_REQUEST
        now out) : Acquires msg d net now out
  | ack (m : List UInt8) (got : msg = some (Dhcp.MSG_ACK, m)) (on : d.state = .requesting) :
      Acquires msg d net now (Dhcp.granted { d with sock := 0xff, state := .bound } now,
        mnNetUdpClose (mnNetSetIp net (Dhcp.yiaddr m) d.mask d.gw) d.sock)
  | nak (m : List UInt8) (got : msg = some (Dhcp.MSG_NAK, m)) (on : d.state = .requesting)
      {out : Dhcp.MnDhcp × MnNetFull}
      (sends : Sends { d with state := .selecting, tries := 0 } net Dhcp.MSG_DISCOVER now out) :
      Acquires msg d net now out
  | fails (ignored : Ignored d.state msg) (last : d.tries ≥ Dhcp.MAX_TRIES) :
      Acquires msg d net now ({ d with state := .failed, sock := 0xff }, mnNetUdpClose net d.sock)
  | asks (ignored : Ignored d.state msg) {out : Dhcp.MnDhcp × MnNetFull}
      (sends : Sends d net (Dhcp.asking d) now out) : Acquires msg d net now out
  | waits (ignored : Ignored d.state msg) : Acquires msg d net now (d, net)

/-- The address is lost: acquisition starts over. -/
def Loses (d : Dhcp.MnDhcp) (net : MnNetFull) (now : UInt16) (out : Dhcp.MnDhcp × MnNetFull) : Prop :=
  ∃ sock net', Reopened (mnNetSetIp net zeroIp zeroIp zeroIp) d.sock sock net' ∧
    Sends { d with
      sock, state := .selecting, phase := .bound, tries := 0
      xid := { d.xid with x3 := d.xid.x3 + 1 } } net' Dhcp.MSG_DISCOVER now out

theorem lost_loses (d : Dhcp.MnDhcp) (net : MnNetFull) (now : UInt16) : Loses d net now
    (Dhcp.lost d net now) := by
  obtain ⟨sock, net', same, reopened⟩ := reopen_reopened
    { d with state := .selecting, phase := .bound, tries := 0, xid := { d.xid with x3 := d.xid.x3 + 1 } }
    (mnNetSetIp net zeroIp zeroIp zeroIp)
  refine ⟨sock, net', reopened, ?_⟩
  unfold Dhcp.lost
  dsimp only at same ⊢
  rw [same]
  exact transmit_sends ..

/-- When the next renewal REQUEST is due, once one went out. -/
def scheduled (d : Dhcp.MnDhcp) : UInt16 :=
  if d.phase = .renewing ∧ d.ageM + Dhcp.RENEW_RETRY_M > d.t2M then d.t2M
  else d.ageM + Dhcp.RENEW_RETRY_M

/-- A renewal REQUEST that fell due. -/
def Renews (d : Dhcp.MnDhcp) (net : MnNetFull) (now : UInt16) (out : Dhcp.MnDhcp × MnNetFull) : Prop :=
  ∃ sock net' sent, Reopened net d.sock sock net' ∧
    Sends { d with sock, phase := if d.ageM ≥ d.t2M then .rebinding else .renewing, tries := 0 } net'
      Dhcp.MSG_REQUEST now sent ∧
    out = ({ sent.1 with nextM := scheduled sent.1 }, sent.2)

private theorem renew_renews (d : Dhcp.MnDhcp) (net : MnNetFull) (now : UInt16) :
    Renews d net now (Dhcp.renew d net now) := by
  obtain ⟨sock, net', same, reopened⟩ := reopen_reopened
    { d with phase := if d.ageM ≥ d.t2M then .rebinding else .renewing } net
  have sends := transmit_sends
    { d with sock, phase := if d.ageM ≥ d.t2M then .rebinding else .renewing, tries := 0 }
    net' Dhcp.MSG_REQUEST now
  refine ⟨sock, net', _, reopened, sends, ?_⟩
  unfold Dhcp.renew
  dsimp only at same ⊢
  simp only [same]
  generalize Dhcp.transmit _ net' Dhcp.MSG_REQUEST now = sent
  unfold scheduled
  split <;> rfl

/-- What a poll does while bound, the clock set and the message read. -/
inductive Keeps (msg : Option (UInt8 × List UInt8)) (d : Dhcp.MnDhcp) (net : MnNetFull) (now : UInt16) :
    Dhcp.MnDhcp × MnNetFull → Prop where
  | ack (m : List UInt8) (got : msg = some (Dhcp.MSG_ACK, m)) :
      Keeps msg d net now (Dhcp.granted { d with sock := 0xff } now, mnNetUdpClose net d.sock)
  | nak (m : List UInt8) (got : msg = some (Dhcp.MSG_NAK, m)) {out : Dhcp.MnDhcp × MnNetFull}
      (loses : Loses d net now out) : Keeps msg d net now out
  | expires (ignored : Ignored .bound msg) (old : d.ageM ≥ d.leaseM) {out : Dhcp.MnDhcp × MnNetFull}
      (loses : Loses d net now out) : Keeps msg d net now out
  | renews (ignored : Ignored .bound msg) (young : ¬ d.ageM ≥ d.leaseM) (due : d.ageM ≥ d.nextM)
      {out : Dhcp.MnDhcp × MnNetFull} (renews : Renews d net now out) : Keeps msg d net now out
  | resends (ignored : Ignored .bound msg) (young : ¬ d.ageM ≥ d.leaseM) (early : ¬ d.ageM ≥ d.nextM)
      (pending : d.pending = true) {out : Dhcp.MnDhcp × MnNetFull}
      (sends : Sends d net Dhcp.MSG_REQUEST now out) : Keeps msg d net now out
  | waits (ignored : Ignored .bound msg) (young : ¬ d.ageM ≥ d.leaseM) (early : ¬ d.ageM ≥ d.nextM)
      (idle : d.pending = false) : Keeps msg d net now (d, net)

/-- What a poll does, state by state. -/
inductive Polls (d : Dhcp.MnDhcp) (net : MnNetFull) (x : XMem) (now : UInt16) :
    Dhcp.MnDhcp × MnNetFull → Prop where
  | rests (off : d.state = .idle ∨ d.state = .failed) : Polls d net x now (d, net)
  | acquires (on : d.state = .selecting ∨ d.state = .requesting) {msg : Option (UInt8 × List UInt8)}
      {d' : Dhcp.MnDhcp}
      {net' : MnNetFull} {out : Dhcp.MnDhcp × MnNetFull} (hears : Hears d net x msg d' net')
      (acquires : Acquires msg d' net' now out) : Polls d net x now out
  | forever (on : d.state = .bound) (never : (Dhcp.clockTick d now).t1M = 0) :
      Polls d net x now (Dhcp.clockTick d now, net)
  | keeps (on : d.state = .bound) (finite : (Dhcp.clockTick d now).t1M ≠ 0)
      {msg : Option (UInt8 × List UInt8)}
      {d' : Dhcp.MnDhcp} {net' : MnNetFull} {out : Dhcp.MnDhcp × MnNetFull}
      (hears : Hears (Dhcp.clockTick d now) net x msg d' net') (keeps : Keeps msg d' net' now out) :
      Polls d net x now out

/-- A poll while a lease is sought. -/
theorem Polls.acquiring
    (polls : Polls d net x now out) (on : d.state = .selecting ∨ d.state = .requesting) :
    ∃ msg d' net', Hears d net x msg d' net' ∧ Acquires msg d' net' now out := by
  cases polls with
  | rests off => obtain off | off := off <;> rw [off] at on <;> obtain on | on := on <;> cases on
  | acquires _ hears acquires => exact ⟨_, _, _, hears, acquires⟩
  | forever off | keeps off => rw [off] at on; obtain on | on := on <;> cases on

/-- A poll while bound. -/
theorem Polls.bound (polls : Polls d net x now out) (on : d.state = .bound) :
    ((Dhcp.clockTick d now).t1M = 0 ∧ out = (Dhcp.clockTick d now, net)) ∨
      ((Dhcp.clockTick d now).t1M ≠ 0 ∧
        ∃ msg d' net', Hears (Dhcp.clockTick d now) net x msg d' net' ∧ Keeps msg d' net' now out) := by
  cases polls with
  | rests off | acquires off => rw [on] at off; obtain off | off := off <;> cases off
  | forever _ never => exact Or.inl ⟨never, rfl⟩
  | keeps _ finite hears keeps => exact Or.inr ⟨finite, _, _, _, hears, keeps⟩

private theorem retry_acquires (ignored : Ignored d.state msg) (net : MnNetFull) (now : UInt16) :
    Acquires msg d net now (Dhcp.retry d net now) := by
  unfold Dhcp.retry
  split_ifs with pending late last
  · exact .asks ignored (transmit_sends ..)
  · exact .fails ignored last
  · exact .asks ignored (transmit_sends ..)
  · exact .waits ignored

private theorem acquire_acquires (on : d.state = .selecting ∨
    d.state = .requesting) (net : MnNetFull) (type : UInt8)
    (m : List UInt8) (now : UInt16) :
    Acquires (some (type, m)) d net now (Dhcp.acquire d net type m now) := by
  unfold Dhcp.acquire
  split_ifs with offer ack nak
  · exact .offer m (by rw [offer.2]) offer.1 (transmit_sends ..)
  · exact .ack m (by rw [ack.2]) ack.1
  · exact .nak m (by rw [nak.2]) nak.1 (transmit_sends ..)
  · refine retry_acquires ?_ net now
    intro type' m' same
    cases same
    rintro (acts | ⟨here | here, acts | acts⟩)
    · exact offer acts
    · exact ack ⟨here, acts⟩
    · exact nak ⟨here, acts⟩
    all_goals
      rw [here] at on
      exact on.elim (fun on => by cases on) fun on => by cases on

private theorem keepLease_keeps (ignored : Ignored .bound msg)
    (d : Dhcp.MnDhcp) (net : MnNetFull) (now : UInt16) :
    Keeps msg d net now (Dhcp.keepLease d net now) := by
  unfold Dhcp.keepLease
  split_ifs with old due pending
  · exact .expires ignored old (lost_loses ..)
  · exact .renews ignored old due (renew_renews ..)
  · exact .resends ignored old due pending (transmit_sends ..)
  · exact .waits ignored old due (by simpa using pending)

theorem poll_polls (d : Dhcp.MnDhcp) (net : MnNetFull) (x : XMem) (now : UInt16) :
    Polls d net x now (Dhcp.mnDhcpPoll d net x now) := by
  unfold Dhcp.mnDhcpPoll
  cases state : d.state with
  | idle => exact .rests (Or.inl state)
  | failed => exact .rests (Or.inr state)
  | selecting | requesting =>
    have on : d.state = .selecting ∨ d.state = .requesting := by simp [state]
    have hears := hear_hears d net x
    dsimp only
    generalize Dhcp.hear d net x = heard at hears
    obtain ⟨msg, d', net'⟩ := heard
    have on' : d'.state = .selecting ∨ d'.state = .requesting := by
      obtain ⟨_, _, _, _, _, rfl⟩ := hears.reread
      exact on
    cases msg with
    | none => exact .acquires on hears (retry_acquires (fun _ _ there => by cases there) net' now)
    | some got => exact .acquires on hears (acquire_acquires on' net' got.1 got.2 now)
  | bound =>
    dsimp only
    unfold Dhcp.pollBound
    dsimp only
    by_cases never : (Dhcp.clockTick d now).t1M = 0
    · rw [if_pos never]
      exact .forever state never
    rw [if_neg never]
    have hears := hear_hears (Dhcp.clockTick d now) net x
    have listens : (if (Dhcp.clockTick d now).sock ≠ 0xff then Dhcp.hear (Dhcp.clockTick d now) net x
        else (none, Dhcp.clockTick d now, net)) = Dhcp.hear (Dhcp.clockTick d now) net x := by
      by_cases alone : (Dhcp.clockTick d now).sock = 0xff
      · rw [if_neg (not_not.mpr alone), hear_alone alone]
      · rw [if_pos alone]
    rw [listens]
    generalize Dhcp.hear (Dhcp.clockTick d now) net x = heard at hears
    obtain ⟨msg, d', net'⟩ := heard
    cases msg with
    | none =>
      exact .keeps state never hears (keepLease_keeps (fun _ _ there => by cases there) d' net' now)
    | some got =>
      obtain ⟨type, m⟩ := got
      refine .keeps state never hears ?_
      dsimp only
      split_ifs with ack nak
      · exact .ack m (by rw [ack])
      · exact .nak m (by rw [nak]) (lost_loses ..)
      · refine keepLease_keeps ?_ d' net' now
        intro type' m' same
        cases same
        rintro (⟨here, _⟩ | ⟨_, acts | acts⟩)
        · cases here
        · exact ack acts
        · exact nak acts

/-! ## Runs -/

/-- What can happen to the client and its layer: the two calls, and whatever
the rest of the machine does to the layer in between. -/
inductive Act where
  | starts (now : UInt16)
  | polls (x : XMem) (now : UInt16)
  | meanwhile (after : MnNetFull)

def exec (d : Dhcp.MnDhcp) (net : MnNetFull) : Act → Dhcp.MnDhcp × MnNetFull
  | .starts now => Dhcp.mnDhcpStart d net now
  | .polls x now => Dhcp.mnDhcpPoll d net x now
  | .meanwhile after => (d, after)

/-- The datagram a poll finds in the client's mailbox. -/
def received (d : Dhcp.MnDhcp) (net : MnNetFull) (x : XMem) : Option (List UInt8) :=
  (mnNetUdpRecv net x d.sock MN_UDP_SOCK_BUF).1.map (·.data)

/-- A message that is a reply to the client, of one type. -/
structure Answers (d : Dhcp.MnDhcp) (mac : Mac) (m : List UInt8) (type : UInt8) : Prop where
  op : byteAt m 0 = Dhcp.OP_REPLY
  xid : (⟨byteAt m 4, byteAt m 5, byteAt m 6, byteAt m 7⟩ : Dhcp.Xid) = d.xid
  chaddr : macAt m 28 = mac
  cookie : [byteAt m 236, byteAt m 237, byteAt m 238, byteAt m 239] = Dhcp.cookie
  kind : (Dhcp.readOptions d m).type = type

theorem parse_answers {mac : Mac} {m : List UInt8} (parsed : (Dhcp.parse d mac m).1 = type)
    (some_ : type ≠ 0) :
    Answers d mac m type := by
  unfold Dhcp.parse at parsed
  split at parsed
  · rename_i ours
    simp only [Dhcp.isForUs, Bool.and_eq_true, beq_iff_eq] at ours
    obtain ⟨⟨⟨⟨_, op⟩, xid⟩, chaddr⟩, cookie⟩ := ours
    exact ⟨op, xid, chaddr, cookie, parsed⟩
  · exact absurd parsed.symm some_

/-- What is heard is what was received, and what it answers. -/
theorem Hears.answers {m : List UInt8} (hears : Hears d net x (some (type, m)) d' net')
    (some_ : type ≠ 0) :
    received d net x = some m ∧ Answers d net.nif.mac m type := by
  generalize same : some (type, m) = msg at hears
  cases hears with
  | nothing => cases same
  | message i here r got =>
    obtain ⟨kind, rfl⟩ := Prod.mk.inj (Option.some.inj same)
    exact ⟨by rw [received, got]; rfl, parse_answers kind.symm some_⟩

theorem Hears.received_eq (hears : Hears d net x msg d' net') : received d net x = msg.map (·.2) := by
  unfold received
  cases hears with
  | nothing silent => rw [silent]; rfl
  | message _ _ _ got => rw [got]; rfl

/-- What is heard is settled by what waits. -/
theorem Hears.unique {msg' : Option (UInt8 × List UInt8)} {d'' : Dhcp.MnDhcp} {net'' : MnNetFull}
    (hears : Hears d net x msg d' net') (hears' : Hears d net x msg' d'' net'') :
    msg = msg' ∧ d' = d'' ∧ net' = net'' := by
  cases hears with
  | nothing silent =>
    cases hears' with
    | nothing => exact ⟨rfl, rfl, rfl⟩
    | message _ _ _ got =>
      rw [silent] at got
      cases got
  | message i here r got =>
    cases hears' with
    | nothing silent =>
      rw [silent] at got
      cases got
    | message j there r' got' =>
      obtain rfl := Fin.ext (here.symm.trans there)
      obtain rfl := Option.some.inj (got.symm.trans got')
      exact ⟨rfl, rfl, rfl⟩

/-! ## Concrete cases -/

/-- The client before its first start. -/
def freshDhcp : Dhcp.MnDhcp :=
  { state := .idle, sock := 0xff, xid := ⟨0, 0, 0, 0⟩, offeredIp := zeroIp,
    serverId := zeroIp, mask := zeroIp
    gw := zeroIp, dns :=
      zeroIp, leaseS := 0, phase := .bound, ageM := 0, t1M := 0, t2M := 0, nextM := 0, leaseM := 0
    tickLast := 0, tickAcc := 0, secAcc := 0, sentAt := 0, tries := 0, pending := false }

/-- A server's message to the host at `02:00:00:00:00:01`, in the transaction it
starts at tick 0. -/
def reply (type : UInt8) (yiaddr server : Ip4) (lease : UInt8) : List UInt8 :=
  [2, 1, 6, 0, 0, 0, 1, 0] ++ Dhcp.zeros 8 ++ yiaddr.bytes ++ Dhcp.zeros 8 ++
    [2, 0, 0, 0, 0, 1] ++ Dhcp.zeros 202 ++
    Dhcp.cookie ++ [Dhcp.OPT_MSG_TYPE, 1, type, Dhcp.OPT_SERVER_ID, 4] ++ server.bytes ++
    [Dhcp.OPT_LEASE, 4, 0, 0, 0, lease, Dhcp.OPT_END]

def ours : Ip4 := ⟨10, 0, 0, 1⟩

/-- A message in the mailbox of socket 0, and the memory it is in. -/
def withMail (net : MnNetFull) (m : List UInt8) : MnNetFull :=
  net.setSock 0 { net.sock 0 with srcPort := 67, len := UInt16.ofNat m.length, pending := true }

def mailIn (m : List UInt8) : XMem := fun a => m.getD (a - xaddr 0x800 0xe000) 0

/-- A client started at tick 0, and offered 10.0.0.1 by its neighbour. -/
def startedAt0 : Dhcp.MnDhcp × MnNetFull := Dhcp.mnDhcpStart freshDhcp (layerOver goodNet) 0

def offerFor : List UInt8 := reply Dhcp.MSG_OFFER ours neighbour 60

def offeredTo : Dhcp.MnDhcp × MnNetFull :=
  Dhcp.mnDhcpPoll startedAt0.1 (withMail startedAt0.2 offerFor) (mailIn offerFor) 1

end MegaNet.DhcpOutcomes
