import MegaNet.ApiRuns

/-! Whose the four UDP sockets are over whole runs of a program on the ABI: each
open one belongs to the program, which opened it, or to one of the clients, as
long as the program closes none but its own. -/
namespace MegaNet.SocketOwnership
open MegaNet.Core Transition AddressSpace UdpOutcomes UdpSockets UdpBorrowing Lookups ApiMoves ApiRuns

variable {s s' : Api} {mine mine' : Fin 4 → UInt16} {r out : Regs} {i : Inputs} {entry : Entry}
  {allowed : Act → Prop}
  {W : Set Nat} {st st' : Stack}

/-! ## Holders -/

/-- Who may hold a socket: a client, or the program, as often as there are
sockets. -/
abbrev Holder := Borrower ⊕ Fin 4

/-- The socket a holder has, the program's being those whose port is not 0. -/
def sockOf (s : Api) (mine : Fin 4 → UInt16) : Holder → UInt8
  | .inl .dhcp => s.dhcp.sock
  | .inl .dns => s.dns.sock
  | .inl .ntp => s.ntp.sock
  | .inr k => if mine k = 0 then 0xff else UInt8.ofNat k

def portOf (s : Api) (mine : Fin 4 → UInt16) : Holder → UInt16
  | .inl .dhcp => 68
  | .inl .dns => s.dns.port
  | .inl .ntp => s.ntp.port
  | .inr k => mine k

/-- Every holder's socket is open on its port and its own, and every open socket
has a holder. -/
structure Parted (s : Api) (mine : Fin 4 → UInt16) : Prop where
  shared : Shared s.net (sockOf s mine) (portOf s mine)
  whole : ∀ j, (s.net.sock j).port ≠ 0 → ∃ who, sockOf s mine who = UInt8.ofNat j

/-- What one holder does, the others sit out. -/
theorem Parted.step (parted : Parted s mine) (who : Holder)
    (effect : Effect (sockOf s mine who) (portOf s mine who) s.net (sockOf s' mine' who)
      (portOf s' mine' who) s'.net)
    (rest : ∀ w, w ≠ who → sockOf s' mine' w = sockOf s mine w ∧ portOf s' mine' w = portOf s mine w) :
    Parted s' mine' := by
  refine ⟨parted.shared.step who effect rest, fun j used => ?_⟩
  by_cases here : UInt8.ofNat j = sockOf s' mine' who
  · exact ⟨who, here.symm⟩
  obtain ⟨used', apart⟩ := effect.open_after used here
  obtain ⟨w, there⟩ := parted.whole j used'
  have other : w ≠ who := by
    rintro rfl
    exact apart there.symm
  exact ⟨w, (rest w other).1.trans there⟩

/-- The clients as they are between calls: who has a socket has a use for it, and
a lookup that waits can be sent again. -/
structure Tidy (s : Api) : Prop where
  dhcp : s.dhcp.sock ≠ 0xff → DhcpBusy s.dhcp
  asks : s.dns.state = .waiting → Lookups.dns.waiting s.dns
  ntp : s.ntp.sock ≠ 0xff → s.ntp.state = .waiting

structure Held (s : Api) (mine : Fin 4 → UInt16) : Prop extends Parted s mine, Tidy s

private theorem clients_eq (same : clients s' = clients s) : s'.dhcp = s.dhcp ∧ s'.dns = s.dns ∧
    s'.ntp = s.ntp := by
  simpa [clients] using same

/-- Nothing happens to the clients, and no port changes. -/
theorem Held.still (held : Held s mine) (same : clients s' = clients s)
    (ports : SamePorts s.net s'.net) : Held s' mine := by
  obtain ⟨dhcp, dns, ntp⟩ := clients_eq same
  have socks : sockOf s' mine = sockOf s mine := by
    funext who
    unfold sockOf
    rw [dhcp, dns, ntp]
  have own : portOf s' mine = portOf s mine := by
    funext who
    unfold portOf
    rw [dns, ntp]
  refine ⟨⟨⟨fun w some_ => ?_, ?_⟩, fun j used => ?_⟩, ⟨?_, ?_, ?_⟩⟩
  · rw [socks] at some_ ⊢
    rw [own]
    obtain ⟨j, here, there, used⟩ := held.shared.holding w some_
    exact ⟨j, here, (ports j).trans there, used⟩
  · rw [socks]
    exact held.shared.apart
  · rw [socks]
    exact held.whole j (ports j ▸ used)
  · rw [dhcp]
    exact held.dhcp
  · rw [dns]
    exact held.asks
  · rw [ntp]
    exact held.ntp

/-! ## Acts that leave the ports alone -/

def Portless : Act → Prop
  | .opens _ | .closes _ => False
  | _ => True

theorem act_ports {act : Act} (portless : Portless act) (st : Stack) : SamePorts st.net
    (exec st act).net := by
  cases act with
  | opens | closes => cases portless
  | poll frame => exact poll_ports st frame
  | receives k cap =>
    have reception := udpRecv_reception st.net st.x k cap
    dsimp only [exec]
    generalize mnNetUdpRecv st.net st.x k cap = out at reception
    cases reception with
    | nothing => exact fun _ => rfl
    | datagram j => exact setSock_samePorts st.net j { st.net.sock j with pending := false } rfl
  | sends dst sport dport payload =>
    exact samePorts_of_sock (sendUdp_spec st.net dst sport dport payload).1.sock
  | configures => exact fun _ => rfl
  | tcp event =>
    unfold exec tcpAct
    cases st.tcp with
    | none => exact fun _ => rfl
    | some set => exact fun _ => rfl

private theorem moves_ports (portless : ∀ act, allowed act → Portless act)
    (moves : Moves allowed W st st') :
    SamePorts st.net st'.net := by
  induction moves with
  | refl => exact fun _ => rfl
  | tail _ move ih =>
    cases move with
    | acts act may => exact ih.trans (act_ports (portless act may) _)
    | copies => exact ih

/-- The entries that have to do with who has which socket. -/
def Hands : Entry → Prop
  | .init | .poll | .dhcpStart | .dnsStart | .ntpStart | .udpOpen | .udpClose => True
  | _ => False

private theorem allowed_portless (s : Api) (r : Regs) (i : Inputs) (bare_ : ¬ Hands entry) (act : Act)
    (may : Allowed s r i entry act) : Portless act := by
  cases entry with
  | init | poll | dhcpStart | dnsStart | ntpStart | udpOpen | udpClose => exact absurd trivial bare_
  | setIp | setLocalIp4 | tcpConnect | tcpSend =>
    obtain ⟨_, _, _, rfl⟩ := may
    trivial
  | tcpListen | tcpClose | tcpAbort =>
    cases may
    trivial
  | tcpRecv | udpRecv =>
    obtain ⟨cap, rfl⟩ := may
    trivial
  | udpSend =>
    obtain ⟨_, _, _, _, _, rfl⟩ := may
    trivial
  | _ => cases may

/-! ## POLL -/

private theorem heard_held (held : Held s mine) : Held (heard s i) mine :=
  held.still rfl (poll_ports s.stack i.frame)

private theorem pollDhcp_held (held : Held s mine) : Held (pollDhcp s) mine := by
  unfold pollDhcp
  split
  · obtain ⟨effect, busy⟩ := dhcpPoll_call held.dhcp s.net (linear s.m) s.ticks
    generalize Dhcp.mnDhcpPoll s.dhcp s.net (linear s.m) s.ticks = after at effect busy
    refine ⟨held.toParted.step (.inl .dhcp) effect fun w other => ?_, busy, held.asks, held.ntp⟩
    rcases w with (_ | _ | _) | k
    · exact absurd rfl other
    all_goals exact ⟨rfl, rfl⟩
  · exact held

private theorem pollDns_held (held : Held s mine) : Held (pollDns s) mine := by
  unfold pollDns
  split
  · rename_i on
    have order : DnsOrder s.dns := ⟨fun _ => on, held.asks⟩
    obtain ⟨effect, order'⟩ := dnsPoll_call order s.net (linear s.m) s.ticks
    generalize Dns.mnDnsPoll s.dns s.net (linear s.m) s.ticks = after at effect order'
    refine ⟨held.toParted.step (.inl .dns) effect fun w other => ?_, held.dhcp, order'.asks, held.ntp⟩
    rcases w with (_ | _ | _) | k
    · exact ⟨rfl, rfl⟩
    · exact absurd rfl other
    all_goals exact ⟨rfl, rfl⟩
  · exact held

private theorem pollNtp_held (held : Held s mine) : Held (pollNtp s) mine := by
  unfold pollNtp
  split
  · obtain ⟨effect, waits⟩ := ntpPoll_call held.ntp s.net (linear s.m) s.ticks
    generalize Ntp.mnNtpPoll s.ntp s.net (linear s.m) s.ticks = after at effect waits
    refine ⟨held.toParted.step (.inl .ntp) effect fun w other => ?_, held.dhcp, held.asks, waits⟩
    rcases w with (_ | _ | _) | k
    · exact ⟨rfl, rfl⟩
    · exact ⟨rfl, rfl⟩
    · exact absurd rfl other
    · exact ⟨rfl, rfl⟩
  · exact held

private theorem poll_held (held : Held s mine) : Held (mnApiPoll s i).2 mine := by
  have clientsPolled := pollNtp_held (pollDns_held (pollDhcp_held (heard_held (i := i) held)))
  exact clientsPolled.still rfl fun _ => rfl

/-! ## The clients' starts -/

private theorem dhcpStart_held (held : Held s mine) : Held (mnApiDhcpStart s i).2 mine := by
  obtain ⟨effect, busy⟩ := dhcpStart_call s.dhcp s.net (s.tick i).ticks
  unfold mnApiDhcpStart
  dsimp only [Api.tick] at effect busy ⊢
  generalize Dhcp.mnDhcpStart s.dhcp s.net _ = after at effect busy
  refine ⟨held.toParted.step (.inl .dhcp) effect fun w other => ?_, busy, held.asks, held.ntp⟩
  rcases w with (_ | _ | _) | k
  · exact absurd rfl other
  all_goals exact ⟨rfl, rfl⟩

private theorem ntpStart_held (held : Held s mine) : Held (mnApiNtpStart s r i).2 mine := by
  obtain ⟨effect, waits⟩ := ntpStart_call s.ntp s.net ⟨r.a, r.x, r.y, r.z⟩ (s.tick i).ticks
  unfold mnApiNtpStart
  dsimp only [Api.tick] at effect waits ⊢
  generalize Ntp.mnNtpStart s.ntp s.net _ _ = after at effect waits
  refine ⟨held.toParted.step (.inl .ntp) effect fun w other => ?_, held.dhcp, held.asks, waits⟩
  rcases w with (_ | _ | _) | k
  · exact ⟨rfl, rfl⟩
  · exact ⟨rfl, rfl⟩
  · exact absurd rfl other
  · exact ⟨rfl, rfl⟩

/-- Whatever name is looked up, a lookup that waits can be sent again. -/
theorem dnsStart_asks (d : Dns.MnDns) (net : MnNetFull) (name : List UInt8) (server : Ip4) (now : UInt16)
    (on : (Dns.mnDnsStart d net name server now).1.state = .waiting) :
    Lookups.dns.waiting (Dns.mnDnsStart d net name server now).1 := by
  by_cases fine : WellNamed name ∨ CannotOpen (givenBack d.sock net) (dnsPort now)
  · exact (dnsStart_order d net server now fine).asks on
  · obtain ⟨bad, can⟩ := not_or.mp fine
    obtain ⟨j, _, same⟩ := dnsStart_malformed d net bad server now can
    rw [same] at on
    cases on

private theorem dnsStart_held (held : Held s mine) : Held (mnApiDnsStart s r i).2 mine := by
  unfold mnApiDnsStart
  dsimp only
  split
  · have parted : Parted { s with dns := { s.dns with state := .failed } } mine :=
      held.toParted.step (.inl .dns)
        (.keeps fun _ => rfl) fun w _ => by rcases w with (_ | _ | _) | k <;> exact ⟨rfl, rfl⟩
    exact ⟨⟨parted.shared, parted.whole⟩, held.dhcp, nofun, held.ntp⟩
  · dsimp only [Api.tick]
    generalize s.ticks + (i.frameCount - s.lastFrame).toUInt16 = now
    generalize run s.m r.argPtr Dns.MN_DNS_NAME_MAX ++ [0] = name
    have effect := dnsStart_call s.dns s.net name s.dhcp.dns now
    have asks := dnsStart_asks s.dns s.net name s.dhcp.dns now
    generalize Dns.mnDnsStart s.dns s.net name s.dhcp.dns now = after at effect asks
    refine ⟨held.toParted.step (.inl .dns) effect fun w other => ?_, held.dhcp, asks, held.ntp⟩
    rcases w with (_ | _ | _) | k
    · exact ⟨rfl, rfl⟩
    · exact absurd rfl other
    all_goals exact ⟨rfl, rfl⟩

/-! ## The program's own sockets -/

/-- What the program takes for its own after a call: what UDP_OPEN has given it,
until it closes it. -/
def owns (mine : Fin 4 → UInt16) (entry : Entry) (r out : Regs) : Fin 4 → UInt16 :=
  match entry with
  | .init => fun _ => 0
  | .udpOpen => fun k => if out.a = UInt8.ofNat k then word r.a r.x else mine k
  | .udpClose => fun k => if r.z = UInt8.ofNat k then 0 else mine k
  | _ => mine

private theorem mine_open (held : Held s mine) {k : Fin 4}
    (free : (s.net.sock k).port = 0) : mine k = 0 := by
  by_contra used
  have here : sockOf s mine (.inr k) = UInt8.ofNat k := if_neg used
  obtain ⟨j, same, port, _⟩ := held.shared.holding (.inr k) (by rw [here]; exact (given k).1)
  obtain rfl := index_inj.mp (here.symm.trans same)
  exact used (port.symm.trans free)

private theorem udpOpen_held (held : Held s mine) :
    Held (mnApiUdpOpen s r).2 (owns mine .udpOpen r (mnApiUdpOpen s r).1) := by
  have opening := udpOpen_opening s.net (word r.a r.x)
  unfold mnApiUdpOpen
  generalize mnNetUdpOpen s.net (word r.a r.x) = got at opening
  cases opening with
  | refused =>
    have same : owns mine .udpOpen r (Api.answer 0xff s).1 = mine :=
      funext fun k => if_neg fun is => (given k).1 is.symm
    have kept : Held s (owns mine .udpOpen r (Api.answer 0xff s).1) := by rwa [same]
    exact kept
  | opens j free alone =>
    have some_ : word r.a r.x ≠ 0 := fun none_ => alone j (free.trans none_.symm)
    have unused := mine_open held free
    refine ⟨held.toParted.step (.inr j) ?_ fun w other => ?_, held.dhcp, held.asks, held.ntp⟩
    · have had : sockOf s mine (.inr j) = 0xff := if_pos unused
      have has : owns mine .udpOpen r ⟨UInt8.ofNat j, 0, 0, 0⟩ j = word r.a r.x := if_pos rfl
      have back : givenBack 0xff s.net = s.net := rfl
      dsimp only [portOf]
      rw [had]
      dsimp only [sockOf, Api.answer, Api.ret]
      rw [has, if_neg some_]
      exact .takes j some_ (back ▸ free) (back ▸ fun _ => rfl)
    · rcases w with (_ | _ | _) | k
      · exact ⟨rfl, rfl⟩
      · exact ⟨rfl, rfl⟩
      · exact ⟨rfl, rfl⟩
      · have still : owns mine .udpOpen r ⟨UInt8.ofNat j, 0, 0, 0⟩ k = mine k :=
          if_neg fun is => other (congrArg Sum.inr (index_inj.mp is).symm)
        dsimp only [sockOf, portOf, Api.answer, Api.ret]
        rw [still]
        exact ⟨rfl, rfl⟩

private theorem udpClose_held (held : Held s mine)
    (own : ∀ k : Fin 4, r.z = UInt8.ofNat k → mine k ≠ 0) :
    Held (mnApiUdpClose s r).2 (owns mine .udpClose r (mnApiUdpClose s r).1) := by
  unfold mnApiUdpClose
  split
  · rename_i inside
    have here : r.z = UInt8.ofNat (⟨r.z.toNat, inside⟩ : Fin 4) := (UInt8.ofNat_toNat).symm
    generalize (⟨r.z.toNat, inside⟩ : Fin 4) = j at here
    have used := own j here
    refine ⟨held.toParted.step (.inr j) ?_ fun w other => ?_, held.dhcp, held.asks, held.ntp⟩
    · have had : sockOf s mine (.inr j) = UInt8.ofNat j := if_neg used
      have gone : owns mine .udpClose r ⟨0, 0, 0, 0⟩ j = 0 := if_pos here
      rw [had]
      dsimp only [sockOf, portOf, Api.answer, Api.ret]
      rw [gone, if_pos rfl, here]
      exact close_returns ..
    · rcases w with (_ | _ | _) | k
      · exact ⟨rfl, rfl⟩
      · exact ⟨rfl, rfl⟩
      · exact ⟨rfl, rfl⟩
      · have still : owns mine .udpClose r ⟨0, 0, 0, 0⟩ k = mine k :=
          if_neg fun is => other (congrArg Sum.inr (index_inj.mp (here.symm.trans is)).symm)
        dsimp only [sockOf, portOf, Api.answer, Api.ret]
        rw [still]
        exact ⟨rfl, rfl⟩
  · rename_i past
    have same : owns mine .udpClose r (Api.answer 0 s).1 = mine := by
      refine funext fun k => if_neg fun is => past ?_
      rw [is, (given k).2]
      exact k.isLt
    have kept : Held s (owns mine .udpClose r (Api.answer 0 s).1) := by rwa [same]
    exact kept

/-! ## Runs -/

/-- A program on the ABI, and the port of each socket that is its own. -/
structure Owning where
  s : Api
  mine : Fin 4 → UInt16

inductive Step (o : Owning) : Owning → Prop where
  | calls (entry : Entry) (r : Regs) (i : Inputs) {out : Regs} {s' : Api} (spares : Spares o.s.m r entry)
      (own : entry = .udpClose → ∀ k : Fin 4, r.z = UInt8.ofNat k → o.mine k ≠ 0)
      (done : o.s.exec entry r i = some (out, s')) : Step o ⟨s', owns o.mine entry r out⟩
  | stores (m : PhysMem) (away : ∀ a : UInt32, a.toNat ∈ PoolLayout.poolArea → m a = o.s.m a) :
      Step o { o with s := { o.s with m } }

def Run : Owning → Prop := Reachable (fun o => Started o.s ∧ o.mine = fun _ => 0) Step

private theorem init_held (s : Api) (i : Inputs) : Held (mnApiInit s i).2 fun _ => 0 := by
  have none_ (who : Holder) : sockOf (mnApiInit s i).2 (fun _ => 0) who = 0xff := by
    rcases who with (_ | _ | _) | k <;> rfl
  refine ⟨⟨⟨fun who some_ => absurd (none_ who) some_, fun who _ _ some_ => absurd (none_ who) some_⟩,
    fun j used => absurd rfl used⟩, fun some_ => absurd rfl some_, nofun, fun some_ => absurd rfl some_⟩

private theorem exec_held (held : Held s mine) (standing : Standing s) (spares : Spares s.m r entry)
    (own : entry = .udpClose → ∀ k : Fin 4, r.z = UInt8.ofNat k → mine k ≠ 0)
    (done : s.exec entry r i = some (out, s')) : Held s' (owns mine entry r out) := by
  have still (bare_ : ¬ Hands entry) (same : clients s' = clients s) : Held s' mine := by
    have later : entry ≠ .init := by
      rintro rfl
      exact bare_ trivial
    obtain ⟨layout, order⟩ := standing.shadowed.parts
    exact held.still same
      (moves_ports (allowed_portless s r i bare_)
        (exec_moves layout order standing.named spares later done))
  cases entry with
  | init =>
    rw [answered (f := mnApiInit s i) done]
    exact init_held s i
  | poll =>
    rw [answered (f := mnApiPoll s i) done]
    exact poll_held held
  | dhcpStart =>
    rw [answered (f := mnApiDhcpStart s i) done]
    exact dhcpStart_held held
  | dnsStart =>
    rw [answered (f := mnApiDnsStart s r i) done]
    exact dnsStart_held held
  | ntpStart =>
    rw [answered (f := mnApiNtpStart s r i) done]
    exact ntpStart_held held
  | udpOpen =>
    have kept := udpOpen_held (r := r) held
    rwa [show mnApiUdpOpen s r = (out, s') from Option.some.inj done] at kept
  | udpClose =>
    have kept := udpClose_held held (own rfl)
    rwa [show mnApiUdpClose s r = (out, s') from Option.some.inj done] at kept
  | setDns =>
    cases done
    refine ⟨held.toParted.step (.inl .dhcp) (.keeps fun _ => rfl) fun w _ => ?_,
      held.dhcp, held.asks, held.ntp⟩
    rcases w with (_ | _ | _) | k <;> exact ⟨rfl, rfl⟩
  | tcpConnect =>
    refine still id ?_
    rw [answered (f := mnApiTcpConnect s r i) done]
    exact tcpConnect_rest.1
  | _ => exact still id (exec_rest id done).1

theorem Run.held {o : Owning} (run : Run o) : Runs o.s ∧ Held o.s o.mine := by
  refine Reachable.invariant (motive := fun o => Runs o.s ∧ Held o.s o.mine) ?_ ?_ run
  · rintro ⟨_, _⟩ ⟨⟨before, i, rfl⟩, rfl⟩
    exact ⟨.start ⟨before, i, rfl⟩, init_held before i⟩
  · rintro o _ _ ⟨runs, held⟩ step
    cases step with
    | calls entry r i spares own done =>
      exact ⟨runs.next (.calls entry r i spares done), exec_held held runs.standing spares own done⟩
    | stores m away => exact ⟨runs.next (.stores m away), held.still rfl fun _ => rfl⟩

/-- The clients' sockets. -/
def borrowed (s : Api) : List UInt8 := [s.dhcp.sock, s.dns.sock, s.ntp.sock]

/-- In every run of a program that closes only sockets of its own, these stay open
on the ports it opened them for and no client has one of them; no two clients have
the same; and every open socket is the program's or a client's, so that none is
lost. -/
theorem sockets_have_owners {o : Owning} (run : Run o) :
    (∀ k, o.mine k ≠ 0 → (o.s.net.sock k).port = o.mine k ∧ UInt8.ofNat k ∉ borrowed o.s) ∧
      (∀ v w : Borrower, v ≠ w → sockOf o.s o.mine (.inl v) ≠ 0xff →
        sockOf o.s o.mine (.inl v) ≠ sockOf o.s o.mine (.inl w)) ∧
      ∀ k, (o.s.net.sock k).port ≠ 0 → o.mine k ≠ 0 ∨ UInt8.ofNat k ∈ borrowed o.s := by
  obtain ⟨_, held⟩ := run.held
  refine ⟨fun k used => ?_, fun v w differ => ?_, fun k open_ => ?_⟩
  · have here : sockOf o.s o.mine (.inr k) = UInt8.ofNat k := if_neg used
    have some_ : sockOf o.s o.mine (.inr k) ≠ 0xff := here ▸ (given k).1
    obtain ⟨j, same, port, _⟩ := held.shared.holding (.inr k) some_
    obtain rfl := index_inj.mp (here.symm.trans same)
    have apart (v : Borrower) := held.shared.apart (.inr k) (.inl v) nofun some_
    rw [here] at apart
    refine ⟨port, ?_⟩
    simpa [borrowed] using ⟨apart .dhcp, apart .dns, apart .ntp⟩
  · exact held.shared.apart (.inl v) (.inl w) fun same => differ (Sum.inl.inj same)
  · obtain ⟨who, there⟩ := held.whole k open_
    rcases who with (_ | _ | _) | j
    · exact Or.inr (by simp [borrowed, ← there, sockOf])
    · exact Or.inr (by simp [borrowed, ← there, sockOf])
    · exact Or.inr (by simp [borrowed, ← there, sockOf])
    · by_cases unused : o.mine j = 0
      · exact absurd ((if_pos unused).symm.trans there).symm (given k).1
      · obtain rfl := index_inj.mp ((if_neg unused).symm.trans there)
        exact Or.inl unused

/-- UDP_OPEN of port 53 after INIT. -/
theorem fresh_opens :
    Run ⟨(mnApiUdpOpen fresh ⟨53, 0, 0, 0⟩).2, owns (fun _ => 0) .udpOpen ⟨53, 0, 0, 0⟩
      (mnApiUdpOpen fresh ⟨53, 0, 0, 0⟩).1⟩ := by
  refine .next (.start (s := ⟨fresh, fun _ => 0⟩) ⟨⟨bare, quietLink, rfl⟩, rfl⟩)
    (.calls .udpOpen ⟨53, 0, 0, 0⟩ quietLink ?_ nofun rfl)
  rintro a ⟨range, listed, _⟩
  cases listed

theorem sockets_have_owners_opened :
    ((mnApiUdpOpen fresh ⟨53, 0, 0, 0⟩).2.net.sock 0).port = 53 ∧
      UInt8.ofNat (0 : Fin 4) ∉ borrowed (mnApiUdpOpen fresh ⟨53, 0, 0, 0⟩).2 :=
  (sockets_have_owners fresh_opens).1 0 (by decide)

end MegaNet.SocketOwnership
