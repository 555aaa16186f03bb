import MegaNet.ApiBlocks
import MegaNet.FrameBudget
import MegaNet.Network
import MegaNet.SocketOwnership
import MegaNet.UdpDelivery

/-! Any number of programs on machines of their own, over the ABI and a network
that loses, delays, duplicates and reorders their frames, with other hosts on it:
what UDP_RECV puts into the memory of one, from the address of one of theirs, is
what UDP_SEND took from the memory of one, for that port and from that address. -/
namespace MegaNet.DatagramsEndToEnd
open MegaNet.Core Transition AddressSpace TcpEmission TcpConnection UdpOutcomes UdpSockets
  UdpMailboxes UdpDelivery ClientCalls PoolLayout
  PoolContents ApiMoves ApiBlocks ApiRuns FrameBudget SocketOwnership

variable {st st' : Stack} {s s' : Api} {r out : Regs} {i : Inputs} {entry : Entry}
  {allowed : Act → Prop} {W : Set Nat}
  {good better : UInt16 → Arrived → Prop} {k : Fin 4} {act : Act} {a : Arrived}

/-! ## Mailboxes -/

/-- What waits in the mailboxes of open sockets is `good`, each for its port. -/
def Mail (good : UInt16 → Arrived → Prop) (st : Stack) : Prop :=
  ∀ k, (st.net.sock k).port ≠ 0 → ((st.net.sock k).pending = true → (st.net.sock k).len.toNat ≤ 576) ∧
    ∀ a, held st k = some a → good (st.net.sock k).port a

theorem Mail.mono (mail : Mail good st) (weaker : ∀ p a, good p a → better p a) : Mail better st :=
  fun k used => ⟨(mail k used).1, fun a there => weaker _ a ((mail k used).2 a there)⟩

theorem Mail.session (mail : Mail good st) (order : Orderly st) (used : (st.net.sock k).port ≠ 0) :
    Session st k (st.net.sock k).port := ⟨order, rfl, used, (mail k used).1⟩

/-- What waits after an event waited before, or has come with it. -/
theorem next_some {slot : Option Arrived} {event : Mailbox.Event Arrived}
    (there : Mailbox.next slot event = some a) :
    slot = some a ∨ event = .arrives a := by
  cases event with
  | arrives item =>
    cases slot with
    | none => exact Or.inr (congrArg _ (Option.some.inj there))
    | some _ => exact Or.inl there
  | asked => cases there
  | idle => exact Or.inl there

private theorem event_arrives {net : MnNetFull} {p : UInt16} (arrives : event net k p act = .arrives a) :
    brought net p act = some a := by
  cases act with
  | receives sock cap =>
    rw [show event net k p (.receives sock cap) = if sock.toNat = k then .asked else .idle from rfl]
      at arrives
    split at arrives <;> cases arrives
  | poll frame =>
    rw [show event net k p (.poll frame) = (brought net p (.poll frame)).elim .idle .arrives from rfl]
      at arrives
    cases came : brought net p (.poll frame) with
    | none =>
      rw [came] at arrives
      cases arrives
    | some b =>
      rw [came] at arrives
      cases arrives
      rfl
  | opens | closes | sends | configures | tcp => cases arrives

private theorem closes_port (closes : Closes k act) : ((exec st act).net.sock k).port = 0 := by
  cases act with
  | closes sock =>
    have here : UInt8.ofNat k = sock := UInt8.toNat_inj.mp ((given k).2.trans closes.symm)
    exact (close_ports st.net sock k).trans (if_pos here)
  | _ => cases closes

/-- A socket comes out of its opening empty. -/
theorem opened_empty (free : (st.net.sock k).port = 0) (used : ((exec st act).net.sock k).port ≠ 0) :
    ((exec st act).net.sock k).pending = false := by
  by_cases portless : Portless act
  · exact absurd ((act_ports portless st k).trans free) used
  cases act with
  | closes sock =>
    refine absurd ?_ used
    rw [show (exec st (.closes sock)).net = mnNetUdpClose st.net sock from rfl,
      close_ports, free, ite_self]
  | opens port =>
    have opening := udpOpen_opening st.net port
    dsimp only [exec] at used ⊢
    generalize mnNetUdpOpen st.net port = out at opening used
    cases opening with
    | refused => exact absurd free used
    | opens j =>
      by_cases here : k = j
      · rw [here, setSock_self]
      · rw [setSock_other _ _ here] at used
        exact absurd free used
  | _ => exact absurd trivial portless

/-- An act that brings nothing but good datagrams. -/
theorem mail_act (mail : Mail good st) (order : Orderly st)
    (brings : ∀ p a, brought st.net p act = some a → good p a) :
    Mail good (exec st act) := by
  intro k used
  by_cases free : (st.net.sock k).port = 0
  · have empty := opened_empty free used
    refine ⟨fun full => ?_, fun a there => ?_⟩
    · rw [empty] at full
      cases full
    · rw [held, empty] at there
      cases there
  · have stays : ¬ Closes k act := fun closes => used (closes_port closes)
    obtain ⟨session, same, _⟩ := session_step (mail.session order free) act stays
    refine ⟨session.fits, fun a there => ?_⟩
    rw [session.port]
    rw [same] at there
    obtain waited | arrives := next_some there
    · exact (mail k free).2 a waited
    · exact brings _ a (event_arrives arrives)

/-- Bytes copied elsewhere do not matter. -/
theorem mail_copies (mail : Mail good st) (layout : Layout st) (order : Orderly st) {x : XMem}
    (away : Set.EqOn x st.x poolArea) : Mail good { st with x } := by
  intro k used
  have leaves : Leaves k st { st with x } := by
    refine ⟨rfl, fun a low high => away ?_⟩
    have place := layout.udp k
    exact Set.mem_Ico.mpr ⟨by omega, by omega⟩
  obtain ⟨session, same⟩ := (mail.session order used).leaves leaves
    (orderly_level layout order ⟨rfl, rfl, away.symm⟩)
  refine ⟨session.fits, fun a there => ?_⟩
  rw [same] at there
  exact (mail k used).2 a there

private theorem moves_mail (mail : Mail good st) (layout : Layout st) (order : Orderly st)
    (apart : ∀ a ∈ W, a ∉ poolArea)
    (brings : ∀ act, allowed act → ∀ net p a, brought net p act = some a → good p a)
    (moves : Moves allowed W st st') :
    Mail good st' := by
  have all : Layout st' ∧ Orderly st' ∧ Mail good st' := by
    induction moves with
    | refl => exact ⟨layout, order, mail⟩
    | tail _ move ih =>
      obtain ⟨layout, order, mail⟩ := ih
      cases move with
      | acts act may =>
        exact ⟨(act_confined layout order act).layout, exec_orderly order act,
          mail_act mail order (brings act may _)⟩
      | copies x within =>
        have away : Set.EqOn x _ poolArea := fun a inside => within a fun here => apart a here inside
        exact ⟨⟨layout.tcp, layout.udp⟩, orderly_level layout order ⟨rfl, rfl, away.symm⟩,
          mail_copies mail layout order away⟩
  exact all.2.2

/-! ## Machines and the network -/

/-- What the caller of UDP_RECV finds: the port of its socket, who sent the
datagram, the room there was, and the bytes. -/
structure Receipt where
  port : UInt16
  src : Ip4
  sport : UInt16
  room : UInt16
  bytes : List UInt8
  deriving DecidableEq

/-- A machine, with the datagrams its program has sent, each with the machine's
address at that time, those its clients have sent, and those its program has got. -/
structure Host where
  api : Api
  given : List (Ip4 × Datagram)
  served : List (Ip4 × Datagram)
  got : List Receipt

/-- The datagram of an UDP_SEND that says it is sent. -/
def gives (s : Api) (entry : Entry) (r out : Regs) : List (Ip4 × Datagram) :=
  if entry = .udpSend ∧ out.a = 1 then (s.openPort r).toList.map fun port =>
    (s.net.ip, callerDatagram s.m r port) else []

/-- The datagrams that the link takes in any other call. -/
def serves (s s' : Api) (entry : Entry) : List (Ip4 × Datagram) :=
  if entry = .udpSend then []
  else ((handedSince s.net.toMnNet s'.net.toMnNet).filter Prod.snd).filterMap
      fun taken => datagramOf taken.1

/-- The datagram that an UDP_RECV on an open socket says there is. -/
def gets (s s' : Api) (entry : Entry) (r out : Regs) : List Receipt :=
  if entry = .udpRecv ∧ out.a = 1 then
    (s.openPort r).toList.map fun port =>
      { port, src := callerIp s'.m (r.argPtr + 7), sport := callerWord s'.m (r.argPtr + 11)
        room := callerWord s.m (r.argPtr + 3)
        bytes := run s'.m (callerPtr s.m r.argPtr) (callerWord s'.m (r.argPtr + 5)).toNat }
  else []

/-- The machine after a call. -/
def Host.after (h : Host) (entry : Entry) (r out : Regs) (s : Api) : Host where
  api := s
  given := h.given ++ gives h.api entry r out
  served := h.served ++ serves h.api s entry
  got := h.got ++ gets h.api s entry r out

/-- The frames that the link of a machine took. -/
def Host.handed (h : Host) : List (Frame × Bool) := h.api.net.nif.handed

/-- If the frame brings some host a datagram from one of our addresses, it is one
of those a link has taken, in whatever frame and with whatever behind it. -/
def Genuine (ours : Set Ip4) (taken : Frame → Prop) (f : RxFrame) : Prop :=
  ∀ net p ip, arrival net p f = some ip → mnIpv4Src ip ∈ ours →
    ∃ dstMac srcMac src dst id sport dport payload pad,
      taken (.udp dstMac srcMac src dst id sport dport payload) ∧
      ip = packetOf src dst id sport dport payload pad

/-- What a program may call: anything, with buffers of its own. -/
structure Fair (ours : Set Ip4) (taken : Frame → Prop) (h : Host) (entry : Entry) (r : Regs)
    (i : Inputs) : Prop where
  spares : Spares h.api.m r entry
  apart : entry = .udpRecv → Apart (callerPtr h.api.m r.argPtr)
    (frameRoom h.api.m r.argPtr) (r.argPtr + 5) 8
  genuine : entry = .poll → ∀ f, i.frame = some f → Genuine ours taken f

/-- A call, or the program's own writes outside the pool. -/
inductive Host.Step (ours : Set Ip4) (taken : Frame → Prop) (h : Host) : Host → Prop where
  | calls (entry : Entry) (r : Regs) (i : Inputs) {out : Regs} {s : Api}
      (fair : Fair ours taken h entry r i)
      (done : h.api.exec entry r i = some (out, s)) : Step ours taken h (h.after entry r out s)
  | stores (m : PhysMem) (away : ∀ a : UInt32, a.toNat ∈ poolArea → m a = h.api.m a) :
      Step ours taken h { h with api := { h.api with m } }

/-- A machine after its first INIT, its link new. -/
def Host.Begun (h : Host) : Prop :=
  Started h.api ∧ h.handed = [] ∧ h.given = [] ∧ h.served = [] ∧ h.got = []

/-- Its link has taken the frame. -/
def Host.Sent (h : Host) (frame : Frame) : Prop := (frame, true) ∈ h.handed

/-- Its program has sent the datagram, or one of its clients has, as its message. -/
def Host.Asked (h : Host) (d : Ip4 × Datagram) : Prop := d ∈ h.given ∨ d ∈ h.served ∧ Service d

/-- The machines go on, each by what the links of all of them have taken. -/
abbrev Run {ι : Type} [DecidableEq ι] (ours : Set Ip4) : Network.Sys ι Host → Prop :=
  Network.Run Host.Sent (fun taken h => h.Step ours taken) Host.Begun

/-! ## What holds of a machine -/

variable {ours : Set Ip4} {asked asked' : Ip4 × Datagram → Prop} {taken : Frame → Prop} {h h' : Host}

/-- If it is from one of our addresses, it was asked for, for this port. -/
def Traced (ours : Set Ip4) (asked : Ip4 × Datagram → Prop) (p : UInt16) (a : Arrived) : Prop :=
  a.srcIp ∈ ours → ∃ d : Datagram, asked (a.srcIp, d) ∧ d.dport = p ∧ d.sport = a.srcPort ∧
    d.payload = a.payload

theorem Traced.mono (more : ∀ d, asked d → asked' d) {p : UInt16} (traced : Traced ours asked p a) :
    Traced ours asked' p a := by
  intro own
  obtain ⟨d, there, fields⟩ := traced own
  exact ⟨d, more _ there, fields⟩

/-- What a machine sends was asked for, and what waits in it or has been got is traced. -/
structure Fine (ours : Set Ip4) (asked : Ip4 × Datagram → Prop) (h : Host) : Prop where
  standing : Standing h.api
  staging : 13 ≤ h.api.blk.length
  sent : ∀ entry ∈ h.handed, entry.2 = true → ∀ d, datagramOf entry.1 = some d →
    asked d ∧ d.2.payload.length ≤ MN_UDP_MAX_PAYLOAD
  waiting : Mail (Traced ours asked) h.api.stack
  got : ∀ g ∈ h.got, g.src ∈ ours → ∃ d : Datagram, asked (g.src, d) ∧
    d.dport = g.port ∧ d.sport = g.sport ∧
    g.bytes = d.payload.take g.room.toNat

theorem Fine.mono (more : ∀ d, asked d → asked' d) (fine : Fine ours asked h) : Fine ours asked' h := by
  refine ⟨fine.standing, fine.staging, fun entry member queued d carried => ?_,
    fine.waiting.mono fun p a => Traced.mono more, fun g member own => ?_⟩
  · obtain ⟨there, fits⟩ := fine.sent entry member queued d carried
    exact ⟨more d there, fits⟩
  · obtain ⟨d, there, fields⟩ := fine.got g member own
    exact ⟨d, more _ there, fields⟩

/-- What a call puts on the wire by UDP is what its caller asks for, or a message to a service. -/
theorem call_sends (standing : Standing s) (spares : Spares s.m r entry)
    (done : s.exec entry r i = some (out, s'))
    {frame : Frame} (handed : (frame, true) ∈ handedSince s.net.toMnNet s'.net.toMnNet)
    {d : Ip4 × Datagram}
    (carried : datagramOf frame = some d) :
    (d ∈ gives s entry r out ∨ d ∈ serves s s' entry ∧ Service d) ∧
      d.2.payload.length ≤ MN_UDP_MAX_PAYLOAD := by
  have may := (call_few standing spares done).since.2 _ handed d carried
  unfold MaySend at may
  split at may
  · rename_i send
    subst send
    obtain ⟨port, open_, rfl, fits⟩ := may
    obtain same | ⟨port', open_', answer, same⟩ := udpSend_cases done
    · rw [same] at handed
      simp [handedSince] at handed
    · rw [same] at handed
      rw [show (sendFor s r port').1 = .ok from sendUdp_took handed carried] at answer
      refine ⟨Or.inl ?_, fits⟩
      rw [gives, if_pos ⟨rfl, answer⟩, open_]
      exact List.mem_singleton_self _
  · rename_i other
    refine ⟨Or.inr ⟨?_, may⟩, may.2⟩
    rw [serves, if_neg other]
    exact List.mem_filterMap.mpr ⟨_, List.mem_filter.mpr ⟨handed, rfl⟩, carried⟩

/-- The one act that takes a frame in. -/
theorem allowed_poll {frame : Option RxFrame} (may : Allowed s r i entry (.poll frame)) :
    entry = .poll ∧ frame = i.frame := by
  cases entry with
  | poll =>
    rcases may with same | asks | ⟨_, same⟩
    · cases same
      exact ⟨rfl, rfl⟩
    · exact absurd asks id
    · cases same
  | dhcpStart | dnsStart | ntpStart => exact absurd may id
  | setIp | setLocalIp4 | tcpConnect | tcpSend =>
    obtain ⟨_, _, _, same⟩ := may
    cases same
  | tcpRecv | udpRecv =>
    obtain ⟨_, same⟩ := may
    cases same
  | udpSend =>
    obtain ⟨_, _, _, _, _, same⟩ := may
    cases same
  | tcpListen | tcpClose | tcpAbort | udpOpen | udpClose => cases may
  | _ => exact absurd may id

/-- What a genuine frame brings is traced. -/
theorem genuine_traced {f : RxFrame} (genuine : Genuine ours taken f)
    (known : ∀ frame, taken frame → ∀ d, datagramOf frame = some d → asked d ∧
      d.2.payload.length ≤ MN_UDP_MAX_PAYLOAD)
    {net : MnNetFull} {p : UInt16} (brings : brought net p (.poll (some f)) = some a) :
      Traced ours asked p a := by
  obtain ⟨ip, arrives, rfl⟩ := Option.map_eq_some_iff.mp brings
  intro own
  obtain ⟨_, _, src, dst, _, sport, dport, payload, pad, there, rfl⟩ := genuine net p ip arrives own
  obtain ⟨sent, fits⟩ := known _ there (src, ⟨dst, sport, dport, payload⟩) rfl
  obtain ⟨_, _, port, _⟩ := arrival_some.mp arrives
  rw [packet_arrived fits]
  exact ⟨_, sent, (packet_valid fits).2.symm.trans port, rfl, rfl⟩

/-- What UDP_RECV hands out was waiting. -/
theorem gets_traced (fine : Fine ours asked h) (fair : Fair ours taken h entry r i)
    (done : h.api.exec entry r i = some (out, s)) {g : Receipt} (member : g ∈ gets h.api s entry r out)
    (own : g.src ∈ ours) :
    ∃ d : Datagram, asked (g.src, d) ∧ d.dport = g.port ∧ d.sport = g.sport ∧
      g.bytes = d.payload.take g.room.toNat := by
  unfold gets at member
  split at member
  · rename_i recv
    obtain ⟨rfl, answer⟩ := recv
    obtain ⟨port, open_, rfl⟩ := List.mem_map.mp member
    obtain ⟨k, here, port_, used⟩ := openPort_spec (Option.mem_toList.mp open_)
    have call_ : mnApiUdpRecv h.api r = (out, s) := Option.some.inj done
    have finds := @udpRecv_finds h.api r fine.staging (fair.apart rfl)
    rw [call_] at finds
    obtain ⟨j, here', waits, bytes, src, sport⟩ := finds answer
    obtain rfl : j = k := Fin.ext (here'.symm.trans here)
    obtain ⟨short, traced⟩ := fine.waiting j (show (h.api.net.sock j).port ≠ 0 from port_.symm ▸ used)
    have there : held h.api.stack j = some (inMailbox h.api.stack j) := if_pos waits
    dsimp only at own ⊢
    rw [src] at own ⊢
    obtain ⟨d, sent, dport, from_, payload⟩ := traced _ there own
    refine ⟨d, sent, dport.trans port_, from_.trans sport.symm, ?_⟩
    have content : mnXmemRead (linear h.api.m) (h.api.net.sock j).xseg (h.api.net.sock j).xoff
      (h.api.net.sock j).len =
        d.payload := payload.symm
    have small : d.payload.length ≤ 576 := by
      rw [← content, mnXmemRead_length]
      exact short waits
    rw [bytes, content, List.take_eq_take_iff, frameRoom]
    omega
  · cases member

private theorem init_staging (s : Api) (i : Inputs) : (mnApiInit s i).2.blk.length = 40 := rfl

private theorem init_fine (fine : Fine ours asked h) (i : Inputs) : Fine ours asked
    { h with api := (mnApiInit h.api i).2 } :=
  ⟨⟨init_shadowed h.api i, nofun⟩, le_of_le_of_eq (by decide) (init_staging h.api i).symm, fine.sent,
    fun _ used => absurd rfl used, fine.got⟩

private theorem call_fine (fine : Fine ours asked h)
    (more : ∀ d, (h.after entry r out s).Asked d → asked d)
    (known : ∀ frame, taken frame → ∀ d, datagramOf frame = some d → asked d ∧
      d.2.payload.length ≤ MN_UDP_MAX_PAYLOAD)
    (fair : Fair ours taken h entry r i) (done : h.api.exec entry r i = some (out, s)) :
    Fine ours asked (h.after entry r out s) := by
  by_cases first : entry = .init
  · subst first
    have started := init_fine fine i
    rw [← answered (f := mnApiInit h.api i) done] at started
    refine ⟨started.standing, started.staging, started.sent, started.waiting, ?_⟩
    show ∀ g ∈ h.got ++ [], _
    rw [List.append_nil]
    exact started.got
  obtain ⟨layout, order⟩ := fine.standing.shadowed.parts
  refine ⟨exec_standing fine.standing fair.spares done,
    fine.staging.trans (exec_grows first done), ?_, ?_, ?_⟩
  · intro entry' member queued d carried
    obtain ⟨frames, record, _⟩ := call_few fine.standing fair.spares done
    have grown : (h.after entry r out s).handed = h.handed ++ frames := record
    rw [grown] at member
    obtain old | new := List.mem_append.mp member
    · exact fine.sent entry' old queued d carried
    · obtain ⟨frame, took⟩ := entry'
      obtain rfl : took = true := queued
      rw [← handed_since record] at new
      obtain ⟨given_ | service, fits⟩ := call_sends fine.standing fair.spares done new carried
      · exact ⟨more d (Or.inl (List.mem_append_right _ given_)), fits⟩
      · exact ⟨more d (Or.inr ⟨List.mem_append_right _ service.1, service.2⟩), fits⟩
  · refine moves_mail fine.waiting layout order (spared fair.spares) ?_
      (exec_moves layout order fine.standing.named fair.spares first done)
    intro act may net p a brings
    cases act with
    | poll frame =>
      obtain ⟨poll, same⟩ := allowed_poll may
      cases frame with
      | none => cases brings
      | some f => exact genuine_traced (fair.genuine poll f same.symm) known brings
    | _ => cases brings
  · intro g member own
    obtain old | new := List.mem_append.mp member
    · exact fine.got g old own
    · exact gets_traced fine fair done new own

private theorem stores_fine (fine : Fine ours asked h) {m : PhysMem}
    (away : ∀ a : UInt32, a.toNat ∈ poolArea → m a = h.api.m a) :
    Fine ours asked { h with api := { h.api with m } } := by
  obtain ⟨layout, order⟩ := fine.standing.shadowed.parts
  exact ⟨stores_standing fine.standing away, fine.staging, fine.sent,
    mail_copies fine.waiting layout order (stores_level away).pool.symm, fine.got⟩

/-! ## Whole runs -/

section
variable {ι : Type} [DecidableEq ι] {sys : Network.Sys ι Host}

private theorem begun_fine (begun : h.Begun) (asked : Ip4 × Datagram → Prop) : Fine ours asked h := by
  obtain ⟨⟨before, i, same⟩, unheard, _, _, unread⟩ := begun
  refine ⟨?_, ?_, ?_, ?_, ?_⟩
  · rw [same]
    exact ⟨init_shadowed before i, nofun⟩
  · rw [same]
    exact le_of_le_of_eq (by decide) (init_staging before i).symm
  · rw [unheard]
    exact fun _ nothing => absurd nothing List.not_mem_nil
  · rw [same]
    exact fun _ used => absurd rfl used
  · rw [unread]
    exact fun _ nothing => absurd nothing List.not_mem_nil

private theorem asked_grows (step : h.Step ours taken h') (d : Ip4 × Datagram)
    (asked_ : h.Asked d) : h'.Asked d := by
  cases step with
  | calls =>
    exact asked_.imp (List.mem_append_left _) fun served => ⟨List.mem_append_left _ served.1, served.2⟩
  | stores => exact asked_

private theorem step_fine (step : h.Step ours taken h') (fine : Fine ours asked h)
    (more : ∀ d, h'.Asked d → asked d)
    (known : ∀ frame, taken frame → ∀ d, datagramOf frame = some d → asked d ∧
      d.2.payload.length ≤ MN_UDP_MAX_PAYLOAD) :
    Fine ours asked h' := by
  cases step with
  | calls entry r i fair done => exact call_fine fine more known fair done
  | stores m away => exact stores_fine fine away

/-- All machines are fine, as far as the datagrams go that any of them has sent. -/
theorem Run.fine (run : Run ours sys) (g : ι) : Fine ours (Network.Known Host.Asked sys) (sys g) := by
  refine Network.Run.traced Host.Asked (Fine ours) run (fun asked h begun _ => begun_fine begun asked)
    (fun _ _ _ more => Fine.mono more) (fun _ _ _ => asked_grows) ?_ g
  intro asked taken h h' step fine more came
  refine step_fine step fine more fun frame took d carried => ?_
  obtain ⟨peer, sound, _, sent⟩ := came frame took
  exact sound.sent _ sent rfl d carried

end

/-! ## One datagram for everyone -/

open Network

/-- A frame of ours is genuine wherever a link has taken it. -/
theorem udp_genuine {dstMac srcMac : Mac} {src dst : Ip4} {id sport dport : UInt16}
    {payload pad : List UInt8} {f : RxFrame}
    (there : taken (.udp dstMac srcMac src dst id sport dport payload))
    (bytes : f.bytes = (Frame.udp dstMac srcMac src dst id sport dport payload).bytes ++ pad) :
    Genuine ours taken f := by
  intro net p ip arrives _
  have reaches := (arrival_some.mp arrives).1
  unfold delivered at reaches
  dsimp only at reaches
  split_ifs at reaches
  refine ⟨dstMac, srcMac, src, dst, id, sport, dport, payload, pad, there, ?_⟩
  rw [← Option.some.inj reaches, bytes]
  rfl

/-- The machine once it has been called, if the call returns. -/
def Host.calls (h : Host) (entry : Entry) (r : Regs) (i : Inputs) : Host :=
  (h.api.exec entry r i).elim h fun answer => h.after entry r answer.1 answer.2

private theorem calls_step (entry : Entry) (r : Regs) (i : Inputs) (fair : Fair ours taken h entry r i)
    (returns : (h.api.exec entry r i).isSome = true) :
    h.Step ours taken (h.calls entry r i) := by
  obtain ⟨⟨out, s⟩, done⟩ := Option.isSome_iff_exists.mp returns
  rw [Host.calls, done]
  exact .calls entry r i fair done

/-- A call that writes nothing, other than a poll. -/
theorem fair_plain (none_ : writes h.api.m r entry = [] ∧ lends h.api.m r entry = [])
    (other : entry ≠ .udpRecv ∧ entry ≠ .poll) : Fair ours taken h entry r i :=
  ⟨spares_nothing none_, fun same => absurd same other.1, fun same => absurd same other.2⟩

/-- A machine with a program's blocks in its memory. -/
def host (m : PhysMem) (mac : Mac) : Host :=
  ⟨(mnApiInit { bare with m } { quietLink with mac }).2, [], [], []⟩

/-- A block to send to everyone's port 2000, and what there is to send. -/
def senderMemory : PhysMem :=
  put (put (fun _ => 0) 0x1600 [255, 255, 255, 255, 0xd0, 0x07, 0, 0x17, 0, 1, 0]) 0x1700 [7]

/-- A block to receive. -/
def receiverMemory : PhysMem := put (fun _ => 0) 0x1600 [0, 0x17, 0, 100, 0]

/-- At 10.0.0.1, a socket on port 1000, -/
def sender : Host :=
  ((host senderMemory ⟨2, 0, 0, 0, 0, 1⟩).calls .setLocalIp4 ⟨10, 0, 0, 1⟩ quietLink).calls .udpOpen
    ⟨0xe8, 0x03, 0, 0⟩ quietLink

/-- and one on port 2000. -/
def receiver : Host := (host receiverMemory ⟨2, 0, 0, 0, 0, 2⟩).calls .udpOpen
    ⟨0xd0, 0x07, 0, 0⟩ quietLink

/-- It is sent, -/
def sent : Host := sender.calls .udpSend ⟨0, 0x16, 0, 0⟩ quietLink

def byteSent : Frame := .udp mnEthBroadcast ⟨2, 0, 0, 0, 0, 1⟩ ⟨10, 0, 0, 1⟩ limitedBcast 1 1000 2000 [7]

private theorem byteSent_fits : byteSent.bytes.length ≤ 1518 := by decide +kernel

/-- it arrives, -/
def told : Host := receiver.calls .poll ⟨0, 0, 0, 0⟩
  { quietLink with frame := some ⟨byteSent.bytes, byteSent_fits⟩ }

/-- and it is received. -/
def received : Host := told.calls .udpRecv ⟨0, 0x16, 0, 0⟩ quietLink

theorem sent_run : Run ours (pair sent receiver) := by
  have begun (m : PhysMem) (mac : Mac) : (host m mac).Begun := ⟨⟨_, _, rfl⟩, rfl, rfl, rfl, rfl⟩
  have start : Run ours
      (pair (host senderMemory ⟨2, 0, 0, 0, 0, 1⟩) (host receiverMemory ⟨2, 0, 0, 0, 0, 2⟩)) :=
    .start fun g => by cases g <;> exact begun _ _
  have named := first_moves start (calls_step .setLocalIp4 ⟨10, 0, 0, 1⟩ quietLink
    (fair_plain ⟨rfl, rfl⟩ ⟨by decide, by decide⟩) rfl)
  have opens := first_moves named (calls_step .udpOpen ⟨0xe8, 0x03, 0, 0⟩ quietLink
    (fair_plain ⟨rfl, rfl⟩ ⟨by decide, by decide⟩) rfl)
  have listens := second_moves opens (calls_step .udpOpen ⟨0xd0, 0x07, 0, 0⟩ quietLink
    (fair_plain ⟨rfl, rfl⟩ ⟨by decide, by decide⟩) rfl)
  exact first_moves listens (calls_step .udpSend ⟨0, 0x16, 0, 0⟩ quietLink
    (fair_plain ⟨rfl, rfl⟩ ⟨by decide, by decide⟩) (by decide +kernel))

theorem told_run : Run ours (pair sent told) := by
  have handed : (byteSent, true) ∈ sent.handed := by decide +kernel
  have there : Taken Host.Sent (pair sent receiver) byteSent := ⟨false, handed⟩
  refine second_moves sent_run
    (calls_step .poll ⟨0, 0, 0, 0⟩ _ ⟨spares_nothing ⟨rfl, rfl⟩, nofun, ?_⟩ rfl)
  rintro _ f same
  cases same
  exact udp_genuine there (List.append_nil _).symm

end MegaNet.DatagramsEndToEnd
