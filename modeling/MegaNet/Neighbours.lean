import MegaNet.DatagramsEndToEnd
import MegaNet.Network

/-! Any number of machines that learn each other's addresses by ARP, over a network
that loses, delays, duplicates and reorders their frames, with other hosts on it
that announce addresses of their own: what one has in its cache for an address that
only these machines announce is the MAC of one that has had it, and that is where
its packets for it go. -/
namespace MegaNet.Neighbours
open MegaNet.Core Transition TcpEmission TcpConnection TcpOutcomes TcpTurns TcpSetRuns
  UdpOutcomes UdpSockets
  Transmissions WireFormats
  PoolContents PoolLayout ApiMoves ApiRuns

variable {net before middle after : MnNet} {frame : Frame} {st : Stack} {c : MnArpCache}
  {e : MnArpEntry} {ip dst : Ip4} {mac : Mac}

/-! ## What a frame says of addresses -/

/-- Who has which address, as an ARP frame says. -/
def announced : Frame → Option (Ip4 × Mac)
  | .arpRequest mac ip _ | .arpReply mac ip _ _ => some (ip, mac)
  | .tcp .. | .udp .. | .echoReply .. => none

/-- Whom a packet is for, and the MAC it goes to. An echo reply goes back to where
the request came from. -/
def towards : Frame → Option (Ip4 × Mac)
  | .tcp dstMac _ _ dst _ _ | .udp dstMac _ _ dst _ _ _ _ => some (dst, dstMac)
  | .arpRequest .. | .arpReply .. | .echoReply .. => none

/-- What a net goes by. -/
def identity (net : MnNet) : Ip4 × Mac := (net.ip, net.nif.mac)

/-- A frame that a net may hand down: it announces nobody else, and goes where the
net has it go. -/
structure Proper (net : MnNet) (frame : Frame) : Prop where
  honest : ∀ who, announced frame = some who → who = identity net
  directed : ∀ dst mac, towards frame = some (dst, mac) → (mnNetTxBegin net dst).1 = .ok mac

/-- What a net is going by, and where it has a packet go, is a matter of its routes. -/
theorem same_routes_begun (same : SameRoutes before after) (dst : Ip4) :
    (mnNetTxBegin after dst).1 = (mnNetTxBegin before dst).1 := by
  have broadcast (ip : Ip4) : isBroadcast after ip = isBroadcast before ip := by
    simp [isBroadcast, same.mask]
  have hop : mnNetNextHop after dst = mnNetNextHop before dst := by
    unfold mnNetNextHop
    rw [broadcast, same.mask, same.ip, same.gw]
  unfold mnNetTxBegin
  dsimp only
  rw [hop, broadcast, same.arp]
  split
  · rfl
  · cases mnArpCacheLookup before.arp (mnNetNextHop before dst) <;> rfl

theorem Proper.earlier (same : SameRoutes before after) (proper : Proper after frame) :
    Proper before frame := by
  refine ⟨fun who said => (proper.honest who said).trans ?_, fun dst mac goes => ?_⟩
  · rw [identity, same.ip, same.mac]
    rfl
  · rw [← same_routes_begun same]
    exact proper.directed dst mac goes

/-- One state of a net follows another by handing down proper frames. -/
structure Properly (before after : MnNet) : Prop where
  routes : SameRoutes before after
  record : Hands (Proper before) before after

theorem Properly.refl (net : MnNet) : Properly net net := ⟨.refl net, .nothing net⟩

theorem Properly.trans (first : Properly before middle) (second : Properly middle after) :
    Properly before after :=
  ⟨first.routes.trans second.routes,
    first.record.trans (second.record.mono fun _ proper => proper.earlier first.routes)⟩

private theorem properly_chains : Chains Properly := ⟨Properly.refl, Properly.trans⟩

private theorem arpRequest_proper (net : MnNet) (target : Ip4) : Proper net
    (.arpRequest net.nif.mac net.ip target) :=
  ⟨fun _ said => (Option.some.inj said).symm, nofun⟩

private theorem send_properly (net : MnNet) {frame : Frame} (proper : Proper net frame) : Properly net
    (net.send frame).2 := by
  obtain ⟨handed, same, _⟩ := send_spec net frame
  exact ⟨same, .one handed proper⟩

/-- A packet after `mn_net_tx_begin`, by TCP, -/
theorem txSend_properly (begun : mnNetTxBegin net dst = (.ok mac, net)) (seg : TcpSeg) :
    Properly net (mnNetTxSend net mac dst seg).2 := by
  obtain ⟨handed, same, _⟩ := send_spec { net with ipId := net.ipId + 1 }
    (.tcp mac net.nif.mac net.ip dst net.ipId seg)
  refine ⟨⟨same.mac, same.accepts, same.ip, same.mask, same.gw, same.arp⟩,
    .one handed ⟨nofun, fun dst mac goes => ?_⟩⟩
  cases goes
  exact congrArg Prod.fst begun

/-! ## Whatever a machine does -/

private theorem emit_properly (t : MnTcp) (x : XMem) (net : MnNet) (flags : SegFlags)
    (seq : UInt32) (off len : UInt16)
    (mss : Bool) :
    Properly net (emit t x net flags seq off len mss).2.2 := by
  unfold emit
  obtain ⟨_, mac, begun⟩ | ⟨_, begun⟩ := tx_begin_spec net t.remoteIp
  · rw [begun]
    exact txSend_properly begun _
  · rw [begun]
    exact send_properly net (arpRequest_proper net _)

private theorem sendSyn_properly (t : MnTcp) (x : XMem) (net : MnNet) (flags : SegFlags) :
    Properly net (sendSyn t x net flags).2 := by
  rw [sendSyn_net]
  exact emit_properly ..

private theorem sendRst_properly (net : MnNet) (src : Ip4) (seg : TcpSeg) : Properly net
    (sendRst net src seg) := by
  unfold sendRst
  dsimp only
  obtain ⟨_, mac, begun⟩ | ⟨_, begun⟩ := tx_begin_spec net src
  · rw [begun]
    exact txSend_properly begun _
  · rw [begun]
    exact send_properly net (arpRequest_proper net _)

private theorem tcp_properly (w : World) (net : MnNet) (event : Event) : Properly net
    (w.exec net event).2 :=
  exec_chains properly_chains w net event
    (fun t _ net now => pollOne_chains properly_chains (fun u => emit_properly u w.x) t net now)
    (fun t => sendSyn_properly t w.x net) (fun t => emit_properly t w.x net _ _ _ _ _)
      (sendRst_properly net)

private theorem sendUdp_properly (net : MnNetFull) (dst : Ip4) (sport dport : UInt16)
    (payload : List UInt8) :
    Properly net.toMnNet (mnNetSendUdp net dst sport dport payload).2.toMnNet := by
  have posting := sendUdp_posting net dst sport dport payload
  generalize (mnNetSendUdp net dst sport dport payload).2 = after at posting
  cases posting with
  | tooLong _ same =>
    rw [same]
    exact .refl _
  | asked _ _ _ routes handed => exact ⟨routes, .one handed (arpRequest_proper net.toMnNet _)⟩
  | sent _ _ mac begun _ routes handed =>
    refine ⟨routes, .one handed ⟨nofun, fun dst mac goes => ?_⟩⟩
    cases goes
    exact begun

private theorem tcpInput_properly (st : Stack) (ip : List UInt8) : Properly st.net.toMnNet
    (st.tcpInput ip).net.toMnNet := by
  unfold Stack.tcpInput
  cases st.tcp with
  | none => exact .refl _
  | some set =>
    dsimp only
    split
    · exact input_chains properly_chains set _ _ _ (fun t => sendSyn_properly t st.x _)
        (sendRst_properly _ _ _)
    · exact .refl _

private theorem ipInput_properly (st : Stack) (f : List UInt8) (len : UInt16) :
    Properly st.net.toMnNet (st.ipInput f len).net.toMnNet := by
  unfold Stack.ipInput
  dsimp only
  split
  · exact .refl _
  split
  · split
    · exact send_properly st.net.toMnNet ⟨nofun, nofun⟩
    · exact .refl _
  split
  · dsimp only
    rw [deliverUdp_toMnNet]
    exact .refl _
  split
  · exact tcpInput_properly st _
  · exact .refl _

/-- Who a frame says it is from, if it is one of ARP's. -/
def heard (f : RxFrame) : Option (Ip4 × Mac) :=
  if mnArpOpcode f.bytes f.len ≠ 0 then some (mnArpSenderIp f.bytes, mnArpSenderMac f.bytes) else none

/-- What is in a cache after learning was there before, or is what was learned. -/
theorem learn_entries (there : e ∈ (mnArpCacheLearn c ip mac).e) : e ∈ c.e ∨
    (e.ip, e.mac) = (ip, mac) := by
  unfold mnArpCacheLearn at there
  split at there
  · rename_i i found
    obtain ⟨inside, own, _⟩ := List.findIdx?_eq_some_iff_getElem.mp found
    simp only [Bool.and_eq_true, beq_iff_eq] at own
    obtain ⟨j, here⟩ := List.mem_iff_getElem?.mp there
    rw [List.getElem?_modify] at here
    obtain ⟨old, slot, rfl⟩ := Option.map_eq_some_iff.mp here
    split
    · rename_i same
      subst same
      rw [List.getElem?_eq_getElem inside] at slot
      obtain rfl := Option.some.inj slot
      exact .inr (Prod.ext own.2 rfl)
    · exact .inl (List.mem_of_getElem? slot)
  · rcases List.mem_or_eq_of_mem_set there with old | rfl
    · exact .inl old
    · exact .inr rfl

private theorem lookup_entry (found : mnArpCacheLookup c ip = some mac) :
    ∃ e ∈ c.e, e.valid = true ∧ e.ip = ip ∧ e.mac = mac := by
  obtain ⟨e, here, rfl⟩ := Option.map_eq_some_iff.mp found
  have own := List.find?_some here
  simp only [Bool.and_eq_true, beq_iff_eq] at own
  exact ⟨e, List.mem_of_find?_eq_some here, own.1, own.2, rfl⟩

/-- Where a packet goes. -/
theorem begun_cases (begun : (mnNetTxBegin net dst).1 = .ok mac) :
    isBroadcast net (mnNetNextHop net dst) = true ∧ mac = mnEthBroadcast ∨
      mnArpCacheLookup net.arp (mnNetNextHop net dst) = some mac := by
  unfold mnNetTxBegin at begun
  dsimp only at begun
  split at begun
  · rename_i everyone
    exact .inl ⟨everyone, (Except.ok.inj begun).symm⟩
  · cases found : mnArpCacheLookup net.arp (mnNetNextHop net dst) with
    | none =>
      rw [found] at begun
      cases begun
    | some there =>
      rw [found] at begun
      exact .inr (congrArg some (Except.ok.inj begun))

/-- An act hands down proper frames, and brings nothing into the cache but what
an ARP frame said. -/
structure Acts (net : MnNet) (brought : Option (Ip4 × Mac)) (after : MnNet) : Prop where
  record : Hands (Proper net) net after
  learns : ∀ e ∈ after.arp.e, e ∈ net.arp.e ∨ brought = some (e.ip, e.mac)

theorem Properly.acts
    (properly : Properly before after) (brought : Option (Ip4 × Mac)) : Acts before brought after :=
  ⟨properly.record, fun _ there => .inl (properly.routes.arp ▸ there)⟩

private theorem arpInput_acts (net : MnNetFull) (f : RxFrame) :
    Acts net.toMnNet (heard f) (arpInput net f.bytes f.len).toMnNet := by
  have heard_ (op : mnArpOpcode f.bytes f.len ≠ 0) :
      heard f = some (mnArpSenderIp f.bytes, mnArpSenderMac f.bytes) := if_pos op
  have learned (op : mnArpOpcode f.bytes f.len ≠ 0) (e : MnArpEntry)
      (there : e ∈ (mnArpCacheLearn net.arp (mnArpSenderIp f.bytes) (mnArpSenderMac f.bytes)).e) :
      e ∈ net.arp.e ∨ heard f = some (e.ip, e.mac) := by
    rw [heard_ op]
    exact (learn_entries there).imp_right fun same => congrArg some same.symm
  unfold arpInput
  split
  · rename_i reply
    exact ⟨.nothing net.toMnNet, learned (by rw [reply]; decide)⟩
  split
  · rename_i asks
    have op : mnArpOpcode f.bytes f.len = MN_ARP_OP_REQUEST := by
      simp only [mnArpWantsUs, Bool.and_eq_true, beq_iff_eq] at asks
      exact asks.1
    obtain ⟨handed, same, _⟩ := send_spec
      { net.toMnNet with
        arp := mnArpCacheLearn net.arp (mnArpSenderIp f.bytes) (mnArpSenderMac f.bytes) }
      (.arpReply net.nif.mac net.ip (mnArpSenderMac f.bytes) (mnArpSenderIp f.bytes))
    refine ⟨.one handed ⟨fun _ said => (Option.some.inj said).symm, nofun⟩,
      fun e there => learned (by rw [op]; decide) e ?_⟩
    have stays :
      ({ net.toMnNet with
          arp := mnArpCacheLearn net.arp (mnArpSenderIp f.bytes) (mnArpSenderMac f.bytes) }.send
        (.arpReply net.nif.mac net.ip (mnArpSenderMac f.bytes) (mnArpSenderIp f.bytes))).2.arp =
      mnArpCacheLearn net.arp (mnArpSenderIp f.bytes) (mnArpSenderMac f.bytes) := same.arp
    rw [← stays]
    exact there
  · exact (Properly.refl _).acts _

private theorem poll_acts (st : Stack) (frame : Option RxFrame) :
    Acts st.net.toMnNet (frame.bind heard) (mnNetPoll st frame).net.toMnNet := by
  cases frame with
  | none => exact (Properly.refl _).acts _
  | some f =>
    unfold mnNetPoll
    dsimp only
    split
    · exact (Properly.refl _).acts _
    split
    · exact arpInput_acts (counted st.net) f
    split
    · exact (ipInput_properly { st with net := counted st.net } f.bytes f.len).acts _
    · exact (Properly.refl _).acts _

/-- What a frame brings, if it is an act that takes one in. -/
def brings : Act → Option (Ip4 × Mac)
  | .poll frame => frame.bind heard
  | _ => none

private theorem exec_acts (st : Stack) (act : Act) : Acts st.net.toMnNet (brings act)
    (exec st act).net.toMnNet := by
  have quiet {net : MnNetFull} (same : net.toMnNet = st.net.toMnNet) :
      Acts st.net.toMnNet none net.toMnNet := by
    rw [same]
    exact (Properly.refl _).acts _
  cases act with
  | poll frame => exact poll_acts st frame
  | opens port => exact quiet (open_toMnNet st.net port)
  | closes s => exact quiet (close_toMnNet st.net s)
  | receives s cap => exact quiet (recv_toMnNet st.net st.x s cap)
  | sends dst sport dport payload => exact (sendUdp_properly st.net dst sport dport payload).acts _
  | configures ip mask gw => exact ⟨.nothing st.net.toMnNet, fun e there => .inl there⟩
  | tcp event =>
    simp only [exec, tcpAct]
    cases st.tcp with
    | none => exact quiet rfl
    | some set => exact (tcp_properly ⟨set, st.x⟩ st.net.toMnNet event).acts _

/-! ## Machines and the network -/

/-- A machine, with the addresses it has had. -/
structure Host where
  st : Stack
  had : List (Ip4 × Mac)

/-- The frames that its link was handed. -/
def Host.handed (h : Host) : List (Frame × Bool) := h.st.net.nif.handed

/-- The machine with its stack in another state. -/
def Host.goes (h : Host) (st : Stack) : Host := ⟨st, h.had ++ [identity st.net.toMnNet]⟩

/-- What our machines alone announce: if the frame is one of ARP's from one of our
addresses, it is one of those a link has taken, or says the same. -/
def Genuine (ours : Set Ip4) (taken : Frame → Prop) (f : RxFrame) : Prop :=
  ∀ who, heard f = some who → who.1 ∈ ours → ∃ frame, taken frame ∧ announced frame = some who

/-- Anything the stack does, INIT, or what the program and the calls do to memory. -/
inductive Host.Step (ours : Set Ip4) (taken : Frame → Prop) (h : Host) : Host → Prop where
  | acts (act : Act) (genuine : ∀ f, act = .poll (some f) → Genuine ours taken f) :
      Step ours taken h (h.goes (exec h.st act))
  | inits (st : Stack) (empty : ∀ e ∈ st.net.arp.e, e.valid = false)
      (record : st.net.nif.handed = h.handed) :
      Step ours taken h (h.goes st)
  | copies (x : XMem) : Step ours taken h { h with st := { h.st with x } }

/-- A machine with nothing in its cache, its link new. -/
def Host.Begun (h : Host) : Prop :=
  (∀ e ∈ h.st.net.arp.e, e.valid = false) ∧ h.handed = [] ∧ h.had = [identity h.st.net.toMnNet]

/-- Its link has taken the frame. -/
def Host.Sent (h : Host) (frame : Frame) : Prop := (frame, true) ∈ h.handed

/-- It has had the address, with that MAC. -/
def Host.Had (h : Host) (who : Ip4 × Mac) : Prop := who ∈ h.had

/-- The machines go on, each by what the links of all of them have taken. -/
abbrev Run {ι : Type} [DecidableEq ι] (ours : Set Ip4) : Network.Sys ι Host → Prop :=
  Network.Run Host.Sent (fun taken h => h.Step ours taken) Host.Begun

variable {ι : Type} {ours : Set Ip4} {taken taken' : Frame → Prop} {h h' : Host}
  {known known' : Ip4 × Mac → Prop}

/-! ## What holds of a machine -/

/-- What it announces it has had, and what it has learned of our addresses is `known`. -/
structure Learned (ours : Set Ip4) (known : Ip4 × Mac → Prop) (h : Host) : Prop where
  here : identity h.st.net.toMnNet ∈ h.had
  said : ∀ entry ∈ h.handed, ∀ who, announced entry.1 = some who → who ∈ h.had
  cached : ∀ e ∈ h.st.net.arp.e, e.valid = true → e.ip ∈ ours → known (e.ip, e.mac)

theorem Learned.mono (more : ∀ who, known who → known' who) (learned : Learned ours known h) :
    Learned ours known' h :=
  ⟨learned.here, learned.said, fun e there valid own => more _ (learned.cached e there valid own)⟩

private theorem learned_step (learned : Learned ours known h)
    (genuine : ∀ frame who, taken frame → announced frame = some who → known who)
    (step : h.Step ours taken h') : Learned ours known h' := by
  cases step with
  | acts act heard_ =>
    obtain ⟨⟨frames, handed, proper⟩, learns⟩ := exec_acts h.st act
    refine ⟨List.mem_append_right _ (List.mem_singleton_self _), fun entry there who said => ?_,
      fun e there valid own => ?_⟩
    · rw [show (h.goes (exec h.st act)).handed = h.handed ++ frames from handed] at there
      refine List.mem_append_left _ ?_
      rcases List.mem_append.mp there with old | new
      · exact learned.said entry old who said
      · rw [(proper entry new).honest who said]
        exact learned.here
    · rcases learns e there with old | new
      · exact learned.cached e old valid own
      · cases act with
        | poll frame =>
          obtain ⟨f, rfl, said⟩ := Option.bind_eq_some_iff.mp new
          obtain ⟨frame, took, same⟩ := heard_ f rfl _ said own
          exact genuine frame _ took same
        | _ => cases new
  | inits st empty record =>
    refine ⟨List.mem_append_right _ (List.mem_singleton_self _), fun entry there who said => ?_,
      fun e there valid => ?_⟩
    · rw [show (h.goes st).handed = h.handed from record] at there
      exact List.mem_append_left _ (learned.said entry there who said)
    · rw [empty e there] at valid
      cases valid
  | copies x => exact ⟨learned.here, learned.said, learned.cached⟩

private theorem had_grows (step : h.Step ours taken h') : h.had <+: h'.had := by
  cases step with
  | acts | inits => exact List.prefix_append _ _
  | copies => exact List.prefix_rfl

/-! ## Calls of the ABI -/

section
variable {s s' : Api} {entry : Entry} {r out : Regs} {i : Inputs}

/-- INIT leaves a cache with nothing in it, -/
theorem init_empty (s : Api) (i : Inputs) : ∀ e ∈ (mnApiInit s i).2.stack.net.arp.e,
    e.valid = false := by
  intro e there
  obtain ⟨_, _, rfl⟩ := List.mem_map.mp
    (show e ∈ List.map (fun e : MnArpEntry => { e with valid := false }) _ from there)
  rfl

/-- and what the link was handed. -/
theorem init_step (same : h.st = s.stack) : h.Step ours taken (h.goes (mnApiInit s i).2.stack) := by
  refine .inits _ (init_empty s i) ?_
  rw [Host.handed, same]
  rfl

/-- A call of the ABI is steps of its machine. -/
theorem call_goes (standing : Standing s) (spares : Spares s.m r entry)
    (done : s.exec entry r i = some (out, s'))
    (genuine : entry = .poll → ∀ f, i.frame = some f → Genuine ours taken f) (same : h.st = s.stack) :
    ∃ h', h'.st = s'.stack ∧ Relation.ReflTransGen (Host.Step ours taken) h h' := by
  by_cases first : entry = .init
  · subst first
    rw [answered (f := mnApiInit s i) done]
    exact ⟨_, rfl, .single (init_step same)⟩
  obtain ⟨layout, order⟩ := standing.shadowed.parts
  have moves := exec_moves layout order standing.named spares first done
  generalize s'.stack = after at moves ⊢
  induction moves with
  | refl => exact ⟨h, same, .refl⟩
  | tail _ move ih =>
    obtain ⟨h', rfl, path⟩ := ih
    cases move with
    | acts act may =>
      refine ⟨_, rfl, path.tail (.acts act fun f same => ?_)⟩
      subst same
      obtain ⟨poll, came⟩ := DatagramsEndToEnd.allowed_poll may
      exact genuine poll f came.symm
    | copies x within => exact ⟨_, rfl, path.tail (.copies x)⟩

end

/-! ## Whole runs -/

section
variable [DecidableEq ι] {sys : Network.Sys ι Host}

private theorem begun_learned (begun : h.Begun) (known : Ip4 × Mac → Prop) : Learned ours known h := by
  obtain ⟨empty, unheard, had⟩ := begun
  refine ⟨had ▸ List.mem_singleton_self _, ?_, fun e there valid => ?_⟩
  · rw [unheard]
    exact fun _ nothing => absurd nothing List.not_mem_nil
  · rw [empty e there] at valid
    cases valid

theorem Run.learned (run : Run ours sys) (g : ι) : Learned ours
    (Network.Known Host.Had sys) (sys g) := by
  refine Network.Run.traced Host.Had (Learned ours) run
    (fun known h begun _ => begun_learned begun known)
    (fun _ _ _ more => Learned.mono more) (fun _ _ _ step who had => (had_grows step).subset had) ?_ g
  intro known taken h h' step learned _ came
  refine learned_step learned (fun frame who took said => ?_) step
  obtain ⟨peer, sound, recorded, sent⟩ := came frame took
  exact recorded who (sound.said _ sent who said)

/-- Whatever the machines and the network do, and the other hosts on it as long as
they announce none of our addresses: what a machine has in its cache for one of our
addresses is the MAC of one of them that has had that address; and each segment or
datagram that a machine hands to its link goes to everyone, or to the MAC of a
machine that has had the address of its next hop, if that is one of ours. -/
theorem neighbours_agree (run : Run ours sys) (g : ι) :
    (∀ e ∈ (sys g).st.net.arp.e, e.valid = true → e.ip ∈ ours → ∃ g', (e.ip, e.mac) ∈ (sys g').had) ∧
      ∀ act, ∀ entry ∈ handedSince (sys g).st.net.toMnNet (exec (sys g).st act).net.toMnNet, ∀ dst mac,
        towards entry.1 = some (dst, mac) →
          isBroadcast (sys g).st.net.toMnNet (mnNetNextHop (sys g).st.net.toMnNet dst) = true ∧
            mac = mnEthBroadcast ∨
            (mnNetNextHop (sys g).st.net.toMnNet dst ∈ ours →
              ∃ g', (mnNetNextHop (sys g).st.net.toMnNet dst, mac) ∈ (sys g').had) := by
  have cached := (Run.learned run g).cached
  refine ⟨cached, fun act entry handed dst mac goes => ?_⟩
  have begun := ((exec_acts (sys g).st act).record.since entry handed).directed dst mac goes
  refine (begun_cases begun).imp_right fun found own => ?_
  obtain ⟨e, there, valid, same, rfl⟩ := lookup_entry found
  rw [← same] at own ⊢
  exact cached e there valid own

end

/-! ## Two neighbours -/

open Network

/-- A frame of ours is genuine wherever a link has taken it. -/
theorem taken_genuine {f : RxFrame} {pad : List UInt8} (there : taken frame)
    (bytes : f.bytes = frame.bytes ++ pad) :
    Genuine ours taken f := by
  intro who said _
  unfold heard at said
  split at said
  · rename_i op
    cases said
    refine ⟨frame, there, ?_⟩
    rw [bytes]
    have type : mnEtherType f.bytes = MN_ETHERTYPE_ARP := by
      by_contra other
      simp [mnArpOpcode, isArp, other] at op
    cases frame with
    | arpRequest | arpReply => rfl
    | tcp | udp | echoReply =>
      rw [bytes, Frame.bytes, frame_type] at type
      cases type
  · cases said

/-- A machine after INIT. -/
def newcomer (mac : Mac) : Host :=
  let st := (mnApiInit bare { quietLink with mac }).2.stack
  ⟨st, [identity st.net.toMnNet]⟩

def Host.does (h : Host) (act : Act) : Host := h.goes (exec h.st act)

private theorem first_acts {a b : Host} (run : Run ours (pair a b)) (act : Act)
    (genuine : ∀ f, act = .poll (some f) → Genuine ours (Taken Host.Sent (pair a b)) f) :
    Run ours (pair (a.does act) b) := first_moves run (.acts act genuine)

private theorem second_acts {a b : Host} (run : Run ours (pair a b)) (act : Act)
    (genuine : ∀ f, act = .poll (some f) → Genuine ours (Taken Host.Sent (pair a b)) f) :
    Run ours (pair a (b.does act)) := second_moves run (.acts act genuine)

def question : Frame := .arpRequest ⟨2, 0, 0, 0, 0, 1⟩ ⟨10, 0, 0, 1⟩ ⟨10, 0, 0, 2⟩

def answer : Frame := .arpReply ⟨2, 0, 0, 0, 0, 2⟩ ⟨10, 0, 0, 2⟩ ⟨2, 0, 0, 0, 0, 1⟩ ⟨10, 0, 0, 1⟩

private theorem question_fits : question.bytes.length ≤ 1518 := by decide

private theorem answer_fits : answer.bytes.length ≤ 1518 := by decide

/-- One asks for the other, to send it a byte, -/
def asking : Host :=
  ((newcomer ⟨2, 0, 0, 0, 0, 1⟩).does (.configures ⟨10, 0, 0, 1⟩ ⟨255, 255, 255, 0⟩ ⟨0, 0, 0, 0⟩)).does
    (.sends ⟨10, 0, 0, 2⟩ 1000 2000 [7])

def asked : Host := (newcomer ⟨2, 0, 0, 0, 0, 2⟩).does
  (.configures ⟨10, 0, 0, 2⟩ ⟨255, 255, 255, 0⟩ ⟨0, 0, 0, 0⟩)

/-- which answers, -/
def answering : Host := asked.does (.poll (some ⟨question.bytes, question_fits⟩))

/-- and is known. -/
def told : Host := asking.does (.poll (some ⟨answer.bytes, answer_fits⟩))

theorem asking_run : Run ours (pair asking asked) := by
  have begun (mac : Mac) : (newcomer mac).Begun := ⟨init_empty bare { quietLink with mac }, rfl, rfl⟩
  have start : Run ours (pair (newcomer ⟨2, 0, 0, 0, 0, 1⟩) (newcomer ⟨2, 0, 0, 0, 0, 2⟩)) :=
    .start fun g => by cases g <;> exact begun _
  exact first_acts (first_acts (second_acts start _ (by simp)) _ (by simp)) _ (by simp)

theorem told_run : Run ours (pair told answering) := by
  have asks : (question, true) ∈ asking.handed := by decide +kernel
  have answers : (answer, true) ∈ answering.handed := by decide +kernel
  have heard_ : Taken Host.Sent (pair asking asked) question := ⟨false, asks⟩
  have heard' : Taken Host.Sent (pair asking answering) answer := ⟨true, answers⟩
  refine first_acts (second_acts asking_run _ ?_) _ ?_
  · rintro f same
    cases same
    exact taken_genuine heard_ (List.append_nil _).symm
  · rintro f same
    cases same
    exact taken_genuine heard' (List.append_nil _).symm

theorem neighbours_agree_told :
    mnArpCacheLookup told.st.net.arp ⟨10, 0, 0, 2⟩ = some ⟨2, 0, 0, 0, 0, 2⟩ ∧
      ∃ g, (⟨10, 0, 0, 2⟩, ⟨2, 0, 0, 0, 0, 2⟩) ∈ (pair told answering g).had := by
  have found : mnArpCacheLookup told.st.net.arp ⟨10, 0, 0, 2⟩ = some ⟨2, 0, 0, 0, 0, 2⟩ := by
    decide +kernel
  obtain ⟨e, there, valid, ip, mac⟩ := lookup_entry found
  have had := (neighbours_agree (told_run : Run Set.univ _) false).1 e there valid (Set.mem_univ _)
  rw [ip, mac] at had
  exact ⟨found, had⟩

end MegaNet.Neighbours
