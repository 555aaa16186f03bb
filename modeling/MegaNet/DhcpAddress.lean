import MegaNet.DhcpOutcomes
import MegaNet.Transition

/-! The address over whole runs of the DHCP client: it is configured exactly
while the client is bound, and it is the one that was acknowledged. -/
namespace MegaNet.DhcpAddress
open MegaNet.Core Transition TcpEmission TcpConnection UdpOutcomes DhcpOutcomes

variable {d d' : Dhcp.MnDhcp} {net net' after : MnNetFull} {x : XMem} {now : UInt16} {type : UInt8}
  {msg : Option (UInt8 × List UInt8)} {out : Dhcp.MnDhcp × MnNetFull}

/-! ## The address over one call -/

/-- The layer's address, mask and gateway are as they were. -/
structure SameAddress (before after : MnNetFull) : Prop where
  ip : after.ip = before.ip
  mask : after.mask = before.mask
  gw : after.gw = before.gw

theorem SameAddress.refl (net : MnNetFull) : SameAddress net net := ⟨rfl, rfl, rfl⟩

theorem SameAddress.trans {net₁ net₂ net₃ : MnNetFull} (first : SameAddress net₁ net₂)
    (second : SameAddress net₂ net₃) : SameAddress net₁ net₃ :=
  ⟨second.ip.trans first.ip, second.mask.trans first.mask, second.gw.trans first.gw⟩

private theorem sameAddress_of_toMnNet (same : after.toMnNet = net.toMnNet) : SameAddress net after :=
  ⟨congrArg MnNet.ip same, congrArg MnNet.mask same, congrArg MnNet.gw same⟩

/-- No address is configured. -/
structure Unconfigured (net : MnNetFull) : Prop where
  ip : net.ip = zeroIp
  mask : net.mask = zeroIp
  gw : net.gw = zeroIp

theorem Unconfigured.congr (un : Unconfigured net) (same : SameAddress net after) : Unconfigured after :=
  ⟨same.ip.trans un.ip, same.mask.trans un.mask, same.gw.trans un.gw⟩

theorem Hears.sameAddress (hears : Hears d net x msg d' net') : SameAddress net net' :=
  sameAddress_of_toMnNet hears.rest.1

theorem Sends.sameAddress (sends : Sends d net type now out) : SameAddress net out.2 := by
  cases sends with
  | sends _ _ posts => exact ⟨posts.routes.ip, posts.routes.mask, posts.routes.gw⟩

theorem Sends.sameState (sends : Sends d net type now out) : out.1.state = d.state := by
  cases sends with
  | sends => rfl

private theorem close_sameAddress (net : MnNetFull) (s : UInt8) : SameAddress net
    (mnNetUdpClose net s) := by
  obtain ⟨_, same⟩ | ⟨i, _, same⟩ := udpClose_cases net s <;> rw [same]
  · exact .refl net
  · exact sameAddress_of_toMnNet (setSock_toMnNet ..)

theorem Loses.unconfigured (loses : Loses d net now out) :
    out.1.state = .selecting ∧ Unconfigured out.2 := by
  obtain ⟨_, net', reopened, sends⟩ := loses
  have zeroed : Unconfigured (mnNetSetIp net zeroIp zeroIp zeroIp) := ⟨rfl, rfl, rfl⟩
  exact ⟨Sends.sameState sends,
    (zeroed.congr (sameAddress_of_toMnNet reopened.rest.1)).congr (Sends.sameAddress sends)⟩

theorem Renews.sameAddress (renews : Renews d net now out) :
    out.1.state = d.state ∧ SameAddress net out.2 := by
  obtain ⟨_, net', sent, reopened, sends, rfl⟩ := renews
  have state := Sends.sameState sends
  have address := Sends.sameAddress sends
  exact ⟨state, (sameAddress_of_toMnNet reopened.rest.1).trans address⟩

theorem granted_state (d : Dhcp.MnDhcp) (now : UInt16) : (Dhcp.granted d now).state = d.state := by
  unfold Dhcp.granted
  dsimp only
  split <;> rfl

/-- What a poll makes of the state and the address, with the message received
where that decides it. -/
inductive Course (d : Dhcp.MnDhcp) (net : MnNetFull) (x : XMem) : Dhcp.State → MnNetFull → Prop where
  | stays {after : MnNetFull} (same : SameAddress net after) : Course d net x d.state after
  | requests {after : MnNetFull} (on : d.state = .selecting)
      (same : SameAddress net after) (m : List UInt8)
      (got : received d net x = some m) (offer : Answers d net.nif.mac m Dhcp.MSG_OFFER) :
      Course d net x .requesting after
  | binds {after : MnNetFull} (on : d.state = .requesting) (m : List UInt8)
      (got : received d net x = some m)
      (ack : Answers d net.nif.mac m Dhcp.MSG_ACK) (configured : after.ip = Dhcp.yiaddr m) :
        Course d net x .bound after
  | refused {after : MnNetFull} (on : d.state = .requesting) (same : SameAddress net after) :
      Course d net x .selecting after
  | fails {after : MnNetFull} (on : d.state = .selecting ∨ d.state = .requesting)
      (same : SameAddress net after) :
      Course d net x .failed after
  | loses {after : MnNetFull} (on : d.state = .bound) (un : Unconfigured after) :
      Course d net x .selecting after

private theorem acquires_course (on : d.state = .selecting ∨ d.state = .requesting)
    (hears : Hears d net x msg d' net')
    (acquires : Acquires msg d' net' now out) : Course d net x out.1.state out.2 := by
  have read := hears.reread.state
  have same := Hears.sameAddress hears
  cases acquires with
  | offer m got here sends =>
    subst got
    obtain ⟨got, offer⟩ := hears.answers (by decide)
    rw [Sends.sameState sends]
    exact .requests (read ▸ here) (same.trans (Sends.sameAddress sends)) m got offer
  | ack m got here =>
    subst got
    obtain ⟨got, ack⟩ := hears.answers (by decide)
    rw [granted_state]
    exact .binds (read ▸ here) m got ack (close_sameAddress _ _).ip
  | nak _ _ here sends =>
    rw [Sends.sameState sends]
    exact .refused (read ▸ here) (same.trans (Sends.sameAddress sends))
  | fails => exact .fails on (same.trans (close_sameAddress _ _))
  | asks _ sends =>
    rw [Sends.sameState sends, read]
    exact .stays (same.trans (Sends.sameAddress sends))
  | waits =>
    rw [read]
    exact .stays same

private theorem keeps_course (on : d.state = .bound)
    (hears : Hears (Dhcp.clockTick d now) net x msg d' net')
    (keeps : Keeps msg d' net' now out) : Course d net x out.1.state out.2 := by
  have read := hears.reread.state.trans (clockTick_aged d now).state
  have same := Hears.sameAddress hears
  cases keeps with
  | ack =>
    rw [granted_state]
    dsimp only
    rw [read]
    exact .stays (same.trans (close_sameAddress _ _))
  | nak _ _ loses | expires _ _ loses =>
    rw [(Loses.unconfigured loses).1]
    exact .loses on (Loses.unconfigured loses).2
  | renews _ _ _ renews =>
    rw [(Renews.sameAddress renews).1, read]
    exact .stays (same.trans (Renews.sameAddress renews).2)
  | resends _ _ _ _ sends =>
    rw [Sends.sameState sends, read]
    exact .stays (same.trans (Sends.sameAddress sends))
  | waits =>
    rw [read]
    exact .stays same

theorem poll_course (d : Dhcp.MnDhcp) (net : MnNetFull) (x : XMem) (now : UInt16) :
    Course d net x (Dhcp.mnDhcpPoll d net x now).1.state (Dhcp.mnDhcpPoll d net x now).2 := by
  have polls := poll_polls d net x now
  generalize Dhcp.mnDhcpPoll d net x now = out at polls
  cases polls with
  | rests => exact .stays (.refl net)
  | acquires on hears acquires => exact acquires_course on hears acquires
  | forever =>
    rw [(clockTick_aged d now).state]
    exact .stays (.refl net)
  | keeps on _ hears keeps => exact keeps_course on hears keeps

theorem start_unconfigured (d : Dhcp.MnDhcp) (net : MnNetFull) (now : UInt16) :
    (Dhcp.mnDhcpStart d net now).1.state = .selecting ∧ Unconfigured (Dhcp.mnDhcpStart d net now).2 := by
  obtain ⟨sock, net', opening, sends⟩ := start_sends d net now
  have zero : Unconfigured (mnNetSetIp net zeroIp zeroIp zeroIp) := ⟨rfl, rfl, rfl⟩
  have zeroed : Unconfigured (givenBack d.sock (mnNetSetIp net zeroIp zeroIp zeroIp)) :=
    zero.congr (sameAddress_of_toMnNet (givenBack_toMnNet ..))
  refine ⟨Sends.sameState sends, Unconfigured.congr ?_ (Sends.sameAddress sends)⟩
  generalize same : (sock, net') = out at opening
  cases opening with
  | opens i =>
    cases same
    exact zeroed.congr (sameAddress_of_toMnNet (setSock_toMnNet ..))
  | refused =>
    cases same
    exact zeroed

/-! ## Runs -/

/-- The client on its layer, and the address in the ACK that bound it last. -/
structure Host where
  d : Dhcp.MnDhcp
  net : MnNetFull
  acked : Ip4

/-- The address acknowledged last, after one more call. -/
def ackedAfter (h : Host) : Act → Ip4
  | .polls x now =>
    if h.d.state ≠ .bound ∧ (Dhcp.mnDhcpPoll h.d h.net x now).1.state = .bound then
      ((received h.d h.net x).map Dhcp.yiaddr).getD h.acked
    else h.acked
  | .starts _ | .meanwhile _ => h.acked

def Host.exec (h : Host) (act : Act) : Host :=
  { d := (DhcpOutcomes.exec h.d h.net act).1, net := (DhcpOutcomes.exec h.d h.net act).2,
    acked := ackedAfter h act }

/-- A client before its first start, on any layer. -/
def Begun (h : Host) : Prop := h.d.state = .idle ∧ h.d.sock = 0xff

/-- A call, or a change of the layer that leaves its address alone. -/
def Step (h h' : Host) : Prop :=
  ∃ act, (∀ after, act = .meanwhile after → SameAddress h.net after) ∧ h' = h.exec act

def Run : Host → Prop := Reachable Begun Step

/-- The address is that of the last ACK while bound, and none while acquiring. -/
structure InStep (h : Host) : Prop where
  acquiring : h.d.state = .selecting ∨ h.d.state = .requesting ∨ h.d.state = .failed → h.net.ip = zeroIp
  bound : h.d.state = .bound → h.net.ip = h.acked

private theorem begun_inStep {h : Host} (begun : Begun h) : InStep h := by
  constructor <;> rw [begun.1]
  · rintro (off | off | off) <;> cases off
  · intro off
    cases off

private theorem poll_inStep {h : Host} (inStep : InStep h) (x : XMem) (now : UInt16) : InStep
    (h.exec (.polls x now)) := by
  have course := poll_course h.d h.net x now
  unfold Host.exec ackedAfter DhcpOutcomes.exec
  dsimp only
  generalize Dhcp.mnDhcpPoll h.d h.net x now = out at course
  obtain ⟨d', after⟩ := out
  generalize reached : d'.state = state at course
  dsimp only at reached course ⊢
  cases course with
  | stays same =>
    constructor <;> dsimp only <;> rw [reached]
    · exact fun acquiring => same.ip.trans (inStep.acquiring acquiring)
    · intro bound
      rw [if_neg (fun both => both.1 bound)]
      exact same.ip.trans (inStep.bound bound)
  | requests on same | refused on same =>
    constructor <;> dsimp only <;> rw [reached]
    · exact fun _ => same.ip.trans (inStep.acquiring (by simp [on]))
    · intro bound
      cases bound
  | binds on m got ack configured =>
    constructor <;> dsimp only <;> rw [reached]
    · rintro (off | off | off) <;> cases off
    · rw [if_pos ⟨by rw [on]; decide, rfl⟩, got]
      exact fun _ => configured
  | fails on same =>
    constructor <;> dsimp only <;> rw [reached]
    · exact fun _ => same.ip.trans (inStep.acquiring (on.imp_right Or.inl))
    · intro bound
      cases bound
  | loses on un =>
    constructor <;> dsimp only <;> rw [reached]
    · exact fun _ => un.ip
    · intro bound
      cases bound

private theorem exec_inStep {h : Host} (inStep : InStep h) (act : Act)
    (kept : ∀ after, act = .meanwhile after → SameAddress h.net after) : InStep (h.exec act) := by
  cases act with
  | starts now =>
    obtain ⟨state, un⟩ := start_unconfigured h.d h.net now
    unfold Host.exec DhcpOutcomes.exec
    constructor <;> dsimp only <;> rw [state]
    · exact fun _ => un.ip
    · intro bound
      cases bound
  | polls x now => exact poll_inStep inStep x now
  | meanwhile after =>
    have same := kept after rfl
    exact ⟨fun acquiring => same.ip.trans (inStep.acquiring acquiring),
      fun bound => same.ip.trans (inStep.bound bound)⟩

theorem Run.inStep {h : Host} (run : Run h) : InStep h := by
  refine Reachable.invariant (motive := InStep) (fun _ => begun_inStep) ?_ run
  rintro h _ _ inStep ⟨act, kept, rfl⟩
  exact exec_inStep inStep act kept

/-! ## The address is configured exactly while bound -/

/-- What a poll changes of the state it changes for the right message, or
drops the address. -/
structure Guarded (d : Dhcp.MnDhcp) (net : MnNetFull) (x : XMem)
    (out : Dhcp.MnDhcp × MnNetFull) : Prop where
  binds : out.1.state = .bound → d.state ≠ .bound → d.state = .requesting ∧
    ∃ m, received d net x = some m ∧ Answers d net.nif.mac m Dhcp.MSG_ACK ∧ out.2.ip = Dhcp.yiaddr m
  requests : out.1.state = .requesting → d.state ≠ .requesting → d.state = .selecting ∧
    ∃ m, received d net x = some m ∧ Answers d net.nif.mac m Dhcp.MSG_OFFER
  leaves : d.state = .bound → out.1.state ≠ .bound → Unconfigured out.2

theorem poll_guarded (d : Dhcp.MnDhcp) (net : MnNetFull) (x : XMem) (now : UInt16) :
    Guarded d net x (Dhcp.mnDhcpPoll d net x now) := by
  have course := poll_course d net x now
  generalize Dhcp.mnDhcpPoll d net x now = out at course
  obtain ⟨d', after⟩ := out
  generalize reached : d'.state = state at course
  dsimp only at reached course
  cases course with
  | stays =>
    constructor
    · exact fun bound off => absurd (reached.symm.trans bound) off
    · exact fun requesting off => absurd (reached.symm.trans requesting) off
    · exact fun bound off => absurd (reached.trans bound) off
  | requests on _ m got offer =>
    constructor <;> dsimp only <;> rw [reached, on]
    · intro off
      cases off
    · exact fun _ _ => ⟨rfl, m, got, offer⟩
    · intro off
      cases off
  | binds on m got ack configured =>
    constructor <;> dsimp only <;> rw [reached, on]
    · exact fun _ _ => ⟨rfl, m, got, ack, configured⟩
    · intro off
      cases off
    · intro off
      cases off
  | refused on =>
    constructor <;> dsimp only <;> rw [reached, on] <;> intro off <;> cases off
  | fails on =>
    constructor <;> dsimp only <;> rw [reached]
    · intro off
      cases off
    · intro off
      cases off
    · intro bound
      rw [bound] at on
      exact on.elim (fun off => by cases off) fun off => by cases off
  | loses on un =>
    constructor <;> dsimp only <;> rw [reached]
    · intro off
      cases off
    · intro off
      cases off
    · exact fun _ _ => un

/-- In every run: while an address is acquired, and after failing, none is
configured; while bound it is that of the ACK that bound it; a poll changes the
state only on a matching message, and leaves `BOUND` without an address; and so
does a restart, which goes back to selecting. -/
theorem configured_while_bound {h : Host} (run : Run h) :
    InStep h ∧ (∀ x now, Guarded h.d h.net x (Dhcp.mnDhcpPoll h.d h.net x now)) ∧
      ∀ now, (Dhcp.mnDhcpStart h.d h.net now).1.state = .selecting ∧
        Unconfigured (Dhcp.mnDhcpStart h.d h.net now).2 :=
  ⟨Run.inStep run, fun _ _ => poll_guarded .., fun _ => start_unconfigured ..⟩

/-- A datagram comes in for the client, and is there for its next poll. -/
def Host.mailed (h : Host) (m : List UInt8) (now : UInt16) : Host :=
  (h.exec (.meanwhile (withMail h.net m))).exec (.polls (mailIn m) now)

theorem Run.mailed {h : Host} (run : Run h) (m : List UInt8) (now : UInt16) : Run (h.mailed m now) := by
  refine .next (.next run ⟨.meanwhile _, ?_, rfl⟩)
    ⟨.polls _ _, fun _ other => (Act.noConfusion other : False).elim, rfl⟩
  rintro _ ⟨⟩
  exact ⟨rfl, rfl, rfl⟩

/-- A host whose client was started, offered an address, and given it. -/
def boundHost : Host :=
  (((⟨freshDhcp, layerOver goodNet, zeroIp⟩ : Host).exec (.starts 0)).mailed offerFor 1).mailed
    (reply Dhcp.MSG_ACK ours neighbour 120) 2

theorem boundHost_run : Run boundHost :=
  .mailed (.mailed (.next (.start ⟨rfl, rfl⟩)
    ⟨.starts 0, fun _ other => (Act.noConfusion other : False).elim, rfl⟩) _ _) _ _

/-- It has the address, until it is started again. -/
theorem configured_while_bound_acked :
    boundHost.d.state = .bound ∧ boundHost.net.ip = ours ∧
      Unconfigured (Dhcp.mnDhcpStart boundHost.d boundHost.net 3).2 := by
  obtain ⟨inStep, _, restarts⟩ := configured_while_bound boundHost_run
  have acked : boundHost.d.state = .bound ∧ boundHost.acked = ours := by decide +kernel
  exact ⟨acked.1, (inStep.bound acked.1).trans acked.2, (restarts 3).2⟩

end MegaNet.DhcpAddress
