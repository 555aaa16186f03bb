import MegaNet.ClientCalls
import MegaNet.Transmissions

/-! The MTU over runs of the stack with its clients: 1500 bytes of IPv4 in a
frame that carries no check sequence. `MN_MAX_FRAME` counts one. -/
namespace MegaNet.FrameSizes
open MegaNet.Core Transition TcpEmission TcpConnection UdpOutcomes UdpSockets UdpBorrowing ClientCalls
  Transmissions WireFormats

variable {st : Stack} {h : Host} {mac : Mac} {ip : Ip4} {room : Nat}

/-- A packet of the host's own, not the echo of somebody's. -/
def Initiated : Frame → Prop
  | .tcp .. | .udp .. => True
  | .arpRequest .. | .arpReply .. | .echoReply .. => False

def WithinMtu (frame : Frame) : Prop :=
  (mnIpv4TotalLen (frame.bytes.drop 14)).toNat ≤ 1500 ∧ frame.bytes.length ≤ 1514

/-- What the stack sends of its own accord stays within the MTU. -/
def Fits (frame : Frame) : Prop := Initiated frame → WithinMtu frame

/-- `mn_net_send_udp` is called with a payload it accepts, of more than 1472
bytes, and knows where to send it. -/
def Oversends (net : MnNetFull) : Act → Prop
  | .sends dst _ _ payload =>
    1472 < payload.length ∧ payload.length ≤ MN_UDP_MAX_PAYLOAD ∧ net.toMnNet.Resolves dst
  | _ => False

/-! ## Sizes -/

private theorem udp_within {dstMac srcMac : Mac} {src dst : Ip4} {id sport dport : UInt16}
    {payload : List UInt8}
    (fits : payload.length ≤ MN_UDP_MAX_PAYLOAD) :
    WithinMtu (.udp dstMac srcMac src dst id sport dport payload) ↔ payload.length ≤ 1472 := by
  have size : (mnUdpBuild src dst sport dport payload).length = 8 + payload.length := udpBuild_length
  rw [MN_UDP_MAX_PAYLOAD] at fits
  rw [WithinMtu, Frame.bytes, frame_totalLen (by omega), frame_length, size]
  omega

/-- A frame of the host's with a short enough datagram, if it has one. -/
theorem spoken_fits {frame : Frame} (spoken : Spoken mac ip Short room frame)
    (less : room ≤ 1472) : Fits frame := by
  intro initiated
  cases spoken with
  | arpRequest | arpReply | echoReply => exact initiated.elim
  | tcp dstMac dst id seg short =>
    have size := short.size
    have length : (tcpBuild ip dst seg).length = 20 + seg.opts.length + seg.data.length :=
      tcpBuild_length
    rw [WithinMtu, Frame.bytes, frame_totalLen (by omega), frame_length, length]
    omega
  | udp dstMac dst id sport dport payload inside =>
    exact (udp_within (inside.trans (less.trans (by decide)))).mpr (inside.trans less)

/-- An act that does not oversend. -/
theorem act_fits (order : Orderly st) (act : Act) (fine : ¬ Oversends st.net act) :
    Hands Fits st.net.toMnNet (exec st act).net.toMnNet := by
  have other : (∀ dst sport dport payload, act ≠ .sends dst sport dport payload) →
      Hands Fits st.net.toMnNet (exec st act).net.toMnNet := by
    intro elsewhere
    have spoken : Hands (Spoken st.net.nif.mac st.net.ip Short 0) st.net.toMnNet
        (exec st act).net.toMnNet :=
      act_spoken order act fun dst sport dport payload same => absurd same
        (elsewhere dst sport dport payload)
    exact spoken.mono fun _ ours => spoken_fits ours (Nat.zero_le _)
  cases act with
  | sends dst sport dport payload =>
    have posting := sendUdp_posting st.net dst sport dport payload
    show Hands Fits st.net.toMnNet (mnNetSendUdp st.net dst sport dport payload).2.toMnNet
    generalize (mnNetSendUdp st.net dst sport dport payload).2 = after at posting
    cases posting with
    | tooLong _ same =>
      rw [same]
      exact Hands.nothing _
    | asked _ _ _ _ handed => exact Hands.one handed fun initiated => initiated.elim
    | sent fits known mac _ _ _ handed =>
      refine Hands.one handed fun _ => (udp_within fits).mpr (not_lt.mp fun long => ?_)
      exact fine ⟨long, fits, known⟩
  | poll | opens | closes | receives | configures | tcp => exact other (by simp)

/-- And one that does. -/
theorem oversends_unfit {act : Act} (bad : Oversends st.net act) :
    ∃ entry ∈ handedSince st.net.toMnNet (exec st act).net.toMnNet, ¬ Fits entry.1 := by
  cases act with
  | sends dst sport dport payload =>
    obtain ⟨long, fits, known⟩ := bad
    have posting := sendUdp_posting st.net dst sport dport payload
    show ∃ entry ∈ handedSince st.net.toMnNet (mnNetSendUdp st.net dst sport dport payload).2.toMnNet,
      ¬ Fits entry.1
    generalize (mnNetSendUdp st.net dst sport dport payload).2 = after at posting
    cases posting with
    | tooLong tooLong => exact absurd fits (by omega)
    | asked _ unknown => exact absurd known unknown
    | sent _ _ mac _ queued _ handed =>
      rw [handed_since handed]
      refine ⟨_, List.mem_singleton.mpr rfl, fun fine => ?_⟩
      have short := (udp_within fits).mp (fine trivial)
      omega
  | poll | opens | closes | receives | configures | tcp => exact bad.elim

/-! ## The clients' calls -/

/-- What a client asks for never oversends. -/
theorem asks_fine {net : MnNetFull} {act : Act} (asks : Asks act) : ¬ Oversends net act := by
  rintro bad
  cases act with
  | sends dst sport dport payload =>
    have short : payload.length ≤ 300 := asks
    have long := bad.1
    omega
  | poll | opens | closes | receives | configures | tcp => exact bad

private theorem uses_fits {net after : MnNetFull} {tcp : Option MnTcpSet} {x : XMem}
    (life : Life ⟨net, tcp, x⟩)
    (uses : Uses net after) : Hands Fits net.toMnNet after.toMnNet := by
  have start : Life ⟨net, tcp, x⟩ ∧ Hands Fits net.toMnNet net.toMnNet := ⟨life, Hands.nothing _⟩
  refine (uses.reached (motive := fun st => Life st ∧ Hands Fits net.toMnNet st.net.toMnNet) start ?_).2
  rintro st act asks ⟨life, fits⟩
  exact ⟨.next life ⟨act, rfl⟩, fits.trans (act_fits life.orderly act (asks_fine asks))⟩

/-- The act of the host's that oversends, if it is one. -/
def Oversize (h : Host) : Does → Prop
  | .acts act => Oversends h.net act
  | .calls _ => False

private theorem oversize_unfit {does : Does} (bad : Oversize h does) :
    ¬ ∀ entry ∈ handedSince h.net.toMnNet (h.exec does).net.toMnNet, Initiated entry.1 →
      WithinMtu entry.1 := by
  intro fits
  cases does with
  | acts act =>
    obtain ⟨entry, member, unfit⟩ := @oversends_unfit h.st act bad
    exact unfit (fits entry member)
  | calls => exact bad

/-- In every run of the stack and its clients, whatever comes next, what is sent
on the host's own initiative stays within the MTU, exactly unless a datagram of
1473 to 1476 bytes is sent. -/
theorem within_mtu_iff (hosted : Hosted h) (does : Does) :
    (∀ entry ∈ handedSince h.net.toMnNet (h.exec does).net.toMnNet, Initiated entry.1 →
      WithinMtu entry.1) ↔
      ¬ Oversize h does := by
  obtain ⟨life, named⟩ := hosted.parts
  refine ⟨fun fits bad => oversize_unfit bad fits, fun fine => ?_⟩
  cases does with
  | acts act => exact (act_fits life.orderly act fine).since
  | calls call => exact (uses_fits life (call_uses named (fromPool h.x call))).since

/-- The stack and its clients before anything happens. -/
def freshHost : Host := { freshClients with net := freshStack.net, tcp := none, x := fun _ => 0 }

private theorem freshHost_hosted : Hosted freshHost := by
  refine .start ⟨freshStack_begun, ⟨rfl, rfl, rfl⟩, fun who => ?_⟩
  cases who <;> rfl

theorem within_mtu_iff_starting :
    (∀ entry ∈ handedSince freshHost.net.toMnNet (freshHost.exec (.calls (.start 0))).net.toMnNet,
      Initiated entry.1 → WithinMtu entry.1) ↔ ¬ Oversize freshHost (.calls (.start 0)) :=
  within_mtu_iff freshHost_hosted (.calls (.start 0))

/-- A datagram of 1473 bytes, to everyone. -/
def oversend : Act := .sends limitedBcast 1000 2000 (List.replicate 1473 0)

private theorem oversend_oversends : Oversends freshHost.net oversend :=
  ⟨by decide +kernel, by decide +kernel, Or.inl (by decide)⟩

/-- It goes out, in a packet of 1501 bytes. -/
theorem datagram_over_mtu :
    Hosted freshHost ∧
      (handedSince freshHost.net.toMnNet (freshHost.exec (.acts oversend)).net.toMnNet).map
        (fun entry => ((mnIpv4TotalLen (entry.1.bytes.drop 14)).toNat, entry.1.bytes.length)) =
          [(1501, 1515)] ∧
      ¬ ∀ entry ∈ handedSince freshHost.net.toMnNet (freshHost.exec (.acts oversend)).net.toMnNet,
        Initiated entry.1 → WithinMtu entry.1 := by
  have bad : Oversize freshHost (.acts oversend) := oversend_oversends
  exact ⟨freshHost_hosted, by decide +kernel, oversize_unfit bad⟩

end MegaNet.FrameSizes
