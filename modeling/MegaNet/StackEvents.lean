import MegaNet.PoolLayout
import MegaNet.SegmentCodec
import MegaNet.TcpEndToEnd

/-! The acts of a stack as its sockets see them: a call, a tick, or a segment that
a frame brings is an event of theirs, and everything else passes them by. A host
of its own, going through these events, keeps up with the stack. -/
namespace MegaNet.StackEvents
open MegaNet.Core Words TcpEmission TcpConnection TcpSetRuns TcpIsolation TcpEndToEnd UdpOutcomes
  UdpSockets WireFormats
  Transmissions TcpUnicast SegmentCodec PoolContents PoolLayout

variable {st : Stack} {act : Act} {event : Event} {w : World} {e : Endpoint}
  {set : MnTcpSet} {f : RxFrame}

/-- Where the rings are, `$50000-$5DFFF`. -/
def ringArea : Set Nat := Set.Ico 0x50000 0x5e000

/-- The act is an event of the sockets. -/
inductive Does (st : Stack) : Act → Event → Prop where
  | calls (event : Event) : Does st (.tcp event) event
  | hears (f : RxFrame) (reaches : Reaches st.net f) :
      Does st (.poll (some f)) (.input (mnIpv4Src (f.bytes.drop 14)) (segmentIn f))

/-- The act leaves the sockets and their rings alone, and sends no segment. -/
structure Passes (st st' : Stack) : Prop where
  tcp : st'.tcp = st.tcp
  pool : Set.EqOn st'.x st.x ringArea
  silent : segmentsHanded st.net.toMnNet st'.net.toMnNet = []

theorem Layout.inRings (layout : Layout st) (order : Orderly st)
    (attached : st.tcp = some set) {t : MnTcp}
    (member : t ∈ set.sock) : rcvRing t ⊆ ringArea ∧ sndRing t ⊆ ringArea := by
  obtain ⟨placed, low, high⟩ := layout.rings order attached member
  constructor <;> intro a inside
  · rw [(mem_rings placed a).1] at inside
    exact Set.mem_Ico.mpr ⟨by omega, by omega⟩
  · rw [(mem_rings placed a).2] at inside
    exact Set.mem_Ico.mpr ⟨by omega, by omega⟩

/-! ## What passes the sockets by -/

/-- A mailbox lies past the rings. -/
theorem delivery_pool (layout : Layout st) (ip : List UInt8) :
    Set.EqOn (deliverUdp (counted st.net) st.x ip).2 st.x ringArea := by
  have delivery := deliverUdp_delivery (counted st.net) st.x ip
  generalize deliverUdp (counted st.net) st.x ip = out at delivery
  cases delivery with
  | invalid | dropped => exact fun _ _ => rfl
  | mailed i =>
    intro a inside
    refine if_neg fun within => ?_
    have start := layout.udp i
    rw [mailbox] at start
    have before := (Set.mem_Ico.mp inside).2
    have past : xaddr (st.net.sock i).xseg (st.net.sock i).xoff ≤ a := within.1
    omega

private theorem ipInput_passes (layout : Layout st)
    (ours : ¬ f.len < 14 ∧ mnEtherIsForUs f.bytes st.net.nif.mac = true)
    (type : mnEtherType f.bytes = MN_ETHERTYPE_IPV4) (astray : ¬ Reaches st.net f) :
    ({ st with net := counted st.net }.ipInput f.bytes f.len).tcp = st.tcp ∧
      Set.EqOn ({ st with net := counted st.net }.ipInput f.bytes f.len).x st.x ringArea := by
  unfold Stack.ipInput
  dsimp only
  split
  · exact ⟨rfl, fun _ _ => rfl⟩
  rename_i passes
  simp only [Bool.or_eq_true, decide_eq_true_eq, Bool.not_eq_true', not_or, Bool.not_eq_false] at passes
  split
  · split <;> exact ⟨rfl, fun _ _ => rfl⟩
  split
  · exact ⟨rfl, delivery_pool layout _⟩
  split
  · rename_i proto
    have refused : ¬ tcpAccepts (f.bytes.drop 14) = true := fun accepted =>
      astray ⟨ours, type, passes.1, passes.2, proto, accepted⟩
    unfold Stack.tcpInput
    cases st.tcp with
    | none => exact ⟨rfl, fun _ _ => rfl⟩
    | some set =>
      dsimp only
      rw [if_neg refused]
      exact ⟨rfl, fun _ _ => rfl⟩
  · exact ⟨rfl, fun _ _ => rfl⟩

/-- A frame that does not get as far as the sockets. -/
theorem poll_passes (layout : Layout st) (astray : ¬ Reaches st.net f) : Passes st
    (mnNetPoll st (some f)) := by
  have silent : segmentsHanded st.net.toMnNet (mnNetPoll st (some f)).net.toMnNet = [] := by
    by_contra speaks
    obtain ⟨_, _, reaches, _⟩ := (poll_acts_iff st f).mp (Or.inr speaks)
    exact astray reaches
  have still : (mnNetPoll st (some f)).tcp = st.tcp ∧
      Set.EqOn (mnNetPoll st (some f)).x st.x ringArea := by
    unfold mnNetPoll
    dsimp only
    split
    · exact ⟨rfl, fun _ _ => rfl⟩
    rename_i ours
    simp only [Bool.or_eq_true, decide_eq_true_eq, Bool.not_eq_true', not_or, Bool.not_eq_false] at ours
    split
    · exact ⟨rfl, fun _ _ => rfl⟩
    split
    · exact ipInput_passes layout ours ‹_› astray
    · exact ⟨rfl, fun _ _ => rfl⟩
  exact ⟨still.1, still.2, silent⟩

private theorem sendUdp_silent (net : MnNetFull) (dst : Ip4) (sport dport : UInt16)
    (payload : List UInt8) :
    segmentsHanded net.toMnNet (mnNetSendUdp net dst sport dport payload).2.toMnNet = [] := by
  have posting := sendUdp_posting net dst sport dport payload
  generalize (mnNetSendUdp net dst sport dport payload).2 = after at posting
  cases posting with
  | tooLong _ same => rw [same]; exact handed_nothing _
  | asked _ _ _ _ handed => simp [segmentsHanded, handed_since handed, segmentOf]
  | sent _ _ _ _ _ _ handed => simp [segmentsHanded, handed_since handed, segmentOf]

/-- Every act is an event of the sockets or passes them by. -/
theorem act_cases (layout : Layout st) (act : Act) : (∃ event, Does st act event) ∨
    Passes st (exec st act) := by
  have quiet {net : MnNetFull} (same : net.toMnNet = st.net.toMnNet) : Passes st { st with net } := by
    refine ⟨rfl, fun _ _ => rfl, ?_⟩
    show segmentsHanded st.net.toMnNet net.toMnNet = []
    rw [same]
    exact handed_nothing _
  cases act with
  | tcp event => exact Or.inl ⟨event, .calls event⟩
  | poll frame =>
    cases frame with
    | none => exact Or.inr (quiet rfl)
    | some f =>
      by_cases reaches : Reaches st.net f
      · exact Or.inl ⟨_, .hears f reaches⟩
      · exact Or.inr (poll_passes layout reaches)
  | opens port => exact Or.inr (quiet (open_toMnNet st.net port))
  | closes s => exact Or.inr (quiet (close_toMnNet st.net s))
  | receives s cap => exact Or.inr (quiet (recv_toMnNet st.net st.x s cap))
  | sends dst sport dport payload => exact Or.inr ⟨rfl, fun _ _ => rfl, sendUdp_silent ..⟩
  | configures => exact Or.inr ⟨rfl, fun _ _ => rfl, handed_nothing st.net.toMnNet⟩

/-! ## A host that keeps up -/

/-- A world of its own with the sockets of the stack, their rings holding the same. -/
structure Mirrors (w : World) (st : Stack) : Prop where
  set : st.tcp = some w.set
  pool : Set.EqOn st.x w.x ringArea

/-- What an event does to the one it does to the other. -/
theorem Mirrors.does (mirrors : Mirrors w st) (layout : Layout st) (order : Orderly st)
    (does : Does st act event) :
    Mirrors (w.exec st.net.toMnNet event).1 (exec st act) ∧
      (exec st act).net.toMnNet = (w.exec st.net.toMnNet event).2 := by
  have event_ {st : Stack} (mirrors : Mirrors w st) (layout : Layout st) (order : Orderly st) :
      Mirrors (w.exec st.net.toMnNet event).1 (tcpAct st event) ∧
        (tcpAct st event).net.toMnNet = (w.exec st.net.toMnNet event).2 := by
    obtain ⟨set, x⟩ := w
    have attached : st.tcp = some set := mirrors.set
    obtain ⟨same, layer, pools⟩ := exec_level (order.tcp set attached).1
      (fun t member => (Layout.inRings layout order attached member).2) mirrors.pool st.net.toMnNet event
    unfold tcpAct
    rw [attached]
    exact ⟨⟨congrArg some same, pools⟩, layer⟩
  cases does with
  | calls => exact event_ mirrors layout order
  | hears f reaches =>
    have step := @event_ { st with net := counted st.net } ⟨mirrors.set, mirrors.pool⟩
      ⟨layout.tcp, layout.udp⟩
      (order.sameSock rfl)
    rw [← poll_reached reaches] at step
    exact step

theorem Mirrors.passes {st' : Stack} (mirrors : Mirrors w st) (passes : Passes st st') : Mirrors w st' :=
  ⟨passes.tcp.trans mirrors.set, passes.pool.trans mirrors.pool⟩

/-- What the link took of the frames it was handed. -/
theorem handed_grows (order : Orderly st) (act : Act) :
    (exec st act).net.nif.handed = st.net.nif.handed ++ handedSince st.net.toMnNet
      (exec st act).net.toMnNet ∧
      ∀ src seg, (src, seg) ∈ taken st.net.toMnNet (exec st act).net.toMnNet → Short seg := by
  have spoken := act_speaks order act
  constructor
  · obtain ⟨frames, handed, _⟩ := spoken
    rw [handed_since handed]
    exact handed
  · intro src seg member
    obtain ⟨⟨frame, queued⟩, there, took⟩ := List.mem_filterMap.mp member
    have ours := spoken.since _ there
    revert took
    cases ours with
    | tcp _ _ _ seg' short =>
      cases queued with
      | false => exact nofun
      | true =>
        intro same
        cases same
        exact short
    | arpRequest | arpReply | udp | echoReply => exact nofun

/-- A host keeps up with the stack: its sockets are the stack's, and its link has
taken what the stack's has. -/
structure Follows (e : Endpoint) (st : Stack) : Prop where
  world : Mirrors e.world st
  wire : e.wire = st.net.nif.handed.filterMap tookSegment
  short : ∀ src seg, (src, seg) ∈ e.wire → Short seg

theorem Follows.does (follows : Follows e st) (layout : Layout st) (order : Orderly st)
    (does : Does st act event) :
    Follows (e.exec st.net.toMnNet event) (exec st act) := by
  obtain ⟨world, net⟩ := follows.world.does layout order does
  obtain ⟨grown, short⟩ := handed_grows order act
  refine ⟨world, ?_, fun src seg member => ?_⟩
  · rw [grown, List.filterMap_append, ← follows.wire, net]
    rfl
  · rcases List.mem_append.mp member with old | new
    · exact follows.short src seg old
    · exact short src seg (by rw [net]; exact new)

private theorem silent_taken {before after : MnNet} (silent : segmentsHanded before after = []) :
    taken before after = [] := by
  refine List.filterMap_eq_nil_iff.mpr fun entry member => ?_
  have none_ := List.filterMap_eq_nil_iff.mp silent entry member
  revert none_
  obtain ⟨frame, queued⟩ := entry
  cases frame with
  | tcp => exact nofun
  | _ => exact fun _ => rfl

theorem Follows.passes (follows : Follows e st) (order : Orderly st) (passes : Passes st (exec st act)) :
    Follows e (exec st act) := by
  refine ⟨follows.world.passes passes, ?_, follows.short⟩
  have none_ : (handedSince st.net.toMnNet (exec st act).net.toMnNet).filterMap tookSegment = [] :=
    silent_taken passes.silent
  rw [(handed_grows order act).1, List.filterMap_append, none_, List.append_nil, follows.wire]

/-- Bytes copied elsewhere do not matter. -/
theorem Follows.copies {x : XMem} (follows : Follows e st) (away : Set.EqOn x st.x ringArea) :
    Follows e { st with x } :=
  ⟨⟨follows.world.set, away.trans follows.world.pool⟩, follows.wire, follows.short⟩

end MegaNet.StackEvents
