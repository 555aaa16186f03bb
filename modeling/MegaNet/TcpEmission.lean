import MegaNet.Core.TcpSocket

/-! What building and sending one segment does: which frame reaches the link,
what the result says about it, and the little it changes in the socket. -/
namespace MegaNet.TcpEmission
open MegaNet.Core

/-- Two states of a net that route alike: transmitting changes only counters
and the link's record. -/
structure SameRoutes (before after : MnNet) : Prop where
  mac : after.nif.mac = before.nif.mac
  accepts : after.nif.accepts = before.nif.accepts
  ip : after.ip = before.ip
  mask : after.mask = before.mask
  gw : after.gw = before.gw
  arp : after.arp = before.arp

theorem SameRoutes.refl (net : MnNet) : SameRoutes net net := ⟨rfl, rfl, rfl, rfl, rfl, rfl⟩

theorem SameRoutes.trans (first : SameRoutes before middle) (second : SameRoutes middle after) :
    SameRoutes before after :=
  ⟨second.mac.trans first.mac, second.accepts.trans first.accepts, second.ip.trans first.ip,
    second.mask.trans first.mask, second.gw.trans first.gw, second.arp.trans first.arp⟩

theorem same_routes_resolves (same : SameRoutes before after) (dst : Ip4) :
    after.Resolves dst ↔ before.Resolves dst := by
  have broadcast : ∀ ip, isBroadcast after ip = isBroadcast before ip := by
    intro ip
    simp [isBroadcast, same.mask]
  have hop : mnNetNextHop after dst = mnNetNextHop before dst := by
    unfold mnNetNextHop
    rw [broadcast, same.mask, same.ip, same.gw]
  simp [MnNet.Resolves, broadcast, hop, same.arp]

theorem same_routes_accepts (same : SameRoutes before after) : after.Accepts ↔ before.Accepts := by
  simp [MnNet.Accepts, same.accepts]

/-- The link was handed exactly `frames` between two states of a net. -/
def Handed (before after : MnNet) (frames : List (Frame × Bool)) : Prop :=
  after.nif.handed = before.nif.handed ++ frames

theorem Handed.refl (net : MnNet) : Handed net net [] := by simp [Handed]

theorem Handed.trans (first : Handed before middle front) (second : Handed middle after back) :
    Handed before after (front ++ back) := by
  simp [Handed] at *
  simp [second, first]

theorem Handed.unique (first : Handed before after front) (second : Handed before after back) :
    front = back :=
  List.append_cancel_left (first.symm.trans second)

theorem handed_since (handed : Handed before after frames) : handedSince before after = frames := by
  simp only [Handed] at handed
  simp [handedSince, handed]

/-- The segment a frame carries, if it carries one. -/
def segmentOf : Frame → Option TcpSeg
  | .tcp _ _ _ _ _ seg => some seg
  | .arpRequest .. | .arpReply .. | .udp .. | .echoReply .. => none

/-- The segments handed down between two states of a net. -/
def segmentsHanded (before after : MnNet) : List TcpSeg :=
  (handedSince before after).filterMap fun entry => segmentOf entry.1

/-- The link was handed frames whose segments all satisfy `p`. -/
def Sends (before after : MnNet) (p : TcpSeg → Prop) : Prop :=
  ∃ frames, Handed before after frames ∧ ∀ entry ∈ frames, ∀ seg, segmentOf entry.1 = some seg → p seg

theorem Sends.nothing (net : MnNet) (p : TcpSeg → Prop) : Sends net net p :=
  ⟨[], Handed.refl net, by simp⟩

theorem Sends.trans (first : Sends before middle p) (second : Sends middle after p) :
    Sends before after p := by
  obtain ⟨front, handed, good⟩ := first
  obtain ⟨back, handed', good'⟩ := second
  refine ⟨front ++ back, handed.trans handed', ?_⟩
  intro entry member
  exact (List.mem_append.mp member).elim (good entry) (good' entry)

theorem Sends.mono (sends : Sends before after p) (weaker : ∀ seg, p seg → q seg) :
    Sends before after q := by
  obtain ⟨frames, handed, good⟩ := sends
  exact ⟨frames, handed, fun entry member seg carried => weaker seg (good entry member seg carried)⟩

theorem Sends.segments (sends : Sends before after p) (seg : TcpSeg)
    (member : seg ∈ segmentsHanded before after) : p seg := by
  obtain ⟨frames, handed, good⟩ := sends
  rw [segmentsHanded, handed_since handed] at member
  obtain ⟨entry, present, carried⟩ := List.mem_filterMap.mp member
  exact good entry present seg carried

theorem send_spec (net : MnNet) (frame : Frame) :
    Handed net (net.send frame).2 [(frame, net.nif.accepts net.nif.handed.length)] ∧
      SameRoutes net (net.send frame).2 ∧
      (net.send frame).1 = if net.nif.accepts net.nif.handed.length then .ok else .failed := by
  unfold MnNet.send MnNetif.tx
  cases net.nif.accepts net.nif.handed.length <;>
    exact ⟨rfl, ⟨rfl, rfl, rfl, rfl, rfl, rfl⟩, rfl⟩

/-- The outcomes of one `emit`: the next hop is unknown and asked for, or the
segment is handed to the link, which answers for it. -/
inductive Emission (t : MnTcp) (x : XMem) (net : MnNet) (flags : SegFlags) (seq : UInt32)
    (off len : UInt16) (withMss : Bool) : SendResult × MnTcp × MnNet → Prop where
  | unresolved (after : MnNet) (queued : Bool) (unknown : ¬ net.Resolves t.remoteIp)
      (same : SameRoutes net after)
      (handed : Handed net after
        [(.arpRequest net.nif.mac net.ip (mnNetNextHop net t.remoteIp), queued)]) :
      Emission t x net flags seq off len withMss (.pending, t, after)
  | sent (after : MnNet) (mac : Mac) (known : net.Resolves t.remoteIp) (same : SameRoutes net after)
      (handed : Handed net after
        [(.tcp mac net.nif.mac net.ip t.remoteIp net.ipId
          (buildSegment t x flags seq off len withMss), net.nif.accepts net.nif.handed.length)]) :
      Emission t x net flags seq off len withMss
        (if net.nif.accepts net.nif.handed.length then .ok else .failed,
          { t with
            advEdge := if flags.ack then t.rcvNxt + (advWindow t).toUInt32 else t.advEdge
            statTxSeg := t.statTxSeg + 1 }, after)

/-- To a broadcast address the MAC is known, whatever the ARP cache holds. -/
theorem broadcast_begins {net : MnNet} {dst : Ip4} (broadcast : isBroadcast net dst = true) :
    mnNetTxBegin net dst = (.ok mnEthBroadcast, net) := by
  have hop : mnNetNextHop net dst = dst := if_pos broadcast
  unfold mnNetTxBegin
  dsimp only
  rw [hop, if_pos broadcast]

theorem tx_begin_spec (net : MnNet) (dst : Ip4) :
    (net.Resolves dst ∧ ∃ mac, mnNetTxBegin net dst = (.ok mac, net)) ∨
      (¬ net.Resolves dst ∧ mnNetTxBegin net dst =
        (.error .pending, (net.send (.arpRequest net.nif.mac net.ip (mnNetNextHop net dst))).2)) := by
  unfold mnNetTxBegin MnNet.Resolves
  dsimp only
  split
  · rename_i broadcast
    exact Or.inl ⟨Or.inl broadcast, _, rfl⟩
  · rename_i unicast
    cases found : mnArpCacheLookup net.arp (mnNetNextHop net dst) with
    | some mac => exact Or.inl ⟨Or.inr rfl, mac, rfl⟩
    | none => exact Or.inr ⟨by simp [unicast], rfl⟩

theorem emit_emission (t : MnTcp) (x : XMem) (net : MnNet) (flags : SegFlags) (seq : UInt32)
    (off len : UInt16) (withMss : Bool) :
    Emission t x net flags seq off len withMss (emit t x net flags seq off len withMss) := by
  unfold emit
  obtain ⟨known, mac, begun⟩ | ⟨unknown, begun⟩ := tx_begin_spec net t.remoteIp
  · simp only [begun, mnNetTxSend]
    obtain ⟨handed, same, result⟩ := send_spec { net with ipId := net.ipId + 1 }
      (.tcp mac net.nif.mac net.ip t.remoteIp net.ipId (buildSegment t x flags seq off len withMss))
    rw [result]
    exact .sent _ mac known ⟨same.mac, same.accepts, same.ip, same.mask, same.gw, same.arp⟩ handed
  · simp only [begun]
    obtain ⟨handed, same, _⟩ := send_spec net
      (.arpRequest net.nif.mac net.ip (mnNetNextHop net t.remoteIp))
    exact .unresolved _ _ unknown same handed

theorem emit_sends (net : MnNet) (good : p (buildSegment t x flags seq off len withMss)) :
    Sends net (emit t x net flags seq off len withMss).2.2 p := by
  have emission := emit_emission t x net flags seq off len withMss
  generalize emit t x net flags seq off len withMss = out at emission
  cases emission with
  | unresolved _ _ _ _ handed =>
    refine ⟨_, handed, ?_⟩
    intro entry member seg carried
    rw [List.mem_singleton.mp member] at carried
    cases carried
  | sent _ _ _ _ handed =>
    refine ⟨_, handed, ?_⟩
    intro entry member seg carried
    rw [List.mem_singleton.mp member] at carried
    cases carried
    exact good

/-- Emitting touches the last advertised edge and a counter, nothing else. -/
theorem emit_socket (t : MnTcp) (x : XMem) (net : MnNet) (flags : SegFlags) (seq : UInt32)
    (off len : UInt16) (withMss : Bool) :
    ∃ edge stat, (emit t x net flags seq off len withMss).2.1 =
      { t with advEdge := edge, statTxSeg := stat } := by
  have emission := emit_emission t x net flags seq off len withMss
  generalize emit t x net flags seq off len withMss = out at emission
  cases emission with
  | unresolved => exact ⟨t.advEdge, t.statTxSeg, rfl⟩
  | sent => exact ⟨_, _, rfl⟩

/-- With the next hop known and the link accepting, a segment goes out. -/
theorem emit_delivers (known : net.Resolves t.remoteIp) (accepting : net.Accepts) :
    ∃ mac after, Handed net after
        [(.tcp mac net.nif.mac net.ip t.remoteIp net.ipId
          (buildSegment t x flags seq off len withMss), true)] ∧
      SameRoutes net after ∧
      emit t x net flags seq off len withMss =
        (.ok, { t with
          advEdge := if flags.ack then t.rcvNxt + (advWindow t).toUInt32 else t.advEdge
          statTxSeg := t.statTxSeg + 1 }, after) := by
  have emission := emit_emission t x net flags seq off len withMss
  generalize emit t x net flags seq off len withMss = out at emission
  cases emission with
  | unresolved _ _ unknown => exact absurd known unknown
  | sent after mac _ same handed =>
    rw [accepting] at handed ⊢
    exact ⟨mac, after, handed, same, rfl⟩

theorem nothing_fits : ([] : List UInt8).length < 65536 := by decide

theorem no_options_fit : ([] : List UInt8).length ≤ 40 := by decide

/-- The RST a segment nobody owns is answered with. -/
def resetFor (seg : TcpSeg) : TcpSeg where
  sport := seg.dport
  dport := seg.sport
  seq := if seg.flags.ack then seg.ack else 0
  ack :=
    if seg.flags.ack then 0
    else seg.seq + seg.dlen.toUInt32 + (if seg.flags.syn then 1 else 0) +
      (if seg.flags.fin then 1 else 0)
  flags := { rst := true, ack := !seg.flags.ack }
  wnd := 0
  opts := []
  data := []
  optsFit := no_options_fit
  dataFits := nothing_fits

theorem sendRst_sends (net : MnNet) (src : Ip4) (seg : TcpSeg) :
    Sends net (sendRst net src seg) (· = resetFor seg) := by
  unfold sendRst
  dsimp only
  obtain ⟨_, mac, begun⟩ | ⟨_, begun⟩ := tx_begin_spec net src
  · rw [begun]
    refine ⟨_, (send_spec { net with ipId := net.ipId + 1 } _).1, ?_⟩
    intro entry member seg' carried
    rw [List.mem_singleton.mp member] at carried
    cases carried
    rfl
  · rw [begun]
    refine ⟨_, (send_spec net _).1, ?_⟩
    intro entry member seg' carried
    rw [List.mem_singleton.mp member] at carried
    cases carried

end MegaNet.TcpEmission
