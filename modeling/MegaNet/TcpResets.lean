import MegaNet.TcpLifetime

/-! Which resets a connection heeds, and whether it heeds the one a host that
has forgotten the connection answers its segments with. -/
namespace MegaNet.TcpResets
open MegaNet.Core SerialNumber Words TcpEmission TcpSocketInvariant TcpOutcomes
  TcpConnection TcpSendStream
  TcpRecvStream TcpLifetime

variable {c : Conn} {t u : MnTcp} {seg p : TcpSeg}

/-- A reset that means this connection: in SYN_SENT it acknowledges the SYN, in
every other state it is the next segment or lies within the window. -/
def Acceptable (t : MnTcp) (seg : TcpSeg) : Prop :=
  if t.state = .synSent then seg.flags.ack = true ∧ seg.ack = t.sndNxt
  else seg.seq = t.rcvNxt ∨ (seg.seq - t.rcvNxt).toNat < (advWindow t).toNat

/-- The receive ring holds all it can, so the window is closed. -/
def Full (t : MnTcp) : Prop := synchronized t.state = true ∧ t.rcvCount = MN_TCP_RCVBUF

/-- A reset is not regular if it comes from outside the window to a half-open
socket, or is the next segment to one whose window is closed. -/
def Regular (t : MnTcp) (seg : TcpSeg) : Prop :=
  (t.state = .synRcvd → (seg.seq - t.rcvNxt).toNat < MN_TCP_WINDOW_CAP.toNat) ∧
    (Full t → seg.seq ≠ t.rcvNxt)

/-! ## Heeding a reset -/

private theorem outside_window (t : MnTcp) (seg : TcpSeg) :
    (precedes seg.seq t.rcvNxt || upTo (t.rcvNxt + (advWindow t).toUInt32) seg.seq) = false ↔
      (seg.seq - t.rcvNxt).toNat < (advWindow t).toNat := by
  have small := (advWindow t).toNat_lt
  have narrow : (advWindow t).toUInt32.toNat < 2 ^ 31 := by
    rw [UInt16.toNat_toUInt32]
    omega
  rw [inside_iff narrow, UInt16.toNat_toUInt32]

private theorem rstInput_moves_iff (owned : awake t.state) (seg : TcpSeg) :
    (rstInput t seg).state ≠ t.state ↔
      if t.state = .synSent then seg.flags.ack = true ∧ seg.ack = t.sndNxt
      else t.state = .synRcvd ∨ (seg.seq - t.rcvNxt).toNat < (advWindow t).toNat := by
  unfold rstInput
  split
  · rename_i active
    rw [if_pos active]
    split <;> simp_all
  · rename_i passive
    simp [passive]
  · rename_i active passive
    rw [if_neg active, or_iff_right passive, ← outside_window]
    split
    · rename_i out
      simp [out]
    · rename_i inside
      simpa [inside] using owned.1.symm

/-- What the code asks of a reset before it lets the connection go. -/
theorem rst_moves_iff (owned : awake t.state) (rst : seg.flags.rst = true) (x : XMem) (now : UInt16) :
    (segmentInput t x seg now).1.state ≠ t.state ↔
      if t.state = .synSent then seg.flags.ack = true ∧ seg.ack = t.sndNxt
      else t.state = .synRcvd ∨ (seg.seq - t.rcvNxt).toNat < (advWindow t).toNat := by
  have reset : (segmentInput t x seg now).1 = rstInput { t with statRxSeg := t.statRxSeg + 1 } seg := by
    simp [segmentInput, rst]
  rw [reset]
  exact rstInput_moves_iff (t := { t with statRxSeg := t.statRxSeg + 1 }) owned seg

/-- The closed window is the only one that its own start lies outside of. -/
theorem full_iff (sock : SocketInv t now) (sync : synchronized t.state = true) :
    Full t ↔ (advWindow t).toNat = 0 := by
  have room := sock.rcvCount
  rw [advWindow_toNat sock, Full, and_iff_right sync, ← UInt16.toNat_inj, rcvbuf_toNat]
  omega

private theorem half_open_window (sock : SocketInv t now) (state : t.state = .synRcvd) :
    (advWindow t).toNat = MN_TCP_WINDOW_CAP.toNat := by
  obtain ⟨_, _, _, _, _, _, empty, _⟩ := sock.handshake (by simp [state, handshaking])
  rw [advWindow_toNat sock, empty]
  rfl

/-- The code heeds the acceptable resets and no others exactly when they are
regular. -/
theorem heeds_iff (sock : SocketInv t now) (owned : awake t.state)
    (rst : seg.flags.rst = true) (x : XMem) :
    ((segmentInput t x seg now).1.state ≠ t.state ↔ Acceptable t seg) ↔ Regular t seg := by
  rw [rst_moves_iff owned rst, Acceptable, Regular]
  by_cases active : t.state = .synSent
  · simp [active, Full, synchronized]
  rw [if_neg active, if_neg active]
  by_cases passive : t.state = .synRcvd
  · have window := half_open_window sock passive
    have next : seg.seq = t.rcvNxt → (seg.seq - t.rcvNxt).toNat = 0 := by
      rintro same
      simp [same]
    simp only [passive, true_or, true_iff, Full, synchronized, Bool.false_eq_true,
      false_and, false_implies,
      and_true, true_implies, window]
    constructor
    · rintro (same | inside)
      · rw [next same]
        decide
      · exact inside
    · exact Or.inr
  · have sync := awake_past owned ⟨active, passive⟩
    have next : seg.seq = t.rcvNxt ↔ (seg.seq - t.rcvNxt).toNat = 0 := by
      rw [← UInt32.toNat_zero, UInt32.toNat_inj]
      exact ⟨fun same => by simp [same], fun same => by grind⟩
    simp only [passive, false_or, false_implies, true_and, ne_eq, next, full_iff sock sync]
    omega

/-! ## The reset a forgotten connection draws -/

/-- A segment names its socket's ports, and acknowledges unless it is the SYN
of a connection not yet answered. -/
structure Voiced (t : MnTcp) (p : TcpSeg) : Prop where
  sport : p.sport = t.localPort
  dport : p.dport = t.remotePort
  acks : p.flags.ack = true ↔ t.state ≠ .synSent
  opens : p.flags.ack = false → p.flags.syn = true

private theorem built_voiced (built : Built t x p) (same : identity u = identity t)
    (state : u.state = .synSent ↔ t.state = .synSent) : Voiced u p := by
  cases built with
  | built v flags seq off len mss kept acks opens =>
    have alike := (kept_identity kept).trans same.symm
    simp only [identity, Identity.mk.injEq] at alike
    exact ⟨alike.2.2.2.1, alike.2.2.1, acks.trans (not_congr state.symm), opens⟩

theorem Voiced.same (voiced : Voiced t p) (same : identity u = identity t)
    (state : u.state = .synSent ↔ t.state = .synSent) : Voiced u p := by
  simp only [identity, Identity.mk.injEq] at same
  exact { voiced with
    sport := voiced.sport.trans same.2.2.2.1.symm
    dport := voiced.dport.trans same.2.2.1.symm
    acks := voiced.acks.trans (not_congr state.symm) }

private theorem sendSyn_voiced (acks : flags.ack = true ↔ t.state ≠ .synSent) (syn : flags.syn = true)
    (x : XMem) (net : MnNet) : Sends net (sendSyn t x net flags).2
    (Voiced (sendSyn t x net flags).1) := by
  obtain ⟨edge, stat, pending, same⟩ := sendSyn_socket t x net flags
  rw [sendSyn_net, same]
  exact emit_sends net ⟨rfl, rfl, acks, fun _ => syn⟩

private theorem pollOne_voiced (sock : SocketInv t now) (x : XMem) (net : MnNet) (tick : UInt16)
    (on : awake (pollOne t x net tick).1.state) :
    Sends net (pollOne t x net tick).2 (Voiced (pollOne t x net tick).1) := by
  refine (pollOne_built t x net tick).mono fun p built =>
    built_voiced built (kept_identity (pollOne_kept t x net tick)) ?_
  rcases (pollOne_steady sock x net tick).1 with same | closed | ⟨_, listens⟩ | ⟨sync, going⟩
  · rw [same]
  · exact absurd closed on.1
  · exact absurd listens on.2
  · exact iff_of_false (synchronized_past going).1 (synchronized_past sync).1

theorem exec_voiced (sock : SocketInv c.t c.now) (net : MnNet) (op : Op)
    (on : awake (c.exec net op).1.t.state) :
    Sends net (c.exec net op).2 (Voiced (c.exec net op).1.t) := by
  have effect := exec_effect c net op
  generalize c.exec net op = out at effect on
  cases effect with
  | connects ip port tick =>
    dsimp only [Conn.fresh]
    exact sendSyn_voiced (by simp [startConnect]) rfl c.x net
  | answers src seg =>
    dsimp only [Conn.fresh]
    exact sendSyn_voiced (by simp [startPassive]) rfl c.x net
  | aborts => exact absurd rfl on.1
  | polls tick => exact pollOne_voiced sock c.x net tick on
  | idles | listens | queues | takes | asks | drops | arrives | others => exact Sends.nothing net _

/-- A segment the connection handed to its link, since when nothing has arrived. -/
inductive Latest : Conn → TcpSeg → Prop where
  | handed {d : Conn} {q : TcpSeg} (run : Conn.Run d) (net : MnNet) (op : Op) (enabled : d.Enabled op)
      (member : q ∈ segmentsHanded net (d.exec net op).2) : Latest (d.exec net op).1 q
  | later {d : Conn} {q : TcpSeg} (before : Latest d q) (net : MnNet) (op : Op) (enabled : d.Enabled op)
      (quiet : ∀ seg, op ≠ .segment seg) (steady : ¬ Opens d op) : Latest (d.exec net op).1 q

theorem Latest.run (latest : Latest c p) : Conn.Run c := by
  induction latest with
  | handed run net op enabled => exact run.next ⟨net, op, enabled, rfl⟩
  | later _ net op enabled _ _ ih => exact ih.next ⟨net, op, enabled, rfl⟩

/-- What a segment still says of the connection it came from. -/
structure Current (t : MnTcp) (p : TcpSeg) : Prop extends Voiced t p where
  next : p.flags.ack = true → p.ack = t.rcvNxt
  first : p.flags.ack = false → p.data = [] ∧ p.flags.fin = false ∧ p.seq = t.iss

/-- Nothing but a segment moves `rcv_nxt`. -/
theorem exec_rcvNxt (c : Conn) (net : MnNet) (op : Op) (quiet : ∀ seg, op ≠ .segment seg)
    (steady : ¬ Opens c op) :
    (c.exec net op).1.t.rcvNxt = c.t.rcvNxt := by
  have effect := exec_effect c net op
  generalize c.exec net op = out at effect
  cases effect with
  | connects _ _ _ free => exact absurd free steady
  | listens _ free => exact absurd free steady
  | answers => exact absurd trivial steady
  | takes _ _ n =>
    obtain ⟨owed, same⟩ := afterRecv_socket c.t n
    rw [same]
  | arrives seg => exact absurd rfl (quiet seg)
  | polls tick => exact congrArg Kept.rcvNxt (pollOne_kept c.t c.x net tick)
  | idles | queues | asks | drops | aborts | others => rfl

theorem Latest.current (latest : Latest c p) (on : awake c.t.state) : Current c.t p := by
  induction latest with
  | handed run net op enabled member =>
    have voiced := (exec_voiced run.socketInv net op on).segments _ member
    have issued := (exec_issues run net op).segments _ member
    refine { voiced with next := issued.ack, first := fun silent => issued.syn (voiced.opens silent) }
  | later before net op enabled quiet steady ih =>
    rename_i d q
    have sock := before.run.socketInv
    have still := exec_still sock net op steady quiet
    obtain ⟨was, same⟩ : awake d.t.state ∧
        ((d.exec net op).1.t.state = .synSent ↔ d.t.state = .synSent) := by
      rcases exec_onward sock net op enabled steady with
        (same | closed | ⟨_, listens⟩ | ⟨sync, going⟩) | ends
      · rw [same] at on ⊢
        exact ⟨on, Iff.rfl⟩
      · exact absurd closed on.1
      · exact absurd listens on.2
      · exact ⟨synchronized_awake sync, iff_of_false
          (fun active => by simp [active, synchronized] at going)
          fun active => by simp [active, synchronized] at sync⟩
      · obtain ⟨⟨seg, rfl⟩, _⟩ := ends
        exact absurd rfl (quiet seg)
    have current := ih was
    exact { current.toVoiced.same still.1 same with
      next := fun acks => (current.next acks).trans (exec_rcvNxt d net op quiet steady).symm
      first := fun silent => by
        obtain ⟨empty, plain, first⟩ := current.first silent
        exact ⟨empty, plain, first.trans (exec_iss sock net op steady).symm⟩ }

/-- Only a closed window makes the connection ignore that reset. -/
theorem resetFor_heeded_iff (sock : SocketInv t now) (owned : awake t.state)
    (current : Current t p) (x : XMem) :
    (segmentInput t x (resetFor p) now).1.state ≠ t.state ↔ ¬ Full t := by
  rw [rst_moves_iff owned rfl]
  by_cases active : t.state = .synSent
  · have silent : p.flags.ack = false := by
      rw [← Bool.not_eq_true, current.acks]
      simp [active]
    obtain ⟨empty, plain, first⟩ := current.first silent
    obtain ⟨_, _, _, _, _, next, _⟩ := sock.handshake (by simp [active, handshaking])
    have none : p.dlen = 0 := by simp [TcpSeg.dlen, empty]
    simp [active, resetFor, silent, current.opens silent, plain, none, first, next, Full, synchronized]
  · have acks := current.acks.mpr active
    have next : (resetFor p).seq = t.rcvNxt := by simp [resetFor, acks, current.next acks]
    rw [if_neg active, next, UInt32.sub_self, UInt32.toNat_zero]
    by_cases passive : t.state = .synRcvd
    · simp [passive, Full, synchronized]
    · rw [or_iff_right passive, full_iff sock (awake_past owned ⟨active, passive⟩)]
      omega

/-! ## Both together -/

/-- The resets that end a connection are the acceptable ones exactly as long
as they are regular, and the one a segment of its own draws is heeded unless
the receive ring is full. -/
theorem rst_acceptance_iff (run : Conn.Run c) (owned : awake c.t.state) (net : MnNet) :
    (∀ seg, seg.flags.rst = true →
      (((c.exec net (.segment seg)).1.t.state ≠ c.t.state ↔ Acceptable c.t seg) ↔ Regular c.t seg)) ∧
    ∀ p, Latest c p → ∀ host src, ∀ answer ∈ segmentsHanded host (sendRst host src p),
      owns c.t.remoteIp answer c.t = true ∧
        ((c.exec net (.segment answer)).1.t.state ≠ c.t.state ↔ ¬ Full c.t) := by
  have sock := run.socketInv
  refine ⟨fun seg rst => heeds_iff sock owned rst c.x, fun p latest host src answer member => ?_⟩
  have current := latest.current owned
  rw [(sendRst_sends host src p).segments answer member]
  refine ⟨?_, resetFor_heeded_iff sock owned current c.x⟩
  simp [owns, owned.1, owned.2, resetFor, current.sport, current.dport]

theorem four_kilobytes : (List.replicate 4096 (0 : UInt8)).length < 65536 := by
  rw [List.length_replicate]
  decide

/-- An established connection whose peer has filled the receive ring. -/
def fullRing : Conn :=
  freshConn.execAll [(goodNet, .connect neighbour 80 65520), (goodNet, .segment synAck),
    (goodNet, .segment
      (fromPeer 53201 1001 4293918722 { ack := true } 1000 (List.replicate 4096 0) four_kilobytes))]

theorem fullRing_run : Conn.Run fullRing :=
  freshConn_run.execAll _ ⟨trivial, ⟨by decide +kernel, by decide +kernel⟩,
    ⟨by decide +kernel, by decide +kernel⟩, trivial⟩

/-- It has told its peer so. -/
def toldFull : Conn := (fullRing.exec goodNet (.poll 65521)).1

theorem toldFull_run : Conn.Run toldFull := fullRing_run.next ⟨goodNet, .poll 65521, trivial, rfl⟩

/-- What it said. -/
def windowClosed : TcpSeg :=
  ⟨53201, 80, 4293918722, 5097, { ack := true }, 0, [], [], no_options_fit, nothing_fits⟩

private theorem windowClosed_latest : Latest toldFull windowClosed :=
  .handed fullRing_run goodNet (.poll 65521) trivial (by decide +kernel)

/-- A socket that has answered the neighbour's SYN. -/
def halfOpen : Conn :=
  freshConn.execAll [(goodNet, .listen 80),
    (goodNet, .passiveOpen neighbour (fromPeer 80 1000 0 { syn := true } 1000 [] nothing_fits))]

theorem halfOpen_run : Conn.Run halfOpen :=
  freshConn_run.execAll _ ⟨trivial, ⟨by decide +kernel, by decide +kernel⟩, trivial⟩

/-- A reset the neighbour could have meant for another connection. -/
def farReset : TcpSeg := fromPeer 80 3049 0 { rst := true } 0 [] nothing_fits

private theorem toldFull_full : toldFull.t.state = .established ∧ toldFull.t.rcvCount = MN_TCP_RCVBUF ∧
    farReset.seq ≠ toldFull.t.rcvNxt := by decide +kernel

theorem rst_acceptance_iff_toldFull :
    ((toldFull.exec goodNet (.segment farReset)).1.t.state ≠ toldFull.t.state ↔
      Acceptable toldFull.t farReset) ∧
      ¬ (toldFull.exec goodNet (.segment (resetFor windowClosed))).1.t.state ≠ toldFull.t.state := by
  obtain ⟨state, full, far⟩ := toldFull_full
  obtain ⟨acceptance, answered⟩ :=
    rst_acceptance_iff toldFull_run ⟨by rw [state]; decide, by rw [state]; decide⟩ goodNet
  refine ⟨(acceptance farReset rfl).mpr ⟨fun passive => ?_, fun _ => far⟩, fun moves => ?_⟩
  · rw [state] at passive
    cases passive
  · have heeded := (answered windowClosed windowClosed_latest goodNet neighbour (resetFor windowClosed)
      (by decide +kernel)).2
    exact heeded.mp moves ⟨by rw [state]; rfl, full⟩

instance : Decidable (Acceptable t seg) := by
  unfold Acceptable
  infer_instance

/-- The reset the last acknowledgement draws is the next segment, and ignored
while the ring is full; and a half-open socket goes back to listening for a
reset from outside its window. -/
theorem rst_misjudged :
    (Latest toldFull windowClosed ∧ Acceptable toldFull.t (resetFor windowClosed) ∧
      (toldFull.exec goodNet (.segment (resetFor windowClosed))).1.t.state = toldFull.t.state) ∧
    (Conn.Run halfOpen ∧ ¬ Acceptable halfOpen.t farReset ∧
      (halfOpen.exec goodNet (.segment farReset)).1.t.state ≠ halfOpen.t.state) :=
  ⟨⟨windowClosed_latest, by decide +kernel⟩, halfOpen_run, by decide +kernel⟩

end MegaNet.TcpResets
