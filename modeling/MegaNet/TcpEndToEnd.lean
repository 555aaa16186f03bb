import MegaNet.TcpLoneSocket

/-! Two hosts over a network that loses, duplicates, delays and reorders what
their links take: one connects, the other listens, and what each application
is given is the beginning of what the other handed over. -/
namespace MegaNet.TcpEndToEnd
open MegaNet.Core SerialNumber TcpEmission TcpSocketInvariant TcpOutcomes TcpConnection TcpSendStream
  TcpRecvStream TcpLifetime TcpSetRuns TcpLoneSocket Transition

/-- One host: its sockets, the bytes its send calls took over and its receive
calls handed out, every segment its link has taken with the address it came
from, and whether its one opening call has been made. -/
structure Endpoint where
  world : World
  accepted : List UInt8
  returned : List UInt8
  wire : List (Ip4 × TcpSeg)
  opened : Bool

/-- The segment of a frame the link took. -/
def tookSegment : Frame × Bool → Option (Ip4 × TcpSeg)
  | (.tcp _ _ srcIp _ _ seg, true) => some (srcIp, seg)
  | _ => none

/-- The segments the link took between two states of a net. -/
def taken (before after : MnNet) : List (Ip4 × TcpSeg) :=
  (handedSince before after).filterMap tookSegment

/-- A call that opens a socket. -/
def isOpening : Event → Bool
  | .connect .. | .listen .. => true
  | _ => false

def Endpoint.exec (e : Endpoint) (net : MnNet) (event : Event) : Endpoint where
  world := (e.world.exec net event).1
  accepted := e.accepted ++ accepts e.world event
  returned := e.returned ++ returns e.world event
  wire := e.wire ++ taken net (e.world.exec net event).2
  opened := e.opened || isOpening event

/-- What may happen at a host: its one opening call, once; the arrival of what
its peer's link took, any time after and any number of times; and anything
else its application and its clock do. -/
def Endpoint.May (e peer : Endpoint) (call : Event → Prop) (event : Event) : Prop :=
  (isOpening event = true → call event ∧ e.opened = false) ∧
    ∀ src seg, event = .input src seg → (src, seg) ∈ peer.wire

/-- A connect on socket `i`. -/
def Connects (i : Nat) (event : Event) : Prop := ∃ ip port now, event = .connect i ip port now

/-- A listen on socket `j`. -/
def Listens (j : Nat) (event : Event) : Prop := ∃ port, event = .listen j port

/-- A host that connects and one that listens. -/
structure Joined where
  a : Endpoint
  b : Endpoint

/-- A host just initialised, with a socket `i`. -/
def Endpoint.Begun (i : Nat) (e : Endpoint) : Prop :=
  World.Begun e.world ∧ i < e.world.set.sock.length ∧ e.accepted = [] ∧ e.returned = [] ∧ e.wire = [] ∧
    e.opened = false

/-- Either host moves, over any state of its network layer, until either has
handed over half the sequence space. -/
inductive Joined.Step (i j : Nat) (s : Joined) : Joined → Prop where
  | left (net : MnNet) (event : Event) (may : s.a.May s.b (Connects i) event)
      (short : (s.a.exec net event).accepted.length < 2 ^ 31) : Step i j s
      { s with a := s.a.exec net event }
  | right (net : MnNet) (event : Event) (may : s.b.May s.a (Listens j) event)
      (short : (s.b.exec net event).accepted.length < 2 ^ 31) : Step i j s
      { s with b := s.b.exec net event }

def Joined.Run (i j : Nat) : Joined → Prop :=
  Reachable (fun s => Endpoint.Begun i s.a ∧ Endpoint.Begun j s.b) (Joined.Step i j)

variable {e p : Endpoint} {c d : Conn} {i : Nat}

private theorem taken_handed (member : (src, seg) ∈ taken before after) :
    seg ∈ segmentsHanded before after := by
  obtain ⟨entry, present, took⟩ := List.mem_filterMap.mp member
  refine List.mem_filterMap.mpr ⟨entry, present, ?_⟩
  revert took
  unfold tookSegment
  split
  · intro same
    cases same
    rfl
  · intro none
    cases none

/-! ## One end -/

/-- A host seen as its one connection. -/
structure View (e : Endpoint) (i : Nat) (c : Conn) : Prop where
  lone : Lone e.world i c
  sent : c.sent = e.accepted
  rcvd : c.rcvd = e.returned
  wire : ∀ src seg, (src, seg) ∈ e.wire → Genuine c seg
  unopened : e.opened = false → c.t.state = .closed ∧ c.known = false ∧ c.sent = [] ∧
    ∀ src seg, (src, seg) ∈ e.wire → Dismissal seg

/-- Where the operation an event is comes from. -/
theorem may_op (may : e.May p call event) (same : opOf i t event = some op) :
    (∀ seg, op = .segment seg → ∃ src, (src, seg) ∈ p.wire) ∧
      (∀ src seg, op = .passiveOpen src seg → (src, seg) ∈ p.wire ∧ isPureSyn seg = true) ∧
      (∀ ip port now, op = .connect ip port now → event = .connect i ip port now ∧ e.opened = false) ∧
      (∀ port, op = .listen port → event = .listen i port ∧ e.opened = false) := by
  obtain ⟨opening, arriving⟩ := may
  cases event with
  | connect k ip port now =>
    simp only [opOf] at same
    split at same
    · cases same
      obtain rfl : k = i := ‹_›
      refine ⟨by simp, by simp, fun _ _ _ eq => ?_, by simp⟩
      cases eq
      exact ⟨rfl, (opening rfl).2⟩
    · cases same
  | listen k port =>
    simp only [opOf] at same
    split at same
    · cases same
      obtain rfl : k = i := ‹_›
      refine ⟨by simp, by simp, by simp, fun _ eq => ?_⟩
      cases eq
      exact ⟨rfl, (opening rfl).2⟩
    · cases same
  | input src seg =>
    have there := arriving src seg rfl
    simp only [opOf] at same
    split at same
    · cases same
      refine ⟨fun _ eq => ?_, by simp, by simp, by simp⟩
      cases eq
      exact ⟨src, there⟩
    split at same
    · rename_i syn
      simp only [Bool.and_eq_true] at syn
      cases same
      refine ⟨by simp, fun _ _ eq => ?_, by simp, by simp⟩
      cases eq
      exact ⟨there, syn.1⟩
    · cases same
  | poll now =>
    cases same
    simp
  | send | sendX | recv | recvX | close | abort =>
    simp only [opOf] at same
    split at same
    · cases same
      simp
    · cases same

/-- An operation on the connection keeps the view, a new connection beginning
only where nothing has been said yet. -/
theorem View.acts (view : View e i c) (may : e.May p call event) (net : MnNet)
    (same : opOf i c.t event = some op) (enabled : c.Enabled op)
    (lone : Lone (e.world.exec net event).1 i (c.exec net op).1)
    (after : (e.world.exec net event).2 = (c.exec net op).2)
    (fresh : Opens c op → c.sent = [] ∧ c.rcvd = [] ∧ ∀ src seg, (src, seg) ∈ e.wire → Mute seg) :
    View (e.exec net event) i (c.exec net op).1 := by
  have sock := view.lone.run.socketInv
  have handed : ∀ src seg, (src, seg) ∈ taken net (e.world.exec net event).2 →
      seg ∈ segmentsHanded net (c.exec net op).2 := fun src seg member => by
    rw [← after]
    exact taken_handed member
  have logs : (c.exec net op).1.sent = c.sent ++ accepts e.world event ∧
      (c.exec net op).1.rcvd = c.rcvd ++ returns e.world event := by
    by_cases opens : Opens c op
    · obtain ⟨unsent, unread, _⟩ := fresh opens
      obtain ⟨sent, rcvd, none, none'⟩ := opens_logs (w := e.world) net same opens
      rw [sent, rcvd, none, none', unsent, unread]
      exact ⟨rfl, rfl⟩
    · exact acts_logs view.lone net same opens
  refine ⟨lone, by rw [logs.1, view.sent]; rfl, by rw [logs.2, view.rcvd]; rfl, fun src seg member => ?_,
    fun still => ?_⟩
  · rcases List.mem_append.mp member with old | new
    · by_cases opens : Opens c op
      · exact ((fresh opens).2.2 src seg old).genuine _
      · exact (view.wire src seg old).later sock net op enabled opens
    · exact exec_genuine view.lone.run net op enabled seg (handed src seg new)
  · obtain ⟨unopened, call⟩ := Bool.or_eq_false_iff.mp still
    obtain ⟨closed, unknown, unsent, dismissals⟩ := view.unopened unopened
    obtain ⟨_, _, connects, listens⟩ := may_op may same
    have steady : ¬ Opens c op := by
      cases op with
      | connect ip port now => simp [(connects ip port now rfl).1, isOpening] at call
      | listen port => simp [(listens port rfl).1, isOpening] at call
      | passiveOpen src seg => simp [enabled.1] at closed
      | _ => exact id
    obtain ⟨closed', known, sent, quiet⟩ := closed_exec closed net op enabled steady
    refine ⟨closed', known.trans unknown, sent.trans unsent, fun src seg member => ?_⟩
    rcases List.mem_append.mp member with old | new
    · exact dismissals src seg old
    · have none := handed src seg new
      rw [quiet] at none
      simp [segmentsHanded, handedSince] at none

/-- So does an event that passes the connection by. -/
theorem View.passes (view : View e i c) (net : MnNet) (event : Event) (none : opOf i c.t event = none)
    (lone : Lone (e.world.exec net event).1 i c)
    (sends : Sends net (e.world.exec net event).2 Dismissal) :
    View (e.exec net event) i c := by
  obtain ⟨sent, rcvd⟩ := passes_logs view.lone none
  have dismissed : ∀ src seg, (src, seg) ∈ taken net (e.world.exec net event).2 → Dismissal seg :=
    fun src seg member => sends.segments seg (taken_handed member)
  refine ⟨lone, ?_, ?_, fun src seg member => ?_, fun still => ?_⟩
  · rw [view.sent, Endpoint.exec, sent, List.append_nil]
  · rw [view.rcvd, Endpoint.exec, rcvd, List.append_nil]
  · rcases List.mem_append.mp member with old | new
    · exact view.wire src seg old
    · exact (dismissed src seg new).mute.genuine c
  · obtain ⟨closed, unknown, unsent, dismissals⟩ := view.unopened (Bool.or_eq_false_iff.mp still).1
    refine ⟨closed, unknown, unsent, fun src seg member => ?_⟩
    rcases List.mem_append.mp member with old | new
    · exact dismissals src seg old
    · exact dismissed src seg new

/-! ## What one end has of the other's stream -/

/-- One end's receive stream is the other's send stream, and a FIN is reported
only once the other has ended. -/
structure Hears (r s : Conn) : Prop where
  received : Received r s.sent
  ended : r.t.flags.eof = true → Ended s.t

private theorem sendSyn_fields (t : MnTcp) (x : XMem) (net : MnNet) (flags : SegFlags) :
    (sendSyn t x net flags).1.state = t.state ∧ (sendSyn t x net flags).1.flags = t.flags := by
  obtain ⟨edge, stat, pending, same⟩ := sendSyn_socket t x net flags
  rw [same]
  exact ⟨rfl, rfl⟩

private theorem opens_eof (c : Conn) (net : MnNet) (op : Op) (opens : Opens c op) :
    (c.exec net op).1.t.flags.eof = false := by
  cases op with
  | connect ip port now =>
    rw [exec_connect, if_pos (show c.t.state = .closed from opens)]
    simp only [Conn.fresh, sendSyn_fields]
    rfl
  | listen port =>
    rw [exec_listen, if_pos (show c.t.state = .closed ∧ port ≠ 0 from opens)]
    rfl
  | passiveOpen src seg =>
    simp only [Conn.exec, Core.passiveOpen, Conn.fresh, sendSyn_fields]
    rfl
  | send | sendX | recv | recvX | close | abort | segment | poll | others => exact absurd opens id

/-- The receiving end moves. -/
theorem Hears.moved (hears : Hears c d) (run : Conn.Run c) (net : MnNet) (op : Op)
    (enabled : c.Enabled op)
    (short : d.sent.length < 2 ^ 32)
    (genuine : ∀ seg, op = .segment seg → Genuine d seg ∧
      (c.t.state ≠ .synSent → Consistent d.sent c.t.irs seg)) : Hears (c.exec net op).1 d := by
  have sock := run.socketInv
  refine ⟨exec_receives hears.received sock run.placed net op enabled
    (fun seg same => (genuine seg same).2) short, fun eof => ?_⟩
  by_cases opens : Opens c op
  · rw [opens_eof c net op opens] at eof
    cases eof
  · rcases exec_eof sock net op opens eof with before | ⟨seg, same, fin⟩
    · exact hears.ended before
    · exact ((genuine seg same).1.fin fin).1

/-- The sending end moves. -/
theorem Hears.grows (hears : Hears c d) (run : Conn.Run d) (net : MnNet) (op : Op)
    (enabled : d.Enabled op)
    (fresh : Opens d op → c.t.flags.eof = false ∧ d.sent = [] ∧ (d.exec net op).1.sent = []) :
    Hears c (d.exec net op).1 := by
  by_cases opens : Opens d op
  · obtain ⟨going, before, after⟩ := fresh opens
    refine ⟨?_, fun eof => by simp [going] at eof⟩
    rw [after, ← before]
    exact hears.received
  · obtain ⟨more, sent, shut⟩ := exec_sent d net op opens
    refine ⟨?_, fun eof => exec_ended (hears.ended eof) run.socketInv net op enabled opens⟩
    rw [sent]
    exact { hears.received with
      known := fun known => (hears.received.known known).extend more fun eof =>
        shut (hears.ended eof).shut }

/-! ## The handshake -/

/-- Every segment of a host's link is one of a handshake or a reset. -/
def Silent (e : Endpoint) : Prop := ∀ src seg, (src, seg) ∈ e.wire → Mute seg

/-- `a` has taken `b`'s present initial sequence number. -/
def Linked (a b : Conn) : Prop := a.known = true ∧ a.t.irs = b.t.iss

/-- What the two ends of a handshake know of each other. `b` may have answered
several times, each time from a new sequence number, before an acknowledgement
ends its part; `a` acknowledges nothing beyond a SYN until then, so the one
that is acknowledged is the one it has taken. -/
structure Shaken (e p : Endpoint) (a b : Conn) : Prop where
  caller : a.t.state ≠ .listen ∧ a.t.state ≠ .synRcvd
  callee : b.t.state ≠ .synSent
  syn : ∀ src seg, (src, seg) ∈ e.wire → seg.flags.syn = true → seg.seq = a.t.iss
  uncalled : e.opened = false → b.known = false
  unlistened : p.opened = false → a.known = false
  irs : b.known = true → b.t.irs = a.t.iss
  linked : synchronized b.t.state = true → Linked a b
  quiet : Silent p ∨ Linked a b
  waiting : early b.t.state → Silent p
  acks : early b.t.state ∨ p.opened = false → ∀ src seg, (src, seg) ∈ e.wire →
    seg.flags.rst = false → seg.flags.syn = false → seg.flags.ack = true →
    a.known = true ∧ seg.ack = a.t.irs + 1

/-- A reset of the caller's tells nothing. -/
theorem Shaken.caller_passes (shaken : Shaken e p c d) (net : MnNet) (event : Event)
    (sends : Sends net (e.world.exec net event).2 Dismissal) : Shaken (e.exec net event) p c d :=
  { shaken with
    syn := fun src seg member syn => by
      rcases List.mem_append.mp member with old | new
      · exact shaken.syn src seg old syn
      · simp [(sends.segments seg (taken_handed new)).syn] at syn
    uncalled := fun still => shaken.uncalled (Bool.or_eq_false_iff.mp still).1
    acks := fun soon src seg member plain bare acks => by
      rcases List.mem_append.mp member with old | new
      · exact shaken.acks soon src seg old plain bare acks
      · simp [(sends.segments seg (taken_handed new)).rst] at plain }

theorem Shaken.callee_passes (shaken : Shaken e p c d) (net : MnNet) (event : Event)
    (sends : Sends net (p.world.exec net event).2 Dismissal) : Shaken e (p.exec net event) c d := by
  have silent : Silent p → Silent (p.exec net event) := by
    intro before src seg member
    rcases List.mem_append.mp member with old | new
    · exact before src seg old
    · exact (sends.segments seg (taken_handed new)).mute
  exact { shaken with
    unlistened := fun still => shaken.unlistened (Bool.or_eq_false_iff.mp still).1
    quiet := shaken.quiet.imp_left silent
    waiting := fun soon => silent (shaken.waiting soon)
    acks := fun soon => shaken.acks (soon.imp_right fun still => (Bool.or_eq_false_iff.mp still).1) }

theorem Linked.stays (linked : Linked c d) (run : Conn.Run c) (rec : Received c stream) (net : MnNet)
    (op : Op) (steady : ¬ Opens c op) : Linked (c.exec net op).1 d := by
  obtain ⟨known, number⟩ := linked
  have past : c.t.state ≠ .synSent := fun opening => by simp [rec.quiet opening] at known
  exact ⟨exec_still_known c net op steady known,
    (exec_irs run.socketInv past net op steady).trans number⟩

/-- The caller's SYN goes out for the first time. -/
theorem Shaken.connects (shaken : Shaken e p c d) (view : View e i c) (net : MnNet)
    (unopened : e.opened = false)
    (after : (e.world.exec net event).2 = (c.exec net (.connect ip port now)).2)
    (call : isOpening event = true) :
    Shaken (e.exec net event) p (c.exec net (.connect ip port now)).1 d := by
  obtain ⟨closed, unknown, _, dismissals⟩ := view.unopened unopened
  have issued := (exec_issues view.lone.run net (.connect ip port now)).segments
  have mute := (exec_mute (c := c) (by simp [closed, synchronized]) net (.connect ip port now)).segments
  have execs := exec_connect c net ip port now
  rw [if_pos closed] at execs
  have state : (c.exec net (.connect ip port now)).1.t.state = .synSent := by
    rw [execs]
    exact (sendSyn_fields _ c.x net _).1
  have known : (c.exec net (.connect ip port now)).1.known = false := by
    rw [execs]
    rfl
  have handed : ∀ src seg, (src, seg) ∈ taken net (e.world.exec net event).2 →
      seg ∈ segmentsHanded net (c.exec net (.connect ip port now)).2 := fun src seg member => by
    rw [← after]
    exact taken_handed member
  have unlinked : ¬ Linked c d := fun linked => by simpa [unknown] using linked.1
  refine ⟨by simp [state], shaken.callee, fun src seg member syn => ?_, fun still => ?_,
    fun _ => known, fun on => ?_, fun sync => absurd (shaken.linked sync) unlinked,
    Or.inl (shaken.quiet.resolve_right unlinked), shaken.waiting,
      fun soon src seg member plain bare acks => ?_⟩
  · rcases List.mem_append.mp member with old | new
    · simp [(dismissals src seg old).syn] at syn
    · exact ((issued seg (handed src seg new)).syn syn).2.2
  · simp [Endpoint.exec, call] at still
  · simp [shaken.uncalled unopened] at on
  · rcases List.mem_append.mp member with old | new
    · simp [(dismissals src seg old).rst] at plain
    · rcases (mute seg (handed src seg new)).bare with rst | syn
      · simp [rst] at plain
      · simp [syn] at bare

/-- What else the caller does. -/
theorem Shaken.caller_acts (shaken : Shaken e p c d) (view : View e i c) (peer : View p k d)
    (hears : Hears c d) (may : e.May p call event) (net : MnNet)
    (same : opOf i c.t event = some op) (enabled : c.Enabled op) (steady : ¬ Opens c op)
    (after : (e.world.exec net event).2 = (c.exec net op).2)
    (hears' : Hears (c.exec net op).1 d) : Shaken (e.exec net event) p (c.exec net op).1 d := by
  have run := view.lone.run
  have sock := run.socketInv
  have issued := (exec_issues run net op).segments
  have iss := exec_iss sock net op steady
  have handed : ∀ src seg, (src, seg) ∈ taken net (e.world.exec net event).2 →
      seg ∈ segmentsHanded net (c.exec net op).2 := fun src seg member => by
    rw [← after]
    exact taken_handed member
  have linked : Linked c d → Linked (c.exec net op).1 d := fun linked =>
    linked.stays run hears.received net op steady
  have unlistened : p.opened = false → (c.exec net op).1.known = false := by
    intro unopened
    by_contra known
    rcases exec_known hears.received net op enabled steady (by simpa using known) with before |
      ⟨seg, arrives, syn, _⟩
    · simp [shaken.unlistened unopened] at before
    · obtain ⟨src, there⟩ := (may_op may same).1 seg arrives
      simp [((peer.unopened unopened).2.2.2 src seg there).syn] at syn
  refine ⟨?_, shaken.callee, fun src seg member syn => ?_,
    fun still => shaken.uncalled (Bool.or_eq_false_iff.mp still).1, unlistened, fun on => ?_,
    fun sync => linked (shaken.linked sync), shaken.quiet.imp_right linked, shaken.waiting,
    fun soon src seg member plain bare acks => ?_⟩
  · rcases exec_onward sock net op enabled steady with
      (still | closed | ⟨half, _⟩ | ⟨_, sync⟩) | ⟨_, _, sync⟩
    · rw [still]
      exact shaken.caller
    · simp [closed]
    · exact absurd half shaken.caller.2
    all_goals
      revert sync
      cases (c.exec net op).1.t.state <;> simp [synchronized]
  · rcases List.mem_append.mp member with old | new
    · exact (shaken.syn src seg old syn).trans iss.symm
    · exact ((issued seg (handed src seg new)).syn syn).2.2
  · exact (shaken.irs on).trans iss.symm
  · rcases List.mem_append.mp member with old | new
    · obtain ⟨known, number⟩ := shaken.acks soon src seg old plain bare acks
      have past : c.t.state ≠ .synSent := fun opening => by simp [hears.received.quiet opening] at known
      exact ⟨exec_still_known c net op steady known,
        number.trans (by rw [exec_irs sock past net op steady])⟩
    · -- An acknowledgement of nothing but the peer's SYN: the peer has sent nothing else.
      have sync : synchronized c.t.state = true := by
        by_contra unsynced
        rcases ((exec_mute (by simpa using unsynced) net op).segments seg (handed src seg new)).bare
          with rst | syn
        · simp [rst] at plain
        · simp [syn] at bare
      have known := exec_still_known c net op steady (hears.received.learnt (Or.inr sync))
      refine ⟨known, ((issued seg (handed src seg new)).ack acks).trans ?_⟩
      have inv := hears'.received.known known
      have unsent : d.sent = [] := by
        rcases soon with soon | unopened
        · exact (run_early peer.lone.run soon).1
        · exact (peer.unopened unopened).2.2.1
      have going : (c.exec net op).1.t.flags.eof = false := by
        by_contra eof
        rcases soon with soon | unopened
        · have ended := hears'.ended (by simpa using eof)
          revert soon ended
          unfold early Ended
          cases d.t.state <;> simp [handshaking, synchronized]
        · simp [unlistened unopened] at known
      have within := inv.within
      have next := inv.next
      rw [unsent, List.length_nil] at within
      rw [going, Nat.le_zero.mp within] at next
      simpa using next

/-- What the callee's link takes while it is not synchronized tells nothing. -/
theorem Silent.goes_on (silent : Silent p) (net : MnNet) (op : Op)
    (unsynced : synchronized d.t.state = false)
    (after : (p.world.exec net event).2 = (d.exec net op).2) : Silent (p.exec net event) := by
  intro src seg member
  rcases List.mem_append.mp member with old | new
  · exact silent src seg old
  · refine (exec_mute unsynced net op).segments seg ?_
    rw [← after]
    exact taken_handed new

/-- The callee begins to listen. -/
theorem Shaken.listens (shaken : Shaken e p c d) (peer : View p k d) (net : MnNet)
    (unopened : p.opened = false)
    (opens : Opens d (.listen port)) (after : (p.world.exec net event).2 = (d.exec net (.listen port)).2)
    (call : isOpening event = true) : Shaken e (p.exec net event) c (d.exec net (.listen port)).1 := by
  obtain ⟨closed, _, _, dismissals⟩ := peer.unopened unopened
  have silent : Silent (p.exec net event) := Silent.goes_on
    (fun src seg member => (dismissals src seg member).mute) net _ (by simp [closed, synchronized]) after
  have execs := exec_listen d net port
  rw [if_pos (show d.t.state = .closed ∧ port ≠ 0 from opens)] at execs
  have state : (d.exec net (.listen port)).1.t.state = .listen := by
    rw [execs]
    rfl
  have known : (d.exec net (.listen port)).1.known = false := by
    rw [execs]
    rfl
  exact ⟨shaken.caller, by simp [state], shaken.syn, fun _ => known,
    fun still => by simp [Endpoint.exec, call] at still, fun on => by simp [known] at on,
    fun sync => by simp [state, synchronized] at sync, Or.inl silent, fun _ => silent,
    fun _ => shaken.acks (Or.inr unopened)⟩

/-- The callee answers the caller's SYN, from a new sequence number. -/
theorem Shaken.answers (shaken : Shaken e p c d) (view : View e i c) (net : MnNet)
    (enabled : d.Enabled (.passiveOpen src seg)) (there : (src, seg) ∈ e.wire)
    (after : (p.world.exec net event).2 = (d.exec net (.passiveOpen src seg)).2) :
    Shaken e (p.exec net event) c (d.exec net (.passiveOpen src seg)).1 := by
  obtain ⟨listening, pure⟩ := enabled
  have syn : seg.flags.syn = true := by
    simp only [isPureSyn, Bool.and_eq_true] at pure
    exact pure.1.1
  have soon : early d.t.state := Or.inr listening
  have silent : Silent (p.exec net event) := Silent.goes_on (shaken.waiting soon) net _
    (by simp [listening, synchronized]) after
  obtain ⟨mss, _, started⟩ := startPassive_socket d.t net src seg d.now
  have sent := sendSyn_kept (startPassive d.t net src seg d.now) d.x net { syn := true, ack := true }
  have irs : (d.exec net (.passiveOpen src seg)).1.t.irs = seg.seq :=
    (congrArg Kept.irs sent).trans (by rw [started]; rfl)
  have state : (d.exec net (.passiveOpen src seg)).1.t.state = .synRcvd :=
    (sendSyn_fields _ d.x net _).1.trans (by rw [started])
  exact ⟨shaken.caller, by simp [state], shaken.syn,
    fun uncalled => by simp [((view.unopened uncalled).2.2.2 src seg there).syn] at syn,
    fun still => shaken.unlistened (Bool.or_eq_false_iff.mp still).1,
    fun _ => irs.trans (shaken.syn src seg there syn), fun sync => by simp [state, synchronized] at sync,
    Or.inl silent, fun _ => silent, fun _ => shaken.acks (Or.inl soon)⟩

/-- What else the callee does: the acknowledgement that ends the handshake is
of its present sequence number, which the caller must have taken. -/
theorem Shaken.callee_acts (shaken : Shaken e p c d) (peer : View p k d) (hears : Hears d c)
    (may : p.May e call event) (net : MnNet) (same : opOf k d.t event = some op) (enabled : d.Enabled op)
    (steady : ¬ Opens d op) (after : (p.world.exec net event).2 = (d.exec net op).2) :
    Shaken e (p.exec net event) c (d.exec net op).1 := by
  have sock := peer.lone.run.socketInv
  have onward := exec_onward sock net op enabled steady
  have iss := exec_iss sock net op steady
  have irs := exec_irs sock shaken.callee net op steady
  have known : (d.exec net op).1.known = true → d.known = true := by
    intro known
    rcases exec_known hears.received net op enabled steady known with before | ⟨seg, arrives, _, _⟩
    · exact before
    · subst arrives
      refine hears.received.learnt ?_
      obtain ⟨open_, idle⟩ := enabled
      have past := shaken.callee
      revert open_ idle past
      cases d.t.state <;> simp [synchronized]
  have linked : Linked c d → Linked c (d.exec net op).1 := And.imp_right fun number =>
    number.trans iss.symm
  have soon : early (d.exec net op).1.t.state → early d.t.state := by
    intro soon
    rcases onward with (still | closed | ⟨half, _⟩ | ⟨_, sync⟩) | ⟨_, half, _⟩
    · exact still ▸ soon
    · simp [closed, early, handshaking] at soon
    · exact Or.inl (by simp [half, handshaking])
    · revert soon sync
      unfold early
      cases (d.exec net op).1.t.state <;> simp [handshaking, synchronized]
    · exact Or.inl half
  refine ⟨shaken.caller, ?_, shaken.syn, fun uncalled => ?_,
    fun still => shaken.unlistened (Bool.or_eq_false_iff.mp still).1,
    fun on => irs.trans (shaken.irs (known on)), fun sync => ?_, ?_, fun after' => ?_,
    fun after' => shaken.acks (after'.imp soon fun still => (Bool.or_eq_false_iff.mp still).1)⟩
  · exact Onward.not_synSent (onward.imp_right fun ends => ends.2) shaken.callee
  · by_contra on
    simp [shaken.uncalled uncalled] at known
    simp [known] at on
  · by_cases before : synchronized d.t.state = true
    · exact linked (shaken.linked before)
    -- The handshake ends here.
    rcases onward with (still | closed | ⟨_, listening⟩ | ⟨was, _⟩) | ⟨⟨seg, rfl⟩, half, _⟩
    · exact absurd (still ▸ sync) before
    · simp [closed, synchronized] at sync
    · simp [listening, synchronized] at sync
    · exact absurd was before
    have state : d.t.state = .synRcvd := by
      have past := shaken.callee
      revert half past
      cases d.t.state <;> simp [handshaking]
    obtain ⟨plain, bare, acks, number⟩ := synRcvd_establishes state sync
    obtain ⟨src, there⟩ := (may_op may same).1 seg rfl
    obtain ⟨taken, answers⟩ := shaken.acks (Or.inl (Or.inl half)) src seg there plain bare acks
    have sent := (sock.handshake half).2.2.2.2.2.1
    refine ⟨taken, ?_⟩
    rw [iss]
    exact (UInt32.add_left_inj 1).mp (answers.symm.trans (number.trans sent))
  · by_cases before : synchronized d.t.state = true
    · exact Or.inr (linked (shaken.linked before))
    · exact shaken.quiet.imp (fun silent => silent.goes_on net op (by simpa using before) after) linked
  · have waiting := soon after'
    refine Silent.goes_on (shaken.waiting waiting) net op ?_ after
    revert waiting
    unfold early
    cases d.t.state <;> simp [handshaking, synchronized]

/-! ## Whole runs -/

variable {s : Joined} {a b : Conn} {i j : Nat}

/-- Two hosts seen as the two ends of a connection. -/
structure Sound (i j : Nat) (s : Joined) (a b : Conn) : Prop where
  left : View s.a i a
  right : View s.b j b
  there : Hears b a
  back : Hears a b
  shaken : Shaken s.a s.b a b
  short : s.a.accepted.length < 2 ^ 31 ∧ s.b.accepted.length < 2 ^ 31

private theorem may_only (may : e.May p call event) (calls : ∀ event, call event → Only i event) :
    Only i event := by
  cases event with
  | connect | listen => exact calls _ (may.1 rfl).1
  | _ => trivial

private theorem connects_only (call : Connects i event) : Only i event := by
  obtain ⟨_, _, _, rfl⟩ := call
  exact rfl

private theorem listens_only (call : Listens i event) : Only i event := by
  obtain ⟨_, rfl⟩ := call
  exact rfl

private theorem view_begun (begun : Endpoint.Begun i e) : ∃ c, View e i c ∧ c.t.state = .closed ∧
    c.known = false ∧ c.sent = [] ∧ c.rcvd = [] ∧ c.t.rcvCount = 0 ∧ c.t.flags.eof = false := by
  obtain ⟨world, inside, accepted, returned, wire, unopened⟩ := begun
  have found : e.world.set.sock[i]? = some e.world.set.sock[i] := List.getElem?_eq_getElem inside
  generalize e.world.set.sock[i] = t at found
  have lone := lone_begun world found
  obtain ⟨socks, n, base, x, same⟩ := world
  rw [same] at found
  obtain ⟨_, _, _, closed, empty, going⟩ := mnTcpInit_get? found
  refine ⟨_, ⟨lone, accepted.symm, returned.symm, ?_, fun _ => ⟨closed, rfl, rfl, ?_⟩⟩, closed, rfl, rfl,
    rfl, empty, going⟩
  all_goals
    rw [wire]
    simp

theorem sound_begun (begun : Endpoint.Begun i s.a ∧ Endpoint.Begun j s.b) : ∃ a b, Sound i j s a b := by
  obtain ⟨a, left, closed, unknown, _, unread, empty, going⟩ := view_begun begun.1
  obtain ⟨b, right, closed', unknown', _, unread', empty', going'⟩ := view_begun begun.2
  obtain ⟨⟨_, _, accepted, _, wire, _⟩, ⟨_, _, accepted', _, wire', _⟩⟩ := begun
  refine ⟨a, b, left, right, ⟨⟨fun _ => ⟨unread', empty', going'⟩, ?_, fun _ => unknown', ?_⟩, ?_⟩,
    ⟨⟨fun _ => ⟨unread, empty, going⟩, ?_, fun _ => unknown, ?_⟩, ?_⟩,
    ⟨by simp [closed], by simp [closed'], ?_, fun _ => unknown', fun _ => unknown, ?_, ?_,
      Or.inl ?_, fun _ => ?_, fun _ => ?_⟩, by simp [accepted], by simp [accepted']⟩
  · simp [unknown']
  · simp [closed', synchronized]
  · simp [going']
  · simp [unknown]
  · simp [closed, synchronized]
  · simp [going]
  · simp [wire]
  · simp [unknown']
  · simp [closed', synchronized]
  · simp [Silent, wire']
  · simp [Silent, wire']
  · simp [wire]

/-- The caller moves. -/
theorem sound_left (sound : Sound i j s a b) (net : MnNet) (event : Event)
    (may : s.a.May s.b (Connects i) event) (short : (s.a.exec net event).accepted.length < 2 ^ 31) :
    ∃ a', Sound i j { s with a := s.a.exec net event } a' b := by
  obtain ⟨left, right, there, back, shaken, _, short'⟩ := sound
  cases lone_exec left.lone net event (may_only may fun _ => connects_only) with
  | passes none lone sends =>
    exact ⟨a, left.passes net event none lone sends, right, there, back,
      shaken.caller_passes net event sends, short, short'⟩
  | acts op same enabled lone after =>
    obtain ⟨arrives, _, connects, listens⟩ := may_op may same
    have opening : Opens a op → s.a.opened = false ∧ isOpening event = true ∧
        ∃ ip port now, op = .connect ip port now := by
      intro opens
      cases op with
      | connect ip port now =>
        obtain ⟨rfl, unopened⟩ := connects ip port now rfl
        exact ⟨unopened, rfl, ip, port, now, rfl⟩
      | listen port =>
        obtain ⟨rfl, _⟩ := listens port rfl
        obtain ⟨_, _, _, other⟩ := (may.1 rfl).1
        cases other
      | passiveOpen src seg => exact absurd enabled.1 shaken.caller.1
      | _ => exact absurd opens id
    have fresh : Opens a op → a.sent = [] ∧ a.rcvd = [] ∧
        ∀ src seg, (src, seg) ∈ s.a.wire → Mute seg := by
      intro opens
      obtain ⟨_, unknown, unsent, dismissals⟩ := left.unopened (opening opens).1
      exact ⟨unsent, (back.received.unknown unknown).1,
        fun src seg member => (dismissals src seg member).mute⟩
    have view := left.acts may net same enabled lone after fresh
    have back' : Hears (a.exec net op).1 b := by
      refine back.moved left.lone.run net op enabled (by rw [right.sent]; omega) fun seg arrived => ?_
      obtain ⟨src, member⟩ := arrives seg arrived
      have genuine := right.wire src seg member
      refine ⟨genuine, fun _ => Or.inl ?_⟩
      rcases shaken.quiet with silent | linked
      · exact (silent src seg member).carries _ _
      · exact genuine.carries (by rw [right.sent]; omega) linked.2
    refine ⟨_, view, right, there.grows left.lone.run net op enabled fun opens => ?_,
      back', ?_, short, short'⟩
    · have unheard := shaken.uncalled (opening opens).1
      exact ⟨(there.received.unknown unheard).2.2, (fresh opens).1,
        (opens_logs (w := s.a.world) net same opens).1⟩
    · by_cases opens : Opens a op
      · obtain ⟨unopened, call, ip, port, now, rfl⟩ := opening opens
        exact shaken.connects left net unopened after call
      · exact shaken.caller_acts left right back may net same enabled opens after back'

/-- The callee moves. -/
theorem sound_right (sound : Sound i j s a b) (net : MnNet) (event : Event)
    (may : s.b.May s.a (Listens j) event) (short : (s.b.exec net event).accepted.length < 2 ^ 31) :
    ∃ b', Sound i j { s with b := s.b.exec net event } a b' := by
  obtain ⟨left, right, there, back, shaken, short', _⟩ := sound
  cases lone_exec right.lone net event (may_only may fun _ => listens_only) with
  | passes none lone sends =>
    exact ⟨b, left, right.passes net event none lone sends, there, back,
      shaken.callee_passes net event sends, short', short⟩
  | acts op same enabled lone after =>
    obtain ⟨arrives, answers, connects, listens⟩ := may_op may same
    have opening : Opens b op →
      (s.b.opened = false ∧ isOpening event = true ∧ ∃ port, op = .listen port) ∨
        b.t.state = .listen ∧ ∃ src seg, op = .passiveOpen src seg ∧ (src, seg) ∈ s.a.wire := by
      intro opens
      cases op with
      | connect ip port now =>
        obtain ⟨rfl, _⟩ := connects ip port now rfl
        obtain ⟨_, other⟩ := (may.1 rfl).1
        cases other
      | listen port =>
        obtain ⟨rfl, unopened⟩ := listens port rfl
        exact Or.inl ⟨unopened, rfl, port, rfl⟩
      | passiveOpen src seg => exact Or.inr ⟨enabled.1, src, seg, rfl, (answers src seg rfl).1⟩
      | _ => exact absurd opens id
    have fresh : Opens b op → b.sent = [] ∧ b.rcvd = [] ∧
        ∀ src seg, (src, seg) ∈ s.b.wire → Mute seg := by
      intro opens
      rcases opening opens with ⟨unopened, _⟩ | ⟨listening, _⟩
      · obtain ⟨_, unknown, unsent, dismissals⟩ := right.unopened unopened
        exact ⟨unsent, (there.received.unknown unknown).1,
          fun src seg member => (dismissals src seg member).mute⟩
      · obtain ⟨unsent, unread, _⟩ := run_early right.lone.run (Or.inr listening)
        exact ⟨unsent, unread, shaken.waiting (Or.inr listening)⟩
    have view := right.acts may net same enabled lone after fresh
    have there' : Hears (b.exec net op).1 a := by
      refine there.moved right.lone.run net op enabled (by rw [left.sent]; omega) fun seg arrived => ?_
      obtain ⟨src, member⟩ := arrives seg arrived
      have genuine := left.wire src seg member
      refine ⟨genuine, fun past => Or.inl (genuine.carries (by rw [left.sent]; omega) (shaken.irs ?_))⟩
      subst arrived
      refine there.received.learnt ?_
      obtain ⟨open_, idle⟩ := enabled
      revert open_ idle past
      cases b.t.state <;> simp [synchronized]
    refine ⟨_, left, view, there', back.grows right.lone.run net op enabled fun opens => ?_,
      ?_, short', short⟩
    · refine ⟨?_, (fresh opens).1, (opens_logs (w := s.b.world) net same opens).1⟩
      rcases opening opens with ⟨unopened, _⟩ | ⟨listening, _⟩
      · exact (back.received.unknown (shaken.unlistened unopened)).2.2
      · by_contra eof
        have ended := back.ended (by simpa using eof)
        simp [Ended, listening, synchronized] at ended
    · by_cases opens : Opens b op
      · rcases opening opens with ⟨unopened, call, port, rfl⟩ | ⟨_, src, seg, rfl, member⟩
        · exact shaken.listens right net unopened opens after call
        · exact shaken.answers left net enabled member after
      · exact shaken.callee_acts right there may net same enabled opens after

/-- The bytes a host has handed out and those its receive ring holds. -/
def delivered (e : Endpoint) (t : MnTcp) : List UInt8 :=
  e.returned ++ ringRead e.world.x t.xseg t.rcvbuf MN_TCP_RCVBUF t.rcvHead t.rcvCount

theorem Sound.of_run (run : Joined.Run i j s) : ∃ a b, Sound i j s a b := by
  refine Reachable.invariant (motive := fun s => ∃ a b, Sound i j s a b) (fun _ => sound_begun) ?_ run
  rintro s s' _ ⟨a, b, sound⟩ step
  cases step with
  | left net event may short =>
    obtain ⟨a', sound'⟩ := sound_left sound net event may short
    exact ⟨a', b, sound'⟩
  | right net event may short =>
    obtain ⟨b', sound'⟩ := sound_right sound net event may short
    exact ⟨a, b', sound'⟩

theorem Hears.delivers (hears : Hears c d) (view : View e i c) (sender : View p k d)
    (found : e.world.set.sock[i]? = some t) :
    delivered e t <+: p.accepted ∧ (t.flags.eof = true → delivered e t = p.accepted) := by
  obtain rfl : c.t = t := Option.some.inj (view.lone.here.symm.trans found)
  have run := view.lone.run
  have sock := run.socketInv
  have read : ringRead e.world.x c.t.xseg c.t.rcvbuf MN_TCP_RCVBUF c.t.rcvHead c.t.rcvCount =
      rcvWindow c.t c.x c.t.rcvHead.toNat c.t.rcvCount.toNat := by
    rw [← view.lone.x]
    exact XmemRings.ringRead_window (by have := run.placed.fits; rw [rcvbuf_toNat]; omega) sock.rcvHead
      (by have := sock.rcvCount; rw [rcvbuf_toNat]; omega)
  rw [delivered, read, ← view.rcvd, ← sender.sent]
  cases known : c.known with
  | false =>
    obtain ⟨none, empty, going⟩ := hears.received.unknown known
    simp [none, empty, going, rcvWindow]
  | true =>
    have inv := hears.received.known known
    rw [inv.ring]
    refine ⟨List.take_prefix _ _, fun eof => ?_⟩
    rw [inv.ended eof, List.take_length]

/-- Whatever the network does to the segments, and in whatever order calls,
polls and arrivals come, what one application was given and what its ring holds
is the beginning of what the other handed over, and all of it once the end of
the stream is reported. -/
theorem end_to_end_safety (run : Joined.Run i j s) :
    (∀ t, s.b.world.set.sock[j]? = some t → delivered s.b t <+: s.a.accepted ∧
      (t.flags.eof = true → delivered s.b t = s.a.accepted)) ∧
    (∀ t, s.a.world.set.sock[i]? = some t → delivered s.a t <+: s.b.accepted ∧
      (t.flags.eof = true → delivered s.a t = s.b.accepted)) := by
  obtain ⟨a, b, sound⟩ := Sound.of_run run
  exact ⟨fun t found => sound.there.delivers sound.right sound.left found,
    fun t found => sound.back.delivers sound.left sound.right found⟩

/-- The last segment a link took arrives. -/
def newest (e : Endpoint) : Event :=
  match e.wire.getLast? with
  | some (src, seg) => .input src seg
  | none => .poll 0

private theorem newest_may (e p : Endpoint) (call : Event → Prop) : e.May p call (newest p) := by
  unfold newest
  split
  · rename_i src seg last
    refine ⟨fun opening => (nomatch opening), fun src' seg' same => ?_⟩
    cases same
    exact List.mem_of_getLast? last
  · exact ⟨fun opening => (nomatch opening), fun _ _ same => nomatch same⟩

/-- What a host does of itself, past its opening call. -/
theorem own_may (e p : Endpoint) (call : Event → Prop) (event : Event) (past : isOpening event = false)
    (own : ∀ src seg, event ≠ .input src seg) : e.May p call event :=
  ⟨fun opening => by simp [past] at opening, fun src seg same => absurd same (own src seg)⟩

/-- The neighbour's side of the link. -/
def neighbourNet : MnNet :=
  { goodNet with ip := neighbour, arp := ⟨[⟨goodNet.ip, goodNet.nif.mac, true⟩], 0⟩ }

def freshHost : Endpoint := ⟨freshWorld 1, [], [], [], false⟩

theorem freshHost_begun : Endpoint.Begun 0 freshHost :=
  ⟨⟨_, _, _, _, rfl⟩, by decide, rfl, rfl, rfl, rfl⟩

/-- A host listens on port 80, the other connects, and its SYN arrives. -/
def called : Joined :=
  let b := freshHost.exec neighbourNet (.listen 0 80)
  let a := freshHost.exec goodNet (.connect 0 neighbour 80 1)
  ⟨a, b.exec neighbourNet (newest a)⟩

theorem called_run : Joined.Run 0 0 called := by
  have begun : Joined.Run 0 0 ⟨freshHost, freshHost⟩ := .start ⟨freshHost_begun, freshHost_begun⟩
  have listening := begun.next (.right neighbourNet (.listen 0 80)
    ⟨fun _ => ⟨⟨80, rfl⟩, rfl⟩, by simp⟩ (by decide +kernel))
  have calling := listening.next (.left goodNet (.connect 0 neighbour 80 1)
    ⟨fun _ => ⟨⟨neighbour, 80, 1, rfl⟩, rfl⟩, by simp⟩ (by decide +kernel))
  exact calling.next (.right neighbourNet _ (newest_may _ _ _) (by decide +kernel))

/-- The answer arrives, the caller sends three bytes, and they arrive. -/
def greeted : Joined :=
  let a := ((called.a.exec goodNet (newest called.b)).exec goodNet (.send 0 [1, 2, 3] 3 all_three)).exec
    goodNet (.poll 2)
  ⟨a, called.b.exec neighbourNet (newest a)⟩

theorem greeted_run : Joined.Run 0 0 greeted := by
  have answered := called_run.next (.left goodNet _ (newest_may _ _ _) (by decide +kernel))
  have queued := answered.next (.left goodNet (.send 0 [1, 2, 3] 3 all_three)
    (own_may _ _ _ _ rfl (by simp)) (by decide +kernel))
  have polled := queued.next
    (.left goodNet (.poll 2) (own_may _ _ _ _ rfl (by simp)) (by decide +kernel))
  exact polled.next (.right neighbourNet _ (newest_may _ _ _) (by decide +kernel))

theorem end_to_end_safety_greeted : ∃ t, greeted.b.world.set.sock[0]? = some t ∧
    delivered greeted.b t = [1, 2, 3] ∧ [1, 2, 3] <+: greeted.a.accepted := by
  obtain ⟨t, found, held⟩ := socket_where greeted.b.world 0 (fun t => delivered greeted.b t = [1, 2, 3])
    (by decide +kernel)
  have safe := ((end_to_end_safety greeted_run).1 t found).1
  rw [held] at safe
  exact ⟨t, found, held, safe⟩

end MegaNet.TcpEndToEnd
