import MegaNet.ApiBlocks
import MegaNet.ApiRuns
import MegaNet.StackEvents

/-! Two programs on two machines, over the ABI and a network that loses, delays,
duplicates and reorders their frames: what TCP_RECV has put into the memory of one
is the beginning of what TCP_SEND has taken from the memory of the other. -/
namespace MegaNet.ProgramsEndToEnd
open MegaNet.Core Transition AddressSpace XmemRings TcpEmission TcpConnection TcpSetRuns TcpLoneSocket
  TcpEndToEnd TcpIsolation
  ClientCalls UdpSockets Transmissions TcpUnicast SegmentCodec StackEvents
  PoolContents PoolLayout ApiMoves ApiBlocks ApiRuns

/-! ## Machines and the network -/

/-- A machine, with the bytes that calls on one socket have taken and given, and
whether its program has made its one opening call. -/
structure Machine where
  api : Api
  sent : List UInt8
  received : List UInt8
  opened : Bool

/-- Which of the two programs it is. -/
inductive Role where
  | connects
  | listens

/-- The entry that opens the socket, -/
def Role.entry : Role → Entry
  | .connects => .tcpConnect
  | .listens => .tcpListen

/-- and the event that it is. -/
def Role.call (role : Role) (k : Nat) : Event → Prop :=
  match role with
  | .connects => Connects k
  | .listens => Listens k

/-- The bytes that the caller finds taken, by the count in A and X. -/
def took (k : Fin 8) (m : PhysMem) (entry : Entry) (r out : Regs) : List UInt8 :=
  if entry = .tcpSend ∧ r.z.toNat = k then run m (callerPtr m r.argPtr) (word out.a out.x).toNat else []

/-- The bytes that the caller finds in its buffer, by the count in its block. -/
def gave (k : Fin 8) (m after : PhysMem) (entry : Entry) (r : Regs) : List UInt8 :=
  if entry = .tcpRecv ∧ r.z.toNat = k then
    run after (callerPtr m r.argPtr) (callerWord after (r.argPtr + 5)).toNat
  else []

/-- The machine after a call. -/
def Machine.after (h : Machine) (k : Fin 8) (role : Role) (entry : Entry) (r out : Regs)
    (s : Api) : Machine where
  api := s
  sent := h.sent ++ took k h.api.m entry r out
  received := h.received ++ gave k h.api.m s.m entry r
  opened := h.opened || entry == role.entry

/-- The frames that the link of a machine took. -/
def Machine.handed (h : Machine) : List (Frame × Bool) := h.api.net.nif.handed

/-- If the frame brings a segment that some host would take, it is one of those a
link has taken, in whatever frame and with whatever behind it. -/
def Genuine (handed : List (Frame × Bool)) (f : RxFrame) : Prop :=
  ∀ net, Reaches net f → ∃ dstMac srcMac src dst id seg,
    (.tcp dstMac srcMac src dst id seg, true) ∈ handed ∧
    Brings f src dst seg

/-- What a program may call: INIT no more, its opening call once and on its socket,
the others at any time and on any socket, with buffers of its own. What comes over
the network comes from the other's link. -/
structure Fair (role : Role) (k : Fin 8) (h peer : Machine) (entry : Entry) (r : Regs)
    (i : Inputs) : Prop where
  later : entry ≠ .init
  spares : Spares h.api.m r entry
  opening : entry = .tcpConnect ∨ entry = .tcpListen → entry = role.entry ∧
    r.z.toNat = k ∧ h.opened = false
  apart : entry = .tcpRecv →
    Apart (callerPtr h.api.m r.argPtr) (callerWord h.api.m (r.argPtr + 3)).toNat (r.argPtr + 5) 2
  genuine : entry = .poll → ∀ f, i.frame = some f → Genuine peer.handed f

/-- A call, or the program's own writes outside the pool. -/
inductive Machine.Step (h peer : Machine) (role : Role) (k : Fin 8) : Machine → Prop where
  | calls (entry : Entry) (r : Regs) (i : Inputs) {out : Regs} {s : Api}
      (fair : Fair role k h peer entry r i)
      (done : h.api.exec entry r i = some (out, s)) : Step h peer role k (h.after k role entry r out s)
  | stores (m : PhysMem) (away : ∀ a : UInt32, a.toNat ∈ poolArea → m a = h.api.m a) :
      Step h peer role k { h with api := { h.api with m } }

/-- A machine after INIT, its link new. -/
def Machine.Begun (h : Machine) : Prop :=
  Started h.api ∧ h.handed = [] ∧ h.sent = [] ∧ h.received = [] ∧ h.opened = false

structure Machines where
  a : Machine
  b : Machine

/-- Either machine moves, until either program has sent half the sequence space. -/
inductive Machines.Step (i j : Fin 8) (s : Machines) : Machines → Prop where
  | left {h : Machine} (moves : s.a.Step s.b .connects i h) (short : h.sent.length < 2 ^ 31) :
      Step i j s { s with a := h }
  | right {h : Machine} (moves : s.b.Step s.a .listens j h) (short : h.sent.length < 2 ^ 31) :
      Step i j s { s with b := h }

def Machines.Run (i j : Fin 8) : Machines → Prop :=
  Reachable (fun s => s.a.Begun ∧ s.b.Begun) (Machines.Step i j)

/-- TCP_STATE reports the end of the stream, and nothing more to receive. -/
def Machine.Ended (h : Machine) (r : Regs) : Prop :=
  (mnApiTcpState h.api r).1.x &&& 0x01 ≠ 0 ∧
    word (mnApiTcpState h.api r).1.y (mnApiTcpState h.api r).1.z = 0

variable {h h' peer : Machine} {e e' p : Endpoint} {role : Role} {k : Fin 8} {entry : Entry}
  {r out : Regs} {i : Inputs}
  {s s' : Api} {st st' : Stack} {f : RxFrame} {allowed : Act → Prop} {W : Set Nat} {call : Event → Prop}

/-! ## A host that goes along -/

/-- One host goes on, the other standing still. -/
abbrev Goes (peer : Endpoint) (call : Event → Prop) : Endpoint → Endpoint → Prop :=
  Relation.ReflTransGen fun e e' => ∃ net event, e.May peer call event ∧
    (e.exec net event).accepted.length < 2 ^ 31 ∧
    e' = e.exec net event

/-- What a frame that is genuine brings has been on the other's link. -/
theorem genuine_input (follows : Follows p st) (genuine : Genuine st.net.nif.handed f) {net : MnNetFull}
    (reaches : Reaches net f) : (mnIpv4Src (f.bytes.drop 14), segmentIn f) ∈ p.wire := by
  obtain ⟨dstMac, srcMac, src, dst, id, seg, handed, brings⟩ := genuine net reaches
  have there : (src, seg) ∈ p.wire := by
    rw [follows.wire]
    exact List.mem_filterMap.mpr ⟨_, handed, rfl⟩
  rw [brings.source, brings.segment (follows.short src seg there).regular]
  exact there

/-- An event that neither opens a socket nor moves bytes between a program and
one, a segment being one of the other's. -/
def Plain (peer : Endpoint) : Event → Prop
  | .input src seg => (src, seg) ∈ peer.wire
  | .close _ | .abort _ | .poll _ => True
  | .connect .. | .listen .. | .send .. | .sendX .. | .recv .. | .recvX .. => False

private theorem plain_may {event : Event} (plain : Plain p event) : e.May p call event := by
  refine ⟨fun opening => ?_, fun src seg same => ?_⟩
  · cases event with
    | connect | listen => exact absurd plain id
    | _ => cases opening
  · cases same
    exact plain

private theorem plain_exec {event : Event} (plain : Plain p event) (net : MnNet) :
    (e.exec net event).accepted = e.accepted ∧ (e.exec net event).returned = e.returned ∧
      (e.exec net event).opened = e.opened := by
  cases event with
  | input | close | abort | poll =>
    exact ⟨List.append_nil _, List.append_nil _, Bool.or_false _⟩
  | connect | listen | send | sendX | recv | recvX => exact absurd plain id

/-- The host is where the stack is, and so are its records. -/
structure Keeps (h : Machine) (e : Endpoint) : Prop where
  standing : Standing h.api
  follows : Follows e h.api.stack
  sent : e.accepted = h.sent
  received : e.returned = h.received
  opened : e.opened = h.opened

/-- Moves whose acts are plain events or none at all. -/
theorem moves_follow (call : Event → Prop) (layout : Layout st) (order : Orderly st)
    (follows : Follows e st)
    (apart : ∀ a ∈ W, a ∉ poolArea)
    (plain : ∀ act, allowed act → ∀ st event, Does st act event → Plain p event)
    (short : e.accepted.length < 2 ^ 31) (moves : Moves allowed W st st') :
    ∃ e', Goes p call e e' ∧ Follows e' st' ∧ e'.accepted = e.accepted ∧ e'.returned = e.returned ∧
      e'.opened = e.opened := by
  have all : Layout st' ∧ Orderly st' ∧ ∃ e', Goes p call e e' ∧ Follows e' st' ∧
    e'.accepted = e.accepted ∧
      e'.returned = e.returned ∧ e'.opened = e.opened := by
    induction moves with
    | refl => exact ⟨layout, order, e, .refl, follows, rfl, rfl, rfl⟩
    | @tail st₁ st₂ _ move ih =>
      obtain ⟨layout, order, e₁, path, follows, accepted, returned, opened⟩ := ih
      cases move with
      | acts act may =>
        refine ⟨(act_confined layout order act).layout, exec_orderly order act, ?_⟩
        rcases act_cases layout act with ⟨event, does⟩ | passes
        · have calm := plain act may st₁ event does
          obtain ⟨sent, received, first⟩ := plain_exec (e := e₁) calm st₁.net.toMnNet
          refine ⟨_, path.tail ⟨st₁.net.toMnNet, event, plain_may calm, ?_, rfl⟩,
            follows.does layout order does,
            sent.trans accepted, received.trans returned, first.trans opened⟩
          rw [sent, accepted]
          exact short
        · exact ⟨e₁, path, follows.passes order passes, accepted, returned, opened⟩
      | copies x within =>
        have away : Set.EqOn x st₁.x poolArea := fun a inside => within a fun here => apart a here inside
        have rings : Set.EqOn x st₁.x ringArea :=
          away.mono fun a inside => Set.mem_Ico.mpr ⟨inside.1, Nat.lt_of_lt_of_le inside.2 (by decide)⟩
        exact ⟨⟨layout.tcp, layout.udp⟩, orderly_level layout order ⟨rfl, rfl, away.symm⟩, e₁, path,
          follows.copies rings, accepted, returned, opened⟩
  exact all.2.2

/-! ## Calls -/

/-- The acts of an entry that is not about one socket's bytes are plain. -/
theorem allowed_plain (follows : Follows p st)
    (genuine : entry = .poll → ∀ f, i.frame = some f → Genuine st.net.nif.handed f)
    (calm : entry ≠ .tcpConnect ∧ entry ≠ .tcpListen ∧ entry ≠ .tcpSend ∧ entry ≠ .tcpRecv) (act : Act)
    (may : Allowed s r i entry act) (st' : Stack) (event : Event) (does : Does st' act event) :
      Plain p event := by
  have asked (asks : Asks act) : Plain p event := by
    cases does with
    | calls | hears => exact absurd asks id
  cases entry with
  | poll =>
    rcases may with rfl | asks | ⟨now, rfl⟩
    · generalize came : i.frame = frame at does
      cases does with
      | hears f reaches => exact genuine_input follows (genuine rfl f came) reaches
    · exact asked asks
    · cases does
      trivial
  | dhcpStart | dnsStart | ntpStart => exact asked may
  | setIp | setLocalIp4 =>
    obtain ⟨_, _, _, rfl⟩ := may
    cases does
  | tcpClose | tcpAbort =>
    cases may
    cases does
    trivial
  | udpOpen | udpClose =>
    cases may
    cases does
  | udpSend =>
    obtain ⟨_, _, _, _, _, rfl⟩ := may
    cases does
  | udpRecv =>
    obtain ⟨_, rfl⟩ := may
    cases does
  | tcpConnect => exact absurd rfl calm.1
  | tcpListen => exact absurd rfl calm.2.1
  | tcpSend => exact absurd rfl calm.2.2.1
  | tcpRecv => exact absurd rfl calm.2.2.2
  | _ => exact absurd may id

theorem Keeps.set (keeps : Keeps h e) : e.world.set = h.api.tcpset :=
  (Option.some.inj keeps.follows.world.set).symm

/-- The program's socket is there. -/
theorem Keeps.socket (keeps : Keeps h e) (here : r.z.toNat = k) : ∃ t, h.api.sockZ r = some t := by
  obtain ⟨set, attached, length, _⟩ := keeps.standing.shadowed.parts.1.tcp
  obtain rfl : h.api.tcpset = set := Option.some.inj attached
  refine ⟨_, List.getElem?_eq_getElem ?_⟩
  rw [length, here]
  exact k.isLt

/-- A call that is one event of the sockets. -/
theorem Keeps.event (keeps : Keeps h e) (event : Event)
    (same : s.stack = exec h.api.stack (.tcp event)) :
    Follows (e.exec h.api.net.toMnNet event) s.stack := by
  obtain ⟨layout, order⟩ := keeps.standing.shadowed.parts
  rw [same]
  exact keeps.follows.does layout order (.calls event)

/-- The opening call. -/
theorem opening_keeps (keeps : Keeps h e) (standing : Standing s) {event : Event}
    (opening : isOpening event = true)
    (calls : role.call k event) (first : h.opened = false) (entry_ : entry = role.entry)
    (untimed : entry = .tcpConnect ∨ entry = .tcpListen) (same : s.stack = exec h.api.stack (.tcp event))
    (short : h.sent.length < 2 ^ 31) :
    ∃ e', Goes p (role.call k) e e' ∧ Keeps (h.after k role entry r out s) e' := by
  have logs : accepts e.world event = [] ∧ returns e.world event = [] := by
    cases event with
    | connect | listen => exact ⟨rfl, rfl⟩
    | _ => cases opening
  have moved : took k h.api.m entry r out = [] ∧ gave k h.api.m s.m entry r = [] := by
    rcases untimed with rfl | rfl <;> exact ⟨rfl, rfl⟩
  refine ⟨_,
    .single ⟨h.api.net.toMnNet, event, ⟨fun _ => ⟨calls, keeps.opened.trans first⟩, ?_⟩, ?_, rfl⟩,
    standing, keeps.event event same, ?_, ?_, ?_⟩
  · rintro src seg rfl
    cases opening
  · rw [Endpoint.exec, logs.1, List.append_nil, keeps.sent]
    exact short
  · rw [Endpoint.exec, logs.1, Machine.after, moved.1, keeps.sent]
  · rw [Endpoint.exec, logs.2, Machine.after, moved.2, keeps.received]
  · rw [Endpoint.exec, opening, Machine.after, entry_]
    simp

/-- TCP_SEND: what the caller finds taken is what the socket has taken over. -/
theorem send_keeps {c : Conn} (keeps : Keeps h e) (lone : Lone e.world k c)
    (spares : Spares h.api.m r .tcpSend)
    (done : h.api.exec .tcpSend r i = some (out, s)) (standing : Standing s)
    (short : (h.after k role .tcpSend r out s).sent.length < 2 ^ 31) :
    ∃ e', Goes p (role.call k) e e' ∧ Keeps (h.after k role .tcpSend r out s) e' := by
  obtain ⟨layout, order⟩ := keeps.standing.shadowed.parts
  have call_ : mnApiTcpSend h.api r = (out, s) := Option.some.inj done
  have calm : (Entry.tcpSend == role.entry) = false := by cases role <;> rfl
  cases found : h.api.sockZ r with
  | none =>
    have elsewhere : r.z.toNat ≠ k := fun here => by
      obtain ⟨t, there⟩ := keeps.socket here
      rw [found] at there
      cases there
    have still : s = h.api := by
      rw [mnApiTcpSend, found] at call_
      exact (congrArg Prod.snd call_).symm
    refine ⟨e, .refl, standing, by rw [Machine.after, still]; exact keeps.follows, ?_, ?_, ?_⟩
    · rw [Machine.after, took, if_neg fun both => elsewhere both.2, List.append_nil, keeps.sent]
    · rw [Machine.after, gave, if_neg (by simp), List.append_nil, keeps.received]
    · rw [Machine.after, calm, Bool.or_false, keeps.opened]
  | some t =>
    obtain ⟨same, answer_⟩ := tcpSend_stack layout order spares found
    rw [call_] at same answer_
    have taken_ : accepts e.world (.sendX r.z.toNat h.api.m (callerPtr h.api.m r.argPtr)
        (callerWord h.api.m (r.argPtr + 3))) = took k h.api.m .tcpSend r out := by
      by_cases here : r.z.toNat = k
      · have socket : e.world.set.sock[r.z.toNat]? = some t := by
          rw [keeps.set]
          exact found
        rw [took, if_pos ⟨rfl, here⟩, show out = _ from answer_, word_bytes16]
        simp only [accepts, socket, Option.map_some, Option.getD_some, sendX_count]
        rfl
      · have passes : opOf k c.t (.sendX r.z.toNat h.api.m (callerPtr h.api.m r.argPtr)
            (callerWord h.api.m (r.argPtr + 3))) = none := if_neg here
        rw [took, if_neg fun both => here both.2]
        exact (passes_logs lone passes).1
    have counted_ : (e.exec h.api.net.toMnNet (.sendX r.z.toNat h.api.m (callerPtr h.api.m r.argPtr)
        (callerWord h.api.m (r.argPtr + 3)))).accepted =
        (h.after k role .tcpSend r out s).sent := by
      rw [Endpoint.exec, taken_, Machine.after, keeps.sent]
    refine ⟨_, .single ⟨h.api.net.toMnNet, _, own_may _ _ _ _ rfl (by simp), ?_, rfl⟩,
      standing, keeps.event _ same,
      counted_, ?_, ?_⟩
    · rw [counted_]
      exact short
    · rw [Machine.after, gave, if_neg (by simp), List.append_nil, ← keeps.received]
      exact List.append_nil _
    · rw [Machine.after, calm, Bool.or_false, ← keeps.opened]
      exact Bool.or_false _

/-- The bytes of a receive are those of the ring. -/
theorem recv_mirrored {w : World} {set : MnTcpSet} {t : MnTcp} (mirrors : Mirrors w st)
    (layout : Layout st)
    (order : Orderly st) (attached : st.tcp = some set) (member : t ∈ set.sock) (cap : UInt16) :
    mnTcpRecv t w.x cap = mnTcpRecv t st.x cap := by
  obtain ⟨k, found⟩ := List.mem_iff_getElem?.mp member
  obtain ⟨c, sees⟩ := (order.tcp set attached).1.seen k t found
  have straight := DmaPaths.recv_straight sees.run cap
  rw [sees.t] at straight
  have ring : Set.EqOn w.x st.x
      (Set.Ico (xaddr t.xseg t.rcvbuf) (xaddr t.xseg t.rcvbuf + MN_TCP_RCVBUF.toNat)) :=
    mirrors.pool.symm.mono (Layout.inRings layout order attached member).1
  unfold mnTcpRecv
  dsimp only
  rw [ringRead_same straight ring]

/-- TCP_RECV: what the caller finds in its buffer is what the socket has handed out. -/
theorem recv_keeps {c : Conn} (keeps : Keeps h e) (lone : Lone e.world k c)
    (spares : Spares h.api.m r .tcpRecv)
    (apart : Apart (callerPtr h.api.m r.argPtr) (callerWord h.api.m (r.argPtr + 3)).toNat
      (r.argPtr + 5) 2)
    (done : h.api.exec .tcpRecv r i = some (out, s)) (standing : Standing s)
    (short : h.sent.length < 2 ^ 31) :
    ∃ e', Goes p (role.call k) e e' ∧ Keeps (h.after k role .tcpRecv r out s) e' := by
  obtain ⟨layout, order⟩ := keeps.standing.shadowed.parts
  have call_ : mnApiTcpRecv h.api r = (out, s) := Option.some.inj done
  have calm : (Entry.tcpRecv == role.entry) = false := by cases role <;> rfl
  cases found : h.api.sockZ r with
  | none =>
    have elsewhere : r.z.toNat ≠ k := fun here => by
      obtain ⟨t, there⟩ := keeps.socket here
      rw [found] at there
      cases there
    have still : s = h.api := by
      rw [mnApiTcpRecv, onSockZ, found] at call_
      exact (congrArg Prod.snd call_).symm
    refine ⟨e, .refl, standing, by rw [Machine.after, still]; exact keeps.follows, ?_, ?_, ?_⟩
    · rw [Machine.after, took, if_neg (by simp), List.append_nil, keeps.sent]
    · rw [Machine.after, gave, if_neg fun both => elsewhere both.2, List.append_nil, keeps.received]
    · rw [Machine.after, calm, Bool.or_false, keeps.opened]
  | some t =>
    obtain ⟨n, m', few, bytes, elsewhere, after⟩ := tcpRecv_takes layout order spares found
    rw [call_] at after
    have memory : s.m = put m' (r.argPtr + 5) (bytes16 n) := by
      rw [show s = _ from after]
      exact writeBack_fill _ (fetch_long _ _ 5) rfl
    have event_ := keeps.event (s := { s with m := h.api.m })
      (.recv r.z.toNat (callerWord h.api.m (r.argPtr + 3)))
        (by rw [tcp_act found rfl, show s = _ from after]; rfl)
    have away : Set.EqOn (linear s.m) (linear h.api.m) ringArea := by
      intro a inside
      rw [memory]
      refine copies_twice m' (show (_, _) ∈ writes h.api.m r .tcpRecv from List.mem_cons_self)
        (List.mem_cons_of_mem _ List.mem_cons_self) (show (bytes16 n).length ≤ 2 from Nat.le_refl 2)
        (fun b outside => elsewhere b fun j below => outside j (by omega)) a fun here => ?_
      exact spared spares a here (Set.mem_Ico.mpr ⟨inside.1, Nat.lt_of_lt_of_le inside.2 (by decide)⟩)
    have given : returns e.world (.recv r.z.toNat (callerWord h.api.m (r.argPtr + 3))) =
        gave k h.api.m s.m .tcpRecv r := by
      by_cases here : r.z.toNat = k
      · have socket : e.world.set.sock[r.z.toNat]? = some t := by
          rw [keeps.set]
          exact found
        have part : Apart (callerPtr h.api.m r.argPtr) n.toNat (r.argPtr + 5) (bytes16 n).length :=
          apart.shorter few
        rw [gave, if_pos ⟨rfl, here⟩, memory, callerWord_put, run_put_apart part, bytes]
        simp only [returns, socket, Option.map_some, Option.getD_some]
        exact congrArg Prod.fst (recv_mirrored keeps.follows.world layout order
          (show h.api.stack.tcp = some h.api.tcpset from rfl)
          (List.mem_of_getElem? found) _)
      · have passes : opOf k c.t (.recv r.z.toNat (callerWord h.api.m (r.argPtr + 3))) = none :=
          if_neg here
        rw [gave, if_neg fun both => here both.2]
        exact (passes_logs lone passes).2
    refine ⟨_, .single ⟨h.api.net.toMnNet, _, own_may _ _ _ _ rfl (by simp), ?_, rfl⟩,
      standing, event_.copies away,
      ?_, ?_, ?_⟩
    · rw [Endpoint.exec, keeps.sent]
      exact (congrArg List.length (List.append_nil _)).trans_lt short
    · rw [Machine.after, took, if_neg (by simp), List.append_nil, ← keeps.sent]
      exact List.append_nil _
    · rw [Endpoint.exec, given, Machine.after, keeps.received]
    · rw [Machine.after, calm, Bool.or_false, ← keeps.opened]
      exact Bool.or_false _

/-- Every call. -/
theorem call_keeps {c : Conn} (keeps : Keeps h e) (follows : Follows p peer.api.stack)
    (lone : Lone e.world k c)
    (fair : Fair role k h peer entry r i) (done : h.api.exec entry r i = some (out, s))
    (short : h.sent.length < 2 ^ 31) (short' : (h.after k role entry r out s).sent.length < 2 ^ 31) :
    ∃ e', Goes p (role.call k) e e' ∧ Keeps (h.after k role entry r out s) e' := by
  have standing := exec_standing keeps.standing fair.spares done
  by_cases send : entry = .tcpSend
  · subst send
    exact send_keeps keeps lone fair.spares done standing short'
  by_cases recv : entry = .tcpRecv
  · subst recv
    exact recv_keeps keeps lone fair.spares (fair.apart rfl) done standing short
  by_cases connect : entry = .tcpConnect
  · obtain ⟨entry_, here, first⟩ := fair.opening (Or.inl connect)
    subst connect
    obtain ⟨t, found⟩ := keeps.socket here
    have same := tcpConnect_stack (i := i) found
    rw [show mnApiTcpConnect h.api r i = (out, s) from Option.some.inj done, here] at same
    obtain rfl : role = .connects := by cases role <;> first | rfl | cases entry_
    exact opening_keeps keeps standing rfl ⟨_, _, _, rfl⟩ first entry_ (Or.inl rfl) same short
  by_cases listen : entry = .tcpListen
  · obtain ⟨entry_, here, first⟩ := fair.opening (Or.inr listen)
    subst listen
    obtain ⟨t, found⟩ := keeps.socket here
    have same := tcpListen_stack found
    rw [show mnApiTcpListen h.api r = (out, s) from Option.some.inj done, here] at same
    obtain rfl : role = .listens := by cases role <;> first | rfl | cases entry_
    exact opening_keeps keeps standing rfl ⟨_, rfl⟩ first entry_ (Or.inr rfl) same short
  obtain ⟨layout, order⟩ := keeps.standing.shadowed.parts
  have moves := exec_moves layout order keeps.standing.named fair.spares fair.later done
  obtain ⟨e', path, follows', sent, received, opened⟩ :=
    moves_follow (role.call k) layout order keeps.follows
    (spared fair.spares) (fun act may st event => allowed_plain follows fair.genuine
      ⟨connect, listen, send, recv⟩ act may st event)
    (by rw [keeps.sent]; exact short) moves
  have other : (entry == role.entry) = false := by cases role <;> simp [Role.entry, connect, listen]
  refine ⟨e', path, standing, follows', ?_, ?_, ?_⟩
  · rw [sent, keeps.sent, Machine.after, took, if_neg fun both => send both.1, List.append_nil]
  · rw [received, keeps.received, Machine.after, gave, if_neg fun both => recv both.1, List.append_nil]
  · rw [opened, keeps.opened, Machine.after, other, Bool.or_false]

/-- Every step of a machine is matched by the host that goes along. -/
theorem step_keeps {c : Conn} (keeps : Keeps h e) (follows : Follows p peer.api.stack)
    (lone : Lone e.world k c)
    (step : h.Step peer role k h') (short : h.sent.length < 2 ^ 31) (short' : h'.sent.length < 2 ^ 31) :
    ∃ e', Goes p (role.call k) e e' ∧ Keeps h' e' := by
  cases step with
  | calls entry r i fair done => exact call_keeps keeps follows lone fair done short short'
  | stores m away =>
    have rings : Set.EqOn (linear m) (linear h.api.m) ringArea := fun a inside =>
      ((stores_level away).pool
        (Set.mem_Ico.mpr ⟨inside.1, Nat.lt_of_lt_of_le inside.2 (by decide)⟩)).symm
    exact ⟨e, .refl, stores_standing keeps.standing away, keeps.follows.copies rings, keeps.sent,
      keeps.received, keeps.opened⟩

/-! ## Whole runs -/

variable {m : Machines} {a b : Endpoint} {i' j : Fin 8}

/-- The two hosts that go along. -/
structure Matched (i j : Fin 8) (m : Machines) (a b : Endpoint) : Prop where
  run : Joined.Run i j ⟨a, b⟩
  left : Keeps m.a a
  right : Keeps m.b b
  short : m.a.sent.length < 2 ^ 31 ∧ m.b.sent.length < 2 ^ 31

private theorem goes_left {a' : Endpoint} {i j : Nat} (run : Joined.Run i j ⟨a, b⟩)
    (goes : Goes b (Connects i) a a') : Joined.Run i j ⟨a', b⟩ :=
  Reachable.along (fun a : Endpoint => (⟨a, b⟩ : Joined)) run goes
    fun _ _ ⟨net, event, may, short, same⟩ => same ▸ .left net event may short

private theorem goes_right {b' : Endpoint} {i j : Nat} (run : Joined.Run i j ⟨a, b⟩)
    (goes : Goes a (Listens j) b b') : Joined.Run i j ⟨a, b'⟩ :=
  Reachable.along (fun b : Endpoint => (⟨a, b⟩ : Joined)) run goes
    fun _ _ ⟨net, event, may, short, same⟩ => same ▸ .right net event may short

/-- A host that begins with the machine. -/
theorem begun_keeps (begun : h.Begun) (k : Fin 8) : ∃ e, Endpoint.Begun k e ∧ Keeps h e := by
  obtain ⟨⟨before, i, same⟩, unheard, unsent, unread, unopened⟩ := begun
  have standing : Standing h.api := by
    rw [same]
    exact ⟨init_shadowed before i, nofun⟩
  have length : (mnTcpInit
      (List.replicate MN_ABI_TCP_SOCKETS.toNat zeroedTcp) MN_ABI_TCP_SOCKETS POOL_BANK5).sock.length =
        8 :=
    (mnTcpInit_length _ _ _).1
  have set : h.api.tcpset = mnTcpInit
      (List.replicate MN_ABI_TCP_SOCKETS.toNat zeroedTcp) MN_ABI_TCP_SOCKETS POOL_BANK5 := by
    rw [same]
    rfl
  refine ⟨⟨⟨h.api.tcpset, linear h.api.m⟩, [], [], [], false⟩,
    ⟨⟨_, _, _, _, by rw [set]⟩, ?_, rfl, rfl, rfl, rfl⟩, standing,
    ⟨⟨rfl, fun _ _ => rfl⟩, ?_, by simp⟩, unsent.symm, unread.symm, unopened.symm⟩
  · show (k : Nat) < h.api.tcpset.sock.length
    rw [set, length]
    exact k.isLt
  · have none_ : h.api.stack.net.nif.handed = [] := unheard
    rw [none_]
    rfl

theorem matched_begun (begun : m.a.Begun ∧ m.b.Begun) : ∃ a b, Matched i' j m a b := by
  obtain ⟨a, begun_a, left⟩ := begun_keeps begun.1 i'
  obtain ⟨b, begun_b, right⟩ := begun_keeps begun.2 j
  refine ⟨a, b, .start ⟨begun_a, begun_b⟩, left, right, ?_, ?_⟩
  · rw [begun.1.2.2.1]
    decide
  · rw [begun.2.2.2.1]
    decide

private theorem matched_step {m' : Machines} (matched : Matched i' j m a b)
    (step : Machines.Step i' j m m') :
    ∃ a b, Matched i' j m' a b := by
  obtain ⟨run, left, right, short⟩ := matched
  obtain ⟨c, d, sound⟩ := Sound.of_run run
  cases step with
  | left moves short' =>
    obtain ⟨a', goes, left'⟩ := step_keeps left right.follows sound.left.lone moves short.1 short'
    exact ⟨a', b, goes_left run goes, left', right, short', short.2⟩
  | right moves short' =>
    obtain ⟨b', goes, right'⟩ := step_keeps right left.follows sound.right.lone moves short.2 short'
    exact ⟨a, b', goes_right run goes, left, right', short.1, short'⟩

theorem run_matched (run : Machines.Run i' j m) : ∃ a b, Matched i' j m a b := by
  refine Reachable.invariant (motive := fun m => ∃ a b, Matched i' j m a b)
    (fun _ => matched_begun) ?_ run
  rintro m m' _ ⟨a, b, matched⟩ step
  exact matched_step matched step

section
variable {dstMac srcMac : Mac} {src dst : Ip4} {proto : UInt8} {id type : UInt16}
  {payload rest : List UInt8}

private theorem ether_type : mnEtherType (mnEtherBuild dstMac srcMac type ++ rest) = type :=
  Checksums.get16_put16 type []

private theorem ipv4Frame_proto : mnIpv4Proto
    ((ipv4Frame dstMac srcMac src dst proto id payload ++ rest).drop 14) = proto := rfl

end

/-- What a link took is genuine, whatever follows it. -/
theorem taken_genuine {handed : List (Frame × Bool)} {frame : Frame} {pad : List UInt8}
    (there : (frame, true) ∈ handed)
    (short : ∀ seg, segmentOf frame = some seg → Short seg) (bytes : f.bytes = frame.bytes ++ pad) :
    Genuine handed f := by
  intro net reaches
  have type := reaches.type
  have proto := reaches.proto
  rw [bytes] at type proto
  cases frame with
  | tcp dstMac srcMac src dst id seg =>
    exact ⟨dstMac, srcMac, src, dst, id, seg, there, frame_brings (short seg rfl) bytes⟩
  | arpRequest =>
    rw [Frame.bytes, mnArpBuildRequest, List.append_assoc, List.append_assoc, ether_type] at type
    cases type
  | arpReply =>
    rw [Frame.bytes, mnArpBuildReply, List.append_assoc, List.append_assoc, ether_type] at type
    cases type
  | udp =>
    rw [Frame.bytes, ipv4Frame_proto] at proto
    cases proto
  | echoReply =>
    rw [Frame.bytes, ipv4Frame_proto] at proto
    cases proto

/-- So what either machine's link took may arrive at the other. -/
theorem Keeps.genuine {frame : Frame} {pad : List UInt8} (keeps : Keeps h e)
    (there : (frame, true) ∈ h.handed)
    (bytes : f.bytes = frame.bytes ++ pad) : Genuine h.handed f := by
  refine taken_genuine there (fun seg carries => ?_) bytes
  cases frame with
  | tcp dstMac srcMac src dst id seg' =>
    cases carries
    refine keeps.follows.short src seg ?_
    rw [keeps.follows.wire]
    exact List.mem_filterMap.mpr ⟨_, there, rfl⟩
  | _ => cases carries

/-- The last frame a machine's link took, as it arrives. -/
def Machine.newest (h : Machine) : Option RxFrame :=
  h.handed.getLast?.bind fun entry =>
    if taken : entry.2 = true ∧ entry.1.bytes.length ≤ 1518 then some ⟨entry.1.bytes, taken.2⟩ else none

theorem newest_genuine (keeps : Keeps h e) (last : h.newest = some f) : Genuine h.handed f := by
  obtain ⟨⟨frame, queued⟩, newest, arrives⟩ := Option.bind_eq_some_iff.mp last
  split at arrives
  · rename_i taken
    cases arrives
    obtain rfl : queued = true := taken.1
    exact keeps.genuine (List.mem_of_getLast? newest) (List.append_nil _).symm
  · cases arrives

/-- A poll of a machine. -/
def Machine.polls (h : Machine) (k : Fin 8) (role : Role) (frame : Option RxFrame) : Machine :=
  h.after k role .poll ⟨0, 0, 0, 0⟩ (mnApiPoll h.api { quietLink with frame }).1
    (mnApiPoll h.api { quietLink with frame }).2

theorem fair_call {i : Inputs} (later : entry ≠ .init ∧ entry ≠ .tcpRecv ∧ entry ≠ .poll)
    (none_ : writes h.api.m r entry = [] ∧ lends h.api.m r entry = [])
    (opening : entry = .tcpConnect ∨ entry = .tcpListen → entry = role.entry ∧
      r.z.toNat = k ∧ h.opened = false) :
    Fair role k h peer entry r i :=
  ⟨later.1, spares_nothing none_, opening, fun same => absurd same later.2.1,
    fun same => absurd same later.2.2⟩

/-- A poll with nothing to hear, or with the last frame of the other. -/
theorem poll_step {frame : Option RxFrame} (other : Keeps peer p)
    (from_ : frame = none ∨ frame = peer.newest) :
    h.Step peer role k (h.polls k role frame) := by
  refine .calls .poll ⟨0, 0, 0, 0⟩ { quietLink with frame }
    ⟨by decide, spares_nothing ⟨rfl, rfl⟩, by simp, nofun, ?_⟩ rfl
  rintro _ f same
  obtain rfl | rfl := from_
  · cases same
  · exact newest_genuine other same

/-- The listener polls, and then the caller, each with the last frame of the other. -/
def Machines.exchange (m : Machines) : Machines :=
  let b := m.b.polls 0 .listens m.a.newest
  ⟨m.a.polls 0 .connects b.newest, b⟩

private theorem polls_sent (h : Machine) (role : Role) (frame : Option RxFrame) :
    (h.polls 0 role frame).sent = h.sent :=
  List.append_nil h.sent

theorem tick_run (run : Machines.Run 0 0 m) : Machines.Run 0 0
    { m with a := m.a.polls 0 .connects none } := by
  obtain ⟨a, b, matched⟩ := run_matched run
  refine run.next (.left (poll_step matched.right (Or.inl rfl)) ?_)
  rw [polls_sent]
  exact matched.short.1

theorem exchange_run (run : Machines.Run 0 0 m) : Machines.Run 0 0 m.exchange := by
  obtain ⟨a, b, matched⟩ := run_matched run
  have heard : Machines.Run 0 0 { m with b := m.b.polls 0 .listens m.a.newest } := by
    refine run.next (.right (poll_step matched.left (Or.inr rfl)) ?_)
    rw [polls_sent]
    exact matched.short.2
  obtain ⟨a, b, matched'⟩ := run_matched heard
  refine heard.next (.left (poll_step matched'.right (Or.inr rfl)) ?_)
  rw [polls_sent]
  exact matched.short.1

/-- A machine with a program's blocks in its memory. -/
def machine (m : PhysMem) (mac : Mac) : Machine :=
  ⟨(mnApiInit { bare with m } { quietLink with mac }).2, [], [], false⟩

/-- A block to connect to port 80 of 10.0.0.2, one to send, and what there is to send. -/
def callerMemory : PhysMem :=
  put (put (put (fun _ => 0) 0x1600 [10, 0, 0, 2, 80, 0]) 0x1610 [0, 0x17, 0, 3, 0]) 0x1700 [7, 8, 9]

/-- A block to receive. -/
def calleeMemory : PhysMem := put (fun _ => 0) 0x1600 [0, 0x17, 0, 100, 0]

/-- A call of a machine's program. -/
def Machine.calls (h : Machine) (role : Role) (entry : Entry) (r : Regs)
    (answer : Regs × Api) : Machine :=
  h.after 0 role entry r answer.1 answer.2

/-- Two machines with their addresses. -/
def addressed : Machines :=
  let a := machine callerMemory ⟨2, 0, 0, 0, 0, 1⟩
  let b := machine calleeMemory ⟨2, 0, 0, 0, 0, 2⟩
  ⟨a.calls .connects .setLocalIp4 ⟨10, 0, 0, 1⟩ (mnApiSetLocalIp4 a.api ⟨10, 0, 0, 1⟩),
    b.calls .listens .setLocalIp4 ⟨10, 0, 0, 2⟩ (mnApiSetLocalIp4 b.api ⟨10, 0, 0, 2⟩)⟩

/-- One listens, -/
def listening : Machines :=
  { addressed with
    b := addressed.b.calls .listens .tcpListen ⟨80, 0, 0, 0⟩
      (mnApiTcpListen addressed.b.api ⟨80, 0, 0, 0⟩) }

/-- and the other connects. -/
def calling : Machines :=
  { listening with
    a := listening.a.calls .connects .tcpConnect ⟨0, 0x16, 0, 0⟩
      (mnApiTcpConnect listening.a.api ⟨0, 0x16, 0, 0⟩ quietLink) }

theorem calling_run : Machines.Run 0 0 calling := by
  have begun (m : PhysMem) (mac : Mac) : Machine.Begun (machine m mac) :=
    ⟨⟨_, _, rfl⟩, rfl, rfl, rfl, rfl⟩
  have start : Machines.Run 0 0
      ⟨machine callerMemory ⟨2, 0, 0, 0, 0, 1⟩, machine calleeMemory ⟨2, 0, 0, 0, 0, 2⟩⟩ :=
    .start ⟨begun _ _, begun _ _⟩
  have named := start.next (.left (.calls .setLocalIp4 ⟨10, 0, 0, 1⟩ quietLink
    (fair_call ⟨by decide, by decide, by decide⟩ ⟨rfl, rfl⟩ (by simp)) rfl) (by decide))
  have named' : Machines.Run 0 0 addressed :=
    named.next (.right (.calls .setLocalIp4 ⟨10, 0, 0, 2⟩ quietLink
    (fair_call ⟨by decide, by decide, by decide⟩ ⟨rfl, rfl⟩ (by simp)) rfl) (by decide))
  have listens : Machines.Run 0 0 listening :=
    named'.next (.right (.calls .tcpListen ⟨80, 0, 0, 0⟩ quietLink
    (fair_call ⟨by decide, by decide, by decide⟩ ⟨rfl, rfl⟩ fun _ => ⟨rfl, rfl, rfl⟩) rfl) (by decide))
  exact listens.next (.left (.calls .tcpConnect ⟨0, 0x16, 0, 0⟩ quietLink
    (fair_call ⟨by decide, by decide, by decide⟩ ⟨rfl, rfl⟩ fun _ => ⟨rfl, rfl, rfl⟩) rfl) (by decide))

/-- Who has 10.0.0.2, and the handshake. -/
def joined : Machines := calling.exchange.exchange

theorem joined_run : Machines.Run 0 0 joined := exchange_run (exchange_run calling_run)

private theorem joined_block : callerPtr joined.a.api.m 0x1610 = 0x1700 ∧
    callerWord joined.a.api.m 0x1613 = 3 := by
  decide +kernel

private theorem send_done (s : Api) (r : Regs) (i : Inputs) :
    s.exec .tcpSend r i = some ((mnApiTcpSend s r).1, (mnApiTcpSend s r).2) := rfl

/-- The caller sends three bytes, -/
def sending : Machines :=
  { joined with
    a := joined.a.calls .connects .tcpSend ⟨0x10, 0x16, 0, 0⟩
      (mnApiTcpSend joined.a.api ⟨0x10, 0x16, 0, 0⟩) }

theorem sending_run : Machines.Run 0 0 sending := by
  obtain ⟨ptr, len⟩ := joined_block
  have spares : Spares joined.a.api.m ⟨0x10, 0x16, 0, 0⟩ .tcpSend := by
    rintro a ⟨range, listed, k, below, rfl⟩ inside
    obtain rfl : range = (callerPtr joined.a.api.m 0x1610, (callerWord joined.a.api.m 0x1613).toNat) :=
      List.mem_singleton.mp listed
    dsimp only at below inside
    rw [len, show UInt16.toNat 3 = 3 from rfl] at below
    rw [ptr, UInt32.toNat_add, UInt32.toNat_ofNat', show UInt32.toNat 0x1700 = 0x1700 from rfl] at inside
    have low := inside.1
    omega
  have short : sending.a.sent.length < 2 ^ 31 := by decide +kernel
  exact joined_run.next
    (.left (.calls .tcpSend ⟨0x10, 0x16, 0, 0⟩ quietLink ⟨by decide, spares, by simp, nofun, nofun⟩
    (send_done ..)) short)

/-- and they arrive. -/
def told : Machines := Machines.exchange { sending with a := sending.a.polls 0 .connects none }

theorem told_run : Machines.Run 0 0 told := exchange_run (tick_run sending_run)

/-- The other takes them out. -/
def read : Machines :=
  { told with b := told.b.calls .listens .tcpRecv ⟨0,
    0x16, 0, 0⟩ (mnApiTcpRecv told.b.api ⟨0, 0x16, 0, 0⟩) }

end MegaNet.ProgramsEndToEnd
