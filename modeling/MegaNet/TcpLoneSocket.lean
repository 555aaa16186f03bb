import MegaNet.TcpLifetime
import MegaNet.TcpSetRuns

/-! A set with one socket in use: every event is an operation on that socket's
connection, or passes it by, answered at most with a reset. -/
namespace MegaNet.TcpLoneSocket
open MegaNet.Core TcpEmission TcpSocketInvariant TcpOutcomes TcpConnection TcpSendStream TcpRecvStream
  TcpLifetime TcpSetRuns

variable {w : World} {c : Conn} {i : Nat}

/-- The bytes a send call among the events takes over. -/
def accepts (w : World) : Event → List UInt8
  | .send k data len _ =>
    ((w.set.sock[k]?).map fun t => data.take (mnTcpSend t w.x data len).1.toNat).getD []
  | .sendX k ext src len =>
    ((w.set.sock[k]?).map fun t => ext.read src (mnTcpSendX t w.x ext src len).1).getD []
  | _ => []

/-- The bytes a receive call among the events hands out. -/
def returns (w : World) : Event → List UInt8
  | .recv k cap => ((w.set.sock[k]?).map fun t => (mnTcpRecv t w.x cap).1).getD []
  | .recvX k ext dst cap =>
    ((w.set.sock[k]?).map fun t =>
      (mnTcpRecvX t w.x ext dst cap).2.2.read dst (mnTcpRecvX t w.x ext dst cap).1).getD []
  | _ => []

/-- What an event does to socket `i`, being the only one in use. -/
def opOf (i : Nat) (t : MnTcp) : Event → Option Op
  | .connect k ip port now => if k = i then some (.connect ip port now) else none
  | .listen k port => if k = i then some (.listen port) else none
  | .send k data len _ => if k = i then some (.send data len) else none
  | .sendX k ext src len => if k = i then some (.sendX ext src len) else none
  | .recv k cap => if k = i then some (.recv cap) else none
  | .recvX k ext dst cap => if k = i then some (.recvX ext dst cap) else none
  | .close k => if k = i then some .close else none
  | .abort k => if k = i then some .abort else none
  | .input src seg =>
    if owns src seg t then some (.segment seg)
    else if isPureSyn seg && listensFor seg t then some (.passiveOpen src seg)
    else none
  | .poll now => some (.poll now)

/-- Socket `i` of the set is `c`'s, and no other is in use. -/
structure Lone (w : World) (i : Nat) (c : Conn) : Prop where
  run : Conn.Run c
  here : w.set.sock[i]? = some c.t
  x : c.x = w.x
  now : c.now = w.set.now
  rest : ∀ (k : Nat) (u : MnTcp), k ≠ i → w.set.sock[k]? = some u → u.state = .closed ∧ u.rcvCount = 0

/-- No socket but `i` is opened. -/
def Only (i : Nat) : Event → Prop
  | .connect k _ _ _ | .listen k _ => k = i
  | _ => True

/-- A reset in answer to what nobody owns. -/
structure Dismissal (seg : TcpSeg) : Prop where
  mute : Mute seg
  syn : seg.flags.syn = false

theorem Dismissal.rst (dismissal : Dismissal seg) : seg.flags.rst = true := by
  rcases dismissal.mute.bare with rst | syn
  · exact rst
  · simp [dismissal.syn] at syn

/-- An event either is an operation on the connection, or passes it by. -/
inductive Met (w : World) (i : Nat) (c : Conn) (net : MnNet) (event : Event) : Prop where
  | acts (op : Op) (same : opOf i c.t event = some op) (enabled : c.Enabled op)
      (lone : Lone (w.exec net event).1 i (c.exec net op).1)
      (after : (w.exec net event).2 = (c.exec net op).2)
  | passes (none : opOf i c.t event = none) (lone : Lone (w.exec net event).1 i c)
      (sends : Sends net (w.exec net event).2 Dismissal)

/-- A call on a socket by number. -/
theorem Lone.call (lone : Lone w i c) (k : Nat) (net : MnNet) (f : MnTcp → MnTcp × XMem × MnNet)
    (event : Event) (execs : w.exec net event = w.onSocket k net f) (op : Op)
    (asks : opOf i c.t event = if k = i then some op else none) (enabled : c.Enabled op)
    (mine : k = i → (c.exec net op).1.now = c.now ∧ (c.exec net op).1.t = (f c.t).1 ∧
      (c.exec net op).1.x = (f c.t).2.1 ∧ (c.exec net op).2 = (f c.t).2.2)
    (idle : k ≠ i → ∀ u, u.state = .closed → u.rcvCount = 0 →
      ((f u).1.state = .closed ∧ (f u).1.rcvCount = 0) ∧ (f u).2 = (w.x, net)) :
    Met w i c net event := by
  have inside := (List.getElem?_eq_some_iff.mp lone.here).1
  by_cases same : k = i
  · obtain ⟨clock, socket, pool, after⟩ := mine same
    have reached : w.onSocket k net f =
      (⟨{ w.set with sock := w.set.sock.set i (f c.t).1 }, (f c.t).2.1⟩,
        (f c.t).2.2) := by
      unfold World.onSocket
      rw [same, lone.here]
    refine .acts op (by rw [asks, if_pos same]) enabled ?_ (by rw [execs, reached, after])
    rw [execs, reached]
    refine ⟨lone.run.next ⟨net, op, enabled, rfl⟩, ?_, pool, clock.trans lone.now,
      fun j u other found => ?_⟩
    · rw [socket]
      exact List.getElem?_set_self inside
    · exact lone.rest j u other (by rwa [List.getElem?_set_ne (Ne.symm other)] at found)
  · cases found : w.set.sock[k]? with
    | none =>
      have reached : w.onSocket k net f = (w, net) := by
        unfold World.onSocket
        rw [found]
      refine .passes (by rw [asks, if_neg same]) ?_ ?_
      · rw [execs, reached]
        exact lone
      · rw [execs, reached]
        exact Sends.nothing net _
    | some u =>
      obtain ⟨closed, empty⟩ := lone.rest k u same found
      obtain ⟨still, kept⟩ := idle same u closed empty
      have reached : w.onSocket k net f =
          (⟨{ w.set with sock := w.set.sock.set k (f u).1 }, w.x⟩, net) := by
        unfold World.onSocket
        simp only [found, kept]
      refine .passes (by rw [asks, if_neg same]) ?_ ?_
      · rw [execs, reached]
        refine ⟨lone.run, ?_, lone.x, lone.now, fun j v other there => ?_⟩
        · rw [← lone.here]
          exact List.getElem?_set_ne same
        · by_cases here : k = j
          · subst here
            rw [List.getElem?_set_self (List.getElem?_eq_some_iff.mp found).1] at there
            rw [← Option.some.inj there]
            exact still
          · exact lone.rest j v other (by rwa [List.getElem?_set_ne here] at there)
      · rw [execs, reached]
        exact Sends.nothing net _

private theorem pollAll_idle (x : XMem) (now : UInt16) (sock : List MnTcp) (net : MnNet)
    (idle : ∀ u ∈ sock, u.state = .closed) : pollAll x now sock net = (sock, net) := by
  induction sock with
  | nil => rfl
  | cons u rest ih =>
    have here : pollOne u x net now = (u, net) := by simp [pollOne, idle u (List.mem_cons_self ..)]
    rw [pollAll, here]
    dsimp only
    rw [ih fun v member => idle v (List.mem_cons_of_mem _ member)]

/-- The other sockets, being closed, leave the poll to the one. -/
theorem pollAll_lone (x : XMem) (now : UInt16) (sock : List MnTcp) (net : MnNet)
    (found : sock[i]? = some t)
    (rest : ∀ (k : Nat) (u : MnTcp), k ≠ i → sock[k]? = some u → u.state = .closed) :
    pollAll x now sock net = (sock.set i (pollOne t x net now).1, (pollOne t x net now).2) := by
  induction sock generalizing i with
  | nil => simp at found
  | cons u after ih =>
    cases i with
    | zero =>
      obtain rfl : u = t := Option.some.inj found
      have idle : ∀ v ∈ after, v.state = .closed := by
        intro v member
        obtain ⟨k, there⟩ := List.mem_iff_getElem?.mp member
        exact rest (k + 1) v (by omega) there
      rw [pollAll]
      dsimp only
      rw [pollAll_idle x now after _ idle]
      rfl
    | succ i =>
      have here : pollOne u x net now = (u, net) := by simp [pollOne, rest 0 u (by omega) rfl]
      rw [pollAll, here]
      dsimp only
      rw [ih found fun k v other there => rest (k + 1) v (by omega) there]
      rfl

private theorem lone_poll (lone : Lone w i c) (net : MnNet) (now : UInt16) :
    Met w i c net (.poll now) := by
  have inside := (List.getElem?_eq_some_iff.mp lone.here).1
  have polled := pollAll_lone w.x now w.set.sock net lone.here fun k u other found =>
    (lone.rest k u other found).1
  refine .acts (.poll now) rfl trivial ?_ ?_
  · simp only [World.exec, mnTcpPoll, polled]
    refine ⟨lone.run.next ⟨net, .poll now, trivial, rfl⟩, ?_, lone.x, rfl, fun k u other found => ?_⟩
    · rw [List.getElem?_set_self inside, ← lone.x]
      rfl
    · exact lone.rest k u other (by rwa [List.getElem?_set_ne (Ne.symm other)] at found)
  · simp only [World.exec, mnTcpPoll, polled]
    rw [← lone.x]
    rfl

private theorem sendRst_dismisses (net : MnNet) (src : Ip4) (seg : TcpSeg) :
    Sends net (sendRst net src seg) Dismissal := by
  refine (sendRst_sends net src seg).mono ?_
  rintro _ rfl
  exact ⟨⟨rfl, rfl, Or.inl rfl⟩, rfl⟩

private theorem lone_input (lone : Lone w i c) (net : MnNet) (src : Ip4) (seg : TcpSeg) :
    Met w i c net (.input src seg) := by
  have inside := (List.getElem?_eq_some_iff.mp lone.here).1
  have kept : ∀ u, ∀ (k : Nat) (v : MnTcp), k ≠ i → (w.set.sock.set i u)[k]? = some v →
      v.state = .closed ∧ v.rcvCount = 0 := fun u k v other found =>
    lone.rest k v other (by rwa [List.getElem?_set_ne (Ne.symm other)] at found)
  have dismissed : owns src seg c.t = false → (isPureSyn seg && listensFor seg c.t) = false →
      opOf i c.t (.input src seg) = none := fun unowned unheard => by simp [opOf, unowned, unheard]
  obtain ⟨unowned, nobody⟩ | ⟨k, t, found, owned, _, same⟩ :=
    onFirst_spec (owns src seg) (fun t => segmentInput t w.x seg w.set.now) w.set.sock
  · have mine := nobody i c.t lone.here
    by_cases syn : isPureSyn seg = true
    · obtain ⟨unheard, deaf⟩ | ⟨k, t, found, listens, _, same⟩ := onFirst_spec (listensFor seg)
        (fun t => passiveOpen t w.x net src seg w.set.now) w.set.sock
      · refine .passes (dismissed mine (by simp [deaf i c.t lone.here])) ?_ ?_
        · simp only [World.exec, mnTcpInput, unowned, syn, if_true, unheard]
          split <;> exact { lone with }
        · simp only [World.exec, mnTcpInput, unowned, syn, if_true, unheard]
          split
          · exact Sends.nothing net _
          · exact sendRst_dismisses net src seg
      · have state : t.state = .listen := by
          simp only [listensFor, Bool.and_eq_true, beq_iff_eq] at listens
          exact listens.1
        have here : k = i := by
          by_contra other
          simp [(lone.rest k t other found).1] at state
        subst here
        obtain rfl : t = c.t := Option.some.inj (found.symm.trans lone.here)
        refine .acts (.passiveOpen src seg) (by simp [opOf, mine, syn, listens]) ⟨state, syn⟩ ?_ ?_
        · simp only [World.exec, mnTcpInput, unowned, syn, if_true, same]
          refine ⟨lone.run.next ⟨net, .passiveOpen src seg, ⟨state, syn⟩, rfl⟩, ?_, lone.x, lone.now,
            kept _⟩
          rw [List.getElem?_set_self inside, ← lone.x, ← lone.now]
          rfl
        · simp only [World.exec, mnTcpInput, unowned, syn, if_true, same]
          rw [← lone.x, ← lone.now]
          rfl
    · refine .passes (dismissed mine (by simp [syn])) ?_ ?_
      · simp only [World.exec, mnTcpInput, unowned, syn, if_false, Bool.false_eq_true]
        split <;> exact { lone with }
      · simp only [World.exec, mnTcpInput, unowned, syn, if_false, Bool.false_eq_true]
        split
        · exact Sends.nothing net _
        · exact sendRst_dismisses net src seg
  · have awake := owns_awake owned
    have here : k = i := by
      by_contra other
      exact awake.1 (lone.rest k t other found).1
    subst here
    obtain rfl : t = c.t := Option.some.inj (found.symm.trans lone.here)
    refine .acts (.segment seg) (by simp [opOf, owned]) awake ?_ ?_
    · simp only [World.exec, mnTcpInput, same]
      refine ⟨lone.run.next ⟨net, .segment seg, awake, rfl⟩, ?_, ?_, lone.now, kept _⟩
      · rw [List.getElem?_set_self inside, ← lone.x, ← lone.now]
        rfl
      · rw [← lone.x, ← lone.now]
        rfl
    · simp only [World.exec, mnTcpInput, same]
      rfl

/-- Every event that opens no other socket is met by the one in use. -/
theorem lone_exec (lone : Lone w i c) (net : MnNet) (event : Event) (only : Only i event) :
    Met w i c net event := by
  cases event with
  | connect k ip port now =>
    refine lone.call k net _ _ rfl (.connect ip port now) rfl trivial
      (fun _ => ?_) fun other => absurd only other
    rw [exec_connect, mnTcpConnect, ← lone.x]
    by_cases free : c.t.state = .closed <;> simp [free, Conn.fresh]
  | listen k port =>
    refine lone.call k net _ _ rfl (.listen port) rfl trivial
      (fun _ => ?_) fun other => absurd only other
    rw [exec_listen, mnTcpListen, ← lone.x]
    by_cases free : c.t.state = .closed <;> by_cases named : port = 0 <;> simp [free, named, Conn.fresh]
  | send k data len fits =>
    refine lone.call k net _ _ rfl (.send data len) rfl fits
      (fun _ => ⟨rfl, ?_, ?_, rfl⟩) fun _ u closed empty => ?_
    · rw [← lone.x]
      rfl
    · rw [← lone.x]
      rfl
    · rw [shut_send (by simp [canSend, closed])]
      exact ⟨⟨closed, empty⟩, rfl⟩
  | sendX k ext src len =>
    refine lone.call k net _ _ rfl (.sendX ext src len) rfl trivial (fun _ => ⟨rfl, ?_, ?_, rfl⟩)
      fun _ u closed empty => ?_
    · rw [← lone.x]
      rfl
    · rw [← lone.x]
      rfl
    · rw [shut_sendX (by simp [canSend, closed])]
      exact ⟨⟨closed, empty⟩, rfl⟩
  | recv k cap =>
    refine lone.call k net _ _ rfl (.recv cap) rfl trivial (fun _ => ⟨rfl, rfl, lone.x, rfl⟩)
      fun _ u closed empty => ⟨⟨?_, (drained empty cap).2⟩, rfl⟩
    exact (afterRecv_state u (recvCount u cap)).trans closed
  | recvX k ext dst cap =>
    refine lone.call k net _ _ rfl (.recvX ext dst cap) rfl trivial (fun _ => ⟨rfl, rfl, lone.x, rfl⟩)
      fun _ u closed empty => ⟨⟨?_, (drained empty cap).2⟩, rfl⟩
    exact (afterRecv_state u (recvCount u cap)).trans closed
  | close k =>
    refine lone.call k net _ _ rfl .close rfl trivial (fun _ => ⟨rfl, rfl, lone.x, rfl⟩)
      fun _ u closed empty => ?_
    simp [mnTcpClose, closed, empty]
  | abort k =>
    refine lone.call k net _ _ rfl .abort rfl trivial (fun _ => ⟨rfl, ?_, lone.x, ?_⟩)
      fun _ u closed empty => ?_
    · rw [← lone.x]
      rfl
    · rw [← lone.x]
      rfl
    · simp [mnTcpAbort, closed, empty]
  | input src seg => exact lone_input lone net src seg
  | poll now => exact lone_poll lone net now

/-! ## What calls took over and handed out -/

private theorem asked {k : Nat} {want op : Op} (same : (if k = i then some want else none) = some op) :
    k = i ∧ want = op := by
  split at same
  · exact ⟨‹_›, Option.some.inj same⟩
  · cases same

private theorem unasked {k : Nat} {want : Op} (none : (if k = i then some want else none) = none) :
    k ≠ i := by
  rintro rfl
  simp at none

/-- The records of the connection are the calls' results, one after another. -/
theorem acts_logs (lone : Lone w i c) (net : MnNet) (same : opOf i c.t event = some op)
    (steady : ¬ Opens c op) : (c.exec net op).1.sent = c.sent ++ accepts w event ∧
      (c.exec net op).1.rcvd = c.rcvd ++ returns w event := by
  cases event with
  | connect k ip port now =>
    obtain ⟨_, rfl⟩ := asked same
    rw [exec_connect, if_neg (show ¬ c.t.state = .closed from steady)]
    simp [accepts, returns]
  | listen k port =>
    obtain ⟨_, rfl⟩ := asked same
    rw [exec_listen, if_neg (show ¬ (c.t.state = .closed ∧ port ≠ 0) from steady)]
    simp [accepts, returns]
  | send k data len fits =>
    obtain ⟨rfl, rfl⟩ := asked same
    simp [accepts, returns, lone.here, Conn.exec, lone.x]
  | sendX k ext src len =>
    obtain ⟨rfl, rfl⟩ := asked same
    simp [accepts, returns, lone.here, Conn.exec, lone.x]
  | recv k cap =>
    obtain ⟨rfl, rfl⟩ := asked same
    simp [accepts, returns, lone.here, Conn.exec, lone.x]
  | recvX k ext dst cap =>
    obtain ⟨rfl, rfl⟩ := asked same
    simp [accepts, returns, lone.here, Conn.exec, lone.x]
  | close k =>
    obtain ⟨_, rfl⟩ := asked same
    simp [accepts, returns, Conn.exec]
  | abort k =>
    obtain ⟨_, rfl⟩ := asked same
    simp [accepts, returns, Conn.exec]
  | input src seg =>
    simp only [opOf] at same
    split at same
    · cases same
      simp [accepts, returns, Conn.exec]
    split at same
    · cases same
      exact absurd trivial steady
    · cases same
  | poll now =>
    cases same
    simp [accepts, returns, Conn.exec]

/-- Opening a connection begins new records, and takes over and hands out
nothing. -/
theorem opens_logs (net : MnNet) (same : opOf i c.t event = some op) (opens : Opens c op) :
    (c.exec net op).1.sent = [] ∧ (c.exec net op).1.rcvd = [] ∧ accepts w event = [] ∧
      returns w event = [] := by
  cases event with
  | connect k ip port now =>
    obtain ⟨_, rfl⟩ := asked same
    rw [exec_connect, if_pos (show c.t.state = .closed from opens)]
    exact ⟨rfl, rfl, rfl, rfl⟩
  | listen k port =>
    obtain ⟨_, rfl⟩ := asked same
    rw [exec_listen, if_pos (show c.t.state = .closed ∧ port ≠ 0 from opens)]
    exact ⟨rfl, rfl, rfl, rfl⟩
  | input src seg =>
    simp only [opOf] at same
    split at same
    · cases same
      exact absurd opens id
    split at same
    · cases same
      exact ⟨rfl, rfl, rfl, rfl⟩
    · cases same
  | poll now =>
    cases same
    exact absurd opens id
  | send | sendX | recv | recvX | close | abort =>
    obtain ⟨_, rfl⟩ := asked same
    exact absurd opens id

/-- A socket not in use takes over and hands out nothing. -/
theorem passes_logs (lone : Lone w i c) (none : opOf i c.t event = none) :
    accepts w event = [] ∧ returns w event = [] := by
  cases event with
  | send k data len fits =>
    refine ⟨?_, rfl⟩
    cases found : w.set.sock[k]? with
    | none => simp [accepts, found]
    | some u =>
      have closed := (lone.rest k u (unasked none) found).1
      simp [accepts, found, shut_send (t := u) (by simp [canSend, closed])]
  | sendX k ext src len =>
    refine ⟨?_, rfl⟩
    cases found : w.set.sock[k]? with
    | none => simp [accepts, found]
    | some u =>
      have closed := (lone.rest k u (unasked none) found).1
      simp [accepts, found, shut_sendX (t := u) (by simp [canSend, closed]), PhysMem.read]
  | recv k cap =>
    refine ⟨rfl, ?_⟩
    cases found : w.set.sock[k]? with
    | none => simp [returns, found]
    | some u =>
      have empty := (lone.rest k u (unasked none) found).2
      simp [returns, found, mnTcpRecv, (drained empty cap).1]
  | recvX k ext dst cap =>
    refine ⟨rfl, ?_⟩
    cases found : w.set.sock[k]? with
    | none => simp [returns, found]
    | some u =>
      have empty := (lone.rest k u (unasked none) found).2
      simp [returns, found, mnTcpRecvX, (drained empty cap).1, PhysMem.read]
  | connect | listen | close | abort | input | poll => exact ⟨rfl, rfl⟩

/-- A set just initialised is in use by nobody yet. -/
theorem lone_begun (begun : World.Begun w) (found : w.set.sock[i]? = some t) :
    Lone w i ⟨t, w.x, w.set.now, [], [], false⟩ := by
  obtain ⟨socks, n, base, x, rfl⟩ := begun
  refine ⟨.start ⟨⟨socks, n, base, List.mem_of_getElem? found⟩, rfl, rfl, rfl, rfl⟩, found, rfl, rfl, ?_⟩
  intro k u _ there
  obtain ⟨_, _, _, closed, empty, _⟩ := mnTcpInit_get? there
  exact ⟨closed, empty⟩

end MegaNet.TcpLoneSocket
