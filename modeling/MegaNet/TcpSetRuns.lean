import MegaNet.TcpSendStream

/-! Runs of a whole socket set from `mn_tcp_init` on, and what each of its
sockets sees of them: a run of its own, the other sockets' writes to the pool
staying outside its rings. -/
namespace MegaNet.TcpSetRuns
open MegaNet.Core Words XmemRings CircularBuffer TcpEmission TcpSocketInvariant
  TcpOutcomes TcpPreservation
  TcpConnection TcpSendStream Transition

/-- A set as `mn_tcp_init` makes it, over any memory. -/
def World.Begun (w : World) : Prop := ∃ socks n base x, w = ⟨mnTcpInit socks n base, x⟩

/-- One event, over any state of the network layer. -/
def World.Step (w w' : World) : Prop := ∃ net event, w' = (w.exec net event).1

def World.Run : World → Prop := Reachable World.Begun World.Step

variable {c : Conn} {w : World}

/-! ## An operation writes only its own socket's rings -/

private theorem inOrder_outside (sock : SocketInv t now) (placed : Placed t)
    (sync : synchronized t.state = true)
    (x : XMem) (seg : TcpSeg) (a : Nat) (outside : a < home t ∨ home t + 4096 ≤ a) :
    (inOrder t x seg now).2 a = x a := by
  have settled := handleAck_settled t seg.ack now
  have at_home : Placed { handleAck t seg.ack now with sndWnd := seg.wnd } := placed.settled settled
  have there : home { handleAck t seg.ack now with sndWnd := seg.wnd } = home t :=
    rings_home (identity_rings (congrArg Settled.identity settled))
  rw [← there] at outside
  have untouched := takeData_outside (acked_keeps sock sync seg).1 at_home x seg a outside
  unfold inOrder
  exact untouched

private theorem synchronizedInput_outside (sock : SocketInv t now) (placed : Placed t)
    (sync : synchronized t.state = true) (x : XMem) (seg : TcpSeg) (a : Nat)
    (outside : a < home t ∨ home t + 4096 ≤ a) : (synchronizedInput t x seg now).2 a = x a := by
  unfold synchronizedInput
  split
  · rfl
  split
  · rfl
  · exact inOrder_outside sock placed sync x seg a outside

private theorem segmentInput_outside (sock : SocketInv t now) (placed : Placed t)
    (owned : awake t.state) (x : XMem)
    (seg : TcpSeg) (a : Nat) (outside : a < home t ∨ home t + 4096 ≤ a) :
    (segmentInput t x seg now).2 a = x a := by
  have kept : SocketInv { t with statRxSeg := t.statRxSeg + 1 } now := { sock with }
  have arrival := segmentInput_arrival t x seg now
  generalize segmentInput t x seg now = out at arrival
  cases arrival with
  | accepts state =>
    exact synchronizedInput_outside (accepted_keeps kept state) { placed with } rfl x seg a outside
  | proceeds past =>
    exact synchronizedInput_outside kept { placed with } (awake_past owned past) x seg a outside
  | _ => rfl

private theorem exec_outside (sock : SocketInv c.t c.now) (placed : Placed c.t) (net : MnNet) (op : Op)
    (enabled : c.Enabled op) (own : ∀ x, op ≠ .others x) (a : Nat)
    (outside : a < home c.t ∨ home c.t + 7168 ≤ a) : (c.exec net op).1.x a = c.x a := by
  have effect := exec_effect c net op
  generalize c.exec net op = out at effect
  cases effect with
  | queues _ data n len room _ held =>
    have fits := sendRoom_le sock len
    rw [← room] at fits
    exact sndRing_outside placed c.x data n (held enabled) (by omega) a (by omega)
  | arrives seg => exact segmentInput_outside sock placed enabled c.x seg a (by omega)
  | others x => exact absurd rfl (own x)
  | idles | connects | listens | answers | takes | asks | drops | aborts | polls => rfl

/-! ## Each socket's run -/

/-- A socket's part of a set. -/
structure Sees (w : World) (t : MnTcp) (c : Conn) : Prop where
  run : Conn.Run c
  t : c.t = t
  x : c.x = w.x
  now : c.now = w.set.now

/-- Every socket has lived a run of its own, and the rings lie side by side. -/
structure Lived (w : World) : Prop where
  spaced : ∃ base : Nat, ∀ (i : Nat) (t : MnTcp), w.set.sock[i]? = some t → home t = base + 7168 * i
  seen : ∀ (i : Nat) (t : MnTcp), w.set.sock[i]? = some t → ∃ c, Sees w t c

theorem lived_begun (begun : World.Begun w) : Lived w := by
  obtain ⟨socks, n, base, x, rfl⟩ := begun
  refine ⟨⟨_, fun i t found => (mnTcpInit_get? found).2.2.1⟩, fun i t found => ?_⟩
  exact ⟨⟨t, x, 0, [], [], false⟩,
    .start ⟨⟨socks, n, base, List.mem_iff_getElem?.mpr ⟨i, found⟩⟩, rfl, rfl, rfl, rfl⟩, rfl, rfl, rfl⟩

/-- An operation on socket `i` is one on its connection, and to the others a
write outside their rings. -/
theorem Lived.touch (lived : Lived w) (found : w.set.sock[i]? = some t) (sees : Sees w t c)
    (net : MnNet) (op : Op) (enabled : c.Enabled op) (own : ∀ x, op ≠ .others x)
    (clock : (c.exec net op).1.now = c.now) (rst : UInt16) :
    Lived ⟨⟨w.set.sock.set i (c.exec net op).1.t, rst, w.set.now⟩, (c.exec net op).1.x⟩ := by
  obtain ⟨base, spaced⟩ := lived.spaced
  have inside := (List.getElem?_eq_some_iff.mp found).1
  have still : home (c.exec net op).1.t = home t := by
    rw [← sees.t]
    exact rings_home (exec_rings c net op)
  refine ⟨⟨base, fun j u there => ?_⟩, fun j u there => ?_⟩
  · by_cases same : i = j
    · subst same
      rw [List.getElem?_set_self inside] at there
      rw [← Option.some.inj there, still]
      exact spaced i t found
    · rw [List.getElem?_set_ne same] at there
      exact spaced j u there
  · by_cases same : i = j
    · subst same
      rw [List.getElem?_set_self inside] at there
      exact ⟨_, sees.run.next ⟨net, op, enabled, rfl⟩, Option.some.inj there, rfl, clock.trans sees.now⟩
    · rw [List.getElem?_set_ne same] at there
      obtain ⟨d, seen⟩ := lived.seen j u there
      have apart : d.Enabled (.others (c.exec net op).1.x) := by
        intro a low high
        have mine := spaced i t found
        have theirs := spaced j u there
        rw [seen.t] at low high
        rw [exec_outside sees.run.socketInv sees.run.placed net op enabled own a
          (by rw [sees.t]; omega), sees.x, seen.x]
      exact ⟨_, seen.run.next ⟨net, _, apart, rfl⟩, seen.t, rfl, seen.now⟩

/-- A call on a socket by number. -/
theorem Lived.call (lived : Lived w) (i : Nat) (net : MnNet) (f : MnTcp → MnTcp × XMem × MnNet)
    (called : ∀ t c, w.set.sock[i]? = some t → Sees w t c → ∃ op, c.Enabled op ∧
      (∀ x, op ≠ .others x) ∧ (c.exec net op).1.now = c.now ∧
      (c.exec net op).1.t = (f t).1 ∧ (c.exec net op).1.x = (f t).2.1) :
    Lived (w.onSocket i net f).1 := by
  unfold World.onSocket
  cases found : w.set.sock[i]? with
  | none => exact lived
  | some t =>
    obtain ⟨c, sees⟩ := lived.seen i t found
    obtain ⟨op, enabled, own, clock, socket, pool⟩ := called t c found sees
    have touched := lived.touch found sees net op enabled own clock w.set.rstSent
    rw [socket, pool] at touched
    exact touched

/-! ## Dispatching and polling, socket by socket -/

/-- The dispatcher's loop acts on the first socket that passes its test. -/
theorem onFirst_spec (p : MnTcp → Bool) (f : MnTcp → MnTcp × β) (sock : List MnTcp) :
    (onFirst p f sock = none ∧ ∀ (i : Nat) (t : MnTcp), sock[i]? = some t → p t = false) ∨
      ∃ (i : Nat) (t : MnTcp), sock[i]? = some t ∧ p t = true ∧
        (∀ (j : Nat) (u : MnTcp), j < i → sock[j]? = some u → p u = false) ∧
        onFirst p f sock = some (sock.set i (f t).1, (f t).2) := by
  induction sock with
  | nil => exact Or.inl ⟨rfl, by simp⟩
  | cons t rest ih =>
    by_cases here : p t = true
    · exact Or.inr ⟨0, t, rfl, here, by simp, by simp [onFirst, here]⟩
    · have passed : p t = false := by simpa using here
      obtain ⟨none, all⟩ | ⟨i, u, found, yes, before, same⟩ := ih
      · refine Or.inl ⟨by simp [onFirst, passed, none], ?_⟩
        rintro (_ | i) u found
        · rw [← Option.some.inj found]
          exact passed
        · exact all i u found
      · refine Or.inr ⟨i + 1, u, found, yes, ?_, by simp [onFirst, passed, same]⟩
        rintro (_ | j) v less found
        · rw [← Option.some.inj found]
          exact passed
        · exact before j v (by omega) found

/-- Socket `i`'s turn in a poll, over the net its predecessors leave. -/
theorem pollAll_get? (x : XMem) (now : UInt16) (sock : List MnTcp) (net : MnNet) (i : Nat) :
    (pollAll x now sock net).1[i]? =
      (sock[i]?).map fun t => (pollOne t x (pollAll x now (sock.take i) net).2 now).1 := by
  induction sock generalizing net i with
  | nil => simp [pollAll]
  | cons t rest ih =>
    cases i with
    | zero => simp [pollAll]
    | succ i => simp [pollAll, ih]

theorem owns_awake (owned : owns src seg t = true) : t.state ≠ .closed ∧ t.state ≠ .listen := by
  simp only [owns, Bool.and_eq_true, decide_eq_true_eq] at owned
  exact owned.1

private theorem lived_poll (lived : Lived w) (net : MnNet) (now : UInt16) :
    Lived (w.exec net (.poll now)).1 := by
  obtain ⟨base, spaced⟩ := lived.spaced
  refine ⟨⟨base, fun i u there => ?_⟩, fun i u there => ?_⟩
  · simp only [World.exec, mnTcpPoll, pollAll_get?, Option.map_eq_some_iff] at there
    obtain ⟨t, found, rfl⟩ := there
    rw [rings_home (identity_rings (kept_identity (pollOne_kept t w.x _ now)))]
    exact spaced i t found
  · simp only [World.exec, mnTcpPoll, pollAll_get?, Option.map_eq_some_iff] at there
    obtain ⟨t, found, rfl⟩ := there
    obtain ⟨c, sees⟩ := lived.seen i t found
    refine ⟨_, sees.run.next ⟨(pollAll w.x now (w.set.sock.take i) net).2, .poll now, trivial, rfl⟩,
      ?_, sees.x, rfl⟩
    rw [← sees.t, ← sees.x]
    rfl

/-- The counter of RSTs is nobody's concern. -/
theorem Lived.counted (lived : Lived w) (rst : UInt16) :
    Lived ⟨⟨w.set.sock, rst, w.set.now⟩, w.x⟩ := by
  refine ⟨lived.spaced, fun i t found => ?_⟩
  obtain ⟨c, sees⟩ := lived.seen i t found
  exact ⟨c, { sees with }⟩

private theorem lived_input (lived : Lived w) (net : MnNet) (src : Ip4) (seg : TcpSeg) :
    Lived (w.exec net (.input src seg)).1 := by
  simp only [World.exec, mnTcpInput]
  obtain ⟨unowned, _⟩ | ⟨i, t, found, owned, _, same⟩ :=
    onFirst_spec (owns src seg) (fun t => segmentInput t w.x seg w.set.now) w.set.sock
  · rw [unowned]
    by_cases syn : isPureSyn seg = true
    · obtain ⟨unheard, _⟩ | ⟨i, t, found, listens, _, same⟩ := onFirst_spec (listensFor seg)
        (fun t => passiveOpen t w.x net src seg w.set.now) w.set.sock
      · simp only [syn, if_true, unheard]
        split <;> exact lived.counted _
      · obtain ⟨c, sees⟩ := lived.seen i t found
        have enabled : c.Enabled (.passiveOpen src seg) := by
          simp only [listensFor, Bool.and_eq_true, beq_iff_eq] at listens
          rw [Conn.Enabled, sees.t]
          exact ⟨listens.1, syn⟩
        have touched := lived.touch found sees net (.passiveOpen src seg) enabled
          (by simp) rfl w.set.rstSent
        simp only [Conn.exec, Conn.fresh, sees.t, sees.x, sees.now] at touched
        simp only [syn, if_true, same]
        exact touched
    · simp only [syn, if_false, Bool.false_eq_true]
      split <;> exact lived.counted _
  · rw [same]
    obtain ⟨c, sees⟩ := lived.seen i t found
    have enabled : c.Enabled (.segment seg) := by
      simp only [owns, Bool.and_eq_true, decide_eq_true_eq] at owned
      rw [Conn.Enabled, sees.t]
      exact owned.1
    have touched := lived.touch found sees net (.segment seg) enabled (by simp) rfl w.set.rstSent
    simp only [Conn.exec, sees.t, sees.x, sees.now] at touched
    exact touched

/-- Whatever reaches the stack, each socket goes on living a run of its own. -/
theorem lived_exec (lived : Lived w) (net : MnNet) (event : Event) : Lived (w.exec net event).1 := by
  cases event with
  | connect i ip port now =>
    refine lived.call i net _ fun t c _ sees =>
      ⟨.connect ip port now, trivial, by simp, ?_, ?_, ?_⟩
    · rw [exec_connect]
      split <;> rfl
    all_goals
      rw [exec_connect, mnTcpConnect, ← sees.t, ← sees.x]
      by_cases free : c.t.state = .closed <;> simp [free, Conn.fresh]
  | listen i port =>
    refine lived.call i net _ fun t c _ sees => ⟨.listen port, trivial, by simp, ?_, ?_, ?_⟩
    · rw [exec_listen]
      split <;> rfl
    all_goals
      rw [exec_listen, ← sees.x]
      try rw [mnTcpListen, ← sees.t]
      by_cases free : c.t.state = .closed <;> by_cases named : port = 0 <;> simp
        [free, named, Conn.fresh]
  | send i data len fits =>
    refine lived.call i net _ fun t c _ sees => ⟨.send data len, fits, by simp, rfl, ?_, ?_⟩ <;>
      rw [← sees.t, ← sees.x] <;> rfl
  | sendX i ext src len =>
    refine lived.call i net _ fun t c _ sees => ⟨.sendX ext src len, trivial, by simp, rfl, ?_, ?_⟩ <;>
      rw [← sees.t, ← sees.x] <;> rfl
  | recv i cap =>
    refine lived.call i net _ fun t c _ sees => ⟨.recv cap, trivial, by simp, rfl, ?_, ?_⟩
    · rw [← sees.t]
      rfl
    · exact sees.x
  | recvX i ext dst cap =>
    refine lived.call i net _ fun t c _ sees => ⟨.recvX ext dst cap, trivial, by simp, rfl, ?_, ?_⟩
    · rw [← sees.t]
      rfl
    · exact sees.x
  | close i =>
    refine lived.call i net _ fun t c _ sees => ⟨.close, trivial, by simp, rfl, ?_, ?_⟩
    · rw [← sees.t]
      rfl
    · exact sees.x
  | abort i =>
    refine lived.call i net _ fun t c _ sees => ⟨.abort, trivial, by simp, rfl, ?_, ?_⟩
    · rw [← sees.t, ← sees.x]
      rfl
    · exact sees.x
  | input src seg => exact lived_input lived net src seg
  | poll now => exact lived_poll lived net now

/-- In every run of a set, each socket has lived a run of its own. -/
theorem World.Run.lived (run : World.Run w) : Lived w := by
  refine Reachable.invariant (motive := Lived) (fun _ => lived_begun) ?_ run
  rintro w _ _ lived ⟨net, event, rfl⟩
  exact lived_exec lived net event

theorem World.Run.socketInv {i : Nat} {t : MnTcp} (run : World.Run w) (found : w.set.sock[i]? = some t) :
    SocketInv t w.set.now := by
  obtain ⟨c, sees⟩ := (World.Run.lived run).seen i t found
  rw [← sees.t, ← sees.now]
  exact sees.run.socketInv

/-! ## Concrete runs -/

/-- Events one after another, each over a net of its own. -/
def World.execAll (w : World) : List (MnNet × Event) → World
  | [] => w
  | (net, event) :: rest => World.execAll (w.exec net event).1 rest

theorem World.Run.execAll (run : World.Run w) (steps : List (MnNet × Event)) :
    World.Run (World.execAll w steps) := by
  induction steps generalizing w with
  | nil => exact run
  | cons step rest ih => exact ih (run.next ⟨step.1, step.2, rfl⟩)

/-- A set of `n` sockets just initialised, over an empty pool. -/
def freshWorld (n : UInt8) : World :=
  ⟨mnTcpInit (List.replicate n.toNat blankSocket) n 0, fun _ => 0⟩

theorem freshWorld_run (n : UInt8) : World.Run (freshWorld n) := .start ⟨_, _, _, _, rfl⟩

theorem all_three : UInt16.toNat 3 ≤ ([1, 2, 3] : List UInt8).length := Nat.le_refl 3

/-- Looking a socket up in a concrete set. -/
theorem socket_where (w : World) (i : Nat) (p : MnTcp → Prop) [DecidablePred p]
    (holds : ((w.set.sock[i]?).any fun t => decide (p t)) = true) :
    ∃ t, w.set.sock[i]? = some t ∧ p t := by
  obtain ⟨t, found, yes⟩ := (Option.any_eq_true _ _).mp holds
  exact ⟨t, found, of_decide_eq_true yes⟩

/-- A connection just answered by a SYN|ACK that closes the window. -/
def shutWindow : World :=
  World.execAll (freshWorld 1) [(goodNet, .connect 0 neighbour 80 1),
    (goodNet, .input neighbour
      (fromPeer 49156 1000 65538 { syn := true, ack := true } 0 [] nothing_fits))]

theorem shutWindow_run : World.Run shutWindow := World.Run.execAll (freshWorld_run 1) _

end MegaNet.TcpSetRuns
