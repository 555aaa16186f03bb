import MegaNet.TcpSetRuns

/-! Whether a segment's four-tuple names one socket. A connect takes its port
from a hash of the tick, the MAC and its own number without a look at the
other sockets, so the tuples of a set stay apart exactly as long as no connect
draws one that is in use. -/
namespace MegaNet.TcpFourTuple
open MegaNet.Core TcpEmission TcpSocketInvariant TcpOutcomes TcpConnection TcpSetRuns

variable {w : World} {sock : List MnTcp} {t : MnTcp} {i : Nat}

/-- Neither CLOSED nor LISTEN. -/
def active (t : MnTcp) : Bool := t.state ≠ .closed && t.state ≠ .listen

/-- The local address is the host's only one, and is left out. -/
def fourTuple (t : MnTcp) : UInt16 × UInt16 × Ip4 := (t.localPort, t.remotePort, t.remoteIp)

/-- No two active sockets have one four-tuple. -/
def Unique (sock : List MnTcp) : Prop :=
  ∀ (i j : Nat) (t u : MnTcp), sock[i]? = some t → sock[j]? = some u → active t = true →
    active u = true → fourTuple t = fourTuple u → i = j

/-- No two active sockets have one four-tuple, and what the dispatcher finds
first is the owner of a segment's. -/
structure OneOwner (sock : List MnTcp) : Prop where
  unique : Unique sock
  first : ∀ (src : Ip4) (seg : TcpSeg) (f : MnTcp → MnTcp × XMem) (i : Nat) (t : MnTcp),
    sock[i]? = some t → owns src seg t = true →
      onFirst (owns src seg) f sock = some (sock.set i (f t).1, (f t).2)

private theorem owns_iff (src : Ip4) (seg : TcpSeg) (t : MnTcp) :
    owns src seg t = true ↔ active t = true ∧ fourTuple t = (seg.dport, seg.sport, src) := by
  simp only [owns, active, fourTuple, Bool.and_eq_true, beq_iff_eq, Prod.mk.injEq, eq_comm (a := src)]
  tauto

private theorem oneOwner_iff : OneOwner sock ↔ Unique sock := by
  refine ⟨OneOwner.unique, fun unique => ⟨unique, fun src seg f i t found owned => ?_⟩⟩
  obtain ⟨_, nobody⟩ | ⟨j, u, found', owned', _, same⟩ := onFirst_spec (owns src seg) f sock
  · rw [nobody i t found] at owned
    contradiction
  · obtain ⟨live, mine⟩ := (owns_iff src seg t).mp owned
    obtain ⟨live', theirs⟩ := (owns_iff src seg u).mp owned'
    obtain rfl := unique i j t u found found' live live' (mine.trans theirs.symm)
    obtain rfl : t = u := Option.some.inj (found.symm.trans found')
    exact same

/-- An active socket was active before, under the same four-tuple. -/
def Continues (t u : MnTcp) : Prop := active u = true → active t = true ∧ fourTuple u = fourTuple t

private theorem identity_fourTuple (same : identity u = identity t) : fourTuple u = fourTuple t := by
  simp only [identity, Identity.mk.injEq] at same
  simp [fourTuple, same]

private theorem continues_identity (same : identity u = identity t)
    (live : active t = true) : Continues t u :=
  fun _ => ⟨live, identity_fourTuple same⟩

/-- Replacing one socket keeps the tuples apart exactly when its own is new. -/
theorem unique_set (unique : Unique sock) (found : sock[i]? = some t) (u : MnTcp) :
    Unique (sock.set i u) ↔ (active u = true → ∀ (j : Nat) (v : MnTcp), j ≠ i → sock[j]? = some v →
      active v = true → fourTuple v ≠ fourTuple u) := by
  have inside := (List.getElem?_eq_some_iff.mp found).1
  have here : (sock.set i u)[i]? = some u := List.getElem?_set_self inside
  constructor
  · intro unique' live j v other found' live' same
    exact other (unique' j i v u (by rwa [List.getElem?_set_ne other.symm]) here live' live same)
  · intro apart j k a b atJ atK liveA liveB same
    by_cases eqJ : i = j <;> by_cases eqK : i = k
    · exact eqJ.symm.trans eqK
    · subst eqJ
      rw [List.getElem?_set_ne eqK] at atK
      obtain rfl : u = a := Option.some.inj (here.symm.trans atJ)
      exact absurd same.symm (apart liveA k b (Ne.symm eqK) atK liveB)
    · subst eqK
      rw [List.getElem?_set_ne eqJ] at atJ
      obtain rfl : u = b := Option.some.inj (here.symm.trans atK)
      exact absurd same (apart liveB j a (Ne.symm eqJ) atJ liveA)
    · rw [List.getElem?_set_ne eqJ] at atJ
      rw [List.getElem?_set_ne eqK] at atK
      exact unique j k a b atJ atK liveA liveB same

theorem Unique.carried (unique : Unique sock) (found : sock[i]? = some t) (continues : Continues t u) :
    Unique (sock.set i u) := by
  rw [unique_set unique found]
  intro live j v other found' live' same
  obtain ⟨was, tuple⟩ := continues live
  exact other (unique j i v t found' found live' was (same.trans tuple))

theorem Unique.call (unique : Unique w.set.sock) (i : Nat) (net : MnNet)
    (f : MnTcp → MnTcp × XMem × MnNet)
    (continues : ∀ t, Continues t (f t).1) : Unique (w.onSocket i net f).1.set.sock := by
  unfold World.onSocket
  cases found : w.set.sock[i]? with
  | none => exact unique
  | some t => exact unique.carried found (continues t)

/-! ## What each event does to the tuples -/

private theorem pollOne_continues (t : MnTcp) (x : XMem) (net : MnNet) (now : UInt16) :
    Continues t (pollOne t x net now).1 := by
  have same := identity_fourTuple (kept_identity (pollOne_kept t x net now))
  refine fun live => ⟨?_, same⟩
  by_contra idle
  unfold active at live idle
  unfold pollOne at live
  cases state : t.state <;> simp_all

private theorem mnTcpSend_continues (t : MnTcp) (x : XMem) (data : List UInt8) (len : UInt16) :
    Continues t (mnTcpSend t x data len).2.1 := by
  unfold mnTcpSend
  dsimp only
  split <;> exact fun live => ⟨live, rfl⟩

private theorem mnTcpSendX_continues (t : MnTcp) (x : XMem) (ext : PhysMem)
    (src : UInt32) (len : UInt16) :
    Continues t (mnTcpSendX t x ext src len).2.1 := by
  unfold mnTcpSendX
  dsimp only
  split <;> exact fun live => ⟨live, rfl⟩

private theorem afterRecv_continues (t : MnTcp) (n : UInt16) : Continues t (afterRecv t n) := by
  obtain ⟨owed, same⟩ := afterRecv_socket t n
  rw [same]
  exact fun live => ⟨live, rfl⟩

private theorem mnTcpClose_continues (t : MnTcp) : Continues t (mnTcpClose t) := by
  unfold mnTcpClose Continues active fourTuple
  cases state : t.state <;> simp [state]

/-- The four-tuple a connect draws is in use by no active socket. -/
def Clear (w : World) (net : MnNet) : Event → Prop
  | .connect i ip port now => ∀ t ∈ w.set.sock[i]?, t.state = .closed → ∀ u ∈ w.set.sock,
      active u = true → fourTuple u ≠ (ephemeralPort net now t.index, port, ip)
  | _ => True

private theorem connect_unique (unique : Unique w.set.sock) (net : MnNet) (i : Nat) (ip : Ip4)
    (port now : UInt16) :
    Unique (w.exec net (.connect i ip port now)).1.set.sock ↔ Clear w net (.connect i ip port now) := by
  simp only [World.exec, World.onSocket, Clear, mnTcpConnect]
  cases found : w.set.sock[i]? with
  | none => simpa using unique
  | some t =>
    by_cases free : t.state = .closed
    · have drawn : fourTuple (sendSyn (startConnect t net ip port now) w.x net { syn := true }).1 =
          (ephemeralPort net now t.index, port, ip) :=
        identity_fourTuple (kept_identity (sendSyn_kept _ w.x net { syn := true }))
      obtain ⟨edge, stat, pending, same⟩ :=
        sendSyn_socket (startConnect t net ip port now) w.x net { syn := true }
      have live : active (sendSyn (startConnect t net ip port now) w.x net { syn := true }).1 =
          true := by
        rw [same]
        rfl
      simp only [free, ne_eq, not_true_eq_false, if_false]
      rw [unique_set unique found, drawn]
      simp only [live, Option.mem_some_iff, forall_eq', free, forall_const]
      constructor
      · intro apart u member live'
        obtain ⟨j, found'⟩ := List.mem_iff_getElem?.mp member
        refine apart j u (fun eq => ?_) found' live'
        rw [eq, found] at found'
        rw [← Option.some.inj found'] at live'
        simp [active, free] at live'
      · exact fun apart j u _ found' => apart u (List.mem_of_getElem? found')
    · simp only [ne_eq, free, not_false_eq_true, if_true, Option.mem_some_iff, forall_eq',
        false_implies, iff_true]
      exact unique.carried found fun live => ⟨live, rfl⟩

private theorem input_unique (unique : Unique w.set.sock) (net : MnNet) (src : Ip4) (seg : TcpSeg) :
    Unique (w.exec net (.input src seg)).1.set.sock := by
  simp only [World.exec, mnTcpInput]
  obtain ⟨unowned, nobody⟩ | ⟨i, t, found, owned, _, same⟩ :=
    onFirst_spec (owns src seg) (fun t => segmentInput t w.x seg w.set.now) w.set.sock
  · rw [unowned]
    by_cases syn : isPureSyn seg = true
    · obtain ⟨unheard, _⟩ | ⟨i, t, found, listens, _, same⟩ := onFirst_spec (listensFor seg)
        (fun t => passiveOpen t w.x net src seg w.set.now) w.set.sock
      · simp only [syn, if_true, unheard]
        split <;> exact unique
      · simp only [syn, if_true, same]
        rw [unique_set unique found]
        -- The new tuple is the segment's, and nobody owned that.
        intro _ j u _ found' live same'
        have tuple : fourTuple (passiveOpen t w.x net src seg w.set.now).1 =
            (seg.dport, seg.sport, src) := by
          simp only [listensFor, Bool.and_eq_true, beq_iff_eq] at listens
          obtain ⟨mss, _, started⟩ := startPassive_socket t net src seg w.set.now
          have sent := identity_fourTuple (kept_identity
            (sendSyn_kept (startPassive t net src seg w.set.now) w.x net { syn := true, ack := true }))
          rw [passiveOpen, sent, started, ← listens.2]
          rfl
        have not_owned := nobody j u found'
        rw [(owns_iff src seg u).mpr ⟨live, same'.trans tuple⟩] at not_owned
        contradiction
    · simp only [syn, if_false, Bool.false_eq_true]
      split <;> exact unique
  · rw [same]
    exact unique.carried found (continues_identity (segmentInput_identity t w.x seg w.set.now)
      ((owns_iff src seg t).mp owned).1)

private theorem poll_unique (unique : Unique w.set.sock) (net : MnNet) (now : UInt16) :
    Unique (w.exec net (.poll now)).1.set.sock := by
  intro i j u v atI atJ liveU liveV same
  simp only [World.exec, mnTcpPoll, pollAll_get?, Option.map_eq_some_iff] at atI atJ
  obtain ⟨t, found, rfl⟩ := atI
  obtain ⟨t', found', rfl⟩ := atJ
  obtain ⟨live, tuple⟩ := pollOne_continues t w.x _ now liveU
  obtain ⟨live', tuple'⟩ := pollOne_continues t' w.x _ now liveV
  exact unique i j t t' found found' live live' (tuple.symm.trans (same.trans tuple'))

/-- An event keeps the tuples apart exactly when it is no connect that draws
one in use. -/
theorem exec_unique (unique : Unique w.set.sock) (net : MnNet) (event : Event) :
    Unique (w.exec net event).1.set.sock ↔ Clear w net event := by
  cases event with
  | connect i ip port now => exact connect_unique unique net i ip port now
  | listen i port =>
    refine iff_of_true (unique.call i net _ fun t => ?_) trivial
    unfold mnTcpListen
    split
    · exact fun live => ⟨live, rfl⟩
    · simp [Continues, active]
  | send i data len fits =>
    exact iff_of_true (unique.call i net _ fun t => mnTcpSend_continues t w.x data len) trivial
  | sendX i ext src len =>
    exact iff_of_true (unique.call i net _ fun t => mnTcpSendX_continues t w.x ext src len) trivial
  | recv i cap => exact iff_of_true (unique.call i net _ fun t => afterRecv_continues t _) trivial
  | recvX i ext dst cap =>
    exact iff_of_true (unique.call i net _ fun t => afterRecv_continues t _) trivial
  | close i => exact iff_of_true (unique.call i net _ mnTcpClose_continues) trivial
  | abort i =>
    refine iff_of_true (unique.call i net _ fun t => ?_) trivial
    simp [Continues, active, mnTcpAbort]
  | input src seg => exact iff_of_true (input_unique unique net src seg) trivial
  | poll now => exact iff_of_true (poll_unique unique net now) trivial

/-! ## Runs -/

private theorem begun_unique (begun : World.Begun w) : Unique w.set.sock := by
  obtain ⟨socks, n, base, x, rfl⟩ := begun
  intro i j t u found _ live
  simp [active, (mnTcpInit_get? found).2.2.2.1] at live

/-- Every connect among `steps` draws a four-tuple not in use. -/
def AllClear : World → List (MnNet × Event) → Prop
  | _, [] => True
  | w, (net, event) :: rest => Clear w net event ∧ AllClear (w.exec net event).1 rest

private theorem unique_along (unique : Unique w.set.sock) (steps : List (MnNet × Event)) :
    (∀ k, Unique (World.execAll w (steps.take k)).set.sock) ↔ AllClear w steps := by
  induction steps generalizing w with
  | nil => simpa [World.execAll, AllClear] using unique
  | cons step rest ih =>
    obtain ⟨net, event⟩ := step
    constructor
    · intro always
      have next : Unique (w.exec net event).1.set.sock := always 1
      exact ⟨(exec_unique unique net event).mp next, (ih next).mp fun k => always (k + 1)⟩
    · rintro ⟨clear, later⟩ (_ | k)
      · exact unique
      · exact (ih ((exec_unique unique net event).mpr clear)).mpr later k

/-- Along a run no two active sockets ever share a four-tuple, and each
segment finds its owner first, exactly when no connect draws a four-tuple that
an active socket has. -/
theorem four_tuples_unique_iff (begun : World.Begun w) (steps : List (MnNet × Event)) :
    (∀ k, OneOwner (World.execAll w (steps.take k)).set.sock) ↔ AllClear w steps := by
  simp only [oneOwner_iff]
  exact unique_along (begun_unique begun) steps

instance decidableClear (w : World) (net : MnNet) : ∀ event, Decidable (Clear w net event)
  | .connect _ _ _ _ => inferInstanceAs (Decidable (∀ t ∈ _, _))
  | .listen .. | .send .. | .sendX .. | .recv .. | .recvX .. | .close _ | .abort _ | .input .. | .poll _ =>
    isTrue trivial

instance decidableAllClear : ∀ (w : World) (steps : List (MnNet × Event)), Decidable (AllClear w steps)
  | _, [] => isTrue trivial
  | w, (net, event) :: rest =>
    have := decidableAllClear (w.exec net event).1 rest
    inferInstanceAs (Decidable (Clear w net event ∧ AllClear (w.exec net event).1 rest))

/-- Two connections to one server port, the second opened at `tick` with the
first already established. -/
def twice (tick : UInt16) : List (MnNet × Event) :=
  [(goodNet, .connect 0 neighbour 80 0),
    (goodNet, .input neighbour
      (fromPeer 49153 1000 2 { syn := true, ack := true } 2048 [] nothing_fits)),
    (goodNet, .poll tick), (goodNet, .connect 1 neighbour 80 tick)]

theorem four_tuples_unique_iff_twice : AllClear (freshWorld 2) (twice 100) ∧
    OneOwner (World.execAll (freshWorld 2) (twice 100)).set.sock := by
  have clear : AllClear (freshWorld 2) (twice 100) := by decide +kernel
  exact ⟨clear, (four_tuples_unique_iff ⟨_, _, _, _, rfl⟩ (twice 100)).mpr clear 4⟩

/-- Opened 1353 ticks after the first, the second connection draws the first
one's port. -/
theorem tuple_drawn_twice : ¬ ∀ w, World.Run w → OneOwner w.set.sock := by
  intro always
  have owner := always _ (World.Run.execAll (freshWorld_run 2) (twice 1353))
  have shared : ∃ t u, (World.execAll (freshWorld 2) (twice 1353)).set.sock = [t, u] ∧
      active t = true ∧ active u = true ∧ fourTuple t = fourTuple u :=
    ⟨_, _, rfl, by decide +kernel, by decide +kernel, by decide +kernel⟩
  obtain ⟨t, u, both, live, live', same⟩ := shared
  rw [both] at owner
  have equal := owner.unique 0 1 t u rfl rfl live live' same
  contradiction

end MegaNet.TcpFourTuple
