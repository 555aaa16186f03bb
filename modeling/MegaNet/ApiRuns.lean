import MegaNet.ApiMoves
import MegaNet.CivilTime

/-! Whole runs of a program over the ABI: its calls, from the first INIT on, and
what it writes by itself in between. The stack below goes through a life of its
own, in its pool, whatever the rest of the memory is used for. -/
namespace MegaNet.ApiRuns
open MegaNet.Core Transition AddressSpace TcpConnection TcpSetRuns TcpIsolation UdpSockets
  ClientCalls PoolContents
  PoolLayout ApiMoves

variable {s s' : Api} {st st' : Stack} {r out : Regs} {i : Inputs} {entry : Entry}
  {allowed : Act → Prop} {W : Set Nat}

/-! ## Where a call would run past a buffer -/

/-- What a call must not ask for: a copy of no bytes, which the DMA takes for one
of 65536, over the end of a buffer of the module or of the caller's. -/
def Overruns (s : Api) (r : Regs) (i : Inputs) : Entry → Prop
  | .linkTx => callerWord s.m (r.argPtr + 3) = 0
  | .linkRx => ∃ f, i.frame = some f ∧ (callerWord s.m (r.argPtr + 3) = 0 ∨ f.bytes = [])
  | .udpSend => (s.openPort r).isSome = true ∧ callerWord s.m (r.argPtr + 9) = 0
  | _ => False

private theorem fetchInto_none {src : UInt32} {count : UInt16} : s.fetchInto src count = none ↔
    count = 0 := by
  unfold Api.fetchInto
  split <;> simp_all

private theorem linkTx_none : mnApiLinkTx s r i = none ↔ callerWord s.m (r.argPtr + 3) = 0 := by
  have len : (s.fetch r.argPtr 5).blkWord 3 = callerWord s.m (r.argPtr + 3) :=
    fetch_word (by decide) s r.argPtr
  unfold mnApiLinkTx
  dsimp only
  rw [len]
  split
  · rename_i long
    refine ⟨nofun, fun zero => ?_⟩
    rw [zero] at long
    exact absurd long (by decide)
  · rw [Option.map_eq_none_iff]
    exact fetchInto_none

private theorem linkRx_none : mnApiLinkRx s r i = none ↔
    ∃ f, i.frame = some f ∧ (callerWord s.m (r.argPtr + 3) = 0 ∨ f.bytes = []) := by
  have len : (s.fetch r.argPtr 5).blkWord 3 = callerWord s.m (r.argPtr + 3) :=
    fetch_word (by decide) s r.argPtr
  unfold mnApiLinkRx
  dsimp only
  rw [len]
  generalize callerWord s.m (r.argPtr + 3) = cap
  have room : (if cap > MN_MAX_FRAME then MN_MAX_FRAME else cap).toNat = 0 ↔ cap = 0 := by
    rw [← UInt16.toNat_inj]
    split
    · rename_i long
      have long' : MN_MAX_FRAME.toNat < cap.toNat := UInt16.lt_iff_toNat_lt.mp long
      have bound : MN_MAX_FRAME.toNat = 1518 := rfl
      simp only [UInt16.reduceToNat]
      omega
    · rfl
  generalize (if cap > MN_MAX_FRAME then MN_MAX_FRAME else cap) = short at room
  cases came : i.frame with
  | none => simp
  | some f =>
    have empty : (f.bytes.take short.toNat).length = 0 ↔ cap = 0 ∨ f.bytes = [] := by
      rw [List.length_eq_zero_iff, List.take_eq_nil_iff, room]
    dsimp only
    split
    · rename_i none_
      exact ⟨fun _ => ⟨f, rfl, empty.mp none_⟩, fun _ => rfl⟩
    · rename_i some_
      refine ⟨nofun, ?_⟩
      rintro ⟨g, same, none_⟩
      cases same
      exact absurd (empty.mpr none_) some_

private theorem udpSend_none : mnApiUdpSend s r = none ↔
    (s.openPort r).isSome = true ∧ callerWord s.m (r.argPtr + 9) = 0 := by
  have len : (s.fetch r.argPtr 11).blkWord 9 = callerWord s.m (r.argPtr + 9) :=
    fetch_word (by decide) s r.argPtr
  unfold mnApiUdpSend
  cases s.openPort r with
  | none => simp
  | some port =>
    dsimp only
    rw [len]
    split
    · rename_i long
      refine ⟨nofun, fun ⟨_, zero⟩ => ?_⟩
      rw [zero] at long
      exact absurd long (by decide)
    · rw [Option.map_eq_none_iff, fetchInto_none]
      simp

private theorem ntpResult_ends : ∃ answer, mnApiNtpResult s r = some answer := by
  have civil (offset : Int16) : ∃ c, Ntp.mnNtpCivil s.ntp.seconds offset = some c := by
    obtain ⟨_, last, few⟩ := CivilTime.daysAndRem_time (Ntp.localSeconds s.ntp.seconds offset)
    obtain ⟨c, found, _⟩ := CivilTime.civil_fields rfl few last
    exact ⟨c, found⟩
  obtain ⟨c, found⟩ := civil ((s.fetch r.argPtr 2).blkWord 0).toInt16
  have found' : Ntp.mnNtpCivil (s.fetch r.argPtr 2).ntp.seconds
    ((s.fetch r.argPtr 2).blkWord 0).toInt16 = some c := found
  unfold mnApiNtpResult
  dsimp only
  rw [found']
  exact ⟨_, rfl⟩

/-- A call that asks for no such copy returns. -/
theorem exec_returns (fits : ¬ Overruns s r i entry) : ∃ out s', s.exec entry r i = some (out, s') := by
  have returns {done : Option (Regs × Api)} (some_ : done ≠ none) : ∃ out s', done = some (out, s') := by
    obtain ⟨⟨out, s'⟩, same⟩ := Option.ne_none_iff_exists'.mp some_
    exact ⟨out, s', same⟩
  cases entry with
  | linkTx => exact returns fun none_ => fits (linkTx_none.mp none_)
  | linkRx => exact returns fun none_ => fits (linkRx_none.mp none_)
  | udpSend => exact returns fun none_ => fits (udpSend_none.mp none_)
  | ntpResult =>
    obtain ⟨answer, ends⟩ := ntpResult_ends (s := s) (r := r)
    exact ⟨answer.1, answer.2, ends⟩
  | _ => exact ⟨_, _, rfl⟩

/-! ## Runs -/

/-- A call whose buffers spare the pool, or the program's own writes elsewhere. -/
inductive Step (s : Api) : Api → Prop where
  | calls (entry : Entry) (r : Regs) (i : Inputs) {out : Regs} {s' : Api} (spares : Spares s.m r entry)
      (done : s.exec entry r i = some (out, s')) : Step s s'
  | stores (m : PhysMem) (away : ∀ a : UInt32, a.toNat ∈ poolArea → m a = s.m a) : Step s { s with m }

/-- What the first INIT has left, whatever the memory held. -/
def Started (s : Api) : Prop := ∃ before i, s = (mnApiInit before i).2

def Runs : Api → Prop := Reachable Started Step

/-! ## The stack under a run -/

/-- The stack has got to where a life of its own gets it, as far as its pool
goes. -/
def Shadowed (st : Stack) : Prop := ∃ alone, Life alone ∧ Layout alone ∧ LevelStack poolArea alone st

private theorem layout_level (layout : Layout st) (level : LevelStack poolArea st st') : Layout st' := by
  obtain ⟨net, tcp, x⟩ := st
  obtain ⟨net', tcp', x'⟩ := st'
  obtain ⟨rfl, rfl, _⟩ := level
  exact ⟨layout.tcp, layout.udp⟩

theorem orderly_level (layout : Layout st) (order : Orderly st) (level : LevelStack poolArea st st') :
    Orderly st' := by
  obtain ⟨net, tcp, x⟩ := st
  obtain ⟨net', tcp', x'⟩ := st'
  obtain ⟨rfl, rfl, pool⟩ := level
  refine ⟨order.apart, order.spaced, fun set attached => ?_⟩
  obtain ⟨lived, clear⟩ := order.tcp set attached
  refine ⟨Lived.elsewhere lived fun t member a low high => ?_, clear⟩
  obtain ⟨_, first, last⟩ := layout.rings order attached member
  exact (pool (Set.mem_Ico.mpr ⟨by omega, by omega⟩)).symm

theorem Shadowed.parts (shadowed : Shadowed st) : Layout st ∧ Orderly st := by
  obtain ⟨alone, life, layout, level⟩ := shadowed
  exact ⟨layout_level layout level, orderly_level layout life.orderly level⟩

/-- The acts of some kind. -/
abbrev Acts (allowed : Act → Prop) : Stack → Stack → Prop :=
  Relation.ReflTransGen fun st st' => ∃ act, allowed act ∧ st' = exec st act

/-- What moves do is done by acts alone in the pool. -/
theorem moves_acts {alone : Stack} (life : Life alone) (layout : Layout alone)
    (level : LevelStack poolArea alone st)
    (apart : ∀ a ∈ W, a ∉ poolArea) (moves : Moves allowed W st st') :
    ∃ alone', Acts allowed alone alone' ∧ Life alone' ∧ Layout alone' ∧
      LevelStack poolArea alone' st' := by
  induction moves with
  | refl => exact ⟨alone, .refl, life, layout, level⟩
  | tail _ move ih =>
    obtain ⟨there, path, life, layout, level⟩ := ih
    cases move with
    | acts act may =>
      exact ⟨exec there act, path.tail ⟨act, may, rfl⟩,
        life.next ⟨act, rfl⟩, (act_confined layout life.orderly act).layout,
        act_level life.orderly (layout.ringsIn life.orderly) level act⟩
    | copies x within =>
      refine ⟨there, path, life, layout, level.net, level.tcp, fun a inside => ?_⟩
      exact (level.pool inside).trans (within a fun here => apart a here inside).symm

/-! ## INIT -/

private theorem init_home {k : Nat} {t : MnTcp} {socks : List MnTcp} {n : UInt8}
    (found : (mnTcpInit socks n POOL_BANK5).sock[k]? = some t) : home t = 0x50000 + 7168 * k := by
  rw [(mnTcpInit_get? found).2.2.1]
  rfl

/-- INIT sets the stack up in its pool. -/
theorem init_stands (s : Api) (i : Inputs) : UdpSockets.Begun (mnApiInit s i).2.stack ∧
    Layout (mnApiInit s i).2.stack := by
  have length : (mnTcpInit
      (List.replicate MN_ABI_TCP_SOCKETS.toNat zeroedTcp) MN_ABI_TCP_SOCKETS POOL_BANK5).sock.length =
        8 :=
    (mnTcpInit_length _ _ _).1
  generalize base : POOL_BANK5 + MN_ABI_TCP_SOCKETS.toUInt32 * MN_TCP_SOCKET_XMEM = mail
  have place : mail.toNat = 0x5e000 := by
    rw [← base]
    rfl
  have boxes : ∀ j : Fin 4, mailbox (mnApiInit s i).2.stack.net j = 0x5e000 + 576 * j := by
    intro j
    rw [← place, ← base]
    exact setPool_mailbox _ _ (by decide) j
  constructor
  · refine ⟨_, _, mail, by rw [← base]; rfl, by omega,
      Or.inr ⟨_, _, _, rfl, fun t member j a low high => ?_⟩⟩
    obtain ⟨k, found⟩ := List.mem_iff_getElem?.mp member
    have below := (List.getElem?_eq_some_iff.mp found).1
    rw [length] at below
    have start := init_home found
    rw [boxes] at low high
    apply (outside_rings (mnTcpInit_get? found).2.1).mpr
    omega
  · exact ⟨⟨_, rfl, length, fun k t found => init_home found⟩, boxes⟩

theorem init_shadowed (s : Api) (i : Inputs) : Shadowed (mnApiInit s i).2.stack := by
  obtain ⟨begun, layout⟩ := init_stands s i
  exact ⟨_, .start begun, layout, rfl, rfl, fun _ _ => rfl⟩

/-! ## What holds all along -/

structure Standing (s : Api) : Prop where
  shadowed : Shadowed s.stack
  named : s.dns.state = .waiting → Named s.dns

theorem spared (spares : Spares s.m r entry) : ∀ a ∈ addresses (writes s.m r entry), a ∉ poolArea := by
  rintro a ⟨range, listed, k, below, rfl⟩
  exact spares _ ⟨range, List.mem_append_left _ listed, k, below, rfl⟩

theorem exec_standing (standing : Standing s) (spares : Spares s.m r entry)
    (done : s.exec entry r i = some (out, s')) : Standing s' := by
  refine ⟨?_, exec_named standing.named done⟩
  by_cases first : entry = .init
  · subst first
    rw [answered (f := mnApiInit s i) done]
    exact init_shadowed s i
  obtain ⟨layout, order⟩ := standing.shadowed.parts
  obtain ⟨alone, life, placed, level⟩ := standing.shadowed
  obtain ⟨alone', _, life', placed', level'⟩ :=
    moves_acts life placed level (spared spares)
      (exec_moves layout order standing.named spares first done)
  exact ⟨alone', life', placed', level'⟩

/-- What a program writes by itself is outside of the pool. -/
theorem stores_level {m : PhysMem} (away : ∀ a : UInt32, a.toNat ∈ poolArea → m a = s.m a) :
    LevelStack poolArea s.stack (Api.stack { s with m }) := by
  refine ⟨rfl, rfl, fun a inside => ?_⟩
  have high := (Set.mem_Ico.mp inside).2
  have back : (UInt32.ofNat a).toNat = a := by
    rw [UInt32.toNat_ofNat']
    omega
  show linear s.m a = linear m a
  unfold linear
  rw [if_pos (by omega), if_pos (by omega), away _ (back.symm ▸ inside)]

theorem stores_standing {m : PhysMem} (standing : Standing s)
    (away : ∀ a : UInt32, a.toNat ∈ poolArea → m a = s.m a) :
    Standing { s with m } := by
  obtain ⟨alone, life, layout, level⟩ := standing.shadowed
  have outside := stores_level away
  exact ⟨⟨alone, life, layout, level.net, level.tcp, level.pool.trans outside.pool⟩, standing.named⟩

theorem Runs.standing (runs : Runs s) : Standing s := by
  refine Reachable.invariant (motive := Standing) ?_ ?_ runs
  · rintro _ ⟨before, i, rfl⟩
    exact ⟨init_shadowed before i, nofun⟩
  · rintro s _ _ standing step
    cases step with
    | calls entry r i spares done => exact exec_standing standing spares done
    | stores m away => exact stores_standing standing away

/-- Whatever a program calls, the stack is, in its pool, where acts of its own
have got it, and each call that asks for no copy of no bytes returns, having done
only acts that its entry is there for. -/
theorem abi_refines_stack (runs : Runs s) :
    Shadowed s.stack ∧ ∀ entry r i, entry ≠ .init → Spares s.m r entry → ¬ Overruns s r i entry →
      ∃ out s', s.exec entry r i = some (out, s') ∧
        ∀ alone, Life alone → LevelStack poolArea alone s.stack →
          ∃ alone', Acts (Allowed s r i entry) alone alone' ∧ LevelStack poolArea alone' s'.stack := by
  refine ⟨runs.standing.shadowed, fun entry r i later spares fits => ?_⟩
  obtain ⟨out, s', done⟩ := exec_returns fits
  refine ⟨out, s', done, fun alone life level => ?_⟩
  obtain ⟨layout, order⟩ := runs.standing.shadowed.parts
  have placed : Layout alone := layout_level layout ⟨level.net.symm, level.tcp.symm, level.pool.symm⟩
  have moves := exec_moves layout order runs.standing.named spares later done
  obtain ⟨alone', path, _, _, level'⟩ := moves_acts life placed level (spared spares) moves
  exact ⟨alone', path, level'⟩

/-- A machine before INIT. -/
def bare : Api :=
  { net := zeroedNet ⟨⟨2, 0, 0, 0, 0, 1⟩, fun _ => true, []⟩, dhcp := idleDhcp,
    dns := idleDns, ntp := idleNtp
    tcpset := ⟨[], 0, 0⟩, poolKind :=
      0, poolBase := 0, name := [], ticks := 0, lastFrame := 0, blk := [], m := fun _ => 0 }

/-- A quiet link, at frame 7. -/
def quietLink : Inputs := { frameCount := 7, mac := ⟨2, 0, 0, 0, 0, 1⟩ }

/-- After INIT. -/
def fresh : Api := (mnApiInit bare quietLink).2

/-- A block to send a byte to everyone's port 2000, and the byte. -/
def blocks : PhysMem :=
  put (put (fun _ => 0) 0x1600 [255, 255, 255, 255, 0xd0, 0x07, 0, 0x17, 0, 1, 0]) 0x1700 [7]

/-- After INIT and UDP_OPEN of port 1000. -/
def opened : Api := (mnApiUdpOpen (mnApiInit { bare with m := blocks } quietLink).2 ⟨0xe8, 0x03, 0, 0⟩).2

theorem opened_runs : Runs opened :=
  .next (.start ⟨{ bare with m := blocks }, quietLink, rfl⟩)
    (.calls .udpOpen ⟨0xe8, 0x03, 0, 0⟩ quietLink (spares_nothing ⟨rfl, rfl⟩) rfl)

/-- UDP_SEND of the byte. -/
theorem abi_refines_stack_udpSend :
    ∃ out s' alone, opened.exec .udpSend ⟨0, 0x16, 0, 0⟩ quietLink = some (out, s') ∧
      Acts (Allowed opened ⟨0, 0x16, 0, 0⟩ quietLink .udpSend) opened.stack alone ∧
        LevelStack poolArea alone s'.stack := by
  have fits : ¬ Overruns opened ⟨0, 0x16, 0, 0⟩ quietLink .udpSend := fun bad =>
    absurd bad.2 (by decide +kernel)
  obtain ⟨out, s', done, refined⟩ :=
    (abi_refines_stack opened_runs).2 .udpSend ⟨0, 0x16, 0, 0⟩ quietLink (by decide)
    (spares_nothing ⟨rfl, rfl⟩) fits
  have life : Life opened.stack :=
    .next (.start (init_stands { bare with m := blocks } quietLink).1) ⟨.opens 1000, rfl⟩
  obtain ⟨alone, acts, level⟩ := refined opened.stack life ⟨rfl, rfl, fun _ _ => rfl⟩
  exact ⟨out, s', alone, done, acts, level⟩

/-! ## What a call writes -/

end MegaNet.ApiRuns
