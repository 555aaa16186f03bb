import MegaNet.Core.Client
import MegaNet.ProgramsEndToEnd

/-! C programs on two machines, in bank 0, that call the stack by the helpers of
`meganet.h` alone: each helper is a call of the ABI with blocks that spare the
pool, so what holds of any two programs holds of these, of their own variables. -/
namespace MegaNet.ClientsEndToEnd
open MegaNet.Core Transition AddressSpace TcpEndToEnd PoolLayout ApiMoves ApiBlocks
  ApiRuns ProgramsEndToEnd

variable {s s' s₁ : Api} {m m' : PhysMem} {h h' peer : Machine}
  {role : Role} {k : Fin 8} {entry : Entry} {r out : Regs}
  {i : Inputs} {p q b addr : UInt16} {a x y z v : UInt8} {n l : Nat} {bytes : List UInt8}

/-! ## Bank 0 -/

/-- An object of a C program: in bank 0, outside the trampoline's page. -/
def Object (p : UInt16) (n : Nat) : Prop :=
  p.toNat + n ≤ 0x10000 ∧ (p.toNat + n ≤ 0x1600 ∨ 0x1700 ≤ p.toNat)

theorem Object.shorter (object : Object p n) (less : l ≤ n) : Object p l := by
  obtain ⟨fits, place⟩ := object
  exact ⟨by omega, by omega⟩

/-- Two objects share no byte. -/
def Beside (p : UInt16) (n : Nat) (q : UInt16) (l : Nat) : Prop :=
  p.toNat + n ≤ q.toNat ∨ q.toNat + l ≤ p.toNat

theorem Beside.apart (beside : Beside p n q l) (here : p.toNat + n ≤ 0x10000)
    (there : q.toNat + l ≤ 0x10000) :
    Apart p.toUInt32 n q.toUInt32 l := by
  rcases beside with before | after
  · exact apart_of_le (by simpa using before) (by simp; omega)
  · exact (apart_of_le (by simpa using after) (by simp; omega)).symm

/-- What is stored in the page does not touch an object. -/
theorem Object.page (object : Object p n) {a : UInt32} (low : 0x1600 ≤ a.toNat)
    (high : a.toNat + l ≤ 0x1700) :
    Apart p.toUInt32 n a l := by
  obtain ⟨fits, before | after⟩ := object
  · exact apart_of_le (by simp; omega) (by omega)
  · exact (apart_of_le (by simp; omega) (by simp; omega)).symm

/-- A pointer of three bytes, the last one 0, is one into bank 0. -/
theorem pointer_low (p : UInt16) : pointer p.toUInt8 (p >>> 8).toUInt8 0 = p.toUInt32 := by
  have below := p.toNat_lt
  have high : (p >>> 8).toUInt8.toNat = p.toNat / 256 := by
    rw [UInt16.toNat_toUInt8, UInt16.toNat_shiftRight, Nat.shiftRight_eq_div_pow,
      show (2 : Nat) ^ (UInt16.toNat 8 % 16) = 256 from rfl]
    omega
  have shifted : ((p >>> 8).toUInt8.toUInt32 <<< 8).toNat = 2 ^ 8 * (p.toNat / 256) := by
    rw [UInt32.toNat_shiftLeft, UInt8.toNat_toUInt32, high, show UInt32.toNat 8 % 32 = 8 from rfl,
      Nat.shiftLeft_eq]
    omega
  have nothing : UInt8.toUInt32 0 <<< 16 = 0 := rfl
  rw [← UInt32.toNat_inj, pointer, nothing, UInt32.or_zero, UInt32.toNat_or, shifted,
    UInt8.toNat_toUInt32,
    UInt16.toNat_toUInt8, UInt16.toNat_toUInt32, Nat.or_comm, ← Nat.two_pow_add_eq_or_of_lt (by omega)]
  omega

/-- The memory outside of bank 0 is the same. -/
def Low (m m' : PhysMem) : Prop := ∀ a : UInt32, 0x20000 ≤ a.toNat → m' a = m a

theorem Low.refl (m : PhysMem) : Low m m := fun _ _ => rfl

theorem Low.put (low : Low m m') {a : UInt32} (fits : a.toNat + bytes.length ≤ 0x20000) : Low m
    (put m' a bytes) := by
  intro c high
  refine (put_outside fun j below same => ?_).trans (low c high)
  rw [same, UInt32.toNat_add, UInt32.toNat_ofNat'] at high
  omega

/-- What lies in bank 0 spares the pool. -/
theorem low_spares (low : ∀ range ∈ writes m r entry ++ lends m r entry,
    range.1.toNat + range.2 ≤ 0x50000) :
    Spares m r entry := by
  rintro a ⟨range, listed, j, below, rfl⟩ inside
  have fits := low range listed
  have start := (Set.mem_Ico.mp inside).1
  rw [UInt32.toNat_add, UInt32.toNat_ofNat'] at start
  omega

/-- And so do the clock's registers. -/
theorem clock_spares : Spares m r .setRtc := by
  rintro a ⟨range, listed, j, below, rfl⟩ inside
  obtain rfl : range = (RTC, 7) := List.mem_singleton.mp listed
  have last := (Set.mem_Ico.mp inside).2
  rw [UInt32.toNat_add, UInt32.toNat_ofNat', show RTC.toNat = 0xFFD7110 from rfl] at last
  dsimp only at below
  omega

/-! ## The far call -/

/-- The mailbox filled in and the `jsr` patched. -/
def staged (m : PhysMem) (addr : UInt16) (r : Regs) : PhysMem :=
  put (put m MEGANET_TR [addr.toUInt8, (addr >>> 8).toUInt8, r.a, r.x, r.y, r.z]) JSR_OPERAND
    [addr.toUInt8, (addr >>> 8).toUInt8]

/-- The answer in the mailbox. -/
def answered_ (m : PhysMem) (out : Regs) : PhysMem := put m (MEGANET_TR + 6) [out.a, out.x, out.y, out.z]

private theorem answered_results (s : Api) (out : Regs) : trResults
    { s with m := answered_ s.m out } = out :=
  rfl

/-- A call is one of the ABI, with the registers it is given. -/
theorem call_cases (known : entryAt addr = some entry)
    (done : meganetCall s i addr a x y z = some (v, s')) :
    ∃ out s₁, Api.exec { s with m := staged s.m addr ⟨a, x, y, z⟩ } entry
      ⟨a, x, y, z⟩ i = some (out, s₁) ∧
      s' = { s₁ with m := answered_ s₁.m out } ∧ v = out.a := by
  obtain ⟨s'', called, same⟩ := Option.map_eq_some_iff.mp done
  cases same
  have address : word addr.toUInt8 (addr >>> 8).toUInt8 = addr := word_bytes16 addr
  have called_ : ((entryAt (word addr.toUInt8 (addr >>> 8).toUInt8)).bind fun entry =>
      (Api.exec { s with m := staged s.m addr ⟨a, x, y, z⟩ } entry ⟨a, x, y, z⟩ i).map fun answer =>
        answer.2.copyTo (MEGANET_TR + 6) [answer.1.a, answer.1.x, answer.1.y, answer.1.z]) =
          some s' := called
  rw [address, known, Option.bind_some] at called_
  obtain ⟨⟨out, s₁⟩, ran, rfl⟩ := Option.map_eq_some_iff.mp called_
  exact ⟨out, s₁, ran, rfl, rfl⟩

/-- An object is there for the call as it was before. -/
theorem staged_run (object : Object p n) (m : PhysMem) (addr : UInt16) (r : Regs) :
    run (staged m addr r) p.toUInt32 n = run m p.toUInt32 n := by
  have operand : Apart p.toUInt32 n JSR_OPERAND 2 := object.page (by decide) (by decide)
  have mailbox : Apart p.toUInt32 n MEGANET_TR 6 := object.page (by decide) (by decide)
  exact (run_put_apart operand).trans (run_put_apart mailbox)

theorem answered_run (object : Object p n) (m : PhysMem) (out : Regs) :
    run (answered_ m out) p.toUInt32 n = run m p.toUInt32 n := by
  have results : Apart p.toUInt32 n (MEGANET_TR + 6) 4 := object.page (by decide) (by decide)
  exact run_put_apart results

private theorem staged_low (m : PhysMem) (addr : UInt16) (r : Regs) : Low m (staged m addr r) :=
  ((Low.refl m).put (Nat.le_of_ble_eq_true rfl)).put (Nat.le_of_ble_eq_true rfl)

private theorem answered_low (m : PhysMem) (out : Regs) : Low m (answered_ m out) :=
  (Low.refl m).put (Nat.le_of_ble_eq_true rfl)

/-! ## Parameter blocks -/

private theorem argPtr_low (p : UInt16) (z : UInt8) : Regs.argPtr
    ⟨p.toUInt8, (p >>> 8).toUInt8, 0, z⟩ = p.toUInt32 :=
  pointer_low p

/-- What a helper has put into its block is there for the call. -/
theorem block_run (object : Object b bytes.length) (m : PhysMem) (addr : UInt16) (r : Regs) :
    run (staged (put m b.toUInt32 bytes) addr r) b.toUInt32 bytes.length = bytes :=
  (staged_run object _ addr r).trans
    (run_put (object.1.trans' (Nat.le_add_left _ _) |>.trans (by decide)))

/-- A byte of what is there. -/
theorem byte_of_run {m : PhysMem} {a : UInt32} (same : run m a n = bytes) (j : Nat)
    (below : j < bytes.length) :
    m (a + UInt32.ofNat j) = bytes[j] := by
  subst same
  rw [run_length] at below
  exact (Option.some.inj ((List.getElem?_eq_getElem _).symm.trans (run_getElem? below))).symm

theorem callerPtr_of_run {m : PhysMem} {a : UInt32} (rest : List UInt8)
    (same : run m a n = meganetPtr28 p ++ rest) :
    callerPtr m a = p.toUInt32 := by
  have byte := byte_of_run same
  have first : m a = p.toUInt8 :=
    (congrArg m (UInt32.add_zero a)).symm.trans (byte 0 (by simp [meganetPtr28]))
  rw [callerPtr, first, show m (a + 1) = _ from byte 1 (by simp [meganetPtr28]),
    show m (a + 2) = _ from byte 2 (by simp [meganetPtr28])]
  exact pointer_low p

theorem callerWord_of_run {m : PhysMem} {a : UInt32} {v : UInt16} {rest : List UInt8}
    (same : run m a n = meganetPtr28 p ++ (bytes16 v ++ rest)) : callerWord m (a + 3) = v := by
  have byte := byte_of_run same
  have low : m (a + 3) = v.toUInt8 := byte 3 (by simp [meganetPtr28, bytes16])
  have high : m (a + 3 + 1) = (v >>> 8).toUInt8 := by
    rw [UInt32.add_assoc]
    exact byte 4 (by simp [meganetPtr28, bytes16])
  rw [callerWord, low, high, word_bytes16]

/-! ## Calls as steps of a machine -/

/-- A machine goes on. -/
abbrev Path (peer : Machine) (role : Role) (k : Fin 8) : Machine → Machine → Prop :=
  Relation.ReflTransGen fun h h' => h.Step peer role k h'

private theorem stores_path (low : Low h.api.m m) : Path peer role k h
    { h with api := { h.api with m } } := by
  refine .single (.stores m fun a inside => low a ?_)
  exact Nat.le_trans (by decide) (Set.mem_Ico.mp inside).1

/-- A helper fills in its block, makes its call, and takes out what it is for. -/
theorem call_path (peer : Machine) (role : Role) (low : Low h.api.m m)
    (done : meganetCall { h.api with m } i addr a x y z = some (v, s'))
    (known : entryAt addr = some entry)
    (fair : Fair role k { h with api := { h.api with m := staged m addr ⟨a, x, y, z⟩ } } peer entry
      ⟨a, x, y, z⟩ i)
    (after : Low s'.m m') :
    ∃ out s₁, Api.exec { h.api with m := staged m addr ⟨a, x, y, z⟩ } entry
      ⟨a, x, y, z⟩ i = some (out, s₁) ∧
      s' = { s₁ with m := answered_ s₁.m out } ∧ v = out.a ∧
      Path peer role k h
        { Machine.after { h with api := { h.api with m := staged m addr ⟨a, x, y, z⟩ } } k role entry
          ⟨a, x, y, z⟩ out s₁ with
          api := { s' with m := m' } } := by
  obtain ⟨out, s₁, ran, rfl, answer⟩ := call_cases known done
  refine ⟨out, s₁, ran, rfl, answer, ?_⟩
  have begins : Path peer role k h { h with api := { h.api with m := staged m addr ⟨a, x, y, z⟩ } } :=
    stores_path fun c high => (staged_low m addr _ c high).trans (low c high)
  have calls := begins.tail (.calls entry _ i fair ran)
  have ends : Low s₁.m m' := fun c high => (after c high).trans (answered_low s₁.m out c high)
  exact calls.trans (stores_path ends)

/-- The entries that are not about the bytes of a connection. -/
def Calm (entry : Entry) : Prop :=
  entry ≠ .init ∧ entry ≠ .tcpConnect ∧ entry ≠ .tcpListen ∧ entry ≠ .tcpSend ∧ entry ≠ .tcpRecv

/-- A call of such an entry leaves the records of the machine as they are. -/
theorem calm_path (low : Low h.api.m m)
    (done : meganetCall { h.api with m } i addr a x y z = some (v, s'))
    (known : entryAt addr = some entry) (calm : Calm entry)
    (spares : Spares (staged m addr ⟨a, x, y, z⟩) ⟨a, x, y, z⟩ entry)
    (genuine : entry = .poll → ∀ f, i.frame = some f → Genuine peer.handed f) (after : Low s'.m m') :
    Path peer role k h { h with api := { s' with m := m' } } := by
  obtain ⟨init, connect, listen, send, recv⟩ := calm
  have fair : Fair role k
      { h with api := { h.api with m := staged m addr ⟨a, x, y, z⟩ } } peer entry ⟨a, x, y, z⟩ i :=
    ⟨init, spares, fun opening => absurd opening (by simp [connect, listen]),
      fun same => absurd same recv, genuine⟩
  obtain ⟨out, s₁, _, _, _, path⟩ := call_path peer role low done known fair after
  have other : (entry == role.entry) = false := by cases role <;> simp [Role.entry, connect, listen]
  simp only [Machine.after, took, gave, send, recv, false_and, if_false, List.append_nil, other,
    Bool.or_false] at path
  exact path

/-- And so does one that writes nothing but what it answers. -/
theorem quiet_path (low : Low h.api.m m)
    (done : meganetCall { h.api with m } i addr a x y z = some (v, s'))
    (known : entryAt addr = some entry) (calm : Calm entry)
    (none_ : ∀ m r, writes m r entry = [] ∧ lends m r entry = [])
    (other : entry ≠ .poll) (after : Low s'.m m') : Path peer role k h
    { h with api := { s' with m := m' } } :=
  calm_path low done known calm (spares_nothing (none_ _ _)) (fun poll => absurd poll other) after

/-! ## The helpers -/

/-- The helpers that neither open a connection nor move its bytes, with the address
of their block where they have one. -/
inductive Helper where
  | linkTx (b frame len : UInt16)
  | linkRx (b buf cap : UInt16)
  | setIp (c : UInt16)
  | getStats (st : UInt16)
  | getIp (c : UInt16)
  | getDns (dns4 : UInt16)
  | dnsStart (name : UInt16)
  | ntpResult (t : UInt16)
  | setRtc (r : UInt16)
  | dhcpStart
  | dhcpState
  | dhcpStatus
  | dnsState
  | ntpState
  | poll
  | tcpInfo
  | dnsResult (ip4 : UInt16)
  | ntpStart (ip4 : UInt16)
  | tcpState (sock : UInt8)
  | tcpPeer (b : UInt16) (sock : UInt8) (ip4 : UInt16)
  | tcpClose (sock : UInt8)
  | tcpAbort (sock : UInt8)
  | udpOpen (port : UInt16)
  | udpClose (sock : UInt8)
  | udpSend (b : UInt16) (sock : UInt8) (ip4 port data len : UInt16)
  | udpRecv (b : UInt16) (sock : UInt8) (buf cap : UInt16)

/-- What a helper leaves. -/
def Helper.exec (s : Api) (i : Inputs) : Helper → Option Api
  | .linkTx b frame len => (meganetLinkTx s i b frame len).map Prod.snd
  | .linkRx b buf cap => (meganetLinkRx s i b buf cap).map Prod.snd
  | .setIp c => (meganetSetIp s i c).map Prod.snd
  | .getStats st => (meganetGetStats s i st).map Prod.snd
  | .getIp c => (meganetGetIp s i c).map Prod.snd
  | .getDns dns4 => (meganetGetDns s i dns4).map Prod.snd
  | .dnsStart name => (meganetDnsStart s i name).map Prod.snd
  | .ntpResult t => (meganetNtpResult s i t).map Prod.snd
  | .setRtc r => (meganetSetRtc s i r).map Prod.snd
  | .dhcpStart => (meganetDhcpStart s i).map Prod.snd
  | .dhcpState => (meganetDhcpState s i).map Prod.snd
  | .dhcpStatus => (meganetDhcpStatus s i).map Prod.snd
  | .dnsState => (meganetDnsState s i).map Prod.snd
  | .ntpState => (meganetNtpState s i).map Prod.snd
  | .poll => (meganetPoll s i).map Prod.snd
  | .tcpInfo => (meganetTcpInfo s i).map Prod.snd
  | .dnsResult ip4 => meganetDnsResult s i ip4
  | .ntpStart ip4 => (meganetNtpStart s i ip4).map Prod.snd
  | .tcpState sock => (meganetTcpStateS s i sock).map Prod.snd
  | .tcpPeer b sock ip4 => (meganetTcpPeer s i b sock ip4).map Prod.snd
  | .tcpClose sock => (meganetTcpCloseS s i sock).map Prod.snd
  | .tcpAbort sock => (meganetTcpAbortS s i sock).map Prod.snd
  | .udpOpen port => (meganetUdpOpen s i port).map Prod.snd
  | .udpClose sock => (meganetUdpClose s i sock).map Prod.snd
  | .udpSend b sock ip4 port data len => (meganetUdpSend s i b sock ip4 port data len).map Prod.snd
  | .udpRecv b sock buf cap => (meganetUdpRecv s i b sock buf cap).map Prod.snd

/-- Where it keeps what the stack is to find. -/
def Helper.Placed : Helper → Prop
  | .linkTx b .. => Object b 5
  | .linkRx b .. => Object b 7
  | .udpSend b .. => Object b 11
  | .udpRecv b .. => Object b 13
  | _ => True

/-- A C program's machine, with the bytes that `meganet_tcp_send_s` has taken and
`meganet_tcp_recv_s` has brought on its socket. -/
inductive CStep (h peer : Machine) (role : Role) (k : Fin 8) : Machine → Prop where
  | calls (helper : Helper) (i : Inputs) {s : Api} (placed : helper.Placed)
      (genuine : helper = .poll → ∀ f, i.frame = some f → Genuine peer.handed f)
      (done : helper.exec h.api i = some s) :
      CStep h peer role k { h with api := s }
  | connects (b : UInt16) (sock : UInt8) (ip4 port : UInt16) (i : Inputs) {v : UInt8} {s : Api}
      (role_ : role = .connects) (here : sock.toNat = k) (first : h.opened = false)
      (done : meganetTcpConnectS h.api i b sock ip4 port = some (v, s)) :
      CStep h peer role k { h with api := s, opened := true }
  | listens (sock : UInt8) (port : UInt16) (i : Inputs) {v : UInt8} {s : Api} (role_ : role = .listens)
      (here : sock.toNat = k) (first : h.opened = false)
      (done : meganetTcpListen h.api i sock port = some (v, s)) :
      CStep h peer role k { h with api := s, opened := true }
  | sends (b : UInt16) (sock : UInt8) (data len : UInt16) (i : Inputs) {n : UInt16} {s : Api}
      (placed : Object b 5)
      (buffer : Object data len.toNat) (beside : Beside data len.toNat b 5)
      (done : meganetTcpSendS h.api i b sock data len = some (n, s)) :
      CStep h peer role k
        { h with
          api := s
          sent := h.sent ++ if sock.toNat = k then run h.api.m data.toUInt32 n.toNat else [] }
  | receives (b : UInt16) (sock : UInt8) (buf cap : UInt16) (i : Inputs) {n : UInt16} {s : Api}
      (placed : Object b 7)
      (buffer : Object buf cap.toNat) (beside : Beside buf cap.toNat b 7)
      (done : meganetTcpRecvS h.api i b sock buf cap = some (n, s)) :
      CStep h peer role k
        { h with
          api := s
          received := h.received ++ if sock.toNat = k then run s.m buf.toUInt32 n.toNat else [] }
  | stores (m : PhysMem) (low : Low h.api.m m) : CStep h peer role k { h with api := { h.api with m } }

/-- The words of a helper's own, in bank 0. -/
theorem local_low (m : PhysMem) (p : UInt16) (few : bytes.length ≤ 16) : Low m
    (put m p.toUInt32 bytes) := by
  refine (Low.refl m).put ?_
  have below := p.toNat_lt
  rw [UInt16.toNat_toUInt32]
  omega

/-- A field of an object, or all of it, is in bank 0. -/
theorem field_low (p : UInt16) (o : UInt32) (near : o.toNat ≤ 16) :
    (p.toUInt32 + o).toNat ≤ 0x1000f := by
  have below := p.toNat_lt
  rw [UInt32.toNat_add, UInt16.toNat_toUInt32]
  omega

/-- What is written into the object that a helper points to. -/
theorem field_spares (p : UInt16) (z : UInt8) (o : UInt32) (n : Nat) (near : o.toNat ≤ 16) (few : n ≤ 64)
    (one : ∀ m, writes m ⟨p.toUInt8, (p >>> 8).toUInt8, 0, z⟩ entry ++
      lends m ⟨p.toUInt8, (p >>> 8).toUInt8, 0, z⟩ entry =
      [((⟨p.toUInt8, (p >>> 8).toUInt8, 0, z⟩ : Regs).argPtr + o, n)]) :
    Spares m ⟨p.toUInt8, (p >>> 8).toUInt8, 0, z⟩ entry := by
  refine low_spares fun range listed => ?_
  rw [one m, List.mem_singleton, argPtr_low] at listed
  rw [listed]
  have place := field_low p o near
  dsimp only
  omega

/-- What is written into a buffer and into the block that points to it. -/
theorem buffer_spares (b buf : UInt16) (z : UInt8) (o : UInt32) {room n : Nat}
    (near : o.toNat ≤ 16) (few : n ≤ 64)
    (most : room ≤ 0x10000) (there : callerPtr m b.toUInt32 = buf.toUInt32)
    (two : writes m ⟨b.toUInt8, (b >>> 8).toUInt8, 0, z⟩ entry ++
      lends m ⟨b.toUInt8, (b >>> 8).toUInt8, 0, z⟩ entry =
      [(callerPtr m (Regs.argPtr ⟨b.toUInt8, (b >>> 8).toUInt8, 0, z⟩), room),
        ((⟨b.toUInt8, (b >>> 8).toUInt8, 0, z⟩ : Regs).argPtr + o, n)]) :
    Spares m ⟨b.toUInt8, (b >>> 8).toUInt8, 0, z⟩ entry := by
  refine low_spares fun range listed => ?_
  rw [two, argPtr_low, there] at listed
  have place := field_low b o near
  have start := field_low buf 0 (by decide)
  rw [UInt32.add_zero] at start
  rcases List.mem_cons.mp listed with rfl | last
  · dsimp only
    omega
  · rw [List.mem_singleton.mp last]
    dsimp only
    omega

private theorem frameRoom_most (m : PhysMem) (p : UInt32) : frameRoom m p ≤ 0x10000 :=
  (Nat.min_le_right _ _).trans (by decide)

/-- Every other helper. -/
theorem helper_path (helper : Helper) (placed : helper.Placed)
    (genuine : helper = .poll → ∀ f, i.frame = some f → Genuine peer.handed f)
    (done : helper.exec h.api i = some s) :
    Path peer role k h { h with api := s } := by
  cases helper with
  | setIp | dnsStart | dhcpStart | dhcpState | dnsState | ntpState | ntpStart
  | tcpClose | tcpAbort | udpOpen | udpClose =>
    obtain ⟨⟨v, s'⟩, called, rfl⟩ := Option.map_eq_some_iff.mp done
    exact quiet_path (Low.refl _) called rfl ⟨nofun, nofun, nofun, nofun, nofun⟩
      (fun _ _ => ⟨rfl, rfl⟩) nofun (Low.refl _)
  | linkTx | udpSend =>
    obtain ⟨⟨v, s'⟩, called, rfl⟩ := Option.map_eq_some_iff.mp done
    exact quiet_path (local_low _ _ (Nat.le_of_ble_eq_true rfl)) called rfl
      ⟨nofun, nofun, nofun, nofun, nofun⟩
      (fun _ _ => ⟨rfl, rfl⟩) nofun (Low.refl _)
  | dhcpStatus | tcpInfo | tcpState =>
    obtain ⟨⟨v, s'⟩, got, rfl⟩ := Option.map_eq_some_iff.mp done
    obtain ⟨⟨v', s''⟩, called, same⟩ := Option.map_eq_some_iff.mp got
    cases same
    exact quiet_path (Low.refl _) called rfl ⟨nofun, nofun, nofun, nofun, nofun⟩
      (fun _ _ => ⟨rfl, rfl⟩) nofun (Low.refl _)
  | dnsResult ip4 =>
    obtain ⟨⟨v, s'⟩, called, rfl⟩ := Option.map_eq_some_iff.mp done
    exact quiet_path (Low.refl _) called rfl ⟨nofun, nofun, nofun, nofun, nofun⟩
      (fun _ _ => ⟨rfl, rfl⟩) nofun
      (local_low _ ip4 (Nat.le_of_ble_eq_true rfl))
  | poll =>
    obtain ⟨⟨v, s'⟩, called, rfl⟩ := Option.map_eq_some_iff.mp done
    exact calm_path (Low.refl _) called rfl ⟨nofun, nofun, nofun, nofun, nofun⟩
      (spares_nothing ⟨rfl, rfl⟩)
      (fun _ => genuine rfl) (Low.refl _)
  | setRtc =>
    obtain ⟨⟨v, s'⟩, called, rfl⟩ := Option.map_eq_some_iff.mp done
    exact calm_path (Low.refl _) called rfl ⟨nofun, nofun, nofun, nofun, nofun⟩ clock_spares nofun
      (Low.refl _)
  | getStats =>
    obtain ⟨⟨v, s'⟩, called, rfl⟩ := Option.map_eq_some_iff.mp done
    exact calm_path (Low.refl _) called rfl ⟨nofun, nofun, nofun, nofun, nofun⟩
      (field_spares _ _ 0 36 (by decide) (by decide) fun m => by rw [UInt32.add_zero]; rfl) nofun
        (Low.refl _)
  | getIp =>
    obtain ⟨⟨v, s'⟩, called, rfl⟩ := Option.map_eq_some_iff.mp done
    exact calm_path (Low.refl _) called rfl ⟨nofun, nofun, nofun, nofun, nofun⟩
      (field_spares _ _ 0 12 (by decide) (by decide) fun m => by rw [UInt32.add_zero]; rfl) nofun
        (Low.refl _)
  | getDns =>
    obtain ⟨⟨v, s'⟩, called, rfl⟩ := Option.map_eq_some_iff.mp done
    exact calm_path (Low.refl _) called rfl ⟨nofun, nofun, nofun, nofun, nofun⟩
      (field_spares _ _ 0 4 (by decide) (by decide) fun m => by rw [UInt32.add_zero]; rfl) nofun
        (Low.refl _)
  | ntpResult =>
    obtain ⟨⟨v, s'⟩, called, rfl⟩ := Option.map_eq_some_iff.mp done
    exact calm_path (Low.refl _) called rfl ⟨nofun, nofun, nofun, nofun, nofun⟩
      (field_spares _ _ 2 12 (by decide) (by decide) fun m => rfl) nofun (Low.refl _)
  | tcpPeer b sock ip4 =>
    obtain ⟨⟨v, s'⟩, got, rfl⟩ := Option.map_eq_some_iff.mp done
    obtain ⟨⟨v', s''⟩, called, same⟩ := Option.map_eq_some_iff.mp got
    cases same
    exact calm_path (Low.refl _) called rfl ⟨nofun, nofun, nofun, nofun, nofun⟩
      (field_spares _ _ 0 6 (by decide) (by decide) fun m => by rw [UInt32.add_zero]; rfl) nofun
      (local_low _ ip4 (Nat.le_of_ble_eq_true rfl))
  | linkRx b buf cap =>
    obtain ⟨⟨v, s'⟩, got, rfl⟩ := Option.map_eq_some_iff.mp done
    obtain ⟨⟨v', s''⟩, called, same⟩ := Option.map_eq_some_iff.mp got
    cases same
    have fits : Object b (meganetPtr28 buf ++ bytes16 cap ++ [0, 0]).length := placed
    have there := callerPtr_of_run (bytes16 cap ++ [0, 0])
      (block_run fits h.api.m MEGANET_LINK_RX ⟨b.toUInt8, (b >>> 8).toUInt8, 0, 0⟩)
    exact calm_path (local_low _ _ (Nat.le_of_ble_eq_true rfl)) called rfl
      ⟨nofun, nofun, nofun, nofun, nofun⟩
      (buffer_spares b buf 0 5 (by decide) (by decide) (frameRoom_most _ _) there rfl) nofun (Low.refl _)
  | udpRecv b sock buf cap =>
    obtain ⟨⟨v, s'⟩, got, rfl⟩ := Option.map_eq_some_iff.mp done
    obtain ⟨⟨v', s''⟩, called, same⟩ := Option.map_eq_some_iff.mp got
    cases same
    have fits : Object b (meganetPtr28 buf ++ bytes16 cap).length :=
      placed.shorter (Nat.le_of_ble_eq_true rfl)
    have there := callerPtr_of_run (bytes16 cap)
      (block_run fits h.api.m MEGANET_UDP_RECV ⟨b.toUInt8, (b >>> 8).toUInt8, 0, sock⟩)
    exact calm_path (local_low _ _ (Nat.le_of_ble_eq_true rfl)) called rfl
      ⟨nofun, nofun, nofun, nofun, nofun⟩
      (buffer_spares b buf sock 5 (by decide) (by decide) (frameRoom_most _ _) there rfl) nofun
        (Low.refl _)

/-! ## The socket's own helpers -/

/-- An opening call. -/
theorem opening_path (low : Low h.api.m m)
    (done : meganetCall { h.api with m } i addr a x y z = some (v, s'))
    (known : entryAt addr = some role.entry) (here : z.toNat = k) (first : h.opened = false) :
    Path peer role k h { h with api := s', opened := true } := by
  have none_ : writes (staged m addr ⟨a, x, y, z⟩) ⟨a, x, y, z⟩ role.entry = [] ∧
      lends (staged m addr ⟨a, x, y, z⟩) ⟨a, x, y, z⟩ role.entry = [] := by
        cases role <;> exact ⟨rfl, rfl⟩
  have other : role.entry ≠ .init ∧ role.entry ≠ .tcpRecv ∧ role.entry ≠ .poll := by
    cases role <;> simp [Role.entry]
  have sent (m : PhysMem) (r out : Regs) : took k m role.entry r out = [] := by cases role <;> rfl
  have received (m m' : PhysMem) (r : Regs) : gave k m m' role.entry r = [] := by cases role <;> rfl
  have begun : (role.entry == role.entry) = true := by cases role <;> rfl
  obtain ⟨out, s₁, _, _, _, path⟩ := call_path peer role low done known
    (fair_call other none_ fun _ => ⟨rfl, here, first⟩) (Low.refl _)
  simp only [Machine.after, sent, received, List.append_nil, begun, Bool.or_true] at path
  exact path

/-- The socket's state, whatever the memory. -/
theorem sockZ_stores (s : Api) (m : PhysMem) (r : Regs) : Api.sockZ { s with m } r = s.sockZ r := rfl

private theorem standing_low (standing : Standing s) (low : Low s.m m) : Standing { s with m } :=
  stores_standing standing fun c inside => low c (Nat.le_trans (by decide) (Set.mem_Ico.mp inside).1)

/-- What a helper's block says of a buffer, as the stack is called. -/
structure Told (m : PhysMem) (b : UInt16) (buf len : UInt16) : Prop where
  ptr : callerPtr m b.toUInt32 = buf.toUInt32
  len : callerWord m (b.toUInt32 + 3) = len

theorem told {buf len : UInt16} {rest : List UInt8}
    (fits : Object b (meganetPtr28 buf ++ (bytes16 len ++ rest)).length)
    (m : PhysMem) (addr : UInt16) (r : Regs) :
    Told (staged (put m b.toUInt32 (meganetPtr28 buf ++ (bytes16 len ++ rest))) addr r) b buf len := by
  have there := block_run fits m addr r
  exact ⟨callerPtr_of_run _ there, callerWord_of_run there⟩

/-- How much of a buffer TCP_SEND can say it took. -/
theorem send_few (standing : Standing s) (spares : Spares s.m r .tcpSend) {t : MnTcp}
    (found : s.sockZ r = some t) :
    (word (mnApiTcpSend s r).1.a (mnApiTcpSend s r).1.x).toNat ≤
      (callerWord s.m (r.argPtr + 3)).toNat := by
  obtain ⟨layout, order⟩ := standing.shadowed.parts
  rw [(tcpSend_stack layout order spares found).2, word_bytes16]
  exact TcpOutcomes.sendRoom_most t _

/-- And how much TCP_RECV can say it brought. -/
theorem recv_few (standing : Standing s) (spares : Spares s.m r .tcpRecv) {t : MnTcp}
    (found : s.sockZ r = some t) :
    (callerWord (mnApiTcpRecv s r).2.m (r.argPtr + 5)).toNat ≤
      (callerWord s.m (r.argPtr + 3)).toNat := by
  obtain ⟨layout, order⟩ := standing.shadowed.parts
  obtain ⟨n, m', few, _, _, after⟩ := tcpRecv_takes layout order spares found
  have memory : (mnApiTcpRecv s r).2.m = put m' (r.argPtr + 5) (bytes16 n) := by
    rw [after]
    exact writeBack_fill _ (fetch_long _ _ 5) rfl
  rw [memory, callerWord_put]
  exact few

/-- `meganet_tcp_send_s`: the bytes it says are taken are those of the buffer. -/
theorem send_path {e : Endpoint} (keeps : Keeps h e) {sock : UInt8} {data len n : UInt16}
    (placed : Object b 5)
    (buffer : Object data len.toNat) (beside : Beside data len.toNat b 5)
    (done : meganetTcpSendS h.api i b sock data len = some (n, s)) :
    Path peer role k h
      { h with
        api := s
        sent := h.sent ++ if sock.toNat = k then run h.api.m data.toUInt32 n.toNat else [] } := by
  obtain ⟨⟨v, s'⟩, called_, same⟩ := Option.map_eq_some_iff.mp done
  cases same
  have called : meganetCall
    { h.api with m := put h.api.m b.toUInt32 (meganetPtr28 data ++ bytes16 len) } i
      MEGANET_TCP_SEND b.toUInt8 (b >>> 8).toUInt8 0 sock = some (v, s') := called_
  have fits : Object b (meganetPtr28 data ++ (bytes16 len ++ [])).length := placed
  have block : Told (staged (put h.api.m b.toUInt32 (meganetPtr28 data ++ bytes16 len)) MEGANET_TCP_SEND
      ⟨b.toUInt8, (b >>> 8).toUInt8, 0, sock⟩) b data len := told fits h.api.m _ _
  have low : Low h.api.m (put h.api.m b.toUInt32 (meganetPtr28 data ++ bytes16 len)) :=
    local_low _ _ (Nat.le_of_ble_eq_true rfl)
  have untouched : run
    (staged (put h.api.m b.toUInt32 (meganetPtr28 data ++ bytes16 len)) MEGANET_TCP_SEND
      ⟨b.toUInt8, (b >>> 8).toUInt8, 0, sock⟩) data.toUInt32 len.toNat =
        run h.api.m data.toUInt32 len.toNat :=
    (staged_run buffer ..).trans (run_put_apart (beside.apart buffer.1 placed.1))
  generalize put h.api.m b.toUInt32 (meganetPtr28 data ++ bytes16 len) = m at called block low untouched
  have spares : Spares (staged m MEGANET_TCP_SEND ⟨b.toUInt8, (b >>> 8).toUInt8, 0, sock⟩)
      ⟨b.toUInt8, (b >>> 8).toUInt8, 0, sock⟩ .tcpSend := by
    refine low_spares fun range listed => ?_
    obtain rfl : range = (callerPtr _ _, (callerWord _ _).toNat) := List.mem_singleton.mp listed
    rw [argPtr_low, block.ptr, block.len]
    have fits := buffer.1
    simp only [UInt16.toNat_toUInt32]
    omega
  obtain ⟨out, s₁, ran, rfl, _, path⟩ := call_path peer role low called rfl
    ⟨nofun, spares, by simp, nofun, nofun⟩ (Low.refl _)
  have other : (Entry.tcpSend == role.entry) = false := by cases role <;> rfl
  simp only [Machine.after, gave, reduceCtorEq, false_and, if_false, List.append_nil, other,
    Bool.or_false] at path
  rw [answered_results]
  suffices taken : took k (staged m MEGANET_TCP_SEND ⟨b.toUInt8, (b >>> 8).toUInt8, 0, sock⟩) .tcpSend
      ⟨b.toUInt8, (b >>> 8).toUInt8, 0, sock⟩ out =
      if sock.toNat = k then run h.api.m data.toUInt32 (word out.a out.x).toNat else [] by
    rw [taken] at path
    exact path
  by_cases here : sock.toNat = k
  · obtain ⟨t, found⟩ := keeps.socket (r := ⟨b.toUInt8, (b >>> 8).toUInt8, 0, sock⟩) here
    have answer_ : mnApiTcpSend
        { h.api with m := staged m MEGANET_TCP_SEND ⟨b.toUInt8, (b >>> 8).toUInt8, 0, sock⟩ }
        ⟨b.toUInt8, (b >>> 8).toUInt8, 0, sock⟩ = (out, s₁) := Option.some.inj ran
    have few := send_few
      (standing_low keeps.standing fun c high => (staged_low m _ _ c high).trans (low c high)) spares
      ((sockZ_stores ..).trans found)
    rw [answer_, argPtr_low, block.len] at few
    rw [took, if_pos ⟨rfl, here⟩, if_pos here, argPtr_low, block.ptr, ← run_take few,
      untouched, run_take few]
  · rw [took, if_neg fun both => here both.2, if_neg here]

/-- The answer does not touch what a block says. -/
theorem answered_word (object : Object b n) (m : PhysMem) (out : Regs) (o : UInt32)
    (below : o.toNat + 2 ≤ n) :
    callerWord (answered_ m out) (b.toUInt32 + o) = callerWord m (b.toUInt32 + o) := by
  have byte (j : Nat) (inside : j < n) :
      answered_ m out (b.toUInt32 + UInt32.ofNat j) = m (b.toUInt32 + UInt32.ofNat j) :=
    (byte_of_run (answered_run object m out) j (by simpa using inside)).trans
      (byte_of_run rfl j (by simpa using inside)).symm
  have first := byte o.toNat (by omega)
  have second := byte (o.toNat + 1) (by omega)
  rw [UInt32.ofNat_add, ← UInt32.add_assoc] at second
  rw [UInt32.ofNat_toNat] at first second
  exact congrArg₂ word first second

/-- `meganet_tcp_recv_s`: the bytes it brings are in the buffer when it returns. -/
theorem recv_path {e : Endpoint} (keeps : Keeps h e) {sock : UInt8} {buf cap n : UInt16}
    (placed : Object b 7)
    (buffer : Object buf cap.toNat) (beside : Beside buf cap.toNat b 7)
    (done : meganetTcpRecvS h.api i b sock buf cap = some (n, s)) :
    Path peer role k h
      { h with
        api := s
        received := h.received ++ if sock.toNat = k then run s.m buf.toUInt32 n.toNat else [] } := by
  obtain ⟨⟨v, s'⟩, called_, same⟩ := Option.map_eq_some_iff.mp done
  cases same
  have called : meganetCall
    { h.api with m := put h.api.m b.toUInt32 (meganetPtr28 buf ++ (bytes16 cap ++ [0, 0])) } i
      MEGANET_TCP_RECV b.toUInt8 (b >>> 8).toUInt8 0 sock = some (v, s') := called_
  have fits : Object b (meganetPtr28 buf ++ (bytes16 cap ++ [0, 0])).length := placed
  have block := told fits h.api.m MEGANET_TCP_RECV ⟨b.toUInt8, (b >>> 8).toUInt8, 0, sock⟩
  have low : Low h.api.m (put h.api.m b.toUInt32 (meganetPtr28 buf ++ (bytes16 cap ++ [0, 0]))) :=
    local_low _ _ (Nat.le_of_ble_eq_true rfl)
  generalize put h.api.m b.toUInt32 (meganetPtr28 buf ++ (bytes16 cap ++ [0, 0])) = m at called block low
  have spares : Spares (staged m MEGANET_TCP_RECV ⟨b.toUInt8, (b >>> 8).toUInt8, 0, sock⟩)
      ⟨b.toUInt8, (b >>> 8).toUInt8, 0, sock⟩ .tcpRecv :=
    buffer_spares b buf sock 5 (by decide) (by decide) (Nat.le_of_lt (UInt16.toNat_lt _)) block.ptr rfl
  have apart : Apart buf.toUInt32 cap.toNat (b.toUInt32 + 5) 2 :=
    (beside.apart buffer.1 placed.1).part (i := 0) (j := 5) (UInt32.add_zero _).symm rfl
      (by omega) (by omega)
  obtain ⟨out, s₁, ran, rfl, _, path⟩ := call_path peer role low called rfl
    ⟨nofun, spares, by simp, fun _ => by rw [argPtr_low, block.ptr, block.len]; exact apart, nofun⟩
      (Low.refl _)
  have other : (Entry.tcpRecv == role.entry) = false := by cases role <;> rfl
  simp only [Machine.after, took, reduceCtorEq, false_and, if_false, List.append_nil, other,
    Bool.or_false] at path
  have count : localWord { s₁ with m := answered_ s₁.m out } b 5 = callerWord s₁.m (b.toUInt32 + 5) :=
    answered_word placed s₁.m out 5 (by decide)
  rw [count]
  suffices given : gave k
    (staged m MEGANET_TCP_RECV ⟨b.toUInt8, (b >>> 8).toUInt8, 0, sock⟩) s₁.m .tcpRecv
      ⟨b.toUInt8, (b >>> 8).toUInt8, 0, sock⟩ =
      if sock.toNat = k then run (answered_ s₁.m out) buf.toUInt32
        (callerWord s₁.m (b.toUInt32 + 5)).toNat else [] by
    rw [given] at path
    exact path
  by_cases here : sock.toNat = k
  · obtain ⟨t, found⟩ := keeps.socket (r := ⟨b.toUInt8, (b >>> 8).toUInt8, 0, sock⟩) here
    have answer_ : mnApiTcpRecv
        { h.api with m := staged m MEGANET_TCP_RECV ⟨b.toUInt8, (b >>> 8).toUInt8, 0, sock⟩ }
        ⟨b.toUInt8, (b >>> 8).toUInt8, 0, sock⟩ = (out, s₁) := Option.some.inj ran
    have few := recv_few
      (standing_low keeps.standing fun c high => (staged_low m _ _ c high).trans (low c high)) spares
      ((sockZ_stores ..).trans found)
    rw [answer_, argPtr_low, block.len] at few
    rw [gave, if_pos ⟨rfl, here⟩, if_pos here, argPtr_low, block.ptr, answered_run (buffer.shorter few)]
  · rw [gave, if_neg fun both => here both.2, if_neg here]

/-! ## Whole runs -/

variable {c : Machines} {i' j : Fin 8} {g : Machine}

/-- Every step of a client is calls and stores of its machine. -/
theorem client_path {e : Endpoint} (keeps : Keeps h e) (step : CStep h peer role k h') :
    Path peer role k h h' := by
  cases step with
  | calls helper i placed genuine done => exact helper_path helper placed genuine done
  | connects b sock ip4 port i role_ here first done =>
    subst role_
    refine opening_path (local_low _ b ?_) done rfl here first
    simp [bytes16]
  | listens sock port i role_ here first done =>
    subst role_
    exact opening_path (Low.refl _) done rfl here first
  | sends b sock data len i placed buffer beside done => exact send_path keeps placed buffer beside done
  | receives b sock buf cap i placed buffer beside done =>
    exact recv_path keeps placed buffer beside done
  | stores m low => exact stores_path low

/-- Nothing that is taken is untaken. -/
theorem sent_grows (step : h.Step peer role k h') : h.sent.length ≤ h'.sent.length := by
  cases step with
  | calls => exact (List.prefix_append _ _).length_le
  | stores => exact Nat.le_refl _

/-- A stream that is short at the end was short all the way. -/
private theorem short_path (path : Path g role k h h') (short : h'.sent.length < 2 ^ 31) :
    Relation.ReflTransGen (fun h h' => h.Step g role k h' ∧ h'.sent.length < 2 ^ 31) h h' := by
  induction path with
  | refl => exact .refl
  | tail _ step ih => exact (ih (Nat.lt_of_le_of_lt (sent_grows step) short)).tail ⟨step, short⟩

theorem left_run (run : Machines.Run i' j ⟨h, g⟩) (path : Path g .connects i' h h')
    (short : h'.sent.length < 2 ^ 31) : Machines.Run i' j ⟨h', g⟩ :=
  Reachable.along (fun h : Machine => (⟨h, g⟩ : Machines)) run (short_path path short)
    fun _ _ ⟨step, short⟩ => .left step short

theorem right_run (run : Machines.Run i' j ⟨g, h⟩) (path : Path g .listens j h h')
    (short : h'.sent.length < 2 ^ 31) : Machines.Run i' j ⟨g, h'⟩ :=
  Reachable.along (fun h : Machine => (⟨g, h⟩ : Machines)) run (short_path path short)
    fun _ _ ⟨step, short⟩ => .right step short

/-- Either client moves, until either has sent half the sequence space. -/
inductive Clients.Step (i' j : Fin 8) (c : Machines) : Machines → Prop where
  | left {h : Machine} (moves : CStep c.a c.b .connects i' h) (short : h.sent.length < 2 ^ 31) :
      Step i' j c { c with a := h }
  | right {h : Machine} (moves : CStep c.b c.a .listens j h) (short : h.sent.length < 2 ^ 31) :
      Step i' j c { c with b := h }

def Clients.Run (i' j : Fin 8) : Machines → Prop :=
  Reachable (fun c => c.a.Begun ∧ c.b.Begun) (Clients.Step i' j)

/-- Two clients are two programs. -/
theorem clients_run (run : Clients.Run i' j c) : Machines.Run i' j c := by
  refine Reachable.invariant (motive := Machines.Run i' j) (fun _ => .start) ?_ run
  intro c c' _ before step
  obtain ⟨a, b, matched⟩ := run_matched before
  cases step with
  | left moves short => exact left_run before (client_path matched.left moves) short
  | right moves short => exact right_run before (client_path matched.right moves) short

/-- What one client was brought, as against what the other sent, as far as it can
tell by `meganet_tcp_state_s`. -/
def Heard (h g : Machine) (k : Fin 8) : Prop :=
  h.received <+: g.sent ∧
    ∀ (i : Inputs) (sock state flags : UInt8) (s : Api), sock.toNat = k →
      meganetTcpStateS h.api i sock = some ((state, flags, 0), s) →
        flags &&& 0x01 ≠ 0 → h.received = g.sent

/-- A client calls one of the other helpers. -/
def helps (h : Machine) (helper : Helper) (frame : Option RxFrame) : Machine :=
  { h with api := (helper.exec h.api { quietLink with frame }).getD h.api }

/-- One that opens the socket. -/
def opens (h : Machine) (done : Option (UInt8 × Api)) : Machine :=
  done.elim h fun got => { h with api := got.2, opened := true }

/-- Bytes from its buffer, -/
def sends (h : Machine) (b data len : UInt16) : Machine :=
  (meganetTcpSendS h.api quietLink b 0 data len).elim h fun got =>
    { h with api := got.2, sent := h.sent ++ run h.api.m data.toUInt32 got.1.toNat }

/-- and into it. -/
def receives (h : Machine) (b buf cap : UInt16) : Machine :=
  (meganetTcpRecvS h.api quietLink b 0 buf cap).elim h fun got =>
    { h with api := got.2, received := h.received ++ run got.2.m buf.toUInt32 got.1.toNat }

private theorem helps_moves (role : Role) (k : Fin 8) (helper : Helper) {frame : Option RxFrame}
    (placed : helper.Placed) (genuine : ∀ f, frame = some f → Genuine g.handed f) :
    helps h helper frame = h ∨ CStep h g role k (helps h helper frame) := by
  unfold helps
  cases done : helper.exec h.api { quietLink with frame } with
  | none => exact .inl rfl
  | some s => exact .inr (.calls helper { quietLink with frame } placed (fun _ => genuine) done)

/-- What a client hears is nothing, or the last frame of the other. -/
private theorem frame_genuine {e : Endpoint} {frame : Option RxFrame} (keeps : Keeps g e)
    (from_ : frame = none ∨ frame = g.newest) (f : RxFrame) (same : frame = some f) :
    Genuine g.handed f := by
  obtain rfl | rfl := from_
  · cases same
  · exact newest_genuine keeps same

private theorem helps_left (helper : Helper) {frame : Option RxFrame} (run : Clients.Run 0 0 c)
    (placed : helper.Placed)
    (from_ : frame = none ∨ frame = c.b.newest) : Clients.Run 0 0
    { c with a := helps c.a helper frame } := by
  obtain ⟨a, b, matched⟩ := run_matched (clients_run run)
  obtain same | moves := helps_moves (h := c.a) .connects 0 helper placed
    (frame_genuine matched.right from_)
  · rwa [same]
  · exact run.next (.left moves matched.short.1)

private theorem helps_right (helper : Helper) {frame : Option RxFrame} (run : Clients.Run 0 0 c)
    (placed : helper.Placed)
    (from_ : frame = none ∨ frame = c.a.newest) : Clients.Run 0 0
    { c with b := helps c.b helper frame } := by
  obtain ⟨a, b, matched⟩ := run_matched (clients_run run)
  obtain same | moves := helps_moves (h := c.b) .listens 0 helper placed
    (frame_genuine matched.left from_)
  · rwa [same]
  · exact run.next (.right moves matched.short.2)

/-- Each polls, with the last frame of the other. -/
def swap (c : Machines) : Machines :=
  let b := helps c.b .poll c.a.newest
  ⟨helps c.a .poll b.newest, b⟩

theorem swap_run (run : Clients.Run 0 0 c) : Clients.Run 0 0 (swap c) :=
  helps_left .poll (helps_right .poll run trivial (.inr rfl)) trivial (.inr rfl)

/-- A configuration, the server's address and what there is to send. -/
def memory (last : UInt8) : PhysMem :=
  put (put (put (fun _ => 0) 0x3000 [10, 0, 0, last, 255, 255, 255, 0, 0, 0, 0, 0]) 0x3010
    [10, 0, 0, 2]) 0x3100 [7, 8, 9]

def configured : Machines :=
  ⟨helps (machine (memory 1) ⟨2, 0, 0, 0, 0, 1⟩) (.setIp 0x3000) none,
    helps (machine (memory 2) ⟨2, 0, 0, 0, 0, 2⟩) (.setIp 0x3000) none⟩

theorem configured_run : Clients.Run 0 0 configured := by
  have begun (m : PhysMem) (mac : Mac) : Machine.Begun (machine m mac) :=
    ⟨⟨_, _, rfl⟩, rfl, rfl, rfl, rfl⟩
  have start : Clients.Run 0 0
      ⟨machine (memory 1) ⟨2, 0, 0, 0, 0, 1⟩, machine (memory 2) ⟨2, 0, 0, 0, 0, 2⟩⟩ :=
    .start ⟨begun _ _, begun _ _⟩
  exact helps_right (.setIp 0x3000) (helps_left (.setIp 0x3000) start trivial (.inl rfl)) trivial
    (.inl rfl)

/-- One listens and the other connects, each then polling twice. -/
def greeted : Machines :=
  swap <| swap
    ⟨opens configured.a (meganetTcpConnectS configured.a.api quietLink 0x3200 0 0x3010 80),
      opens configured.b (meganetTcpListen configured.b.api quietLink 0 80)⟩

private theorem opens_left (b ip4 port : UInt16) (run : Clients.Run 0 0 c) (first : c.a.opened = false) :
    Clients.Run 0 0 { c with a := opens c.a (meganetTcpConnectS c.a.api quietLink b 0 ip4 port) } := by
  obtain ⟨_, _, matched⟩ := run_matched (clients_run run)
  cases done : meganetTcpConnectS c.a.api quietLink b 0 ip4 port with
  | none => exact run
  | some got =>
    exact run.next (.left (.connects b 0 ip4 port quietLink rfl rfl first done) matched.short.1)

private theorem opens_right (port : UInt16) (run : Clients.Run 0 0 c) (first : c.b.opened = false) :
    Clients.Run 0 0 { c with b := opens c.b (meganetTcpListen c.b.api quietLink 0 port) } := by
  obtain ⟨_, _, matched⟩ := run_matched (clients_run run)
  cases done : meganetTcpListen c.b.api quietLink 0 port with
  | none => exact run
  | some got => exact run.next (.right (.listens 0 port quietLink rfl rfl first done) matched.short.2)

theorem greeted_run : Clients.Run 0 0 greeted :=
  swap_run (swap_run (opens_left 0x3200 0x3010 80 (opens_right 80 configured_run rfl) rfl))

/-- Three bytes are sent, -/
def written : Machines := { greeted with a := sends greeted.a 0x3200 0x3100 3 }

/-- and read when they have arrived. -/
def heard : Machines := swap { written with a := helps written.a .poll none }

end MegaNet.ClientsEndToEnd
