import Mathlib.Logic.Relation
import MegaNet.DmaPaths
import MegaNet.PoolLayout

/-! What a call of the ABI can do, said once: a series of acts of the stack, each
of a kind that the entry names, and of copies to where the caller asked for them. -/
namespace MegaNet.ApiMoves
open MegaNet.Core Words AddressSpace TcpSocketInvariant TcpConnection TcpSetRuns TcpIsolation
  UdpOutcomes UdpSockets ClientCalls
  PoolContents PoolLayout

variable {s s' : Api} {st st' : Stack} {r : Regs} {i : Inputs} {m m' : PhysMem} {out : Regs}
  {allowed : Act → Prop} {W : Set Nat}

/-! ## Moves -/

/-- An act of an allowed kind, or bytes copied to `W`. -/
inductive Move (allowed : Act → Prop) (W : Set Nat) (st : Stack) : Stack → Prop where
  | acts (act : Act) (may : allowed act) : Move allowed W st (exec st act)
  | copies (x : XMem) (within : ∀ a, a ∉ W → x a = st.x a) : Move allowed W st { st with x }

abbrev Moves (allowed : Act → Prop) (W : Set Nat) : Stack → Stack → Prop :=
  Relation.ReflTransGen (Move allowed W)

/-- The addresses in a list of ranges, each where it begins and its length. -/
def addresses (ranges : List (UInt32 × Nat)) : Set Nat :=
  {a | ∃ range ∈ ranges, ∃ k < range.2, a = (range.1 + UInt32.ofNat k).toNat}

/-! ## What the caller's block says -/

/-- The pointer that begins a block. -/
def callerPtr (m : PhysMem) (p : UInt32) : UInt32 := pointer (m p) (m (p + 1)) (m (p + 2))

def callerWord (m : PhysMem) (p : UInt32) : UInt16 := word (m p) (m (p + 1))

def callerIp (m : PhysMem) (p : UInt32) : Ip4 := ⟨m p, m (p + 1), m (p + 2), m (p + 3)⟩

/-- The room of a buffer in a receive block, as far as a frame can fill it. -/
def frameRoom (m : PhysMem) (p : UInt32) : Nat := min (callerWord m (p + 3)).toNat 1518

/-- Where a call writes. -/
def writes (m : PhysMem) (r : Regs) : Entry → List (UInt32 × Nat)
  | .getMac | .tcpPeer => [(r.argPtr, 6)]
  | .linkRx => [(callerPtr m r.argPtr, frameRoom m r.argPtr), (r.argPtr + 5, 2)]
  | .getIp => [(r.argPtr, 12)]
  | .getStats => [(r.argPtr, 36)]
  | .getDns => [(r.argPtr, 4)]
  | .ntpResult => [(r.argPtr + 2, 12)]
  | .setRtc => [(RTC, 7)]
  | .dhcpLastMsg => [(r.argPtr, 300)]
  | .tcpRecv => [(callerPtr m r.argPtr, (callerWord m (r.argPtr + 3)).toNat), (r.argPtr + 5, 2)]
  | .udpRecv => [(callerPtr m r.argPtr, frameRoom m r.argPtr), (r.argPtr + 5, 8)]
  | _ => []

/-- The buffer that a call copies straight into the pool. -/
def lends (m : PhysMem) (r : Regs) : Entry → List (UInt32 × Nat)
  | .tcpSend => [(callerPtr m r.argPtr, (callerWord m (r.argPtr + 3)).toNat)]
  | _ => []

/-- The caller's buffers lie outside the pool, which is the stack's own. -/
def Spares (m : PhysMem) (r : Regs) (entry : Entry) : Prop :=
  ∀ a ∈ addresses (writes m r entry ++ lends m r entry), a ∉ poolArea

theorem spares_nothing {m : PhysMem} {entry : Entry}
    (none_ : writes m r entry = [] ∧ lends m r entry = []) :
    Spares m r entry := by
  rintro a ⟨range, listed, _⟩
  rw [none_.1, none_.2] at listed
  cases listed

/-- The acts an entry is there for. -/
def Allowed (s : Api) (r : Regs) (i : Inputs) : Entry → Act → Prop
  | .poll, act => act = .poll i.frame ∨ Asks act ∨ ∃ now, act = .tcp (.poll now)
  | .dhcpStart, act | .dnsStart, act | .ntpStart, act => Asks act
  | .setIp, act | .setLocalIp4, act => ∃ ip mask gw, act = .configures ip mask gw
  | .tcpConnect, act => ∃ ip port now, act = .tcp (.connect r.z.toNat ip port now)
  | .tcpListen, act => act = .tcp (.listen r.z.toNat (word r.a r.x))
  | .tcpSend, act => ∃ ext src len, act = .tcp (.sendX r.z.toNat ext src len)
  | .tcpRecv, act => ∃ cap, act = .tcp (.recv r.z.toNat cap)
  | .tcpClose, act => act = .tcp (.close r.z.toNat)
  | .tcpAbort, act => act = .tcp (.abort r.z.toNat)
  | .udpOpen, act => act = .opens (word r.a r.x)
  | .udpClose, act => act = .closes r.z
  | .udpSend, act =>
    ∃ dst port dport payload, s.openPort r = some port ∧ act = .sends dst port dport payload
  | .udpRecv, act => ∃ cap, act = .receives r.z cap
  | _, _ => False

/-! ## The local buffer -/

theorem run_byte {n k : Nat} (below : k < n) (rest : List UInt8) (p : UInt32) :
    byteAt (run m p n ++ rest) k = m (p + UInt32.ofNat k) := by
  have length : k < (run m p n).length := by rwa [run_length]
  rw [byteAt, List.getD_eq_getElem?_getD, List.getElem?_append_left length, run_getElem? below]
  rfl

theorem fetch_ptr {n : Nat} (long : 3 ≤ n) (s : Api) (p : UInt32) : (s.fetch p n).blkPtr =
    callerPtr s.m p := by
  simp only [Api.blkPtr, Api.fetch, run_byte (show 0 < n by omega), run_byte (show 1 < n by omega),
    run_byte (show 2 < n by omega), callerPtr]
  rw [show p + UInt32.ofNat 0 = p from UInt32.add_zero p]
  rfl

theorem fetch_word {n k : Nat} (long : k + 1 < n) (s : Api) (p : UInt32) :
    (s.fetch p n).blkWord k = callerWord s.m (p + UInt32.ofNat k) := by
  simp only [Api.blkWord, Api.fetch, run_byte (show k < n by omega), run_byte long,
    callerWord, UInt32.ofNat_add,
    UInt32.add_assoc]
  rfl

theorem fetch_ip {n : Nat} (long : 4 ≤ n) (s : Api) (p : UInt32) : ipAt (s.fetch p n).blk 0 =
    callerIp s.m p := by
  simp only [ipAt, Api.fetch, run_byte (show 0 < n by omega), run_byte (show 0 + 1 < n by omega),
    run_byte (show 0 + 2 < n by omega), run_byte (show 0 + 3 < n by omega), callerIp]
  rw [show p + UInt32.ofNat 0 = p from UInt32.add_zero p]
  rfl

/-! ## Copies -/

/-- What is copied outside of some addresses leaves the memory there. -/
theorem put_linear (m : PhysMem) (dst : UInt32) (bytes : List UInt8)
    {ranges : List (UInt32 × Nat)} {n : Nat}
    (listed : (dst, n) ∈ ranges) (fits : bytes.length ≤ n) (a : Nat) (away : a ∉ addresses ranges) :
    linear (put m dst bytes) a = linear m a := by
  unfold linear
  split
  · apply put_outside
    intro k below same
    refine away ⟨_, listed, k, Nat.lt_of_lt_of_le below fits, ?_⟩
    rw [← same, UInt32.toNat_ofNat']
    omega
  · rfl

/-- A call that copies once. -/
theorem copies_once {ranges : List (UInt32 × Nat)} {dst : UInt32} {n : Nat} {bytes : List UInt8}
    (listed : (dst, n) ∈ ranges) (fits : bytes.length ≤ n)
    (same : s'.stack = (s.copyTo dst bytes).stack) :
    Moves allowed (addresses ranges) s.stack s'.stack := by
  rw [same]
  exact .single (.copies (linear (put s.m dst bytes)) (put_linear s.m dst bytes listed fits))

private theorem asks_moves {net : MnNetFull} (uses : Uses s.net net)
    (may : ∀ act, Asks act → allowed act) : Moves allowed W s.stack { s.stack with net } :=
  Relation.ReflTransGen.mono (fun _ _ ⟨act, asks, same⟩ => same ▸ .acts act (may act asks)) _ _
    (uses (some s.tcpset) (linear s.m))

private theorem acts_once (act : Act) (may : allowed act)
    (same : s'.stack = exec s.stack act) : Moves allowed W s.stack s'.stack :=
  same ▸ .single (.acts act may)

/-! ## POLL -/

/-- What the stack has become is the stack, if TCP is still there. -/
theorem withStack_stack (s : Api) {set : MnTcpSet} (attached : st.tcp = some set)
    (high : ∀ a, 2 ^ 32 ≤ a → st.x a = 0) :
    (s.withStack st).stack = st := by
  have memory : linear (fun a => st.x a.toNat) = st.x := by
    funext a
    unfold linear
    split
    · exact congrArg st.x (by rw [UInt32.toNat_ofNat']; omega)
    · exact (high a (by omega)).symm
  obtain ⟨net, tcp, x⟩ := st
  subst attached
  simp only [Api.withStack, Api.stack, memory]
  rfl

private theorem poll_stack (layout : Layout s.stack) (order : Orderly s.stack) (frame : Option RxFrame) :
    (s.withStack (mnNetPoll s.stack frame)).stack = exec s.stack (.poll frame) := by
  obtain ⟨⟨⟨set, attached, _⟩, _⟩, outside⟩ := act_confined layout order (.poll frame)
  refine withStack_stack s attached fun a high => ?_
  refine (outside a fun inside => ?_).trans (if_neg (by omega))
  have := inside.2
  omega

private theorem pollDhcp_moves (may : ∀ act, Asks act → allowed act) : Moves allowed W s.stack
    (pollDhcp s).stack := by
  unfold pollDhcp
  split
  · exact asks_moves (dhcpPoll_uses s.dhcp s.net (linear s.m) s.ticks) may
  · exact .refl

private theorem pollDns_moves (named : s.dns.state = .waiting → Named s.dns)
    (may : ∀ act, Asks act → allowed act) :
    Moves allowed W s.stack (pollDns s).stack := by
  unfold pollDns
  split
  · exact asks_moves (dnsPoll_uses named s.net (linear s.m) s.ticks) may
  · exact .refl

private theorem pollNtp_moves (may : ∀ act, Asks act → allowed act) : Moves allowed W s.stack
    (pollNtp s).stack := by
  unfold pollNtp
  split
  · exact asks_moves (ntpPoll_uses s.ntp s.net (linear s.m) s.ticks) may
  · exact .refl

private theorem pollDhcp_dns (s : Api) : (pollDhcp s).dns = s.dns := by
  unfold pollDhcp
  split <;> rfl

private theorem poll_moves (layout : Layout s.stack) (order : Orderly s.stack)
    (named : s.dns.state = .waiting → Named s.dns) :
    Moves (Allowed s r i .poll) W s.stack (mnApiPoll s i).2.stack := by
  have may : ∀ act, Asks act → Allowed s r i .poll act := fun _ asks => Or.inr (Or.inl asks)
  have frame : Moves (Allowed s r i .poll) W s.stack (s.withStack (mnNetPoll s.stack i.frame)).stack :=
    acts_once (.poll i.frame) (Or.inl rfl) (poll_stack layout order i.frame)
  refine frame.trans ?_
  generalize heard : (s.withStack (mnNetPoll s.stack i.frame)).tick i = s₁
  have resolver : s₁.dns = s.dns := by
    rw [← heard]
    rfl
  have there : (s.withStack (mnNetPoll s.stack i.frame)).stack = s₁.stack := by
    rw [← heard]
    rfl
  rw [there]
  have waits : (pollDhcp s₁).dns.state = .waiting → Named (pollDhcp s₁).dns := by
    rw [pollDhcp_dns, resolver]
    exact named
  have timers := ((pollDhcp_moves (s := s₁) (W := W) may).trans (pollDns_moves waits may)).trans
    (pollNtp_moves may)
  unfold mnApiPoll
  rw [heard]
  exact timers.trans (acts_once (.tcp (.poll _)) (Or.inr (Or.inr ⟨_, rfl⟩)) rfl)

/-! ## TCP -/

private theorem onSockZ_moves {call : MnTcp → Regs × Api}
    (each : ∀ t, s.sockZ r = some t → Moves allowed W s.stack (call t).2.stack) :
    Moves allowed W s.stack (onSockZ s r call).2.stack := by
  unfold onSockZ
  cases found : s.sockZ r with
  | none => exact .refl
  | some t => exact each t found

/-- An event of socket Z. -/
theorem tcp_act {t : MnTcp} (found : s.sockZ r = some t) {event : Event}
    {f : MnTcp → MnTcp × XMem × MnNet}
    (does : (⟨s.tcpset, linear s.m⟩ : World).exec s.net.toMnNet event =
      (⟨s.tcpset, linear s.m⟩ : World).onSocket r.z.toNat s.net.toMnNet f) :
    exec s.stack (.tcp event) =
      { net := { s.net with toMnNet := (f t).2.2 }
        tcp := some { s.tcpset with sock := s.tcpset.sock.set r.z.toNat (f t).1 }, x := (f t).2.1 } := by
  rw [Api.sockZ] at found
  simp only [exec, tcpAct, Api.stack, does, World.onSocket, found]

/-- TCP_CONNECT is the event of its block. -/
theorem tcpConnect_stack {t : MnTcp} (found : s.sockZ r = some t) :
    (mnApiTcpConnect s r i).2.stack = exec s.stack
      (.tcp (.connect r.z.toNat (ipAt (s.fetch r.argPtr 6).blk 0)
      ((s.fetch r.argPtr 6).blkWord 4) (s.tick i).ticks)) := by
  rw [tcp_act found rfl, mnApiTcpConnect, onSockZ, found]
  rfl

private theorem tcpConnect_moves : Moves (Allowed s r i .tcpConnect) W s.stack
    (mnApiTcpConnect s r i).2.stack := by
  cases found : s.sockZ r with
  | none =>
    rw [mnApiTcpConnect, onSockZ, found]
    exact .refl
  | some t => exact acts_once _ ⟨_, _, _, rfl⟩ (tcpConnect_stack found)

theorem tcpListen_stack {t : MnTcp} (found : s.sockZ r = some t) :
    (mnApiTcpListen s r).2.stack = exec s.stack (.tcp (.listen r.z.toNat (word r.a r.x))) := by
  rw [tcp_act found rfl, mnApiTcpListen, onSockZ, found]
  rfl

private theorem tcpListen_moves : Moves (Allowed s r i .tcpListen) W s.stack
    (mnApiTcpListen s r).2.stack := by
  cases found : s.sockZ r with
  | none =>
    rw [mnApiTcpListen, onSockZ, found]
    exact .refl
  | some t => exact acts_once _ rfl (tcpListen_stack found)

private theorem tcpClose_moves : Moves (Allowed s r i .tcpClose) W s.stack
    (mnApiTcpClose s r).2.stack := by
  refine onSockZ_moves fun t found => ?_
  refine acts_once (.tcp (.close r.z.toNat)) rfl ?_
  rw [tcp_act found rfl]
  rfl

private theorem tcpAbort_moves : Moves (Allowed s r i .tcpAbort) W s.stack
    (mnApiTcpAbort s r).2.stack := by
  refine onSockZ_moves fun t found => ?_
  refine acts_once (.tcp (.abort r.z.toNat)) rfl ?_
  rw [tcp_act found rfl]
  rfl

/-- A buffer outside the pool lies apart from a ring. -/
theorem ring_apart (layout : Layout s.stack) (order : Orderly s.stack) {t : MnTcp}
    (found : s.sockZ r = some t)
    (base : UInt16) (size : Nat) (low : home t ≤ xaddr t.xseg base)
    (high : xaddr t.xseg base + size ≤ home t + 7168)
    {dst : UInt32} {n : Nat} (away : ∀ k < n, (dst + UInt32.ofNat k).toNat ∉ poolArea) :
    AddressSpace.Apart dst n (addr t.xseg base) size := by
  intro k below j below' same
  obtain ⟨_, low', high'⟩ :=
    layout.rings order (show s.stack.tcp = some s.tcpset from rfl) (List.mem_of_getElem? found)
  apply away k below
  rw [same, UInt32.toNat_add, DmaPaths.addr_toNat, UInt32.toNat_ofNat']
  exact Set.mem_Ico.mpr ⟨by omega, by omega⟩

private theorem sees_sockZ (order : Orderly s.stack) {t : MnTcp} (found : s.sockZ r = some t) : ∃ c,
    Conn.Run c ∧ c.t = t := by
  obtain ⟨c, sees⟩ := (order.tcp s.tcpset rfl).1.seen r.z.toNat t found
  exact ⟨c, sees.run, sees.t⟩

private theorem listed_away {ranges : List (UInt32 × Nat)} {dst : UInt32} {n : Nat}
    (listed : (dst, n) ∈ ranges)
    (spares : ∀ a ∈ addresses ranges, a ∉ poolArea) (k : Nat) (below : k < n) :
    (dst + UInt32.ofNat k).toNat ∉ poolArea :=
  spares _ ⟨_, listed, k, below, rfl⟩

theorem sendX_count (t : MnTcp) (x : XMem) (ext : PhysMem) (src : UInt32) (len : UInt16) :
    (mnTcpSendX t x ext src len).1 = sendRoom t len := by
  unfold mnTcpSendX
  dsimp only
  split <;> simp_all

/-- TCP_SEND is the event of its block, and says how many bytes it took. -/
theorem tcpSend_stack (layout : Layout s.stack) (order : Orderly s.stack)
    (spares : Spares s.m r .tcpSend) {t : MnTcp}
    (found : s.sockZ r = some t) :
    (mnApiTcpSend s r).2.stack = exec s.stack
        (.tcp (.sendX r.z.toNat s.m (callerPtr s.m r.argPtr) (callerWord s.m (r.argPtr + 3)))) ∧
      (mnApiTcpSend s r).1 = ⟨(sendRoom t (callerWord s.m (r.argPtr + 3))).toUInt8,
        (sendRoom t (callerWord s.m (r.argPtr + 3)) >>> 8).toUInt8, 0, 0⟩ := by
  obtain ⟨c, run_, rfl⟩ := sees_sockZ order found
  have base := run_.placed.sndbuf_home.2
  have away := listed_away (List.mem_append_right _ (List.mem_singleton.mpr rfl)) spares
  have apart := ring_apart layout order found c.t.sndbuf MN_TCP_SNDBUF.toNat (by omega)
    (by rw [sndbuf_toNat]; omega) away
  obtain ⟨n, t', m', sent, sent'⟩ := DmaPaths.sendX_pool DmaPaths.m65Calls_exact run_ apart
  have count : sendRoom c.t (callerWord s.m (r.argPtr + 3)) = n :=
    (sendX_count ..).symm.trans (congrArg Prod.fst sent')
  have sent'' : mnTcpSendX c.t (linear s.m) s.m (callerPtr s.m r.argPtr)
    (callerWord s.m (r.argPtr + 3)) =
    (n, t', linear m') := sent'
  have there : m65Calls.mnTcpSendX c.t (s.fetch r.argPtr 5).m (s.fetch r.argPtr 5).blkPtr
    ((s.fetch r.argPtr 5).blkWord 3) =
      (n, t', m') := by
    rw [fetch_ptr (by decide), fetch_word (by decide)]
    exact sent
  unfold mnApiTcpSend
  rw [found]
  dsimp only
  rw [there, count]
  refine ⟨?_, rfl⟩
  rw [tcp_act found (f := fun t =>
    ((mnTcpSendX t (linear s.m) s.m (callerPtr s.m r.argPtr) (callerWord s.m (r.argPtr + 3))).2.1,
      (mnTcpSendX t (linear s.m) s.m (callerPtr s.m r.argPtr) (callerWord s.m (r.argPtr + 3))).2.2,
        s.net.toMnNet)) rfl]
  rw [sent'']
  rfl

private theorem tcpSend_moves (layout : Layout s.stack) (order : Orderly s.stack)
    (spares : Spares s.m r .tcpSend) :
    Moves (Allowed s r i .tcpSend) W s.stack (mnApiTcpSend s r).2.stack := by
  cases found : s.sockZ r with
  | none =>
    unfold mnApiTcpSend
    rw [found]
    exact .refl
  | some t => exact acts_once _ ⟨_, _, _, rfl⟩ (tcpSend_stack layout order spares found).1

/-- Bytes for the caller's buffer, and then the fields of its block. -/
theorem copies_twice (m₁ : PhysMem) {ranges : List (UInt32 × Nat)} {dst field : UInt32}
    {n k : Nat} {bytes : List UInt8}
    (buffer : (dst, n) ∈ ranges) (fields : (field, k) ∈ ranges) (fits : bytes.length ≤ k)
    (moved : ∀ a, (∀ j < n, a ≠ dst + UInt32.ofNat j) → m₁ a = m a) (a : Nat)
    (away : a ∉ addresses ranges) :
    linear (put m₁ field bytes) a = linear m a := by
  rw [put_linear m₁ field bytes fields fits a away]
  unfold linear
  split
  · refine moved _ fun j below same => away ⟨_, buffer, j, below, ?_⟩
    rw [← same, UInt32.toNat_ofNat']
    omega
  · rfl

/-- What TCP_RECV hands out is in the caller's buffer, and how much in its block. -/
theorem tcpRecv_takes (layout : Layout s.stack) (order : Orderly s.stack)
    (spares : Spares s.m r .tcpRecv) {t : MnTcp}
    (found : s.sockZ r = some t) :
    ∃ n m', n.toNat ≤ (callerWord s.m (r.argPtr + 3)).toNat ∧
      run m' (callerPtr s.m r.argPtr) n.toNat =
        (mnTcpRecv t (linear s.m) (callerWord s.m (r.argPtr + 3))).1 ∧
      (∀ a, (∀ j < n.toNat, a ≠ callerPtr s.m r.argPtr + UInt32.ofNat j) → m' a = s.m a) ∧
      (mnApiTcpRecv s r).2 =
        (Api.fill { (s.fetch r.argPtr 5).setSockZ r
          (mnTcpRecv t (linear s.m) (callerWord s.m (r.argPtr + 3))).2 with
          m := m' } 5 (bytes16 n)).writeBack (r.argPtr + 5) 5 2 := by
  obtain ⟨c, run_, rfl⟩ := sees_sockZ order found
  have place : xaddr c.t.xseg c.t.rcvbuf = home c.t := rfl
  have away := listed_away (List.mem_append_left _ List.mem_cons_self) spares
  have apart := ring_apart layout order found c.t.rcvbuf MN_TCP_RCVBUF.toNat (by omega)
    (by rw [rcvbuf_toNat]; omega) away
  obtain ⟨n, t', bytes, m', taken, takenX, _, there, elsewhere⟩ :=
    DmaPaths.recvX_recv (m := s.m) DmaPaths.m65Calls_exact run_ apart
  obtain ⟨_, _, _, taken', pool⟩ :=
    DmaPaths.recv_pool DmaPaths.m65Calls_exact run_ s.m (callerWord s.m (r.argPtr + 3))
  cases taken.symm.trans taken'
  have pool' : mnTcpRecv c.t (linear s.m) (callerWord s.m (r.argPtr + 3)) = (bytes, t') := pool
  have few : n.toNat ≤ (callerWord s.m (r.argPtr + 3)).toNat := by
    have count : n = recvCount c.t (callerWord s.m (r.argPtr + 3)) := (congrArg Prod.fst takenX).symm
    rw [count]
    exact DmaPaths.recvCount_room c.t _
  have call : m65Calls.mnTcpRecvX c.t (s.fetch r.argPtr 5).m (s.fetch r.argPtr 5).blkPtr
    ((s.fetch r.argPtr 5).blkWord 3) =
      (n, t', m') := by
    rw [fetch_ptr (by decide), fetch_word (by decide)]
    exact takenX
  refine ⟨n, m', few, by rw [pool']; exact there, elsewhere, ?_⟩
  rw [pool', mnApiTcpRecv, onSockZ, found]
  dsimp only
  rw [call]
  rfl

private theorem tcpRecv_moves (layout : Layout s.stack) (order : Orderly s.stack)
    (spares : Spares s.m r .tcpRecv) :
    Moves (Allowed s r i .tcpRecv) (addresses (writes s.m r .tcpRecv)) s.stack
      (mnApiTcpRecv s r).2.stack := by
  cases found : s.sockZ r with
  | none =>
    rw [mnApiTcpRecv, onSockZ, found]
    exact .refl
  | some t =>
    obtain ⟨n, m', few, _, elsewhere, after⟩ := tcpRecv_takes layout order spares found
    have took : Moves (Allowed s r i .tcpRecv) (addresses (writes s.m r .tcpRecv)) s.stack
        (s.setSockZ r (mnTcpRecv t (linear s.m) (callerWord s.m (r.argPtr + 3))).2).stack := by
      refine acts_once (.tcp (.recv r.z.toNat (callerWord s.m (r.argPtr + 3)))) ⟨_, rfl⟩ ?_
      rw [tcp_act found rfl]
      rfl
    rw [after]
    exact took.tail
      (.copies _ (copies_twice m' List.mem_cons_self (List.mem_cons_of_mem _ List.mem_cons_self)
      (List.length_take_le 2 _) fun a outside => elsewhere a fun j below => outside j (by omega)))

/-! ## UDP -/

theorem openPort_spec {port : UInt16} (open_ : s.openPort r = some port) :
    ∃ k : Fin 4, r.z.toNat = k ∧ (s.net.sock k).port = port ∧ port ≠ 0 := by
  unfold Api.openPort at open_
  split at open_
  · split at open_
    · cases open_
    · rename_i inside used
      exact ⟨⟨r.z.toNat, inside⟩, rfl, Option.some.inj open_, Option.some.inj open_ ▸ used⟩
  · cases open_

private theorem udpSend_moves (done : mnApiUdpSend s r = some (out, s')) :
    Moves (Allowed s r i .udpSend) W s.stack s'.stack := by
  unfold mnApiUdpSend at done
  cases from_ : s.openPort r with
  | none =>
    rw [from_] at done
    cases done
    exact .refl
  | some port =>
    rw [from_] at done
    dsimp only at done
    split at done
    · cases done
      exact .refl
    · obtain ⟨payload, _, same⟩ := Option.map_eq_some_iff.mp done
      cases same
      exact acts_once (.sends _ port _ payload) ⟨_, _, _, _, from_, rfl⟩ rfl

private theorem udpRecv_moves : Moves (Allowed s r i .udpRecv)
    (addresses (writes s.m r .udpRecv)) s.stack
    (mnApiUdpRecv s r).2.stack := by
  unfold mnApiUdpRecv
  split
  · exact .refl
  dsimp only
  have word_ : (s.fetch r.argPtr 5).blkWord 3 = callerWord s.m (r.argPtr + 3) :=
    fetch_word (by decide) s r.argPtr
  have ptr : (s.fetch r.argPtr 5).blkPtr = callerPtr s.m r.argPtr := fetch_ptr (by decide) s r.argPtr
  generalize bounded : (if (s.fetch r.argPtr 5).blkWord 3 > MN_MAX_FRAME then MN_MAX_FRAME
    else (s.fetch r.argPtr 5).blkWord 3) = cap
  have room : cap.toNat = frameRoom s.m r.argPtr := by
    rw [← bounded, toNat_clamp, word_, frameRoom]
    rfl
  have took : Moves (Allowed s r i .udpRecv) (addresses (writes s.m r .udpRecv)) s.stack
      { s.stack with net := (mnNetUdpRecv s.net (linear s.m) r.z cap).2 } :=
    .single (.acts (.receives r.z cap) ⟨_, rfl⟩)
  have reception := udpRecv_reception s.net (linear s.m) r.z cap
  have same : mnNetUdpRecv (s.fetch r.argPtr 5).net (linear (s.fetch r.argPtr 5).m) r.z cap =
    mnNetUdpRecv s.net (linear s.m) r.z cap := rfl
  rw [same]
  generalize mnNetUdpRecv s.net (linear s.m) r.z cap = got at took reception
  refine took.tail ?_
  have fields : (r.argPtr + 5, 8) ∈ writes s.m r .udpRecv := List.mem_cons_of_mem _ List.mem_cons_self
  cases reception with
  | nothing => exact .copies _ (put_linear s.m _ _ fields (List.length_take_le 8 _))
  | datagram k =>
    generalize opened :
      { s.fetch r.argPtr 5 with net := s.net.setSock k { s.net.sock k with pending := false } } = s₁
    have same₁ : s₁.m = s.m := by
      rw [← opened]
      rfl
    have ptr₁ : s₁.blkPtr = callerPtr s.m r.argPtr := by
      rw [← ptr, ← opened]
      rfl
    dsimp only
    rw [ptr₁]
    have kept (bytes : List UInt8) : ∀ a, a ∉ addresses (writes s.m r .udpRecv) →
        linear (put (put s₁.m (callerPtr s.m r.argPtr)
          (mnXmemRead (linear s.m) (s.net.sock k).xseg (s.net.sock k).xoff
          (if (s.net.sock k).len > cap then cap else (s.net.sock k).len)))
            (r.argPtr + 5) (bytes.take 8)) a =
          linear s.m a := by
      refine copies_twice (put s₁.m _ _) List.mem_cons_self fields
        (List.length_take_le 8 _) fun a outside => ?_
      rw [same₁]
      refine put_outside fun j below => outside j ?_
      rw [mnXmemRead_length, toNat_clamp] at below
      omega
    subst opened
    exact .copies _ (kept _)

private theorem udpClose_moves : Moves (Allowed s r i .udpClose) W s.stack
    (mnApiUdpClose s r).2.stack := by
  unfold mnApiUdpClose
  split
  · exact acts_once (.closes r.z) rfl rfl
  · exact .refl

/-! ## The link, the clients and the clock -/

private theorem linkTx_stack (done : mnApiLinkTx s r i = some (out, s')) : s'.stack = s.stack := by
  unfold mnApiLinkTx at done
  dsimp only at done
  split at done
  · cases done
    rfl
  · obtain ⟨_, _, same⟩ := Option.map_eq_some_iff.mp done
    cases same
    rfl

private theorem linkRx_moves (done : mnApiLinkRx s r i = some (out, s')) :
    Moves allowed (addresses (writes s.m r .linkRx)) s.stack s'.stack := by
  have fields : (r.argPtr + 5, 2) ∈ writes s.m r .linkRx := List.mem_cons_of_mem _ List.mem_cons_self
  have word_ : (s.fetch r.argPtr 5).blkWord 3 = callerWord s.m (r.argPtr + 3) :=
    fetch_word (by decide) s r.argPtr
  have ptr : (s.fetch r.argPtr 5).blkPtr = callerPtr s.m r.argPtr := fetch_ptr (by decide) s r.argPtr
  unfold mnApiLinkRx at done
  dsimp only at done
  generalize bounded : (if (s.fetch r.argPtr 5).blkWord 3 > MN_MAX_FRAME then MN_MAX_FRAME
    else (s.fetch r.argPtr 5).blkWord 3) = cap at done
  have room : cap.toNat = frameRoom s.m r.argPtr := by
    rw [← bounded, toNat_clamp, word_, frameRoom]
    rfl
  rw [ptr] at done
  cases came : i.frame with
  | none =>
    rw [came] at done
    cases done
    exact copies_once fields (List.length_take_le 2 _) rfl
  | some f =>
    rw [came] at done
    dsimp only at done
    split at done
    · cases done
    · cases done
      have kept (bytes : List UInt8) : ∀ a, a ∉ addresses (writes s.m r .linkRx) →
          linear (put (put s.m (callerPtr s.m r.argPtr) (f.bytes.take cap.toNat))
            (r.argPtr + 5) (bytes.take 2)) a =
            linear s.m a := by
        refine copies_twice (put s.m _ _) List.mem_cons_self fields
          (List.length_take_le 2 _) fun a outside => ?_
        refine put_outside fun j below => outside j ?_
        rw [List.length_take] at below
        omega
      exact .single (.copies _ (kept _))

private theorem dhcpStart_moves : Moves (Allowed s r i .dhcpStart) W s.stack
    (mnApiDhcpStart s i).2.stack := by
  have uses := dhcpStart_uses s.dhcp s.net (s.tick i).ticks
  unfold mnApiDhcpStart
  dsimp only [Api.tick] at uses ⊢
  generalize Dhcp.mnDhcpStart s.dhcp s.net _ = started at uses
  exact asks_moves uses fun _ asks => asks

private theorem dnsStart_moves : Moves (Allowed s r i .dnsStart) W s.stack
    (mnApiDnsStart s r i).2.stack := by
  unfold mnApiDnsStart
  dsimp only
  split
  · exact .refl
  · exact asks_moves (dnsStart_uses _ s.net _ _ _).1 fun _ asks => asks

private theorem ntpResult_moves (done : mnApiNtpResult s r = some (out, s')) :
    Moves allowed (addresses (writes s.m r .ntpResult)) s.stack s'.stack := by
  unfold mnApiNtpResult at done
  obtain ⟨_, _, same⟩ := Option.map_eq_some_iff.mp done
  cases same
  exact copies_once List.mem_cons_self (List.length_take_le 12 _) rfl

private theorem writeBack_moves {entry : Entry} {n : Nat} (dst : UInt32)
    (here : (dst, n) ∈ writes s.m r entry)
    (bytes : List UInt8) :
    Moves allowed (addresses (writes s.m r entry)) s.stack ((s.fill 0 bytes).writeBack dst 0 n).stack :=
  copies_once here (List.length_take_le n _) rfl

/-! ## Every call -/

theorem answered {f : Regs × Api} (done : some f = some (out, s')) : s' = f.2 :=
  (congrArg Prod.snd (Option.some.inj done)).symm

/-- A call is a series of acts its entry is there for and of copies to where it
was asked for. -/
theorem exec_moves {entry : Entry} (layout : Layout s.stack) (order : Orderly s.stack)
    (named : s.dns.state = .waiting → Named s.dns) (spares : Spares s.m r entry) (later : entry ≠ .init)
    (done : s.exec entry r i = some (out, s')) :
    Moves (Allowed s r i entry) (addresses (writes s.m r entry)) s.stack s'.stack := by
  cases entry with
  | init => exact absurd rfl later
  | linkTx => exact linkTx_stack done ▸ .refl
  | linkRx => exact linkRx_moves done
  | ntpResult => exact ntpResult_moves done
  | udpSend => exact udpSend_moves done
  | version | dhcpState | setDns | dnsState | dnsResult | ntpState | tcpInfo =>
    cases done
    exact .refl
  | getMac =>
    rw [answered (f := mnApiGetMac s r) done]
    refine copies_once List.mem_cons_self ?_ rfl
    exact Nat.le_refl 6
  | poll =>
    rw [answered (f := mnApiPoll s i) done]
    exact poll_moves layout order named
  | setIp =>
    rw [answered (f := mnApiSetIp s r) done]
    exact acts_once (.configures _ _ _) ⟨_, _, _, rfl⟩ rfl
  | setLocalIp4 =>
    rw [answered (f := mnApiSetLocalIp4 s r) done]
    exact acts_once (.configures _ _ _) ⟨_, _, _, rfl⟩ rfl
  | getIp =>
    rw [answered (f := mnApiGetIp s r) done]
    exact writeBack_moves r.argPtr List.mem_cons_self _
  | getStats =>
    rw [answered (f := mnApiGetStats s r i) done]
    exact writeBack_moves r.argPtr List.mem_cons_self _
  | getDns =>
    rw [answered (f := mnApiGetDns s r) done]
    exact writeBack_moves r.argPtr List.mem_cons_self _
  | dhcpStart =>
    rw [answered (f := mnApiDhcpStart s i) done]
    exact dhcpStart_moves
  | dnsStart =>
    rw [answered (f := mnApiDnsStart s r i) done]
    exact dnsStart_moves
  | ntpStart =>
    rw [answered (f := mnApiNtpStart s r i) done]
    exact asks_moves (ntpStart_uses s.ntp s.net _ _) fun _ asks => asks
  | setRtc =>
    rw [answered (f := mnApiSetRtc s r) done]
    refine copies_once List.mem_cons_self ?_ rfl
    exact Nat.le_refl 7
  | dhcpLastMsg =>
    rw [answered (f := mnApiDhcpLastMsg s r i) done]
    exact copies_once List.mem_cons_self (List.length_ofFn (f := i.msgBuffer)).le rfl
  | tcpConnect =>
    rw [answered (f := mnApiTcpConnect s r i) done]
    exact tcpConnect_moves
  | tcpState =>
    rw [answered (f := mnApiTcpState s r) done]
    exact onSockZ_moves fun _ _ => .refl
  | tcpSend =>
    rw [answered (f := mnApiTcpSend s r) done]
    exact tcpSend_moves layout order spares
  | tcpRecv =>
    rw [answered (f := mnApiTcpRecv s r) done]
    exact tcpRecv_moves layout order spares
  | tcpClose =>
    rw [answered (f := mnApiTcpClose s r) done]
    exact tcpClose_moves
  | tcpAbort =>
    rw [answered (f := mnApiTcpAbort s r) done]
    exact tcpAbort_moves
  | tcpListen =>
    rw [answered (f := mnApiTcpListen s r) done]
    exact tcpListen_moves
  | tcpPeer =>
    rw [answered (f := mnApiTcpPeer s r) done]
    exact onSockZ_moves fun _ _ => writeBack_moves r.argPtr List.mem_cons_self _
  | udpOpen =>
    rw [answered (f := mnApiUdpOpen s r) done]
    exact acts_once (.opens (word r.a r.x)) rfl rfl
  | udpClose =>
    rw [answered (f := mnApiUdpClose s r) done]
    exact udpClose_moves
  | udpRecv =>
    rw [answered (f := mnApiUdpRecv s r) done]
    exact udpRecv_moves

/-! ## The clients and the clock -/

/-- The clients of the module. -/
def clients (s : Api) : Dhcp.MnDhcp × Dns.MnDns × Ntp.MnNtp := (s.dhcp, s.dns, s.ntp)

/-- Its clock, and the frame it last looked at. -/
def clock (s : Api) : UInt16 × UInt8 := (s.ticks, s.lastFrame)

/-- The entries that have to do with a client, or with the clock. -/
def Entry.Timed : Entry → Prop
  | .init | .poll | .setDns | .dhcpStart | .dnsStart | .ntpStart | .tcpConnect => True
  | _ => False

private theorem onSockZ_rest {call : MnTcp → Regs × Api}
    (each : ∀ t, clients (call t).2 = clients s ∧ clock (call t).2 = clock s) :
    clients (onSockZ s r call).2 = clients s ∧ clock (onSockZ s r call).2 = clock s := by
  unfold onSockZ
  cases s.sockZ r with
  | none => exact ⟨rfl, rfl⟩
  | some t => exact each t

private theorem linkRx_rest (done : mnApiLinkRx s r i = some (out, s')) : clients s' = clients s ∧
    clock s' = clock s := by
  unfold mnApiLinkRx at done
  dsimp only at done
  generalize (if (s.fetch r.argPtr 5).blkWord 3 > MN_MAX_FRAME then MN_MAX_FRAME
    else (s.fetch r.argPtr 5).blkWord 3) = cap at done
  split at done
  · cases done
    exact ⟨rfl, rfl⟩
  · split at done
    · cases done
    · cases done
      exact ⟨rfl, rfl⟩

private theorem udpRecv_rest : clients (mnApiUdpRecv s r).2 = clients s ∧
    clock (mnApiUdpRecv s r).2 = clock s := by
  unfold mnApiUdpRecv
  split
  · exact ⟨rfl, rfl⟩
  · dsimp only
    split <;> exact ⟨rfl, rfl⟩

/-- The others leave both alone. -/
theorem exec_rest {entry : Entry} (untimed : ¬ Entry.Timed entry)
    (done : s.exec entry r i = some (out, s')) :
    clients s' = clients s ∧ clock s' = clock s := by
  cases entry with
  | init | poll | setDns | dhcpStart | dnsStart | ntpStart | tcpConnect => exact absurd trivial untimed
  | version | getMac | setIp | getIp | getStats | setLocalIp4 | dhcpState
  | getDns | dnsState | dnsResult | ntpState
  | setRtc | dhcpLastMsg | tcpInfo | udpOpen =>
    cases done
    exact ⟨rfl, rfl⟩
  | linkTx =>
    rw [Api.exec, mnApiLinkTx] at done
    split at done
    · cases done
      exact ⟨rfl, rfl⟩
    · obtain ⟨_, _, same⟩ := Option.map_eq_some_iff.mp done
      cases same
      exact ⟨rfl, rfl⟩
  | linkRx => exact linkRx_rest done
  | ntpResult =>
    obtain ⟨_, _, same⟩ := Option.map_eq_some_iff.mp done
    cases same
    exact ⟨rfl, rfl⟩
  | udpSend =>
    rw [Api.exec, mnApiUdpSend] at done
    split at done
    · cases done
      exact ⟨rfl, rfl⟩
    · dsimp only at done
      split at done
      · cases done
        exact ⟨rfl, rfl⟩
      · obtain ⟨_, _, same⟩ := Option.map_eq_some_iff.mp done
        cases same
        exact ⟨rfl, rfl⟩
  | tcpState =>
    rw [answered (f := mnApiTcpState s r) done]
    exact onSockZ_rest fun _ => ⟨rfl, rfl⟩
  | tcpPeer =>
    rw [answered (f := mnApiTcpPeer s r) done]
    exact onSockZ_rest fun _ => ⟨rfl, rfl⟩
  | tcpSend =>
    rw [answered (f := mnApiTcpSend s r) done]
    unfold mnApiTcpSend
    split <;> exact ⟨rfl, rfl⟩
  | tcpRecv =>
    rw [answered (f := mnApiTcpRecv s r) done]
    exact onSockZ_rest fun _ => ⟨rfl, rfl⟩
  | tcpClose =>
    rw [answered (f := mnApiTcpClose s r) done]
    exact onSockZ_rest fun _ => ⟨rfl, rfl⟩
  | tcpAbort =>
    rw [answered (f := mnApiTcpAbort s r) done]
    exact onSockZ_rest fun _ => ⟨rfl, rfl⟩
  | tcpListen =>
    rw [answered (f := mnApiTcpListen s r) done]
    exact onSockZ_rest fun _ => ⟨rfl, rfl⟩
  | udpClose =>
    rw [answered (f := mnApiUdpClose s r) done]
    unfold mnApiUdpClose
    split <;> exact ⟨rfl, rfl⟩
  | udpRecv =>
    rw [answered (f := mnApiUdpRecv s r) done]
    exact udpRecv_rest

theorem tcpConnect_rest : clients (mnApiTcpConnect s r i).2 = clients s ∧
    clock (mnApiTcpConnect s r i).2 = if (s.sockZ r).isSome then clock (s.tick i) else clock s := by
  unfold mnApiTcpConnect onSockZ
  cases s.sockZ r with
  | none => exact ⟨rfl, rfl⟩
  | some t => exact ⟨rfl, rfl⟩

/-- What POLL goes on with, once the frame is in. -/
def heard (s : Api) (i : Inputs) : Api := (s.withStack (mnNetPoll s.stack i.frame)).tick i

private theorem pollDhcp_clock (s : Api) : clock (pollDhcp s) = clock s := by
  unfold pollDhcp
  split <;> rfl

private theorem pollDns_clock (s : Api) : clock (pollDns s) = clock s := by
  unfold pollDns
  split <;> rfl

private theorem pollNtp_clock (s : Api) : clock (pollNtp s) = clock s := by
  unfold pollNtp
  split <;> rfl

theorem poll_clock : clock (mnApiPoll s i).2 = clock (s.tick i) := by
  have last : clock (mnApiPoll s i).2 = clock (pollNtp (pollDns (pollDhcp (heard s i)))) := rfl
  rw [last, pollNtp_clock, pollDns_clock, pollDhcp_clock]
  rfl

private theorem pollNtp_dns (s : Api) : (pollNtp s).dns = s.dns := by
  unfold pollNtp
  split <;> rfl

/-- POLL keeps the name of a lookup. -/
theorem poll_named (named : s.dns.state = .waiting → Named s.dns) :
    (mnApiPoll s i).2.dns.state = .waiting → Named (mnApiPoll s i).2.dns := by
  have last : (mnApiPoll s i).2.dns = (pollNtp (pollDns (pollDhcp (heard s i)))).dns := rfl
  have first : (pollDhcp (heard s i)).dns = s.dns := pollDhcp_dns (heard s i)
  rw [last, pollNtp_dns]
  generalize pollDhcp (heard s i) = s₁ at first
  unfold pollDns
  split
  · rename_i on
    rw [first] at on
    intro _
    rw [Named]
    refine Nat.le_trans (congrArg List.length (dnsPoll_name s₁.dns s₁.net (linear s₁.m) s₁.ticks)).le ?_
    rw [first]
    exact named on
  · rw [first]
    exact named

private theorem dhcpStart_dns : (mnApiDhcpStart s i).2.dns = s.dns := by
  unfold mnApiDhcpStart
  dsimp only [Api.tick]
  generalize Dhcp.mnDhcpStart s.dhcp s.net _ = started
  rfl

theorem exec_named {entry : Entry} (named : s.dns.state = .waiting → Named s.dns)
    (done : s.exec entry r i = some (out, s')) : s'.dns.state = .waiting → Named s'.dns := by
  have rest (untimed : ¬ Entry.Timed entry) : s'.dns.state = .waiting → Named s'.dns := by
    have same : s'.dns = s.dns := congrArg (fun c => c.2.1) (exec_rest untimed done).1
    rw [same]
    exact named
  cases entry with
  | poll =>
    rw [answered (f := mnApiPoll s i) done]
    exact poll_named named
  | init =>
    rw [answered (f := mnApiInit s i) done]
    intro on
    cases on
  | setDns | ntpStart =>
    cases done
    exact named
  | dhcpStart =>
    rw [answered (f := mnApiDhcpStart s i) done, show (mnApiDhcpStart s i).2.dns =
      s.dns from dhcpStart_dns]
    exact named
  | tcpConnect =>
    rw [answered (f := mnApiTcpConnect s r i) done,
      show (mnApiTcpConnect s r i).2.dns = s.dns from congrArg (fun c => c.2.1) tcpConnect_rest.1]
    exact named
  | dnsStart =>
    rw [answered (f := mnApiDnsStart s r i) done]
    unfold mnApiDnsStart
    dsimp only
    split
    · intro on
      cases on
    · exact fun _ => (dnsStart_uses _ _ _ _ _).2
  | _ => exact rest id

end MegaNet.ApiMoves
