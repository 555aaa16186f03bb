import MegaNet.TcpIsolation
import MegaNet.UdpOutcomes

/-! The four UDP sockets over whole runs of the stack: no two share a port, and
a closed one stays empty and its mailbox unwritten, as long as no datagram for
port 0 comes, which is what a closed socket is marked with. -/
namespace MegaNet.UdpSockets
open MegaNet.Core Words Transition TcpEmission TcpOutcomes TcpConnection TcpSetRuns TcpTurns
  TcpIsolation UdpOutcomes

variable {st : Stack} {net after : MnNetFull}

/-! ## Runs -/

/-- Where the mailbox of socket `i` begins in the pool. -/
def mailbox (net : MnNetFull) (i : Fin 4) : Nat := xaddr (net.sock i).xseg (net.sock i).xoff

/-- No ring of the set reaches into a mailbox. -/
def Clear (net : MnNetFull) (sock : List MnTcp) : Prop :=
  ∀ t ∈ sock, ∀ i a, mailbox net i ≤ a → a < mailbox net i + 576 → a ∉ rcvRing t ∧ a ∉ sndRing t

/-- The stack as it is set up: the mailboxes do not cross a 64 KB boundary, and
the sockets of TCP, if it is there, have their rings elsewhere. -/
def Begun (st : Stack) : Prop :=
  ∃ memory nif base, st.net = mnNetSetPool (mnNetInit memory nif) base ∧
    base.toNat % 65536 + 2304 ≤ 65536 ∧
    (st.tcp = none ∨ ∃ socks n pool, st.tcp = some (mnTcpInit socks n pool) ∧
      Clear st.net (mnTcpInit socks n pool).sock)

/-- What can happen to the stack. -/
inductive Act where
  | poll (frame : Option RxFrame)
  | opens (port : UInt16)
  | closes (s : UInt8)
  | receives (s : UInt8) (cap : UInt16)
  | sends (dst : Ip4) (sport dport : UInt16) (payload : List UInt8)
  | configures (ip mask gw : Ip4)
  | tcp (event : Event)

/-- A call or a tick of TCP, where it is there. -/
def tcpAct (st : Stack) (event : Event) : Stack :=
  match st.tcp with
  | none => st
  | some set =>
    let (w, net) := (⟨set, st.x⟩ : World).exec st.net.toMnNet event
    { net := { st.net with toMnNet := net }, tcp := some w.set, x := w.x }

def exec (st : Stack) : Act → Stack
  | .poll frame => mnNetPoll st frame
  | .opens port => { st with net := (mnNetUdpOpen st.net port).2 }
  | .closes s => { st with net := mnNetUdpClose st.net s }
  | .receives s cap => { st with net := (mnNetUdpRecv st.net st.x s cap).2 }
  | .sends dst sport dport payload => { st with net := (mnNetSendUdp st.net dst sport dport payload).2 }
  | .configures ip mask gw => { st with net := mnNetSetIp st.net ip mask gw }
  | .tcp event => tcpAct st event

/-- The frame brings a valid datagram for port 0 that fits a mailbox, while a
socket is closed. -/
def Misdelivers (st : Stack) (f : RxFrame) : Prop :=
  ∃ ip, delivered st.net f = some ip ∧ validUdp ip = true ∧ mnUdpDport (mnIpv4Payload ip) = 0 ∧
    ¬ mnIpv4PayloadLen ip - 8 > MN_UDP_SOCK_BUF ∧ ∃ i, (st.net.sock i).port = 0

/-- A step other than such a frame. -/
def Step (st st' : Stack) : Prop :=
  ∃ act, (∀ f, act = .poll (some f) → ¬ Misdelivers st f) ∧ st' = exec st act

def Run : Stack → Prop := Reachable Begun Step

/-- Any step at all. -/
def Happens (st st' : Stack) : Prop := ∃ act, st' = exec st act

def Life : Stack → Prop := Reachable Begun Happens

/-! ## What holds of the sockets -/

/-- Closed sockets are empty, and no two have a port in common. -/
structure Sound (net : MnNetFull) : Prop where
  empty : ∀ i, (net.sock i).port = 0 → (net.sock i).pending = false
  apart : ∀ i j, (net.sock i).port = (net.sock j).port → (net.sock i).port ≠ 0 → i = j

theorem Sound.congr (sound : Sound net) (same : after.sock = net.sock) : Sound after := by
  obtain ⟨empty, apart⟩ := sound
  exact ⟨by rwa [same], by rwa [same]⟩

/-- No two sockets are open on one port. -/
def Apart (net : MnNetFull) : Prop :=
  ∀ i j, (net.sock i).port = (net.sock j).port → (net.sock i).port ≠ 0 → i = j

/-- One socket changes, and its port, if it has one, is nobody else's. -/
theorem Apart.setSock (apart : Apart net) (i : Fin 4) (s : MnUdpSock)
    (alone : s.port ≠ 0 → ∀ j, j ≠ i → (net.sock j).port ≠ s.port) : Apart (net.setSock i s) := by
  intro j k same used
  by_cases left : j = i <;> by_cases right : k = i
  · exact left.trans right.symm
  · rw [left, setSock_self] at same used
    rw [setSock_other _ _ right] at same
    exact absurd same.symm (alone used k right)
  · rw [right, setSock_self, setSock_other _ _ left] at same
    rw [setSock_other _ _ left, same] at used
    exact absurd same (alone used j left)
  · rw [setSock_other _ _ left] at same used
    rw [setSock_other _ _ right] at same
    exact apart j k same used

theorem Apart.congr (apart : Apart net) (same : after.sock = net.sock) : Apart after := by
  unfold Apart at apart ⊢
  rwa [same]

/-- A socket that keeps its port keeps it to itself. -/
theorem Apart.still (apart : Apart net) (i : Fin 4) {port : UInt16} (same : port = (net.sock i).port)
    (used : port ≠ 0) (j : Fin 4) (other : j ≠ i) : (net.sock j).port ≠ port := by
  intro equal
  rw [same] at equal used
  exact other (apart j i equal (equal ▸ used))

private theorem open_apart (apart : Apart net) (port : UInt16) : Apart (mnNetUdpOpen net port).2 := by
  have opening := udpOpen_opening net port
  generalize mnNetUdpOpen net port = out at opening
  cases opening with
  | opens i free alone => exact apart.setSock i _ fun _ j _ => alone j
  | refused => exact apart

private theorem close_apart (apart : Apart net) (s : UInt8) : Apart (mnNetUdpClose net s) := by
  obtain ⟨_, same⟩ | ⟨i, _, same⟩ := udpClose_cases net s <;> rw [same]
  · exact apart
  · exact apart.setSock i _ fun used => absurd rfl used

private theorem recv_apart (apart : Apart net) (x : XMem) (s : UInt8) (cap : UInt16) :
    Apart (mnNetUdpRecv net x s cap).2 := by
  have reception := udpRecv_reception net x s cap
  generalize mnNetUdpRecv net x s cap = out at reception
  cases reception with
  | nothing => exact apart
  | datagram i => exact apart.setSock i _ (apart.still i rfl)

/-- One socket changes, and if it is closed it is empty. -/
theorem Sound.setSock (sound : Sound net) (i : Fin 4) (s : MnUdpSock)
    (shut : s.port = 0 → s.pending = false)
    (alone : s.port ≠ 0 → ∀ j, j ≠ i → (net.sock j).port ≠ s.port) : Sound (net.setSock i s) := by
  refine ⟨fun j closed => ?_, Apart.setSock sound.apart i s alone⟩
  by_cases here : j = i
  · subst here
    rw [setSock_self] at closed ⊢
    exact shut closed
  · rw [setSock_other _ _ here] at closed ⊢
    exact sound.empty j closed

private theorem open_sound (sound : Sound net) (port : UInt16) : Sound (mnNetUdpOpen net port).2 := by
  have opening := udpOpen_opening net port
  generalize mnNetUdpOpen net port = out at opening
  cases opening with
  | opens i free alone => exact sound.setSock i _ (fun _ => rfl) fun _ j _ => alone j
  | refused => exact sound

private theorem close_sound (sound : Sound net) (s : UInt8) : Sound (mnNetUdpClose net s) := by
  obtain ⟨_, same⟩ | ⟨i, _, same⟩ := udpClose_cases net s <;> rw [same]
  · exact sound
  · exact sound.setSock i _ (fun _ => rfl) fun used => absurd rfl used

private theorem recv_sound (sound : Sound net) (x : XMem) (s : UInt8) (cap : UInt16) :
    Sound (mnNetUdpRecv net x s cap).2 := by
  have reception := udpRecv_reception net x s cap
  generalize mnNetUdpRecv net x s cap = out at reception
  cases reception with
  | nothing => exact sound
  | datagram i => exact sound.setSock i _ (fun _ => rfl) (Apart.still sound.apart i rfl)

/-! ## Where the mailboxes are -/

/-- Every mailbox is where it was. -/
def SamePlaces (before after : MnNetFull) : Prop := ∀ i, mailbox after i = mailbox before i

theorem setSock_places (net : MnNetFull) (i : Fin 4) (s : MnUdpSock)
    (here : xaddr s.xseg s.xoff = mailbox net i) : SamePlaces net (net.setSock i s) := by
  intro j
  by_cases same : j = i
  · subst same
    rw [mailbox, setSock_self]
    exact here
  · rw [mailbox, setSock_other _ _ same, mailbox]

theorem places_of_sock (same : after.sock = net.sock) : SamePlaces net after := fun i => by
  rw [mailbox, same, mailbox]

theorem Clear.congr {sock : List MnTcp} (clear : Clear net sock) (places : SamePlaces net after) :
    Clear after sock := by
  intro t member i a low high
  rw [places i] at low high
  exact clear t member i a low high

/-! ## The invariants of a run -/

/-- No two sockets share a port, the mailboxes lie side by side, and TCP's
sockets have lived runs of their own, their rings elsewhere. -/
structure Orderly (st : Stack) : Prop where
  apart : Apart st.net
  spaced : ∃ base, ∀ i : Fin 4, mailbox st.net i = base + 576 * i
  tcp : ∀ set, st.tcp = some set → Lived ⟨set, st.x⟩ ∧ Clear st.net set.sock

/-- And closed sockets are empty. -/
structure Inv (st : Stack) : Prop where
  sound : Sound st.net
  spaced : ∃ base, ∀ i : Fin 4, mailbox st.net i = base + 576 * i
  tcp : ∀ set, st.tcp = some set → Lived ⟨set, st.x⟩ ∧ Clear st.net set.sock

theorem Inv.orderly (inv : Inv st) : Orderly st := ⟨inv.sound.apart, inv.spaced, inv.tcp⟩

/-- A step of the network layer that writes no memory. -/
theorem Orderly.withNet (order : Orderly st) (apart : Apart after) (places : SamePlaces st.net after) :
    Orderly { st with net := after } := by
  obtain ⟨base, spaced⟩ := order.spaced
  exact ⟨apart, ⟨base, fun i => (places i).trans (spaced i)⟩, fun set attached =>
    ⟨(order.tcp set attached).1, (order.tcp set attached).2.congr places⟩⟩

theorem Orderly.sameSock (order : Orderly st) (same : after.sock = st.net.sock) :
    Orderly { st with net := after } :=
  order.withNet (order.apart.congr same) (places_of_sock same)

theorem setPool_mailbox (net : MnNetFull) (base : UInt32)
    (fits : base.toNat % 65536 + 2304 ≤ 65536) (i : Fin 4) :
    mailbox (mnNetSetPool net base) i = base.toNat + 576 * i := by
  have index := i.isLt
  have low := base.toNat_lt
  have high : (base >>> 16).toUInt16.toNat = base.toNat / 65536 := by
    rw [UInt32.toNat_toUInt16, UInt32.toNat_shiftRight, Nat.shiftRight_eq_div_pow,
      show (2 : Nat) ^ (UInt32.toNat 16 % 32) = 65536 from rfl]
    omega
  have start : (base + UInt32.ofNat i * MN_UDP_SOCK_BUF.toUInt32).toUInt16.toNat =
      base.toNat % 65536 + 576 * i := by
    rw [UInt32.toNat_toUInt16, UInt32.toNat_add, UInt32.toNat_mul, UInt32.toNat_ofNat',
      show MN_UDP_SOCK_BUF.toUInt32.toNat = 576 from rfl]
    omega
  simp only [mailbox, mnNetSetPool, xaddr, high, start]
  omega

theorem inv_begun (begun : Begun st) : Inv st := by
  obtain ⟨memory, nif, base, same, fits, tcp⟩ := begun
  refine ⟨?_, ⟨base.toNat, fun i => same ▸ setPool_mailbox _ base fits i⟩, fun set attached => ?_⟩
  · rw [same]
    exact ⟨fun _ _ => rfl, fun _ _ _ used => absurd rfl used⟩
  · obtain none_ | ⟨socks, n, pool, some_, clear⟩ := tcp
    · rw [none_] at attached
      cases attached
    · rw [some_] at attached
      cases attached
      exact ⟨lived_begun ⟨socks, n, pool, st.x, rfl⟩, clear⟩

/-- A step of TCP. -/
theorem Orderly.tcpStep (order : Orderly st) {set : MnTcpSet}
    (attached : st.tcp = some set) (net : MnNet)
    (event : Event) (same : after.sock = st.net.sock) :
    Orderly { net := after, tcp := some ((⟨set, st.x⟩ : World).exec net event).1.set
              x := ((⟨set, st.x⟩ : World).exec net event).1.x } := by
  obtain ⟨lived, clear⟩ := order.tcp set attached
  obtain ⟨base, spaced⟩ := order.spaced
  refine ⟨order.apart.congr same, ⟨base, fun i => (places_of_sock same i).trans (spaced i)⟩,
    fun set' there => ?_⟩
  cases there
  refine ⟨lived_exec lived net event, ?_⟩
  intro t' member i a low high
  obtain ⟨k, found⟩ := List.mem_iff_getElem?.mp member
  obtain ⟨t, before, still⟩ := (exec_confined lived net event).1 k t' found
  rw [places_of_sock same i] at low high
  have apart := clear t (List.mem_of_getElem? before) i a low high
  simp only [rings, Prod.mk.injEq] at still
  rw [rcvRing, sndRing, still.1, still.2.1, still.2.2]
  exact apart

/-- TCP leaves the mailboxes alone. -/
theorem Orderly.tcpAway (order : Orderly st) {set : MnTcpSet}
    (attached : st.tcp = some set) (net : MnNet)
    (event : Event) {i : Fin 4} {a : Nat} (low : mailbox st.net i ≤ a)
    (high : a < mailbox st.net i + 576) :
    ((⟨set, st.x⟩ : World).exec net event).1.x a = st.x a := by
  obtain ⟨lived, clear⟩ := order.tcp set attached
  exact (exec_confined lived net event).2 a fun t member => clear t member i a low high

/-- A datagram put into a mailbox. -/
theorem Orderly.mail (order : Orderly st) (i : Fin 4) (ip : List UInt8)
    (fits : ¬ mnIpv4PayloadLen ip - 8 > MN_UDP_SOCK_BUF)
    (same : after.sock = (st.net.setSock i (mailed (st.net.sock i) ip)).sock) :
    Orderly { st with
      net := after
      x := mnXmemWrite st.x (st.net.sock i).xseg (st.net.sock i).xoff ((mnIpv4Payload ip).drop 8)
        (mnIpv4PayloadLen ip - 8) } := by
  have places : SamePlaces st.net after := fun j =>
    (places_of_sock same j).trans (setSock_places st.net i (mailed (st.net.sock i) ip) rfl j)
  obtain ⟨base, spaced⟩ := order.spaced
  refine ⟨Apart.congr (order.apart.setSock i (mailed (st.net.sock i) ip) (order.apart.still i rfl)) same,
    ⟨base, fun j => (places j).trans (spaced j)⟩, fun set attached => ?_⟩
  obtain ⟨lived, clear⟩ := order.tcp set attached
  refine ⟨Lived.elsewhere lived fun t member a low high => ?_, clear.congr places⟩
  -- An address of the mailbox would be outside of the rings of `t`.
  refine if_neg fun inside => ?_
  have short := fits_toNat.mp fits
  obtain ⟨k, found⟩ := List.mem_iff_getElem?.mp member
  have outside := (outside_rings (Lived.sound lived found).2).mp
    (clear t member i a (show mailbox st.net i ≤ a from inside.1) (by rw [mailbox]; omega))
  omega

/-- What a step can do to the stack: its network layer goes on, the mailboxes at
their places and no two ports alike that were not; TCP goes on; or a datagram is
put into a mailbox. -/
inductive Changes (st : Stack) : Stack → Prop where
  | net {after : MnNetFull} (places : SamePlaces st.net after) (ports : Apart st.net → Apart after) :
      Changes st { st with net := after }
  | tcp {set : MnTcpSet} (attached : st.tcp = some set) (net : MnNet) (event : Event) {after : MnNetFull}
      (same : after.sock = st.net.sock) :
      Changes st { net := after, tcp := some ((⟨set, st.x⟩ : World).exec net event).1.set
                   x := ((⟨set, st.x⟩ : World).exec net event).1.x }
  | mail (i : Fin 4) (ip : List UInt8) (fits : ¬ mnIpv4PayloadLen ip - 8 > MN_UDP_SOCK_BUF)
      {after : MnNetFull} (same : after.sock = (st.net.setSock i (mailed (st.net.sock i) ip)).sock) :
      Changes st { st with
        net := after
        x := mnXmemWrite st.x (st.net.sock i).xseg (st.net.sock i).xoff ((mnIpv4Payload ip).drop 8)
          (mnIpv4PayloadLen ip - 8) }

theorem Changes.sameSock (same : after.sock = st.net.sock) : Changes st { st with net := after } :=
  .net (places_of_sock same) fun apart => apart.congr same

/-- Whatever frame arrives. -/
theorem poll_changes (st : Stack) (f : RxFrame) : Changes st (mnNetPoll st (some f)) := by
  have intake := poll_intake st f
  generalize mnNetPoll st (some f) = st' at intake
  cases intake with
  | other after _ _ sock => exact .sameSock sock
  | tcp ip =>
    obtain ⟨_, sock, ⟨set, pool⟩ | ⟨set, event, attached, set', pool⟩⟩ :=
      tcpInput_spec { st with net := counted st.net } ip
    · generalize Stack.tcpInput { st with net := counted st.net } ip = out at set pool sock
      obtain ⟨net, tcp, x⟩ := out
      simp only at set pool sock
      rw [set, pool]
      exact .sameSock sock
    · generalize Stack.tcpInput { st with net := counted st.net } ip = out at set' pool sock
      obtain ⟨net, tcp, x⟩ := out
      simp only at set' pool sock
      have there : st.tcp = some set := attached
      rw [set', pool]
      exact .tcp there (counted st.net).toMnNet event sock
  | udp ip =>
    have delivery := deliverUdp_delivery (counted st.net) st.x ip
    generalize deliverUdp (counted st.net) st.x ip = out at delivery
    cases delivery with
    | invalid | dropped => exact .sameSock rfl
    | mailed i _ _ _ fits => exact .mail i ip fits rfl

theorem exec_changes (st : Stack) (act : Act) : Changes st (exec st act) := by
  cases act with
  | poll frame =>
    cases frame with
    | none => exact .sameSock rfl
    | some f => exact poll_changes st f
  | opens port =>
    refine .net ?_ fun apart => open_apart apart port
    have opening := udpOpen_opening st.net port
    generalize mnNetUdpOpen st.net port = out at opening
    cases opening with
    | opens i => exact setSock_places st.net i _ rfl
    | refused => exact fun _ => rfl
  | closes s =>
    refine .net ?_ fun apart => close_apart apart s
    obtain ⟨_, same⟩ | ⟨i, _, same⟩ := udpClose_cases st.net s <;> rw [same]
    · exact fun _ => rfl
    · exact setSock_places st.net i _ rfl
  | receives s cap =>
    refine .net ?_ fun apart => recv_apart apart st.x s cap
    have reception := udpRecv_reception st.net st.x s cap
    generalize mnNetUdpRecv st.net st.x s cap = out at reception
    cases reception with
    | nothing => exact fun _ => rfl
    | datagram i => exact setSock_places st.net i _ rfl
  | sends dst sport dport payload =>
    exact .sameSock (sendUdp_spec st.net dst sport dport payload).1.sock
  | configures ip mask gw => exact .sameSock rfl
  | tcp event =>
    simp only [exec, tcpAct]
    cases attached : st.tcp with
    | none => exact .sameSock rfl
    | some set => exact .tcp attached st.net.toMnNet event rfl

theorem Changes.orderly {after : Stack} (changes : Changes st after) (order : Orderly st) :
    Orderly after := by
  cases changes with
  | net places ports => exact order.withNet (ports order.apart) places
  | tcp attached net event same => exact order.tcpStep attached net event same
  | mail i ip fits same => exact order.mail i ip fits same

theorem poll_orderly (order : Orderly st) (f : RxFrame) : Orderly (mnNetPoll st (some f)) :=
  (poll_changes st f).orderly order

theorem exec_orderly (order : Orderly st) (act : Act) : Orderly (exec st act) :=
  (exec_changes st act).orderly order

theorem Life.orderly (life : Life st) : Orderly st := by
  refine Reachable.invariant (motive := Orderly) (fun _ begun => (inv_begun begun).orderly) ?_ life
  rintro st _ _ order ⟨act, rfl⟩
  exact exec_orderly order act

/-- A frame that is not misdelivered. -/
theorem poll_sound (sound : Sound st.net) (f : RxFrame) (fine : ¬ Misdelivers st f) :
    Sound (mnNetPoll st (some f)).net := by
  have intake := poll_intake st f
  generalize mnNetPoll st (some f) = st' at intake
  cases intake with
  | other after _ _ sock => exact sound.congr sock
  | tcp ip => exact sound.congr (tcpInput_spec { st with net := counted st.net } ip).2.1
  | udp ip reaches =>
    have delivery := deliverUdp_delivery (counted st.net) st.x ip
    generalize deliverUdp (counted st.net) st.x ip = out at delivery
    cases delivery with
    | invalid | dropped => exact sound.congr rfl
    | mailed i valid found empty fits =>
      refine Sound.congr (sound.setSock i (mailed (st.net.sock i) ip)
        (fun closed => absurd ⟨ip, reaches, valid, ?_, fits, i, closed⟩ fine)
          (Apart.still sound.apart i rfl)) rfl
      exact (socketOn_some found).symm.trans closed

private theorem exec_sound (sound : Sound st.net) (act : Act)
    (fine : ∀ f, act = .poll (some f) → ¬ Misdelivers st f) :
    Sound (exec st act).net := by
  cases act with
  | poll frame =>
    cases frame with
    | none => exact sound
    | some f => exact poll_sound sound f (fine f rfl)
  | opens port => exact open_sound sound port
  | closes s => exact close_sound sound s
  | receives s cap => exact recv_sound sound st.x s cap
  | sends dst sport dport payload =>
    exact sound.congr (sendUdp_spec st.net dst sport dport payload).1.sock
  | configures => exact sound.congr rfl
  | tcp event =>
    simp only [exec, tcpAct]
    cases st.tcp <;> exact sound.congr rfl

private theorem exec_inv (inv : Inv st) (act : Act)
    (fine : ∀ f, act = .poll (some f) → ¬ Misdelivers st f) :
    Inv (exec st act) :=
  have order := exec_orderly inv.orderly act
  ⟨exec_sound inv.sound act fine, order.spaced, order.tcp⟩

theorem Run.inv (run : Run st) : Inv st := by
  refine Reachable.invariant (motive := Inv) (fun _ => inv_begun) ?_ run
  rintro st _ _ inv ⟨act, fine, rfl⟩
  exact exec_inv inv act fine

/-! ## A closed socket receives nothing -/

/-- The frame puts nothing into a closed socket and writes none of its mailbox. -/
def LeavesShut (st : Stack) (f : RxFrame) : Prop :=
  ∀ i, (st.net.sock i).port = 0 → ((mnNetPoll st (some f)).net.sock i).pending = false ∧
    ∀ a, mailbox st.net i ≤ a → a < mailbox st.net i + 576 → (mnNetPoll st (some f)).x a = st.x a

private theorem leavesShut_of_fine (inv : Inv st) (f : RxFrame) (fine : ¬ Misdelivers st f) :
    LeavesShut st f := by
  have intake := poll_intake st f
  unfold LeavesShut
  generalize mnNetPoll st (some f) = st' at intake
  intro i closed
  have empty := inv.sound.empty i closed
  cases intake with
  | other after _ _ sock =>
    exact ⟨(congrArg (fun sock => (sock i).pending) sock).trans empty, fun _ _ _ => rfl⟩
  | tcp ip =>
    obtain ⟨_, sock, ⟨_, pool⟩ | ⟨set, event, attached, _, pool⟩⟩ :=
      tcpInput_spec { st with net := counted st.net } ip
    · exact ⟨(congrArg (fun sock => (sock i).pending) sock).trans empty, fun a _ _ => congrFun pool a⟩
    · refine ⟨(congrArg (fun sock => (sock i).pending) sock).trans empty, fun a low high => ?_⟩
      rw [pool]
      exact inv.orderly.tcpAway attached _ event low high
  | udp ip reaches =>
    have delivery := deliverUdp_delivery (counted st.net) st.x ip
    generalize deliverUdp (counted st.net) st.x ip = out at delivery
    cases delivery with
    | invalid | dropped => exact ⟨empty, fun _ _ _ => rfl⟩
    | mailed j valid found _ fits =>
      -- The socket that gets it has its port, so it is another one.
      have other : i ≠ j := by
        rintro rfl
        exact fine ⟨ip, reaches, valid, (socketOn_some found).symm.trans closed, fits, i, closed⟩
      have there := setSock_other st.net (mailed (st.net.sock j) ip) other
      refine ⟨(congrArg MnUdpSock.pending there).trans empty, fun a low high => if_neg fun inside => ?_⟩
      obtain ⟨base, spaced⟩ := inv.spaced
      have short := fits_toNat.mp fits
      have here := spaced i
      have beside := spaced j
      have apart : (i : Nat) ≠ j := fun same => other (Fin.ext same)
      have from_ : mailbox st.net j ≤ a ∧ a < mailbox st.net j + (mnIpv4PayloadLen ip - 8).toNat :=
        inside
      omega

/-- A datagram for port 0 goes to a closed socket. -/
theorem not_leavesShut (inv : Inv st) (f : RxFrame) (bad : Misdelivers st f) : ¬ LeavesShut st f := by
  obtain ⟨ip, reaches, valid, zero, fits, i, closed⟩ := bad
  intro shut
  have intake := poll_intake st f
  unfold LeavesShut at shut
  generalize mnNetPoll st (some f) = st' at intake shut
  cases intake with
  | other _ elsewhere =>
    rw [elsewhere] at reaches
    cases reaches
  | tcp _ elsewhere =>
    rw [elsewhere] at reaches
    cases reaches
  | udp ip' reaches' =>
    obtain rfl := Option.some.inj (reaches.symm.trans reaches')
    -- Of the closed sockets it goes to the first.
    obtain ⟨j, first⟩ : ∃ j, socketOn st.net.sock (mnUdpDport (mnIpv4Payload ip)) = some j := by
      cases found : socketOn st.net.sock (mnUdpDport (mnIpv4Payload ip)) with
      | some j => exact ⟨j, rfl⟩
      | none => exact absurd (closed.trans zero.symm) (socketOn_none.mp found i)
    have closed' : (st.net.sock j).port = 0 := (socketOn_some first).trans zero
    have delivery := deliverUdp_delivery (counted st.net) st.x ip
    generalize deliverUdp (counted st.net) st.x ip = out at delivery shut
    cases delivery with
    | invalid bad =>
      rw [bad] at valid
      cases valid
    | dropped why =>
      obtain full | long := why j first
      · rw [show ((counted st.net).sock j).pending = false from inv.sound.empty j closed'] at full
        cases full
      · exact fits long
    | mailed k _ found =>
      obtain rfl := Option.some.inj (first.symm.trans found)
      have mailed_ := (shut j closed').1
      have there := setSock_self (counted st.net) j (mailed (st.net.sock j) ip)
      have full : (((counted st.net).setSock j (mailed (st.net.sock j) ip)).sock j).pending = true := by
        rw [there]
        rfl
      rw [show (((counted st.net).setSock j (mailed (st.net.sock j) ip)).sock j).pending =
        false from mailed_] at full
      cases full

/-- In every run without a datagram for port 0 while a socket is closed, closed
sockets are empty, no two sockets share a port, receiving on a closed one gives
nothing, and a frame leaves closed sockets and their mailboxes alone: exactly
when it does not bring such a datagram. -/
theorem closed_sockets_receive_nothing (run : Run st) :
    (∀ i, (st.net.sock i).port = 0 → (st.net.sock i).pending = false) ∧
    (∀ i j, (st.net.sock i).port = (st.net.sock j).port → (st.net.sock i).port ≠ 0 → i = j) ∧
    (∀ (s : UInt8) cap, (∀ i : Fin 4, s.toNat = i → (st.net.sock i).port = 0) →
      (mnNetUdpRecv st.net st.x s cap).1 = none) ∧
    ∀ f, LeavesShut st f ↔ ¬ Misdelivers st f := by
  have inv := Run.inv run
  refine ⟨inv.sound.empty, inv.sound.apart, fun s cap closed => ?_,
    fun f => ⟨?_, leavesShut_of_fine inv f⟩⟩
  · have reception := udpRecv_reception st.net st.x s cap
    generalize mnNetUdpRecv st.net st.x s cap = out at reception
    cases reception with
    | nothing => rfl
    | datagram i here waits =>
      rw [inv.sound.empty i (closed i here)] at waits
      cases waits
  · exact fun shut bad => not_leavesShut inv f bad shut

/-- A stack just set up, without TCP. -/
def freshStack : Stack :=
  ⟨mnNetSetPool (mnNetInit (layerOver goodNet) goodNet.nif) 0x800e000, none, fun _ => 0⟩

theorem freshStack_begun : Begun freshStack :=
  ⟨layerOver goodNet, goodNet.nif, 0x800e000, rfl, by decide, Or.inl rfl⟩

/-- A frame with a datagram of one byte, 7, from port 1000. -/
def datagramFor (high low : UInt8) : RxFrame where
  bytes :=
    [2, 0, 0, 0, 0, 1, 2, 0, 0, 0, 0, 2, 0x08, 0x00] ++
    [0x45, 0, 0, 29, 0, 0, 0, 0, 64, 17, 0x66, 0xce, 10, 0, 0, 2, 10, 0, 0, 1] ++
    [0x03, 0xe8, high, low, 0, 9, 0, 0, 7]
  fits := by simp

/-- A socket opened on port 4000, a datagram delivered there, and the socket
closed again. -/
def heldStack : Stack := exec (exec freshStack (.opens 4000)) (.poll (some (datagramFor 0x0f 0xa0)))

def closedStack : Stack := exec heldStack (.closes 0)

theorem closedStack_run : Run closedStack := by
  have opened : Run (exec freshStack (.opens 4000)) :=
    .next (.start freshStack_begun) ⟨.opens 4000, fun _ other => (by cases other), rfl⟩
  have held : Run heldStack := by
    refine .next opened ⟨.poll (some (datagramFor 0x0f 0xa0)), fun f same bad => ?_, rfl⟩
    cases same
    obtain ⟨ip, reaches, _, zero, _⟩ := bad
    have there : (delivered (exec freshStack (.opens 4000)).net (datagramFor 0x0f 0xa0)).map
        (fun ip => mnUdpDport (mnIpv4Payload ip)) = some 4000 := by decide +kernel
    rw [reaches, Option.map_some, zero] at there
    cases there
  exact .next held ⟨.closes 0, fun _ other => (by cases other), rfl⟩

/-- What waited there is gone. -/
theorem closed_sockets_receive_nothing_closed :
    (mnNetUdpRecv heldStack.net heldStack.x 0 576).1.map (·.data) = some [7] ∧
      (mnNetUdpRecv closedStack.net closedStack.x 0 576).1 = none ∧
      ∀ f, LeavesShut closedStack f ↔ ¬ Misdelivers closedStack f :=
  have nothing := closed_sockets_receive_nothing closedStack_run
  ⟨by decide +kernel, nothing.2.2.1 0 576 (by decide +kernel), nothing.2.2.2⟩

/-- The datagram, to port 0. -/
def portZeroFrame : RxFrame := datagramFor 0 0

/-- A datagram for port 0 lands in a closed socket: it waits there, receiving on
the closed socket hands it out, and its mailbox is written. -/
theorem closed_socket_mailed :
    Begun freshStack ∧
      ((mnNetPoll freshStack (some portZeroFrame)).net.sock 0).port = 0 ∧
      ((mnNetPoll freshStack (some portZeroFrame)).net.sock 0).pending = true ∧
      (mnNetUdpRecv (mnNetPoll freshStack (some portZeroFrame)).net
        (mnNetPoll freshStack (some portZeroFrame)).x 0 576).1.map (·.data) = some [7] ∧
      freshStack.x (mailbox freshStack.net 0) = 0 ∧
      (mnNetPoll freshStack (some portZeroFrame)).x (mailbox freshStack.net 0) = 7 :=
  ⟨freshStack_begun, by decide +kernel, by decide +kernel, by decide +kernel, rfl, by decide +kernel⟩

end MegaNet.UdpSockets
