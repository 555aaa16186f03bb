import MegaNet.Core.Api
import MegaNet.PoolContents

/-! Where the pool is and what lies where in it: eight TCP sockets with both of
their rings, and the four UDP mailboxes after them. Whatever the stack does keeps
it so, and writes nothing outside. -/
namespace MegaNet.PoolLayout
open MegaNet.Core Words AddressSpace TcpConnection TcpSetRuns TcpIsolation UdpOutcomes
  UdpSockets PoolContents

variable {st : Stack} {w : World} {m : PhysMem} {a : Nat}

/-- The addresses of the pool, `$50000-$5E8FF`. -/
def poolArea : Set Nat := Set.Ico 0x50000 0x5e900

/-- The rings of socket `i` at its place, and the mailboxes after the last. -/
structure Layout (st : Stack) : Prop where
  tcp : ∃ set, st.tcp = some set ∧ set.sock.length = 8 ∧
    ∀ (i : Nat) (t : MnTcp), set.sock[i]? = some t → home t = 0x50000 + 7168 * i
  udp : ∀ i : Fin 4, mailbox st.net i = 0x5e000 + 576 * i

/-! ## A set keeps its sockets -/

private theorem onSocket_length (w : World) (i : Nat) (net : MnNet) (f : MnTcp → MnTcp × XMem × MnNet) :
    (w.onSocket i net f).1.set.sock.length = w.set.sock.length := by
  unfold World.onSocket
  split
  · rfl
  · exact List.length_set

private theorem onFirst_length {p : MnTcp → Bool} {f : MnTcp → MnTcp × β}
    {sock rest : List MnTcp} {b : β}
    (found : onFirst p f sock = some (rest, b)) : rest.length = sock.length := by
  obtain ⟨none_, _⟩ | ⟨i, t, _, _, _, same⟩ := onFirst_spec p f sock
  · rw [none_] at found
    cases found
  · rw [same] at found
    cases found
    exact List.length_set

private theorem exec_length (w : World) (net : MnNet) (event : Event) :
    (w.exec net event).1.set.sock.length = w.set.sock.length := by
  cases event with
  | input src seg =>
    simp only [World.exec, mnTcpInput]
    split
    · exact onFirst_length ‹_›
    split
    · rename_i opened
      split at opened
      · exact onFirst_length opened
      · cases opened
    · split <;> rfl
  | poll now => exact pollAll_length w.x now w.set.sock net
  | connect | listen | send | sendX | recv | recvX | close | abort => exact onSocket_length ..

/-! ## The layout -/

/-- All that TCP and the mailboxes use lies in the pool. -/
theorem Layout.rings (layout : Layout st) (order : Orderly st) {set : MnTcpSet}
    (attached : st.tcp = some set)
    {t : MnTcp} (member : t ∈ set.sock) :
    Placed t ∧ 0x50000 ≤ home t ∧ home t + 7168 ≤ 0x5e000 := by
  obtain ⟨set', same, length, homes⟩ := layout.tcp
  obtain rfl := Option.some.inj (attached.symm.trans same)
  obtain ⟨i, found⟩ := List.mem_iff_getElem?.mp member
  have below := (List.getElem?_eq_some_iff.mp found).1
  have at_ := homes i t found
  refine ⟨(Lived.sound (order.tcp set attached).1 found).2, ?_, ?_⟩ <;> omega

theorem Layout.ringsIn (layout : Layout st) (order : Orderly st) : RingsIn poolArea st := by
  intro set attached t member a inside
  obtain ⟨placed, low, high⟩ := layout.rings order attached member
  rw [(mem_rings placed a).2] at inside
  exact Set.mem_Ico.mpr ⟨by omega, by omega⟩

/-- The stack with its layout, and nothing written outside the pool. -/
structure Confined (before after : Stack) : Prop where
  layout : Layout after
  pool : ∀ a, a ∉ poolArea → after.x a = before.x a

/-- A step of the network layer that writes no memory. -/
theorem Layout.withNet (layout : Layout st) {after : MnNetFull} (places : SamePlaces st.net after) :
    Confined st { st with net := after } :=
  ⟨⟨layout.tcp, fun i => (places i).trans (layout.udp i)⟩, fun _ _ => rfl⟩

theorem Layout.tcpStep (layout : Layout st) (order : Orderly st) {set : MnTcpSet}
    (attached : st.tcp = some set)
    (net : MnNet) (event : Event) {after : MnNetFull} (same : after.sock = st.net.sock) :
    Confined st { net := after, tcp := some ((⟨set, st.x⟩ : World).exec net event).1.set
                  x := ((⟨set, st.x⟩ : World).exec net event).1.x } := by
  obtain ⟨set', same', length, homes⟩ := layout.tcp
  obtain rfl := Option.some.inj (attached.symm.trans same')
  obtain ⟨still, outside⟩ := exec_confined (order.tcp set attached).1 net event
  refine ⟨⟨⟨_, rfl, (exec_length ⟨set, st.x⟩ net event).trans length, fun i t' found => ?_⟩,
    fun i => ?_⟩, fun a away => ?_⟩
  · obtain ⟨t, before, rings⟩ := still i t' found
    exact (rings_home rings).trans (homes i t before)
  · exact (places_of_sock same i).trans (layout.udp i)
  · apply outside
    intro t member
    obtain ⟨placed, low, high⟩ := layout.rings order attached member
    apply (outside_rings placed).mpr
    by_contra inside
    exact away (Set.mem_Ico.mpr ⟨by omega, by omega⟩)

theorem Layout.mail (layout : Layout st) (i : Fin 4) (ip : List UInt8)
    (fits : ¬ mnIpv4PayloadLen ip - 8 > MN_UDP_SOCK_BUF)
    {after : MnNetFull} (same : after.sock = (st.net.setSock i (mailed (st.net.sock i) ip)).sock) :
    Confined st { st with
      net := after
      x := mnXmemWrite st.x (st.net.sock i).xseg (st.net.sock i).xoff ((mnIpv4Payload ip).drop 8)
        (mnIpv4PayloadLen ip - 8) } := by
  refine ⟨⟨layout.tcp, fun j => ?_⟩, fun a away => if_neg fun inside => ?_⟩
  · exact ((places_of_sock same j).trans
      (setSock_places st.net i (mailed (st.net.sock i) ip) rfl j)).trans (layout.udp j)
  · have short := fits_toNat.mp fits
    have start := layout.udp i
    have index := i.isLt
    rw [mailbox] at start
    exact away (Set.mem_Ico.mpr ⟨by omega, by omega⟩)

private theorem changes_confined {after : Stack} (changes : Changes st after) (layout : Layout st)
    (order : Orderly st) : Confined st after := by
  cases changes with
  | net places => exact layout.withNet places
  | tcp attached net event same => exact layout.tcpStep order attached net event same
  | mail i ip fits same => exact layout.mail i ip fits same

/-- Whatever the stack does, the layout stays and nothing outside the pool is
written. -/
theorem act_confined (layout : Layout st) (order : Orderly st) (act : Act) :
    Confined st (exec st act) :=
  changes_confined (exec_changes st act) layout order

end MegaNet.PoolLayout
