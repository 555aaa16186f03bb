import MegaNet.TcpConnection

/-! Where a packet goes: the Ethernet broadcast address, or a host of the subnet,
or the gateway. Addresses and masks by their bits. -/
namespace MegaNet.Routing
open MegaNet.Core TcpEmission TcpConnection

variable {net : MnNet} {dst : Ip4}

/-! ## Addresses by parts -/

def both (a b : Ip4) : Ip4 := ⟨a.b0 &&& b.b0, a.b1 &&& b.b1, a.b2 &&& b.b2, a.b3 &&& b.b3⟩

def either (a b : Ip4) : Ip4 := ⟨a.b0 ||| b.b0, a.b1 ||| b.b1, a.b2 ||| b.b2, a.b3 ||| b.b3⟩

/-- The network part is ours. -/
abbrev OnSubnet (net : MnNet) (dst : Ip4) : Prop := both dst net.mask = both net.ip net.mask

/-- The host bits are all ones. -/
abbrev HostOnes (net : MnNet) (dst : Ip4) : Prop := either dst net.mask = limitedBcast

/-- The destinations that mean everybody: 255.255.255.255, and our subnet's own
broadcast address, if it has hosts at all. -/
def Everybody (net : MnNet) (dst : Ip4) : Prop :=
  dst = limitedBcast ∨ OnSubnet net dst ∧ HostOnes net dst ∧ net.mask ≠ limitedBcast

/-- The address whose MAC a packet to one host wants. -/
def route (net : MnNet) (dst : Ip4) : Ip4 := if OnSubnet net dst then dst else net.gw

/-! ## What the code tests -/

private theorem ip4_eq {a b : Ip4} : a = b ↔ a.b0 = b.b0 ∧ a.b1 = b.b1 ∧ a.b2 = b.b2 ∧ a.b3 = b.b3 := by
  cases a
  cases b
  simp

/-- `is_broadcast` looks at the host bits alone. -/
theorem isBroadcast_iff : isBroadcast net dst = true ↔ dst = limitedBcast ∨ HostOnes net dst := by
  simp [isBroadcast, HostOnes, either, ip4_eq, Ip4.bytes, limitedBcast]

private theorem limited_hostOnes (net : MnNet) : HostOnes net limitedBcast := by
  have ones : ∀ m : UInt8, 255 ||| m = 255 := by
    intro m
    rw [← UInt8.toBitVec_inj, UInt8.toBitVec_or]
    exact BitVec.allOnes_or
  simp [HostOnes, either, limitedBcast, ones]

/-- Under a mask without host bits every address has them all ones. -/
theorem slash32_hostOnes (slash32 : net.mask = limitedBcast) (dst : Ip4) : HostOnes net dst := by
  have ones : ∀ m : UInt8, m ||| 255 = 255 := by
    intro m
    rw [← UInt8.toBitVec_inj, UInt8.toBitVec_or]
    exact BitVec.or_allOnes
  simp [HostOnes, slash32, either, limitedBcast, ones]

private theorem nextHop_routes (one : ¬ HostOnes net dst) : mnNetNextHop net dst = route net dst := by
  have single : isBroadcast net dst = false := by
    rw [Bool.eq_false_iff]
    exact fun all => (isBroadcast_iff.mp all).elim
      (fun limited => one (limited ▸ limited_hostOnes net)) one
  simp [mnNetNextHop, single, route, OnSubnet, both, ip4_eq, Ip4.bytes]

/-- With a next hop that stands for one host, its MAC comes from the cache. -/
theorem begun_routed (one : ¬ HostOnes net dst)
    (gateway : net.mask = limitedBcast ∨ ¬ HostOnes net net.gw) (mac : Mac) :
    (mnNetTxBegin net dst).1 = .ok mac ↔ mnArpCacheLookup net.arp (route net dst) = some mac := by
  have hop : isBroadcast net (route net dst) = false := by
    rw [Bool.eq_false_iff, Ne, isBroadcast_iff, route]
    have single : ∀ a, ¬ HostOnes net a → ¬ (a = limitedBcast ∨ HostOnes net a) := by
      rintro a fine (limited | ones)
      · exact fine (limited ▸ limited_hostOnes net)
      · exact fine ones
    split
    · exact single dst one
    · -- Where every address is all host bits of ones, `dst` would be.
      refine single net.gw (gateway.resolve_left fun slash32 => one ?_)
      exact slash32_hostOnes slash32 dst
  unfold mnNetTxBegin
  dsimp only
  rw [nextHop_routes one, hop]
  cases mnArpCacheLookup net.arp (route net dst) <;> simp

theorem limited_broadcast (net : MnNet) : isBroadcast net limitedBcast = true :=
  isBroadcast_iff.mpr (Or.inl rfl)

/-! ## Where it is right -/

/-- A packet goes to everybody just if it is meant for everybody, and else to
the host or the gateway that the subnet says. -/
def RoutedBySubnet (net : MnNet) (dst : Ip4) : Prop :=
  (∀ mac, (mnNetTxBegin net dst).1 = .ok mac → (mac = mnEthBroadcast ↔ Everybody net dst)) ∧
    (¬ Everybody net dst → mnNetNextHop net dst = if OnSubnet net dst then dst else net.gw)

/-- The host bits are not all ones, and the cache does not give the Ethernet
broadcast address for one host; or the destination is everybody. -/
def Unmistaken (net : MnNet) (dst : Ip4) : Prop :=
  if HostOnes net dst then Everybody net dst
  else mnArpCacheLookup net.arp (if OnSubnet net dst then dst else net.gw) ≠ some mnEthBroadcast

private theorem everybody_hostOnes (all : Everybody net dst) : HostOnes net dst :=
  all.elim (fun limited => limited ▸ limited_hostOnes net) fun ours => ours.2.1

/-- Routing is by subnet exactly if no destination that is not everybody's has
host bits that are all ones. -/
theorem routed_by_subnet_iff (gateway : net.mask = limitedBcast ∨ ¬ HostOnes net net.gw) (dst : Ip4) :
    RoutedBySubnet net dst ↔ Unmistaken net dst := by
  by_cases ones : HostOnes net dst
  · have sent := congrArg Prod.fst (broadcast_begins (isBroadcast_iff.mpr (Or.inr ones)))
    rw [Unmistaken, if_pos ones]
    constructor
    · exact fun right => (right.1 mnEthBroadcast sent).mp rfl
    · intro all
      refine ⟨fun mac begun => ?_, fun one => absurd all one⟩
      rw [sent] at begun
      exact iff_of_true (Except.ok.inj begun).symm all
  · have one : ¬ Everybody net dst := fun all => ones (everybody_hostOnes all)
    rw [Unmistaken, if_neg ones]
    constructor
    · intro right cached
      exact one ((right.1 mnEthBroadcast ((begun_routed ones gateway _).mpr cached)).mp rfl)
    · intro fine
      refine ⟨fun mac begun => iff_of_false ?_ one, fun _ => nextHop_routes ones⟩
      rintro rfl
      exact fine ((begun_routed ones gateway _).mp begun)

/-- A host at 192.168.0.199/24 behind 192.168.0.1. -/
def homeNet : MnNet :=
    { goodNet with ip := ⟨192, 168, 0, 199⟩, mask := ⟨255, 255, 255, 0⟩, gw := ⟨192, 168, 0, 1⟩ }

theorem routed_by_subnet_iff_home : RoutedBySubnet homeNet ⟨8, 8, 8, 8⟩ ↔
    Unmistaken homeNet ⟨8, 8, 8, 8⟩ :=
  routed_by_subnet_iff (Or.inr (by decide)) ⟨8, 8, 8, 8⟩

/-- What it sends to the host 8.8.8.255 of another network goes to everyone on
its own, and not to the gateway. -/
theorem foreign_host_broadcast :
    OnSubnet homeNet homeNet.gw ∧ ¬ HostOnes homeNet homeNet.gw ∧ ¬ OnSubnet homeNet ⟨8, 8, 8, 255⟩ ∧
      (mnNetTxBegin homeNet ⟨8, 8, 8, 255⟩).1 = .ok mnEthBroadcast ∧
      mnNetNextHop homeNet ⟨8, 8, 8, 255⟩ =
        ⟨8, 8, 8, 255⟩ ∧ ¬ RoutedBySubnet homeNet ⟨8, 8, 8, 255⟩ := by
  have one : ¬ Everybody homeNet ⟨8, 8, 8, 255⟩ := by
    rintro (limited | ⟨ours, _⟩)
    · exact absurd limited (by decide)
    · exact absurd ours (by decide)
  refine ⟨by decide, by decide, by decide, rfl, by decide, fun right => ?_⟩
  exact one ((right.1 mnEthBroadcast rfl).mp rfl)

end MegaNet.Routing
