import MegaNet.DhcpLease

/-! The lease clock over whole runs: however the polls split the time since a
grant, its hands add up to that time, and none of them wraps; so what is left of
a lease never grows until the next grant. -/
namespace MegaNet.DhcpClock
open MegaNet.Core Words DhcpOutcomes DhcpAddress DhcpLease

variable {d d' : Dhcp.MnDhcp} {net net' : MnNetFull} {x : XMem} {now last last' : UInt16}
  {elapsed gap minutes : Nat}
  {out : Dhcp.MnDhcp × MnNetFull}

/-! ## The clock, watched -/

/-- `second`, unless a counter would wrap. -/
def second? (d : Dhcp.MnDhcp) : Option Dhcp.MnDhcp :=
  if d.secAcc.toNat + 1 < 256 ∧ (60 ≤ d.secAcc.toNat + 1 → d.ageM.toNat + 1 < 65536) then
    some (Dhcp.second d)
  else none

/-- `seconds`, unless a counter would wrap, or whole seconds are left when the
turns have run out. -/
def seconds? : Nat → UInt16 → Dhcp.MnDhcp → Option (UInt16 × Dhcp.MnDhcp)
  | 0, delta, d => if delta ≥ Dhcp.TICKS_PER_S then none else some (delta, d)
  | fuel + 1, delta, d =>
    if delta ≥ Dhcp.TICKS_PER_S then (second? d).bind (seconds? fuel (delta - Dhcp.TICKS_PER_S))
    else some (delta, d)

/-- `clockTick`, unless a counter would wrap. -/
def clockTick? (d : Dhcp.MnDhcp) (now : UInt16) : Option Dhcp.MnDhcp :=
  (seconds? (now - d.tickLast).toNat (now - d.tickLast)
    { d with tickLast := now }).bind fun (delta, d) =>
    if d.tickAcc.toNat + delta.toNat < 256 then
      if d.tickAcc + delta.toUInt8 ≥ 50 then second? { d with tickAcc := d.tickAcc + delta.toUInt8 - 50 }
      else some { d with tickAcc := d.tickAcc + delta.toUInt8 }
    else none

theorem second?_runs (within : d.secAcc.toNat < 60) (room : stamp d + 50 < clockEnd) :
    second? d = some (Dhcp.second d) := by
  unfold stamp clockEnd at room
  unfold second?
  apply if_pos
  constructor
  · omega
  · intro full
    omega

/-- The loop ends before its turns do, and no counter wraps in it. -/
theorem seconds?_runs (fuel : Nat) (delta : UInt16) (d : Dhcp.MnDhcp) (enough : delta.toNat ≤ fuel)
    (within : d.secAcc.toNat < 60) (room : stamp d + delta.toNat < clockEnd) :
    seconds? fuel delta d = some (Dhcp.seconds fuel delta d) := by
  induction fuel generalizing delta d with
  | zero =>
    have short : ¬ delta ≥ Dhcp.TICKS_PER_S := by
      rw [ge_iff_le, UInt16.le_iff_toNat_le, show Dhcp.TICKS_PER_S.toNat = 50 from rfl]
      omega
    exact if_neg short
  | succ fuel ih =>
    unfold seconds? Dhcp.seconds
    by_cases whole : delta ≥ Dhcp.TICKS_PER_S
    · rw [if_pos whole, if_pos whole]
      rw [ge_iff_le, UInt16.le_iff_toNat_le, show Dhcp.TICKS_PER_S.toNat = 50 from rfl] at whole
      have rest : (delta - Dhcp.TICKS_PER_S).toNat = delta.toNat - 50 := toNat_less whole
      have once := second_turned within (by omega)
      rw [second?_runs within (by omega), Option.bind_some]
      apply ih _ _ (by omega) once.within
      rw [once.moved]
      omega
    · rw [if_neg whole, if_neg whole]

theorem clockTick?_runs (wound : Wound d) (room : stamp d + (now - d.tickLast).toNat < clockEnd) :
    clockTick? d now = some (Dhcp.clockTick d now) := by
  obtain ⟨short, less, turned⟩ := seconds_turned (now - d.tickLast).toNat (now - d.tickLast)
    { d with tickLast := now } (Nat.le_refl _) wound.1 room
  unfold clockTick? Dhcp.clockTick
  rw [seconds?_runs _ _ { d with tickLast := now } (Nat.le_refl _) wound.1 room, Option.bind_some]
  dsimp only
  generalize Dhcp.seconds (now - d.tickLast).toNat (now - d.tickLast) { d with tickLast := now } = out
    at short less turned
  obtain ⟨delta, d'⟩ := out
  dsimp only at short less turned ⊢
  obtain ⟨moved, within, acc, _⟩ := turned
  have acc' : d'.tickAcc.toNat < 50 := acc ▸ wound.2
  have byte : delta.toUInt8.toNat = delta.toNat := by
    rw [UInt16.toNat_toUInt8]
    omega
  have sum : (d'.tickAcc + delta.toUInt8).toNat = d'.tickAcc.toNat + delta.toNat := by
    rw [UInt8.toNat_add, byte]
    omega
  rw [if_pos (by omega)]
  split
  · rename_i full
    rw [ge_iff_le, UInt8.le_iff_toNat_le, sum, show UInt8.toNat 50 = 50 from rfl] at full
    have left : (d'.tickAcc + delta.toUInt8 - 50).toNat = d'.tickAcc.toNat + delta.toNat - 50 := by
      rw [UInt8.toNat_sub_of_le _ _ (by rw [UInt8.le_iff_toNat_le, sum]; exact full), sum]
      rfl
    apply second?_runs (d := { d' with tickAcc := d'.tickAcc + delta.toUInt8 - 50 }) within
    have here : stamp { d with tickLast := now } = stamp d := rfl
    rw [here] at moved
    unfold stamp at moved room ⊢
    dsimp only
    rw [left]
    omega
  · rfl

/-! ## One poll -/

/-- Both clocks show the same time. -/
def SameClock (d d' : Dhcp.MnDhcp) : Prop :=
  d'.ageM = d.ageM ∧ d'.secAcc = d.secAcc ∧ d'.tickAcc = d.tickAcc

theorem SameClock.stamp (same : SameClock d d') : stamp d' = stamp d := by
  obtain ⟨age, sec, acc⟩ := same
  rw [DhcpLease.stamp, age, sec, acc]
  rfl

theorem SameClock.wound (same : SameClock d d') (wound : Wound d) : Wound d' := by
  obtain ⟨_, sec, acc⟩ := same
  rw [Wound, sec, acc]
  exact wound

private theorem sends_sameClock {type : UInt8} (sends : Sends d net type now out) :
    SameClock d out.1 := by
  cases sends with
  | sends => exact ⟨rfl, rfl, rfl⟩

/-- Giving the lease up does not touch the clock. -/
theorem loses_sameClock (loses : Loses d net now out) : SameClock d out.1 := by
  obtain ⟨_, _, _, sends⟩ := loses
  have same := sends_sameClock sends
  exact same

/-- But for a grant, a poll of a lease that ends only moves the clock on. -/
theorem poll_sameClock (on : d.state = .bound) (none_ : ¬ AcceptsAck d net x now) :
    SameClock (Dhcp.clockTick d now) (Dhcp.mnDhcpPoll d net x now).1 := by
  have polls := poll_polls d net x now
  generalize Dhcp.mnDhcpPoll d net x now = out at polls ⊢
  obtain ⟨_, rfl⟩ | ⟨finite, msg, d', net', hears, keeps⟩ := polls.bound on
  · exact ⟨rfl, rfl, rfl⟩
  have read : SameClock (Dhcp.clockTick d now) d' := by
    obtain ⟨_, _, _, _, _, rfl⟩ := hears.reread
    exact ⟨rfl, rfl, rfl⟩
  have after : SameClock d' out.1 := by
    cases keeps with
    | ack m got =>
      subst got
      exact absurd (Or.inr ⟨on, finite, m, _, _, hears⟩) none_
    | nak _ _ loses | expires _ _ loses => exact loses_sameClock loses
    | renews _ _ _ renews =>
      obtain ⟨_, _, _, _, sends, rfl⟩ := renews
      have same := sends_sameClock sends
      exact same
    | resends _ _ _ _ sends => exact sends_sameClock sends
    | waits => exact ⟨rfl, rfl, rfl⟩
  obtain ⟨age, sec, acc⟩ := read
  exact ⟨after.1.trans age, after.2.1.trans sec, after.2.2.trans acc⟩

/-! ## Runs since a grant -/

/-- The client `elapsed` ticks after the poll that granted it its lease: polled
while it is bound to a lease that ends, each poll less than 65536 ticks after
the one before, with whatever the layer has done in between. The tick at the
last poll was `last`. -/
inductive Clocked : Dhcp.MnDhcp → MnNetFull → UInt16 → Nat → Prop where
  | granted {d : Dhcp.MnDhcp} {net : MnNetFull} {x : XMem} {now : UInt16}
      (accepts : AcceptsAck d net x now) :
      Clocked (Dhcp.mnDhcpPoll d net x now).1 (Dhcp.mnDhcpPoll d net x now).2 now 0
  | meanwhile {d : Dhcp.MnDhcp} {net : MnNetFull} {last : UInt16} {elapsed : Nat}
      (run : Clocked d net last elapsed)
      (after : MnNetFull) : Clocked d after last elapsed
  | polled {d : Dhcp.MnDhcp} {net : MnNetFull} {last : UInt16} {elapsed : Nat}
      (run : Clocked d net last elapsed)
      (on : d.state = .bound) (finite : d.t1M ≠ 0) (x : XMem) (gap : Nat) (soon : gap < 65536)
      (none_ : ¬ AcceptsAck d net x (last + UInt16.ofNat gap)) :
      Clocked (Dhcp.mnDhcpPoll d net x (last + UInt16.ofNat gap)).1
        (Dhcp.mnDhcpPoll d net x (last + UInt16.ofNat gap)).2 (last + UInt16.ofNat gap) (elapsed + gap)

/-- What a run keeps: the clock tells the time, and a lease that ends is held. -/
structure Tells (d : Dhcp.MnDhcp) (last : UInt16) (elapsed : Nat) : Prop where
  told : stamp d = elapsed
  wound : Wound d
  held : d.state = .bound → d.t1M ≠ 0 → ∃ minutes < 64800, Held minutes d last elapsed

private theorem granted_tells {d' : Dhcp.MnDhcp} (bound : d'.state = .bound) (now : UInt16) :
    Tells (Dhcp.granted d' now) now 0 := by
  obtain ⟨zero, wound, last, _⟩ := granted_clock d' now
  refine ⟨zero, wound, fun _ finite => ?_⟩
  have long : ¬ d'.leaseS < 120 := fun short => finite (granted_short short now)
  have ends : d'.leaseS < Dhcp.LEASE_FOREVER_S :=
    UInt32.not_le.mp fun forever => finite (granted_forever forever now)
  obtain ⟨lease, half, _, _⟩ := granted_long long ends now
  rw [UInt32.lt_iff_toNat_lt, show Dhcp.LEASE_FOREVER_S.toNat = 3888000 from rfl] at ends
  rw [UInt32.lt_iff_toNat_lt, show UInt32.toNat 120 = 120 from rfl] at long
  have young : (Dhcp.granted d' now).ageM.toNat = 0 := by
    unfold stamp at zero
    omega
  refine ⟨d'.leaseS.toNat / 60, by omega, (granted_state d' now).trans bound, wound, zero,
    last, lease, finite, ?_⟩
  omega

theorem Tells.polled (tells : Tells d last elapsed) (on : d.state = .bound) (finite : d.t1M ≠ 0)
    (soon : gap < 65536)
    (none_ : ¬ AcceptsAck d net x (last + UInt16.ofNat gap)) :
    Tells (Dhcp.mnDhcpPoll d net x (last + UInt16.ofNat gap)).1 (last + UInt16.ofNat gap)
      (elapsed + gap) := by
  obtain ⟨minutes, short, held⟩ := tells.held on finite
  obtain ⟨told, wound, _⟩ := held.tick short soon
  have same := poll_sameClock on none_
  refine ⟨same.stamp.trans told, same.wound wound, fun bound _ => ⟨minutes, short, ?_⟩⟩
  obtain still | gone := held.poll short soon net x none_
  · exact still
  · exact absurd bound gone.unbound

private theorem clocked_tells (run : Clocked d net last elapsed) : Tells d last elapsed := by
  induction run with
  | granted accepts =>
    obtain ⟨d', bound, same⟩ := accepts_granted accepts
    rw [same]
    exact granted_tells bound _
  | meanwhile _ _ ih => exact ih
  | polled _ on finite x gap soon none_ ih => exact ih.polled on finite soon none_

/-- At the next poll, whatever it brings, no counter wraps. -/
theorem Tells.runs (tells : Tells d last elapsed) (on : d.state = .bound) (finite : d.t1M ≠ 0)
    (soon : gap < 65536) :
    clockTick? d (last + UInt16.ofNat gap) = some (Dhcp.clockTick d (last + UInt16.ofNat gap)) := by
  obtain ⟨minutes, short, held⟩ := tells.held on finite
  have since : (last + UInt16.ofNat gap - d.tickLast).toNat = gap := by
    rw [held.last, UInt16.add_comm, UInt16.add_sub_cancel, UInt16.toNat_ofNat']
    exact Nat.mod_eq_of_lt soon
  apply clockTick?_runs tells.wound
  obtain ⟨within, acc⟩ := tells.wound
  have young := held.young
  rw [since]
  unfold stamp clockEnd
  omega

/-! ## What is left of the lease -/

/-- What may become of the client before its next grant: polls less than 65536
ticks apart, starts, and whatever the layer does. -/
inductive Ungranted (d₀ : Dhcp.MnDhcp) (net₀ : MnNetFull) (last₀ : UInt16) :
    Dhcp.MnDhcp → MnNetFull → UInt16 → Prop where
  | here : Ungranted d₀ net₀ last₀ d₀ net₀ last₀
  | meanwhile {d : Dhcp.MnDhcp} {net : MnNetFull} {last : UInt16}
      (run : Ungranted d₀ net₀ last₀ d net last)
      (after : MnNetFull) : Ungranted d₀ net₀ last₀ d after last
  | starts {d : Dhcp.MnDhcp} {net : MnNetFull} {last : UInt16} (run : Ungranted d₀ net₀ last₀ d net last)
      (now : UInt16) :
      Ungranted d₀ net₀ last₀ (Dhcp.mnDhcpStart d net now).1 (Dhcp.mnDhcpStart d net now).2 last
  | polled {d : Dhcp.MnDhcp} {net : MnNetFull} {last : UInt16}
      (run : Ungranted d₀ net₀ last₀ d net last) (x : XMem)
      (gap : Nat) (soon : gap < 65536) (none_ : ¬ AcceptsAck d net x (last + UInt16.ofNat gap)) :
      Ungranted d₀ net₀ last₀ (Dhcp.mnDhcpPoll d net x (last + UInt16.ofNat gap)).1
        (Dhcp.mnDhcpPoll d net x (last + UInt16.ofNat gap)).2 (last + UInt16.ofNat gap)

private theorem unbound_left (off : d.state ≠ .bound) : Dhcp.mnDhcpLeaseLeft d = 0 := if_pos off

private theorem held_left (held : Held minutes d now elapsed) :
    (Dhcp.mnDhcpLeaseLeft d).toNat = minutes - d.ageM.toNat := by
  have young := held.young
  have lease := held.lease
  have less : d.ageM < d.leaseM := by
    rw [UInt16.lt_iff_toNat_lt, lease]
    exact young
  have state : ¬ d.state ≠ .bound := fun off => off held.bound
  unfold Dhcp.mnDhcpLeaseLeft
  rw [if_neg state, if_neg held.finite, if_pos less, toNat_less (by omega), lease]

/-- As time goes by, less is left of a lease. -/
theorem held_left_le {elapsed' : Nat} (held : Held minutes d last elapsed)
    (held' : Held minutes d' last' elapsed')
    (later : elapsed ≤ elapsed') : Dhcp.mnDhcpLeaseLeft d' ≤ Dhcp.mnDhcpLeaseLeft d := by
  have told := held.told
  have told' := held'.told
  obtain ⟨within, acc⟩ := held.wound
  obtain ⟨within', acc'⟩ := held'.wound
  unfold stamp at told told'
  rw [UInt16.le_iff_toNat_le, held_left held, held_left held']
  omega

private theorem ungranted_unbound {d₀ : Dhcp.MnDhcp} {net₀ : MnNetFull} {last₀ : UInt16}
    (off : d₀.state ≠ .bound)
    (run : Ungranted d₀ net₀ last₀ d net last) : d.state ≠ .bound := by
  induction run with
  | here => exact off
  | meanwhile _ _ ih => exact ih
  | @starts d net _ _ now =>
    obtain ⟨state, _⟩ := start_unconfigured d net now
    rw [state]
    intro bound
    cases bound
  | polled _ x gap soon none_ ih => exact unbound_stays ih none_

/-- A lease that was held is held still, or given up. -/
theorem ungranted_held {d₀ : Dhcp.MnDhcp} {net₀ : MnNetFull} {last₀ : UInt16} (short : minutes < 64800)
    (held : Held minutes d₀ last₀ elapsed) (run : Ungranted d₀ net₀ last₀ d net last) :
    (∃ elapsed', elapsed ≤ elapsed' ∧ Held minutes d last elapsed') ∨ d.state ≠ .bound := by
  induction run with
  | here => exact Or.inl ⟨elapsed, Nat.le_refl _, held⟩
  | meanwhile _ _ ih => exact ih
  | @starts d net _ _ now =>
    obtain ⟨state, _⟩ := start_unconfigured d net now
    right
    rw [state]
    intro bound
    cases bound
  | @polled d net last run x gap soon none_ ih =>
    obtain ⟨elapsed', later, still⟩ | off := ih
    · obtain held' | gone := still.poll short soon net x none_
      · exact Or.inl ⟨elapsed' + gap, by omega, held'⟩
      · exact Or.inr gone.unbound
    · exact Or.inr (unbound_stays off none_)

theorem Tells.left_le {net₀ : MnNetFull} (tells : Tells d last elapsed)
    (run : Ungranted d net₀ last d' net' last') :
    Dhcp.mnDhcpLeaseLeft d' ≤ Dhcp.mnDhcpLeaseLeft d := by
  by_cases on : d.state = .bound
  · by_cases unending : d.t1M = 0
    · have all : Dhcp.mnDhcpLeaseLeft d = 0xffff := by
        unfold Dhcp.mnDhcpLeaseLeft
        rw [if_neg fun off => off on, if_pos unending]
      rw [all, UInt16.le_iff_toNat_le]
      exact Nat.le_of_lt_succ (UInt16.toNat_lt _)
    · obtain ⟨minutes, short, held⟩ := tells.held on unending
      obtain ⟨elapsed', later, still⟩ | off := ungranted_held short held run
      · exact held_left_le held still later
      · rw [unbound_left off]
        exact UInt16.zero_le
  · rw [unbound_left (ungranted_unbound on run)]
    exact UInt16.zero_le

/-- The clock neither loses nor gains a tick while a lease lasts, and no counter
of it wraps; so what is left of the lease never grows before the next grant. -/
theorem lease_clock_exact {d : Dhcp.MnDhcp} {net : MnNetFull} {last : UInt16} {elapsed : Nat}
    (run : Clocked d net last elapsed) :
    (d.tickAcc < 50 ∧ d.secAcc < 60 ∧
      3000 * d.ageM.toNat + 50 * d.secAcc.toNat + d.tickAcc.toNat = elapsed) ∧
      (d.state = .bound → d.t1M ≠ 0 → ∀ gap < 65536,
        clockTick? d (last + UInt16.ofNat gap) = some (Dhcp.clockTick d (last + UInt16.ofNat gap))) ∧
      ∀ d' net' last', Ungranted d net last d' net' last' →
        Dhcp.mnDhcpLeaseLeft d' ≤ Dhcp.mnDhcpLeaseLeft d := by
  have tells := clocked_tells run
  obtain ⟨within, acc⟩ := tells.wound
  refine ⟨⟨?_, ?_, tells.told⟩, fun on finite gap soon => tells.runs on finite soon,
    fun d' net' last' later =>
    tells.left_le later⟩
  · rw [UInt8.lt_iff_toNat_lt]
    exact acc
  · rw [UInt8.lt_iff_toNat_lt]
    exact within

/-- Without a socket no ACK is heard. -/
theorem alone_refuses (alone : d.sock = 0xff) : ¬ AcceptsAck d net x now := by
  have deaf : ∀ {d : Dhcp.MnDhcp}, d.sock = 0xff → ¬ HearsAck d net x := by
    rintro d alone ⟨m, _, _, hears⟩
    generalize same : some (Dhcp.MSG_ACK, m) = msg at hears
    cases hears with
    | nothing => cases same
    | message i here => exact absurd i.isLt (by rw [← here, alone]; decide)
  obtain ⟨_, _, _, _, aged⟩ := clockTick_aged d now
  rintro (⟨_, hears⟩ | ⟨_, _, hears⟩)
  · exact deaf alone hears
  · rw [aged] at hears
    exact deaf (by exact alone) hears

/-- A lease of two minutes, looked at twice since it was granted: the second
look finds it due for renewal. -/
def twoMinutes : Dhcp.MnDhcp × MnNetFull :=
  Dhcp.mnDhcpPoll offeredTo.1 (withMail offeredTo.2 (ackFor 120)) (mailIn (ackFor 120)) 2

def lookedAt : Dhcp.MnDhcp × MnNetFull :=
  Dhcp.mnDhcpPoll twoMinutes.1 twoMinutes.2 (fun _ => 0) (2 + UInt16.ofNat 1000)

def renewing : Dhcp.MnDhcp × MnNetFull :=
  Dhcp.mnDhcpPoll lookedAt.1 lookedAt.2 (fun _ => 0) (2 + UInt16.ofNat 1000 + UInt16.ofNat 2090)

private theorem renewing_polled : (lookedAt.1.state = .bound ∧ lookedAt.1.t1M ≠ 0 ∧
    lookedAt.1.sock = 0xff) ∧
    renewing.1.state = .bound ∧ renewing.1.t1M ≠ 0 ∧ renewing.1.phase = .renewing := by decide +kernel

theorem lease_clock_two_minutes :
    3000 * renewing.1.ageM.toNat + 50 * renewing.1.secAcc.toNat + renewing.1.tickAcc.toNat =
      1000 + 2090 ∧
    clockTick? renewing.1 (3092 + UInt16.ofNat 65535) = some
      (Dhcp.clockTick renewing.1 (3092 + UInt16.ofNat 65535)) ∧
    Dhcp.mnDhcpLeaseLeft renewing.1 ≤ Dhcp.mnDhcpLeaseLeft twoMinutes.1 := by
  have facts : (offeredTo.1.state = .requesting ∧
      (Dhcp.hear offeredTo.1 (withMail offeredTo.2 (ackFor 120)) (mailIn (ackFor 120))).1 =
        some (Dhcp.MSG_ACK, ackFor 120)) ∧
      twoMinutes.1.state = .bound ∧ twoMinutes.1.t1M ≠ 0 ∧ twoMinutes.1.sock = 0xff := by decide +kernel
  obtain ⟨heard, on, finite, alone⟩ := facts
  obtain ⟨⟨on', finite', alone'⟩, on'', finite'', _⟩ := renewing_polled
  have granted : Clocked twoMinutes.1 twoMinutes.2 2 0 := .granted (ackFor_accepted 120 heard)
  have looked : Clocked lookedAt.1 lookedAt.2 _ _ :=
    granted.polled on finite (fun _ => 0) 1000 (by decide) (alone_refuses alone)
  have run : Clocked renewing.1 renewing.2 _ _ :=
    looked.polled on' finite' (fun _ => 0) 2090 (by decide) (alone_refuses alone')
  have first : Ungranted twoMinutes.1 twoMinutes.2 2 lookedAt.1 lookedAt.2 _ :=
    Ungranted.here.polled (fun _ => 0) 1000 (by decide) (alone_refuses alone)
  have later : Ungranted twoMinutes.1 twoMinutes.2 2 renewing.1 renewing.2 _ :=
    first.polled (fun _ => 0) 2090 (by decide) (alone_refuses alone')
  obtain ⟨⟨_, _, told⟩, watched, _⟩ := lease_clock_exact run
  exact ⟨told, watched on'' finite'' 65535 (Nat.lt_succ_self _),
    (lease_clock_exact granted).2.2 _ _ _ later⟩

end MegaNet.DhcpClock
