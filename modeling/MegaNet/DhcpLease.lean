import MegaNet.DhcpAddress
import MegaNet.Words

/-! How long a lease is kept: the minute clock loses no tick, so a lease of two
minutes or more is given up in time, and a shorter one never. -/
namespace MegaNet.DhcpLease
open MegaNet.Core Transition TcpEmission TcpConnection UdpOutcomes DhcpOutcomes DhcpAddress Words

variable {d d' : Dhcp.MnDhcp} {net net' after : MnNetFull} {x : XMem}
  {now start : UInt16} {elapsed : Nat}
  {msg : Option (UInt8 × List UInt8)} {out : Dhcp.MnDhcp × MnNetFull}

/-! ## The minute clock -/

/-- The ticks the clock stands at. -/
def stamp (d : Dhcp.MnDhcp) : Nat := 3000 * d.ageM.toNat + 50 * d.secAcc.toNat + d.tickAcc.toNat

/-- Its hands are within a minute and a second. -/
def Wound (d : Dhcp.MnDhcp) : Prop := d.secAcc.toNat < 60 ∧ d.tickAcc.toNat < 50

/-- The clock stops here. -/
def clockEnd : Nat := 3000 * 65536

/-- The clock has moved on by `ticks`, by whole seconds. -/
structure Turned (d d' : Dhcp.MnDhcp) (ticks : Nat) : Prop where
  moved : stamp d' = stamp d + ticks
  within : d'.secAcc.toNat < 60
  acc : d'.tickAcc = d.tickAcc
  last : d'.tickLast = d.tickLast

theorem second_turned (within : d.secAcc.toNat < 60) (room : stamp d + 50 < clockEnd) :
    Turned d (Dhcp.second d) 50 := by
  have more : (d.secAcc + 1).toNat = d.secAcc.toNat + 1 := by
    rw [UInt8.toNat_add, show UInt8.toNat 1 = 1 from rfl]
    omega
  unfold stamp clockEnd at room
  unfold Dhcp.second
  split
  · rename_i full
    rw [ge_iff_le, UInt8.le_iff_toNat_le, more, show UInt8.toNat 60 = 60 from rfl] at full
    have turned : (d.ageM + 1).toNat = d.ageM.toNat + 1 :=
      toNat_more (by rw [show UInt16.toNat 1 = 1 from rfl]; omega)
    refine ⟨?_, Nat.zero_lt_of_lt within, rfl, rfl⟩
    simp only [stamp, turned, show UInt8.toNat 0 = 0 from rfl]
    omega
  · rename_i running
    rw [ge_iff_le, UInt8.le_iff_toNat_le, more, show UInt8.toNat 60 = 60 from rfl] at running
    refine ⟨?_, by dsimp only; omega, rfl, rfl⟩
    simp only [stamp, more]
    omega

/-- The loop takes off whole seconds until less than one is left. -/
theorem seconds_turned (fuel : Nat) (delta : UInt16) (d : Dhcp.MnDhcp) (enough : delta.toNat ≤ fuel)
    (within : d.secAcc.toNat < 60) (room : stamp d + delta.toNat < clockEnd) :
    (Dhcp.seconds fuel delta d).1.toNat < 50 ∧ (Dhcp.seconds fuel delta d).1.toNat ≤ delta.toNat ∧
      Turned d (Dhcp.seconds fuel delta d).2 (delta.toNat - (Dhcp.seconds fuel delta d).1.toNat) := by
  induction fuel generalizing delta d with
  | zero =>
    have none_ : delta.toNat = 0 := by omega
    unfold Dhcp.seconds
    exact ⟨by dsimp only; omega, Nat.le_refl _, ⟨by rw [Nat.sub_self]; rfl, within, rfl, rfl⟩⟩
  | succ fuel ih =>
    unfold Dhcp.seconds
    split
    · rename_i whole
      rw [ge_iff_le, UInt16.le_iff_toNat_le, show Dhcp.TICKS_PER_S.toNat = 50 from rfl] at whole
      have rest : (delta - Dhcp.TICKS_PER_S).toNat = delta.toNat - 50 := toNat_less whole
      have once := second_turned within (by omega)
      have room' : stamp (Dhcp.second d) + (delta - Dhcp.TICKS_PER_S).toNat < clockEnd := by
        rw [once.moved]
        omega
      obtain ⟨short, less, more⟩ :=
        ih (delta - Dhcp.TICKS_PER_S) (Dhcp.second d) (by omega) once.within room'
      refine ⟨short, by omega, ?_, more.within, more.acc.trans once.acc, more.last.trans once.last⟩
      rw [more.moved, once.moved]
      omega
    · rename_i short
      rw [ge_iff_le, UInt16.le_iff_toNat_le, show Dhcp.TICKS_PER_S.toNat = 50 from rfl] at short
      exact ⟨by dsimp only; omega, Nat.le_refl _, ⟨by rw [Nat.sub_self]; rfl, within, rfl, rfl⟩⟩

/-- The clock moves on by the ticks since it was looked at last. -/
theorem clockTick_spec (wound : Wound d) (room : stamp d + (now - d.tickLast).toNat < clockEnd) :
    stamp (Dhcp.clockTick d now) = stamp d + (now - d.tickLast).toNat ∧ Wound (Dhcp.clockTick d now) ∧
      (Dhcp.clockTick d now).tickLast = now := by
  obtain ⟨short, less, turned⟩ := seconds_turned (now - d.tickLast).toNat (now - d.tickLast)
    { d with tickLast := now } (Nat.le_refl _) wound.1 room
  unfold Dhcp.clockTick
  dsimp only
  generalize Dhcp.seconds (now - d.tickLast).toNat (now - d.tickLast) { d with tickLast := now } = out
    at short less turned
  obtain ⟨delta, d'⟩ := out
  dsimp only at short less turned ⊢
  obtain ⟨moved, within, acc, last⟩ := turned
  rw [show stamp { d with tickLast := now } = stamp d from rfl] at moved
  have byte : delta.toUInt8.toNat = delta.toNat := by
    rw [UInt16.toNat_toUInt8]
    omega
  have sum : (d'.tickAcc + delta.toUInt8).toNat = d'.tickAcc.toNat + delta.toNat := by
    rw [UInt8.toNat_add, acc, byte]
    have := wound.2
    dsimp only
    omega
  have added : stamp { d' with tickAcc := d'.tickAcc + delta.toUInt8 } = stamp d +
      (now - d.tickLast).toNat := by
    have here : stamp d' = 3000 * d'.ageM.toNat + 50 * d'.secAcc.toNat + d'.tickAcc.toNat := rfl
    simp only [stamp, sum] at here ⊢
    unfold stamp at moved
    omega
  split
  · rename_i full
    rw [ge_iff_le, UInt8.le_iff_toNat_le, sum, show UInt8.toNat 50 = 50 from rfl] at full
    have left : (d'.tickAcc + delta.toUInt8 - 50).toNat = d'.tickAcc.toNat + delta.toNat - 50 := by
      rw [UInt8.toNat_sub_of_le _ _ (by rw [UInt8.le_iff_toNat_le, sum]; exact full), sum]
      rfl
    have taken : stamp { d' with tickAcc := d'.tickAcc + delta.toUInt8 - 50 } + 50 =
        stamp d + (now - d.tickLast).toNat := by
      rw [← added]
      simp only [stamp, left, sum]
      omega
    have once := second_turned (d := { d' with tickAcc := d'.tickAcc + delta.toUInt8 - 50 }) within
      (by omega)
    have acc' : d'.tickAcc.toNat < 50 := acc ▸ wound.2
    refine ⟨by rw [once.moved, taken], ⟨once.within, ?_⟩, once.last.trans last⟩
    rw [once.acc]
    dsimp only
    omega
  · rename_i running
    rw [ge_iff_le, UInt8.le_iff_toNat_le, sum, show UInt8.toNat 50 = 50 from rfl] at running
    exact ⟨added, ⟨within, by dsimp only; omega⟩, last⟩

/-! ## Granting -/

/-- With the lease the clock begins anew. -/
theorem granted_clock (d : Dhcp.MnDhcp) (now : UInt16) :
    stamp (Dhcp.granted d now) = 0 ∧ Wound (Dhcp.granted d now) ∧ (Dhcp.granted d now).tickLast = now ∧
      (Dhcp.granted d now).leaseS = d.leaseS := by
  unfold Dhcp.granted
  dsimp only
  have zero : UInt8.toNat 0 < 60 ∧ UInt8.toNat 0 < 50 := by decide
  split <;> exact ⟨rfl, zero, rfl, rfl⟩

/-- The lease in minutes, and where in it T1 and T2 are. -/
theorem granted_long (long : ¬ d.leaseS < 120) (finite : d.leaseS < Dhcp.LEASE_FOREVER_S)
    (now : UInt16) :
    (Dhcp.granted d now).leaseM.toNat = d.leaseS.toNat / 60 ∧
      (Dhcp.granted d now).t1M.toNat = d.leaseS.toNat / 60 / 2 ∧
      (Dhcp.granted d now).t2M.toNat = d.leaseS.toNat / 60 - d.leaseS.toNat / 60 / 8 ∧
      (Dhcp.granted d now).nextM = (Dhcp.granted d now).t1M := by
  have unending : ¬ (d.leaseS < 120 ∨ d.leaseS ≥ Dhcp.LEASE_FOREVER_S) := by
    rintro (short | forever)
    · exact long short
    · rw [ge_iff_le, UInt32.le_iff_toNat_le] at forever
      rw [UInt32.lt_iff_toNat_lt] at finite
      omega
  rw [UInt32.lt_iff_toNat_lt, show Dhcp.LEASE_FOREVER_S.toNat = 3888000 from rfl] at finite
  have minutes : (d.leaseS / 60).toUInt16.toNat = d.leaseS.toNat / 60 := by
    rw [UInt32.toNat_toUInt16, UInt32.toNat_div, show UInt32.toNat 60 = 60 from rfl]
    omega
  have half : ((d.leaseS / 60).toUInt16 / 2).toNat = d.leaseS.toNat / 60 / 2 := by
    rw [UInt16.toNat_div, minutes]
    rfl
  have eighth : ((d.leaseS / 60).toUInt16 / 8).toNat = d.leaseS.toNat / 60 / 8 := by
    rw [UInt16.toNat_div, minutes]
    rfl
  unfold Dhcp.granted
  dsimp only
  rw [if_neg unending]
  refine ⟨minutes, half, ?_, rfl⟩
  dsimp only
  rw [toNat_less (by omega), minutes, eighth]

/-- A lease of less than two minutes is one without end. -/
theorem granted_short (short : d.leaseS < 120) (now : UInt16) : (Dhcp.granted d now).t1M = 0 := by
  unfold Dhcp.granted
  dsimp only
  rw [if_pos (Or.inl short)]

/-- And so is one of 45 days or more. -/
theorem granted_forever (forever : Dhcp.LEASE_FOREVER_S ≤ d.leaseS) (now : UInt16) :
    (Dhcp.granted d now).t1M = 0 := by
  unfold Dhcp.granted
  dsimp only
  rw [if_pos (Or.inr forever)]

/-- An ACK is heard. -/
def HearsAck (d : Dhcp.MnDhcp) (net : MnNetFull) (x : XMem) : Prop :=
  ∃ m d' net', Hears d net x (some (Dhcp.MSG_ACK, m)) d' net'

/-- A poll accepts an ACK: the one that binds the address, or one that renews
the lease. -/
def AcceptsAck (d : Dhcp.MnDhcp) (net : MnNetFull) (x : XMem) (now : UInt16) : Prop :=
  (d.state = .requesting ∧ HearsAck d net x) ∨
    (d.state = .bound ∧ (Dhcp.clockTick d now).t1M ≠ 0 ∧ HearsAck (Dhcp.clockTick d now) net x)

/-- Accepting one is what grants a lease. -/
theorem accepts_granted (accepts : AcceptsAck d net x now) :
    ∃ d', d'.state = .bound ∧ (Dhcp.mnDhcpPoll d net x now).1 = Dhcp.granted d' now := by
  have polls := poll_polls d net x now
  generalize Dhcp.mnDhcpPoll d net x now = out at polls
  obtain ⟨on, m, d₁, net₁, heard⟩ | ⟨on, finite, m, d₁, net₁, heard⟩ := accepts
  · obtain ⟨msg, d', net', hears, acquires⟩ := polls.acquiring (Or.inr on)
    obtain ⟨rfl, rfl, rfl⟩ := heard.unique hears
    have read := heard.reread.state.trans on
    have acted : Acts d₁.state Dhcp.MSG_ACK := Or.inr ⟨Or.inl read, Or.inl rfl⟩
    cases acquires with
    | offer _ got | nak _ got => cases got
    | ack => exact ⟨_, rfl, rfl⟩
    | fails ignored | asks ignored | waits ignored => exact absurd acted (ignored _ _ rfl)
  · obtain ⟨never, _⟩ | ⟨_, msg, d', net', hears, keeps⟩ := polls.bound on
    · exact absurd never finite
    obtain ⟨rfl, rfl, rfl⟩ := heard.unique hears
    have read := (heard.reread.state.trans (clockTick_aged d now).state).trans on
    have acted : Acts .bound Dhcp.MSG_ACK := Or.inr ⟨Or.inr rfl, Or.inl rfl⟩
    cases keeps with
    | ack => exact ⟨{ d₁ with sock := 0xff }, read, rfl⟩
    | nak _ got => cases got
    | expires ignored | renews ignored | resends ignored | waits ignored =>
      exact absurd acted (ignored _ _ rfl)

/-- And without one nothing is bound that was not. -/
theorem unbound_stays (off : d.state ≠ .bound) (accepts : ¬ AcceptsAck d net x now) :
    (Dhcp.mnDhcpPoll d net x now).1.state ≠ .bound := by
  have polls := poll_polls d net x now
  generalize Dhcp.mnDhcpPoll d net x now = out at polls
  cases polls with
  | rests => exact off
  | forever on | keeps on => exact absurd on off
  | acquires on hears acquires =>
    have read := hears.reread.state
    cases acquires with
    | ack m got here =>
      subst got
      exact absurd (Or.inl ⟨read.symm.trans here, m, _, _, hears⟩) accepts
    | offer _ _ _ sends | nak _ _ _ sends =>
      rw [Sends.sameState sends]
      intro bound
      cases bound
    | fails =>
      intro bound
      cases bound
    | asks _ sends =>
      rw [Sends.sameState sends, read]
      exact off
    | waits =>
      rw [read]
      exact off

/-! ## Since an ACK -/

/-- What becomes of the client, and of its layer, after an ACK accepted at
`start`, with no further one: starts, polls less than 65536 ticks apart, and
whatever leaves the address alone. `elapsed` ticks after the ACK it was polled
last, and the tick then was `now`. -/
inductive Since (d₀ : Dhcp.MnDhcp) (net₀ : MnNetFull) (start : UInt16) :
    Dhcp.MnDhcp → MnNetFull → UInt16 → Nat → Prop where
  | granted : Since d₀ net₀ start d₀ net₀ start 0
  | starts {d : Dhcp.MnDhcp} {net : MnNetFull} {last : UInt16} {elapsed : Nat}
      (run : Since d₀ net₀ start d net last elapsed) (now : UInt16) :
      Since d₀ net₀ start (Dhcp.mnDhcpStart d net now).1 (Dhcp.mnDhcpStart d net now).2 last elapsed
  | meanwhile {d : Dhcp.MnDhcp} {net after : MnNetFull} {last : UInt16} {elapsed : Nat}
      (run : Since d₀ net₀ start d net last elapsed) (same : SameAddress net after) :
      Since d₀ net₀ start d after last elapsed
  | polled {d : Dhcp.MnDhcp} {net : MnNetFull} {last : UInt16} {elapsed : Nat}
      (run : Since d₀ net₀ start d net last elapsed) (x : XMem) (gap : Nat) (soon : gap < 65536)
      (none_ : ¬ AcceptsAck d net x (last + UInt16.ofNat gap)) :
      Since d₀ net₀ start (Dhcp.mnDhcpPoll d net x (last + UInt16.ofNat gap)).1
        (Dhcp.mnDhcpPoll d net x (last + UInt16.ofNat gap)).2 (last + UInt16.ofNat gap) (elapsed + gap)

/-- Polled when the lease's seconds and a minute have passed since the ACK, the
client has left `BOUND`, and no address is configured. -/
def NeverOutlived (d₀ : Dhcp.MnDhcp) (net₀ : MnNetFull) (start : UInt16) : Prop :=
  ∀ d net now elapsed, Since d₀ net₀ start d net now elapsed → 50 * d₀.leaseS.toNat + 3000 ≤ elapsed →
    d.state ≠ .bound ∧ net.ip = zeroIp

/-- The lease is held, its clock at the ticks since the ACK. -/
structure Held (minutes : Nat) (d : Dhcp.MnDhcp) (now : UInt16) (elapsed : Nat) : Prop where
  bound : d.state = .bound
  wound : Wound d
  told : stamp d = elapsed
  last : d.tickLast = now
  lease : d.leaseM.toNat = minutes
  finite : d.t1M ≠ 0
  young : d.ageM.toNat < minutes

/-- It is given up. -/
structure Gone (d : Dhcp.MnDhcp) (net : MnNetFull) : Prop where
  unbound : d.state ≠ .bound
  begun : d.state ≠ .idle
  ip : net.ip = zeroIp

/-- A held lease by what the clock and the terms are; what else the client keeps
does not matter. -/
theorem Held.congr {minutes : Nat} (held : Held minutes d now elapsed) (state : d'.state = .bound)
    (clock : d'.ageM = d.ageM ∧ d'.secAcc = d.secAcc ∧ d'.tickAcc = d.tickAcc ∧ d'.tickLast = d.tickLast)
    (terms : d'.leaseM = d.leaseM ∧ d'.t1M = d.t1M) : Held minutes d' now elapsed := by
  obtain ⟨age, sec, acc, last⟩ := clock
  obtain ⟨bound, wound, told, last', lease, finite, young⟩ := held
  refine ⟨state, ?_, ?_, last.trans last', terms.1 ▸ lease, terms.2 ▸ finite, age ▸ young⟩
  · rw [Wound, sec, acc]
    exact wound
  · rw [stamp, age, sec, acc]
    exact told

/-- The clock on a held lease tells the time. -/
theorem Held.tick {minutes gap : Nat} (held : Held minutes d now elapsed) (short : minutes < 64800)
    (soon : gap < 65536) :
    stamp (Dhcp.clockTick d (now + UInt16.ofNat gap)) = elapsed + gap ∧
      Wound (Dhcp.clockTick d (now + UInt16.ofNat gap)) ∧
      (Dhcp.clockTick d (now + UInt16.ofNat gap)).tickLast = now + UInt16.ofNat gap := by
  have since : (now + UInt16.ofNat gap - d.tickLast).toNat = gap := by
    rw [held.last, UInt16.add_comm, UInt16.add_sub_cancel, UInt16.toNat_ofNat']
    exact Nat.mod_eq_of_lt soon
  have room : stamp d + (now + UInt16.ofNat gap - d.tickLast).toNat < clockEnd := by
    obtain ⟨within, acc⟩ := held.wound
    have young := held.young
    rw [since]
    unfold stamp clockEnd
    omega
  obtain ⟨moved, wound, last⟩ := clockTick_spec held.wound room
  exact ⟨by rw [moved, since, held.told], wound, last⟩

/-- A poll without an ACK holds the lease, the time told, or gives it up. -/
theorem Held.poll {minutes gap : Nat} (held : Held minutes d now elapsed) (short : minutes < 64800)
    (soon : gap < 65536) (net : MnNetFull) (x : XMem)
    (none_ : ¬ AcceptsAck d net x (now + UInt16.ofNat gap)) :
    Held minutes (Dhcp.mnDhcpPoll d net x (now + UInt16.ofNat gap)).1
      (now + UInt16.ofNat gap) (elapsed + gap) ∨
      Gone (Dhcp.mnDhcpPoll d net x (now + UInt16.ofNat gap)).1
        (Dhcp.mnDhcpPoll d net x (now + UInt16.ofNat gap)).2 := by
  obtain ⟨told, wound, last⟩ := held.tick short soon
  have polls := poll_polls d net x (now + UInt16.ofNat gap)
  generalize now + UInt16.ofNat gap = then_ at told wound last polls none_ ⊢
  generalize Dhcp.mnDhcpPoll d net x then_ = out at polls ⊢
  have aged := clockTick_aged d then_
  have gone : ∀ {d net out}, Loses d net then_ out → Gone out.1 out.2 := by
    intro d net out loses
    obtain ⟨state, un⟩ := Loses.unconfigured loses
    exact ⟨by rw [state]; decide, by rw [state]; decide, un.ip⟩
  obtain ⟨never, _⟩ | ⟨finite, msg, d', net', hears, keeps⟩ := polls.bound held.bound
  · obtain ⟨_, _, _, _, aged⟩ := aged
    rw [aged] at never
    exact absurd never held.finite
  have state := (hears.reread.state.trans aged.state).trans held.bound
  -- The lease as the poll finds it, if it is young enough.
  have still : ¬ d'.ageM ≥ d'.leaseM → Held minutes d' then_ (elapsed + gap) := by
    obtain ⟨_, _, _, _, aged⟩ := aged
    obtain ⟨_, _, _, _, _, reread⟩ := hears.reread
    intro young
    rw [ge_iff_le, UInt16.le_iff_toNat_le, Nat.not_le] at young
    have lease : d'.leaseM.toNat = minutes := by
      rw [reread, aged]
      exact held.lease
    refine ⟨state, ?_, ?_, ?_, lease, ?_, lease ▸ young⟩ <;> rw [reread]
    · exact wound
    · exact told
    · exact last
    · exact finite
  cases keeps with
  | ack m got =>
    subst got
    exact absurd (Or.inr ⟨held.bound, finite, m, _, _, hears⟩) none_
  | nak _ _ loses | expires _ _ loses => exact Or.inr (gone loses)
  | renews _ young _ renews =>
    obtain ⟨_, _, _, _, sends, rfl⟩ := renews
    cases sends with
    | sends => exact Or.inl ((still young).congr state ⟨rfl, rfl, rfl, rfl⟩ ⟨rfl, rfl⟩)
  | resends _ young _ _ sends =>
    cases sends with
    | sends => exact Or.inl ((still young).congr state ⟨rfl, rfl, rfl, rfl⟩ ⟨rfl, rfl⟩)
  | waits _ young => exact Or.inl (still young)

/-- What was given up stays so until there is another ACK. -/
theorem Gone.poll (gone : Gone d net) (none_ : ¬ AcceptsAck d net x now) :
    Gone (Dhcp.mnDhcpPoll d net x now).1 (Dhcp.mnDhcpPoll d net x now).2 := by
  have unbound := unbound_stays gone.unbound none_
  have course := poll_course d net x now
  generalize Dhcp.mnDhcpPoll d net x now = out at unbound course
  obtain ⟨d', after⟩ := out
  generalize reached : d'.state = state at unbound course
  dsimp only at reached unbound course
  have kept : SameAddress net after → state ≠ .idle → Gone d' after := fun same begun =>
    ⟨by rw [reached]; exact unbound, by rw [reached]; exact begun, same.ip.trans gone.ip⟩
  cases course with
  | stays same => exact kept same gone.begun
  | requests _ same | refused _ same | fails _ same => exact kept same (by decide)
  | binds => exact absurd rfl unbound
  | loses on => exact absurd on gone.unbound

/-- A lease of two minutes or more is held, its clock right, or given up. -/
theorem since_held_or_gone {d₀ : Dhcp.MnDhcp} {net₀ : MnNetFull} (bound : d'.state = .bound)
    (granted : d₀ = Dhcp.granted d' start) (long : ¬ d'.leaseS < 120)
    (finite : d'.leaseS < Dhcp.LEASE_FOREVER_S)
    (since : Since d₀ net₀ start d net now elapsed) :
    Held (d'.leaseS.toNat / 60) d now elapsed ∨ Gone d net := by
  rw [UInt32.lt_iff_toNat_lt, show UInt32.toNat 120 = 120 from rfl] at long
  have bounded := finite
  rw [UInt32.lt_iff_toNat_lt, show Dhcp.LEASE_FOREVER_S.toNat = 3888000 from rfl] at bounded
  induction since with
  | granted =>
    left
    obtain ⟨zero, wound, last, _⟩ := granted_clock d' start
    obtain ⟨lease, half, _, _⟩ := granted_long (by rw [UInt32.lt_iff_toNat_lt]; exact long) finite start
    subst granted
    refine ⟨(granted_state d' start).trans bound, wound, zero, last, lease, fun never => ?_, ?_⟩
    · rw [never, show UInt16.toNat 0 = 0 from rfl] at half
      omega
    · unfold stamp at zero
      omega
  | @starts d net _ _ _ now =>
    obtain ⟨state, un⟩ := start_unconfigured d net now
    refine Or.inr ⟨?_, ?_, un.ip⟩ <;> rw [state]
    · exact fun off => by cases off
    · exact fun off => by cases off
  | meanwhile _ same ih =>
    obtain held | gone := ih
    · exact Or.inl held
    · exact Or.inr ⟨gone.unbound, gone.begun, same.ip.trans gone.ip⟩
  | polled _ x gap soon none_ ih =>
    obtain held | gone := ih
    · exact held.poll (by omega) soon _ x none_
    · exact Or.inr (gone.poll none_)

/-- A lease that is held is not yet over. -/
theorem Held.not_over {lease : Nat} (held : Held (lease / 60) d now elapsed) : elapsed <
    50 * lease + 3000 := by
  obtain ⟨within, acc⟩ := held.wound
  have told := held.told
  have young := held.young
  unfold stamp at told
  omega

/-! ## When a lease is outlived -/

/-- Without T1 a client stays bound, and listens to nobody. -/
theorem unending_stays (bound : d.state = .bound) (unending : d.t1M = 0) (net : MnNetFull)
    (x : XMem) (now : UInt16) :
    ¬ AcceptsAck d net x now ∧ (Dhcp.mnDhcpPoll d net x now).1.state = .bound := by
  have aged := clockTick_aged d now
  have still : (Dhcp.clockTick d now).t1M = 0 := by
    obtain ⟨_, _, _, _, same⟩ := aged
    rw [same]
    exact unending
  constructor
  · rintro (⟨off, _⟩ | ⟨_, finite, _⟩)
    · rw [bound] at off
      cases off
    · exact finite still
  · obtain ⟨_, same⟩ | ⟨finite, _⟩ := (poll_polls d net x now).bound bound
    · rw [same]
      exact aged.state.trans bound
    · exact absurd still finite

/-- So a lease of less than two minutes outlives one long gap between polls. -/
theorem short_outlived {d₀ : Dhcp.MnDhcp} (bound : d'.state = .bound)
    (granted : d₀ = Dhcp.granted d' start)
    (short : d'.leaseS < 120) (net₀ : MnNetFull) : ¬ NeverOutlived d₀ net₀ start := by
  intro never
  have state : d₀.state = .bound := granted ▸ (granted_state d' start).trans bound
  have unending : d₀.t1M = 0 := granted ▸ granted_short short start
  have lease : d₀.leaseS = d'.leaseS := granted ▸ (granted_clock d' start).2.2.2
  obtain ⟨none_, stays⟩ := unending_stays state unending net₀ (fun _ => 0) (start + UInt16.ofNat 65535)
  have late : 50 * d₀.leaseS.toNat + 3000 ≤ 0 + 65535 := by
    rw [UInt32.lt_iff_toNat_lt, ← lease, show UInt32.toNat 120 = 120 from rfl] at short
    omega
  exact (never _ _ _ _ (.polled .granted (fun _ => 0) 65535 (by decide) none_) late).1 stays

/-- A lease with an end is never outlived, whatever is received, exactly when it
is one of two minutes or more. -/
theorem lease_never_outlived_iff (accepts : AcceptsAck d net x now)
    (ends : 0 < (Dhcp.mnDhcpPoll d net x now).1.leaseS ∧
      (Dhcp.mnDhcpPoll d net x now).1.leaseS < Dhcp.LEASE_FOREVER_S) :
    NeverOutlived (Dhcp.mnDhcpPoll d net x now).1 (Dhcp.mnDhcpPoll d net x now).2 now ↔
      120 ≤ (Dhcp.mnDhcpPoll d net x now).1.leaseS := by
  obtain ⟨d', bound, granted⟩ := accepts_granted accepts
  generalize Dhcp.mnDhcpPoll d net x now = out at ends granted ⊢
  obtain ⟨d₀, net₀⟩ := out
  dsimp only at ends granted ⊢
  have lease : d₀.leaseS = d'.leaseS := granted ▸ (granted_clock d' now).2.2.2
  rw [lease] at ends ⊢
  rw [← UInt32.not_lt]
  constructor
  · exact fun never short => short_outlived bound granted short net₀ never
  · intro long d net now' elapsed since late
    obtain held | gone := since_held_or_gone bound granted long ends.2 since
    · have soon := held.not_over
      rw [lease] at late
      omega
    · exact ⟨gone.unbound, gone.ip⟩

/-- The ACK that grants the address for `lease` seconds. -/
def ackFor (lease : UInt8) : List UInt8 := reply Dhcp.MSG_ACK ours neighbour lease

private theorem hearsAck_of {m : List UInt8} (heard : (Dhcp.hear d net x).1 = some (Dhcp.MSG_ACK, m)) :
    HearsAck d net x :=
  ⟨m, _, _, heard ▸ hear_hears d net x⟩

theorem ackFor_accepted (lease : UInt8) (heard : offeredTo.1.state = .requesting ∧
    (Dhcp.hear offeredTo.1 (withMail offeredTo.2 (ackFor lease)) (mailIn (ackFor lease))).1 =
      some (Dhcp.MSG_ACK, ackFor lease)) :
    AcceptsAck offeredTo.1 (withMail offeredTo.2 (ackFor lease)) (mailIn (ackFor lease)) 2 :=
  Or.inl ⟨heard.1, hearsAck_of heard.2⟩

theorem lease_never_outlived_two_minutes :
    NeverOutlived
      (Dhcp.mnDhcpPoll offeredTo.1 (withMail offeredTo.2 (ackFor 120)) (mailIn (ackFor 120)) 2).1
      (Dhcp.mnDhcpPoll offeredTo.1 (withMail offeredTo.2 (ackFor 120)) (mailIn (ackFor 120)) 2).2 2 := by
  have facts : (offeredTo.1.state = .requesting ∧
      (Dhcp.hear offeredTo.1 (withMail offeredTo.2 (ackFor 120)) (mailIn (ackFor 120))).1 =
        some (Dhcp.MSG_ACK, ackFor 120)) ∧
      (let held := Dhcp.mnDhcpPoll offeredTo.1 (withMail offeredTo.2 (ackFor 120))
        (mailIn (ackFor 120)) 2
      (0 < held.1.leaseS ∧ held.1.leaseS < Dhcp.LEASE_FOREVER_S) ∧
        120 ≤ held.1.leaseS) := by decide +kernel
  obtain ⟨heard, ends, long⟩ := facts
  exact (lease_never_outlived_iff (ackFor_accepted 120 heard) ends).mpr long

/-- A lease of one minute: accepted, and two and a half minutes later the client
is bound still, and the address configured. -/
theorem minute_lease_outlived :
    AcceptsAck offeredTo.1 (withMail offeredTo.2 (ackFor 60)) (mailIn (ackFor 60)) 2 ∧
      (let held := Dhcp.mnDhcpPoll offeredTo.1 (withMail offeredTo.2 (ackFor 60)) (mailIn (ackFor 60)) 2
      let later := Dhcp.mnDhcpPoll held.1 held.2 (fun _ => 0) (2 + 7500)
      held.1.leaseS = 60 ∧ later.1.state = .bound ∧ later.2.ip = ours ∧
        ¬ NeverOutlived held.1 held.2 2) := by
  have facts : (offeredTo.1.state = .requesting ∧
      (Dhcp.hear offeredTo.1 (withMail offeredTo.2 (ackFor 60)) (mailIn (ackFor 60))).1 =
        some (Dhcp.MSG_ACK, ackFor 60)) ∧
      (let held := Dhcp.mnDhcpPoll offeredTo.1 (withMail offeredTo.2 (ackFor 60)) (mailIn (ackFor 60)) 2
      let later := Dhcp.mnDhcpPoll held.1 held.2 (fun _ => 0) (2 + 7500)
      held.1.leaseS = 60 ∧ later.1.state = .bound ∧ later.2.ip = ours) := by decide +kernel
  obtain ⟨heard, lease, still, there⟩ := facts
  have accepts := ackFor_accepted 60 heard
  refine ⟨accepts, lease, still, there, ?_⟩
  obtain ⟨d', bound, granted⟩ := accepts_granted accepts
  refine short_outlived bound granted ?_ _
  rw [← (granted_clock d' 2).2.2.2, ← granted, lease]
  decide

end MegaNet.DhcpLease
