import MegaNet.ApiRuns

/-! The clock that the calls keep out of the 8-bit frame counter: over whole runs
it counts the frames that have gone by, but for 256 of every gap as long as that
in which no call looked at the counter. -/
namespace MegaNet.FrameClock
open MegaNet.Core Transition ApiMoves

variable {t t' : Timed} {s s' : Api} {r out : Regs} {i : Inputs} {entry : Entry} {now : Nat}

/-! ## Timed runs -/

/-- Whether a call looks at the counter. -/
def looks (s : Api) (r : Regs) : Entry → Bool
  | .poll | .dhcpStart | .ntpStart => true
  | .tcpConnect => (s.sockZ r).isSome
  | .dnsStart => decide (s.dhcp.dns ≠ zeroIp)
  | _ => false

/-- A program on the ABI in real time, counted in frames: when INIT was called,
when a call last looked, and how long it was from each look to the next, the
latest first. -/
structure Timed where
  s : Api
  since : Nat
  looked : Nat
  gaps : List Nat
  now : Nat

/-- INIT has been called at the frame `now`. -/
def started (s : Api) (now : Nat) : Timed := ⟨s, now, now, [], now⟩

/-- What a call at the frame `now` leaves. -/
def Timed.called (t : Timed) (entry : Entry) (r : Regs) (now : Nat) (after : Api) : Timed :=
  if entry = .init then started after now
  else if looks t.s r entry then
    { t with s := after, looked := now, gaps := (now - t.looked) :: t.gaps, now }
  else { t with s := after, now }

inductive Step (t : Timed) : Timed → Prop where
  | calls (entry : Entry) (r : Regs) (i : Inputs) {out : Regs} {after : Api} {now : Nat}
      (later : t.now ≤ now)
      (counter : i.frameCount = UInt8.ofNat now) (done : t.s.exec entry r i = some (out, after)) :
      Step t (t.called entry r now after)
  | stores (m : PhysMem) : Step t { t with s := { t.s with m } }

def Begun (t : Timed) : Prop :=
  ∃ before i now, i.frameCount = UInt8.ofNat now ∧ t = started (mnApiInit before i).2 now

def Run : Timed → Prop := Reachable Begun Step

/-- The frames that a look misses, each gap being taken for less than 256. -/
def missed (gaps : List Nat) : Nat := (gaps.map fun gap => 256 * (gap / 256)).sum

private theorem missed_le (gaps : List Nat) : missed gaps ≤ gaps.sum := by
  unfold missed
  induction gaps with
  | nil => exact Nat.le_refl _
  | cons gap rest ih =>
    rw [List.map_cons, List.sum_cons, List.sum_cons]
    omega

private theorem missed_none {gaps : List Nat} (short : ∀ gap ∈ gaps, gap < 256) : missed gaps = 0 := by
  unfold missed
  apply List.sum_eq_zero
  intro lost member
  obtain ⟨gap, there, rfl⟩ := List.mem_map.mp member
  rw [Nat.div_eq_of_lt (short gap there), Nat.mul_zero]

/-! ## What a call does to the clock -/

private theorem dhcpStart_clock : clock (mnApiDhcpStart s i).2 = clock (s.tick i) := by
  unfold mnApiDhcpStart
  dsimp only
  generalize Dhcp.mnDhcpStart _ _ _ = begun
  rfl

private theorem dnsStart_clock :
    clock (mnApiDnsStart s r i).2 = if s.dhcp.dns ≠ zeroIp then clock (s.tick i) else clock s := by
  unfold mnApiDnsStart
  by_cases unknown : s.dhcp.dns = zeroIp
  · rw [if_neg (not_not.mpr unknown)]
    dsimp only
    rw [if_pos unknown]
    rfl
  · rw [if_pos unknown]
    dsimp only
    rw [if_neg unknown]
    rfl

/-- The clock ticks in the calls that look, and in no other. -/
theorem exec_clock (later : entry ≠ .init) (done : s.exec entry r i = some (out, s')) :
    clock s' = if looks s r entry then clock (s.tick i) else clock s := by
  cases entry with
  | init => exact absurd rfl later
  | poll =>
    rw [answered (f := mnApiPoll s i) done]
    exact poll_clock
  | dhcpStart =>
    rw [answered (f := mnApiDhcpStart s i) done]
    exact dhcpStart_clock
  | ntpStart =>
    rw [answered (f := mnApiNtpStart s r i) done]
    rfl
  | setDns =>
    cases done
    rfl
  | tcpConnect =>
    rw [answered (f := mnApiTcpConnect s r i) done]
    exact tcpConnect_rest.2
  | dnsStart =>
    rw [answered (f := mnApiDnsStart s r i) done, dnsStart_clock]
    exact if_congr decide_eq_true_iff.symm rfl rfl
  | _ => exact (exec_rest id done).2

/-! ## What holds all along -/

/-- The module's clock against the real one. -/
structure Counts (t : Timed) : Prop where
  frame : t.s.lastFrame = UInt8.ofNat t.looked
  ticks : t.s.ticks.toNat = (t.gaps.map (· % 256)).sum % 65536
  sum : t.looked = t.since + t.gaps.sum
  past : t.looked ≤ t.now

/-- What a tick adds is the gap, as far as it fits the counter. -/
theorem tick_gap (looked now : Nat) (past : looked ≤ now) :
    ((UInt8.ofNat now - UInt8.ofNat looked).toUInt16).toNat = (now - looked) % 256 := by
  rw [UInt8.toNat_toUInt16, UInt8.toNat_sub, UInt8.toNat_ofNat', UInt8.toNat_ofNat']
  omega

theorem Counts.ticked (counts : Counts t) (later : t.now ≤ now)
    (counter : i.frameCount = UInt8.ofNat now)
    {after : Api} (same : clock after = clock (t.s.tick i)) :
    Counts { t with s := after, looked := now, gaps := (now - t.looked) :: t.gaps, now } := by
  obtain ⟨frame, ticks, sum, past⟩ := counts
  have ticks' : after.ticks = t.s.ticks + (i.frameCount - t.s.lastFrame).toUInt16 :=
    congrArg Prod.fst same
  refine ⟨(congrArg Prod.snd same).trans counter, ?_, ?_, Nat.le_refl _⟩
  · have gap := tick_gap t.looked now (by omega)
    rw [ticks', counter, frame, UInt16.toNat_add, gap, ticks, List.map_cons, List.sum_cons]
    omega
  · rw [List.sum_cons]
    dsimp only
    omega

theorem Counts.called (counts : Counts t) (later : t.now ≤ now)
    (counter : i.frameCount = UInt8.ofNat now)
    {after : Api} (done : t.s.exec entry r i = some (out, after)) : Counts
    (t.called entry r now after) := by
  unfold Timed.called
  by_cases first : entry = .init
  · subst first
    rw [if_pos rfl, answered (f := mnApiInit t.s i) done]
    exact ⟨counter, rfl, rfl, Nat.le_refl _⟩
  have same := exec_clock first done
  rw [if_neg first]
  split
  · rename_i seen
    rw [if_pos seen] at same
    exact counts.ticked later counter same
  · rename_i blind
    rw [if_neg blind] at same
    obtain ⟨frame, ticks, sum, past⟩ := counts
    have ticks' : after.ticks = t.s.ticks := congrArg Prod.fst same
    exact ⟨(congrArg Prod.snd same).trans frame, (congrArg UInt16.toNat ticks').trans ticks, sum,
      Nat.le_trans past later⟩

theorem Run.counts (run : Run t) : Counts t := by
  refine Reachable.invariant (motive := Counts) ?_ ?_ run
  · rintro _ ⟨before, i, now, counter, rfl⟩
    exact ⟨counter, rfl, rfl, Nat.le_refl _⟩
  · rintro t _ _ counts step
    cases step with
    | calls entry r i later counter done => exact counts.called later counter done
    | stores m => exact ⟨counts.frame, counts.ticks, counts.sum, counts.past⟩

private theorem sum_mod (gaps : List Nat) : gaps.sum = (gaps.map (· % 256)).sum + missed gaps := by
  unfold missed
  induction gaps with
  | nil => rfl
  | cons gap rest ih =>
    simp only [List.map_cons, List.sum_cons]
    omega

/-- At every look the clock is the frames since INIT, less those missed; it is
right exactly if what was missed is whole turns of the clock, as it is if no gap
was 256 frames long. -/
theorem clock_counts_frames (run : Run t) :
    t.s.ticks.toNat = (t.looked - t.since - missed t.gaps) % 65536 ∧ missed t.gaps ≤ t.looked - t.since ∧
      (t.s.ticks.toNat = (t.looked - t.since) % 65536 ↔ 65536 ∣ missed t.gaps) ∧
      ((∀ gap ∈ t.gaps, gap < 256) → t.s.ticks.toNat = (t.looked - t.since) % 65536) := by
  obtain ⟨_, ticks, sum, _⟩ := run.counts
  have parts := sum_mod t.gaps
  have least := missed_le t.gaps
  have formula : t.s.ticks.toNat = (t.looked - t.since - missed t.gaps) % 65536 := by
    rw [ticks]
    omega
  refine ⟨formula, by omega, ?_, fun short => ?_⟩
  · rw [formula, Nat.dvd_iff_mod_eq_zero]
    omega
  · rw [formula, missed_none short, Nat.sub_zero]

/-- INIT at frame 7 and a POLL at frame 300. -/
def latePolled : Timed :=
  (started ApiRuns.fresh 7).called .poll ⟨0, 0, 0, 0⟩ 300
    (mnApiPoll ApiRuns.fresh { ApiRuns.quietLink with frameCount := 44 }).2

theorem latePolled_run : Run latePolled :=
  .next (.start ⟨ApiRuns.bare, ApiRuns.quietLink, 7, rfl, rfl⟩)
    (.calls .poll ⟨0, 0, 0, 0⟩ { ApiRuns.quietLink with frameCount := 44 } (by decide) rfl rfl)

/-- Of the 293 frames the clock has counted 37. -/
theorem clock_counts_frames_late :
    latePolled.s.ticks.toNat = 37 ∧ missed latePolled.gaps = 256 ∧
      (latePolled.s.ticks.toNat = 293 % 65536 ↔ 65536 ∣ missed latePolled.gaps) := by
  have late : latePolled.looked - latePolled.since = 293 ∧ missed latePolled.gaps = 256 := by decide
  have counted := clock_counts_frames latePolled_run
  rw [late.1, late.2] at counted
  exact ⟨counted.1, late.2, late.2 ▸ counted.2.2.1⟩

end MegaNet.FrameClock
