import MegaNet.DhcpLease

/-! The renewal timetable: while bound on a lease with T1, what is sent is a
renewal REQUEST, at T1 or later, to the server until T2 and to everyone from
then on, as long as no ACK is accepted while an earlier one waits to be sent. -/
namespace MegaNet.DhcpRenewal
open MegaNet.Core Transition TcpEmission TcpConnection UdpOutcomes DhcpOutcomes
  DhcpAddress DhcpLease Words

variable {d d' : Dhcp.MnDhcp} {net net' after : MnNetFull} {x : XMem} {now : UInt16} {type : UInt8}
  {msg : Option (UInt8 × List UInt8)} {out : Dhcp.MnDhcp × MnNetFull}

/-! ## A renewal REQUEST -/

/-- The data of a renewal: a REQUEST with `ciaddr` filled in, its options, none
of which names an address or a server, and what pads it. -/
structure RenewalData (ip : Ip4) (m : List UInt8) : Prop where
  ciaddr : ipAt m 12 = ip
  options : m.drop 240 =
    [Dhcp.OPT_MSG_TYPE, 1, Dhcp.MSG_REQUEST, Dhcp.OPT_PARAM_REQ, 4, Dhcp.OPT_MASK,
      Dhcp.OPT_ROUTER, Dhcp.OPT_DNS,
      Dhcp.OPT_LEASE, Dhcp.OPT_END] ++ Dhcp.zeros 50

private theorem build_renewal (bound : d.state = .bound) (net : MnNetFull) :
    RenewalData net.ip (Dhcp.build d net Dhcp.MSG_REQUEST) := by
  have options : Dhcp.options d Dhcp.MSG_REQUEST =
      [Dhcp.OPT_MSG_TYPE, 1, Dhcp.MSG_REQUEST, Dhcp.OPT_PARAM_REQ, 4, Dhcp.OPT_MASK,
        Dhcp.OPT_ROUTER, Dhcp.OPT_DNS,
        Dhcp.OPT_LEASE, Dhcp.OPT_END] := by
    unfold Dhcp.options
    rw [if_neg (fun both => both.2 bound)]
    rfl
  have header := header_length d net
  unfold Dhcp.build
  dsimp only
  rw [options]
  constructor
  · have ciaddr : (if d.state == .bound then net.ip else zeroIp) = net.ip := if_pos (by rw [bound]; rfl)
    unfold Dhcp.header
    dsimp only
    rw [ciaddr]
    rfl
  · rw [List.append_assoc, List.drop_append_of_le_length (by omega), List.drop_of_length_le (by omega),
      List.length_append, header]
    rfl

/-! ## What holds while bound -/

/-- T1, T2 and the lease's end are in order. -/
structure Ordered (d : Dhcp.MnDhcp) : Prop where
  some_ : 1 ≤ d.t1M.toNat
  first : d.t1M.toNat ≤ d.t2M.toNat
  second : d.t2M.toNat ≤ d.leaseM.toNat
  before : d.t1M.toNat < d.leaseM.toNat
  short : d.leaseM.toNat < 64800

private theorem granted_ordered (long : ¬ d.leaseS < 120) (finite : d.leaseS < Dhcp.LEASE_FOREVER_S)
    (now : UInt16) :
    Ordered (Dhcp.granted d now) := by
  obtain ⟨lease, half, eighth, _⟩ := granted_long long finite now
  rw [UInt32.lt_iff_toNat_lt, show UInt32.toNat 120 = 120 from rfl] at long
  rw [UInt32.lt_iff_toNat_lt, show Dhcp.LEASE_FOREVER_S.toNat = 3888000 from rfl] at finite
  constructor <;> omega

/-- What is planned of a lease: when the next REQUEST is due, and that none waits
to be sent but one that was. -/
structure Plan (d : Dhcp.MnDhcp) : Prop where
  ordered : Ordered d
  wound : Wound d
  next : d.t1M.toNat ≤ d.nextM.toNat
  rebind : d.phase = .renewing → d.nextM.toNat ≤ d.t2M.toNat
  waiting : d.pending = true → d.phase = .renewing ∧ d.t1M.toNat ≤ d.ageM.toNat

/-- The plan of a lease that is not over. -/
structure Timetable (d : Dhcp.MnDhcp) : Prop extends Plan d where
  young : d.ageM.toNat < d.leaseM.toNat

/-- While an address is acquired nothing waits to be sent, and while bound on a
lease with T1 its timetable is kept. -/
structure OnTime (d : Dhcp.MnDhcp) : Prop where
  acquiring : d.state = .selecting ∨ d.state = .requesting → d.pending = false
  bound : d.state = .bound → d.t1M ≠ 0 → Timetable d

private theorem bound_onTime (bound : d.state = .bound)
    (table : d.t1M ≠ 0 → Timetable d) : OnTime d := by
  refine ⟨?_, fun _ => table⟩
  rw [bound]
  rintro (off | off) <;> cases off

private theorem acquiring_onTime (off : d.state ≠ .bound) (idle : d.pending = false) : OnTime d :=
  ⟨fun _ => idle, fun bound => absurd bound off⟩

/-- What a grant sets is in time, when nothing is left over. -/
theorem granted_onTime (bound : d.state = .bound) (idle : d.pending = false) (now : UInt16) :
    OnTime (Dhcp.granted d now) := by
  have state := (granted_state d now).trans bound
  obtain ⟨zero, wound, _, _⟩ := granted_clock d now
  have phase : (Dhcp.granted d now).phase = .bound ∧ (Dhcp.granted d now).pending = d.pending := by
    unfold Dhcp.granted
    dsimp only
    split <;> exact ⟨rfl, rfl⟩
  refine bound_onTime state fun finite => ?_
  have long : ¬ d.leaseS < 120 := fun short => finite (granted_short short now)
  have ends : d.leaseS < Dhcp.LEASE_FOREVER_S := by
    rw [← UInt32.not_le]
    exact fun forever => finite (granted_forever forever now)
  have ordered := granted_ordered long ends now
  obtain ⟨_, _, _, next⟩ := granted_long long ends now
  refine ⟨⟨ordered, wound, by rw [next], fun renewing => ?_, fun pending => ?_⟩, ?_⟩
  · rw [phase.1] at renewing
    cases renewing
  · rw [phase.2, idle] at pending
    cases pending
  · have := ordered.before
    unfold stamp at zero
    omega

/-- The clock leaves the plan as it is. -/
theorem Timetable.tick (table : Timetable d) (now : UInt16) : Plan (Dhcp.clockTick d now) := by
  obtain ⟨⟨ordered, wound, next, rebind, waiting⟩, young⟩ := table
  have short := ordered.short
  have room : stamp d + (now - d.tickLast).toNat < clockEnd := by
    have := wound.1
    have := wound.2
    have := (now - d.tickLast).toNat_lt
    unfold stamp clockEnd
    omega
  obtain ⟨moved, wound', _⟩ := clockTick_spec wound room
  have older : d.ageM.toNat ≤ (Dhcp.clockTick d now).ageM.toNat := by
    have := wound'.1
    have := wound'.2
    unfold stamp at moved
    omega
  obtain ⟨_, _, _, _, aged⟩ := clockTick_aged d now
  rw [aged] at wound' older ⊢
  exact ⟨⟨ordered.some_, ordered.first, ordered.second, ordered.before, ordered.short⟩,
    wound', next, rebind,
    fun pending => ⟨(waiting pending).1, Nat.le_trans (waiting pending).2 older⟩⟩

theorem Plan.reread (plan : Plan d) (reread : Reread d d') : Plan d' := by
  obtain ⟨_, _, _, _, _, rfl⟩ := reread
  obtain ⟨ordered, wound, next, rebind, waiting⟩ := plan
  exact ⟨⟨ordered.some_, ordered.first, ordered.second, ordered.before, ordered.short⟩, wound,
    next, rebind, waiting⟩

/-! ## What a poll sends while bound -/

/-- A message that keeps to the timetable of the client that sent it. -/
structure Timely (d : Dhcp.MnDhcp) (ip : Ip4) (g : Datagram) : Prop where
  due : d.t1M ≤ d.ageM
  dst : g.dst = if d.ageM < d.t2M then d.serverId else limitedBcast
  ports : g.sport = 68 ∧ g.dport = 67
  data : RenewalData ip g.payload

/-- All that was sent between two states of the layer did. -/
def AllTimely (d : Dhcp.MnDhcp) (net after : MnNetFull) : Prop :=
  ∃ sent, after.posted = net.posted ++ sent ∧ ∀ g ∈ sent, Timely d net.ip g

private theorem nothing_timely (d : Dhcp.MnDhcp) (same : after.posted = net.posted) :
    AllTimely d net after :=
  ⟨[], by rw [same, List.append_nil], fun _ none_ => absurd none_ List.not_mem_nil⟩

private theorem one_timely
    (posts : Posts net after [⟨Dhcp.destination d, 68, 67, Dhcp.build d net Dhcp.MSG_REQUEST⟩])
    (bound : d.state = .bound) (due : d'.t1M ≤ d'.ageM)
    (dst : Dhcp.destination d = if d'.ageM < d'.t2M then d'.serverId else limitedBcast) :
      AllTimely d' net after := by
  refine ⟨_, posts.posted, fun g member => ?_⟩
  obtain rfl := List.mem_singleton.mp member
  exact ⟨due, dst, ⟨rfl, rfl⟩, build_renewal bound net⟩

/-- The REQUEST that fell due goes to the server before T2 and to everyone
after. -/
theorem renews_timely (plan : Plan d) (bound : d.state = .bound) (due : d.ageM ≥ d.nextM)
    (renews : Renews d net now out) : AllTimely out.1 net out.2 := by
  obtain ⟨sock, net', sent, reopened, sends, rfl⟩ := renews
  obtain ⟨layer, posted⟩ := reopened.rest
  cases sends with
  | sends r after posts =>
    have due' : d.t1M ≤ d.ageM := UInt16.le_trans (UInt16.le_iff_toNat_le.mpr plan.next) due
    have timely : AllTimely d net' after := by
      refine one_timely posts bound due' ?_
      unfold Dhcp.destination
      dsimp only
      by_cases late : d.ageM ≥ d.t2M
      · rw [if_neg (by rw [if_pos late]; rintro ⟨_, off⟩; cases off), if_neg (UInt16.not_lt.mpr late)]
      · rw [if_pos ⟨bound, if_neg late⟩, if_pos (UInt16.not_le.mp late)]
    obtain ⟨sent, there, all⟩ := timely
    refine ⟨sent, there.trans (by rw [posted]), fun g member => ?_⟩
    obtain ⟨_, dst, ports, data⟩ := all g member
    exact ⟨due', dst, ports, (congrArg MnNet.ip layer) ▸ data⟩

private theorem keeps_timely (plan : Plan d) (bound : d.state = .bound) (keeps : Keeps msg d net now out)
    (still : out.1.state = .bound) : AllTimely out.1 net out.2 := by
  cases keeps with
  | ack => exact nothing_timely _ (close_posted net d.sock)
  | nak _ _ loses | expires _ _ loses =>
    rw [(Loses.unconfigured loses).1] at still
    cases still
  | renews _ _ due renews => exact renews_timely plan bound due renews
  | resends _ _ early pending sends =>
    obtain ⟨renewing, begun⟩ := plan.waiting pending
    have rebind := plan.rebind renewing
    rw [ge_iff_le, UInt16.le_iff_toNat_le, Nat.not_le] at early
    cases sends with
    | sends r after posts =>
      refine one_timely posts bound (UInt16.le_iff_toNat_le.mpr begun) ?_
      rw [Dhcp.destination, if_pos ⟨bound, renewing⟩]
      exact (if_pos (UInt16.lt_iff_toNat_lt.mpr (Nat.lt_of_lt_of_le early rebind))).symm
  | waits => exact nothing_timely _ rfl

/-! ## The timetable is kept -/

/-- A message for everyone is sent at once, so it leaves nothing waiting. -/
theorem Sends.onTime (sends : Sends d net type now out) (off : d.state ≠ .bound) : OnTime out.1 :=
  acquiring_onTime (by rw [Sends.sameState sends]; exact off) (sends.prompt fun both => off both.1)

/-- After a REQUEST the next one is due in a minute, or at T2 if that is earlier. -/
theorem scheduled_spec (ordered : Ordered d) (older : d.t1M.toNat ≤ d.ageM.toNat)
    (young : d.ageM.toNat < d.leaseM.toNat) :
    d.t1M.toNat ≤ (scheduled d).toNat ∧ (d.phase = .renewing → (scheduled d).toNat ≤ d.t2M.toNat) := by
  have short := ordered.short
  have minute : (d.ageM + Dhcp.RENEW_RETRY_M).toNat = d.ageM.toNat + 1 :=
    toNat_more (by rw [show Dhcp.RENEW_RETRY_M.toNat = 1 from rfl]; omega)
  unfold scheduled
  split
  · exact ⟨ordered.first, fun _ => Nat.le_refl _⟩
  · rename_i early
    refine ⟨by rw [minute]; omega, fun renewing => ?_⟩
    exact UInt16.le_iff_toNat_le.mp (UInt16.not_lt.mp fun late => early ⟨renewing, late⟩)

private theorem renews_timetable (plan : Plan d) (young : ¬ d.ageM ≥ d.leaseM) (due : d.ageM ≥ d.nextM)
    (renews : Renews d net now out) : Timetable out.1 := by
  obtain ⟨sock, net', sent, _, sends, rfl⟩ := renews
  obtain ⟨ordered, wound, next, _, _⟩ := plan
  rw [ge_iff_le, UInt16.le_iff_toNat_le, Nat.not_le] at young
  rw [ge_iff_le, UInt16.le_iff_toNat_le] at due
  have older := Nat.le_trans next due
  have prompt := sends.prompt
  cases sends with
  | sends r after =>
    generalize (if d.ageM ≥ d.t2M then Dhcp.Phase.rebinding else Dhcp.Phase.renewing) = phase at prompt ⊢
    have ordered' : Ordered (tried { d with sock, phase, tries := 0 } r now) :=
      ⟨ordered.some_, ordered.first, ordered.second, ordered.before, ordered.short⟩
    obtain ⟨first, rebind⟩ := scheduled_spec ordered' older young
    refine ⟨⟨⟨ordered.some_, ordered.first, ordered.second, ordered.before, ordered.short⟩,
      wound, first, rebind,
      fun pending => ⟨?_, older⟩⟩, young⟩
    by_contra everyone
    have idle := prompt fun both => everyone both.2
    rw [show (tried { d with sock, phase, tries := 0 } r now).pending = true from pending] at idle
    cases idle

private theorem keeps_onTime (plan : Plan d) (bound : d.state = .bound) (keeps : Keeps msg d net now out)
    (settled : ∀ m, msg = some (Dhcp.MSG_ACK, m) → d.pending = false) : OnTime out.1 := by
  cases keeps with
  | ack m got => exact granted_onTime (d := { d with sock := 0xff }) bound (settled m got) now
  | nak _ _ loses | expires _ _ loses =>
    obtain ⟨_, _, _, sends⟩ := loses
    exact Sends.onTime sends fun off => by cases off
  | renews _ young due renews =>
    exact bound_onTime
      ((Renews.sameAddress renews).1.trans bound) fun _ => renews_timetable plan young due renews
  | resends _ young _ pending sends =>
    rw [ge_iff_le, UInt16.le_iff_toNat_le, Nat.not_le] at young
    have waiting := plan.waiting pending
    obtain ⟨ordered, wound, next, rebind, _⟩ := plan
    cases sends with
    | sends r after =>
      exact bound_onTime bound fun _ => ⟨⟨⟨ordered.some_, ordered.first, ordered.second, ordered.before,
        ordered.short⟩, wound, next, rebind, fun _ => waiting⟩, young⟩
  | waits _ young =>
    rw [ge_iff_le, UInt16.le_iff_toNat_le, Nat.not_le] at young
    exact bound_onTime bound fun _ => ⟨plan, young⟩

private theorem acquires_onTime (on : d.state = .selecting ∨ d.state = .requesting)
    (idle : d.pending = false)
    (acquires : Acquires msg d net now out) : OnTime out.1 := by
  have off : d.state ≠ .bound := by
    intro bound
    rw [bound] at on
    exact on.elim (fun off => by cases off) fun off => by cases off
  cases acquires with
  | offer _ _ _ sends | nak _ _ _ sends => exact Sends.onTime sends fun off => by cases off
  | ack => exact granted_onTime (d := { d with sock := 0xff, state := .bound }) rfl idle now
  | fails => exact acquiring_onTime (fun off => by cases off) idle
  | asks _ sends => exact Sends.onTime sends off
  | waits => exact acquiring_onTime off idle

/-! ## Runs -/

/-- An ACK accepted by the step finds nothing waiting to be sent. -/
def Settled (d : Dhcp.MnDhcp) (net : MnNetFull) (act : Act) : Prop :=
  ∀ x now, act = .polls x now → AcceptsAck d net x now → d.pending = false

/-- The client before its first start, on any layer. -/
def Fresh (s : Dhcp.MnDhcp × MnNetFull) : Prop := s.1.state = .idle

def Step (s s' : Dhcp.MnDhcp × MnNetFull) : Prop :=
  ∃ act, Settled s.1 s.2 act ∧ s' = DhcpOutcomes.exec s.1 s.2 act

def Run : Dhcp.MnDhcp × MnNetFull → Prop := Reachable Fresh Step

private theorem poll_onTime (onTime : OnTime d) (net : MnNetFull) (x : XMem) (now : UInt16)
    (settled : AcceptsAck d net x now → d.pending = false) : OnTime (Dhcp.mnDhcpPoll d net x now).1 := by
  have polls := poll_polls d net x now
  generalize Dhcp.mnDhcpPoll d net x now = out at polls
  cases polls with
  | rests => exact onTime
  | acquires on hears acquires =>
    have idle := onTime.acquiring on
    have reread := hears.reread
    refine acquires_onTime (by rw [reread.state]; exact on) ?_ acquires
    obtain ⟨_, _, _, _, _, rfl⟩ := reread
    exact idle
  | forever on never =>
    exact bound_onTime ((clockTick_aged d now).state.trans on) fun finite => absurd never finite
  | keeps on finite hears keeps =>
    have aged := clockTick_aged d now
    have reread := hears.reread
    have plan : Plan (Dhcp.clockTick d now) := by
      refine Timetable.tick (onTime.bound on ?_) now
      obtain ⟨_, _, _, _, same⟩ := aged
      rw [same] at finite
      exact finite
    refine keeps_onTime (plan.reread reread)
      ((reread.state.trans aged.state).trans on) keeps fun m got => ?_
    subst got
    have idle := settled (Or.inr ⟨on, finite, m, _, _, hears⟩)
    obtain ⟨_, _, _, _, same⟩ := aged
    obtain ⟨_, _, _, _, _, rfl⟩ := reread
    rw [same]
    exact idle

theorem Run.onTime {s : Dhcp.MnDhcp × MnNetFull} (run : Run s) : OnTime s.1 := by
  refine Reachable.invariant (motive := fun s => OnTime s.1) (fun s begun => ?_) ?_ run
  · have off : s.1.state = .idle := begun
    constructor <;> rw [off]
    · rintro (off | off) <;> cases off
    · intro off
      cases off
  · rintro s _ _ onTime ⟨act, settled, rfl⟩
    cases act with
    | starts now =>
      obtain ⟨_, _, _, sends⟩ := start_sends s.1 s.2 now
      exact Sends.onTime sends fun off => by cases off
    | polls x now => exact poll_onTime onTime s.2 x now (settled x now rfl)
    | meanwhile => exact onTime

private theorem poll_timely (onTime : OnTime d) (bound : d.state = .bound) (finite : d.t1M ≠ 0)
    (net : MnNetFull) (x : XMem)
    (now : UInt16) (still : (Dhcp.mnDhcpPoll d net x now).1.state = .bound) :
    AllTimely (Dhcp.mnDhcpPoll d net x now).1 net (Dhcp.mnDhcpPoll d net x now).2 := by
  have polls := poll_polls d net x now
  have aged := clockTick_aged d now
  generalize Dhcp.mnDhcpPoll d net x now = out at polls still ⊢
  obtain ⟨never, _⟩ | ⟨_, _, d', net', hears, keeps⟩ := polls.bound bound
  · obtain ⟨_, _, _, _, same⟩ := aged
    rw [same] at never
    exact absurd never finite
  have plan := ((onTime.bound bound finite).tick now).reread hears.reread
  obtain ⟨layer, posted, _⟩ := hears.rest
  obtain ⟨sent, there, all⟩ :=
    keeps_timely plan ((hears.reread.state.trans aged.state).trans bound) keeps still
  refine ⟨sent, there.trans (by rw [posted]), fun g member => ?_⟩
  rw [show net.ip = net'.ip from (congrArg MnNet.ip layer).symm]
  exact all g member

/-- In every run whose ACKs find nothing waiting: what a poll sends while bound
on a lease with T1 is a renewal REQUEST that keeps to the timetable; and T1, T2
and the end of a lease of two minutes to 45 days are in order. -/
theorem renewal_timetable {s : Dhcp.MnDhcp × MnNetFull} (run : Run s) :
    (∀ x now, s.1.state = .bound → s.1.t1M ≠ 0 → (Dhcp.mnDhcpPoll s.1 s.2 x now).1.state = .bound →
      AllTimely (Dhcp.mnDhcpPoll s.1 s.2 x now).1 s.2 (Dhcp.mnDhcpPoll s.1 s.2 x now).2) ∧
    ∀ (d : Dhcp.MnDhcp) now, 120 ≤ d.leaseS → d.leaseS < Dhcp.LEASE_FOREVER_S →
      Ordered (Dhcp.granted d now) :=
  ⟨fun x now bound finite still => poll_timely (Run.onTime run) bound finite s.2 x now still,
    fun _ now long finite => granted_ordered (UInt32.not_lt.mpr long) finite now⟩

/-- The client just granted 10.0.0.1 for two minutes, at tick 2. -/
def leased : Dhcp.MnDhcp × MnNetFull :=
  Dhcp.mnDhcpPoll offeredTo.1 (withMail offeredTo.2 (ackFor 120)) (mailIn (ackFor 120)) 2

private theorem run_starts (run : Run (d, net)) (now : UInt16) : Run (Dhcp.mnDhcpStart d net now) := by
  refine .next run ⟨.starts now, fun _ _ other => ?_, rfl⟩
  cases other

theorem run_meanwhile {s : Dhcp.MnDhcp × MnNetFull} (run : Run s) (after : MnNetFull) :
    Run (s.1, after) := by
  refine .next run ⟨.meanwhile after, fun _ _ other => ?_, rfl⟩
  cases other

private theorem run_polls (run : Run (d, net)) (x : XMem) (now : UInt16) (idle : d.pending = false) :
    Run (Dhcp.mnDhcpPoll d net x now) :=
  .next run ⟨.polls x now, fun _ _ _ _ => idle, rfl⟩

theorem leased_run : Run leased := by
  have idle : startedAt0.1.pending = false ∧ offeredTo.1.pending = false := by decide +kernel
  have fresh : Run (freshDhcp, layerOver goodNet) := .start rfl
  have started : Run startedAt0 := run_starts fresh 0
  have asked : Run offeredTo := run_polls (run_meanwhile started _) (mailIn offerFor) 1 idle.1
  exact run_polls (run_meanwhile asked _) (mailIn (ackFor 120)) 2 idle.2

theorem renewal_timetable_leased :
    AllTimely (Dhcp.mnDhcpPoll leased.1 leased.2 (fun _ => 0) 3002).1 leased.2
      (Dhcp.mnDhcpPoll leased.1 leased.2 (fun _ => 0) 3002).2 :=
  have still : leased.1.state = .bound ∧ leased.1.t1M ≠ 0 ∧
      (Dhcp.mnDhcpPoll leased.1 leased.2 (fun _ => 0) 3002).1.state = .bound := by decide +kernel
  (renewal_timetable leased_run).1 (fun _ => 0) 3002 still.1 still.2.1 still.2.2

/-- Its first renewal is put off, the server's MAC having been forgotten, and
then an ACK comes after all. -/
def lateAck : Dhcp.MnDhcp × MnNetFull :=
  let renewing := Dhcp.mnDhcpPoll leased.1 { leased.2 with arp := ⟨[], 0⟩ } (fun _ => 0) 3002
  Dhcp.mnDhcpPoll renewing.1 (withMail renewing.2 (ackFor 120)) (mailIn (ackFor 120)) 3003

/-- The new lease is one tick old when the REQUEST left over goes out, to
everyone. -/
theorem leftover_request_sent :
    lateAck.1.state = .bound ∧ lateAck.1.t1M = 1 ∧
      (let later := Dhcp.mnDhcpPoll lateAck.1 lateAck.2 (fun _ => 0) 3004
      later.1.state = .bound ∧ later.1.ageM = 0 ∧
        later.2.posted.map (·.dst) = lateAck.2.posted.map (·.dst) ++ [limitedBcast] ∧
        ¬ AllTimely later.1 lateAck.2 later.2) := by
  have facts : lateAck.1.state = .bound ∧ lateAck.1.t1M = 1 ∧
      (let later := Dhcp.mnDhcpPoll lateAck.1 lateAck.2 (fun _ => 0) 3004
      later.1.state = .bound ∧ later.1.ageM = 0 ∧
        later.2.posted.map (·.dst) = lateAck.2.posted.map (·.dst) ++ [limitedBcast] ∧
        later.2.posted.length = lateAck.2.posted.length + 1 ∧
          ¬ later.1.t1M ≤ later.1.ageM) := by decide +kernel
  dsimp only at facts ⊢
  generalize Dhcp.mnDhcpPoll lateAck.1 lateAck.2 (fun _ => 0) 3004 = later at facts ⊢
  obtain ⟨held, short, still, young, sent_to, one, early⟩ := facts
  refine ⟨held, short, still, young, sent_to, ?_⟩
  rintro ⟨sent, posted, all⟩
  rw [posted, List.length_append, Nat.add_left_cancel_iff] at one
  obtain ⟨g, rfl⟩ := List.length_eq_one_iff.mp one
  exact early (all g List.mem_cons_self).due

end MegaNet.DhcpRenewal
