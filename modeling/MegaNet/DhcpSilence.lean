import MegaNet.DhcpAddress
import MegaNet.RetryTimer
import MegaNet.Words

/-! An acquisition that nobody answers: a few DISCOVERs, well apart, whatever the
link does with them, and then it is given up, its socket with it. -/
namespace MegaNet.DhcpSilence
open MegaNet.Core TcpEmission TcpConnection UdpOutcomes DhcpOutcomes DhcpAddress RetryTimer Words

variable {d : Dhcp.MnDhcp} {net after : MnNetFull} {x : XMem} {now : UInt16}
  {begun out : Dhcp.MnDhcp × MnNetFull}

/-! ## Broadcasts -/

/-- Nothing sent to a broadcast address is ever put off. -/
theorem broadcast_prompt {dst : Ip4} (everyone : isBroadcast net.toMnNet dst = true)
    (sport dport : UInt16)
    (payload : List UInt8) : (mnNetSendUdp net dst sport dport payload).1 ≠ .pending := by
  obtain ⟨_, result⟩ := sendUdp_spec net dst sport dport payload
  have hop : mnNetNextHop net.toMnNet dst = dst := if_pos everyone
  have known : net.toMnNet.Resolves dst := Or.inl (by rw [hop]; exact everyone)
  by_cases short : payload.length ≤ MN_UDP_MAX_PAYLOAD
  · exact fun put_off => (result short).mp put_off known
  · unfold mnNetSendUdp
    dsimp only
    rw [if_pos (Nat.lt_of_not_le short)]
    intro pending
    cases pending

/-! ## Attempts -/

/-- A datagram the client handed to the layer, and when. -/
structure Attempt where
  time : Nat
  sent : Datagram

/-- What was handed over between two states of the layer, at one time. -/
def attempts (time : Nat) (before after : MnNetFull) : List Attempt :=
  (after.posted.drop before.posted.length).map (Attempt.mk time)

/-- The time of the latest attempt. -/
def lastSent : List Attempt → Nat
  | [] => 0
  | a :: _ => a.time

def IsDiscover (g : Datagram) : Prop :=
  ∃ d net, g = ⟨limitedBcast, 68, 67, Dhcp.build d net Dhcp.MSG_DISCOVER⟩

/-- A poll at this time, less than 65536 ticks after the latest attempt, finds
`RETRY_TICKS` elapsed since. -/
def Finds (log : List Attempt) (now : Nat) : Prop :=
  lastSent log + Dhcp.RETRY_TICKS.toNat ≤ now ∧ now < lastSent log + 65536

instance (log : List Attempt) (now : Nat) : Decidable (Finds log now) :=
  inferInstanceAs (Decidable (_ ∧ _))

/-- An acquisition begins: by `mn_dhcp_start`, or by the restart in `lost`. -/
inductive Begins : Dhcp.MnDhcp × MnNetFull → List Attempt → Prop where
  | starts (d : Dhcp.MnDhcp) (net : MnNetFull) (time : Nat) :
      Begins (Dhcp.mnDhcpStart d net (UInt16.ofNat time))
        (attempts time net (Dhcp.mnDhcpStart d net (UInt16.ofNat time)).2)
  | restarts (d : Dhcp.MnDhcp) (net : MnNetFull) (time : Nat) :
      Begins (Dhcp.lost d net (UInt16.ofNat time))
        (attempts time net (Dhcp.lost d net (UInt16.ofNat time)).2)

/-- The client since: polled now and then, no datagram there for it, and the
layer, its link and its cache in whatever state they are by then. `log` is what
it attempted, the latest first, and `found` how many polls found the time to try
again. -/
inductive Silent (begun : Dhcp.MnDhcp × MnNetFull) (log₀ : List Attempt) :
    Dhcp.MnDhcp → MnNetFull → List Attempt → Nat → Prop where
  | begun : Silent begun log₀ begun.1 begun.2 log₀ 0
  | meanwhile {d : Dhcp.MnDhcp} {net : MnNetFull} {log : List Attempt} {found : Nat}
      (run : Silent begun log₀ d net log found) (after : MnNetFull) : Silent begun log₀ d after log found
  | polled {d : Dhcp.MnDhcp} {net : MnNetFull} {log : List Attempt} {found : Nat}
      (run : Silent begun log₀ d net log found) (x : XMem) (time : Nat) (later : lastSent log ≤ time)
      (silent : (mnNetUdpRecv net x d.sock MN_UDP_SOCK_BUF).1 = none) :
      Silent begun log₀ (Dhcp.mnDhcpPoll d net x (UInt16.ofNat time)).1
        (Dhcp.mnDhcpPoll d net x (UInt16.ofNat time)).2
        (attempts time net (Dhcp.mnDhcpPoll d net x (UInt16.ofNat time)).2 ++ log)
        (if Finds log time then found + 1 else found)

/-! ## One attempt -/

/-- A DISCOVER attempted: never put off, and counted whatever the link does. -/
theorem discover_sends (on : d.state = .selecting) (sends : Sends d net Dhcp.MSG_DISCOVER now out) :
    out.1 = { d with pending := false, sentAt := now, tries := d.tries + 1 } ∧
      out.2.posted = net.posted ++ [⟨limitedBcast, 68, 67, Dhcp.build d net Dhcp.MSG_DISCOVER⟩] := by
  have everyone : Dhcp.destination d = limitedBcast :=
    if_neg (by rw [on]; exact fun both => by cases both.1)
  cases sends with
  | sends r after posts result =>
    rw [everyone] at posts result
    have out : r ≠ .pending := fun put_off => result.mp put_off (broadcast_resolves net.toMnNet)
    refine ⟨?_, posts.posted⟩
    have prompt : (r == SendResult.pending) = false := by simpa using out
    unfold tried
    rw [if_neg out, prompt]

/-- Where a look at the client's timer attempts something, it is one DISCOVER. -/
theorem attempts_one {g : Datagram} (time : Nat) (posted : after.posted = net.posted ++ [g]) :
    attempts time net after = [⟨time, g⟩] := by
  unfold attempts
  rw [posted, List.drop_left]
  rfl

private theorem attempts_none (time : Nat) (posted : after.posted = net.posted) :
    attempts time net after = [] := by
  unfold attempts
  rw [posted, List.drop_length]
  rfl

/-! ## What a run keeps -/

/-- What was attempted so far. -/
structure Attempted (log : List Attempt) (found : Nat) : Prop where
  paced : Paced Dhcp.RETRY_TICKS.toNat Dhcp.MAX_TRIES.toNat (log.map Attempt.time) found
  discovers : ∀ a ∈ log, IsDiscover a.sent

/-- An address is being sought still. -/
structure Seeks (sock : UInt8) (d : Dhcp.MnDhcp) (log : List Attempt) (found : Nat) : Prop where
  on : d.state = .selecting
  sock : d.sock = sock
  idle : d.pending = false
  tries : d.tries.toNat = log.length
  sentAt : d.sentAt = UInt16.ofNat (lastSent log)
  attempted : Attempted log found

/-- It was given up. -/
structure GivenUp (d : Dhcp.MnDhcp) (log : List Attempt) : Prop where
  failed : d.state = .failed
  released : d.sock = 0xff
  attempted : ∃ found, Attempted log found

/-- The first attempt. -/
theorem begins_seeks {d' : Dhcp.MnDhcp} {net' : MnNetFull} (time : Nat) (on : d'.state = .selecting)
    (fresh : d'.tries = 0) (posted : net'.posted = net.posted)
    (sends : Sends d' net' Dhcp.MSG_DISCOVER (UInt16.ofNat time) out) :
    Seeks out.1.sock out.1 (attempts time net out.2) 0 := by
  obtain ⟨client, there⟩ := discover_sends on sends
  rw [posted] at there
  rw [attempts_one time there, client]
  refine ⟨on, rfl, rfl, ?_, rfl, paced_start (Nat.succ_pos _) time, fun a member => ?_⟩
  · dsimp only
    rw [fresh]
    rfl
  · rw [List.mem_singleton.mp member]
    exact ⟨_, _, rfl⟩

private theorem begins_spec {log : List Attempt} (begins : Begins begun log) :
    Seeks begun.1.sock begun.1 log 0 := by
  cases begins with
  | starts d net time =>
    obtain ⟨sock, net', opening, sends⟩ := start_sends d net (UInt16.ofNat time)
    have kept : (givenBack d.sock (mnNetSetIp net zeroIp zeroIp zeroIp)).posted = net.posted := by
      unfold givenBack
      split
      · exact close_posted _ _
      · rfl
    have posted : net'.posted = net.posted := by
      generalize both : (sock, net') = pair at opening
      cases opening with
      | opens | refused =>
        obtain ⟨rfl, rfl⟩ := Prod.mk.inj both
        exact kept
    exact begins_seeks time rfl rfl posted sends
  | restarts d net time =>
    obtain ⟨sock, net', reopened, sends⟩ := lost_loses d net (UInt16.ofNat time)
    exact begins_seeks time rfl rfl reopened.rest.2 sends

/-- Without a message a poll only looks at the timer. -/
theorem silent_retries (on : d.state = .selecting)
    (silent : (mnNetUdpRecv net x d.sock MN_UDP_SOCK_BUF).1 = none) :
    Dhcp.mnDhcpPoll d net x now = Dhcp.retry d net now := by
  have heard : Dhcp.hear d net x = (none, d, net) := by
    have hears := hear_hears d net x
    generalize Dhcp.hear d net x = out at hears
    obtain ⟨msg, d', net'⟩ := out
    cases hears with
    | nothing => rfl
    | message _ _ _ got =>
      rw [silent] at got
      cases got
  unfold Dhcp.mnDhcpPoll
  rw [on, heard]

/-- The timer, while an address is sought. -/
inductive Looks (d : Dhcp.MnDhcp) (net : MnNetFull) (now : UInt16) : Dhcp.MnDhcp × MnNetFull → Prop where
  | waits (early : (now - d.sentAt).toNat < Dhcp.RETRY_TICKS.toNat) : Looks d net now (d, net)
  | tries (due : Dhcp.RETRY_TICKS.toNat ≤ (now - d.sentAt).toNat)
      (more : d.tries.toNat < Dhcp.MAX_TRIES.toNat)
      {out : Dhcp.MnDhcp × MnNetFull} (sends : Sends d net Dhcp.MSG_DISCOVER now out) :
        Looks d net now out
  | gives_up (due : Dhcp.RETRY_TICKS.toNat ≤ (now - d.sentAt).toNat)
      (last : Dhcp.MAX_TRIES.toNat ≤ d.tries.toNat) :
      Looks d net now ({ d with state := .failed, sock := 0xff }, mnNetUdpClose net d.sock)

private theorem retry_looks (on : d.state = .selecting) (idle : d.pending = false)
    (net : MnNetFull) (now : UInt16) :
    Looks d net now (Dhcp.retry d net now) := by
  have asking : Dhcp.asking d = Dhcp.MSG_DISCOVER := if_pos on
  have prompt : ¬ d.pending = true := by simp [idle]
  unfold Dhcp.retry
  rw [if_neg prompt, asking]
  split_ifs with due last
  · exact .gives_up (UInt16.le_iff_toNat_le.mp due) (UInt8.le_iff_toNat_le.mp last)
  · rw [ge_iff_le, UInt8.le_iff_toNat_le, Nat.not_le] at last
    exact .tries (UInt16.le_iff_toNat_le.mp due) last (transmit_sends ..)
  · rw [ge_iff_le, UInt16.le_iff_toNat_le, Nat.not_le] at due
    exact .waits due

theorem Seeks.polled {sock : UInt8} {log : List Attempt} {found time : Nat}
    (seeks : Seeks sock d log found)
    (later : lastSent log ≤ time) (looks : Looks d net (UInt16.ofNat time) out) :
    Seeks sock out.1 (attempts time net out.2 ++ log) (if Finds log time then found + 1 else found) ∨
      GivenUp out.1 (attempts time net out.2 ++ log) := by
  obtain ⟨on, here, idle, tries, sentAt, attempted⟩ := seeks
  have since : (UInt16.ofNat time - d.sentAt).toNat = (time - lastSent log) % 2 ^ 16 := by
    rw [sentAt]
    exact toNat_since later
  cases looks with
  | waits early =>
    have none_ : ¬ Finds log time := by
      rintro ⟨due, soon⟩
      omega
    rw [attempts_none time rfl, List.nil_append, if_neg none_]
    exact Or.inl ⟨on, here, idle, tries, sentAt, attempted⟩
  | tries due more sends =>
    obtain ⟨client, there⟩ := discover_sends on sends
    rw [attempts_one time there, client, List.singleton_append]
    refine Or.inl ⟨on, here, rfl, ?_, rfl, ?_, fun a member => ?_⟩
    · have := d.tries.toNat_lt
      have small : Dhcp.MAX_TRIES.toNat = 5 := rfl
      dsimp only
      rw [UInt8.toNat_add, show UInt8.toNat 1 = 1 from rfl, List.length_cons]
      omega
    · obtain _ | ⟨latest, before⟩ := log
      · exact absurd attempted.paced.tried (Nat.not_lt_zero _)
      have late : latest.time + Dhcp.RETRY_TICKS.toNat ≤ time := by
        have here : lastSent (latest :: before) = latest.time := rfl
        omega
      apply attempted.paced.tries late
      · rw [← List.map_cons, List.length_map, ← tries]
        exact more
      · split
        · exact Nat.le_refl _
        · exact Nat.le_succ _
    · obtain rfl | before := List.mem_cons.mp member
      · exact ⟨_, _, rfl⟩
      · exact attempted.discovers a before
  | gives_up =>
    rw [attempts_none time (close_posted net d.sock), List.nil_append]
    exact Or.inr ⟨rfl, rfl, found, attempted⟩

private theorem silent_kept {log₀ log : List Attempt} {found : Nat} (begins : Begins begun log₀)
    (run : Silent begun log₀ d net log found) : Seeks begun.1.sock d log found ∨ GivenUp d log := by
  induction run with
  | begun => exact Or.inl (begins_spec begins)
  | meanwhile _ _ ih => exact ih
  | @polled d net log found run x time later silent ih =>
    obtain seeks | givenUp := ih
    · rw [silent_retries seeks.on silent]
      exact seeks.polled later (retry_looks seeks.on seeks.idle net _)
    · have rests : Dhcp.mnDhcpPoll d net x (UInt16.ofNat time) = (d, net) := by
        unfold Dhcp.mnDhcpPoll
        rw [givenUp.failed]
      rw [rests, attempts_none time rfl, List.nil_append]
      exact Or.inr givenUp

/-- The poll that gives up closes the socket the acquisition began with. -/
theorem Seeks.gives_back {sock : UInt8} {log : List Attempt} {found : Nat}
    (seeks : Seeks sock d log found)
    (looks : Looks d net now out) (failed : out.1.state = .failed) (i : Fin 4) (here : sock.toNat = i) :
    (out.2.sock i).port = 0 := by
  cases looks with
  | waits =>
    rw [seeks.on] at failed
    cases failed
  | tries _ _ sends =>
    obtain ⟨client, _⟩ := discover_sends seeks.on sends
    rw [client, show Dhcp.MnDhcp.state _ = d.state from rfl, seeks.on] at failed
    cases failed
  | gives_up =>
    rw [seeks.sock]
    obtain ⟨past, _⟩ | ⟨k, there, closes⟩ := udpClose_cases net sock
    · exact absurd i.isLt (by omega)
    · obtain rfl : i = k := Fin.ext (here.symm.trans there)
      rw [closes, setSock_self]
      rfl

/-- Against silence an acquisition ends: at most `MAX_TRIES` DISCOVERs, at least
`RETRY_TICKS` apart, and once as many polls have found that time elapsed it has
failed, its socket closed. No broadcast is ever put off. -/
theorem acquisition_ends :
    (∀ begun log₀ d net log found, Begins begun log₀ → Silent begun log₀ d net log found →
      (log.length ≤ Dhcp.MAX_TRIES.toNat ∧ Spaced Dhcp.RETRY_TICKS.toNat (log.map Attempt.time) ∧
        ∀ a ∈ log, IsDiscover a.sent) ∧
      (Dhcp.MAX_TRIES.toNat ≤ found → d.state = .failed ∧ d.sock = 0xff) ∧
      ∀ x time, d.state ≠ .failed → (mnNetUdpRecv net x d.sock MN_UDP_SOCK_BUF).1 = none →
        (Dhcp.mnDhcpPoll d net x time).1.state = .failed →
        ∀ i : Fin 4, begun.1.sock.toNat = i → ((Dhcp.mnDhcpPoll d net x time).2.sock i).port = 0) ∧
    (∀ net : MnNet, isBroadcast net limitedBcast = true) ∧
    ∀ (net : MnNetFull) dst, isBroadcast net.toMnNet dst = true →
      (mnNetTxBegin net.toMnNet dst).1 = .ok mnEthBroadcast ∧
        ∀ sport dport payload, (mnNetSendUdp net dst sport dport payload).1 ≠ .pending := by
  refine ⟨fun begun log₀ d net log found begins run => ?_, fun net => by simp [isBroadcast],
    fun net dst everyone =>
    ⟨by rw [broadcast_begins everyone], broadcast_prompt everyone⟩⟩
  have kept := silent_kept begins run
  obtain ⟨spent, attempted⟩ : ∃ spent, Attempted log spent := by
    obtain seeks | givenUp := kept
    · exact ⟨found, seeks.attempted⟩
    · exact givenUp.attempted
  refine ⟨⟨?_, attempted.paced.spaced, attempted.discovers⟩, fun enough => ?_,
    fun x time on silent failed => ?_⟩
  · rw [← List.length_map (f := Attempt.time)]
    exact attempted.paced.few
  · obtain seeks | givenUp := kept
    · exact absurd seeks.attempted.paced.found_lt (Nat.not_lt.mpr enough)
    · exact ⟨givenUp.failed, givenUp.released⟩
  · obtain seeks | givenUp := kept
    · rw [silent_retries seeks.on silent] at failed ⊢
      exact seeks.gives_back (retry_looks seeks.on seeks.idle net time) failed
    · exact absurd givenUp.failed on

/-- A layer over a link that refuses every frame. -/
def deaf : MnNetFull := layerOver (hostNet (fun _ => false) false)

/-- Polled every 200 ticks over that link, the client fails with the fifth poll. -/
theorem acquisition_ends_deaf : ∃ d net log found,
    Silent (Dhcp.mnDhcpStart freshDhcp deaf 0)
      (attempts 0 deaf (Dhcp.mnDhcpStart freshDhcp deaf 0).2) d net log found ∧
      d.state = .failed ∧ d.sock = 0xff := by
  have begins : Begins (Dhcp.mnDhcpStart freshDhcp deaf 0)
      (attempts 0 deaf (Dhcp.mnDhcpStart freshDhcp deaf 0).2) :=
    .starts freshDhcp deaf 0
  have run : Silent (Dhcp.mnDhcpStart freshDhcp deaf 0)
      (attempts 0 deaf (Dhcp.mnDhcpStart freshDhcp deaf 0).2) _ _ _ 0 :=
    .begun
  have one := run.polled (fun _ => 0) 200 (by decide +kernel) (by decide +kernel)
  have two := one.polled (fun _ => 0) 400 (by decide +kernel) (by decide +kernel)
  have three := two.polled (fun _ => 0) 600 (by decide +kernel) (by decide +kernel)
  have four := three.polled (fun _ => 0) 800 (by decide +kernel) (by decide +kernel)
  have five := four.polled (fun _ => 0) 1000 (by decide +kernel) (by decide +kernel)
  obtain ⟨_, failed, _⟩ := acquisition_ends.1 _ _ _ _ _ _ begins five
  exact ⟨_, _, _, _, five, failed (by decide +kernel)⟩

end MegaNet.DhcpSilence
