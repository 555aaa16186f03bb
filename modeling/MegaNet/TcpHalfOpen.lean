import MegaNet.TcpProgress

/-! How long a handshake that nobody answers holds its socket: as long as the
retries last, and beyond that for every tick its opening segment waits to go
out, which no retry counts. -/
namespace MegaNet.TcpHalfOpen
open MegaNet.Core SerialNumber Words TcpEmission TcpSocketInvariant TcpOutcomes
  TcpPreservation TcpConnection
  TcpSetRuns TcpTurns TcpProgress

variable {w : World} {net : MnNet} {t : MnTcp} {i : Nat}

/-- A poll comes at least once every `ticks`. -/
def Often (ticks : Nat) (since : UInt16) : Polls → Prop
  | [] => True
  | (_, now) :: rest => (now - since).toNat ≤ ticks ∧ Often ticks now rest

/-- The ticks that pass while socket `i`'s SYN or SYN|ACK has still to go out:
its next hop unknown, or the link having refused it. -/
def pendingTicks (i : Nat) (w : World) : Polls → Nat
  | [] => 0
  | (net, now) :: rest =>
    (if ((w.set.sock[i]?).any (·.synPending)) = true then (now - w.set.now).toNat else 0) +
      pendingTicks i (w.exec net (.poll now)).1 rest

/-- Where a handshake in `state` ends unanswered. -/
def GivenUp (state : TcpState) (t : MnTcp) : Prop :=
  if state = .synSent then t.state = .closed ∧ t.flags.timeout = true else t.state = .listen

/-- Within `budget` ticks of polls socket `i` has given its handshake up. -/
def GivesUpWithin (budget : Nat) (state : TcpState) (i : Nat) (w : World) (polls : Polls) : Prop :=
  ∃ k, advance w.set.now (polls.take k) ≤ budget ∧
    ∃ t, (afterPolls w (polls.take k)).set.sock[i]? = some t ∧ GivenUp state t

/-- The ticks that `tries` more timeouts take, each noticed up to 49 ticks late. -/
def patience : Nat → Nat
  | 0 => 0
  | tries + 1 => rtoAfter (5 - tries) + 49 + patience tries

theorem patience_most (tries : Nat) (few : tries ≤ 6) : patience tries ≤ 1844 := by
  interval_cases tries <;> decide

theorem GivesUpWithin.later (near : (now - w.set.now).toNat ≤ budget)
    (gives : GivesUpWithin (budget - (now - w.set.now).toNat) state i (w.exec net (.poll now)).1 rest) :
    GivesUpWithin budget state i w ((net, now) :: rest) := by
  obtain ⟨k, within, t, found, up⟩ := gives
  refine ⟨k + 1, ?_, t, found, up⟩
  have clock : (w.exec net (.poll now)).1.set.now = now := rfl
  rw [clock] at within
  simp only [List.take_succ_cons, advance]
  omega

/-- How long the socket may still wait, its opening segment out at most
`pending` ticks late. -/
def need (t : MnTcp) (now : UInt16) : Nat :=
  if t.synPending = true then patience (6 - t.retries.toNat)
  else t.rto.toNat - (now - t.sentAt).toNat + 49 + patience (5 - t.retries.toNat)

theorem patience_next (retries : Nat) (left : retries ≤ 5) :
    patience (6 - retries) = rtoAfter retries + 49 + patience (5 - retries) := by
  rw [show 6 - retries = (5 - retries) + 1 by omega, patience, show 5 - (5 - retries) = retries by omega]

/-- Just after its opening segment was sent again, taken by the link or not. -/
theorem need_renewed (inv : SocketInv t now) (left : t.retries.toNat ≤ 5) (fresh : t.sentAt = now) :
    need t now = patience (6 - t.retries.toNat) := by
  unfold need
  split
  · rfl
  · rw [fresh, elapsed_self, Nat.sub_zero, inv.rto, patience_next _ left]

/-- The turns of a half-open socket: the segment still pending goes out again,
or the timer runs out for the last time, or for another time, or it waits. -/
inductive Turned (t : MnTcp) (now : UInt16) : MnTcp → Prop where
  | pending (u : MnTcp) (still : t.synPending = true) (state : u.state = t.state)
      (fresh : u.sentAt = now) (same : u.retries = t.retries) : Turned t now u
  | last (u : MnTcp) (out : t.synPending = false) (spent : t.retries.toNat = 5)
      (up : GivenUp t.state u) : Turned t now u
  | again (u : MnTcp) (out : t.synPending = false) (state : u.state = t.state) (fresh : u.sentAt = now)
      (next : u.retries.toNat = t.retries.toNat + 1) (left : t.retries.toNat < 5) : Turned t now u
  | waits (early : ¬ t.rto ≤ now - t.sentAt) (out : t.synPending = false) : Turned t now t

private theorem turn_turned (run : World.Run w) (found : w.set.sock[i]? = some t)
    (half : handshaking t.state = true) (net : MnNet) (now : UInt16) :
    Turned t now (turn w net i now t).1 := by
  have inv := World.Run.socketInv run found
  obtain ⟨next, patient, sixth⟩ := retries_left inv (handshaking_awake half)
  have shake := pollHandshake_shake t w.x (turnNet w net i now) now
  rw [turn, pollOne_handshaking half]
  generalize pollHandshake t w.x (turnNet w net i now) now = out at shake
  cases shake with
  | waits out early => exact .waits early out
  | pending still =>
    obtain ⟨edge, stat, pending, same⟩ := resendSyn_socket t w.x (turnNet w net i now) now
    rw [same]
    exact .pending _ still rfl rfl rfl
  | again out left =>
    obtain ⟨edge, stat, pending, same⟩ := resendSyn_socket (retried t) w.x (turnNet w net i now) now
    rw [same]
    rw [sixth] at left
    exact .again _ out rfl rfl next (by omega)
  | relistens out last passive =>
    exact .last _ out (sixth.mp last) (by simp [GivenUp, passive, spent])
  | times_out out last active =>
    have active := (handshaking_cases half).resolve_right active
    exact .last _ out (sixth.mp last) (by simp [GivenUp, active, spent])

private theorem pendingTicks_cons (found : w.set.sock[i]? = some t) (net : MnNet) (now : UInt16)
    (rest : Polls) : pendingTicks i w ((net, now) :: rest) =
      (if t.synPending = true then (now - w.set.now).toNat else 0) +
        pendingTicks i (w.exec net (.poll now)).1 rest := by
  simp [pendingTicks, found]

/-- The socket a turn leaves is still owed no more than its patience, and its
timer has not run out. -/
private theorem waits_out (run : World.Run w) (found : w.set.sock[i]? = some t)
    (half : handshaking t.state = true)
    (soon : t.synPending = true ∨ ¬ t.rto ≤ w.set.now - t.sentAt) (polls : Polls)
    (often : Often 50 w.set.now polls)
    (enough : need t w.set.now + pendingTicks i w polls ≤ budget)
    (long : budget ≤ advance w.set.now polls) : GivesUpWithin budget t.state i w polls := by
  induction polls generalizing w t budget with
  | nil =>
    have inv := World.Run.socketInv run found
    have left := (retries_left inv (handshaking_awake half)).2.1
    have := patience_next _ left
    unfold need at enough
    split at enough <;> simp only [advance] at long <;> omega
  | cons poll rest ih =>
    obtain ⟨net, now⟩ := poll
    obtain ⟨near, later⟩ := often
    have inv := World.Run.socketInv run found
    have left := (retries_left inv (handshaking_awake half)).2.1
    have run' := run.next ⟨net, .poll now, rfl⟩
    have found' := (poll_turn found net now).1
    have inv' := World.Run.socketInv run' found'
    have clock : (w.exec net (.poll now)).1.set.now = now := rfl
    have turned := turn_turned run found half net now
    have grown := patience_next _ left
    rw [pendingTicks_cons found] at enough
    simp only [advance] at long
    generalize (turn w net i now t).1 = u at found' inv' turned
    cases turned with
    | pending _ still state fresh same =>
      have renewed := need_renewed inv' (by rw [same]; exact left) (fresh.trans clock.symm)
      rw [need, if_pos still, if_pos still] at enough
      refine GivesUpWithin.later (by omega) ?_
      rw [← state]
      refine ih run' found' (state ▸ half) (Or.inr (not_late inv' fresh)) later ?_ ?_
      · rw [renewed, same]
        omega
      · rw [clock]
        omega
    | last _ out spent up =>
      rw [need, if_neg (by simp [out])] at enough
      rw [UInt16.le_iff_toNat_le] at soon
      refine ⟨1, ?_, u, found', up⟩
      simp only [List.take_succ_cons, List.take_zero, advance]
      have := soon.resolve_left (by simp [out])
      omega
    | again _ out state fresh next fewer =>
      have renewed := need_renewed inv' (by omega) (fresh.trans clock.symm)
      rw [need, if_neg (by simp [out]), if_neg (by simp [out])] at enough
      rw [UInt16.le_iff_toNat_le] at soon
      have := soon.resolve_left (by simp [out])
      refine GivesUpWithin.later (by omega) ?_
      rw [← state]
      refine ih run' found' (state ▸ half) (Or.inr (not_late inv' fresh)) later ?_ ?_
      · rw [renewed, next, show 6 - (t.retries.toNat + 1) = 5 - t.retries.toNat by omega]
        omega
      · rw [clock]
        omega
    | waits early out =>
      rw [need, if_neg (by simp [out]), if_neg (by simp [out])] at enough
      rw [UInt16.le_iff_toNat_le] at soon early
      have := soon.resolve_left (by simp [out])
      have short := inv.short
      have elapsed : (now - t.sentAt).toNat = (w.set.now - t.sentAt).toNat + (now - w.set.now).toNat :=
        elapsed_add (by omega)
      refine GivesUpWithin.later (by omega) (ih run' found' half ?_ later ?_ ?_)
      · rw [clock, UInt16.le_iff_toNat_le]
        exact Or.inr early
      · rw [need, if_neg (by simp [out]), clock]
        omega
      · rw [clock]
        omega

private theorem need_most (inv : SocketInv t since) (left : t.retries.toNat ≤ 5) (now : UInt16) :
    need t now ≤ 1844 := by
  have grown := patience_next _ left
  have most := patience_most (6 - t.retries.toNat) (by omega)
  have rto := inv.rto
  unfold need
  split <;> omega

/-- A handshake nobody answers is given up within 2000 ticks, polls coming at
least once every 50, as long as no more than 106 of them pass with its opening
segment still to go out. -/
theorem half_open_bounded (run : World.Run w) (found : w.set.sock[i]? = some t)
    (half : t.state = .synSent ∨ t.state = .synRcvd) (polls : Polls) (often : Often 50 w.set.now polls)
    (long : 2000 ≤ advance w.set.now polls) (prompt : pendingTicks i w polls ≤ 106) :
    GivesUpWithin 2000 t.state i w polls := by
  have shaking : handshaking t.state = true := by
    rcases half with state | state <;> simp [state, handshaking]
  have inv := World.Run.socketInv run found
  have left := (retries_left inv (handshaking_awake shaking)).2.1
  by_cases soon : t.synPending = true ∨ ¬ t.rto ≤ w.set.now - t.sentAt
  · have most := need_most inv left w.set.now
    exact waits_out run found shaking soon polls often (by omega) long
  -- The timer has run out already; the first poll notices, or finds it wrapped.
  cases polls with
  | nil => simp [advance] at long
  | cons poll rest =>
    obtain ⟨net, now⟩ := poll
    obtain ⟨near, later⟩ := often
    have run' := run.next ⟨net, .poll now, rfl⟩
    have found' := (poll_turn found net now).1
    have inv' := World.Run.socketInv run' found'
    have clock : (w.exec net (.poll now)).1.set.now = now := rfl
    have turned := turn_turned run found shaking net now
    simp only [not_or] at soon
    rw [pendingTicks_cons found, if_neg soon.1] at prompt
    simp only [advance] at long
    generalize (turn w net i now t).1 = u at found' inv' turned
    cases turned with
    | pending _ still => exact absurd still soon.1
    | last _ _ _ up =>
      refine ⟨1, ?_, u, found', up⟩
      simp only [List.take_succ_cons, List.take_zero, advance]
      omega
    | again _ _ state fresh next fewer =>
      have most := need_most inv' (by omega) now
      refine GivesUpWithin.later (by omega) ?_
      rw [← state]
      exact waits_out run' found' (state ▸ shaking) (Or.inr (not_late inv' fresh)) rest later
        (by rw [clock]; omega) (by rw [clock]; omega)
    | waits early _ =>
      have most := need_most inv left now
      exact GivesUpWithin.later (by omega) (waits_out run' found' shaking (Or.inr early) rest later
        (by rw [clock]; omega) (by rw [clock]; omega))

/-- A connection opened at tick 0 over a link that answers as `accepts` says. -/
def opening (accepts : Nat → Bool) : World :=
  ((freshWorld 1).exec (hostNet accepts true) (.connect 0 neighbour 80 0)).1

theorem opening_run (accepts : Nat → Bool) : World.Run (opening accepts) :=
  (freshWorld_run 1).next ⟨_, _, rfl⟩

/-- `n` polls, one every fifty ticks, over links that answer so. -/
def everyFifty (accepts : Nat → Bool) (n : Nat) : Polls :=
  (List.range n).map fun k => (hostNet accepts true, 50 * UInt16.ofNat (k + 1))

instance decidableOften : ∀ (ticks : Nat) (since : UInt16) (polls : Polls),
    Decidable (Often ticks since polls)
  | _, _, [] => isTrue trivial
  | ticks, since, (_, now) :: rest =>
    have := decidableOften ticks now rest
    inferInstanceAs (Decidable ((now - since).toNat ≤ ticks ∧ Often ticks now rest))

theorem half_open_bounded_opening :
    GivesUpWithin 2000 .synSent 0 (opening fun _ => true) (everyFifty (fun _ => true) 40) := by
  obtain ⟨t, found, state⟩ := socket_where (opening fun _ => true) 0 (fun t => t.state = .synSent)
    (by decide +kernel)
  have bounded := half_open_bounded (opening_run _) found (Or.inl state) (everyFifty (fun _ => true) 40)
    (by decide +kernel) (by decide +kernel) (by decide +kernel)
  rwa [state] at bounded

/-- Over such a net no segment to `dst` goes out. -/
def Barred (dst : Ip4) (net : MnNet) : Prop := ¬ net.Resolves dst ∨ ∀ n, net.nif.accepts n = false

private theorem barred_resend (barred : Barred t.remoteIp net) (x : XMem) (now : UInt16) :
    (resendSyn t x net now).1.state = t.state ∧ (resendSyn t x net now).1.synPending = true ∧
      (resendSyn t x net now).1.remoteIp = t.remoteIp := by
  have emission := emit_emission { t with sentAt := now } x net
    { syn := true, ack := t.state ≠ .synSent } t.iss 0 0 true
  unfold resendSyn sendSyn
  dsimp only
  generalize emit { t with sentAt := now } x net
    { syn := true, ack := t.state ≠ .synSent } t.iss 0 0 true =
    out at emission
  cases emission with
  | unresolved => exact ⟨rfl, by simp, rfl⟩
  | sent _ _ known =>
    have refused := barred.resolve_left (not_not_intro known)
    exact ⟨rfl, by simp [refused], rfl⟩

/-- As long as its opening segment cannot go out, a half-open socket stays
half open, however long it is polled: no retry is ever counted. -/
theorem barred_polls (found : w.set.sock[i]? = some t) (half : handshaking t.state = true)
    (pending : t.synPending = true) (polls : Polls) (barred : ∀ poll ∈ polls, Barred t.remoteIp poll.1) :
    ∃ u, (afterPolls w polls).set.sock[i]? = some u ∧ u.state = t.state := by
  induction polls generalizing w t with
  | nil => exact ⟨t, found, rfl⟩
  | cons poll rest ih =>
    obtain ⟨net, now⟩ := poll
    have polled : turn w net i now t = resendSyn t w.x (turnNet w net i now) now := by
      rw [turn, pollOne_handshaking half, pollHandshake, if_pos pending]
    have routes := turn_routes w net i now
    have shut : Barred t.remoteIp net := barred (net, now) (List.mem_cons_self ..)
    have still : Barred t.remoteIp (turnNet w net i now) := by
      rwa [Barred, same_routes_resolves routes, routes.accepts]
    obtain ⟨state, pending', ip⟩ := barred_resend still w.x now
    rw [← polled] at state pending' ip
    obtain ⟨u, there, same⟩ := ih (poll_turn found net now).1 (state ▸ half) pending'
      (by rw [ip]; exact fun poll member => barred poll (List.mem_cons_of_mem _ member))
    exact ⟨u, there, same.trans state⟩

/-- A link that refuses every frame holds an opening connection past 2000
ticks of polls fifty apart. -/
theorem refused_syn_holds :
    ¬ ∀ (w : World) (i : Nat) (t : MnTcp) (polls : Polls), World.Run w → w.set.sock[i]? = some t →
      (t.state = .synSent ∨ t.state = .synRcvd) → Often 50 w.set.now polls →
      2000 ≤ advance w.set.now polls → GivesUpWithin 2000 t.state i w polls := by
  intro bounded
  obtain ⟨t, found, state, pending⟩ := socket_where (opening fun _ => false) 0
    (fun t => t.state = .synSent ∧ t.synPending = true) (by decide +kernel)
  have often : Often 50 (opening fun _ => false).set.now (everyFifty (fun _ => false) 40) := by
    decide +kernel
  have long : 2000 ≤ advance (opening fun _ => false).set.now (everyFifty (fun _ => false) 40) := by
    decide +kernel
  have barred : ∀ poll ∈ everyFifty (fun _ => false) 40, Barred t.remoteIp poll.1 := by
    intro poll member
    obtain ⟨_, _, rfl⟩ := List.mem_map.mp member
    exact Or.inr fun _ => rfl
  have run := opening_run fun _ => false
  generalize (opening fun _ => false) = w at found often long run
  generalize everyFifty (fun _ => false) 40 = polls at often long barred
  obtain ⟨k, _, u, there, up⟩ := bounded w 0 t polls run found (Or.inl state) often long
  obtain ⟨v, there', same⟩ := barred_polls found (by simp [state, handshaking]) pending (polls.take k)
    fun poll member => barred poll (List.mem_of_mem_take member)
  obtain rfl : u = v := Option.some.inj (there.symm.trans there')
  simp [GivenUp, state, same] at up

end MegaNet.TcpHalfOpen
