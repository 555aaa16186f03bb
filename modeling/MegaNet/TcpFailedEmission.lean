import MegaNet.TcpWindowUpdates

/-! What a poll whose segments the link does not take leaves of the connection:
nothing but its timers and counters, unless the poll had an acknowledgement to
send on its own, or the window has moved since the last one told. -/
namespace MegaNet.TcpFailedEmission
open MegaNet.Core SerialNumber Words TcpEmission TcpSocketInvariant TcpOutcomes
  TcpConnection TcpSendStream
  TcpRecvStream TcpLifetime TcpResets TcpAdvertisedWindow TcpWindowUpdates Transition

variable {c : Conn} {t u v : MnTcp} {x : XMem} {net after : MnNet} {now : UInt16} {seg : TcpSeg}
  {entry : Frame × Bool}

/-- Between two states of a net the link took no segment. -/
def Failing (net after : MnNet) : Prop :=
  ∀ entry ∈ handedSince net after, (segmentOf entry.1).isSome → entry.2 = false

/-- What a failed emission is to leave as it was. -/
structure Intact (t u : MnTcp) : Prop where
  sndUna : u.sndUna = t.sndUna
  sndNxt : u.sndNxt = t.sndNxt
  inflight : u.inflight = t.inflight
  sndLen : u.sndLen = t.sndLen
  finSent : u.finSent = t.finSent
  advEdge : u.advEdge = t.advEdge
  ackPending : t.ackPending = true → u.ackPending = true

/-- The acknowledgement a poll sends first: none, one that goes with a SYN, a
FIN or bytes, one on its own, or the last one of all. -/
inductive Due where
  | nothing
  | carried
  | alone
  | last
  deriving DecidableEq

/-- A SYN|ACK is owed, or due again. -/
def synDue (t : MnTcp) (now : UInt16) : Bool :=
  t.synPending || (now - t.sentAt ≥ t.rto && !(t.retries + 1 > MAX_RETRIES))

def due (t : MnTcp) (now : UInt16) : Due :=
  match t.state with
  | .closed | .listen | .synSent => .nothing
  | .synRcvd => if synDue t now then .carried else .nothing
  | .timeWait => if t.ackPending then .last else .nothing
  | _ =>
    if retransmitDue t now then if t.retries + 1 > MAX_RETRIES then .nothing else .carried
    else if t.txPending ∧ t.sndLen > t.inflight then
      if t.inflight < sendLimit t then .carried else .nothing
    else if t.finQueued ∧ ¬ t.finSent ∧ t.inflight = 0 ∧ t.sndLen = 0 then .carried
    else if t.ackPending then .alone
    else .nothing

/-- A failing poll does no harm if it has no acknowledgement to send, or none on
its own, the next hop unknown or the right edge the one last told. -/
def Spares (t : MnTcp) (net : MnNet) (now : UInt16) : Prop :=
  match due t now with
  | .nothing => True
  | .carried => net.Resolves t.remoteIp → t.advEdge = rightEdge t
  | .alone => ¬ net.Resolves t.remoteIp
  | .last => False

/-! ## One emission -/

theorem Failing.front (failing : Failing net after) (front : Handed net middle first)
    (back : Handed middle after rest) : Failing net middle := by
  intro entry member
  rw [handed_since front] at member
  refine failing entry ?_
  rw [handed_since (front.trans back)]
  exact List.mem_append_left _ member

/-- An acknowledgement the link does not take waits for its next hop and leaves
the socket alone, or is refused when the edge it tells has been noted down. -/
theorem emit_failing (t : MnTcp) (x : XMem) (net : MnNet) (flags : SegFlags)
    (seq : UInt32) (off len : UInt16)
    (mss : Bool) (failing : Failing net (emit t x net flags seq off len mss).2.2) :
    ¬ net.Resolves t.remoteIp ∧ (emit t x net flags seq off len mss).1 = .pending ∧
        (emit t x net flags seq off len mss).2.1 = t ∨
      net.Resolves t.remoteIp ∧ (emit t x net flags seq off len mss).1 = .failed ∧
        (emit t x net flags seq off len mss).2.1 =
          { t with
            advEdge := if flags.ack then rightEdge t else t.advEdge
            statTxSeg := t.statTxSeg + 1 } := by
  have emission := emit_emission t x net flags seq off len mss
  generalize emit t x net flags seq off len mss = out at emission failing
  cases emission with
  | unresolved _ _ unknown => exact Or.inl ⟨unknown, rfl, rfl⟩
  | sent after _ known _ handed =>
    have refused : net.nif.accepts net.nif.handed.length = false :=
      failing _ (by rw [handed_since handed]; exact List.mem_singleton_self _) rfl
    exact Or.inr ⟨known, by rw [refused]; rfl, rfl⟩

/-- When nothing else becomes of the socket, such an emission does no harm
exactly if the edge was the one last told. -/
theorem carried_iff (failing : Failing net (emit u x net flags seq off len mss).2.2)
    (acks : flags.ack = true)
    (route : u.remoteIp = t.remoteIp)
    (waits : (emit u x net flags seq off len mss).1 = .pending →
      (emit u x net flags seq off len mss).2.1 = u →
      Intact t v)
    (fails : (emit u x net flags seq off len mss).1 = .failed →
      ∀ stat, (emit u x net flags seq off len mss).2.1 =
      { u with advEdge := rightEdge u, statTxSeg := stat } →
        Intact { t with advEdge := rightEdge t } v) :
    Intact t v ↔ (net.Resolves t.remoteIp → t.advEdge = rightEdge t) := by
  obtain ⟨unknown, pending, same⟩ | ⟨known, failed, same⟩ :=
    emit_failing u x net flags seq off len mss failing
  · rw [route] at unknown
    exact iff_of_true (waits pending same) fun known => absurd known unknown
  · rw [if_pos acks] at same
    have moved := fails failed _ same
    rw [route] at known
    constructor
    · exact fun intact _ => intact.advEdge.symm.trans moved.advEdge
    · exact fun near => ⟨moved.sndUna, moved.sndNxt, moved.inflight, moved.sndLen, moved.finSent,
        moved.advEdge.trans (near known).symm, moved.ackPending⟩

/-! ## A poll -/

private theorem resendSyn_intact_iff (passive : t.state ≠ .synSent) (x : XMem)
    (net : MnNet) (now : UInt16)
    (failing : Failing net (resendSyn t x net now).2) :
    Intact t (resendSyn t x net now).1 ↔ (net.Resolves t.remoteIp → t.advEdge = rightEdge t) := by
  unfold resendSyn at failing ⊢
  rw [sendSyn_net] at failing
  refine carried_iff failing (by simp [passive]) rfl (fun _ same => ?_) fun _ stat same => ?_
  all_goals
    unfold sendSyn
    dsimp only
    rw [same]
    exact ⟨rfl, rfl, rfl, rfl, rfl, rfl, id⟩

private theorem retransmit_intact_iff (x : XMem) (net : MnNet) (now : UInt16)
    (left : ¬ t.retries + 1 > MAX_RETRIES)
    (failing : Failing net (retransmit t x net now).2) :
    Intact t (retransmit t x net now).1 ↔ (net.Resolves t.remoteIp → t.advEdge = rightEdge t) := by
  have again := retransmit_retransmission t x net now
  generalize retransmit t x net now = out at again failing
  cases again with
  | times_out last => exact absurd last left
  | data | fin =>
    refine carried_iff failing rfl rfl (fun _ same => ?_) fun _ stat same => ?_
    all_goals
      rw [same]
      exact ⟨rfl, rfl, rfl, rfl, rfl, rfl, id⟩

private theorem emit_handed (t : MnTcp) (x : XMem) (net : MnNet) (flags : SegFlags)
    (seq : UInt32) (off len : UInt16)
    (mss : Bool) : ∃ frames, Handed net (emit t x net flags seq off len mss).2.2 frames := by
  obtain ⟨frames, handed, _⟩ : Sends net (emit t x net flags seq off len mss).2.2 fun _ => True :=
    emit_sends net trivial
  exact ⟨frames, handed⟩

private theorem sendLoop_handed (x : XMem) (now limit : UInt16) (fuel : Nat) (t : MnTcp) (net : MnNet) :
    ∃ frames, Handed net (sendLoop x now limit fuel t net).2.2 frames := by
  refine sendLoop_rule (motive := fun _ after => ∃ frames,
    Handed net after frames) x now limit ?_ fuel t net
    ⟨[], Handed.refl net⟩
  rintro u middle ⟨front, handed⟩ _ _
  obtain ⟨back, more⟩ := emit_handed u x middle dataFlags u.sndNxt u.inflight (nextLength u limit) false
  exact ⟨front ++ back, handed.trans more⟩

/-- The send loop stops at the first segment, if it is not taken. -/
theorem sendLoop_failing (fuel : Nat) (more : t.sndLen > t.inflight ∧ t.inflight < limit)
    (failing : Failing net (sendLoop x now limit (fuel + 1) t net).2.2) :
    Failing net (emit t x net dataFlags t.sndNxt t.inflight (nextLength t limit) false).2.2 ∧
      sendLoop x now limit (fuel + 1) t net =
        emit t x net dataFlags t.sndNxt t.inflight (nextLength t limit) false := by
  unfold sendLoop at failing ⊢
  rw [if_pos more] at failing ⊢
  dsimp only at failing ⊢
  by_cases gone : (emit t x net dataFlags t.sndNxt t.inflight (nextLength t limit) false).1 = .ok
  · rw [if_neg (by simp [gone])] at failing
    obtain ⟨front, handed⟩ :=
      emit_handed t x net dataFlags t.sndNxt t.inflight (nextLength t limit) false
    obtain ⟨back, later⟩ := sendLoop_handed x now limit fuel _ _
    have first := emit_failing _ _ _ _ _ _ _ _ (failing.front handed later)
    rw [gone] at first
    rcases first with ⟨_, pending, _⟩ | ⟨_, failed, _⟩
    · cases pending
    · cases failed
  · rw [if_pos gone] at failing ⊢
    exact ⟨failing, rfl⟩

private theorem sendQueued_intact_iff (more : t.inflight < t.sndLen) (x : XMem)
    (net : MnNet) (now : UInt16)
    (failing : Failing net (sendQueued t x net now).2) : Intact t (sendQueued t x net now).1 ↔
      (t.inflight < sendLimit t → net.Resolves t.remoteIp → t.advEdge = rightEdge t) := by
  obtain ⟨fuel, enough⟩ : ∃ fuel, t.sndLen.toNat = fuel + 1 := by
    rw [UInt16.lt_iff_toNat_lt] at more
    exact Nat.exists_eq_succ_of_ne_zero (by omega)
  unfold sendQueued at failing ⊢
  rw [enough] at failing ⊢
  dsimp only at failing ⊢
  by_cases room : t.inflight < sendLimit t
  · obtain ⟨refused, same⟩ := sendLoop_failing fuel ⟨more, room⟩ failing
    rw [same, imp_iff_right room]
    refine carried_iff refused rfl rfl (fun _ same => ?_) fun _ stat same => ?_
    all_goals
      rw [same]
      exact ⟨rfl, rfl, rfl, rfl, rfl, rfl, id⟩
  · unfold sendLoop
    rw [if_neg fun ready => room ready.2]
    exact iff_of_true ⟨rfl, rfl, rfl, rfl, rfl, rfl, id⟩ fun less => absurd less room

private theorem sendFin_intact_iff (x : XMem) (net : MnNet) (now : UInt16)
    (failing : Failing net (sendFin t x net now).2) :
    Intact t (sendFin t x net now).1 ↔ (net.Resolves t.remoteIp → t.advEdge = rightEdge t) := by
  rw [sendFin_net] at failing
  refine carried_iff failing rfl rfl (fun result same => ?_) fun result stat same => ?_
  all_goals
    unfold sendFin
    dsimp only
    rw [result, if_neg (by decide), same]
    exact ⟨rfl, rfl, rfl, rfl, rfl, rfl, id⟩

/-- An acknowledgement on its own is kept while its next hop is unknown, and
forgotten when the link refuses it. -/
theorem sendAck_intact_iff (owed : t.ackPending = true) (x : XMem) (net : MnNet)
    (failing : Failing net (sendAck t x net).2) :
    Intact t (sendAck t x net).1 ↔ ¬ net.Resolves t.remoteIp := by
  rw [sendAck_net] at failing
  unfold sendAck
  dsimp only
  obtain ⟨unknown, pending, same⟩ | ⟨known, failed, same⟩ := emit_failing _ _ _ _ _ _ _ _ failing
  · rw [pending, if_neg (by decide), same]
    exact iff_of_true ⟨rfl, rfl, rfl, rfl, rfl, rfl, id⟩ unknown
  · rw [failed, if_pos (by decide)]
    exact iff_of_false (fun intact => Bool.noConfusion (intact.ackPending owed)) (not_not.mpr known)

private theorem pollTimeWait_intact_iff (x : XMem) (net : MnNet) (now : UInt16) :
    Intact t (pollTimeWait t x net now).1 ↔ t.ackPending = false := by
  cases owed : t.ackPending with
  | true =>
    obtain ⟨edge, stat, same⟩ := pollTimeWait_owed owed x net now
    rw [same]
    exact iff_of_false (fun intact => Bool.noConfusion (intact.ackPending owed)) Bool.noConfusion
  | false =>
    rw [pollTimeWait_idle owed]
    refine iff_of_true ?_ rfl
    dsimp only
    split <;> exact ⟨rfl, rfl, rfl, rfl, rfl, rfl, id⟩

/-- A segment that acknowledges nothing tells no edge. -/
theorem emit_mute (flags : SegFlags) (mute : flags.ack = false) (t : MnTcp) (x : XMem)
    (net : MnNet) (seq : UInt32)
    (off len : UInt16) (mss : Bool) : ∃ stat, (emit t x net flags seq off len mss).2.1 =
    { t with statTxSeg := stat } := by
  have emission := emit_emission t x net flags seq off len mss
  generalize emit t x net flags seq off len mss = out at emission
  cases emission with
  | unresolved => exact ⟨t.statTxSeg, rfl⟩
  | sent =>
    dsimp only
    rw [if_neg (by simp [mute])]
    exact ⟨_, rfl⟩

private theorem resendSyn_intact (active : t.state = .synSent) (x : XMem) (net : MnNet) (now : UInt16) :
    Intact t (resendSyn t x net now).1 := by
  unfold resendSyn sendSyn
  dsimp only
  obtain ⟨stat, same⟩ := emit_mute { syn := true, ack := t.state ≠ .synSent } (by simp [active])
    { t with sentAt := now } x net t.iss 0 0 true
  rw [same]
  exact ⟨rfl, rfl, rfl, rfl, rfl, rfl, id⟩

/-- Retrying touches none of it. -/
theorem retried_intact_iff : Intact (retried t) v ↔ Intact t v :=
  ⟨fun intact => ⟨intact.sndUna, intact.sndNxt, intact.inflight, intact.sndLen,
    intact.finSent, intact.advEdge,
      intact.ackPending⟩,
    fun intact => ⟨intact.sndUna, intact.sndNxt, intact.inflight, intact.sndLen,
      intact.finSent, intact.advEdge,
      intact.ackPending⟩⟩

private theorem pollHandshake_intact (active : t.state = .synSent) (x : XMem)
    (net : MnNet) (now : UInt16) :
    Intact t (pollHandshake t x net now).1 := by
  have shake := pollHandshake_shake t x net now
  generalize pollHandshake t x net now = out at shake
  cases shake with
  | waits | relistens | times_out => exact ⟨rfl, rfl, rfl, rfl, rfl, rfl, id⟩
  | pending => exact resendSyn_intact active x net now
  | again => exact retried_intact_iff.mp (resendSyn_intact (t := retried t) active x net now)

private theorem pollHandshake_intact_iff (passive : t.state = .synRcvd) (x : XMem)
    (net : MnNet) (now : UInt16)
    (failing : Failing net (pollHandshake t x net now).2) :
    Intact t (pollHandshake t x net now).1 ↔
      (synDue t now = true → net.Resolves t.remoteIp → t.advEdge = rightEdge t) := by
  have known : t.state ≠ .synSent := by simp [passive]
  unfold pollHandshake at failing ⊢
  by_cases owed : t.synPending = true
  · rw [if_pos owed] at failing ⊢
    rw [imp_iff_right (by simp [synDue, owed])]
    exact resendSyn_intact_iff known x net now failing
  rw [if_neg owed] at failing ⊢
  by_cases late : now - t.sentAt ≥ t.rto
  · rw [if_pos late] at failing ⊢
    dsimp only at failing ⊢
    by_cases last : t.retries + 1 > MAX_RETRIES
    · rw [if_pos last, if_pos passive]
      refine iff_of_true ⟨rfl, rfl, rfl, rfl, rfl, rfl, id⟩ fun again => ?_
      simp [synDue, owed, last] at again
    · rw [if_neg last] at failing ⊢
      rw [imp_iff_right (by simp [synDue, late, last])]
      exact retried_intact_iff.symm.trans (resendSyn_intact_iff (t := retried t) known x net now failing)
  · rw [if_neg late]
    refine iff_of_true ⟨rfl, rfl, rfl, rfl, rfl, rfl, id⟩ fun again => ?_
    simp [synDue, owed, late] at again

private theorem due_past (sync : synchronized t.state = true) (staying : t.state ≠ .timeWait)
    (now : UInt16) : due t now =
      if retransmitDue t now then if t.retries + 1 > MAX_RETRIES then .nothing else .carried
      else if t.txPending ∧ t.sndLen > t.inflight then
        if t.inflight < sendLimit t then .carried else .nothing
      else if t.finQueued ∧ ¬ t.finSent ∧ t.inflight = 0 ∧ t.sndLen = 0 then .carried
      else if t.ackPending then .alone
      else .nothing := by
  unfold due
  cases state : t.state <;> simp_all [synchronized]

/-- A poll whose segments the link does not take does no harm exactly when it
spares what is owed. -/
theorem pollOne_intact_iff (t : MnTcp) (x : XMem) (net : MnNet) (now : UInt16)
    (failing : Failing net (pollOne t x net now).2) : Intact t (pollOne t x net now).1 ↔
      Spares t net now := by
  have rests : Intact t t := ⟨rfl, rfl, rfl, rfl, rfl, rfl, id⟩
  by_cases on : awake t.state
  swap
  · have none : due t now = .nothing := by
      unfold awake at on
      unfold due
      cases state : t.state <;> simp_all
    rw [pollOne_asleep on, Spares, none]
    exact iff_of_true rests trivial
  by_cases active : t.state = .synSent
  · rw [pollOne_handshaking (by simp [active, handshaking]), Spares, due, active]
    exact iff_of_true (pollHandshake_intact active x net now) trivial
  by_cases passive : t.state = .synRcvd
  · have half : handshaking t.state = true := by simp [passive, handshaking]
    rw [pollOne_handshaking half] at failing ⊢
    rw [pollHandshake_intact_iff passive x net now failing, Spares, due, passive]
    cases synDue t now <;> simp
  by_cases staying : t.state = .timeWait
  · have waits : pollOne t x net now = pollTimeWait t x net now := by
      unfold pollOne
      rw [staying]
    rw [waits, pollTimeWait_intact_iff, Spares, due, staying]
    cases t.ackPending <;> simp
  have sync := awake_past on ⟨active, passive⟩
  rw [pollOne_open sync staying] at failing ⊢
  rw [Spares, due_past sync staying]
  by_cases late : retransmitDue t now = true
  · rw [if_pos late] at failing ⊢
    rw [if_pos late]
    by_cases last : t.retries + 1 > MAX_RETRIES
    · rw [if_pos last]
      unfold retransmit
      dsimp only
      rw [if_pos last]
      exact iff_of_true ⟨rfl, rfl, rfl, rfl, rfl, rfl, id⟩ trivial
    · rw [if_neg last]
      exact retransmit_intact_iff x net now last failing
  rw [if_neg late] at failing ⊢
  rw [if_neg late]
  by_cases queued : t.txPending = true ∧ t.sndLen > t.inflight
  · rw [if_pos queued] at failing ⊢
    rw [if_pos queued, sendQueued_intact_iff queued.2 x net now failing]
    by_cases room : t.inflight < sendLimit t <;> simp [room]
  rw [if_neg queued] at failing ⊢
  rw [if_neg queued]
  by_cases ready : t.finQueued = true ∧ ¬ t.finSent = true ∧ t.inflight = 0 ∧ t.sndLen = 0
  · rw [if_pos ready] at failing ⊢
    rw [if_pos ready]
    exact sendFin_intact_iff x net now failing
  rw [if_neg ready] at failing ⊢
  rw [if_neg ready]
  by_cases owed : t.ackPending = true
  · rw [if_pos owed] at failing ⊢
    rw [if_pos owed]
    exact sendAck_intact_iff owed x net failing
  · rw [if_neg owed, if_neg owed]
    exact iff_of_true rests trivial

/-! ## Refused, or unresolved -/

/-- Without a next hop nothing is handed down but questions for it. -/
theorem emit_unresolved (unknown : ¬ net.Resolves t.remoteIp) (x : XMem)
    (flags : SegFlags) (seq : UInt32)
    (off len : UInt16) (mss : Bool) :
    Sends net (emit t x net flags seq off len mss).2.2 (fun _ => False) ∧
      (emit t x net flags seq off len mss).1 ≠ .ok := by
  have emission := emit_emission t x net flags seq off len mss
  generalize emit t x net flags seq off len mss = out at emission
  cases emission with
  | unresolved _ _ _ _ handed =>
    refine ⟨⟨_, handed, fun entry member seg carried => ?_⟩, fun gone => by cases gone⟩
    rw [List.mem_singleton.mp member] at carried
    cases carried
  | sent _ _ known => exact absurd known unknown

private theorem sendLoop_unresolved (unknown : ¬ net.Resolves t.remoteIp) (x : XMem)
    (now limit : UInt16) (fuel : Nat) :
    Sends net (sendLoop x now limit fuel t net).2.2 (fun _ => False) := by
  cases fuel with
  | zero => exact Sends.nothing net _
  | succ fuel =>
    obtain ⟨sends, stops⟩ :=
      emit_unresolved unknown x dataFlags t.sndNxt t.inflight (nextLength t limit) false
    unfold sendLoop
    split
    · dsimp only
      rw [if_pos stops]
      exact sends
    · exact Sends.nothing net _

private theorem pollOne_unresolved (unknown : ¬ net.Resolves t.remoteIp) (x : XMem) (now : UInt16) :
    Sends net (pollOne t x net now).2 (fun _ => False) := by
  have others : ∀ {u : MnTcp}, kept u = kept t → ¬ net.Resolves u.remoteIp := by
    intro u same
    have peer : u.remoteIp = t.remoteIp := congrArg Identity.remoteIp (kept_identity same)
    rwa [peer]
  apply pollOne_each
  · intro u same _
    rw [resendSyn, sendSyn_net]
    exact (emit_unresolved (by exact others same) ..).1
  · exact fun _ u _ _ same _ => (emit_unresolved (others same) ..).1
  · exact fun _ _ => (emit_unresolved (t := resent t now) unknown ..).1
  · exact fun _ _ _ => sendLoop_unresolved unknown x now (sendLimit t) t.sndLen.toNat

/-- The link refuses every frame of a poll, or the next hop is not known. -/
def Shut (t : MnTcp) (net after : MnNet) : Prop :=
  (∀ entry ∈ handedSince net after, entry.2 = false) ∨ ¬ net.Resolves t.remoteIp

private theorem shut_failing (shut : Shut t net (pollOne t x net now).2) : Failing net
    (pollOne t x net now).2 := by
  intro entry member carries
  rcases shut with refused | unknown
  · exact refused entry member
  · obtain ⟨frames, handed, none⟩ := pollOne_unresolved unknown x now
    obtain ⟨seg, carried⟩ := Option.isSome_iff_exists.mp carries
    rw [handed_since handed] at member
    exact absurd carried fun carried => none entry member seg carried

/-! ## The edges the link took -/

/-- The right edge an acknowledgement the link took tells. -/
def takenEdge (entry : Frame × Bool) : Option UInt32 :=
  (segmentOf entry.1).bind fun seg =>
    if entry.2 && seg.flags.ack then some (seg.ack + seg.wnd.toUInt32) else none

def takenEdges (before after : MnNet) : List UInt32 := (handedSince before after).filterMap takenEdge

/-- A connection and the right edges the link has taken for it. -/
structure Heard where
  conn : Conn
  edges : List UInt32

def Heard.exec (h : Heard) (net : MnNet) (op : Op) : Heard :=
  { conn := (h.conn.exec net op).1
    edges := (if Opens h.conn op then [] else h.edges) ++ takenEdges net (h.conn.exec net op).2 }

/-- Emissions that fail are spared: a poll that fails does no harm, and a SYN|ACK
the link does not take waits for its next hop. -/
def Spared (c : Conn) (net : MnNet) (op : Op) : Prop :=
  match op with
  | .poll tick => Failing net (c.exec net op).2 → Spares c.t net tick
  | .passiveOpen src _ => Failing net (c.exec net op).2 → ¬ net.Resolves src
  | _ => True

def Heard.SparedRun : Heard → Prop :=
  Reachable (fun h => Conn.Begun h.conn ∧ h.edges = []) fun h h' =>
    ∃ net op, h.conn.Enabled op ∧ Spared h.conn net op ∧ h' = h.exec net op

/-- The edge last told is one the link took, if it took any. -/
def Known (t : MnTcp) (edges : List UInt32) : Prop := t.advEdge ∈ edges ∨ t.advEdge = 0 ∧ edges = []

private theorem taken_edge (carried : segmentOf entry.1 = some seg) (queued : entry.2 = true)
    (acks : seg.flags.ack = true) :
    takenEdge entry = some (seg.ack + seg.wnd.toUInt32) := by
  simp [takenEdge, carried, queued, acks]

/-- What the link took is what acknowledgements told. -/
theorem takenEdges_told (tells : Sends net after (Tells u)) (edge : UInt32)
    (member : edge ∈ takenEdges net after) :
    edge = rightEdge u ∧ acksHanded net after ≠ [] := by
  obtain ⟨entry, handed, took⟩ := List.mem_filterMap.mp member
  simp only [takenEdge, Option.bind_eq_some_iff, Option.ite_none_right_eq_some, Bool.and_eq_true,
    Option.some.injEq] at took
  obtain ⟨seg, carried, ⟨_, acks⟩, rfl⟩ := took
  have present : seg ∈ segmentsHanded net after := List.mem_filterMap.mpr ⟨entry, handed, carried⟩
  have told := tells.segments seg present
  have loud : seg ∈ acksHanded net after := List.mem_filter.mpr ⟨present, acks⟩
  exact ⟨by rw [told.ack acks, told.wnd, rightEdge], List.ne_nil_of_mem loud⟩

private theorem mute_untaken (mute : Sends net after fun seg => seg.flags.ack = false) :
    takenEdges net after = [] := by
  rw [takenEdges, List.filterMap_eq_nil_iff]
  intro entry member
  cases carried : segmentOf entry.1 with
  | none => simp [takenEdge, carried]
  | some seg =>
    have silent := mute.segments seg (List.mem_filterMap.mpr ⟨entry, member, carried⟩)
    simp [takenEdge, carried, silent]

/-- If it took none, it took no segment that acknowledges. -/
theorem untaken_failing (none : takenEdges net after = [])
    (acks : Sends net after fun seg => seg.flags.ack = true) :
    Failing net after := by
  intro entry member carries
  obtain ⟨seg, carried⟩ := Option.isSome_iff_exists.mp carries
  have present : seg ∈ segmentsHanded net after := List.mem_filterMap.mpr ⟨entry, member, carried⟩
  by_contra queued
  rw [Bool.not_eq_false] at queued
  have took := List.filterMap_eq_nil_iff.mp none entry member
  rw [taken_edge carried queued (acks.segments seg present)] at took
  cases took

/-- The socket goes by the edge it went by, or by one the link has just taken. -/
def Follows (t u : MnTcp) (net after : MnNet) : Prop :=
  u.advEdge = t.advEdge ∧ takenEdges net after = [] ∨ u.advEdge ∈ takenEdges net after

/-- A socket that goes by the right edge once it has acknowledged follows what the
link took, unless an emission failed that did harm. -/
theorem follows (tells : Sends net after (Tells u))
    (acks : Sends net after fun seg => seg.flags.ack = true)
    (spoke : Speaks v net u after) (unharmed : Failing net after → u.advEdge = t.advEdge) :
      Follows t u net after := by
  by_cases none : takenEdges net after = []
  · exact Or.inl ⟨unharmed (untaken_failing none acks), none⟩
  · obtain ⟨edge, member⟩ := List.exists_mem_of_ne_nil _ none
    obtain ⟨right, loud⟩ := takenEdges_told tells edge member
    obtain ⟨frames, handed, ⟨silent, _⟩ | ⟨_, told⟩⟩ := spoke
    · exact absurd silent (acks_handed handed ▸ loud)
    · exact Or.inr (by rwa [told, ← right])

private theorem pollTimeWait_speaks (x : XMem) (net : MnNet) (now : UInt16) :
    Speaks { t with ackPending := false } net (pollTimeWait t x net now).1
      (pollTimeWait t x net now).2 := by
  cases owed : t.ackPending with
  | true =>
    rw [pollTimeWait_net, if_pos owed]
    refine (Speaks.nothing { t with ackPending := false } net).emits x ackFlags t.sndNxt 0 0 false rfl _
      (fun _ same => ?_) fun stat same => ?_
    all_goals
      unfold pollTimeWait
      rw [if_pos owed]
      dsimp only
      rw [same, if_neg (by rw [UInt16.sub_self]; decide)]
    · exact ⟨rfl, rfl⟩
    · rfl
  | false =>
    rw [pollTimeWait_idle owed]
    refine (Speaks.nothing _ net).same ?_ ?_
    all_goals
      dsimp only
      split
    all_goals first | rfl | exact owed

private theorem pollOne_follows (t : MnTcp) (x : XMem) (net : MnNet) (now : UInt16)
    (spared : Failing net (pollOne t x net now).2 → Spares t net now) :
    Follows t (pollOne t x net now).1 net (pollOne t x net now).2 := by
  have built := pollOne_built t x net now
  have still := pollOne_kept t x net now
  have tells : Sends net (pollOne t x net now).2 (Tells (pollOne t x net now).1) := by
    refine built.mono ?_
    rintro seg ⟨u, flags, seq, off, len, mss, same, _⟩
    have alike := same.trans still.symm
    exact built_tells (congrArg Kept.rcvNxt alike) (congrArg Kept.rcvCount alike) ..
  by_cases active : t.state = .synSent
  · have mute : Sends net (pollOne t x net now).2 fun seg => seg.flags.ack = false := by
      refine built.mono ?_
      rintro seg ⟨u, flags, seq, off, len, mss, same, acks, _⟩
      rw [← Bool.not_eq_true]
      exact fun silent => acks.mp silent active
    refine Or.inl ⟨?_, mute_untaken mute⟩
    rw [pollOne_handshaking (by simp [active, handshaking])]
    exact (pollHandshake_intact active x net now).advEdge
  · have acks : Sends net (pollOne t x net now).2 fun seg => seg.flags.ack = true := by
      refine built.mono ?_
      rintro seg ⟨u, flags, seq, off, len, mss, same, acks, _⟩
      exact acks.mpr active
    have unharmed : Failing net (pollOne t x net now).2 → (pollOne t x net now).1.advEdge = t.advEdge :=
      fun failing => ((pollOne_intact_iff t x net now failing).mpr (spared failing)).advEdge
    by_cases staying : t.state = .timeWait
    · have waits : pollOne t x net now = pollTimeWait t x net now := by
        unfold pollOne
        rw [staying]
      rw [waits] at tells acks unharmed ⊢
      exact follows tells acks (pollTimeWait_speaks x net now) unharmed
    · exact follows tells acks (pollOne_speaks active staying x net now) unharmed

private theorem handleAck_advEdge (t : MnTcp) (ack : UInt32) (now : UInt16) :
    (handleAck t ack now).advEdge = t.advEdge := by
  obtain same | ⟨acked, same⟩ := handleAck_socket t ack now <;> rw [same]
  rfl

/-- What arrives tells the peer nothing. -/
theorem synchronizedInput_advEdge (t : MnTcp) (x : XMem) (seg : TcpSeg) (now : UInt16) :
    (synchronizedInput t x seg now).1.advEdge = t.advEdge := by
  unfold synchronizedInput
  split
  · rfl
  split
  · obtain ⟨ooo, owed, same⟩ := outOfOrder_socket t seg
    dsimp only
    rw [handleAck_advEdge, same]
  · obtain ⟨count, next, owed, same⟩ :=
      takeData_socket { handleAck t seg.ack now with sndWnd := seg.wnd } x seg
    unfold inOrder
    dsimp only
    rw [same]
    have acked := handleAck_advEdge t seg.ack now
    split
    all_goals
      obtain rests | moves := finAcked_socket _
      · rw [rests]
        exact acked
      · rw [moves]
        exact acked

private theorem segmentInput_advEdge (t : MnTcp) (x : XMem) (seg : TcpSeg) (now : UInt16) :
    (segmentInput t x seg now).1.advEdge = t.advEdge := by
  have arrival := segmentInput_arrival t x seg now
  generalize segmentInput t x seg now = out at arrival
  cases arrival with
  | accepts | proceeds => exact synchronizedInput_advEdge ..
  | _ => rfl

/-- Besides opening a connection, every operation follows what the link took, or
leaves nothing to go by. -/
theorem exec_follows (c : Conn) (net : MnNet) (op : Op) (steady : ¬ Opens c op)
    (spared : Spared c net op)
    (on : awake (c.exec net op).1.t.state) : Follows c.t (c.exec net op).1.t net (c.exec net op).2 := by
  have quiet : takenEdges net net = [] := by
    rw [takenEdges, handed_since (Handed.refl net)]
    rfl
  by_cases polls : ∃ tick, op = .poll tick
  · obtain ⟨tick, rfl⟩ := polls
    exact pollOne_follows c.t c.x net tick spared
  have effect := exec_effect c net op
  generalize c.exec net op = out at effect on
  cases effect with
  | connects _ _ _ free => exact absurd free steady
  | listens _ free => exact absurd free steady
  | answers => exact absurd trivial steady
  | takes _ _ n =>
    obtain ⟨owed, same⟩ := afterRecv_socket c.t n
    dsimp only
    rw [same]
    exact Or.inl ⟨rfl, quiet⟩
  | drops | aborts => exact absurd rfl on.1
  | arrives seg => exact Or.inl ⟨segmentInput_advEdge c.t c.x seg c.now, quiet⟩
  | polls tick => exact absurd ⟨tick, rfl⟩ polls
  | idles | queues | asks | others => exact Or.inl ⟨rfl, quiet⟩

/-- A SYN|ACK that is taken tells the first edge, and one that waits none. -/
theorem passiveOpen_known (c : Conn) (net : MnNet) (src : Ip4) (seg : TcpSeg)
    (spared : Spared c net (.passiveOpen src seg)) : Known (c.exec net (.passiveOpen src seg)).1.t
      (takenEdges net (c.exec net (.passiveOpen src seg)).2) := by
  have tells := exec_tells c net (.passiveOpen src seg)
  simp only [Spared, Conn.exec, Core.passiveOpen, Conn.fresh] at spared tells ⊢
  obtain ⟨mss, _, started⟩ := startPassive_socket c.t net src seg c.now
  have fresh : (startPassive c.t net src seg c.now).advEdge = 0 ∧
      (startPassive c.t net src seg c.now).remoteIp = src := by
    rw [started]
    exact ⟨rfl, rfl⟩
  generalize startPassive c.t net src seg c.now = t at spared tells fresh ⊢
  have acks : Sends net (sendSyn t c.x net { syn := true, ack := true }).2 fun seg => seg.flags.ack =
      true := by
    rw [sendSyn_net]
    exact emit_sends net rfl
  have spoke := sendSyn_speaks (Speaks.nothing t net) c.x { syn := true, ack := true } rfl
  have unharmed : Failing net (sendSyn t c.x net { syn := true, ack := true }).2 →
      (sendSyn t c.x net { syn := true, ack := true }).1.advEdge = t.advEdge := by
    intro failing
    have unknown := spared failing
    rw [sendSyn_net] at failing
    obtain ⟨_, _, same⟩ := (emit_failing t c.x net _ t.iss 0 0 true failing).resolve_right
      fun sent => unknown (fresh.2 ▸ sent.1)
    unfold sendSyn
    dsimp only
    rw [same]
  rcases follows tells acks spoke unharmed with ⟨still, none⟩ | told
  · exact Or.inr ⟨still.trans fresh.1, none⟩
  · exact Or.inl told

theorem Heard.exec_known {h : Heard} (known : awake h.conn.t.state → Known h.conn.t h.edges)
    (run : Conn.Run h.conn) (net : MnNet) (op : Op) (enabled : h.conn.Enabled op)
    (spared : Spared h.conn net op)
    (on : awake (h.exec net op).conn.t.state) : Known (h.exec net op).conn.t (h.exec net op).edges := by
  have sock := run.socketInv
  unfold Heard.exec at on ⊢
  dsimp only at on ⊢
  by_cases opens : Opens h.conn op
  · rw [if_pos opens, List.nil_append]
    cases op with
    | passiveOpen src seg => exact passiveOpen_known h.conn net src seg spared
    | connect ip port tick =>
      rw [exec_connect, if_pos (show h.conn.t.state = .closed from opens)]
      obtain ⟨stat, same⟩ :=
        emit_mute { syn := true } rfl (startConnect h.conn.t net ip port tick) h.conn.x net _ 0 0 true
      refine Or.inr ⟨?_, mute_untaken ?_⟩
      · dsimp only [Conn.fresh]
        unfold sendSyn
        dsimp only
        rw [same]
        rfl
      · dsimp only [Conn.fresh]
        rw [sendSyn_net]
        exact emit_sends net rfl
    | listen port =>
      rw [exec_listen, if_pos (show h.conn.t.state = .closed ∧ port ≠ 0 from opens)] at on
      exact absurd rfl on.2
    | send | sendX | recv | recvX | close | abort | segment | poll | others => exact absurd opens id
  · rw [if_neg opens]
    have before := known (exec_awake sock net op enabled opens on)
    rcases exec_follows h.conn net op opens spared on with ⟨still, none⟩ | told
    · rwa [none, List.append_nil, Known, still]
    · exact Or.inl (List.mem_append_right _ told)

theorem Heard.SparedRun.run {h : Heard} (run : Heard.SparedRun h) : Conn.Run h.conn := by
  refine Reachable.invariant (motive := fun h : Heard => Conn.Run h.conn) ?_ ?_ run
  · exact fun h begun => .start begun.1
  · rintro h _ _ run ⟨net, op, enabled, _, rfl⟩
    exact run.next ⟨net, op, enabled, rfl⟩

theorem Heard.SparedRun.known {h : Heard} (run : Heard.SparedRun h) (on : awake h.conn.t.state) :
    Known h.conn.t h.edges := by
  refine Reachable.invariant (motive := fun h : Heard => awake h.conn.t.state →
    Known h.conn.t h.edges) ?_ ?_ run on
  · rintro h ⟨⟨⟨socks, n, base, member⟩, _⟩, _⟩ on
    obtain ⟨k, found⟩ := List.mem_iff_getElem?.mp member
    exact absurd (mnTcpInit_get? found).2.2.2.1 on.1
  · rintro h _ run known ⟨net, op, enabled, spared, rfl⟩ on
    exact Heard.exec_known known (Heard.SparedRun.run run) net op enabled spared on

/-- A poll during which the link refuses every frame or the next hop is unknown
leaves the connection intact exactly when it spares what is owed; and as long as
failing emissions are spared, the edge last told is one the link took. -/
theorem failed_emission_intact_iff (c : Conn) (net : MnNet) (tick : UInt16) (h : Heard) :
    (Shut c.t net (c.exec net (.poll tick)).2 →
      (Intact c.t (c.exec net (.poll tick)).1.t ↔ Spares c.t net tick)) ∧
    (Heard.SparedRun h → awake h.conn.t.state →
      h.conn.t.advEdge ∈ h.edges ∨ h.conn.t.advEdge = 0 ∧ h.edges = []) :=
  ⟨fun shut => pollOne_intact_iff c.t c.x net tick (shut_failing shut),
    fun run on => Heard.SparedRun.known run on⟩

/-- A link that refuses everything, the neighbour's MAC known. -/
def deafNet : MnNet := hostNet (fun _ => false) true

/-- A link in working order, the neighbour's MAC unknown. -/
def lostNet : MnNet := hostNet (fun _ => true) false

/-- The connection that told its peer of a closed window, its ring now read. -/
def drainedRing : Conn := (toldFull.exec goodNet (.recv 4096)).1

theorem drainedRing_run : Conn.Run drainedRing := toldFull_run.next ⟨goodNet, .recv 4096, trivial, rfl⟩

private theorem lostNet_unresolved : ¬ lostNet.Resolves drainedRing.t.remoteIp := by
  unfold MnNet.Resolves
  decide +kernel

instance (before after : MnNet) : Decidable (Failing before after) := by
  unfold Failing
  infer_instance

/-- A connection that has acknowledged the answer to its SYN. -/
def heardAck : Heard :=
  ((Heard.exec ⟨freshConn, []⟩ goodNet (.connect neighbour 80 65520)).exec goodNet
    (.segment synAck)).exec goodNet
    (.poll 65521)

theorem heardAck_run : Heard.SparedRun heardAck := by
  have begun : Heard.SparedRun ⟨freshConn, []⟩ := .start ⟨freshConn_begun, rfl⟩
  have opened := begun.next ⟨goodNet, .connect neighbour 80 65520, trivial, trivial, rfl⟩
  have answered := opened.next
    ⟨goodNet, .segment synAck, ⟨by decide +kernel, by decide +kernel⟩, trivial, rfl⟩
  exact answered.next
    ⟨goodNet, .poll 65521, trivial, fun failing => absurd failing (by decide +kernel), rfl⟩

theorem failed_emission_intact_iff_drainedRing :
    Intact drainedRing.t (drainedRing.exec lostNet (.poll 65522)).1.t ∧
      (heardAck.conn.t.advEdge ∈ heardAck.edges ∨ heardAck.conn.t.advEdge = 0 ∧
        heardAck.edges = []) := by
  obtain ⟨intact, told⟩ := failed_emission_intact_iff drainedRing lostNet 65522 heardAck
  have alone : due drainedRing.t 65522 = .alone := by decide +kernel
  refine ⟨(intact (Or.inr lostNet_unresolved)).mpr ?_,
    told heardAck_run (by unfold awake; decide +kernel)⟩
  rw [Spares, alone]
  exact lostNet_unresolved

/-- The news that the window is open again is refused by the link, forgotten, and
taken for told: a later poll has nothing to send. -/
theorem window_update_lost :
    Conn.Run drainedRing ∧ Shut drainedRing.t deafNet (drainedRing.exec deafNet (.poll 65522)).2 ∧
      ¬ Intact drainedRing.t (drainedRing.exec deafNet (.poll 65522)).1.t ∧
      handedSince goodNet ((drainedRing.exec deafNet (.poll 65522)).1.exec goodNet (.poll 65523)).2 =
        [] := by
  have owed : drainedRing.t.ackPending = true := by decide +kernel
  have forgotten : (drainedRing.exec deafNet (.poll 65522)).1.t.ackPending = false := by decide +kernel
  refine ⟨drainedRing_run, Or.inl (by decide +kernel), fun intact => ?_, by decide +kernel⟩
  rw [intact.ackPending owed] at forgotten
  cases forgotten

end MegaNet.TcpFailedEmission
