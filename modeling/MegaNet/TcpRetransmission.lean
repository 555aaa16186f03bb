import MegaNet.TcpTurns

/-! When the retransmission timer fires, and whether anything it should cover
is outstanding. -/
namespace MegaNet.TcpRetransmission
open MegaNet.Core TcpEmission TcpSocketInvariant TcpOutcomes TcpConnection TcpSetRuns TcpTurns

variable {w : World} {net : MnNet} {t : MnTcp} {i : Nat}

/-- The poll takes its retransmission branch on socket `i`: a retry is
counted, or the connection is given up. -/
def Retransmits (w : World) (net : MnNet) (i : Nat) (now : UInt16) (t : MnTcp) : Prop :=
  (turn w net i now t).1.retries ≠ t.retries ∨ (turn w net i now t).1.flags.timeout ≠ t.flags.timeout

instance : Decidable (Retransmits w net i now t) := by
  unfold Retransmits
  infer_instance

private theorem retransmit_counts (t : MnTcp) (x : XMem) (net : MnNet) (now : UInt16) :
    (retransmit t x net now).1.retries = t.retries + 1 := by
  have again := retransmit_retransmission t x net now
  generalize retransmit t x net now = out at again
  cases again with
  | times_out => rfl
  | data =>
    obtain ⟨edge, stat, same⟩ := emit_socket (resent t now) x net dataFlags t.sndUna 0 (oldest t) false
    rw [same]
    rfl
  | fin =>
    obtain ⟨edge, stat, same⟩ := emit_socket (resent t now) x net finFlags (t.sndNxt - 1) 0 0 false
    rw [same]
    rfl

/-- A retry is counted exactly when the timer's test says so. -/
theorem retransmits_iff_due (sync : synchronized t.state = true) (waiting : t.state ≠ .timeWait)
    (w : World) (net : MnNet) (i : Nat) (now : UInt16) :
    Retransmits w net i now t ↔ retransmitDue t now = true := by
  unfold Retransmits turn
  rw [pollOne_open sync waiting]
  split
  · rename_i due
    have counted : t.retries + 1 ≠ t.retries := by
      rw [ne_eq, ← UInt8.toNat_inj, UInt8.toNat_add, UInt8.toNat_one]
      have := t.retries.toNat_lt
      omega
    simp [due, retransmit_counts, counted]
  rename_i quiet
  split
  · obtain ⟨_, _, _, _, _, _, _, same⟩ := sendQueued_socket t w.x (turnNet w net i now) now
    simp [quiet, same]
  split
  · obtain ⟨edge, stat, same | same⟩ := sendFin_socket t w.x (turnNet w net i now) now
    · simp [quiet, same]
    · simp [quiet, same, finished]
  split
  · obtain ⟨edge, stat, owed, same⟩ := sendAck_socket t w.x (turnNet w net i now)
    simp [quiet, same]
  · simp [quiet]

/-- Our FIN is sent and acknowledged, and the timer of the last thing sent has
run out all the same. -/
def Settled (t : MnTcp) (now : UInt16) : Prop :=
  t.finSent = true ∧ t.sndUna = t.sndNxt ∧ t.rto ≤ now - t.sentAt

/-- In every run, a poll retransmits or gives up only with something
unacknowledged exactly when our FIN is not already acknowledged with the timer
still running out. -/
theorem retransmission_warranted_iff (run : World.Run w) (found : w.set.sock[i]? = some t)
    (sync : synchronized t.state = true) (waiting : t.state ≠ .timeWait) (net : MnNet) (now : UInt16) :
    (Retransmits w net i now t → t.sndUna ≠ t.sndNxt) ↔ ¬ Settled t now := by
  have inv := World.Run.socketInv run found
  rw [retransmits_iff_due sync waiting]
  simp only [Settled, retransmitDue, Bool.and_eq_true, Bool.or_eq_true, decide_eq_true_eq, ge_iff_le]
  constructor
  · rintro warranted ⟨fin, acked, late⟩
    exact warranted ⟨Or.inr fin, late⟩ acked
  · rintro unsettled ⟨outstanding, late⟩ acked
    refine unsettled ⟨?_, acked, late⟩
    rcases outstanding with flying | fin
    · -- Bytes in flight would lie between the two.
      by_contra open_
      have near := TcpSocketInvariant.outstanding inv sync
      simp only [open_, acked, UInt32.sub_self, if_false] at near
      exact flying (by rw [← UInt16.toNat_inj]; simpa using near.symm)
    · exact fin

/-- A byte of the peer's stream, with the acknowledgement of our FIN. -/
def peerByte (seq : UInt32) : TcpSeg := fromPeer 49156 seq 65539 { ack := true } 1000 [7] (by decide)

/-- A connection opened, closed on our side, its FIN out at tick 3 and
acknowledged. -/
def halfClosed : World :=
  World.execAll (freshWorld 1) [(goodNet, .connect 0 neighbour 80 1),
    (goodNet, .input neighbour (fromPeer 49156 1000 65538 { syn := true, ack := true } 1000 []
      nothing_fits)),
    (goodNet, .poll 2), (goodNet, .close 0), (goodNet, .poll 3),
      (goodNet, .input neighbour (peerByte 1001))]

theorem halfClosed_run : World.Run halfClosed := World.Run.execAll (freshWorld_run 1) _

theorem retransmission_warranted_iff_halfClosed :
    ∃ t, halfClosed.set.sock[0]? = some t ∧ t.state = .finWait2 ∧
      (Retransmits halfClosed goodNet 0 20 t → t.sndUna ≠ t.sndNxt) := by
  obtain ⟨t, found, state, early⟩ := socket_where halfClosed 0
    (fun t => t.state = .finWait2 ∧ ¬ t.rto ≤ 20 - t.sentAt) (by decide +kernel)
  exact ⟨t, found,
    state, (retransmission_warranted_iff halfClosed_run found (by simp [state, synchronized])
    (by simp [state]) goodNet 20).mpr fun settled => early settled.2.2⟩

/-- Thirty-one seconds on, the peer having sent a byte before each poll: five
retries later the connection is given up, with nothing unacknowledged. -/
theorem acknowledged_fin_times_out :
    ¬ ∀ (w : World) (net : MnNet) (i : Nat) (t : MnTcp) (now : UInt16), World.Run w →
      w.set.sock[i]? = some t → synchronized t.state = true → t.state ≠ .timeWait →
      (Retransmits w net i now t → t.sndUna ≠ t.sndNxt) := by
  intro warranted
  let waited := World.execAll halfClosed
    [(goodNet, .poll 53), (goodNet, .input neighbour (peerByte 1002)),
    (goodNet, .poll 153), (goodNet, .input neighbour (peerByte 1003)), (goodNet, .poll 353),
    (goodNet, .input neighbour (peerByte 1004)), (goodNet, .poll 753),
    (goodNet, .input neighbour (peerByte 1005)), (goodNet, .poll 1153)]
  obtain ⟨t, found, state, settled, _, _, gone⟩ := socket_where waited 0
    (fun t => t.state = .finWait2 ∧ t.sndUna = t.sndNxt ∧
      (turn waited goodNet 0 1553 t).1.state = .closed ∧
      (turn waited goodNet 0 1553 t).1.flags.timeout = true ∧ Retransmits waited goodNet 0 1553 t)
    (by decide +kernel)
  exact warranted waited goodNet 0 t 1553 (World.Run.execAll halfClosed_run _) found
    (by simp [state, synchronized]) (by simp [state]) gone settled

end MegaNet.TcpRetransmission
