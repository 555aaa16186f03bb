import MegaNet.TcpSendStream

/-! The receive stream of one connection whose peer sends one stream of bytes:
whatever order, repetition and overlap its segments arrive in, what the
application was given and what the receive ring holds are together the
stream's beginning, and `rcv_nxt` says how long a beginning. -/
namespace MegaNet.TcpRecvStream
open MegaNet.Core SerialNumber Words CircularBuffer XmemRings TcpEmission TcpSocketInvariant TcpOutcomes
  TcpPreservation TcpConnection TcpSendStream Transition

/-- The receive ring's bytes, from `pos` on. -/
def rcvWindow (t : MnTcp) (x : XMem) (pos len : Nat) : List UInt8 := window x (home t) 4096 pos len

/-- How many bytes of the stream have been stored. -/
def stored (t : MnTcp) (rcvd : List UInt8) : Nat := rcvd.length + t.rcvCount.toNat

/-- What was returned and what the ring holds are the stream's beginning, and
`rcv_nxt` stands after it and after the FIN, which comes at its end only. -/
structure RecvInv (t : MnTcp) (x : XMem) (rcvd stream : List UInt8) : Prop where
  within : stored t rcvd ≤ stream.length
  ring : rcvd ++ rcvWindow t x t.rcvHead.toNat t.rcvCount.toNat = stream.take (stored t rcvd)
  next : t.rcvNxt = place (t.irs + 1) (stored t rcvd + t.flags.eof.toNat)
  ended : t.flags.eof = true → stored t rcvd = stream.length

/-- A segment that repeats a piece of the stream: each byte of its payload is
the stream's at that byte's sequence number, a FIN stands at the stream's end. -/
structure Carries (stream : List UInt8) (irs : UInt32) (seg : TcpSeg) : Prop where
  data : ∀ (i : Nat) (byte : UInt8), seg.data[i]? = some byte →
    stream[(seg.seq + UInt32.ofNat i - irs - 1).toNat]? = some byte
  fin : seg.flags.fin = true → seg.seq + seg.dlen.toUInt32 = irs + 1 + UInt32.ofNat stream.length

/-- A segment of the peer's: a piece of its stream, or its SYN again, whatever
that carries, the sequence numbers not having come round to it. -/
def Consistent (stream : List UInt8) (irs : UInt32) (seg : TcpSeg) : Prop :=
  Carries stream irs seg ∨ seg.flags.syn = true ∧ seg.seq = irs ∧ stream.length + 2 < 2 ^ 32

/-- The fields the receive stream depends on. -/
def rcvSide (t : MnTcp) : UInt32 × UInt32 × UInt16 × UInt16 × Bool × Nat :=
  (t.irs, t.rcvNxt, t.rcvHead, t.rcvCount, t.flags.eof, home t)

theorem RecvInv.same (inv : RecvInv t x rcvd stream) (same : rcvSide u = rcvSide t) :
    RecvInv u x rcvd stream := by
  simp only [rcvSide, Prod.mk.injEq] at same
  obtain ⟨irs, next, head, count, eof, place⟩ := same
  have length : stored u rcvd = stored t rcvd := by rw [stored, stored, count]
  refine ⟨?_, ?_, ?_, ?_⟩
  · rw [length]
    exact inv.within
  · rw [length, rcvWindow, place, head, count]
    exact inv.ring
  · rw [length, next, irs, eof]
    exact inv.next
  · rw [length, eof]
    exact inv.ended

/-- Only the receive ring's cells matter. -/
theorem RecvInv.elsewhere (inv : RecvInv t x rcvd stream)
    (same : ∀ a, home t ≤ a → a < home t + 4096 → x' a = x a) : RecvInv t x' rcvd stream :=
  { inv with
    ring := by
      rw [← inv.ring, rcvWindow, rcvWindow]
      exact congrArg _ (window_congr (by decide) same) }

/-- A connection that has stored nothing yet is at the start of any stream. -/
theorem RecvInv.begun (t : MnTcp) (x : XMem) (stream : List UInt8) (empty : t.rcvCount = 0)
    (going : t.flags.eof = false) (next : t.rcvNxt = t.irs + 1) : RecvInv t x [] stream where
  within := by simp [stored, empty]
  ring := by simp [rcvWindow, stored, empty]
  next := by simp [stored, empty, going, next]
  ended := by simp [going]

/-- A stream may go on until its FIN has been heard. -/
theorem RecvInv.extend (inv : RecvInv t x rcvd stream) (more : List UInt8)
    (going : t.flags.eof = true → more = []) : RecvInv t x rcvd (stream ++ more) where
  within := by
    have := inv.within
    rw [List.length_append]
    omega
  ring := by
    rw [inv.ring, List.take_append_of_le_length inv.within]
  next := inv.next
  ended := fun eof => by
    rw [going eof, List.append_nil]
    exact inv.ended eof

/-! ## Segments -/

/-- The piece of the stream the next segment holds. -/
theorem Carries.next (carries : Carries stream irs seg) (at_ : seg.seq = place (irs + 1) n)
    (within : n ≤ stream.length) (short : stream.length < 2 ^ 32) :
    n + seg.data.length ≤ stream.length ∧ seg.data = (stream.drop n).take seg.data.length ∧
      (seg.flags.fin = true → n + seg.data.length = stream.length) := by
  have spot : ∀ i, seg.seq + UInt32.ofNat i - irs - 1 = UInt32.ofNat (n + i) := by
    intro i
    rw [at_, place, UInt32.ofNat_add]
    grind
  -- No payload byte lies past the end, the first that did would be at it.
  have inside : ∀ k ≤ seg.data.length, n + k ≤ stream.length := by
    intro k
    induction k with
    | zero => exact fun _ => within
    | succ k ih =>
      intro below
      have before := ih (by omega)
      have held := carries.data k _ (List.getElem?_eq_getElem (by omega))
      rw [spot, UInt32.toNat_ofNat', Nat.mod_eq_of_lt (by omega)] at held
      have := (List.getElem?_eq_some_iff.mp held).1
      omega
  have all := inside _ (Nat.le_refl _)
  refine ⟨all, ?_, fun fin => ?_⟩
  · apply List.ext_getElem?
    intro i
    by_cases below : i < seg.data.length
    · have held := carries.data i _ (List.getElem?_eq_getElem below)
      rw [spot, UInt32.toNat_ofNat', Nat.mod_eq_of_lt (by omega)] at held
      rw [List.getElem?_take_of_lt below, List.getElem?_drop, held, List.getElem?_eq_getElem below]
    · rw [List.getElem?_eq_none (by omega), List.getElem?_eq_none (by simp; omega)]
  · have last := carries.fin fin
    have dlen : seg.dlen.toUInt32 = UInt32.ofNat seg.data.length := by
      rw [← UInt32.ofNat_uInt16ToNat, dlen_toNat]
    rw [at_, dlen, ← place_add] at last
    exact place_inj (by omega) short last

theorem handleAck_rcvSide (t : MnTcp) (ack : UInt32) (now : UInt16) :
    rcvSide (handleAck t ack now) = rcvSide t := by
  obtain same | ⟨acked, same⟩ := handleAck_socket t ack now <;> rw [same]
  rfl

theorem outOfOrder_rcvSide (t : MnTcp) (seg : TcpSeg) : rcvSide (outOfOrder t seg) = rcvSide t := by
  obtain ⟨ooo, owed, same⟩ := outOfOrder_socket t seg
  rw [same]
  rfl

theorem finAcked_rcvSide (t : MnTcp) : rcvSide (finAcked t) = rcvSide t := by
  obtain same | same := finAcked_socket t <;> rw [same]
  rfl

/-- What is stored of the next payload is the stream's next bytes; a FIN is
reached only when everything before it is stored. -/
theorem takeData_receives (inv : RecvInv t x rcvd stream) (sock : SocketInv t now) (placed : Placed t)
    (sync : synchronized t.state = true) (carries : Carries stream t.irs seg) (at_ : seg.seq = t.rcvNxt)
    (short : stream.length < 2 ^ 32) :
    RecvInv (takeData t x seg).1 (takeData t x seg).2.1 rcvd stream ∧
      ((takeData t x seg).2.2 = true → (takeData t x seg).1.flags.eof = false ∧
        stored (takeData t x seg).1 rcvd = stream.length) := by
  have next := inv.next
  have within := inv.within
  have heard := sock.eof sync
  have room := sock.rcvCount
  cases eof : t.flags.eof with
  | true =>
    -- The FIN has been heard: no payload is stored, and no second FIN comes.
    rw [eof] at heard next
    have whole := inv.ended eof
    have nothing : (takeData t x seg).2.2 = seg.flags.fin ∧
        rcvSide (takeData t x seg).1 = rcvSide t ∧ (takeData t x seg).2.1 = x := by
      unfold takeData
      split
      · exact ⟨rfl, rfl, rfl⟩
      · rw [if_neg (by simp [storing_iff sync, ← heard])]
        exact ⟨rfl, rfl, rfl⟩
    obtain ⟨fin, side, pool⟩ := nothing
    rw [pool, fin]
    refine ⟨inv.same side, fun last => ?_⟩
    have ends := carries.fin last
    rw [at_, next, whole, ← UInt32.ofNat_uInt16ToNat, ← place_add] at ends
    have twice := place_eq_iff.mp (ends : place _ _ = place _ _)
    have := seg.dlen.toNat_lt
    simp only [Bool.toNat_true, Nat.ModEq] at twice
    omega
  | false =>
    rw [eof, Bool.toNat_false, Nat.add_zero] at next
    rw [eof] at heard
    obtain ⟨all, piece, last⟩ := carries.next (at_.trans next) within short
    unfold takeData
    split
    · rename_i none
      have empty : seg.data.length = 0 := by rw [← dlen_toNat, none, UInt16.toNat_zero]
      exact ⟨inv, fun fin => ⟨eof, by have := last fin; dsimp only; omega⟩⟩
    rw [if_pos ((storing_iff sync).mpr heard.symm)]
    obtain ⟨n, size, same⟩ := ringPut_spec sock placed x seg
    rw [same]
    have longer : (t.rcvCount + n).toNat = t.rcvCount.toNat + n.toNat := by
      rw [UInt16.toNat_add]
      omega
    have more : stored { t with rcvCount := t.rcvCount + n } rcvd = stored t rcvd + n.toNat := by
      simp only [stored, longer]
      omega
    have taken : (seg.data.take n.toNat).length = n.toNat := by
      rw [List.length_take]
      omega
    refine ⟨⟨?_, ?_, ?_, ?_⟩, ?_⟩
    · show stored { t with rcvCount := t.rcvCount + n } rcvd ≤ _
      rw [more]
      omega
    · show rcvd ++ window (deposit x (home t) 4096 (t.rcvHead.toNat + t.rcvCount.toNat)
        (seg.data.take n.toNat)) (home t) 4096 t.rcvHead.toNat (t.rcvCount + n).toNat =
          stream.take (stored { t with rcvCount := t.rcvCount + n } rcvd)
      have appended : window (deposit x (home t) 4096 (t.rcvHead.toNat + t.rcvCount.toNat)
          (seg.data.take n.toNat)) (home t) 4096 t.rcvHead.toNat
          (t.rcvCount.toNat + (seg.data.take n.toNat).length) =
          window x (home t) 4096 t.rcvHead.toNat t.rcvCount.toNat ++ seg.data.take n.toNat :=
        window_deposit_append (by omega)
      rw [taken] at appended
      rw [more, longer, appended, ← List.append_assoc]
      rw [show rcvd ++ window x (home t) 4096 t.rcvHead.toNat t.rcvCount.toNat =
        stream.take (stored t rcvd) from inv.ring, List.take_add, piece, List.take_take,
        Nat.min_eq_left (by omega)]
    · show t.rcvNxt + n.toUInt32 = place (t.irs + 1)
        (stored { t with rcvCount := t.rcvCount + n } rcvd + t.flags.eof.toNat)
      rw [more, eof, Bool.toNat_false, Nat.add_zero, place_add, ← next, UInt32.ofNat_uInt16ToNat]
    · intro ended
      simp [eof] at ended
    · intro fin
      simp only [Bool.and_eq_true, Bool.not_eq_true', decide_eq_false_iff_not, UInt16.lt_iff_toNat_lt,
        dlen_toNat] at fin
      refine ⟨eof, ?_⟩
      have := last fin.1
      show stored { t with rcvCount := t.rcvCount + n } rcvd = _
      rw [more]
      omega

private theorem takeFin_receives (inv : RecvInv t x rcvd stream) (going : t.flags.eof = false)
    (all : stored t rcvd = stream.length) : RecvInv (takeFin t) x rcvd stream where
  within := inv.within
  ring := inv.ring
  next := by
    have next := inv.next
    rw [going, Bool.toNat_false, Nat.add_zero] at next
    simp only [takeFin, next, Bool.toNat_true, place_succ, stored]
  ended := fun _ => all

private theorem inOrder_receives (inv : RecvInv t x rcvd stream) (sock : SocketInv t now)
    (placed : Placed t)
    (sync : synchronized t.state = true) (carries : Carries stream t.irs seg) (at_ : seg.seq = t.rcvNxt)
    (short : stream.length < 2 ^ 32) :
    RecvInv (inOrder t x seg now).1 (inOrder t x seg now).2 rcvd stream := by
  have side : rcvSide { handleAck t seg.ack now with sndWnd := seg.wnd } = rcvSide t :=
    handleAck_rcvSide t seg.ack now
  obtain ⟨counted, past⟩ := acked_keeps sock sync seg
  have at_home : Placed { handleAck t seg.ack now with sndWnd := seg.wnd } :=
    placed.settled (handleAck_settled t seg.ack now)
  have acked := inv.same side
  simp only [rcvSide, Prod.mk.injEq] at side
  obtain ⟨taken, whole⟩ := takeData_receives acked counted at_home past
    (side.1 ▸ carries) (at_.trans side.2.1.symm) short
  unfold inOrder
  dsimp only
  split
  · obtain ⟨going, all⟩ := whole ‹_›
    exact (takeFin_receives taken going all).same (finAcked_rcvSide _)
  · exact taken.same (finAcked_rcvSide _)

theorem inOrder_advances (sync : synchronized t.state = true) (x : XMem) (seg : TcpSeg) (now : UInt16) :
    (inOrder t x seg now).1.rcvCount = t.rcvCount + taken t seg ∧
      (inOrder t x seg now).1.rcvNxt =
        t.rcvNxt + (taken t seg).toUInt32 + (if reachesFin t seg then 1 else 0) ∧
      (inOrder t x seg now).1.rcvHead = t.rcvHead := by
  have side := finAcked_rcvSide
    (if reachesFin t seg then takeFin (received t seg now) else received t seg now)
  simp only [rcvSide, Prod.mk.injEq] at side
  have head : (handleAck t seg.ack now).rcvHead = t.rcvHead := by
    obtain same | ⟨acked, same⟩ := handleAck_socket t seg.ack now <;> rw [same]
    rfl
  rw [(inOrder_eq sync x seg now).1, side.2.1, side.2.2.1, side.2.2.2.1]
  split
  · exact ⟨rfl, rfl, head⟩
  · exact ⟨rfl, (UInt32.add_zero _).symm, head⟩

/-- As much of a payload as fits is appended to the ring. -/
theorem takeData_appends (sock : SocketInv t now) (placed : Placed t)
    (sync : synchronized t.state = true)
    (x : XMem) (seg : TcpSeg) :
    rcvWindow t (takeData t x seg).2.1 t.rcvHead.toNat (t.rcvCount.toNat + (taken t seg).toNat) =
      rcvWindow t x t.rcvHead.toNat t.rcvCount.toNat ++ seg.data.take (taken t seg).toNat := by
  have room := sock.rcvCount
  by_cases nothing : taken t seg = 0
  · rw [(takeData_eq sync x seg).2.2 nothing, nothing]
    simp
  have silent : heardFin t.state = false := by
    by_contra heard
    exact nothing (by simp [taken, heard])
  have some_ : seg.dlen ≠ 0 := by
    intro empty
    have least := taken_le t seg
    rw [empty, UInt16.toNat_zero] at least
    exact nothing (eq_zero_of_toNat (by omega))
  obtain ⟨n, size, same⟩ := ringPut_spec sock placed x seg
  have all : (taken t seg).toNat = n.toNat := by
    have clamped := toNat_clamp seg.dlen (rcvFree t)
    rw [taken, silent, if_neg Bool.false_ne_true, clamped, dlen_toNat, rcvFree_toNat sock, size]
  have length : (seg.data.take n.toNat).length = n.toNat := by
    rw [List.length_take]
    omega
  have appended : window
    (deposit x (home t) 4096 (t.rcvHead.toNat + t.rcvCount.toNat) (seg.data.take n.toNat))
      (home t) 4096 t.rcvHead.toNat (t.rcvCount.toNat + (seg.data.take n.toNat).length) =
      window x (home t) 4096 t.rcvHead.toNat t.rcvCount.toNat ++ seg.data.take n.toNat :=
    window_deposit_append (by omega)
  rw [length] at appended
  unfold takeData
  rw [if_neg some_, if_pos ((storing_iff sync).mpr silent), same, all]
  exact appended

theorem inOrder_appends (sock : SocketInv t now) (placed : Placed t) (sync : synchronized t.state = true)
    (x : XMem) (seg : TcpSeg) :
    rcvWindow t (inOrder t x seg now).2 t.rcvHead.toNat (t.rcvCount.toNat + (taken t seg).toNat) =
      rcvWindow t x t.rcvHead.toNat t.rcvCount.toNat ++ seg.data.take (taken t seg).toNat := by
  obtain ⟨counted, past⟩ := acked_keeps sock sync seg
  have at_home : Placed { handleAck t seg.ack now with sndWnd := seg.wnd } :=
    placed.settled (handleAck_settled t seg.ack now)
  have side : rcvSide { handleAck t seg.ack now with sndWnd := seg.wnd } = rcvSide t :=
    handleAck_rcvSide t seg.ack now
  simp only [rcvSide, Prod.mk.injEq] at side
  obtain ⟨_, _, head, count, _, place⟩ := side
  have stored : taken { handleAck t seg.ack now with sndWnd := seg.wnd } seg = taken t seg :=
    taken_congr (handleAck_state t seg.ack now) count seg
  have appended := takeData_appends counted at_home past x seg
  rwa [head, count, stored, rcvWindow, rcvWindow, place] at appended

/-- The next segment the peer's stream has is a piece of it, and no SYN. -/
theorem Consistent.next (consistent : Consistent stream t.irs seg) (inv : RecvInv t x rcvd stream)
    (at_ : seg.seq = t.rcvNxt) : Carries stream t.irs seg := by
  refine consistent.resolve_right fun ⟨_, first, short⟩ => ?_
  have within := inv.within
  have again : place t.irs 0 = place t.irs (1 + (stored t rcvd + t.flags.eof.toNat)) := by
    rw [place_zero, ← place_place]
    exact first.symm.trans (at_.trans inv.next)
  have round := place_eq_iff.mp again
  have := t.flags.eof.toNat_le
  unfold Nat.ModEq at round
  omega

private theorem synchronizedInput_receives (inv : RecvInv t x rcvd stream) (sock : SocketInv t now)
    (placed : Placed t) (sync : synchronized t.state = true) (consistent : Consistent stream t.irs seg)
    (short : stream.length < 2 ^ 32) :
    RecvInv (synchronizedInput t x seg now).1 (synchronizedInput t x seg now).2 rcvd stream := by
  unfold synchronizedInput
  split
  · exact inv
  split
  · exact inv.same ((handleAck_rcvSide _ _ _).trans (outOfOrder_rcvSide t seg))
  · rename_i next
    have at_ : seg.seq = t.rcvNxt := not_not.mp next
    exact inOrder_receives inv sock placed sync (consistent.next inv at_) at_ short

/-- A segment of the peer's, once its first sequence number is known. -/
theorem segmentInput_receives (inv : RecvInv t x rcvd stream) (sock : SocketInv t now)
    (placed : Placed t)
    (owned : t.state ≠ .closed ∧ t.state ≠ .listen) (known : t.state ≠ .synSent)
    (consistent : Consistent stream t.irs seg) (short : stream.length < 2 ^ 32) :
    RecvInv (segmentInput t x seg now).1 (segmentInput t x seg now).2 rcvd stream := by
  have counted : RecvInv { t with statRxSeg := t.statRxSeg + 1 } x rcvd stream := { inv with }
  have kept : SocketInv { t with statRxSeg := t.statRxSeg + 1 } now := { sock with }
  have at_home : Placed { t with statRxSeg := t.statRxSeg + 1 } := { placed with }
  have arrival := segmentInput_arrival t x seg now
  generalize segmentInput t x seg now = out at arrival
  cases arrival with
  | ignored => exact counted
  | reset flags eof =>
    refine counted.same ?_
    simp [rcvSide, eof, home]
  | relistens state =>
    have going := kept.going (congrArg handshaking state)
    refine counted.same ?_
    simp only at going
    simp [rcvSide, going, home]
  | connects state => exact absurd state known
  | synAgain => exact { counted with }
  | accepts state =>
    have opened : RecvInv (accepted { t with statRxSeg := t.statRxSeg + 1 }) x rcvd stream :=
      { counted with }
    exact synchronizedInput_receives opened (accepted_keeps kept state)
      { at_home with } rfl consistent short
  | proceeds past =>
    exact synchronizedInput_receives counted kept at_home (awake_past owned past) consistent short

/-- A segment in SYN_SENT establishes the connection, with nothing stored of
any stream, or stores nothing. -/
theorem synSent_receives (sock : SocketInv t now) (state : t.state = .synSent) (x : XMem) (seg : TcpSeg)
    (stream : List UInt8) :
    let u := (segmentInput t x seg now).1
    u.rcvCount = 0 ∧ u.flags.eof = false ∧
      (synchronized u.state = true ∧ RecvInv u (segmentInput t x seg now).2 [] stream ∨
        u.state = .synSent ∨ u.state = .closed) := by
  obtain ⟨_, _, _, _, _, _, empty, going⟩ := sock.handshake (by simp [state, handshaking])
  have arrival := segmentInput_arrival t x seg now
  generalize segmentInput t x seg now = out at arrival
  dsimp only
  cases arrival with
  | ignored => exact ⟨empty, going, Or.inr (Or.inl state)⟩
  | reset flags eof => exact ⟨empty, eof.trans going, Or.inr (Or.inr rfl)⟩
  | connects => exact ⟨empty, going, Or.inl ⟨rfl, RecvInv.begun _ x stream empty going rfl⟩⟩
  | relistens passive | synAgain passive | accepts passive =>
    exact absurd (state.symm.trans passive) (by decide)
  | proceeds past => exact absurd state past.1

/-! ## Calls -/

/-- Returning the oldest bytes moves them from the ring to what was returned. -/
theorem afterRecv_receives (inv : RecvInv t x rcvd stream) (sock : SocketInv t now) (n : UInt16)
    (held : n.toNat ≤ t.rcvCount.toNat) :
    RecvInv (afterRecv t n) x (rcvd ++ rcvWindow t x t.rcvHead.toNat n.toNat) stream := by
  have head := sock.rcvHead
  have count := sock.rcvCount
  have fewer := toNat_less held
  have moved : ((t.rcvHead + n) % MN_TCP_RCVBUF).toNat = (t.rcvHead.toNat + n.toNat) % 4096 := by
    rw [UInt16.toNat_mod, UInt16.toNat_add, rcvbuf_toNat]
    omega
  have total : stored { t with rcvCount := t.rcvCount - n }
    (rcvd ++ rcvWindow t x t.rcvHead.toNat n.toNat) =
      stored t rcvd := by
    simp only [stored, fewer, List.length_append, rcvWindow, window_length]
    omega
  have shifted : RecvInv
    { t with rcvHead := (t.rcvHead + n) % MN_TCP_RCVBUF, rcvCount := t.rcvCount - n } x
      (rcvd ++ rcvWindow t x t.rcvHead.toNat n.toNat) stream := by
    refine ⟨?_, ?_, ?_, ?_⟩
    · exact total ▸ inv.within
    · show _ ++ window x (home t) 4096 ((t.rcvHead + n) % MN_TCP_RCVBUF).toNat (t.rcvCount - n).toNat =
        stream.take (stored { t with rcvCount := t.rcvCount - n } _)
      rw [total, ← inv.ring, moved, fewer, window_mod, List.append_assoc, rcvWindow, ← window_append,
        Nat.add_sub_cancel' held]
      rfl
    · exact total ▸ inv.next
    · exact total ▸ inv.ended
  obtain ⟨owed, same⟩ := afterRecv_socket t n
  rw [same]
  exact shifted.same rfl

/-! ## States and polls -/

theorem synchronizedInput_state (sync : synchronized t.state = true) (x : XMem) (seg : TcpSeg)
    (now : UInt16) : synchronized (synchronizedInput t x seg now).1.state = true ∨
      (synchronizedInput t x seg now).1.state = .closed := by
  have fin : ∀ u, synchronized u.state = true →
      synchronized (finAcked u).state = true ∨ (finAcked u).state = .closed := by
    intro u sync
    obtain same | same := finAcked_socket u <;> rw [same]
    · exact Or.inl sync
    · exact (afterFinAcked_cases sync).symm.imp_left And.left
  unfold synchronizedInput
  split
  · exact Or.inl sync
  split
  · obtain ⟨ooo, owed, same⟩ := outOfOrder_socket t seg
    rw [handleAck_state, same]
    exact Or.inl sync
  · have state : (takeData { handleAck t seg.ack now with sndWnd := seg.wnd } x seg).1.state = t.state :=
      (takeData_state _ x seg).trans (handleAck_state t seg.ack now)
    unfold inOrder
    dsimp only
    split
    · exact fin _ (by simpa [takeFin, state] using sync)
    · exact fin _ (state ▸ sync)

/-- A segment takes a state onward, or ends the handshake. -/
theorem segmentInput_onward (owned : t.state ≠ .closed ∧ t.state ≠ .listen) (x : XMem) (seg : TcpSeg)
    (now : UInt16) : Onward t.state (segmentInput t x seg now).1.state ∨
      handshaking t.state = true ∧ synchronized (segmentInput t x seg now).1.state = true := by
  have arrival := segmentInput_arrival t x seg now
  generalize segmentInput t x seg now = out at arrival
  cases arrival with
  | ignored | synAgain => exact Or.inl (Onward.refl _)
  | reset => exact Or.inl (Onward.closed _)
  | relistens state => exact Or.inl (Or.inr (Or.inr (Or.inl ⟨state, rfl⟩)))
  | connects state => exact Or.inr ⟨congrArg handshaking state, rfl⟩
  | accepts state =>
    rcases synchronizedInput_state (t := accepted { t with statRxSeg := t.statRxSeg + 1 }) rfl x seg now
      with sync | closed
    · exact Or.inr ⟨congrArg handshaking state, sync⟩
    · exact Or.inl (Or.inr (Or.inl closed))
  | proceeds past =>
    have sync := awake_past owned past
    rcases synchronizedInput_state (t := { t with statRxSeg := t.statRxSeg + 1 }) sync x seg now
      with after | closed
    · exact Or.inl (Or.inr (Or.inr (Or.inr ⟨sync, after⟩)))
    · exact Or.inl (Or.inr (Or.inl closed))

/-- The socket is still where it was, or at rest, or further on, and says the
same of the peer's FIN. -/
def Steady (t u : MnTcp) : Prop := Onward t.state u.state ∧ u.flags.eof = t.flags.eof

theorem pollOne_steady (sock : SocketInv t now) (x : XMem) (net : MnNet) (tick : UInt16) :
    Steady t (pollOne t x net tick).1 := by
  have polled := pollOne_polled t x net tick
  generalize (pollOne t x net tick).1 = u at polled
  cases polled with
  | relistens passive =>
    exact ⟨Or.inr (Or.inr (Or.inl ⟨passive, rfl⟩)), (sock.going (congrArg handshaking passive)).symm⟩
  | gives_up | expires => exact ⟨Onward.closed _, rfl⟩
  | finishes sync =>
    refine ⟨Or.inr (Or.inr (Or.inr ⟨sync, ?_⟩)), rfl⟩
    simp only [finished]
    split <;> rfl
  | _ => exact ⟨Onward.refl _, rfl⟩

theorem pollOne_rcvSide (sock : SocketInv t now) (x : XMem) (net : MnNet) (tick : UInt16) :
    rcvSide (pollOne t x net tick).1 = rcvSide t := by
  have same := pollOne_kept t x net tick
  have place := rings_home (identity_rings (kept_identity same))
  simp only [kept, Kept.mk.injEq] at same
  simp [rcvSide, same, place, (pollOne_steady sock x net tick).2]

/-! ## A whole run -/

variable {c d : Conn} {stream : List UInt8}

/-- The bytes that wait in the receive ring, which `mn_tcp_recv` would return if
asked for everything. -/
def unread (c : Conn) : List UInt8 :=
  ringRead c.x c.t.xseg c.t.rcvbuf MN_TCP_RCVBUF c.t.rcvHead c.t.rcvCount

theorem unread_length (c : Conn) : (unread c).length = c.t.rcvCount.toNat := ringRead_length ..

theorem unread_window (sock : SocketInv c.t c.now) (placed : Placed c.t) :
    unread c = rcvWindow c.t c.x c.t.rcvHead.toNat c.t.rcvCount.toNat :=
  ringRead_window (by have := placed.fits; rw [rcvbuf_toNat]; omega) sock.rcvHead
    (by have := sock.rcvCount; rw [rcvbuf_toNat]; omega)

/-- The receive stream of a connection, whose peer sends `stream`. -/
structure Received (c : Conn) (stream : List UInt8) : Prop where
  unknown : c.known = false → c.rcvd = [] ∧ c.t.rcvCount = 0 ∧ c.t.flags.eof = false
  known : c.known = true → RecvInv c.t c.x c.rcvd stream
  quiet : c.t.state = .synSent → c.known = false
  learnt : c.t.state = .synRcvd ∨ synchronized c.t.state = true → c.known = true

/-- What leaves the receive side alone leaves the receive stream as it is. -/
theorem Received.carried (rec : Received c stream) (side : rcvSide d.t = rcvSide c.t)
    (known : d.known = c.known) (rcvd : d.rcvd = c.rcvd)
    (cells : ∀ a, home c.t ≤ a → a < home c.t + 4096 → d.x a = c.x a)
    (onward : Onward c.t.state d.t.state) : Received d stream where
  unknown := fun un => by
    have before := rec.unknown (known ▸ un)
    simp only [rcvSide, Prod.mk.injEq] at side
    rw [rcvd, side.2.2.2.1, side.2.2.2.2.1]
    exact before
  known := fun on => by
    rw [rcvd]
    exact ((rec.known (known ▸ on)).elsewhere cells).same side
  quiet := fun opening => by
    rw [opening] at onward
    rw [known]
    simp only [Onward, reduceCtorEq, synchronized, and_false, or_false] at onward
    exact rec.quiet onward.symm
  learnt := fun far => by
    rw [known]
    refine rec.learnt ?_
    rcases onward with same | rest | ⟨_, rest⟩ | ⟨sync, _⟩
    · rwa [same] at far
    · simp [rest, synchronized] at far
    · simp [rest, synchronized] at far
    · exact Or.inr sync

/-- Opening a connection: the peer's stream is yet to come. -/
def Opens (c : Conn) : Op → Prop
  | .connect .. => c.t.state = .closed
  | .listen port => c.t.state = .closed ∧ port ≠ 0
  | .passiveOpen .. => True
  | _ => False

instance : (c : Conn) → (op : Op) → Decidable (Opens c op)
  | c, .connect .. => inferInstanceAs (Decidable (c.t.state = .closed))
  | c, .listen port => inferInstanceAs (Decidable (c.t.state = .closed ∧ port ≠ 0))
  | _, .passiveOpen .. => isTrue trivial
  | _, .send .. | _, .sendX .. | _, .recv .. | _, .recvX .. | _, .close | _, .abort | _,
      .segment .. | _, .poll ..
  | _, .others .. =>
    isFalse id

private theorem exec_opens (c : Conn) (net : MnNet) (op : Op) (opens : Opens c op)
    (stream : List UInt8) :
    Received (c.exec net op).1 stream := by
  cases op with
  | connect ip port tick =>
    obtain ⟨edge, stat, pending, same⟩ :=
      sendSyn_socket (startConnect c.t net ip port tick) c.x net { syn := true }
    rw [exec_connect, if_pos (show c.t.state = .closed from opens), same]
    exact ⟨fun _ => ⟨rfl, rfl, rfl⟩, fun on => Bool.noConfusion on, fun _ => rfl,
      fun far => by simp [Conn.fresh, startConnect, synchronized] at far⟩
  | listen port =>
    rw [exec_listen, if_pos (show c.t.state = .closed ∧ port ≠ 0 from opens)]
    exact ⟨fun _ => ⟨rfl, rfl, rfl⟩, fun on => Bool.noConfusion on, fun _ => rfl,
      fun far => by simp [Conn.fresh, synchronized] at far⟩
  | passiveOpen src seg =>
    obtain ⟨mss, _, started⟩ := startPassive_socket c.t net src seg c.now
    obtain ⟨edge, stat, pending, same⟩ :=
      sendSyn_socket (startPassive c.t net src seg c.now) c.x net { syn := true, ack := true }
    simp only [Conn.exec, Core.passiveOpen]
    rw [same, started]
    exact ⟨fun un => Bool.noConfusion un, fun _ => RecvInv.begun _ c.x stream rfl rfl rfl,
      fun opening => TcpState.noConfusion opening, fun _ => rfl⟩
  | send | sendX | recv | recvX | close | abort | segment | poll | others => exact absurd opens id

private theorem segment_receives (rec : Received c stream) (sock : SocketInv c.t c.now)
    (placed : Placed c.t)
    (owned : c.t.state ≠ .closed ∧ c.t.state ≠ .listen) (seg : TcpSeg)
    (consistent : c.t.state ≠ .synSent → Consistent stream c.t.irs seg) (short : stream.length < 2 ^ 32)
    (net : MnNet) : Received (c.exec net (.segment seg)).1 stream := by
  by_cases opening : c.t.state = .synSent
  · have unknown := rec.quiet opening
    obtain ⟨none, _, _⟩ := rec.unknown unknown
    obtain ⟨empty, going, landed⟩ := synSent_receives sock opening c.x seg stream
    simp only [Conn.exec, unknown, none, Bool.false_or]
    generalize segmentInput c.t c.x seg c.now = out at empty going landed
    obtain ⟨u, x⟩ := out
    dsimp only at empty going landed ⊢
    rcases landed with ⟨sync, begun⟩ | still | closed
    · exact ⟨fun un => by simp [sync] at un, fun _ => begun,
        fun opening => absurd (opening ▸ sync : synchronized .synSent = true) (by decide), fun _ => sync⟩
    · exact ⟨fun _ => ⟨rfl, empty, going⟩, fun on => by simp [still, synchronized] at on,
        fun _ => by simp [still, synchronized], fun far => by simp [still, synchronized] at far⟩
    · exact ⟨fun _ => ⟨rfl, empty, going⟩, fun on => by simp [closed, synchronized] at on,
        fun _ => by simp [closed, synchronized], fun far => by simp [closed, synchronized] at far⟩
  · have known : c.known = true := by
      refine rec.learnt ?_
      obtain ⟨open_, idle⟩ := owned
      revert open_ idle opening
      cases c.t.state <;> simp [synchronized]
    have inv := segmentInput_receives (rec.known known) sock placed owned opening
      (consistent opening) short
    simp only [Conn.exec, known, Bool.true_or]
    exact ⟨fun un => Bool.noConfusion un, fun _ => inv,
      fun back => absurd back (Onward.not_synSent (segmentInput_onward owned c.x seg c.now) opening),
        fun _ => rfl⟩

private theorem recv_receives (rec : Received c stream) (sock : SocketInv c.t c.now) (n : UInt16)
    (held : n.toNat ≤ c.t.rcvCount.toNat) :
    Received { c with
      t := afterRecv c.t n
      rcvd := c.rcvd ++ rcvWindow c.t c.x c.t.rcvHead.toNat n.toNat } stream := by
  obtain ⟨owed, same⟩ := afterRecv_socket c.t n
  refine ⟨fun un => ?_, fun on => afterRecv_receives (rec.known on) sock _ held, ?_, ?_⟩
  · obtain ⟨none, empty, going⟩ := rec.unknown un
    have zero : n = 0 := eq_zero_of_toNat (by simpa [empty] using held)
    rw [none, same, zero]
    exact ⟨rfl, by simp [empty], going⟩
  · rw [same]
    exact rec.quiet
  · rw [same]
    exact rec.learnt

/-- Whatever happens to a connection, segments of the peer's stream apart, its
receive stream is as it should be. -/
theorem exec_receives (rec : Received c stream) (sock : SocketInv c.t c.now) (placed : Placed c.t)
    (net : MnNet) (op : Op) (enabled : c.Enabled op)
    (consistent : ∀ seg, op = .segment seg → c.t.state ≠ .synSent → Consistent stream c.t.irs seg)
    (short : stream.length < 2 ^ 32) : Received (c.exec net op).1 stream := by
  have effect := exec_effect c net op
  generalize c.exec net op = out at effect
  cases effect with
  | idles => exact rec
  | connects ip port tick free =>
    have opened := exec_opens c net (.connect ip port tick) free stream
    rwa [exec_connect, if_pos free] at opened
  | listens port free =>
    have opened := exec_opens c net (.listen port) free stream
    rwa [exec_listen, if_pos free] at opened
  | answers src seg => exact exec_opens c net (.passiveOpen src seg) trivial stream
  | queues _ data n len room _ held =>
    have fits : n.toNat ≤ 3072 := by
      have := sendRoom_le sock len
      rw [← room] at this
      omega
    exact rec.carried rfl rfl rfl
      (fun a _ high => sndRing_outside placed c.x data n (held enabled) fits a (Or.inl high))
        (Onward.refl _)
  | takes _ bytes n held exact_ =>
    have window : bytes = rcvWindow c.t c.x c.t.rcvHead.toNat n.toNat := by
      have fits := placed.fits
      have count := sock.rcvCount
      rw [exact_ sock.rcvHead]
      exact ringRead_window (by rw [rcvbuf_toNat]; omega) sock.rcvHead (by rw [rcvbuf_toNat]; omega)
    rw [window]
    exact recv_receives rec sock n held
  | asks => exact rec.carried rfl rfl rfl (fun _ _ _ => rfl) (Onward.refl _)
  | drops | aborts => exact rec.carried rfl rfl rfl (fun _ _ _ => rfl) (Onward.closed _)
  | arrives seg => exact segment_receives rec sock placed enabled seg (consistent seg rfl) short net
  | polls tick =>
    exact rec.carried (pollOne_rcvSide sock c.x net tick) rfl rfl (fun _ _ _ => rfl)
      (pollOne_steady sock c.x net tick).1
  | others x =>
    exact rec.carried rfl rfl rfl (fun a low high => enabled a low (by omega)) (Onward.refl _)

/-- A connection and the stream its peer sends. -/
structure Served where
  conn : Conn
  stream : List UInt8

def Served.Begun (s : Served) : Prop := Conn.Begun s.conn ∧ s.stream.length < 2 ^ 32

/-- Anything may happen to the connection, and every segment that arrives is
of the peer's stream. A new connection has a stream of its own. -/
def Served.Step (s s' : Served) : Prop :=
  ∃ net op, s.conn.Enabled op ∧ s'.conn = (s.conn.exec net op).1 ∧
    (∀ seg, op = .segment seg → s.conn.t.state ≠ .synSent → Consistent s.stream s.conn.t.irs seg) ∧
    (s'.stream = s.stream ∨ Opens s.conn op) ∧ s'.stream.length < 2 ^ 32

def Served.Run : Served → Prop := Reachable Served.Begun Served.Step

variable {s : Served}

theorem Served.Run.conn (run : Served.Run s) : Conn.Run s.conn := by
  refine Reachable.invariant (motive := fun s : Served => Conn.Run s.conn) ?_ ?_ run
  · exact fun s begun => .start begun.1
  · rintro s s' _ run ⟨net, op, enabled, same, _⟩
    exact run.next ⟨net, op, enabled, same⟩

theorem Served.Run.short (run : Served.Run s) : s.stream.length < 2 ^ 32 := by
  cases run with
  | start begun => exact begun.2
  | next _ step =>
    obtain ⟨_, _, _, _, _, _, short⟩ := step
    exact short

theorem Served.Run.keep (run : Served.Run s) (net : MnNet) (op : Op) (enabled : s.conn.Enabled op)
    (consistent : ∀ seg, op = .segment seg → s.conn.t.state ≠ .synSent →
      Consistent s.stream s.conn.t.irs seg) : Served.Run ⟨(s.conn.exec net op).1, s.stream⟩ := by
  have short := Served.Run.short run
  exact run.next ⟨net, op, enabled, rfl, consistent, Or.inl rfl, short⟩

/-- A connection's receive stream in every state of its life. -/
theorem Served.Run.received (run : Served.Run s) : Received s.conn s.stream := by
  refine Reachable.invariant (motive := fun s : Served => Received s.conn s.stream) ?_ ?_ run
  · rintro s ⟨⟨⟨socks, n, base, member⟩, _, _, none, unknown⟩, _⟩
    obtain ⟨k, found⟩ := List.mem_iff_getElem?.mp member
    obtain ⟨_, _, _, closed, empty, going⟩ := mnTcpInit_get? found
    exact ⟨fun _ => ⟨none, empty, going⟩, fun on => by simp [unknown] at on, fun _ => unknown,
      fun far => by simp [closed, synchronized] at far⟩
  · rintro s s' run rec ⟨net, op, enabled, same, consistent, stream, _⟩
    rw [same]
    rcases stream with still | opens
    · rw [still]
      exact exec_receives rec (Served.Run.conn run).socketInv (Served.Run.conn run).placed net op enabled
        consistent (Served.Run.short run)
    · exact exec_opens s.conn net op opens s'.stream

/-- While the segments that arrive are of one stream, what was returned and
what the ring holds are its beginning, `rcv_nxt` says how much of it, the FIN
is reported at its end only, and an acknowledgement that goes out is
`rcv_nxt`. Until the peer's SYN has come nothing is stored. -/
theorem receive_stream_integrity (run : Served.Run s) :
    (s.conn.known = true → ∃ n ≤ s.stream.length,
      s.conn.rcvd ++ ringRead s.conn.x s.conn.t.xseg s.conn.t.rcvbuf MN_TCP_RCVBUF s.conn.t.rcvHead
        s.conn.t.rcvCount = s.stream.take n ∧
      s.conn.t.rcvNxt = place (s.conn.t.irs + 1) (n + s.conn.t.flags.eof.toNat) ∧
      (s.conn.t.flags.eof = true → n = s.stream.length)) ∧
    (s.conn.known = false → s.conn.rcvd = [] ∧ s.conn.t.rcvCount = 0 ∧ s.conn.t.flags.eof = false) ∧
    (s.conn.t.state = .synRcvd ∨ synchronized s.conn.t.state = true → s.conn.known = true) ∧
    ∀ net op, ∀ seg ∈ segmentsHanded net (s.conn.exec net op).2, seg.flags.ack = true →
      seg.ack = (s.conn.exec net op).1.t.rcvNxt := by
  have received := Served.Run.received run
  have connected := Served.Run.conn run
  refine ⟨fun known => ?_, received.unknown, received.learnt, fun net op seg member acks =>
    ((exec_issues connected net op).segments seg member).ack acks⟩
  have inv := received.known known
  have read := unread_window connected.socketInv connected.placed
  rw [unread] at read
  rw [read]
  exact ⟨_, inv.within, inv.ring, inv.next, inv.ended⟩

/-- The first two bytes of the neighbour's three. -/
def firstTwo : TcpSeg := fromPeer 53201 1001 4293918722 { ack := true } 1000 [7, 8] (by decide)

/-- A connection those two bytes have come in on. -/
def twoArrived : Served where
  conn := (((freshConn.exec goodNet (.connect neighbour 80 65520)).1.exec goodNet
    (.segment synAck)).1.exec
    goodNet (.segment firstTwo)).1
  stream := [7, 8, 9]

private theorem firstTwo_consistent : Consistent [7, 8, 9] 1000 firstTwo := by
  refine Or.inl ⟨?_, by decide⟩
  rintro (_ | _ | i) byte held
  · exact held
  · exact held
  · simp [firstTwo, fromPeer] at held

theorem twoArrived_run : Served.Run twoArrived := by
  have begun : Served.Run ⟨freshConn, [7, 8, 9]⟩ :=
    .start ⟨freshConn_begun, by decide⟩
  have opened := Served.Run.keep begun goodNet (.connect neighbour 80 65520) trivial
    fun seg same => by cases same
  have answered := Served.Run.keep opened goodNet (.segment synAck)
    ⟨by decide +kernel, by decide +kernel⟩
    fun seg _ later => absurd (by decide +kernel) later
  refine Served.Run.keep answered goodNet (.segment firstTwo) ⟨by decide +kernel, by decide +kernel⟩ ?_
  intro seg same _
  cases same
  have irs : (((freshConn.exec goodNet (.connect neighbour 80 65520)).1.exec goodNet
    (.segment synAck)).1.t.irs) = 1000 := by decide +kernel
  rw [irs]
  exact firstTwo_consistent

theorem receive_stream_integrity_twoArrived :
    ∃ n ≤ 3, twoArrived.conn.rcvd ++ ringRead twoArrived.conn.x twoArrived.conn.t.xseg
        twoArrived.conn.t.rcvbuf MN_TCP_RCVBUF twoArrived.conn.t.rcvHead twoArrived.conn.t.rcvCount =
          [7, 8, 9].take n ∧ twoArrived.conn.t.rcvNxt = place (twoArrived.conn.t.irs + 1) n := by
  obtain ⟨n, within, held, next, _⟩ := (receive_stream_integrity twoArrived_run).1 (by decide +kernel)
  have going : twoArrived.conn.t.flags.eof = false := by decide +kernel
  rw [going] at next
  exact ⟨n, within, held, next⟩

end MegaNet.TcpRecvStream
