import MegaNet.AddressSpace
import MegaNet.Core.SharedMemory
import MegaNet.TcpIsolation

/-! The calls that work on the client's memory do what those on local memory do:
over one memory, in which each of the client's buffers lies apart from the ring,
the four ring copies of `mn_tcp.c` are those over a pool of its own. -/
namespace MegaNet.DmaPaths
open MegaNet.Core Words AddressSpace CircularBuffer XmemRings TcpSocketInvariant TcpOutcomes
  TcpConnection TcpSendStream TcpIsolation

variable {calls : XmemCalls} {m : PhysMem} {seg off base size pos len : UInt16} {src dst : UInt32}

/-- The calls move exactly the bytes they are asked for, where the pool's run of
them lies in one segment, and the client's apart from it. -/
structure Exact (calls : XmemCalls) : Prop where
  read : ∀ m seg (off len : UInt16), off.toNat + len.toNat ≤ 65536 →
    calls.mnXmemRead m seg off len = run m (addr seg off) len.toNat
  write : ∀ m seg (off len : UInt16) (src : List UInt8), off.toNat + len.toNat ≤ 65536 →
    len.toNat ≤ src.length →
    calls.mnXmemWrite m seg off src len = put m (addr seg off) (src.take len.toNat)
  copyOut : ∀ m dst seg (off len : UInt16), off.toNat + len.toNat ≤ 65536 →
    Apart dst len.toNat (addr seg off) len.toNat →
    calls.mnXmemCopyOut m dst seg off len = put m dst (run m (addr seg off) len.toNat)
  copyIn : ∀ m seg (off len : UInt16) src, off.toNat + len.toNat ≤ 65536 →
    Apart src len.toNat (addr seg off) len.toNat →
    calls.mnXmemCopyIn m seg off src len = put m (addr seg off) (run m src len.toNat)

/-! ## The pool in the memory -/

theorem linear_address (m : PhysMem) (a : UInt32) : linear m a.toNat = m a := by
  simp [linear, a.toNat_lt]

private theorem linear_injective {m' : PhysMem} (same : linear m = linear m') : m = m' := by
  funext a
  rw [← linear_address m a, same, linear_address]

theorem addr_toNat (seg off : UInt16) : (addr seg off).toNat = xaddr seg off := by
  have low := off.toNat_lt
  have high := seg.toNat_lt
  have shifted : (seg.toUInt32 <<< 16).toNat = 2 ^ 16 * seg.toNat := by
    rw [UInt32.toNat_shiftLeft, UInt16.toNat_toUInt32, Nat.shiftLeft_eq]
    have : (16 : UInt32).toNat % 32 = 16 := rfl
    rw [this]
    omega
  rw [addr, UInt32.toNat_or, shifted, UInt16.toNat_toUInt32, ← Nat.two_pow_add_eq_or_of_lt low, xaddr]
  omega

/-- The pool's bytes in a segment are the memory's. -/
theorem pool_run {i : Nat} (fits : off.toNat + i < 65536) :
    linear m (xaddr seg off + i) = m (addr seg off + UInt32.ofNat i) := by
  have high := seg.toNat_lt
  have small : xaddr seg off + i < 2 ^ 32 := by
    unfold xaddr
    omega
  rw [linear, if_pos small, UInt32.ofNat_add, ← addr_toNat, UInt32.ofNat_toNat]

private theorem pool_read (fits : off.toNat + len.toNat ≤ 65536) :
    run m (addr seg off) len.toNat = mnXmemRead (linear m) seg off len := by
  apply List.map_congr_left
  intro i member
  have := List.mem_range.mp member
  rw [pool_run (by omega)]

private theorem pool_put {items : List UInt8} (fits : off.toNat + len.toNat ≤ 65536)
    (held : len.toNat ≤ items.length) :
    linear (put m (addr seg off) (items.take len.toNat)) = mnXmemWrite (linear m) seg off items len := by
  have whole : (items.take len.toNat).length = len.toNat := List.length_take_of_le held
  funext a
  rw [mnXmemWrite]
  split
  · rename_i inside
    obtain ⟨i, rfl⟩ := Nat.exists_eq_add_of_le inside.1
    rw [pool_run (by omega), put, offset_toNat (by omega), List.getElem?_take_of_lt (by omega),
      Nat.add_sub_cancel_left,
      List.getD_eq_getElem?_getD, List.getElem?_eq_getElem (show i < items.length by omega)]
    rfl
  · rename_i outside
    unfold linear
    split
    · apply put_outside
      intro i below same
      have high := seg.toNat_lt
      have place := congrArg UInt32.toNat same
      rw [UInt32.toNat_add, addr_toNat, UInt32.toNat_ofNat', UInt32.toNat_ofNat'] at place
      unfold xaddr at place outside
      omega
    · rfl

/-- A copy out of a pool of its own lays what it reads over the buffer. -/
theorem copyOut_put (ext : PhysMem) (x : XMem) :
    mnXmemCopyOut ext dst x seg off len = put ext dst (mnXmemRead x seg off len) := by
  funext a
  rw [mnXmemCopyOut, put, mnXmemRead, List.getElem?_map]
  split
  · rename_i inside
    rw [List.getElem?_range inside]
    rfl
  · rename_i outside
    rw [List.getElem?_eq_none (by rw [List.length_range]; omega)]
    rfl

/-! ## The ring copies -/

/-- The two parts of a ring copy, the first of `first` bytes: each lies in the
segment and in the ring. -/
structure Parts (seg base size pos len first : UInt16) : Prop where
  place : addr seg (base + pos) = addr seg base + UInt32.ofNat pos.toNat
  sum : first.toNat + (len - first).toNat = len.toNat
  front : (base + pos).toNat + first.toNat ≤ 65536
  back : base.toNat + (len - first).toNat ≤ 65536
  frontInside : pos.toNat + first.toNat ≤ size.toNat
  backInside : (len - first).toNat ≤ size.toNat

private theorem parts_of (straight : Straight base size pos len) (seg : UInt16) :
    ∃ first, (if size - pos > len then len else size - pos) = first ∧
      Parts seg base size pos len first := by
  obtain ⟨room, start, rest, ⟨_, inside⟩, short, segment⟩ := straight
  have few : (XmemRings.front size pos len).toNat ≤ len.toNat := by
    rw [XmemRings.front, toNat_clamp]
    omega
  refine ⟨XmemRings.front size pos len, rfl, ?_, ?_, ?_, ?_, inside, ?_⟩
  · rw [← UInt32.toNat_inj, addr_toNat, UInt32.toNat_add, addr_toNat, UInt32.toNat_ofNat']
    unfold xaddr
    have := seg.toNat_lt
    have := (base + pos).toNat_lt
    omega
  · omega
  · omega
  · omega
  · omega

private theorem ringRead_pool (exact_ : Exact calls) (straight : Straight base size pos len) :
    calls.ringRead m seg base size pos len = ringRead (linear m) seg base size pos len := by
  obtain ⟨first, at_, parts⟩ := parts_of straight seg
  unfold XmemCalls.ringRead ringRead
  dsimp only
  rw [at_, exact_.read _ _ _ _ parts.front, exact_.read _ _ _ _ parts.back, pool_read parts.front,
    pool_read parts.back]

private theorem ringWrite_pool (exact_ : Exact calls) (straight : Straight base size pos len)
    {data : List UInt8}
    (held : len.toNat ≤ data.length) :
    linear (calls.ringWrite m seg base size pos data len) = ringWrite
      (linear m) seg base size pos data len := by
  obtain ⟨first, at_, parts⟩ := parts_of straight seg
  have sum := parts.sum
  have rest : (len - first).toNat ≤ (data.drop first.toNat).length := by
    rw [List.length_drop]
    omega
  unfold XmemCalls.ringWrite ringWrite
  dsimp only
  rw [at_, exact_.write _ _ _ _ _ parts.front (by omega), exact_.write _ _ _ _ _ parts.back rest]
  split
  · rw [pool_put parts.back rest, pool_put parts.front (by omega)]
  · rw [pool_put parts.front (by omega)]

private theorem toUInt32_ofNat (n : UInt16) : n.toUInt32 = UInt32.ofNat n.toNat := by
  rw [← UInt32.toNat_inj, UInt32.toNat_ofNat', UInt16.toNat_toUInt32]
  have := n.toNat_lt
  omega

/-- No more is looked at than is written. -/
theorem ringWrite_take (exact_ : Exact calls) (straight : Straight base size pos len) {data : List UInt8}
    (held : len.toNat ≤ data.length) :
    calls.ringWrite m seg base size pos (data.take len.toNat) len =
      calls.ringWrite m seg base size pos data len := by
  have inside := straight.frontInside.1
  have held' : len.toNat ≤ (data.take len.toNat).length := (List.length_take_of_le held).ge
  apply linear_injective
  rw [ringWrite_pool exact_ straight held, ringWrite_pool exact_ straight held',
    ringWrite_deposit straight.segment inside straight.restInside held,
    ringWrite_deposit straight.segment inside straight.restInside held', List.take_take, Nat.min_self]

/-- Copying a buffer in is writing what it holds. -/
theorem ringWriteX_ringWrite (exact_ : Exact calls) (straight : Straight base size pos len)
    (apart : Apart src len.toNat (addr seg base) size.toNat) :
    calls.ringWriteX m seg base size pos src len =
      calls.ringWrite m seg base size pos (run m src len.toNat) len := by
  obtain ⟨first, at_, parts⟩ := parts_of straight seg
  have sum := parts.sum
  have inside := parts.frontInside
  have inside' := parts.backInside
  have start : src = src + UInt32.ofNat 0 := (UInt32.add_zero src).symm
  have ring : addr seg base = addr seg base + UInt32.ofNat 0 := (UInt32.add_zero _).symm
  have few : first.toNat ≤ len.toNat := by omega
  unfold XmemCalls.ringWriteX XmemCalls.ringWrite
  dsimp only
  rw [at_, toUInt32_ofNat, exact_.copyIn _ _ _ _ _ parts.front
    (apart.part start parts.place (by omega) inside),
    exact_.write _ _ _ _ _ parts.front (by rw [run_length]; exact few), run_take few]
  split
  · have rest : (run m src len.toNat).drop first.toNat = run m (src + UInt32.ofNat first.toNat)
      (len - first).toNat := by
      rw [run_drop few]
      congr 1
      omega
    rw [exact_.copyIn _ _ _ _ _ parts.back (apart.part rfl ring (by omega) (by omega)),
      exact_.write _ _ _ _ _ parts.back (by rw [rest, run_length]), rest,
        run_take (Nat.le_refl _), run_put_apart]
    -- The first copy went into the ring, so the rest of the buffer is still there.
    apply apart.part rfl parts.place (by omega)
    rw [run_length]
    exact inside
  · rfl

private theorem ringWriteX_pool (exact_ : Exact calls) (straight : Straight base size pos len)
    (apart : Apart src len.toNat (addr seg base) size.toNat) :
    linear (calls.ringWriteX m seg base size pos src len) = ringWriteX
      (linear m) seg base size pos m src len := by
  rw [ringWriteX_ringWrite exact_ straight apart, ringWrite_pool exact_ straight run_length.ge,
    XmemRings.ringWriteX_ringWrite straight.frontInside.1]
  rfl

/-- Copying the ring out lays what it holds over a buffer: over a pool of its own, -/
theorem ringReadX_put (straight : Straight base size pos len) (ext : PhysMem) (x : XMem) :
    ringReadX ext dst x seg base size pos len = put ext dst (ringRead x seg base size pos len) := by
  obtain ⟨first, at_, parts⟩ := parts_of straight seg
  have sum := parts.sum
  unfold ringReadX ringRead
  dsimp only
  simp only [at_, toUInt32_ofNat, copyOut_put]
  split
  · have fits : (mnXmemRead x seg (base + pos) first).length +
      (mnXmemRead x seg base (len - first)).length ≤ 2 ^ 32 := by
      rw [mnXmemRead_length, mnXmemRead_length, sum]
      exact Nat.le_of_lt (Nat.lt_trans len.toNat_lt (by decide))
    have joined := put_append (m := ext) (a := dst) fits
    rw [mnXmemRead_length] at joined
    exact joined
  · rw [List.append_nil]

/-- and in the one memory. -/
theorem ringReadX_pool (exact_ : Exact calls) (straight : Straight base size pos len)
    (apart : Apart dst len.toNat (addr seg base) size.toNat) :
    calls.ringReadX m dst seg base size pos len = ringReadX m dst (linear m) seg base size pos len := by
  obtain ⟨first, at_, parts⟩ := parts_of straight seg
  have sum := parts.sum
  have inside := parts.frontInside
  have inside' := parts.backInside
  have start : dst = dst + UInt32.ofNat 0 := (UInt32.add_zero dst).symm
  have ring : addr seg base = addr seg base + UInt32.ofNat 0 := (UInt32.add_zero _).symm
  unfold XmemCalls.ringReadX ringReadX
  dsimp only
  simp only [at_, toUInt32_ofNat, copyOut_put, ← pool_read parts.front, ← pool_read parts.back]
  rw [exact_.copyOut _ _ _ _ _ parts.front (apart.part start parts.place (by omega) inside)]
  split
  · rw [exact_.copyOut _ _ _ _ _ parts.back (apart.part rfl ring (by omega) (by omega)), run_put_apart]
    -- The first copy went into the buffer, so the ring is as it was.
    apply (apart.part start ring _ (by omega)).symm
    rw [run_length]
    omega
  · rfl

/-! ## Round trips -/

/-- What was written is what is read. -/
theorem read_write (exact_ : Exact calls) (straight : Straight base size pos len) {data : List UInt8}
    (held : len.toNat ≤ data.length) :
    calls.ringRead (calls.ringWrite m seg base size pos data len) seg base size pos len =
      data.take len.toNat := by
  have inside := straight.frontInside.1
  have short := straight.restInside
  have whole : (data.take len.toNat).length = len.toNat := List.length_take_of_le held
  rw [ringRead_pool exact_ straight, ringWrite_pool exact_ straight held,
    ringRead_window straight.segment inside short, ringWrite_deposit straight.segment inside short held]
  have back : window (deposit (linear m) (xaddr seg base) size.toNat pos.toNat (data.take len.toNat))
      (xaddr seg base) size.toNat pos.toNat (data.take len.toNat).length = data.take len.toNat :=
    window_deposit (by omega)
  rwa [whole] at back

/-- Nothing outside the ring is written. -/
theorem write_outside (exact_ : Exact calls) (straight : Straight base size pos len) {data : List UInt8}
    (held : len.toNat ≤ data.length) {a : UInt32}
    (away : ∀ i < size.toNat, a ≠ addr seg base + UInt32.ofNat i) :
    calls.ringWrite m seg base size pos data len a = m a := by
  have bound := a.toNat_lt
  have outside : a.toNat < xaddr seg base ∨ xaddr seg base + size.toNat ≤ a.toNat := by
    by_contra inside
    apply away (a.toNat - xaddr seg base) (by omega)
    rw [← UInt32.toNat_inj, UInt32.toNat_add, addr_toNat, UInt32.toNat_ofNat']
    omega
  have same : ringWrite (linear m) seg base size pos data len a.toNat = linear m a.toNat :=
    straight.outside held outside
  rw [← ringWrite_pool exact_ straight held] at same
  simpa [linear, bound] using same

/-- A copy out of the ring changes nothing but the buffer, which then holds what
a read returns. -/
theorem readX_read (exact_ : Exact calls) (straight : Straight base size pos len)
    (apart : Apart dst len.toNat (addr seg base) size.toNat) :
    run (calls.ringReadX m dst seg base size pos len) dst len.toNat =
      calls.ringRead m seg base size pos len ∧
      ∀ a, (∀ i < len.toNat, a ≠ dst + UInt32.ofNat i) →
        calls.ringReadX m dst seg base size pos len a = m a := by
  have length := ringRead_length (linear m) seg base size pos len
  have bound := len.toNat_lt
  rw [ringReadX_pool exact_ straight apart, ringReadX_put straight, ringRead_pool exact_ straight]
  refine ⟨?_, ?_⟩
  · have back := run_put (m := m) (a := dst)
      (show (ringRead (linear m) seg base size pos len).length ≤ 2 ^ 32 by omega)
    rwa [length] at back
  · intro a away
    apply put_outside
    rwa [length]

/-! ## The calls -/

/-- What a send call accepts goes into the ring straight. -/
theorem send_straight (run_ : Conn.Run c) (len : UInt16) :
    Straight c.t.sndbuf MN_TCP_SNDBUF ((c.t.sndHead + c.t.sndLen) % MN_TCP_SNDBUF)
      (sendRoom c.t len) := by
  have inv := run_.socketInv
  have queue := inv.sndLen
  have room := sendRoom_le inv len
  exact (sndRing_straight inv run_.placed (by omega) (by omega)).2

/-- And what a receive call returns comes out of it straight. -/
theorem recv_straight (run_ : Conn.Run c) (cap : UInt16) :
    Straight c.t.rcvbuf MN_TCP_RCVBUF c.t.rcvHead (recvCount c.t cap) := by
  have inv := run_.socketInv
  have count := inv.rcvCount
  have most : (recvCount c.t cap).toNat ≤ c.t.rcvCount.toNat := recvCount_le c.t cap
  exact (rcvRing_straight inv run_.placed (by omega)).2.2

theorem recvCount_room (t : MnTcp) (cap : UInt16) : (recvCount t cap).toNat ≤ cap.toNat := by
  rw [recvCount, toNat_clamp]
  omega

/-- A send from a buffer apart from the ring is the send of what it holds. -/
theorem sendX_send (exact_ : Exact calls) (run_ : Conn.Run c)
    (apart : Apart src len.toNat (addr c.t.xseg c.t.sndbuf) MN_TCP_SNDBUF.toNat) :
    calls.mnTcpSendX c.t m src len = calls.mnTcpSend c.t m (run m src len.toNat) len := by
  have straight := send_straight run_ len
  have most := sendRoom_most c.t len
  unfold XmemCalls.mnTcpSendX XmemCalls.mnTcpSend
  dsimp only
  generalize sendRoom c.t len = n at *
  have held : n.toNat ≤ (run m src len.toNat).length := by rwa [run_length]
  have part := apart.shorter most
  rw [ringWriteX_ringWrite exact_ straight part, ← run_take most, ringWrite_take exact_ straight held]

/-- A receive into a buffer apart from the ring leaves there what a receive
returns, and nothing elsewhere. -/
theorem recvX_recv {cap : UInt16} (exact_ : Exact calls) (run_ : Conn.Run c)
    (apart : Apart dst cap.toNat (addr c.t.xseg c.t.rcvbuf) MN_TCP_RCVBUF.toNat) :
    ∃ n t bytes m', calls.mnTcpRecv c.t m cap = (n, t, bytes) ∧
      calls.mnTcpRecvX c.t m dst cap = (n, t, m') ∧
      bytes.length = n.toNat ∧ run m' dst n.toNat = bytes ∧
      ∀ a, (∀ i < n.toNat, a ≠ dst + UInt32.ofNat i) → m' a = m a := by
  have straight := recv_straight run_ cap
  have most := recvCount_room c.t cap
  refine ⟨_, _, _, _, rfl, rfl, ?_⟩
  generalize recvCount c.t cap = n at *
  by_cases none_ : n = 0
  · subst none_
    exact ⟨rfl, rfl, fun _ _ => rfl⟩
  · rw [if_neg none_, if_neg none_]
    refine ⟨?_, readX_read exact_ straight (apart.shorter most)⟩
    rw [ringRead_pool exact_ straight, ringRead_length]

/-- A send from the client's memory is the send from it into a pool of its own, -/
theorem sendX_pool (exact_ : Exact calls) (run_ : Conn.Run c)
    (apart : Apart src len.toNat (addr c.t.xseg c.t.sndbuf) MN_TCP_SNDBUF.toNat) :
    ∃ n t m', calls.mnTcpSendX c.t m src len = (n, t, m') ∧
      mnTcpSendX c.t (linear m) m src len = (n, t, linear m') := by
  have straight := send_straight run_ len
  have most := sendRoom_most c.t len
  unfold XmemCalls.mnTcpSendX mnTcpSendX
  dsimp only
  generalize sendRoom c.t len = n at *
  have part := apart.shorter most
  by_cases none_ : n = 0
  · rw [if_pos none_, if_pos none_]
    exact ⟨_, _, _, rfl, rfl⟩
  · rw [if_neg none_, if_neg none_]
    refine ⟨_, _, _, rfl, ?_⟩
    rw [ringWriteX_pool exact_ straight part]

/-- and so is a receive. -/
theorem recv_pool (exact_ : Exact calls) (run_ : Conn.Run c) (m : PhysMem) (cap : UInt16) :
    ∃ n t bytes, calls.mnTcpRecv c.t m cap = (n, t, bytes) ∧
      mnTcpRecv c.t (linear m) cap = (bytes, t) := by
  refine ⟨_, _, _, rfl, ?_⟩
  unfold mnTcpRecv
  dsimp only
  rw [ringRead_pool exact_ (recv_straight run_ cap)]

/-- The calls on the client's memory do what those on local memory do. From every
state of a socket, with calls that move exactly the bytes they are asked for and a
buffer that lies apart from the ring: a send takes over as many bytes, with the
same socket and the same memory, as the send of what the buffer holds; a receive
leaves in the buffer what a receive returns, with the same socket, and changes
nothing else. In any ring inside a segment, as both of a socket's are, what was
written is what is read, from local memory or a buffer and to either, and nothing
outside the ring is written. -/
theorem dma_paths_agree (exact_ : Exact calls) (run_ : Conn.Run c) (m : PhysMem) :
    (∀ src (len : UInt16), Apart src len.toNat (addr c.t.xseg c.t.sndbuf) MN_TCP_SNDBUF.toNat →
      calls.mnTcpSendX c.t m src len = calls.mnTcpSend c.t m (run m src len.toNat) len) ∧
    (∀ dst (cap : UInt16), Apart dst cap.toNat (addr c.t.xseg c.t.rcvbuf) MN_TCP_RCVBUF.toNat →
      ∃ n t bytes m', calls.mnTcpRecv c.t m cap = (n, t, bytes) ∧
        calls.mnTcpRecvX c.t m dst cap = (n, t, m') ∧
        bytes.length = n.toNat ∧ run m' dst n.toNat = bytes ∧
        ∀ a, (∀ i < n.toNat, a ≠ dst + UInt32.ofNat i) → m' a = m a) ∧
    (c.t.sndbuf.toNat + MN_TCP_SNDBUF.toNat ≤ 65536 ∧ c.t.rcvbuf.toNat + MN_TCP_RCVBUF.toNat ≤ 65536 ∧
      ∀ seg (base size pos len : UInt16) (data : List UInt8), base.toNat + size.toNat ≤ 65536 →
        pos.toNat < size.toNat → len.toNat ≤ size.toNat → data.length = len.toNat →
        let written := calls.ringWrite m seg base size pos data len
        (∀ src, Apart src len.toNat (addr seg base) size.toNat → run m src len.toNat = data →
          calls.ringWriteX m seg base size pos src len = written) ∧
        calls.ringRead written seg base size pos len = data ∧
        (∀ dst, Apart dst len.toNat (addr seg base) size.toNat →
          run (calls.ringReadX written dst seg base size pos len) dst len.toNat = data) ∧
        ∀ a, (∀ i < size.toNat, a ≠ addr seg base + UInt32.ofNat i) → written a = m a) := by
  have fits := run_.placed.fits
  have after := run_.placed.sndbuf_home.1
  refine ⟨fun _ _ => sendX_send exact_ run_, fun _ _ => recvX_recv exact_ run_, ?_, ?_, ?_⟩
  · rw [sndbuf_toNat]
    omega
  · rw [rcvbuf_toNat]
    omega
  · intro seg base size pos len data fits inside short held
    have straight := straight_of fits inside short
    have back : calls.ringRead (calls.ringWrite m seg base size pos data len) seg base size pos len =
        data.take len.toNat := read_write exact_ straight held.ge
    rw [List.take_of_length_le held.le] at back
    refine ⟨?_, back, ?_, ?_⟩
    · rintro src apart rfl
      exact ringWriteX_ringWrite exact_ straight apart
    · intro dst apart
      rw [(readX_read exact_ straight apart).1, back]
    · exact fun a away => write_outside exact_ straight held.ge away

/-! ## The DMA controller -/

private theorem copy_exact (apart : Apart src len.toNat dst len.toNat) :
    (if len ≠ 0 then copy m src dst len.toNat else m) = put m dst (run m src len.toNat) := by
  have fits : len.toNat ≤ 2 ^ 32 := Nat.le_of_lt (Nat.lt_trans len.toNat_lt (by decide))
  rw [← copy_put apart fits]
  by_cases none_ : len = 0
  · rw [none_]
    rfl
  · exact if_pos none_

theorem m65Calls_exact : Exact m65Calls where
  read _ _ _ _ _ := rfl
  write _ _ _ _ _ _ _ := rfl
  copyOut _ _ _ _ _ _ apart := copy_exact apart.symm
  copyIn _ _ _ _ _ _ apart := copy_exact apart

/-- A connection that has a byte to send and has received one. -/
def oneArrived : Conn :=
  threeQueued.execAll
    [(goodNet, .segment (fromPeer 53201 1001 4293918722 { ack := true } 1000 [7] one_byte_fits))]

theorem oneArrived_run : Conn.Run oneArrived :=
  threeQueued_run.execAll _ ⟨⟨by decide +kernel, by decide +kernel⟩, trivial⟩

/-- The rings of that connection, and further on the buffers of a client. -/
def oneMemory : PhysMem := fun a => if a < 0x10000 then oneArrived.x a.toNat else a.toUInt8

theorem dma_paths_agree_oneArrived :
    m65Calls.mnTcpSendX oneArrived.t oneMemory 0x40005 3 =
      m65Calls.mnTcpSend oneArrived.t oneMemory [5, 6, 7] 3 ∧
    ∃ n t m', m65Calls.mnTcpRecvX oneArrived.t oneMemory 0x40005 3 = (n, t, m') ∧
      run m' 0x40005 1 = [7] := by
  obtain ⟨send, recv, _⟩ := dma_paths_agree m65Calls_exact oneArrived_run oneMemory
  have apart : Apart 0x40005 (3 : UInt16).toNat
      (addr oneArrived.t.xseg oneArrived.t.sndbuf) MN_TCP_SNDBUF.toNat :=
    (apart_of_le (by decide +kernel) (by decide)).symm
  have apart' : Apart 0x40005 (3 : UInt16).toNat
      (addr oneArrived.t.xseg oneArrived.t.rcvbuf) MN_TCP_RCVBUF.toNat :=
    (apart_of_le (by decide +kernel) (by decide)).symm
  have buffer : run oneMemory 0x40005 (3 : UInt16).toNat = [5, 6, 7] := by decide
  obtain ⟨n, t, bytes, m', takes, takesX, _, held, _⟩ := recv 0x40005 3 apart'
  have one : n = 1 := by
    have count : (m65Calls.mnTcpRecv oneArrived.t oneMemory 3).1 = 1 := by decide +kernel
    rwa [takes] at count
  have seven : bytes = [7] := by
    have returned : (m65Calls.mnTcpRecv oneArrived.t oneMemory 3).2.2 = [7] := by decide +kernel
    rwa [takes] at returned
  refine ⟨buffer ▸ send 0x40005 3 apart, n, t, m', takesX, ?_⟩
  rw [one, seven] at held
  exact held

end MegaNet.DmaPaths
