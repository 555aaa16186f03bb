import MegaNet.ApiMoves
import MegaNet.Checksums
import MegaNet.UdpMailboxes

/-! Parameter blocks: what a call finds in its caller's block, and what the caller
reads back of it. -/
namespace MegaNet.ApiBlocks
open MegaNet.Core AddressSpace ApiMoves

variable {s s' : Api} {r out : Regs} {i : Inputs} {entry : Entry} {m : PhysMem}
  {p dst : UInt32} {o n k : Nat}
  {bytes : List UInt8}

/-- What goes out as two bytes is read as it was. -/
theorem word_bytes16 (v : UInt16) : word v.toUInt8 (v >>> 8).toUInt8 = v := by
  have below := v.toNat_lt
  have high : (v >>> 8).toUInt8.toNat = v.toNat / 256 := by
    rw [UInt16.toNat_toUInt8, UInt16.toNat_shiftRight, Nat.shiftRight_eq_div_pow,
      show (2 : Nat) ^ (UInt16.toNat 8 % 16) = 256 from rfl]
    omega
  rw [← UInt16.toNat_inj, word, UInt16.toNat_or, Checksums.high_toNat, high, UInt8.toNat_toUInt16,
    UInt16.toNat_toUInt8, Nat.or_comm, ← Nat.two_pow_add_eq_or_of_lt (by omega)]
  omega

/-- Bytes of a block stored and then copied out. -/
theorem writeBack_fill (dst : UInt32) (long : o ≤ s.blk.length) (size : bytes.length = n) :
    ((s.fill o bytes).writeBack dst o n).m = put s.m dst bytes := by
  have first : (s.blk.take o).length = o := by
    rw [List.length_take]
    omega
  have piece : ((s.fill o bytes).blk.drop o).take n = bytes := by
    rw [Api.fill, List.append_assoc, List.drop_append_of_le_length first.ge,
      List.drop_eq_nil_of_le first.le,
      List.nil_append, ← size, List.take_left]
  rw [Api.writeBack, piece]
  rfl

theorem fetch_long (s : Api) (p : UInt32) (n : Nat) : n ≤ (s.fetch p n).blk.length := by
  rw [Api.fetch, List.length_append, run_length]
  omega

/-- A byte of what was copied. -/
theorem put_at (m : PhysMem) (a : UInt32) (bytes : List UInt8) (k : Nat) (fits : bytes.length ≤ 2 ^ 32)
    (below : k < bytes.length) :
    put m a bytes (a + UInt32.ofNat k) = bytes[k] := by
  rw [put, offset_toNat (by omega), List.getElem?_eq_getElem below]
  rfl

/-- A part of what was copied. -/
theorem run_part (m : PhysMem) (a : UInt32) (fits : bytes.length ≤ 2 ^ 32)
    (size : k + n = bytes.length) :
    run (put m a bytes) (a + UInt32.ofNat k) n = bytes.drop k := by
  rw [← run_put (m := m) (a := a) fits, run_drop (by omega), run_put fits, ← size,
    Nat.add_sub_cancel_left]

/-- A word of a block is read as it was written. -/
theorem callerWord_put (m : PhysMem) (p : UInt32) (v : UInt16) : callerWord
    (put m p (bytes16 v)) p = v := by
  have low : put m p (bytes16 v) p = v.toUInt8 := by
    have first : put m p (bytes16 v) (p + UInt32.ofNat 0) = v.toUInt8 :=
      put_at m p (bytes16 v) 0 (by simp [bytes16]) (by simp [bytes16])
    rwa [show p + UInt32.ofNat 0 = p from UInt32.add_zero p] at first
  have high : put m p (bytes16 v) (p + 1) = (v >>> 8).toUInt8 :=
    put_at m p (bytes16 v) 1 (by simp [bytes16]) (by simp [bytes16])
  rw [callerWord, low, high, word_bytes16]

/-! ## The staging buffer -/

private theorem fetch_grows (s : Api) (p : UInt32) (n : Nat) : s.blk.length ≤
    (s.fetch p n).blk.length := by
  rw [Api.fetch, List.length_append, run_length, List.length_drop]
  omega

private theorem fill_grows (s : Api) (o : Nat) (bytes : List UInt8) : s.blk.length ≤
    (s.fill o bytes).blk.length := by
  rw [Api.fill, List.length_append, List.length_append, List.length_take, List.length_drop]
  omega

private theorem onSockZ_grows {call : MnTcp → Regs × Api}
    (calls : ∀ t, s.blk.length ≤ (call t).2.blk.length) :
    s.blk.length ≤ (onSockZ s r call).2.blk.length := by
  unfold onSockZ
  split
  · exact Nat.le_refl _
  · exact calls _

private theorem poll_blk (s : Api) (i : Inputs) : (mnApiPoll s i).2.blk = s.blk := by
  unfold mnApiPoll pollTcp pollNtp pollDns pollDhcp
  dsimp only
  split_ifs <;> rfl

private theorem dhcpStart_blk (s : Api) (i : Inputs) : (mnApiDhcpStart s i).2.blk = s.blk := by
  unfold mnApiDhcpStart
  generalize Dhcp.mnDhcpStart = start
  rfl

private theorem dnsStart_blk (s : Api) (r : Regs) (i : Inputs) :
    (mnApiDnsStart s r i).2.blk = s.blk := by
  unfold mnApiDnsStart
  generalize Dns.mnDnsStart = start
  dsimp only
  split <;> rfl

private theorem udpRecv_grows (s : Api) (r : Regs) : s.blk.length ≤ (mnApiUdpRecv s r).2.blk.length := by
  have block := fetch_grows s r.argPtr 5
  unfold mnApiUdpRecv
  split
  · exact Nat.le_refl _
  dsimp only
  split
  · exact block.trans ((fill_grows _ 5 _).trans (fill_grows _ 11 _))
  · exact block.trans ((fill_grows _ 7 _).trans ((fill_grows _ 5 _).trans (fill_grows _ 11 _)))

private theorem udpSend_grows (done : mnApiUdpSend s r = some (out, s')) :
    s.blk.length ≤ s'.blk.length := by
  have block := fetch_grows s r.argPtr 11
  unfold mnApiUdpSend at done
  split at done
  · cases done
    exact Nat.le_refl _
  dsimp only at done
  split at done
  · cases done
    exact block
  · obtain ⟨_, _, same⟩ := Option.map_eq_some_iff.mp done
    cases same
    exact block

private theorem linkTx_grows (done : mnApiLinkTx s r i = some (out, s')) :
    s.blk.length ≤ s'.blk.length := by
  have block := fetch_grows s r.argPtr 5
  unfold mnApiLinkTx at done
  dsimp only at done
  split at done
  · cases done
    exact block
  · obtain ⟨_, _, same⟩ := Option.map_eq_some_iff.mp done
    cases same
    exact block

private theorem linkRx_grows (done : mnApiLinkRx s r i = some (out, s')) :
    s.blk.length ≤ s'.blk.length := by
  have block := fetch_grows s r.argPtr 5
  unfold mnApiLinkRx at done
  dsimp only at done
  generalize (if (s.fetch r.argPtr 5).blkWord 3 > MN_MAX_FRAME then MN_MAX_FRAME
    else (s.fetch r.argPtr 5).blkWord 3) = cap at done
  split at done
  · cases done
    exact block.trans (fill_grows _ 5 _)
  split at done
  · cases done
  · cases done
    exact block.trans (fill_grows _ 5 _)

private theorem ntpResult_grows (done : mnApiNtpResult s r = some (out, s')) :
    s.blk.length ≤ s'.blk.length := by
  unfold mnApiNtpResult at done
  obtain ⟨_, _, same⟩ := Option.map_eq_some_iff.mp done
  cases same
  exact (fetch_grows s r.argPtr 2).trans (fill_grows _ 2 _)

/-- The staging buffer gets no shorter, once INIT has given it its size. -/
theorem exec_grows (later : entry ≠ .init) (done : s.exec entry r i = some (out, s')) :
    s.blk.length ≤ s'.blk.length := by
  cases entry with
  | init => exact absurd rfl later
  | version | getMac | setLocalIp4 | dhcpState | setDns | dnsState
  | dnsResult | ntpStart | ntpState | dhcpLastMsg
  | tcpInfo | udpOpen =>
    cases done
    exact Nat.le_refl _
  | setIp | setRtc =>
    cases done
    exact fetch_grows s r.argPtr _
  | getIp | getStats | getDns =>
    cases done
    exact fill_grows s 0 _
  | poll =>
    rw [answered (f := mnApiPoll s i) done, poll_blk]
  | dhcpStart =>
    rw [answered (f := mnApiDhcpStart s i) done, dhcpStart_blk]
  | dnsStart =>
    rw [answered (f := mnApiDnsStart s r i) done, dnsStart_blk]
  | linkTx => exact linkTx_grows done
  | linkRx => exact linkRx_grows done
  | ntpResult => exact ntpResult_grows done
  | udpSend => exact udpSend_grows done
  | udpRecv =>
    rw [answered (f := mnApiUdpRecv s r) done]
    exact udpRecv_grows s r
  | udpClose =>
    rw [answered (f := mnApiUdpClose s r) done]
    unfold mnApiUdpClose
    split <;> exact Nat.le_refl _
  | tcpConnect =>
    rw [answered (f := mnApiTcpConnect s r i) done]
    exact onSockZ_grows fun _ => fetch_grows s r.argPtr 6
  | tcpListen =>
    rw [answered (f := mnApiTcpListen s r) done]
    exact onSockZ_grows fun _ => Nat.le_refl _
  | tcpState =>
    rw [answered (f := mnApiTcpState s r) done]
    exact onSockZ_grows fun _ => Nat.le_refl _
  | tcpPeer =>
    rw [answered (f := mnApiTcpPeer s r) done]
    exact onSockZ_grows fun _ => fill_grows s 0 _
  | tcpRecv =>
    rw [answered (f := mnApiTcpRecv s r) done]
    exact onSockZ_grows fun _ => (fetch_grows s r.argPtr 5).trans (fill_grows _ 5 _)
  | tcpClose =>
    rw [answered (f := mnApiTcpClose s r) done]
    exact onSockZ_grows fun _ => Nat.le_refl _
  | tcpAbort =>
    rw [answered (f := mnApiTcpAbort s r) done]
    exact onSockZ_grows fun _ => Nat.le_refl _
  | tcpSend =>
    rw [answered (f := mnApiTcpSend s r) done]
    unfold mnApiTcpSend
    split
    · exact Nat.le_refl _
    · exact fetch_grows s r.argPtr 5

/-! ## UDP_RECV -/

private theorem cut (l : List UInt8) (long : n ≤ l.length) : ∃ front back, l = front ++ back ∧
    front.length = n :=
  ⟨l.take n, l.drop n, (List.take_append_drop n l).symm, List.length_take_of_le long⟩

/-- A part of the staging buffer stored anew. -/
theorem fill_part {front old back : List UInt8} (parts : s.blk = front ++ (old ++ back))
    (place : front.length = o)
    (size : bytes.length = old.length) : (s.fill o bytes).blk = front ++ (bytes ++ back) := by
  have past : o + bytes.length = (front ++ old).length := by
    rw [List.length_append, size, place]
  rw [Api.fill, past, parts, List.take_left' place, ← List.append_assoc front old,
    List.drop_left, List.append_assoc]

/-- The answer of UDP_RECV in the caller's block: a length, an address, a port. -/
theorem fields_back (long : 13 ≤ s.blk.length) (dst p : UInt32) (data : List UInt8)
    (len sport : UInt16) (src : Ip4) :
    (((((s.fill 7 src.bytes).copyTo p data).fill 5 (bytes16 len)).fill 11
      (bytes16 sport)).writeBack dst 5 8).m =
      put (put s.m p data) dst (bytes16 len ++ (src.bytes ++ bytes16 sport)) := by
  obtain ⟨head, rest, whole, five⟩ := cut (n := 5) s.blk (by omega)
  rw [whole, List.length_append] at long
  obtain ⟨a, rest, rfl, two⟩ := cut (n := 2) rest (by omega)
  rw [List.length_append] at long
  obtain ⟨b, rest, rfl, four⟩ := cut (n := 4) rest (by omega)
  rw [List.length_append] at long
  obtain ⟨c, tail, rfl, two'⟩ := cut (n := 2) rest (by omega)
  have first : (s.fill 7 src.bytes).blk = head ++ (a ++ (src.bytes ++ (c ++ tail))) := by
    rw [← List.append_assoc head]
    exact fill_part (by rw [whole, List.append_assoc]) (by rw [List.length_append, five, two]) four.symm
  have second : (((s.fill 7 src.bytes).copyTo p data).fill 5 (bytes16 len)).blk =
      head ++ (bytes16 len ++ (src.bytes ++ (c ++ tail))) := fill_part first five two.symm
  have third : ((((s.fill 7 src.bytes).copyTo p data).fill 5 (bytes16 len)).fill 11
    (bytes16 sport)).blk =
      head ++ (bytes16 len ++ (src.bytes ++ (bytes16 sport ++ tail))) := by
    have parted : ∀ last, head ++ (bytes16 len ++ (src.bytes ++ last)) =
        (head ++ (bytes16 len ++ src.bytes)) ++ last := by
      simp
    rw [parted] at second ⊢
    refine fill_part second ?_ two'.symm
    rw [List.length_append, five]
    rfl
  rw [Api.writeBack, third, List.drop_left' five]
  have eight : (bytes16 len ++ (src.bytes ++ bytes16 sport)).length = 8 := rfl
  rw [show bytes16 len ++ (src.bytes ++ (bytes16 sport ++ tail)) =
    (bytes16 len ++ (src.bytes ++ bytes16 sport)) ++ tail by simp,
    List.take_left' eight]
  rfl

/-- What the caller reads of these fields. -/
theorem fields_read (m : PhysMem) (p : UInt32) (len sport : UInt16) (src : Ip4) :
    callerWord (put m (p + 5) (bytes16 len ++ (src.bytes ++ bytes16 sport))) (p + 5) = len ∧
      callerIp (put m (p + 5) (bytes16 len ++ (src.bytes ++ bytes16 sport))) (p + 7) = src ∧
      callerWord (put m (p + 5) (bytes16 len ++ (src.bytes ++ bytes16 sport))) (p + 11) = sport := by
  have eight : (bytes16 len ++ (src.bytes ++ bytes16 sport)).length = 8 := rfl
  have byte (k : Nat) (below : k < 8) {a : UInt32} (here : a = p + (5 + UInt32.ofNat k)) :
      put m (p + 5) (bytes16 len ++ (src.bytes ++ bytes16 sport)) a =
        (bytes16 len ++ (src.bytes ++ bytes16 sport))[k] := by
    rw [here, ← UInt32.add_assoc]
    exact put_at m (p + 5) _ k (eight.le.trans (by decide)) below
  generalize put m (p + 5) (bytes16 len ++ (src.bytes ++ bytes16 sport)) = m' at byte
  have size : m' (p + 5) = len.toUInt8 ∧ m' (p + 5 + 1) = (len >>> 8).toUInt8 :=
    ⟨byte 0 (by decide) rfl, byte 1 (by decide) (UInt32.add_assoc ..)⟩
  have address : m' (p + 7) = src.b0 ∧ m' (p + 7 + 1) = src.b1 ∧ m' (p + 7 + 2) = src.b2 ∧
      m' (p + 7 + 3) = src.b3 :=
    ⟨byte 2 (by decide) rfl, byte 3 (by decide) (UInt32.add_assoc ..),
      byte 4 (by decide) (UInt32.add_assoc ..),
      byte 5 (by decide) (UInt32.add_assoc ..)⟩
  have port : m' (p + 11) = sport.toUInt8 ∧ m' (p + 11 + 1) = (sport >>> 8).toUInt8 :=
    ⟨byte 6 (by decide) rfl, byte 7 (by decide) (UInt32.add_assoc ..)⟩
  refine ⟨?_, ?_, ?_⟩
  · rw [callerWord, size.1, size.2, word_bytes16]
  · rw [callerIp, address.1, address.2.1, address.2.2.1, address.2.2.2]
  · rw [callerWord, port.1, port.2, word_bytes16]

/-- The caller of UDP_RECV finds the datagram of the socket's mailbox, cut to its room. -/
theorem udpRecv_finds (long : 13 ≤ s.blk.length)
    (apart : Apart (callerPtr s.m r.argPtr) (frameRoom s.m r.argPtr) (r.argPtr + 5) 8)
    (answered_ : (mnApiUdpRecv s r).1.a = 1) :
    ∃ k : Fin 4, r.z.toNat = k ∧ (s.net.sock k).pending = true ∧
      run (mnApiUdpRecv s r).2.m (callerPtr s.m r.argPtr)
        (callerWord (mnApiUdpRecv s r).2.m (r.argPtr + 5)).toNat =
        (mnXmemRead (linear s.m) (s.net.sock k).xseg (s.net.sock k).xoff (s.net.sock k).len).take
          (frameRoom s.m r.argPtr) ∧
      callerIp (mnApiUdpRecv s r).2.m (r.argPtr + 7) = (s.net.sock k).srcIp ∧
      callerWord (mnApiUdpRecv s r).2.m (r.argPtr + 11) = (s.net.sock k).srcPort := by
  have word_ : (s.fetch r.argPtr 5).blkWord 3 = callerWord s.m (r.argPtr + 3) :=
    fetch_word (by decide) s r.argPtr
  have ptr : (s.fetch r.argPtr 5).blkPtr = callerPtr s.m r.argPtr := fetch_ptr (by decide) s r.argPtr
  have block := fetch_grows s r.argPtr 5
  unfold mnApiUdpRecv at answered_ ⊢
  split at answered_
  · cases answered_
  rename_i inside
  rw [if_neg inside]
  dsimp only at answered_ ⊢
  generalize bounded : (if (s.fetch r.argPtr 5).blkWord 3 > MN_MAX_FRAME then MN_MAX_FRAME
    else (s.fetch r.argPtr 5).blkWord 3) = cap at answered_ ⊢
  have room : cap.toNat = frameRoom s.m r.argPtr := by
    rw [← bounded, Words.toNat_clamp, word_, frameRoom]
    rfl
  have reception := UdpOutcomes.udpRecv_reception s.net (linear s.m) r.z cap
  have same : mnNetUdpRecv (s.fetch r.argPtr 5).net (linear (s.fetch r.argPtr 5).m) r.z cap =
    mnNetUdpRecv s.net (linear s.m) r.z cap := rfl
  rw [same] at answered_ ⊢
  generalize mnNetUdpRecv s.net (linear s.m) r.z cap = got at answered_ reception ⊢
  cases reception with
  | nothing => cases answered_
  | datagram k here waits =>
    have cut_ := UdpMailboxes.read_cut (linear s.m) (s.net.sock k).xseg (s.net.sock k).xoff
      (s.net.sock k).len cap
    rw [room] at cut_
    refine ⟨k, here, waits, ?_⟩
    dsimp only
    rw [cut_]
    generalize mnXmemRead (linear s.m) (s.net.sock k).xseg (s.net.sock k).xoff (s.net.sock k).len = data
    have few : (data.take (frameRoom s.m r.argPtr)).length ≤ frameRoom s.m r.argPtr :=
      List.length_take_le ..
    have most : frameRoom s.m r.argPtr ≤ 1518 := Nat.min_le_right ..
    generalize data.take (frameRoom s.m r.argPtr) = data at few
    have count : (UInt16.ofNat data.length).toNat = data.length := by
      rw [UInt16.toNat_ofNat']
      omega
    generalize opened :
      { s.fetch r.argPtr 5 with net := s.net.setSock k { s.net.sock k with pending := false } } = s₁
    have same₁ : s₁.m = s.m := by
      rw [← opened]
      rfl
    have ptr₁ : s₁.blkPtr = callerPtr s.m r.argPtr := by
      rw [← ptr, ← opened]
      rfl
    have long₁ : 13 ≤ s₁.blk.length := by
      rw [← opened]
      exact long.trans block
    have memory := fields_back long₁ (r.argPtr + 5) (callerPtr s.m r.argPtr) data
      (UInt16.ofNat data.length)
      (s.net.sock k).srcPort (s.net.sock k).srcIp
    obtain ⟨size, address, port⟩ :=
      fields_read (put s.m (callerPtr s.m r.argPtr) data) r.argPtr (UInt16.ofNat data.length)
      (s.net.sock k).srcPort (s.net.sock k).srcIp
    rw [same₁] at memory
    simp only [Api.answer, Api.ret, ptr₁, memory, size, address, port, count, and_true]
    rw [run_put_apart (apart.shorter few)]
    exact run_put (few.trans (most.trans (by decide)))

end MegaNet.ApiBlocks
