import MegaNet.Core.Reads
import MegaNet.DnsParse
import MegaNet.TcpUnicast
import MegaNet.Transmissions

/-! No read of received bytes goes past their end: with the end watched, every
routine comes to what it comes to without. -/
namespace MegaNet.ReadBounds
open MegaNet.Core Words Checksums WireFormats UdpOutcomes UdpSockets TcpUnicast Transmissions

variable {m frame pkt data : List UInt8} {o n : Nat} {len : UInt16}

/-! ## Bytes -/

private theorem byteAt?_inside (inside : o < m.length) : byteAt? m o = some (byteAt m o) := by
  simp [byteAt?, byteAt, inside]

private theorem get16?_inside (inside : o + 1 < m.length) : get16? m o = some (get16 m o) := by
  simp only [get16?, byteAt?_inside inside, byteAt?_inside (Nat.lt_of_succ_lt inside),
    Option.bind_eq_bind, Option.bind_some,
    Option.pure_def, get16]

private theorem get32?_inside (inside : o + 3 < m.length) : get32? m o = some (get32 m o) := by
  simp (disch := omega) only [get32?, byteAt?_inside, Option.bind_eq_bind, Option.bind_some,
    Option.pure_def, get32]

private theorem ipAt?_inside (inside : o + 3 < m.length) : ipAt? m o = some (ipAt m o) := by
  simp (disch := omega) only [ipAt?, byteAt?_inside, Option.bind_eq_bind, Option.bind_some,
    Option.pure_def, ipAt]

private theorem macAt?_inside (inside : o + 5 < m.length) : macAt? m o = some (macAt m o) := by
  simp (disch := omega) only [macAt?, byteAt?_inside, Option.bind_eq_bind, Option.bind_some,
    Option.pure_def, macAt]

private theorem bytes?_inside (inside : o + n ≤ m.length) : bytes? m o n = some ((m.drop o).take n) := by
  induction n generalizing o with
  | zero => simp [bytes?]
  | succ n ih =>
    have here : o < m.length := by omega
    rw [bytes?, byteAt?_inside here, ih (by omega), List.drop_eq_getElem_cons here, List.take_succ_cons]
    simp [byteAt, here]

/-! ## Checksums -/

private theorem sumWords?_inside (inside : len.toNat ≤ data.length) (fuel : Nat) (i sum : UInt16)
    (even : i.toNat % 2 = 0)
    (enough : len.toNat ≤ i.toNat + 2 * fuel) : sumWords? data len fuel i sum = some
    (sumWords data len fuel i sum) := by
  have below := i.toNat_lt
  -- An even index does not wrap.
  have one : (i + 1).toNat = i.toNat + 1 := toNat_ahead 1 (by omega)
  induction fuel generalizing i sum with
  | zero =>
    rw [sumWords?, sumWords, if_neg]
    rw [UInt16.lt_iff_toNat_lt, one]
    omega
  | succ fuel ih =>
    rw [sumWords?, sumWords]
    by_cases more : i + 1 < len
    · have ahead := more
      have end_ := len.toNat_lt
      rw [UInt16.lt_iff_toNat_lt, one] at ahead
      have two : (i + 2).toNat = i.toNat + 2 := toNat_ahead 2 (by omega)
      have three : (i + 2 + 1).toNat = (i + 2).toNat + 1 := toNat_ahead 1 (by omega)
      rw [if_pos more, if_pos more, get16?_inside (by omega)]
      exact ih (i + 2) _ (by omega) (by omega) (i + 2).toNat_lt three
    · rw [if_neg more, if_neg more]

theorem sum16?_inside (inside : len.toNat ≤ data.length) : sum16? data len = some (sum16 data len) := by
  rw [sum16?, sumWords?_inside inside _ _ _ rfl (by rw [UInt16.toNat_zero]; omega), sum16]
  generalize sumWords data len len.toNat 0 0 = out
  obtain ⟨i, sum⟩ := out
  by_cases odd : i < len
  · have here : i.toNat < data.length := Nat.lt_of_lt_of_le (UInt16.lt_iff_toNat_lt.mp odd) inside
    simp [odd, byteAt?_inside here]
  · simp [odd]

private theorem checksumValid?_inside (inside : len.toNat ≤ data.length) :
    mnChecksumValid? data len = some (mnChecksumValid data len) := by
  rw [mnChecksumValid?, sum16?_inside inside]
  rfl

private theorem checksumPseudo?_inside (inside : len.toNat ≤ data.length)
    (src dst : Ip4) (proto : UInt8) :
    mnChecksumPseudo? src dst proto data len = some (mnChecksumPseudo src dst proto data len) := by
  rw [mnChecksumPseudo?, sum16?_inside inside]
  rfl

/-! ## Ethernet and ARP -/

private theorem etherType?_inside (inside : 14 ≤ frame.length) : mnEtherType? frame = some
    (mnEtherType frame) :=
  get16?_inside (by omega)

private theorem etherIsForUs?_inside (inside : 14 ≤ frame.length) (mac : Mac) :
    mnEtherIsForUs? frame mac = some (mnEtherIsForUs frame mac) := by
  rw [mnEtherIsForUs?, macAt?_inside (by omega)]
  rfl

private theorem isArp?_eq (size : len.toNat ≤ frame.length) : isArp? frame len = some
    (isArp frame len) := by
  unfold isArp? isArp
  by_cases short : len < 42
  · simp [short]
  · have long := (not_below 42 (by decide)).mp short
    simp (disch := omega) [short, etherType?_inside, get16?_inside, byteAt?_inside]

private theorem isArp_long (size : len.toNat ≤ frame.length) (arp : isArp frame len = true) :
    42 ≤ frame.length := by
  simp only [isArp, Bool.and_eq_true, Bool.not_eq_true', decide_eq_false_iff_not, UInt16.lt_iff_toNat_lt,
    show UInt16.toNat 42 = 42 from rfl] at arp
  omega

private theorem arpOpcode?_eq (size : len.toNat ≤ frame.length) : mnArpOpcode? frame len = some
    (mnArpOpcode frame len) := by
  unfold mnArpOpcode? mnArpOpcode
  rw [isArp?_eq size]
  cases arp : isArp frame len with
  | false => rfl
  | true =>
    have long := isArp_long size arp
    simp (disch := omega) [get16?_inside]

private theorem opcode_long (size : len.toNat ≤ frame.length) (op : mnArpOpcode frame len ≠ 0) :
    42 ≤ frame.length := by
  unfold mnArpOpcode at op
  split at op
  · exact isArp_long size ‹_›
  · exact absurd rfl op

private theorem arpWantsUs?_eq (size : len.toNat ≤ frame.length) (ip : Ip4) :
    mnArpWantsUs? frame len ip = some (mnArpWantsUs frame len ip) := by
  unfold mnArpWantsUs? mnArpWantsUs
  rw [arpOpcode?_eq size]
  by_cases request : mnArpOpcode frame len = MN_ARP_OP_REQUEST
  · have long := opcode_long size (by rw [request]; decide)
    simp (disch := omega) [request, ipAt?_inside]
  · simp [request]

private theorem arpInput?_eq (size : len.toNat ≤ frame.length) (net : MnNetFull) :
    arpInput? net frame len = some (arpInput net frame len) := by
  unfold arpInput? arpInput
  rw [arpOpcode?_eq size, arpWantsUs?_eq size]
  by_cases reply : mnArpOpcode frame len = MN_ARP_OP_REPLY
  · have long := opcode_long size (by rw [reply]; decide)
    simp (disch := omega) [reply, ipAt?_inside, macAt?_inside, mnArpSenderIp, mnArpSenderMac]
  · by_cases wants : mnArpWantsUs frame len net.ip = true
    · have request : mnArpOpcode frame len = MN_ARP_OP_REQUEST := by
        simp only [mnArpWantsUs, Bool.and_eq_true, beq_iff_eq] at wants
        exact wants.1
      have long := opcode_long size (by rw [request]; decide)
      simp (disch := omega) [reply, wants, ipAt?_inside, macAt?_inside, mnArpSenderIp, mnArpSenderMac]
    · simp [reply, wants]

/-! ## IPv4 -/

private theorem hdrLen?_inside (inside : 0 < pkt.length) : mnIpv4HdrLen? pkt = some
    (mnIpv4HdrLen pkt) := by
  rw [mnIpv4HdrLen?, byteAt?_inside inside]
  rfl

private theorem ipv4Valid?_eq (size : len.toNat ≤ pkt.length) : mnIpv4Valid? pkt len = some
    (mnIpv4Valid pkt len) := by
  unfold mnIpv4Valid? mnIpv4Valid
  by_cases short : len < 20
  · simp [short]
  have long := (not_below 20 (by decide)).mp short
  rw [if_neg short, byteAt?_inside (by omega), hdrLen?_inside (by omega),
    get16?_inside (by omega), ← mnIpv4TotalLen]
  by_cases header : byteAt pkt 0 >>> 4 ≠ 4 ∨ mnIpv4HdrLen pkt < 20 ∨ (mnIpv4HdrLen pkt).toUInt16 > len
  · obtain version | low | high := header <;> simp [*]
  rw [not_or, not_or, not_not] at header
  obtain ⟨version, low, high⟩ := header
  by_cases total : mnIpv4TotalLen pkt < (mnIpv4HdrLen pkt).toUInt16 ∨ mnIpv4TotalLen pkt > len
  · obtain less | more := total <;> simp [*]
  · have inside : (mnIpv4HdrLen pkt).toUInt16.toNat ≤ pkt.length := by
      rw [gt_iff_lt, UInt16.lt_iff_toNat_lt] at high
      omega
    rw [not_or] at total
    simp [short, version, low, high, total, checksumValid?_inside inside]

/-- A packet with its header and its payload within the bytes there are. -/
structure Whole (ip : List UInt8) : Prop where
  header : 20 ≤ ip.length
  payload : (mnIpv4PayloadLen ip).toNat ≤ (mnIpv4Payload ip).length

private theorem whole_of_valid (size : len.toNat ≤ pkt.length) (valid : mnIpv4Valid pkt len = true) :
    Whole pkt := by
  have laid := valid_laid valid
  have header := laid.header
  have total := laid.total
  have inside := laid.inside
  refine ⟨by omega, ?_⟩
  rw [mnIpv4Payload, List.length_drop]
  omega

section
variable {ip : List UInt8}

private theorem payload?_inside (whole : Whole ip) : mnIpv4Payload? ip = some (mnIpv4Payload ip) := by
  have header := whole.header
  rw [mnIpv4Payload?, hdrLen?_inside (by omega)]
  rfl

private theorem payloadLen?_inside (whole : Whole ip) : mnIpv4PayloadLen? ip = some
    (mnIpv4PayloadLen ip) := by
  have header := whole.header
  rw [mnIpv4PayloadLen?, hdrLen?_inside (by omega), get16?_inside (by omega)]
  rfl

private theorem ipAccepts?_inside (inside : 20 ≤ ip.length) (net : MnNetFull) : ipAccepts? net ip = some
    (ipAccepts net ip) := by
  rw [ipAccepts?, ipAt?_inside (by omega)]
  rfl

/-! ## ICMP -/

private theorem isEchoRequest?_eq (size : len.toNat ≤ frame.length) (ip : Ip4) :
    mnIcmpIsEchoRequest? frame len ip = some (mnIcmpIsEchoRequest frame len ip) := by
  unfold mnIcmpIsEchoRequest? mnIcmpIsEchoRequest
  dsimp only
  by_cases short : len < 42
  · simp [short]
  have long := (not_below 42 (by decide)).mp short
  have room : (len - 14).toNat ≤ (frame.drop 14).length := by
    have back : (len - 14).toNat = len.toNat - 14 := toNat_back 14 (by omega)
    rw [back, List.length_drop]
    omega
  have header : 20 ≤ (frame.drop 14).length := by
    rw [List.length_drop]
    omega
  rw [if_neg short, etherType?_inside (by omega), ipv4Valid?_eq room, byteAt?_inside (by omega),
    ipAt?_inside (by omega)]
  unfold mnIpv4Proto mnIpv4Dst
  by_cases asked : mnEtherType frame = MN_ETHERTYPE_IPV4 ∧
    mnIpv4Valid (frame.drop 14) (len - 14) = true ∧
      byteAt (frame.drop 14) 9 = MN_IPPROTO_ICMP ∧ ipAt (frame.drop 14) 16 = ip
  · obtain ⟨type, valid, proto, dst⟩ := asked
    have whole := whole_of_valid room valid
    have payload := whole.payload
    rw [payload?_inside whole, payloadLen?_inside whole]
    by_cases little : mnIpv4PayloadLen (frame.drop 14) < 8
    · simp [type, valid, proto, dst, little]
    · have enough := (not_below 8 (by decide)).mp little
      simp (disch := omega) [short, type, valid, proto, dst, little, byteAt?_inside,
        checksumValid?_inside]
  · have refused : (mnEtherType frame == MN_ETHERTYPE_IPV4 && mnIpv4Valid (frame.drop 14) (len - 14) &&
        byteAt (frame.drop 14) 9 == MN_IPPROTO_ICMP && ipAt (frame.drop 14) 16 == ip) = false := by
      rw [Bool.eq_false_iff]
      simpa [and_assoc] using asked
    have first : (!(len < 42) && mnEtherType frame == MN_ETHERTYPE_IPV4 && mnIpv4Valid
      (frame.drop 14) (len - 14) &&
        byteAt (frame.drop 14) 9 == MN_IPPROTO_ICMP && ipAt (frame.drop 14) 16 == ip : Bool) =
          false := by
      simpa [short] using refused
    simp only [Option.bind_eq_bind, Option.bind_some, refused, first, Bool.not_false,
      if_true, Bool.false_and]
    rfl

private theorem echoReply?_eq (net : MnNetFull) (inside : 14 ≤ frame.length)
    (whole : Whole (frame.drop 14)) :
    echoReply? net frame = some (echoReply net frame) := by
  have header := whole.header
  have payload := whole.payload
  unfold echoReply? echoReply
  dsimp only
  rw [macAt?_inside (by omega), ipAt?_inside (by omega), get16?_inside (by omega), payload?_inside whole,
    payloadLen?_inside whole]
  simp (disch := omega) [bytes?_inside, mnIpv4Src]

/-! ## UDP -/

private theorem udpValid?_inside {udp : List UInt8} (size : len.toNat ≤ udp.length) (src dst : Ip4) :
    mnUdpValid? src dst udp len = some (mnUdpValid src dst udp len) := by
  unfold mnUdpValid? mnUdpValid
  by_cases short : len < 8
  · simp [short]
  · have long := (not_below 8 (by decide)).mp short
    simp (disch := omega) [short, get16?_inside, checksumPseudo?_inside]

/-- A copy into the pool takes just the bytes it is told to. -/
theorem write_taken (x : XMem) (seg off : UInt16) (src : List UInt8) (len : UInt16) :
    mnXmemWrite x seg off (src.take len.toNat) len = mnXmemWrite x seg off src len := by
  funext a
  unfold mnXmemWrite
  split
  · simp only [List.getD_eq_getElem?_getD, List.getElem?_take]
    rw [if_pos (by omega)]
  · rfl

private theorem udpValid_long {udp : List UInt8} {src dst : Ip4}
    (valid : mnUdpValid src dst udp len = true) :
    8 ≤ len.toNat := by
  simp only [mnUdpValid, Bool.and_eq_true, Bool.not_eq_true', decide_eq_false_iff_not,
    UInt16.lt_iff_toNat_lt, not_lt] at valid
  exact valid.1.1

private theorem deliverUdp?_eq (net : MnNetFull) (x : XMem) (whole : Whole ip) :
    deliverUdp? net x ip = some (deliverUdp net x ip) := by
  have header := whole.header
  have payload := whole.payload
  unfold deliverUdp? deliverUdp
  rw [payload?_inside whole, payloadLen?_inside whole, ipAt?_inside (by omega), ipAt?_inside (by omega)]
  simp only [Option.bind_eq_bind, Option.bind_some, udpValid?_inside payload]
  unfold mnIpv4Src mnIpv4Dst
  cases valid : mnUdpValid (ipAt ip 12) (ipAt ip 16) (mnIpv4Payload ip) (mnIpv4PayloadLen ip) with
  | false => rfl
  | true =>
    have long := udpValid_long valid
    have size : (mnIpv4PayloadLen ip - 8).toNat = (mnIpv4PayloadLen ip).toNat - 8 := toNat_back 8 long
    rw [get16?_inside (by omega), get16?_inside (by omega), bytes?_inside (by omega),
      ← mnUdpDport, ← mnUdpSport]
    simp only [Option.bind_some, Bool.not_true, Bool.false_eq_true, if_false]
    cases found : socketOn net.sock (mnUdpDport (mnIpv4Payload ip)) with
    | none => rfl
    | some i =>
      dsimp only
      split
      · rfl
      · rw [write_taken]
        rfl

/-! ## TCP -/

private theorem tcpAccepts?_eq (whole : Whole ip) : tcpAccepts? ip = some (tcpAccepts ip) := by
  have header := whole.header
  have payload := whole.payload
  unfold tcpAccepts? tcpAccepts
  rw [payload?_inside whole, payloadLen?_inside whole]
  by_cases short : mnIpv4PayloadLen ip < 20
  · simp [short]
  · have long := (not_below 20 (by decide)).mp short
    simp (disch := omega) [short, ipAt?_inside, checksumPseudo?_inside, byteAt?_inside,
      mnIpv4Src, mnIpv4Dst]

/-- `hlen` of `mn_tcp_input`. -/
def hlenOf (seg : List UInt8) : UInt16 := ((byteAt seg 12 >>> 4) * 4).toUInt16

private theorem hlenOf_toNat (seg : List UInt8) : (hlenOf seg).toNat =
    (byteAt seg 12 >>> 4).toNat % 16 * 4 := by
  have nibble : (byteAt seg 12 >>> 4).toNat < 16 := by
    have below := (byteAt seg 12).toNat_lt
    rw [UInt8.toNat_shiftRight, show UInt8.toNat 4 % 8 = 4 from rfl, Nat.shiftRight_eq_div_pow]
    omega
  rw [hlenOf, UInt8.toNat_toUInt16, UInt8.toNat_mul, show UInt8.toNat 4 = 4 from rfl]
  omega

/-- What the tests of `mn_tcp_input` leave of the lengths. -/
theorem accepted_lengths (accepted : tcpAccepts ip = true) :
    20 ≤ (hlenOf (mnIpv4Payload ip)).toNat ∧
      (hlenOf (mnIpv4Payload ip)).toNat ≤ (mnIpv4PayloadLen ip).toNat := by
  simp only [tcpAccepts, ← hlenOf.eq_def, Bool.and_eq_true, Bool.not_eq_true', Bool.or_eq_false_iff,
    decide_eq_false_iff_not,
    gt_iff_lt, UInt16.lt_iff_toNat_lt, not_lt] at accepted
  exact ⟨accepted.2.1, accepted.2.2⟩

private theorem tcpSegment?_eq {seg : List UInt8} {slen : UInt16} (size : slen.toNat ≤ seg.length)
    (least : 20 ≤ (hlenOf seg).toNat)
    (most : (hlenOf seg).toNat ≤ slen.toNat) : tcpSegment? seg slen = some (tcpSegment seg slen) := by
  rw [hlenOf_toNat] at least most
  unfold tcpSegment?
  rw [byteAt?_inside (by omega), byteAt?_inside (by omega), get16?_inside (by omega),
    get16?_inside (by omega),
    get16?_inside (by omega), get32?_inside (by omega), get32?_inside (by omega)]
  simp only [Option.bind_eq_bind, Option.bind_some]
  rw [bytes?_inside (by omega), bytes?_inside (by omega), ← List.drop_take, ← List.drop_take]
  simp only [Option.bind_some]
  rw [dif_pos ⟨options_fit _ _, payload_fits _ _ _⟩]
  rfl

private theorem drop_byte {k : Nat} (here : o < k) (inside : k ≤ m.length) :
    (m.take k).drop o = byteAt m o :: (m.take k).drop (o + 1) := by
  have there : o < (m.take k).length := by
    rw [List.length_take]
    omega
  rw [List.drop_eq_getElem_cons there, List.getElem_take, byteAt, List.getD_eq_getElem?_getD,
    List.getElem?_eq_getElem (show o < m.length by omega), Option.getD_some]

/-- One turn of the walk over the option bytes. -/
theorem takeMssFrom_turn (fuel : Nat) (kind length : UInt8) (rest : List UInt8) (mss : UInt16) :
    takeMssFrom (fuel + 1) (kind :: length :: rest) mss =
      if kind = 0 then mss
      else if kind = 1 then takeMssFrom fuel (length :: rest) mss
      else
        let mss := if kind = 2 ∧ length = 4 ∧ 2 ≤ rest.length then get16 rest 0 else mss
        if length < 2 then mss else takeMssFrom fuel (rest.drop (length.toNat - 2)) mss := by
  rcases rest with _ | ⟨high, _ | ⟨low, rest⟩⟩
  · simp [takeMssFrom]
  · simp [takeMssFrom]
  · simp only [takeMssFrom, List.length_cons, show 2 ≤ rest.length + 1 + 1 by omega, and_true]
    rfl

private theorem takeMssFrom_end (fuel : Nat) {opts : List UInt8} (few : opts.length ≤ 1) (mss : UInt16) :
    takeMssFrom fuel opts mss = mss := by
  rcases fuel with _ | fuel
  · simp [takeMssFrom]
  rcases opts with _ | ⟨b, _ | ⟨c, rest⟩⟩
  · simp [takeMssFrom]
  · simp [takeMssFrom]
  · simp only [List.length_cons] at few
    omega

section
variable {seg : List UInt8} {hlen o : UInt16}

/-- There is room for the MSS of an option just where the test of its offset
says so. -/
theorem mss_room (inside : hlen.toNat ≤ seg.length) (near : o.toNat ≤ 400) :
    o + 3 < hlen ↔ 2 ≤ ((seg.take hlen.toNat).drop (o.toNat + 1 + 1)).length := by
  have three : (o + 3).toNat = o.toNat + 3 := toNat_ahead 3 (by omega)
  rw [UInt16.lt_iff_toNat_lt, three, List.length_drop, List.length_take]
  omega

private theorem mss_read (inside : hlen.toNat ≤ seg.length) (near : o.toNat ≤ 400)
    (room : o + 3 < hlen) :
    get16? seg (o + 2).toNat = some (get16 ((seg.take hlen.toNat).drop (o.toNat + 1 + 1)) 0) := by
  have two : (o + 2).toNat = o.toNat + 2 := toNat_ahead 2 (by omega)
  have three : (o + 3).toNat = o.toNat + 3 := toNat_ahead 3 (by omega)
  rw [UInt16.lt_iff_toNat_lt, three] at room
  rw [two, get16?_inside (by omega), drop_byte (by omega) inside, drop_byte (by omega) inside]
  rfl

/-- The loop by offsets reads inside the header, and finds what the walk over
the options finds. -/
theorem takeMssAt?_inside (inside : hlen.toNat ≤ seg.length) (short : hlen.toNat ≤ 60)
    (fuel : Nat) (o mss : UInt16) (near : o.toNat ≤ 400) (enough : hlen.toNat ≤ o.toNat + fuel) :
    takeMssAt? seg hlen fuel o mss = some
      (takeMssFrom fuel ((seg.take hlen.toNat).drop o.toNat) mss) := by
  induction fuel generalizing o mss with
  | zero =>
    have one : (o + 1).toNat = o.toNat + 1 := toNat_ahead 1 (by omega)
    have done : ¬ o + 1 < hlen := by
      rw [UInt16.lt_iff_toNat_lt, one]
      omega
    rw [takeMssAt?, if_neg done, takeMssFrom_end]
    rw [List.length_drop, List.length_take]
    omega
  | succ fuel ih =>
    have one : (o + 1).toNat = o.toNat + 1 := toNat_ahead 1 (by omega)
    rw [takeMssAt?]
    by_cases more : o + 1 < hlen
    · have ahead := more
      rw [UInt16.lt_iff_toNat_lt, one] at ahead
      rw [if_pos more, drop_byte (by omega) inside, drop_byte (by omega) inside,
        byteAt?_inside (by omega), one,
        byteAt?_inside (by omega)]
      rw [takeMssFrom_turn]
      simp only [Option.bind_eq_bind, Option.bind_some]
      by_cases stop : byteAt seg o.toNat = 0
      · rw [if_pos stop, if_pos stop]
        rfl
      by_cases pad : byteAt seg o.toNat = 1
      · rw [if_neg stop, if_pos pad, ih _ _ (by omega) (by omega), if_neg stop, if_pos pad, one,
          drop_byte (by omega) inside]
      rw [if_neg stop, if_neg pad, if_neg stop, if_neg pad]
      have room := mss_room inside near
      -- Past the option, whatever it told.
      have onward : ∀ told, (if byteAt seg (o.toNat + 1) < 2 then some told
            else takeMssAt? seg hlen fuel (o + (byteAt seg (o.toNat + 1)).toUInt16) told) =
          some (if byteAt seg (o.toNat + 1) < 2 then told
            else takeMssFrom fuel
              (((seg.take hlen.toNat).drop (o.toNat + 1 + 1)).drop
                ((byteAt seg (o.toNat + 1)).toNat - 2)) told) := by
        intro told
        split
        · rfl
        rename_i long
        have below := (byteAt seg (o.toNat + 1)).toNat_lt
        have next : (o + (byteAt seg (o.toNat + 1)).toUInt16).toNat = o.toNat +
            (byteAt seg (o.toNat + 1)).toNat := by
          rw [UInt16.toNat_add, UInt8.toNat_toUInt16]
          omega
        rw [UInt8.lt_iff_toNat_lt, show UInt8.toNat 2 = 2 from rfl] at long
        rw [ih _ _ (by omega) (by omega), next, List.drop_drop,
          show o.toNat + 1 + 1 + ((byteAt seg (o.toNat + 1)).toNat - 2) = o.toNat +
            (byteAt seg (o.toNat + 1)).toNat by omega]
      by_cases offer : byteAt seg o.toNat = 2 ∧ byteAt seg (o.toNat + 1) = 4 ∧ o + 3 < hlen
      · rw [if_pos offer, mss_read inside near offer.2.2]
        rw [room] at offer
        simp only [if_pos offer]
        exact onward _
      · rw [if_neg offer]
        rw [room] at offer
        simp only [if_neg offer]
        exact onward mss
    · have behind := more
      rw [UInt16.lt_iff_toNat_lt, one] at behind
      rw [if_neg more, takeMssFrom_end]
      rw [List.length_drop, List.length_take]
      omega

end

private theorem tcpInput?_eq (st : Stack) (whole : Whole ip) : st.tcpInput? ip = some
    (st.tcpInput ip) := by
  have header := whole.header
  unfold Stack.tcpInput? Stack.tcpInput
  cases attached : st.tcp with
  | none => rfl
  | some set =>
    dsimp only
    rw [tcpAccepts?_eq whole]
    cases accepted : tcpAccepts ip with
    | false => rfl
    | true =>
      obtain ⟨least, most⟩ := accepted_lengths accepted
      rw [payload?_inside whole, payloadLen?_inside whole, ipAt?_inside (by omega)]
      simp only [Option.bind_eq_bind, Option.bind_some, if_true, tcpSegment?_eq whole.payload least most]
      rfl

end

/-! ## `mn_net_poll` -/

private theorem ipInput?_eq (st : Stack) (f : RxFrame) : st.ipInput? f.bytes f.len = some
    (st.ipInput f.bytes f.len) := by
  have size := rx_length f
  unfold Stack.ipInput? Stack.ipInput
  dsimp only
  by_cases short : f.len < 34
  · simp [short]
  have long := (not_below 34 (by decide)).mp short
  rw [size] at long
  have room : (f.len - 14).toNat ≤ (f.bytes.drop 14).length := packet_inside short
  have header : 20 ≤ (f.bytes.drop 14).length := by
    rw [List.length_drop]
    omega
  rw [if_neg short, ipv4Valid?_eq room, ipAccepts?_inside header, byteAt?_inside (by omega),
    isEchoRequest?_eq (by omega)]
  by_cases passes : mnIpv4Valid (f.bytes.drop 14) (f.len - 14) = true ∧
    ipAccepts st.net (f.bytes.drop 14) = true
  · obtain ⟨valid, admitted⟩ := passes
    have whole := whole_of_valid room valid
    rw [echoReply?_eq _ (by omega) whole, deliverUdp?_eq _ _ whole, tcpInput?_eq _ whole]
    simp only [Option.bind_eq_bind, Option.bind_some, valid, admitted, short, decide_false,
      Bool.not_true, Bool.or_false,
      Bool.false_eq_true, if_false, ← mnIpv4Proto.eq_def]
    split
    · split <;> rfl
    split
    · rfl
    split <;> rfl
  · have stopped : (!mnIpv4Valid (f.bytes.drop 14) (f.len - 14) || !ipAccepts st.net
      (f.bytes.drop 14)) = true := by
      simpa [or_iff_not_imp_left] using passes
    simp only [Option.bind_eq_bind, Option.bind_some, stopped, if_true, Bool.or_assoc, Bool.or_true]
    rfl

/-- A poll reads its frame below its length, and nowhere else. -/
theorem netPoll?_eq (st : Stack) (frame : Option RxFrame) : mnNetPoll? st frame = some
    (mnNetPoll st frame) := by
  cases frame with
  | none => rfl
  | some f =>
    have size := rx_length f
    unfold mnNetPoll? mnNetPoll
    dsimp only
    by_cases short : f.len < 14
    · simp [short]
    have long := (not_below 14 (by decide)).mp short
    rw [size] at long
    rw [if_neg short, etherIsForUs?_inside long, etherType?_inside long,
      arpInput?_eq (by omega), ipInput?_eq]
    cases ours : mnEtherIsForUs f.bytes st.net.nif.mac with
    | false => simp
    | true =>
      simp only [Option.bind_eq_bind, Option.bind_some, short, decide_false, Bool.false_or,
        Bool.not_true, Bool.false_eq_true,
        if_false]
      split
      · rfl
      split <;> rfl

/-! ## DHCP -/

section
open Core.Dhcp DnsParse

private theorem byteAt_piece {i : Nat} (within : i < n) : byteAt ((m.drop o).take n) i =
    byteAt m (o + i) := by
  simp only [byteAt, List.getD_eq_getElem?_getD, List.getElem?_take, if_pos within, List.getElem?_drop]

private theorem ipAt_piece (within : 4 ≤ n) : ipAt ((m.drop o).take n) 0 = ipAt m o := by
  simp (disch := omega) only [ipAt, byteAt_piece, Nat.zero_add, Nat.add_zero]

private theorem get32_piece (within : 4 ≤ n) : get32 ((m.drop o).take n) 0 = get32 m o := by
  simp (disch := omega) only [get32, byteAt_piece, Nat.zero_add, Nat.add_zero]

/-- An option's data are read where they are. -/
theorem take?_inside (w : Walked) (code olen : UInt8) (inside : o + olen.toNat ≤ m.length) :
    w.take? m code o olen = some (w.take code ((m.drop o).take olen.toNat)) := by
  have size : ((m.drop o).take olen.toNat).length = olen.toNat := by
    rw [List.length_take, List.length_drop]
    omega
  unfold Walked.take? Walked.take
  rw [size]
  have one : olen ≥ 1 ↔ olen.toNat ≥ 1 := UInt8.le_iff_toNat_le
  have four : olen < 4 ↔ olen.toNat < 4 := UInt8.lt_iff_toNat_lt
  by_cases type : code = OPT_MSG_TYPE
  · by_cases some_ : olen.toNat ≥ 1 <;> simp (disch := omega)
      [type, one, some_, byteAt?_inside, byteAt_piece]
  rw [if_neg type, if_neg type]
  by_cases overload : code = OPT_OVERLOAD
  · by_cases some_ : olen.toNat ≥ 1 <;> simp (disch := omega)
      [overload, one, some_, byteAt?_inside, byteAt_piece]
  rw [if_neg overload, if_neg overload]
  by_cases few : olen.toNat < 4
  · simp [four, few]
  · rw [if_neg (by rwa [four]), if_neg few]
    simp (disch := omega) only [ipAt?_inside, get32?_inside, ipAt_piece, get32_piece]
    repeat' split
    all_goals rfl

private theorem walkFrom?_inside {stop : UInt16} (inside : stop.toNat ≤ m.length)
    (short : stop.toNat ≤ 576)
    (fuel : Nat) (o : UInt16)
    (w : Walked) (enough : stop.toNat ≤ o.toNat + fuel) : walkFrom? m stop fuel o w = some
    (walkFrom m stop fuel o w) := by
  induction fuel generalizing o w with
  | zero => rw [walkFrom?, walkFrom, if_neg (by rwa [UInt16.lt_iff_toNat_lt, not_lt])]
  | succ fuel ih =>
    rw [walkFrom?, walkFrom]
    by_cases more : o < stop
    · have ahead := more
      rw [UInt16.lt_iff_toNat_lt] at ahead
      have one : (o + 1).toNat = o.toNat + 1 := toNat_ahead 1 (by omega)
      have two : (o + 2).toNat = o.toNat + 2 := toNat_ahead 2 (by omega)
      rw [if_pos more, if_pos more, byteAt?_inside (by omega)]
      simp only [Option.bind_eq_bind, Option.bind_some]
      split
      · rfl
      split
      · exact ih _ _ (by omega)
      split
      · rfl
      rename_i further
      rw [ge_iff_le, UInt16.le_iff_toNat_le, one, not_le] at further
      rw [byteAt?_inside (by omega)]
      simp only [Option.bind_some]
      split
      · rfl
      rename_i fits
      have below := (byteAt m (o + 1).toNat).toNat_lt
      have next : (o + 2 + (byteAt m (o + 1).toNat).toUInt16).toNat = o.toNat + 2 +
          (byteAt m (o + 1).toNat).toNat := by
        rw [UInt16.toNat_add, two, UInt8.toNat_toUInt16]
        omega
      rw [gt_iff_lt, UInt16.lt_iff_toNat_lt, next, not_lt] at fits
      rw [take?_inside w _ _ (by omega)]
      exact ih _ _ (by omega)
    · rw [if_neg more, if_neg more]

private theorem isForUs?_eq (d : MnDhcp) (mac : Mac) (short : m.length ≤ 576) :
    Dhcp.isForUs? d mac m = some (Dhcp.isForUs d mac m) := by
  unfold Dhcp.isForUs? Dhcp.isForUs
  by_cases little : UInt16.ofNat m.length < Dhcp.HDR_LEN + 4
  · simp [little]
  · have long := little
    rw [UInt16.lt_iff_toNat_lt, len_toNat (short.trans (by decide)),
      show (Dhcp.HDR_LEN + 4).toNat = 240 from rfl] at long
    simp (disch := omega) [little, byteAt?_inside, macAt?_inside]

private theorem isForUs_long {d : MnDhcp} {mac : Mac} (short : m.length ≤ 576)
    (ours : Dhcp.isForUs d mac m = true) : 240 ≤ m.length := by
  simp only [Dhcp.isForUs, Bool.and_eq_true, Bool.not_eq_true', decide_eq_false_iff_not,
    UInt16.lt_iff_toNat_lt,
    len_toNat (short.trans (by decide)), show (Dhcp.HDR_LEN + 4).toNat = 240 from rfl, not_lt] at ours
  exact ours.1.1.1.1

/-- `parse` reads the message below its length, the fields that option 52 says
hold options included. -/
theorem dhcpParse?_eq (d : MnDhcp) (mac : Mac) (short : m.length ≤ 576) :
    Dhcp.parse? d mac m = some
      (Dhcp.parse d mac m, if Dhcp.isForUs d mac m then some (yiaddr m) else none) := by
  unfold Dhcp.parse? Dhcp.parse
  rw [isForUs?_eq d mac short]
  cases ours : Dhcp.isForUs d mac m with
  | false => rfl
  | true =>
    have long := isForUs_long short ours
    have size := len_toNat (short.trans (by decide))
    have walked : ∀ o stop w, stop.toNat ≤ m.length → walk? m o stop w = some (walk m o stop w) :=
      fun o stop w inside => walkFrom?_inside inside (by omega) stop.toNat o w (by omega)
    have first := walked (Dhcp.HDR_LEN + 4) (UInt16.ofNat m.length) { d } size.le
    have file := fun w => walked OFF_FILE Dhcp.HDR_LEN w
      ((show Dhcp.HDR_LEN.toNat ≤ 240 by decide).trans long)
    have sname := fun w => walked OFF_SNAME OFF_FILE w ((show OFF_FILE.toNat ≤ 240 by decide).trans long)
    simp only [Option.bind_eq_bind, Option.bind_some, if_true,
      ipAt?_inside (show 16 + 3 < m.length by omega), first, file,
      sname, readOptions]
    split <;> split <;> rfl

end

/-! ## DNS -/

section
open Core.Dns DnsParse

private theorem skipNameFrom?_inside (inside : len.toNat ≤ m.length) (short : len.toNat ≤ 576)
    (fuel : Nat) (o : UInt16)
    (enough : len.toNat ≤ o.toNat + fuel) : skipNameFrom? m len fuel o = some
    (skipNameFrom m len fuel o) := by
  induction fuel generalizing o with
  | zero => rw [skipNameFrom?, skipNameFrom, if_neg (by rwa [UInt16.lt_iff_toNat_lt, not_lt])]
  | succ fuel ih =>
    rw [skipNameFrom?, skipNameFrom]
    by_cases more : o < len
    · have ahead := more
      rw [UInt16.lt_iff_toNat_lt] at ahead
      rw [if_pos more, if_pos more, byteAt?_inside (by omega)]
      simp only [Option.bind_eq_bind, Option.bind_some]
      split
      · rfl
      split
      · rfl
      -- A label takes its length and one more.
      have below := (byteAt m o.toNat).toNat_lt
      have next : (o + 1 + (byteAt m o.toNat).toUInt16).toNat = o.toNat + 1 +
          (byteAt m o.toNat).toNat := by
        rw [UInt16.toNat_add, UInt16.toNat_add, UInt16.toNat_one, UInt8.toNat_toUInt16]
        omega
      exact ih _ (by omega)
    · rw [if_neg more, if_neg more]

private theorem skipName?_inside (short : m.length ≤ 576) (o : UInt16) :
    skipName? m o (UInt16.ofNat m.length) = some (skipName m o (UInt16.ofNat m.length)) := by
  have size := len_toNat (short.trans (by decide))
  exact skipNameFrom?_inside size.le (by omega) _ o (Nat.le_add_left ..)

/-- Where a name ends is no further than the message. -/
theorem skipName_inside (short : m.length ≤ 576) (o : UInt16) :
    (skipName m o (UInt16.ofNat m.length)).toNat ≤ m.length := by
  by_cases found : skipName m o (UInt16.ofNat m.length) = 0
  · rw [found]
    exact Nat.zero_le _
  · exact ((skipName_iff short o _).mp ⟨rfl, found⟩).bounds.2

private theorem record?_inside (short : m.length ≤ 576) (o : UInt16) :
    record? m (UInt16.ofNat m.length) o = some (record m (UInt16.ofNat m.length) o) := by
  have size := len_toNat (short.trans (by decide))
  have ends := skipName_inside short o
  rw [record?, skipName?_inside short, record]
  simp only [Option.bind_eq_bind, Option.bind_some]
  generalize skipName m o (UInt16.ofNat m.length) = p at ends
  have ten : (p + 10).toNat = p.toNat + 10 := toNat_ahead 10 (by omega)
  split
  · rfl
  rename_i room
  rw [not_or, gt_iff_lt, UInt16.lt_iff_toNat_lt, ten, size, not_lt] at room
  rw [get16?_inside (by omega), get16?_inside (by omega), get16?_inside (by omega)]
  simp only [Option.bind_some]
  split
  · rfl
  rename_i fits
  split
  · rename_i address
    rw [address.2.2, gt_iff_lt, UInt16.lt_iff_toNat_lt, UInt16.toNat_add, ten, size,
      show UInt16.toNat 4 = 4 from rfl,
      not_lt] at fits
    rw [ipAt?_inside (by omega)]
    rfl
  · rfl

private theorem questions?_inside (short : m.length ≤ 576) (qd : Nat) (o : UInt16) :
    questions? m (UInt16.ofNat m.length) qd o = some (questions m (UInt16.ofNat m.length) qd o) := by
  induction qd generalizing o with
  | zero => rfl
  | succ qd ih =>
    have asked : question? m (UInt16.ofNat m.length) o = some
        (question m (UInt16.ofNat m.length) o) := by
      rw [question?, skipName?_inside short]
      rfl
    rw [questions?, questions, asked]
    simp only [Option.bind_eq_bind, Option.bind_some]
    cases question m (UInt16.ofNat m.length) o with
    | none => rfl
    | some next => exact ih next

private theorem answers?_inside (short : m.length ≤ 576) (an : Nat) (o : UInt16) :
    answers? m (UInt16.ofNat m.length) an o = some (answers m (UInt16.ofNat m.length) an o) := by
  induction an generalizing o with
  | zero => rfl
  | succ an ih =>
    rw [answers?, answers, record?_inside short]
    simp only [Option.bind_eq_bind, Option.bind_some]
    cases record m (UInt16.ofNat m.length) o with
    | malformed | answer => rfl
    | other next => exact ih next

/-- `parse` reads the message below its length. -/
theorem dnsParse?_eq (d : MnDns) (short : m.length ≤ 576) : Dns.parse? d m = some (Dns.parse d m) := by
  have size := len_toNat (short.trans (by decide))
  unfold Dns.parse? Dns.parse
  dsimp only
  by_cases little : UInt16.ofNat m.length < Dns.HDR_LEN
  · simp [little]
  have long := little
  rw [UInt16.lt_iff_toNat_lt, size, show Dns.HDR_LEN.toNat = 12 from rfl] at long
  rw [if_neg little, get16?_inside (by omega), get16?_inside (by omega), get16?_inside (by omega),
    get16?_inside (by omega)]
  simp only [Option.bind_eq_bind, Option.bind_some, questions?_inside short,
    answers?_inside short, little, false_or]
  split
  · rfl
  split
  · rfl
  split
  · rfl
  cases questions m (UInt16.ofNat m.length) (get16 m 4).toNat Dns.HDR_LEN with
  | none => rfl
  | some o =>
    dsimp only
    cases answers m (UInt16.ofNat m.length) (get16 m 6).toNat o <;> rfl

end

/-! ## All of them -/

/-- The options of a segment that was let in are read inside its header. -/
theorem options_inside {f : RxFrame} (long : ¬ f.len < 34)
    (valid : mnIpv4Valid (f.bytes.drop 14) (f.len - 14) = true)
    (accepted : tcpAccepts (f.bytes.drop 14) = true) (mss : UInt16) :
    takeMssAt? (mnIpv4Payload (f.bytes.drop 14)) (hlenOf (mnIpv4Payload (f.bytes.drop 14)))
      (segmentIn f).opts.length 20 mss =
      some (takeMssFrom (segmentIn f).opts.length (segmentIn f).opts mss) := by
  have whole := whole_of_valid (packet_inside long) valid
  have payload := whole.payload
  unfold segmentIn
  generalize f.bytes.drop 14 = ip at accepted payload
  obtain ⟨least, most⟩ := accepted_lengths accepted
  have nibble := hlenOf_toNat (mnIpv4Payload ip)
  have opts : (tcpSegment (mnIpv4Payload ip) (mnIpv4PayloadLen ip)).opts =
      ((mnIpv4Payload ip).take (hlenOf (mnIpv4Payload ip)).toNat).drop 20 := by
    rw [nibble]
    rfl
  have size : ((mnIpv4Payload ip).take (hlenOf (mnIpv4Payload ip)).toNat).length =
      (hlenOf (mnIpv4Payload ip)).toNat := by
    rw [List.length_take]
    omega
  have enough : (hlenOf (mnIpv4Payload ip)).toNat ≤
      UInt16.toNat 20 +
        (((mnIpv4Payload ip).take (hlenOf (mnIpv4Payload ip)).toNat).drop 20).length := by
    rw [List.length_drop, size, show UInt16.toNat 20 = 20 from rfl]
    omega
  rw [opts, takeMssAt?_inside (most.trans payload) (by omega) _ 20 mss (by decide) enough]
  rfl

/-- A datagram is no longer than the room for it. -/
theorem received_short {net : MnNetFull} {x : XMem} {s : UInt8} {cap : UInt16} {r : Received}
    (got : (mnNetUdpRecv net x s cap).1 = some r) : r.data.length ≤ cap.toNat := by
  have reception := udpRecv_reception net x s cap
  generalize mnNetUdpRecv net x s cap = out at got reception
  cases reception with
  | nothing => cases got
  | datagram i here waits =>
    cases got
    rw [mnXmemRead_length, toNat_clamp]
    exact Nat.min_le_right _ _

/-- `deliver_udp` writes to the pool inside one mailbox. -/
theorem deliver_inside (net : MnNetFull) (x : XMem) (ip : List UInt8) {a : Nat}
    (written : (deliverUdp net x ip).2 a ≠ x a) :
    ∃ i, mailbox net i ≤ a ∧ a < mailbox net i + 576 := by
  have delivery := deliverUdp_delivery net x ip
  generalize deliverUdp net x ip = out at written delivery
  cases delivery with
  | invalid | dropped => exact absurd rfl written
  | mailed i _ _ _ fits =>
    have short := fits_toNat.mp fits
    refine ⟨i, ?_⟩
    by_contra outside
    refine written (if_neg fun there => outside ?_)
    unfold mailbox
    omega

/-- Nothing reaches outside its buffer: a poll reads the frame it got below its
length, whatever that holds, and so does TCP the options of a segment; DHCP and
DNS read a datagram below its length; each frame handed to the link fits a
transmit buffer; and a delivery writes to one mailbox alone. -/
theorem inside_buffers :
    (∀ st frame, mnNetPoll? st frame = some (mnNetPoll st frame)) ∧
    (∀ f : RxFrame, ¬ f.len < 34 → mnIpv4Valid (f.bytes.drop 14) (f.len - 14) = true →
      tcpAccepts (f.bytes.drop 14) = true → ∀ mss,
        takeMssAt? (mnIpv4Payload (f.bytes.drop 14)) (hlenOf (mnIpv4Payload (f.bytes.drop 14)))
          (segmentIn f).opts.length 20
          mss = some (takeMssFrom (segmentIn f).opts.length (segmentIn f).opts mss)) ∧
    (∀ net x s r, (mnNetUdpRecv net x s MN_UDP_SOCK_BUF).1 = some r →
      (∀ d mac, Dhcp.parse? d mac r.data =
        some (Dhcp.parse d mac r.data, if Dhcp.isForUs d mac r.data then some
          (Dhcp.yiaddr r.data) else none)) ∧
      ∀ d, Dns.parse? d r.data = some (Dns.parse d r.data)) ∧
    (∀ st, Life st → ∀ act, ∀ entry ∈ handedSince st.net.toMnNet (exec st act).net.toMnNet,
      entry.1.bytes.length ≤ 1518) ∧
    ∀ net x ip a, (deliverUdp net x ip).2 a ≠ x a → ∃ i, mailbox net i ≤ a ∧
      a < mailbox net i + 576 := by
  refine ⟨netPoll?_eq, fun f => options_inside, fun net x s r got => ?_,
    fun st life act entry member => ?_,
    fun net x ip a => deliver_inside net x ip⟩
  · have short : r.data.length ≤ 576 := received_short got
    exact ⟨fun d mac => dhcpParse?_eq d mac short, fun d => dnsParse?_eq d short⟩
  · have spoken := (act_spoken life.orderly act fun _ _ _ _ _ fits => fits).since entry member
    exact (spoken_passes spoken).length.2

end MegaNet.ReadBounds
