import MegaNet.DhcpAddress
import MegaNet.LastWrites

/-! What a DHCP message leaves in the client: the options as a list of entries,
what an ignored message changes, and the OFFER a REQUEST is made from. -/
namespace MegaNet.DhcpMessages
open MegaNet.Core Transition TcpEmission TcpConnection UdpOutcomes DhcpOutcomes DhcpAddress LastWrites

variable {d d' : Dhcp.MnDhcp} {net net' after : MnNetFull} {x : XMem} {now : UInt16}
  {type : UInt8} {m : List UInt8}
  {msg : Option (UInt8 × List UInt8)} {out : Dhcp.MnDhcp × MnNetFull}

/-! ## The options of a message -/

/-- An option: its code and its data. -/
abbrev Entry := UInt8 × List UInt8

/-- The options in `m[o..stop)`, up to the end option or the first that does not
fit. -/
def entriesFrom (m : List UInt8) (stop : UInt16) : Nat → UInt16 → List Entry
  | 0, _ => []
  | fuel + 1, o =>
    if o < stop then
      if byteAt m o.toNat = Dhcp.OPT_END then []
      else if byteAt m o.toNat = 0 then entriesFrom m stop fuel (o + 1)
      else if o + 1 ≥ stop then []
      else
        let olen := byteAt m (o + 1).toNat
        if o + 2 + olen.toUInt16 > stop then []
        else
          (byteAt m o.toNat, (m.drop (o + 2).toNat).take olen.toNat) ::
            entriesFrom m stop fuel (o + 2 + olen.toUInt16)
    else []

def entries (m : List UInt8) (o stop : UInt16) : List Entry := entriesFrom m stop stop.toNat o

/-- An option of at least one byte: its first. -/
def byteOf (code : UInt8) (e : Entry) : Option UInt8 :=
  if e.1 = code ∧ 1 ≤ e.2.length then some (byteAt e.2 0) else none

/-- An option of at least four bytes: the address in it. -/
def addressOf (code : UInt8) (e : Entry) : Option Ip4 :=
  if e.1 = code ∧ 4 ≤ e.2.length then some (ipAt e.2 0) else none

/-- The same of the lease time. -/
def leaseOf (e : Entry) : Option UInt32 :=
  if e.1 = Dhcp.OPT_LEASE ∧ 4 ≤ e.2.length then some (get32 e.2 0) else none

/-- The overload option of a list of options, or 0. -/
def overloadOf (es : List Entry) : UInt8 := (lastOf (byteOf Dhcp.OPT_OVERLOAD) es).getD 0

/-- The options of a message: those of its options field, and of the `file` and
the `sname` field where they are overloaded. -/
def optionsOf (m : List UInt8) : List Entry :=
  let es := entries m (Dhcp.HDR_LEN + 4) (UInt16.ofNat m.length)
  let es := if overloadOf es &&& 1 ≠ 0 then es ++ entries m Dhcp.OFF_FILE Dhcp.HDR_LEN else es
  if overloadOf es &&& 2 ≠ 0 then es ++ entries m Dhcp.OFF_SNAME Dhcp.OFF_FILE else es

/-- What an option does to what is filled in. -/
def taken (w : Dhcp.Walked) (e : Entry) : Dhcp.Walked := w.take e.1 e.2

private theorem walkFrom_entries (m : List UInt8) (stop : UInt16) (fuel : Nat)
    (o : UInt16) (w : Dhcp.Walked) :
    Dhcp.walkFrom m stop fuel o w = (entriesFrom m stop fuel o).foldl taken w := by
  induction fuel generalizing o w with
  | zero => rfl
  | succ fuel ih =>
    unfold Dhcp.walkFrom entriesFrom
    dsimp only
    split_ifs
    · rfl
    · exact ih _ _
    · rfl
    · rfl
    · exact ih _ _
    · rfl

/-- Each option is for one field. -/
structure Fills (w w' : Dhcp.Walked) (e : Entry) : Prop where
  type : w'.type = (byteOf Dhcp.OPT_MSG_TYPE e).getD w.type
  overload : w'.overload = (byteOf Dhcp.OPT_OVERLOAD e).getD w.overload
  mask : w'.d.mask = (addressOf Dhcp.OPT_MASK e).getD w.d.mask
  gw : w'.d.gw = (addressOf Dhcp.OPT_ROUTER e).getD w.d.gw
  dns : w'.d.dns = (addressOf Dhcp.OPT_DNS e).getD w.d.dns
  serverId : w'.d.serverId = (addressOf Dhcp.OPT_SERVER_ID e).getD w.d.serverId
  leaseS : w'.d.leaseS = (leaseOf e).getD w.d.leaseS

private theorem taken_fills (w : Dhcp.Walked) (e : Entry) : Fills w (taken w e) e := by
  obtain ⟨code, value⟩ := e
  unfold taken Dhcp.Walked.take
  dsimp only
  by_cases kind : code = Dhcp.OPT_MSG_TYPE
  · subst kind
    rw [if_pos rfl]
    split
    · rename_i some_
      exact ⟨by rw [byteOf, if_pos ⟨rfl, some_⟩]; rfl, rfl, rfl, rfl, rfl, rfl, rfl⟩
    · rename_i none_
      exact ⟨by rw [byteOf, if_neg fun both => none_ both.2]; rfl, rfl, rfl, rfl, rfl, rfl, rfl⟩
  rw [if_neg kind]
  have unkind : byteOf Dhcp.OPT_MSG_TYPE (code, value) = none := if_neg fun both => kind both.1
  by_cases overload : code = Dhcp.OPT_OVERLOAD
  · subst overload
    rw [if_pos rfl]
    split
    · rename_i some_
      exact ⟨rfl, by rw [byteOf, if_pos ⟨rfl, some_⟩]; rfl, rfl, rfl, rfl, rfl, rfl⟩
    · rename_i none_
      exact ⟨rfl, by rw [byteOf, if_neg fun both => none_ both.2]; rfl, rfl, rfl, rfl, rfl, rfl⟩
  rw [if_neg overload]
  have other : byteOf Dhcp.OPT_OVERLOAD (code, value) = none := if_neg fun both => overload both.1
  by_cases short : value.length < 4
  · have address : ∀ c, addressOf c (code, value) = none :=
      fun c => if_neg fun both => absurd both.2 (Nat.not_le.mpr short)
    have lease : leaseOf (code, value) = none := if_neg fun both => absurd both.2 (Nat.not_le.mpr short)
    rw [if_pos short]
    exact ⟨by rw [unkind]; rfl, by rw [other]; rfl, by rw [address]; rfl, by rw [address]; rfl,
      by rw [address]; rfl, by rw [address]; rfl, by rw [lease]; rfl⟩
  have long : 4 ≤ value.length := by omega
  have address : ∀ c, addressOf c (code, value) = if code = c then some (ipAt value 0) else none :=
    fun c => by
    simp [addressOf, long]
  have lease : leaseOf (code, value) = if code = Dhcp.OPT_LEASE then some (get32 value 0) else none := by
    simp [leaseOf, long]
  rw [if_neg short]
  by_cases mask : code = Dhcp.OPT_MASK
  · subst mask
    constructor <;> simp only [unkind, other, address, lease] <;> rfl
  by_cases router : code = Dhcp.OPT_ROUTER
  · subst router
    constructor <;> simp only [unkind, other, address, lease] <;> rfl
  by_cases dns : code = Dhcp.OPT_DNS
  · subst dns
    constructor <;> simp only [unkind, other, address, lease] <;> rfl
  by_cases server : code = Dhcp.OPT_SERVER_ID
  · subst server
    constructor <;> simp only [unkind, other, address, lease] <;> rfl
  by_cases time : code = Dhcp.OPT_LEASE
  · subst time
    constructor <;> simp only [unkind, other, address, lease] <;> rfl
  constructor <;> simp only [unkind, other, address, lease, mask, router, dns, server, time] <;> rfl

private theorem walk_entries (m : List UInt8) (o stop : UInt16) (w : Dhcp.Walked) :
    Dhcp.walk m o stop w = (entries m o stop).foldl taken w := walkFrom_entries m stop stop.toNat o w

private theorem overload_after (d : Dhcp.MnDhcp) (es : List Entry) :
    (es.foldl taken { d }).overload = overloadOf es :=
  foldl_field Dhcp.Walked.overload (fun w e => (taken_fills w e).overload) es { d }

/-- What `parse` fills in is what the options do one after the other. -/
theorem readOptions_entries (d : Dhcp.MnDhcp) (m : List UInt8) :
    Dhcp.readOptions d m = (optionsOf m).foldl taken { d } := by
  unfold Dhcp.readOptions optionsOf
  simp only [walk_entries, overload_after]
  generalize entries m (Dhcp.HDR_LEN + 4) (UInt16.ofNat m.length) = es
  by_cases file : overloadOf es &&& 1 ≠ 0
  · rw [if_pos file, if_pos file, ← List.foldl_append, overload_after]
    split
    · rw [← List.foldl_append]
    · rfl
  · rw [if_neg file, if_neg file, overload_after]
    split
    · rw [List.foldl_append]
    · rfl

/-! ## What an ignored message changes -/

/-- What the client keeps of an offer, and uses later. -/
structure SameTerms (d d' : Dhcp.MnDhcp) : Prop where
  offeredIp : d'.offeredIp = d.offeredIp
  serverId : d'.serverId = d.serverId
  mask : d'.mask = d.mask
  gw : d'.gw = d.gw
  dns : d'.dns = d.dns
  leaseS : d'.leaseS = d.leaseS

theorem SameTerms.refl (d : Dhcp.MnDhcp) : SameTerms d d := ⟨rfl, rfl, rfl, rfl, rfl, rfl⟩

/-- Every option of the message that counts, the last of its code with at least
four bytes, repeats what the client holds. -/
structure Repeats (d : Dhcp.MnDhcp) (m : List UInt8) : Prop where
  mask : ∀ v, lastOf (addressOf Dhcp.OPT_MASK) (optionsOf m) = some v → v = d.mask
  gw : ∀ v, lastOf (addressOf Dhcp.OPT_ROUTER) (optionsOf m) = some v → v = d.gw
  dns : ∀ v, lastOf (addressOf Dhcp.OPT_DNS) (optionsOf m) = some v → v = d.dns
  serverId : ∀ v, lastOf (addressOf Dhcp.OPT_SERVER_ID) (optionsOf m) = some v → v = d.serverId
  leaseS : ∀ v, lastOf leaseOf (optionsOf m) = some v → v = d.leaseS

/-- What each field holds once a message was read. -/
structure Reads (d d' : Dhcp.MnDhcp) (es : List Entry) : Prop where
  mask : d'.mask = (lastOf (addressOf Dhcp.OPT_MASK) es).getD d.mask
  gw : d'.gw = (lastOf (addressOf Dhcp.OPT_ROUTER) es).getD d.gw
  dns : d'.dns = (lastOf (addressOf Dhcp.OPT_DNS) es).getD d.dns
  serverId : d'.serverId = (lastOf (addressOf Dhcp.OPT_SERVER_ID) es).getD d.serverId
  leaseS : d'.leaseS = (lastOf leaseOf es).getD d.leaseS

private theorem readOptions_reads (d : Dhcp.MnDhcp) (m : List UInt8) : Reads d (Dhcp.readOptions d m).d
    (optionsOf m) := by
  rw [readOptions_entries]
  constructor
  · exact foldl_field (fun w : Dhcp.Walked => w.d.mask) (fun w e => (taken_fills w e).mask) _ _
  · exact foldl_field (fun w : Dhcp.Walked => w.d.gw) (fun w e => (taken_fills w e).gw) _ _
  · exact foldl_field (fun w : Dhcp.Walked => w.d.dns) (fun w e => (taken_fills w e).dns) _ _
  · exact foldl_field (fun w : Dhcp.Walked => w.d.serverId) (fun w e => (taken_fills w e).serverId) _ _
  · exact foldl_field (fun w : Dhcp.Walked => w.d.leaseS) (fun w e => (taken_fills w e).leaseS) _ _

/-- Reading a message changes nothing exactly when it is for somebody else, or
repeats what is held. -/
theorem parse_sameTerms_iff (d : Dhcp.MnDhcp) (mac : Mac) (m : List UInt8) :
    SameTerms d (Dhcp.parse d mac m).2 ↔ Dhcp.isForUs d mac m = false ∨ Repeats d m := by
  unfold Dhcp.parse
  by_cases ours : Dhcp.isForUs d mac m = true
  · rw [if_pos ours]
    have reads := readOptions_reads d m
    have offered : (Dhcp.readOptions d m).d.offeredIp = d.offeredIp := by
      obtain ⟨_, _, _, _, _, same⟩ := readOptions_reread d m
      rw [same]
    dsimp only
    generalize (Dhcp.readOptions d m).d = d' at reads offered ⊢
    obtain ⟨mask, gw, dns, serverId, leaseS⟩ := reads
    constructor
    · intro same
      refine Or.inr ⟨?_, ?_, ?_, ?_, ?_⟩ <;> rw [← getD_eq_iff]
      · exact mask.symm.trans same.mask
      · exact gw.symm.trans same.gw
      · exact dns.symm.trans same.dns
      · exact serverId.symm.trans same.serverId
      · exact leaseS.symm.trans same.leaseS
    · rintro (other | repeats)
      · rw [other] at ours
        cases ours
      · exact ⟨offered, serverId.trans ((getD_eq_iff _ _).mpr repeats.serverId),
          mask.trans ((getD_eq_iff _ _).mpr repeats.mask), gw.trans ((getD_eq_iff _ _).mpr repeats.gw),
          dns.trans ((getD_eq_iff _ _).mpr repeats.dns),
            leaseS.trans ((getD_eq_iff _ _).mpr repeats.leaseS)⟩
  · rw [if_neg ours]
    exact iff_of_true (.refl d) (Or.inl (by simpa using ours))

/-- The type a message has for the client: that of its last option 53, if it is
for the client. -/
def kindFor (d : Dhcp.MnDhcp) (mac : Mac) (m : List UInt8) : UInt8 :=
  if Dhcp.isForUs d mac m then (lastOf (byteOf Dhcp.OPT_MSG_TYPE) (optionsOf m)).getD 0 else 0

private theorem parse_kind (d : Dhcp.MnDhcp) (mac : Mac) (m : List UInt8) : (Dhcp.parse d mac m).1 =
    kindFor d mac m := by
  unfold Dhcp.parse kindFor
  split
  · dsimp only
    rw [readOptions_entries]
    exact foldl_field Dhcp.Walked.type (fun w e => (taken_fills w e).type) _ _
  · rfl

/-! ### Over one poll -/

theorem SameTerms.trans {d₁ d₂ d₃ : Dhcp.MnDhcp} (first : SameTerms d₁ d₂) (second : SameTerms d₂ d₃) :
    SameTerms d₁ d₃ :=
  ⟨second.offeredIp.trans first.offeredIp, second.serverId.trans first.serverId,
    second.mask.trans first.mask,
    second.gw.trans first.gw, second.dns.trans first.dns, second.leaseS.trans first.leaseS⟩

theorem SameTerms.symm (same : SameTerms d d') : SameTerms d' d :=
  ⟨same.offeredIp.symm, same.serverId.symm, same.mask.symm, same.gw.symm,
    same.dns.symm, same.leaseS.symm⟩

theorem Sends.sameTerms (sends : Sends d net type now out) : SameTerms d out.1 := by
  cases sends with
  | sends => exact ⟨rfl, rfl, rfl, rfl, rfl, rfl⟩

theorem Loses.sameTerms (loses : Loses d net now out) : SameTerms d out.1 := by
  obtain ⟨_, _, _, sends⟩ := loses
  have same := Sends.sameTerms sends
  exact ⟨same.offeredIp, same.serverId, same.mask, same.gw, same.dns, same.leaseS⟩

theorem Renews.sameTerms (renews : Renews d net now out) : SameTerms d out.1 := by
  obtain ⟨_, _, _, _, sends, rfl⟩ := renews
  have same := Sends.sameTerms sends
  exact ⟨same.offeredIp, same.serverId, same.mask, same.gw, same.dns, same.leaseS⟩

/-- After a message that is not acted on, what is done leaves the terms as they
were read. -/
theorem acquires_sameTerms (ignored : Ignored d.state msg) (acquires : Acquires msg d net now out) :
    SameTerms d out.1 := by
  cases acquires with
  | offer m got on => exact absurd (Or.inl ⟨on, rfl⟩) (ignored _ m got)
  | ack m got on => exact absurd (Or.inr ⟨Or.inl on, Or.inl rfl⟩) (ignored _ m got)
  | nak m got on => exact absurd (Or.inr ⟨Or.inl on, Or.inr rfl⟩) (ignored _ m got)
  | fails => exact ⟨rfl, rfl, rfl, rfl, rfl, rfl⟩
  | asks _ sends => exact Sends.sameTerms sends
  | waits => exact .refl d

private theorem keeps_sameTerms (ignored : Ignored .bound msg) (keeps : Keeps msg d net now out) :
    SameTerms d out.1 := by
  cases keeps with
  | ack m got => exact absurd (Or.inr ⟨Or.inr rfl, Or.inl rfl⟩) (ignored _ m got)
  | nak m got => exact absurd (Or.inr ⟨Or.inr rfl, Or.inr rfl⟩) (ignored _ m got)
  | expires _ _ loses => exact Loses.sameTerms loses
  | renews _ _ _ renews => exact Renews.sameTerms renews
  | resends _ _ _ _ sends => exact Sends.sameTerms sends
  | waits => exact .refl d

/-- The clock has no part in any of this. -/
theorem aged_reading (aged : Aged d d') (mac : Mac) (m : List UInt8) :
    SameTerms d d' ∧ kindFor d' mac m = kindFor d mac m ∧
      (SameTerms d' (Dhcp.parse d' mac m).2 ↔ Dhcp.isForUs d mac m = false ∨ Repeats d m) := by
  refine ⟨?_, ?_, ?_⟩
  · obtain ⟨_, _, _, _, rfl⟩ := aged
    exact ⟨rfl, rfl, rfl, rfl, rfl, rfl⟩
  · obtain ⟨_, _, _, _, rfl⟩ := aged
    rfl
  · rw [parse_sameTerms_iff]
    obtain ⟨_, _, _, _, rfl⟩ := aged
    refine or_congr_right ⟨fun repeats => ?_, fun repeats => ?_⟩
    · exact ⟨repeats.mask, repeats.gw, repeats.dns, repeats.serverId, repeats.leaseS⟩
    · exact ⟨repeats.mask, repeats.gw, repeats.dns, repeats.serverId, repeats.leaseS⟩

/-- The states in which a poll looks for a message. -/
def Listens (d : Dhcp.MnDhcp) : Prop :=
  d.state = .selecting ∨ d.state = .requesting ∨ (d.state = .bound ∧ d.t1M ≠ 0)

/-- What a poll hears is what it received, of the type it has for the client. -/
theorem Hears.kind (hears : Hears d net x msg d' net') (got : received d net x = some m) :
    msg = some (kindFor d net.nif.mac m, m) ∧ d' = (Dhcp.parse d net.nif.mac m).2 := by
  rw [hears.received_eq] at got
  cases hears with
  | nothing => cases got
  | message i here r =>
    obtain rfl : r.data = m := Option.some.inj got
    exact ⟨by rw [parse_kind], rfl⟩

/-- A received message that is not acted on changes nothing that is used later
exactly when it is for somebody else, or repeats what is held. -/
theorem ignored_sameTerms_iff (listens : Listens d) (got : received d net x = some m)
    (ignored : ¬ Acts d.state (kindFor d net.nif.mac m)) (now : UInt16) :
    SameTerms d (Dhcp.mnDhcpPoll d net x now).1 ↔ Dhcp.isForUs d net.nif.mac m = false ∨
      Repeats d m := by
  have polls := poll_polls d net x now
  generalize Dhcp.mnDhcpPoll d net x now = out at polls
  cases polls with
  | rests off =>
    unfold Listens at listens
    obtain off | off := off <;> rw [off] at listens <;> obtain on | on | ⟨on, _⟩ := listens <;> cases on
  | acquires on hears acquires =>
    obtain ⟨rfl, rfl⟩ := Hears.kind hears got
    have left : SameTerms _ out.1 := acquires_sameTerms (fun type' m' same => ?_) acquires
    · rw [← parse_sameTerms_iff]
      exact ⟨fun same => same.trans left.symm, fun same => same.trans left⟩
    · cases same
      rw [hears.reread.state]
      exact ignored
  | forever on never =>
    obtain ⟨_, _, _, _, aged⟩ := clockTick_aged d now
    rw [aged] at never
    obtain off | off | ⟨_, finite⟩ := listens
    · rw [on] at off
      cases off
    · rw [on] at off
      cases off
    · exact absurd never finite
  | keeps on finite hears keeps =>
    have aged := clockTick_aged d now
    have got' : received (Dhcp.clockTick d now) net x = some m := by
      obtain ⟨_, _, _, _, aged⟩ := aged
      rw [aged]
      exact got
    obtain ⟨same, kind, reading⟩ := aged_reading aged net.nif.mac m
    obtain ⟨rfl, rfl⟩ := Hears.kind hears got'
    have left : SameTerms _ out.1 := keeps_sameTerms (fun type' m' there => ?_) keeps
    · rw [← reading]
      exact ⟨fun whole => (same.symm.trans whole).trans left.symm,
        fun read => (same.trans read).trans left⟩
    · cases there
      rw [kind, ← on]
      exact ignored

/-! ## The OFFER behind a REQUEST -/

/-- The data of a REQUEST for one server's offer. -/
def requestOptions (ip server : Ip4) : List UInt8 :=
  [Dhcp.OPT_MSG_TYPE, 1, Dhcp.MSG_REQUEST] ++
    ([Dhcp.OPT_REQ_IP, 4] ++ ip.bytes ++ [Dhcp.OPT_SERVER_ID, 4] ++ server.bytes) ++
    [Dhcp.OPT_PARAM_REQ, 4, Dhcp.OPT_MASK, Dhcp.OPT_ROUTER, Dhcp.OPT_DNS, Dhcp.OPT_LEASE, Dhcp.OPT_END]

private theorem build_request (unbound : d.state ≠ .bound) (net : MnNetFull) :
    (Dhcp.build d net Dhcp.MSG_REQUEST).drop 240 = requestOptions d.offeredIp d.serverId ++
      Dhcp.zeros 38 := by
  have options : Dhcp.options d Dhcp.MSG_REQUEST = requestOptions d.offeredIp d.serverId := by
    unfold Dhcp.options
    rw [if_pos ⟨rfl, unbound⟩]
    rfl
  have header := header_length d net
  unfold Dhcp.build
  dsimp only
  rw [options, List.append_assoc, List.drop_append_of_le_length (by omega),
    List.drop_of_length_le (by omega),
    List.length_append, header]
  rfl

/-- The client on its layer, and the address and the server of the OFFER it took
up last. -/
structure Session where
  d : Dhcp.MnDhcp
  net : MnNetFull
  offer : Ip4 × Ip4

/-- The server that an OFFER names. -/
def serverOf (m : List UInt8) : Option Ip4 := lastOf (addressOf Dhcp.OPT_SERVER_ID) (optionsOf m)

/-- The OFFER taken up last, after one more call. -/
def offerAfter (s : Session) : Act → Ip4 × Ip4
  | .polls x now =>
    match received s.d s.net x with
    | some m =>
      if s.d.state = .selecting ∧ (Dhcp.mnDhcpPoll s.d s.net x now).1.state = .requesting then
        (Dhcp.yiaddr m, (serverOf m).getD zeroIp)
      else s.offer
    | none => s.offer
  | .starts _ | .meanwhile _ => s.offer

def Session.exec (s : Session) (act : Act) : Session where
  d := (DhcpOutcomes.exec s.d s.net act).1
  net := (DhcpOutcomes.exec s.d s.net act).2
  offer := offerAfter s act

/-- A message polled is acted on, an OFFER then naming its server, or else it is
for somebody else or repeats what the client holds. -/
def Harmless (s : Session) (act : Act) : Prop :=
  ∀ x now m, act = .polls x now → Listens s.d → received s.d s.net x = some m →
    (¬ Acts s.d.state (kindFor s.d s.net.nif.mac m) → Dhcp.isForUs s.d s.net.nif.mac m = false ∨
      Repeats s.d m) ∧
    (s.d.state = .selecting → kindFor s.d s.net.nif.mac m = Dhcp.MSG_OFFER → (serverOf m).isSome = true)

def Begun (s : Session) : Prop := s.d.state = .idle

def Step (s s' : Session) : Prop := ∃ act, Harmless s act ∧ s' = s.exec act

def Run : Session → Prop := Reachable Begun Step

/-- While requesting, the client holds what one OFFER offered. -/
def OneOffer (s : Session) : Prop :=
  s.d.state = .requesting → s.d.offeredIp = s.offer.1 ∧ s.d.serverId = s.offer.2

/-- The datagrams sent between two states of the layer are REQUESTs for one
OFFER. -/
def Requests (offer : Ip4 × Ip4) (net after : MnNetFull) : Prop :=
  ∃ sent, after.posted = net.posted ++ sent ∧
    ∀ g ∈ sent, g.payload.drop 240 = requestOptions offer.1 offer.2 ++ Dhcp.zeros 38

theorem Sends.requests (sends : Sends d net Dhcp.MSG_REQUEST now out) (unbound : d.state ≠ .bound)
    (posted : net.posted = net'.posted) : Requests (d.offeredIp, d.serverId) net' out.2 := by
  cases sends with
  | sends r after posts =>
    refine ⟨_, by rw [posts.posted, posted], fun g member => ?_⟩
    obtain rfl := List.mem_singleton.mp member
    exact build_request unbound net

/-- Taking up an OFFER that names its server. -/
theorem offer_read (kind : kindFor d net.nif.mac m = Dhcp.MSG_OFFER)
    (named : (serverOf m).isSome = true) :
    (Dhcp.parse d net.nif.mac m).2.serverId = (serverOf m).getD zeroIp := by
  have ours : Dhcp.isForUs d net.nif.mac m = true := by
    unfold kindFor at kind
    split at kind
    · assumption
    · cases kind
  unfold Dhcp.parse
  rw [if_pos ours]
  obtain ⟨server, there⟩ := Option.isSome_iff_exists.mp named
  rw [(readOptions_reads d m).serverId, show lastOf (addressOf Dhcp.OPT_SERVER_ID) (optionsOf m) =
    some server from there,
    there]
  rfl

/-- A poll that ends requesting began so, keeping the offer, or took one up; and
what it sent are REQUESTs for that. -/
theorem poll_requests {s : Session} (one : OneOffer s) (x : XMem) (now : UInt16)
    (harmless : Harmless s (.polls x now))
    (on : (s.exec (.polls x now)).d.state = .requesting) :
    ((s.exec (.polls x now)).d.offeredIp, (s.exec (.polls x now)).d.serverId) =
      (s.exec (.polls x now)).offer ∧
      Requests (s.exec (.polls x now)).offer s.net (s.exec (.polls x now)).net := by
  obtain ⟨d, net, offer⟩ := s
  have polls := poll_polls d net x now
  have guarded := (poll_guarded d net x now).requests
  unfold Session.exec offerAfter DhcpOutcomes.exec at on ⊢
  dsimp only at on ⊢
  have harmless := fun m => harmless x now m rfl
  dsimp only at harmless
  unfold OneOffer at one
  dsimp only at one
  generalize Dhcp.mnDhcpPoll d net x now = out at polls guarded on ⊢
  have acquiring : d.state = .selecting ∨ d.state = .requesting := by
    by_cases there : d.state = .requesting
    · exact Or.inr there
    · exact Or.inl (guarded on there).1
  have listens : Listens d := acquiring.imp_right Or.inl
  obtain ⟨msg, d', net', hears, acquires⟩ := polls.acquiring acquiring
  have posted := hears.rest.2.1
  have state := hears.reread.state
  have offered : d'.offeredIp = d.offeredIp := by
    obtain ⟨_, _, _, _, _, rfl⟩ := hears.reread
    rfl
  -- A message that is not acted on leaves the offer as it was.
  have same : Ignored d'.state msg → SameTerms d d' := by
    intro ignored
    cases hears with
    | nothing => exact .refl d
    | message _ _ r got =>
      have there : received d net x = some r.data := by rw [received, got]; rfl
      rw [parse_sameTerms_iff]
      refine (harmless r.data listens there).1 fun acts => ignored _ _ rfl ?_
      rw [parse_kind, state]
      exact acts
  have kept : d.state = .requesting → ∀ reached : Dhcp.State, (match received d net x with
      | some m =>
        if d.state = .selecting ∧ reached = .requesting then
          (Dhcp.yiaddr m, (serverOf m).getD zeroIp) else offer
      | none => offer) = offer := by
    intro requesting reached
    split
    · exact if_neg fun both => by rw [requesting] at both; cases both.1
    · rfl
  cases acquires with
  | offer m got here sends =>
    subst got
    have there : received d net x = some m := hears.received_eq
    obtain ⟨kind, rfl⟩ := Hears.kind hears there
    have kind : kindFor d net.nif.mac m = Dhcp.MSG_OFFER :=
      (congrArg Prod.fst (Option.some.inj kind)).symm
    have selecting : d.state = .selecting := state.symm.trans here
    have named := (harmless m listens there).2 selecting kind
    have server := offer_read kind named
    rw [there]
    dsimp only
    rw [if_pos ⟨selecting, on⟩]
    have requests := Sends.requests sends (fun off => by cases off) posted
    cases sends with
    | sends =>
      dsimp only [tried] at requests ⊢
      rw [server] at requests ⊢
      exact ⟨rfl, requests⟩
  | ack =>
    rw [granted_state] at on
    cases on
  | nak _ _ _ sends =>
    rw [Sends.sameState sends] at on
    cases on
  | fails => cases on
  | asks ignored sends =>
    have still : d'.state = .requesting := (Sends.sameState sends).symm.trans on
    have requesting := state.symm.trans still
    have terms := same ignored
    rw [kept requesting out.1.state]
    rw [Dhcp.asking, if_neg (by rw [still]; decide)] at sends
    have requests := Sends.requests sends (by rw [still]; decide) posted
    have after := Sends.sameTerms sends
    obtain ⟨address, server⟩ := one requesting
    rw [terms.offeredIp, terms.serverId, address, server] at requests
    exact ⟨Prod.ext (after.offeredIp.trans (offered.trans address))
      (after.serverId.trans (terms.serverId.trans server)), requests⟩
  | waits ignored =>
    have requesting := state.symm.trans on
    have terms := same ignored
    rw [kept requesting d'.state]
    obtain ⟨address, server⟩ := one requesting
    exact ⟨Prod.ext (offered.trans address) (terms.serverId.trans server), [], by simp [posted], by simp⟩

private theorem exec_oneOffer {s : Session} (one : OneOffer s) (act : Act) (harmless : Harmless s act) :
    OneOffer (s.exec act) := by
  cases act with
  | starts now =>
    intro on
    unfold Session.exec DhcpOutcomes.exec at on
    dsimp only at on
    rw [(start_unconfigured s.d s.net now).1] at on
    cases on
  | polls x now =>
    intro on
    have same := (poll_requests one x now harmless on).1
    exact ⟨congrArg Prod.fst same, congrArg Prod.snd same⟩
  | meanwhile => exact one

theorem Run.oneOffer {s : Session} (run : Run s) : OneOffer s := by
  refine Reachable.invariant (motive := OneOffer) (fun s begun on => ?_) ?_ run
  · rw [show s.d.state = .idle from begun] at on
    cases on
  · rintro s _ _ one ⟨act, harmless, rfl⟩
    exact exec_oneOffer one act harmless

/-- A received message that is not acted on changes nothing used later exactly
when it is for somebody else or repeats what is held; and in every run without
one that does neither, and whose OFFERs name their server, what a poll sends
while requesting are REQUESTs for the one OFFER it took up. -/
theorem requests_of_one_offer {s : Session} (run : Run s) :
    (∀ (d : Dhcp.MnDhcp) (net : MnNetFull) x now m, Listens d → received d net x = some m →
      ¬ Acts d.state (kindFor d net.nif.mac m) →
      (SameTerms d (Dhcp.mnDhcpPoll d net x now).1 ↔ Dhcp.isForUs d net.nif.mac m = false ∨
        Repeats d m)) ∧
    OneOffer s ∧
    ∀ x now, Harmless s (.polls x now) → (s.exec (.polls x now)).d.state = .requesting →
      Requests (s.exec (.polls x now)).offer s.net (s.exec (.polls x now)).net :=
  ⟨fun _ _ _ now _ listens got ignored => ignored_sameTerms_iff listens got ignored now,
    Run.oneOffer run,
    fun x now harmless on => (poll_requests (Run.oneOffer run) x now harmless on).2⟩

/-- A client that was started, an OFFER in its mailbox. -/
def startedSession : Session := ⟨startedAt0.1, withMail startedAt0.2 offerFor, (zeroIp, zeroIp)⟩

theorem run_meanwhile {s : Session} (run : Run s) (after : MnNetFull) : Run { s with net := after } := by
  refine .next run ⟨.meanwhile after, fun _ _ _ other => ?_, rfl⟩
  cases other

theorem started_run (start : Dhcp.MnDhcp × MnNetFull)
    (begun : start = Dhcp.mnDhcpStart freshDhcp (layerOver goodNet) 0) :
    Run ⟨start.1, withMail start.2 offerFor, (zeroIp, zeroIp)⟩ := by
  have fresh : Run ⟨freshDhcp, layerOver goodNet, (zeroIp, zeroIp)⟩ := .start rfl
  have started : Run ⟨start.1, start.2, (zeroIp, zeroIp)⟩ := by
    refine .next fresh ⟨.starts 0, fun _ _ _ other => ?_, by rw [begun]; rfl⟩
    cases other
  exact run_meanwhile started (withMail start.2 offerFor)

theorem startedSession_run : Run startedSession := started_run startedAt0 rfl

private theorem startedSession_harmless : Harmless startedSession (.polls (mailIn offerFor) 1) := by
  intro x now m same listens got
  obtain ⟨rfl, rfl⟩ := Act.polls.inj same
  have facts : received startedSession.d startedSession.net (mailIn offerFor) = some offerFor ∧
      Acts startedSession.d.state (kindFor startedSession.d startedSession.net.nif.mac offerFor) ∧
      (serverOf offerFor).isSome = true := by decide +kernel
  obtain ⟨there, acts, named⟩ := facts
  obtain rfl := Option.some.inj (there.symm.trans got)
  exact ⟨fun ignored => absurd acts ignored, fun _ _ => named⟩

theorem requests_of_one_offer_started :
    Requests (ours, neighbour) startedSession.net
      (startedSession.exec (.polls (mailIn offerFor) 1)).net := by
  have facts : (startedSession.exec (.polls (mailIn offerFor) 1)).offer = (ours, neighbour) ∧
      (startedSession.exec (.polls (mailIn offerFor) 1)).d.state = .requesting := by decide +kernel
  obtain ⟨offer, on⟩ := facts
  exact offer ▸ (requests_of_one_offer startedSession_run).2.2
    (mailIn offerFor) 1 startedSession_harmless on

/-- Another server's OFFER, of another address. -/
def rivalOffer : List UInt8 := reply Dhcp.MSG_OFFER ⟨10, 0, 0, 5⟩ ⟨10, 0, 0, 9⟩ 60

/-- The client that took up the first OFFER, once it received the second. -/
def rivalled : Dhcp.MnDhcp × MnNetFull :=
  Dhcp.mnDhcpPoll offeredTo.1 (withMail offeredTo.2 rivalOffer) (mailIn rivalOffer) 2

/-- A second OFFER is not acted on, and yet changes what is held: the next
REQUEST asks the second server for the address of the first. -/
theorem rival_offer_mixed :
    Listens offeredTo.1 ∧ received offeredTo.1 (withMail offeredTo.2 rivalOffer)
      (mailIn rivalOffer) = some rivalOffer ∧
      ¬ Acts offeredTo.1.state
        (kindFor offeredTo.1 (withMail offeredTo.2 rivalOffer).nif.mac rivalOffer) ∧
      ¬ SameTerms offeredTo.1 rivalled.1 ∧ rivalled.1.state = .requesting ∧
      (Dhcp.mnDhcpPoll rivalled.1 rivalled.2 (fun _ => 0) 201).2.posted.getLast?.map
        (·.payload.drop 240) =
        some (requestOptions ours ⟨10, 0, 0, 9⟩ ++ Dhcp.zeros 38) := by
  have facts : offeredTo.1.state = .requesting ∧
      received offeredTo.1 (withMail offeredTo.2 rivalOffer) (mailIn rivalOffer) = some rivalOffer ∧
      ¬ Acts offeredTo.1.state
        (kindFor offeredTo.1 (withMail offeredTo.2 rivalOffer).nif.mac rivalOffer) ∧
      rivalled.1.serverId ≠ offeredTo.1.serverId ∧ rivalled.1.state = .requesting ∧
      (Dhcp.mnDhcpPoll rivalled.1 rivalled.2 (fun _ => 0) 201).2.posted.getLast?.map
        (·.payload.drop 240) =
        some (requestOptions ours ⟨10, 0, 0, 9⟩ ++ Dhcp.zeros 38) := by decide +kernel
  obtain ⟨on, got, ignored, server, still, asked⟩ := facts
  exact ⟨Or.inr (Or.inl on), got, ignored, fun same => server same.serverId, still, asked⟩

end MegaNet.DhcpMessages
