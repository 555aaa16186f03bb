import MegaNet.Core.Udp

/-! The DHCP client (`mn_dhcp.c`): a state machine over the network layer that
asks for an address, and once it has one keeps the lease. Its diagnostics are
left out. -/
namespace MegaNet.Core.Dhcp
open MegaNet.Core

def OP_REQUEST : UInt8 := 1
def OP_REPLY : UInt8 := 2

def OPT_MASK : UInt8 := 1
def OPT_ROUTER : UInt8 := 3
def OPT_DNS : UInt8 := 6
def OPT_REQ_IP : UInt8 := 50
def OPT_LEASE : UInt8 := 51
def OPT_OVERLOAD : UInt8 := 52
def OPT_MSG_TYPE : UInt8 := 53
def OPT_SERVER_ID : UInt8 := 54
def OPT_PARAM_REQ : UInt8 := 55
def OPT_END : UInt8 := 255

def MSG_DISCOVER : UInt8 := 1
def MSG_OFFER : UInt8 := 2
def MSG_REQUEST : UInt8 := 3
def MSG_ACK : UInt8 := 5
def MSG_NAK : UInt8 := 6

def OFF_SNAME : UInt16 := 44
def OFF_FILE : UInt16 := 108
def HDR_LEN : UInt16 := 236
def RETRY_TICKS : UInt16 := 200
def MAX_TRIES : UInt8 := 5
def TICKS_PER_S : UInt16 := 50
def RENEW_RETRY_M : UInt16 := 1
def LEASE_FOREVER_S : UInt32 := 3888000

inductive State where
  | idle
  | selecting
  | requesting
  | bound
  | failed
  deriving DecidableEq

/-- `MN_DHCP_PHASE_*`, while bound. -/
inductive Phase where
  | bound
  | renewing
  | rebinding
  deriving DecidableEq

/-- A transaction's number. -/
structure Xid where
  x0 : UInt8
  x1 : UInt8
  x2 : UInt8
  x3 : UInt8
  deriving DecidableEq

/-- `mn_dhcp`. -/
structure MnDhcp where
  state : State
  sock : UInt8
  xid : Xid
  offeredIp : Ip4
  serverId : Ip4
  mask : Ip4
  gw : Ip4
  dns : Ip4
  leaseS : UInt32
  phase : Phase
  ageM : UInt16
  t1M : UInt16
  t2M : UInt16
  nextM : UInt16
  leaseM : UInt16
  tickLast : UInt16
  tickAcc : UInt8
  secAcc : UInt8
  sentAt : UInt16
  tries : UInt8
  pending : Bool

def cookie : List UInt8 := [0x63, 0x82, 0x53, 0x63]

def zeros (n : Nat) : List UInt8 := List.replicate n 0

/-! ## Sending -/

/-- The fixed header of a message of ours. -/
def header (d : MnDhcp) (net : MnNetFull) : List UInt8 :=
  let bound := d.state == .bound
  let ciaddr := if bound then net.ip else zeroIp
  let mac := net.nif.mac
  [OP_REQUEST, 1, 6, 0] ++ [d.xid.x0, d.xid.x1, d.xid.x2, d.xid.x3] ++
    [0, 0, if bound then 0x00 else 0x80, 0] ++ ciaddr.bytes ++ zeros 12 ++
    [mac.m0, mac.m1, mac.m2, mac.m3, mac.m4, mac.m5] ++ zeros 202 ++ cookie

/-- Its options. A REQUEST while bound names neither address nor server. -/
def options (d : MnDhcp) (type : UInt8) : List UInt8 :=
  [OPT_MSG_TYPE, 1, type] ++
    (if type = MSG_REQUEST ∧ d.state ≠ .bound then
      [OPT_REQ_IP, 4] ++ d.offeredIp.bytes ++ [OPT_SERVER_ID, 4] ++ d.serverId.bytes
    else []) ++
    [OPT_PARAM_REQ, 4, OPT_MASK, OPT_ROUTER, OPT_DNS, OPT_LEASE, OPT_END]

/-- `build`: the message, of `MIN_LEN` bytes at least. -/
def build (d : MnDhcp) (net : MnNetFull) (type : UInt8) : List UInt8 :=
  let message := header d net ++ options d type
  message ++ zeros (300 - message.length)

/-- Where `transmit` sends to. -/
def destination (d : MnDhcp) : Ip4 :=
  if d.state = .bound ∧ d.phase = .renewing then d.serverId else limitedBcast

/-- `transmit`. -/
def transmit (d : MnDhcp) (net : MnNetFull) (type : UInt8) (now : UInt16) : MnDhcp × MnNetFull :=
  let (r, net) := mnNetSendUdp net (destination d) 68 67 (build d net type)
  ({ d with
    pending := r == .pending
    sentAt := now
    tries := if r = .pending then d.tries else d.tries + 1 }, net)

/-- What `mn_dhcp_start` sets before the DISCOVER goes out, its socket apart. -/
def begun (d : MnDhcp) (mac : Mac) (now : UInt16) : MnDhcp :=
  { d with
    xid := ⟨mac.m3, mac.m4, mac.m5, now.toUInt8⟩
    offeredIp := zeroIp, serverId := zeroIp, mask := zeroIp, gw := zeroIp, dns := zeroIp
    leaseS := 0
    phase := .bound
    ageM := 0, t1M := 0, t2M := 0, nextM := 0, leaseM := 0
    tickLast := now, tickAcc := 0, secAcc := 0
    tries := 0
    state := .selecting }

/-- `mn_dhcp_start`. -/
def mnDhcpStart (d : MnDhcp) (net : MnNetFull) (now : UInt16) : MnDhcp × MnNetFull :=
  let net := mnNetSetIp net zeroIp zeroIp zeroIp
  let net := if d.sock ≠ 0xff then mnNetUdpClose net d.sock else net
  let (sock, net) := mnNetUdpOpen net 68
  transmit { begun d net.nif.mac now with sock } net MSG_DISCOVER now

/-! ## Reading a message -/

/-- What a walk through the options has filled in. -/
structure Walked where
  d : MnDhcp
  type : UInt8 := 0
  overload : UInt8 := 0

/-- One option, of which `value` is the data. -/
def Walked.take (w : Walked) (code : UInt8) (value : List UInt8) : Walked :=
  if code = OPT_MSG_TYPE then (if value.length ≥ 1 then { w with type := byteAt value 0 } else w)
  else if code = OPT_OVERLOAD then
    (if value.length ≥ 1 then { w with overload := byteAt value 0 } else w)
  else if value.length < 4 then w
  else if code = OPT_MASK then { w with d := { w.d with mask := ipAt value 0 } }
  else if code = OPT_ROUTER then { w with d := { w.d with gw := ipAt value 0 } }
  else if code = OPT_DNS then { w with d := { w.d with dns := ipAt value 0 } }
  else if code = OPT_SERVER_ID then { w with d := { w.d with serverId := ipAt value 0 } }
  else if code = OPT_LEASE then { w with d := { w.d with leaseS := get32 value 0 } }
  else w

/-- The loop of `walk` over `m[o..stop)`; each turn moves `o` on, so `stop`
turns are enough. -/
def walkFrom (m : List UInt8) (stop : UInt16) : Nat → UInt16 → Walked → Walked
  | 0, _, w => w
  | fuel + 1, o, w =>
    if o < stop then
      let code := byteAt m o.toNat
      if code = OPT_END then w
      else if code = 0 then walkFrom m stop fuel (o + 1) w
      else if o + 1 ≥ stop then w
      else
        let olen := byteAt m (o + 1).toNat
        if o + 2 + olen.toUInt16 > stop then w
        else
          walkFrom m stop fuel (o + 2 + olen.toUInt16)
            (w.take code ((m.drop (o + 2).toNat).take olen.toNat))
    else w

/-- `walk`. -/
def walk (m : List UInt8) (o stop : UInt16) (w : Walked) : Walked := walkFrom m stop stop.toNat o w

/-- The header tests of `parse`. -/
def isForUs (d : MnDhcp) (mac : Mac) (m : List UInt8) : Bool :=
  !(UInt16.ofNat m.length < HDR_LEN + 4) && byteAt m 0 == OP_REPLY &&
    (⟨byteAt m 4, byteAt m 5, byteAt m 6, byteAt m 7⟩ : Xid) == d.xid && macAt m 28 == mac &&
    [byteAt m 236, byteAt m 237, byteAt m 238, byteAt m 239] == cookie

/-- What `parse` fills in from a message for us. -/
def readOptions (d : MnDhcp) (m : List UInt8) : Walked :=
  let w := walk m (HDR_LEN + 4) (UInt16.ofNat m.length) { d }
  let w := if w.overload &&& 1 ≠ 0 then walk m OFF_FILE HDR_LEN w else w
  if w.overload &&& 2 ≠ 0 then walk m OFF_SNAME OFF_FILE w else w

/-- `parse`: the message's type, or 0 for one not for us. -/
def parse (d : MnDhcp) (mac : Mac) (m : List UInt8) : UInt8 × MnDhcp :=
  if isForUs d mac m then ((readOptions d m).type, (readOptions d m).d) else (0, d)

def yiaddr (m : List UInt8) : Ip4 := ipAt m 16

/-! ## The lease clock -/

/-- `granted`. -/
def granted (d : MnDhcp) (now : UInt16) : MnDhcp :=
  let d := { d with phase := .bound, ageM := 0, tickLast := now, tickAcc := 0, secAcc := 0 }
  let d :=
    if d.leaseS < 120 ∨ d.leaseS ≥ LEASE_FOREVER_S then { d with leaseM := 0, t1M := 0, t2M := 0 }
    else
      let leaseM := (d.leaseS / 60).toUInt16
      { d with leaseM, t1M := leaseM / 2, t2M := leaseM - leaseM / 8 }
  { d with nextM := d.t1M }

/-- A second has passed: `if (++sec_acc >= 60)`. -/
def second (d : MnDhcp) : MnDhcp :=
  if d.secAcc + 1 ≥ 60 then { d with secAcc := 0, ageM := d.ageM + 1 }
  else { d with secAcc := d.secAcc + 1 }

/-- The loop of `clock_tick`; each turn takes a second off `delta`, so `delta`
turns are enough. -/
def seconds : Nat → UInt16 → MnDhcp → UInt16 × MnDhcp
  | 0, delta, d => (delta, d)
  | fuel + 1, delta, d =>
    if delta ≥ TICKS_PER_S then seconds fuel (delta - TICKS_PER_S) (second d) else (delta, d)

/-- `clock_tick`. -/
def clockTick (d : MnDhcp) (now : UInt16) : MnDhcp :=
  let delta := now - d.tickLast
  let (delta, d) := seconds delta.toNat delta { d with tickLast := now }
  let d := { d with tickAcc := d.tickAcc + delta.toUInt8 }
  if d.tickAcc ≥ 50 then second { d with tickAcc := d.tickAcc - 50 } else d

/-! ## Polling -/

/-- What `mn_net_udp_recv` and `parse` make of the mailbox: the message and its
type, if there is one. -/
def hear (d : MnDhcp) (net : MnNetFull) (x : XMem) : Option (UInt8 × List UInt8) × MnDhcp × MnNetFull :=
  match mnNetUdpRecv net x d.sock MN_UDP_SOCK_BUF with
  | (none, net) => (none, d, net)
  | (some r, net) => (some ((parse d net.nif.mac r.data).1, r.data), (parse d net.nif.mac r.data).2, net)

/-- `lost`. -/
def lost (d : MnDhcp) (net : MnNetFull) (now : UInt16) : MnDhcp × MnNetFull :=
  let net := mnNetSetIp net zeroIp zeroIp zeroIp
  let d := { d with
    state := .selecting, phase := .bound, tries := 0
    xid := { d.xid with x3 := d.xid.x3 + 1 } }
  let (d, net) :=
    if d.sock = 0xff then
      let (sock, net) := mnNetUdpOpen net 68
      ({ d with sock }, net)
    else (d, net)
  transmit d net MSG_DISCOVER now

/-- The REQUEST that falls due in `poll_bound`. -/
def renew (d : MnDhcp) (net : MnNetFull) (now : UInt16) : MnDhcp × MnNetFull :=
  let d := { d with phase := if d.ageM ≥ d.t2M then .rebinding else .renewing }
  let (d, net) :=
    if d.sock = 0xff then
      let (sock, net) := mnNetUdpOpen net 68
      ({ d with sock }, net)
    else (d, net)
  let (d, net) := transmit { d with tries := 0 } net MSG_REQUEST now
  let d := { d with nextM := d.ageM + RENEW_RETRY_M }
  (if d.phase = .renewing ∧ d.nextM > d.t2M then { d with nextM := d.t2M } else d, net)

/-- What `poll_bound` does when no answer has settled the lease. -/
def keepLease (d : MnDhcp) (net : MnNetFull) (now : UInt16) : MnDhcp × MnNetFull :=
  if d.ageM ≥ d.leaseM then lost d net now
  else if d.ageM ≥ d.nextM then renew d net now
  else if d.pending then transmit d net MSG_REQUEST now
  else (d, net)

/-- The renewal's answer: a new lease on the same address. -/
def renewed (d : MnDhcp) (net : MnNetFull) (now : UInt16) : MnDhcp × MnNetFull :=
  (granted { d with sock := 0xff } now, mnNetUdpClose net d.sock)

/-- `poll_bound`. -/
def pollBound (d : MnDhcp) (net : MnNetFull) (x : XMem) (now : UInt16) : MnDhcp × MnNetFull :=
  let d := clockTick d now
  if d.t1M = 0 then (d, net)
  else
    match if d.sock ≠ 0xff then hear d net x else (none, d, net) with
    | (some (type, _), d, net) =>
      if type = MSG_ACK then renewed d net now
      else if type = MSG_NAK then lost d net now
      else keepLease d net now
    | (none, d, net) => keepLease d net now

/-- What an acquisition sends when it sends again. -/
def asking (d : MnDhcp) : UInt8 := if d.state = .selecting then MSG_DISCOVER else MSG_REQUEST

/-- The end of `mn_dhcp_poll`: a send that is due. -/
def retry (d : MnDhcp) (net : MnNetFull) (now : UInt16) : MnDhcp × MnNetFull :=
  if d.pending then transmit d net (asking d) now
  else if now - d.sentAt ≥ RETRY_TICKS then
    if d.tries ≥ MAX_TRIES then ({ d with state := .failed, sock := 0xff }, mnNetUdpClose net d.sock)
    else transmit d net (asking d) now
  else (d, net)

/-- An OFFER taken up. -/
def offered (d : MnDhcp) (net : MnNetFull) (m : List UInt8) (now : UInt16) : MnDhcp × MnNetFull :=
  transmit { d with offeredIp := yiaddr m, state := .requesting, tries := 0 } net MSG_REQUEST now

/-- An ACK that binds the address. -/
def bind (d : MnDhcp) (net : MnNetFull) (m : List UInt8) (now : UInt16) : MnDhcp × MnNetFull :=
  (granted { d with sock := 0xff, state := .bound } now,
    mnNetUdpClose (mnNetSetIp net (yiaddr m) d.mask d.gw) d.sock)

/-- A NAK: start over. -/
def refused (d : MnDhcp) (net : MnNetFull) (now : UInt16) : MnDhcp × MnNetFull :=
  transmit { d with state := .selecting, tries := 0 } net MSG_DISCOVER now

/-- What `mn_dhcp_poll` does with a message while it acquires an address. -/
def acquire (d : MnDhcp) (net : MnNetFull) (type : UInt8) (m : List UInt8) (now : UInt16) :
    MnDhcp × MnNetFull :=
  if d.state = .selecting ∧ type = MSG_OFFER then offered d net m now
  else if d.state = .requesting ∧ type = MSG_ACK then bind d net m now
  else if d.state = .requesting ∧ type = MSG_NAK then refused d net now
  else retry d net now

/-- `mn_dhcp_poll`. -/
def mnDhcpPoll (d : MnDhcp) (net : MnNetFull) (x : XMem) (now : UInt16) : MnDhcp × MnNetFull :=
  match d.state with
  | .idle | .failed => (d, net)
  | .bound => pollBound d net x now
  | .selecting | .requesting =>
    match hear d net x with
    | (some (type, m), d, net) => acquire d net type m now
    | (none, d, net) => retry d net now

/-- `mn_dhcp_lease_left`. -/
def mnDhcpLeaseLeft (d : MnDhcp) : UInt16 :=
  if d.state ≠ .bound then 0
  else if d.t1M = 0 then 0xffff
  else if d.ageM < d.leaseM then d.leaseM - d.ageM
  else 0

end MegaNet.Core.Dhcp
