import MegaNet.Core.Udp

/-! The DNS resolver (`mn_dns.c`): one lookup of an address record at a time,
driven by poll. -/
namespace MegaNet.Core.Dns
open MegaNet.Core

def PORT_DNS : UInt16 := 53
def HDR_LEN : UInt16 := 12
def TYPE_A : UInt16 := 1
def CLASS_IN : UInt16 := 1
def FLAG_RD : UInt16 := 0x0100
def FLAG_QR : UInt16 := 0x8000
def RCODE_MASK : UInt16 := 0x000f
def RETRY_TICKS : UInt16 := 100
def MAX_TRIES : UInt8 := 3
def MN_DNS_NAME_MAX : Nat := 63

inductive State where
  | idle
  | waiting
  | done
  | failed
  deriving DecidableEq

/-- `mn_dns`. `name` holds the characters before the terminating NUL. -/
structure MnDns where
  state : State
  sock : UInt8
  id : UInt16
  port : UInt16
  server : Ip4
  ip : Ip4
  name : List UInt8
  sentAt : UInt16
  tries : UInt8
  pending : Bool

/-! ## Sending -/

/-- The loop of `build` over the rest of the name and what follows it up to the
root label. `lenpos` is where the length of the current label goes, `n` the
length so far. -/
def encode : List UInt8 → List UInt8 → Nat → UInt8 → Option (List UInt8)
  | [], msg, lenpos, n => if n = 0 then none else some (msg.set lenpos n ++ [0])
  | c :: rest, msg, lenpos, n =>
    if c = 0x2e then
      if n = 0 then none else encode rest (msg.set lenpos n ++ [0]) msg.length 0
    else if n + 1 > 63 then none
    else encode rest (msg ++ [c]) lenpos (n + 1)

/-- `build`: the query, unless the name is malformed. -/
def build (d : MnDns) : Option (List UInt8) :=
  let header := put16 d.id ++ put16 FLAG_RD ++ put16 1 ++ put16 0 ++ put16 0 ++ put16 0
  (encode d.name (header ++ [0]) 12 0).map fun msg => msg ++ put16 TYPE_A ++ put16 CLASS_IN

/-- `transmit`. -/
def transmit (d : MnDns) (net : MnNetFull) (now : UInt16) : MnDns × MnNetFull :=
  match build d with
  | none => ({ d with state := .failed }, net)
  | some msg =>
    let (r, net) := mnNetSendUdp net d.server d.port PORT_DNS msg
    ({ d with
      pending := r == .pending
      sentAt := now
      tries := if r = .pending then d.tries else d.tries + 1 }, net)

/-- What `mn_dns_start` keeps of a name: what comes before the NUL, as far as
it fits. -/
def storedName (name : List UInt8) : List UInt8 := (name.takeWhile (· ≠ 0)).take MN_DNS_NAME_MAX

/-- What `mn_dns_start` sets before the query goes out, its socket apart. -/
def begun (d : MnDns) (mac : Mac) (name : List UInt8) (server : Ip4) (now : UInt16) : MnDns :=
  { d with
    name := storedName name
    server
    ip := zeroIp
    id := now * 7 + mac.m5.toUInt16
    port := 49152 + (now &&& 0x0fff)
    tries := 0 }

/-- `mn_dns_start`. -/
def mnDnsStart (d : MnDns) (net : MnNetFull) (name : List UInt8) (server : Ip4) (now : UInt16) :
    MnDns × MnNetFull :=
  let net := if d.sock ≠ 0xff then mnNetUdpClose net d.sock else net
  let d := begun d net.nif.mac name server now
  let (sock, net) := mnNetUdpOpen net d.port
  if sock = 0xff then ({ d with sock, state := .failed }, net)
  else transmit { d with sock, state := .waiting } net now

/-! ## Reading an answer -/

/-- The loop of `skip_name`: the offset after the name at `o`, or 0. Each turn
moves `o` on while `len` is a datagram's, so `len` turns are enough. -/
def skipNameFrom (m : List UInt8) (len : UInt16) : Nat → UInt16 → UInt16
  | 0, _ => 0
  | fuel + 1, o =>
    if o < len then
      let n := byteAt m o.toNat
      if n = 0 then o + 1
      else if n &&& 0xc0 = 0xc0 then (if o + 2 ≤ len then o + 2 else 0)
      else skipNameFrom m len fuel (o + 1 + n.toUInt16)
    else 0

/-- `skip_name`. -/
def skipName (m : List UInt8) (o len : UInt16) : UInt16 := skipNameFrom m len len.toNat o

/-- One turn of the loop over the questions: where the next one begins. -/
def question (m : List UInt8) (len o : UInt16) : Option UInt16 :=
  let o := skipName m o len
  if o = 0 ∨ o + 4 > len then none else some (o + 4)

/-- What one turn of the loop over the answers comes to. -/
inductive Record where
  | malformed
  | answer (ip : Ip4)
  | other (next : UInt16)

/-- One turn of the loop over the answers. -/
def record (m : List UInt8) (len o : UInt16) : Record :=
  let o := skipName m o len
  if o = 0 ∨ o + 10 > len then .malformed
  else
    let type := get16 m o.toNat
    let cls := get16 m (o.toNat + 2)
    let rdlen := get16 m (o.toNat + 8)
    let o := o + 10
    if o + rdlen > len then .malformed
    else if type = TYPE_A ∧ cls = CLASS_IN ∧ rdlen = 4 then .answer (ipAt m o.toNat)
    else .other (o + rdlen)

/-- `while (qd--)`. -/
def questions (m : List UInt8) (len : UInt16) : Nat → UInt16 → Option UInt16
  | 0, o => some o
  | qd + 1, o =>
    match question m len o with
    | none => none
    | some o => questions m len qd o

/-- `while (an--)`. -/
def answers (m : List UInt8) (len : UInt16) : Nat → UInt16 → Option Ip4
  | 0, _ => none
  | an + 1, o =>
    match record m len o with
    | .malformed => none
    | .answer ip => some ip
    | .other o => answers m len an o

/-- `parse`, of a message `m`. -/
def parse (d : MnDns) (m : List UInt8) : Bool × MnDns :=
  let len := UInt16.ofNat m.length
  if len < HDR_LEN ∨ get16 m 0 ≠ d.id then (false, d)
  else
    let flags := get16 m 2
    if flags &&& FLAG_QR = 0 then (false, d)
    else if flags &&& RCODE_MASK ≠ 0 then (false, { d with state := .failed })
    else
      match questions m len (get16 m 4).toNat HDR_LEN with
      | none => (false, d)
      | some o =>
        match answers m len (get16 m 6).toNat o with
        | none => (false, d)
        | some ip => (true, { d with ip })

/-! ## Polling -/

/-- A lookup's end, with its socket given back. -/
def ended (d : MnDns) (net : MnNetFull) (state : State) : MnDns × MnNetFull :=
  ({ d with state, sock := 0xff }, mnNetUdpClose net d.sock)

/-- The end of `mn_dns_poll`: a send that is due. -/
def retry (d : MnDns) (net : MnNetFull) (now : UInt16) : MnDns × MnNetFull :=
  if d.pending then transmit d net now
  else if now - d.sentAt ≥ RETRY_TICKS then
    if d.tries ≥ MAX_TRIES then ended d net .failed
    else transmit d net now
  else (d, net)

/-- What `parse` makes of a datagram while the lookup waits. -/
def heard (d : MnDns) (m : List UInt8) : MnDns :=
  if (parse d m).1 then { (parse d m).2 with state := .done } else (parse d m).2

/-- `mn_dns_poll`. -/
def mnDnsPoll (d : MnDns) (net : MnNetFull) (x : XMem) (now : UInt16) : MnDns × MnNetFull :=
  if d.state ≠ .waiting then (d, net)
  else
    match mnNetUdpRecv net x d.sock MN_UDP_SOCK_BUF with
    | (none, net) => retry d net now
    | (some r, net) =>
      let d := heard d r.data
      if d.state ≠ .waiting then ended d net d.state else retry d net now

end MegaNet.Core.Dns
