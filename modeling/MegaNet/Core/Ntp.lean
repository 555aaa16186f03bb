import MegaNet.Core.Udp

/-! The SNTP client (`mn_ntp.c`): one request, one reply, the time. -/
namespace MegaNet.Core.Ntp
open MegaNet.Core

def PORT_NTP : UInt16 := 123
def MSG_LEN : UInt16 := 48
def RETRY_TICKS : UInt16 := 150
def MAX_TRIES : UInt8 := 3

inductive State where
  | idle
  | waiting
  | done
  | failed
  deriving DecidableEq

/-- `mn_ntp`. -/
structure MnNtp where
  state : State
  sock : UInt8
  port : UInt16
  server : Ip4
  seconds : UInt32
  sentAt : UInt16
  tries : UInt8
  pending : Bool

/-- The request `transmit` fills in. -/
def request : List UInt8 := 0x23 :: List.replicate 47 0

/-- `transmit`. -/
def transmit (n : MnNtp) (net : MnNetFull) (now : UInt16) : MnNtp × MnNetFull :=
  let (r, net) := mnNetSendUdp net n.server n.port PORT_NTP request
  ({ n with
    pending := r == .pending
    sentAt := now
    tries := if r = .pending then n.tries else n.tries + 1 }, net)

/-- `mn_ntp_start`. -/
def mnNtpStart (n : MnNtp) (net : MnNetFull) (server : Ip4) (now : UInt16) : MnNtp × MnNetFull :=
  let net := if n.sock ≠ 0xff then mnNetUdpClose net n.sock else net
  let n := { n with server, seconds := 0, port := 50000 + (now &&& 0x0fff), tries := 0 }
  let (sock, net) := mnNetUdpOpen net n.port
  if sock = 0xff then ({ n with sock, state := .failed }, net)
  else transmit { n with sock, state := .waiting } net now

/-- A server's reply: mode 4 or 2, with a transmit timestamp. -/
def isReply (m : List UInt8) : Bool :=
  let mode := byteAt m 0 &&& 0x07
  UInt16.ofNat m.length ≥ MSG_LEN && (mode == 4 || mode == 2) && get32 m 40 != 0

/-- A request's end, with its socket given back. -/
def ended (n : MnNtp) (net : MnNetFull) (state : State) : MnNtp × MnNetFull :=
  ({ n with state, sock := 0xff }, mnNetUdpClose net n.sock)

/-- The end of `mn_ntp_poll`: a send that is due. -/
def retry (n : MnNtp) (net : MnNetFull) (now : UInt16) : MnNtp × MnNetFull :=
  if n.pending then transmit n net now
  else if now - n.sentAt ≥ RETRY_TICKS then
    if n.tries ≥ MAX_TRIES then ended n net .failed
    else transmit n net now
  else (n, net)

/-- `mn_ntp_poll`. -/
def mnNtpPoll (n : MnNtp) (net : MnNetFull) (x : XMem) (now : UInt16) : MnNtp × MnNetFull :=
  if n.state ≠ .waiting then (n, net)
  else
    match mnNetUdpRecv net x n.sock MSG_LEN with
    | (none, net) => retry n net now
    | (some r, net) =>
      if isReply r.data then ended { n with seconds := get32 r.data 40 } net .done
      else retry n net now

end MegaNet.Core.Ntp
