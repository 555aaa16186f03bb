import MegaNet.Core.TcpInput
import MegaNet.Core.TcpPoll

/-! The sockets as one set (`mn_tcp_set`): setting it up, dispatching a
received segment, polling, and the calls an application makes on a socket of
it by number. -/
namespace MegaNet.Core

/-- `mn_tcp_set`, its `n` sockets being the list's length. -/
structure MnTcpSet where
  sock : List MnTcp
  rstSent : UInt16
  now : UInt16

/-- What `mn_tcp_init` makes of the memory `t` for socket `i`. Fields it does
not name keep whatever the memory held. -/
def initSocket (xmemBase : UInt32) (i : UInt8) (t : MnTcp) : MnTcp :=
  { resetCounters { t with
      state := .closed
      index := i
      xseg := (xmemBase >>> 16).toUInt16
      rcvbuf := (xmemBase + i.toUInt32 * MN_TCP_SOCKET_XMEM).toUInt16
      sndbuf := (xmemBase + i.toUInt32 * MN_TCP_SOCKET_XMEM).toUInt16 + MN_TCP_RCVBUF
      localPort := 0, remotePort := 0 } with
    statRxSeg := 0, statTxSeg := 0, statRetrans := 0, statOoo := 0 }

/-- The loop of `mn_tcp_init` from socket `i` on. -/
def initSockets (xmemBase : UInt32) : UInt8 → List MnTcp → List MnTcp
  | _, [] => []
  | i, t :: rest => initSocket xmemBase i t :: initSockets xmemBase (i + 1) rest

/-- How many of `n` sockets fit before the next 64 KB boundary. -/
def socketsThatFit (n : UInt8) (xmemBase : UInt32) : UInt8 :=
  let room := 0x10000 - (xmemBase &&& 0xffff)
  if n.toUInt32 * MN_TCP_SOCKET_XMEM > room then (room / MN_TCP_SOCKET_XMEM).toUInt8 else n

/-- `mn_tcp_init` over the memory `socks` of at least `n` sockets. -/
def mnTcpInit (socks : List MnTcp) (n : UInt8) (xmemBase : UInt32) : MnTcpSet where
  sock := initSockets xmemBase 0 (socks.take (socketsThatFit n xmemBase).toNat)
  rstSent := 0
  now := 0

/-- The loop `for (i = 0; i < n; i++) if (p(sock[i])) { ...; return; }`. -/
def onFirst (p : MnTcp → Bool) (f : MnTcp → MnTcp × β) : List MnTcp → Option (List MnTcp × β)
  | [] => none
  | t :: rest =>
    if p t then some ((f t).1 :: rest, (f t).2)
    else (onFirst p f rest).map fun (rest, out) => (t :: rest, out)

/-- The dispatcher's test for the socket that owns a segment's four-tuple. -/
def owns (src : Ip4) (seg : TcpSeg) (t : MnTcp) : Bool :=
  t.state ≠ .closed && t.state ≠ .listen &&
    (t.localPort == seg.dport && t.remotePort == seg.sport && src == t.remoteIp)

/-- The dispatcher's test for a listener on a SYN's port. -/
def listensFor (seg : TcpSeg) (t : MnTcp) : Bool := t.state == .listen && t.localPort == seg.dport

/-- `(flags & (FL_SYN | FL_ACK | FL_RST)) == FL_SYN`. -/
def isPureSyn (seg : TcpSeg) : Bool := seg.flags.syn && !seg.flags.ack && !seg.flags.rst

/-- `mn_tcp_input` from the parsed header on: the socket that owns the
four-tuple, else a listener for a SYN, else RST. -/
def mnTcpInput (set : MnTcpSet) (x : XMem) (net : MnNet) (src : Ip4) (seg : TcpSeg) :
    MnTcpSet × XMem × MnNet :=
  match onFirst (owns src seg) (fun t => segmentInput t x seg set.now) set.sock with
  | some (sock, x) => ({ set with sock }, x, net)
  | none =>
    let opened :=
      if isPureSyn seg then
        onFirst (listensFor seg) (fun t => passiveOpen t x net src seg set.now) set.sock
      else none
    match opened with
    | some (sock, net) => ({ set with sock }, x, net)
    | none =>
      if seg.flags.rst then (set, x, net)
      else ({ set with rstSent := set.rstSent + 1 }, x, sendRst net src seg)

/-- The loop of `mn_tcp_poll`. -/
def pollAll (x : XMem) (now : UInt16) : List MnTcp → MnNet → List MnTcp × MnNet
  | [], net => ([], net)
  | t :: rest, net =>
    let (t, net) := pollOne t x net now
    let (rest, net) := pollAll x now rest net
    (t :: rest, net)

/-- `mn_tcp_poll`. -/
def mnTcpPoll (set : MnTcpSet) (x : XMem) (net : MnNet) (now : UInt16) : MnTcpSet × MnNet :=
  let (sock, net) := pollAll x now set.sock net
  ({ set with sock, now }, net)

/-- What reaches the stack from outside: a call on socket `i`, a segment the
IPv4 layer delivers, or a poll. -/
inductive Event where
  | connect (i : Nat) (ip : Ip4) (port now : UInt16)
  | listen (i : Nat) (port : UInt16)
  | send (i : Nat) (data : List UInt8) (len : UInt16) (fits : len.toNat ≤ data.length)
  | sendX (i : Nat) (ext : PhysMem) (src : UInt32) (len : UInt16)
  | recv (i : Nat) (cap : UInt16)
  | recvX (i : Nat) (ext : PhysMem) (dst : UInt32) (cap : UInt16)
  | close (i : Nat)
  | abort (i : Nat)
  | input (src : Ip4) (seg : TcpSeg)
  | poll (now : UInt16)

/-- A socket set and the pool its rings live in. -/
structure World where
  set : MnTcpSet
  x : XMem

/-- A call on socket `i`; a number past the set's end reaches no socket. -/
def World.onSocket (w : World) (i : Nat) (net : MnNet)
    (f : MnTcp → MnTcp × XMem × MnNet) : World × MnNet :=
  match w.set.sock[i]? with
  | none => (w, net)
  | some t => (⟨{ w.set with sock := w.set.sock.set i (f t).1 }, (f t).2.1⟩, (f t).2.2)

/-- One event, over whatever the network layer holds at the time. -/
def World.exec (w : World) (net : MnNet) : Event → World × MnNet
  | .connect i ip port now => w.onSocket i net fun t =>
      let (_, t, net) := mnTcpConnect t w.x net ip port now; (t, w.x, net)
  | .listen i port => w.onSocket i net fun t => ((mnTcpListen t port).2, w.x, net)
  | .send i data len _ => w.onSocket i net fun t =>
      let (_, t, x) := mnTcpSend t w.x data len; (t, x, net)
  | .sendX i ext src len => w.onSocket i net fun t =>
      let (_, t, x) := mnTcpSendX t w.x ext src len; (t, x, net)
  | .recv i cap => w.onSocket i net fun t => ((mnTcpRecv t w.x cap).2, w.x, net)
  | .recvX i ext dst cap => w.onSocket i net fun t => ((mnTcpRecvX t w.x ext dst cap).2.1, w.x, net)
  | .close i => w.onSocket i net fun t => (mnTcpClose t, w.x, net)
  | .abort i => w.onSocket i net fun t =>
      let (t, net) := mnTcpAbort t w.x net; (t, w.x, net)
  | .input src seg =>
      let (set, x, net) := mnTcpInput w.set w.x net src seg; (⟨set, x⟩, net)
  | .poll now =>
      let (set, net) := mnTcpPoll w.set w.x net now; (⟨set, w.x⟩, net)

end MegaNet.Core
