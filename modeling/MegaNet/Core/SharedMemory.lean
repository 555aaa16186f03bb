import MegaNet.AddressSpace
import MegaNet.Core.TcpSocket

/-! The rings and the client's buffers in the one memory that the DMA controller
copies in: the calls of `mn_xmem.h` as parameters, and what `mn_tcp.c` does with
them. -/
namespace MegaNet.Core
open AddressSpace

/-- The machine's memory by linear address, as the stack uses it. -/
def linear (m : PhysMem) : XMem := fun a => if a < 2 ^ 32 then m (UInt32.ofNat a) else 0

/-- `ADDR`. -/
def addr (seg off : UInt16) : UInt32 := seg.toUInt32 <<< 16 ||| off.toUInt32

/-- The calls of `mn_xmem.h`. Local memory is the bytes that it holds: those that
a read leaves there, and those that a write finds. -/
structure XmemCalls where
  mnXmemRead : PhysMem → (seg off len : UInt16) → List UInt8
  mnXmemWrite : PhysMem → (seg off : UInt16) → (src : List UInt8) → (len : UInt16) → PhysMem
  mnXmemCopyOut : PhysMem → (dst : UInt32) → (seg off len : UInt16) → PhysMem
  mnXmemCopyIn : PhysMem → (seg off : UInt16) → (src : UInt32) → (len : UInt16) → PhysMem

namespace XmemCalls
variable (calls : XmemCalls)

/-- `ring_read`. -/
def ringRead (m : PhysMem) (seg base size pos len : UInt16) : List UInt8 :=
  let first := size - pos
  let first := if first > len then len else first
  calls.mnXmemRead m seg (base + pos) first ++
    if len > first then calls.mnXmemRead m seg base (len - first) else []

/-- `ring_write`. -/
def ringWrite (m : PhysMem) (seg base size pos : UInt16) (src : List UInt8) (len : UInt16) : PhysMem :=
  let first := size - pos
  let first := if first > len then len else first
  let m := calls.mnXmemWrite m seg (base + pos) src first
  if len > first then calls.mnXmemWrite m seg base (src.drop first.toNat) (len - first) else m

/-- `ring_read_x`. -/
def ringReadX (m : PhysMem) (dst : UInt32) (seg base size pos len : UInt16) : PhysMem :=
  let first := size - pos
  let first := if first > len then len else first
  let m := calls.mnXmemCopyOut m dst seg (base + pos) first
  if len > first then calls.mnXmemCopyOut m (dst + first.toUInt32) seg base (len - first) else m

/-- `ring_write_x`. -/
def ringWriteX (m : PhysMem) (seg base size pos : UInt16) (src : UInt32) (len : UInt16) : PhysMem :=
  let first := size - pos
  let first := if first > len then len else first
  let m := calls.mnXmemCopyIn m seg (base + pos) src first
  if len > first then calls.mnXmemCopyIn m seg base (src + first.toUInt32) (len - first) else m

/-- `mn_tcp_send`. -/
def mnTcpSend (t : MnTcp) (m : PhysMem) (data : List UInt8) (len : UInt16) : UInt16 × MnTcp × PhysMem :=
  let len := sendRoom t len
  if len = 0 then (0, t, m)
  else
    (len, { t with sndLen := t.sndLen + len, txPending := true },
      calls.ringWrite m t.xseg t.sndbuf MN_TCP_SNDBUF ((t.sndHead + t.sndLen) % MN_TCP_SNDBUF) data len)

/-- `mn_tcp_send_x`. -/
def mnTcpSendX (t : MnTcp) (m : PhysMem) (src : UInt32) (len : UInt16) : UInt16 × MnTcp × PhysMem :=
  let len := sendRoom t len
  if len = 0 then (0, t, m)
  else
    (len, { t with sndLen := t.sndLen + len, txPending := true },
      calls.ringWriteX m t.xseg t.sndbuf MN_TCP_SNDBUF ((t.sndHead + t.sndLen) % MN_TCP_SNDBUF) src len)

/-- `mn_tcp_recv`: how many bytes were taken, the socket and the bytes. -/
def mnTcpRecv (t : MnTcp) (m : PhysMem) (cap : UInt16) : UInt16 × MnTcp × List UInt8 :=
  let n := recvCount t cap
  (n, afterRecv t n, if n = 0 then [] else calls.ringRead m t.xseg t.rcvbuf MN_TCP_RCVBUF t.rcvHead n)

/-- `mn_tcp_recv_x`. -/
def mnTcpRecvX (t : MnTcp) (m : PhysMem) (dst : UInt32) (cap : UInt16) : UInt16 × MnTcp × PhysMem :=
  let n := recvCount t cap
  (n, afterRecv t n,
    if n = 0 then m else calls.ringReadX m dst t.xseg t.rcvbuf MN_TCP_RCVBUF t.rcvHead n)

end XmemCalls

/-- The calls of `mn_xmem_m65.c`, over a DMA controller that copies one byte after
another. -/
def m65Calls : XmemCalls where
  mnXmemRead m seg off len := run m (addr seg off) len.toNat
  mnXmemWrite m seg off src len := put m (addr seg off) (src.take len.toNat)
  mnXmemCopyOut m dst seg off len := if len ≠ 0 then copy m (addr seg off) dst len.toNat else m
  mnXmemCopyIn m seg off src len := if len ≠ 0 then copy m src (addr seg off) len.toNat else m

end MegaNet.Core
