import Mathlib.Data.UInt

/-! Bulk memory outside the image, as `mn_xmem.h` offers it, and the ring
copies `mn_tcp.c` builds on it. The pool is addressed by a segment (bits
16-27) and a 16-bit offset; the client's memory by a 28-bit address. -/
namespace MegaNet.Core

/-- The pool, by linear address. -/
abbrev XMem := Nat → UInt8

/-- The machine's memory, by 28-bit address, where the client has its buffers. -/
abbrev PhysMem := UInt32 → UInt8

/-- `ADDR(seg, off)`. -/
def xaddr (seg off : UInt16) : Nat := seg.toNat * 65536 + off.toNat

/-- `mn_xmem_read`: pool to local memory. -/
def mnXmemRead (x : XMem) (seg off len : UInt16) : List UInt8 :=
  (List.range len.toNat).map fun i => x (xaddr seg off + i)

/-- `mn_xmem_write`: local memory to pool. The caller's buffer holds at least
`len` bytes. -/
def mnXmemWrite (x : XMem) (seg off : UInt16) (src : List UInt8) (len : UInt16) : XMem := fun a =>
  if xaddr seg off ≤ a ∧ a < xaddr seg off + len.toNat then src.getD (a - xaddr seg off) 0 else x a

/-- `mn_xmem_copy_out`: pool to 28-bit memory. -/
def mnXmemCopyOut (ext : PhysMem) (dst : UInt32) (x : XMem) (seg off len : UInt16) : PhysMem := fun a =>
  if (a - dst).toNat < len.toNat then x (xaddr seg off + (a - dst).toNat) else ext a

/-- `mn_xmem_copy_in`: 28-bit memory to pool. -/
def mnXmemCopyIn (x : XMem) (seg off : UInt16) (ext : PhysMem) (src : UInt32) (len : UInt16) : XMem :=
  fun a =>
    if xaddr seg off ≤ a ∧ a < xaddr seg off + len.toNat then
      ext (src + UInt32.ofNat (a - xaddr seg off))
    else x a

/-- What the client's memory holds from `src` on. -/
def PhysMem.read (ext : PhysMem) (src : UInt32) (len : UInt16) : List UInt8 :=
  (List.range len.toNat).map fun i => ext (src + UInt32.ofNat i)

/-- `ring_read`: a ring's bytes from `pos` on, in at most two copies. -/
def ringRead (x : XMem) (seg base size pos len : UInt16) : List UInt8 :=
  let first := size - pos
  let first := if first > len then len else first
  mnXmemRead x seg (base + pos) first ++
    if len > first then mnXmemRead x seg base (len - first) else []

/-- `ring_write`. -/
def ringWrite (x : XMem) (seg base size pos : UInt16) (src : List UInt8) (len : UInt16) : XMem :=
  let first := size - pos
  let first := if first > len then len else first
  let x := mnXmemWrite x seg (base + pos) src first
  if len > first then mnXmemWrite x seg base (src.drop first.toNat) (len - first) else x

/-- `ring_read_x`. -/
def ringReadX (ext : PhysMem) (dst : UInt32) (x : XMem) (seg base size pos len : UInt16) : PhysMem :=
  let first := size - pos
  let first := if first > len then len else first
  let ext := mnXmemCopyOut ext dst x seg (base + pos) first
  if len > first then mnXmemCopyOut ext (dst + first.toUInt32) x seg base (len - first) else ext

/-- `ring_write_x`. -/
def ringWriteX (x : XMem) (seg base size pos : UInt16) (ext : PhysMem) (src : UInt32) (len : UInt16) :
    XMem :=
  let first := size - pos
  let first := if first > len then len else first
  let x := mnXmemCopyIn x seg (base + pos) ext src first
  if len > first then mnXmemCopyIn x seg base ext (src + first.toUInt32) (len - first) else x

theorem mnXmemRead_length (x : XMem) (seg off len : UInt16) :
    (mnXmemRead x seg off len).length = len.toNat := by
  simp [mnXmemRead]

/-- However the copy is split, a ring read returns what was asked. -/
theorem ringRead_length (x : XMem) (seg base size pos len : UInt16) :
    (ringRead x seg base size pos len).length = len.toNat := by
  unfold ringRead
  dsimp only
  generalize size - pos = room
  by_cases short : room > len
  · simp [short, mnXmemRead_length]
  · simp only [short, if_false]
    split
    · rename_i more
      have := UInt16.lt_iff_toNat_lt.mp more
      simp only [List.length_append, mnXmemRead_length, UInt16.toNat_sub]
      have := len.toNat_lt
      omega
    · rename_i done
      have same : room = len := by
        rw [← UInt16.toNat_inj]
        simp only [gt_iff_lt, UInt16.lt_iff_toNat_lt] at short done
        omega
      simp [same, mnXmemRead_length]

end MegaNet.Core
